import SaorsaCore.Manager.Messages

/-!
# Delivery of responses

A response reaches a request at most once, and only from the peer that was asked.  The
sending half of a request is in one place at a time: in the context registered for it,
in the hands of one handler, or used up.  A handler that has not claimed a request
changes neither addresses nor publications nor any other request, and one that has
claimed it delivers its message.
-/

namespace SaorsaCore.Manager

open Routing Transition ManagerState Function Option

variable {Score : Type}

/-- The message answers the request: it comes from the peer that was asked, names the
request and carries a result of the kind that was asked for. -/
structure Genuine (pending : PendingRequest Score) (appPeer : PeerId)
    (message : DhtNetworkMessage Score) : Prop where
  peer : appPeer = pending.peerId
  messageId : message.messageId = pending.messageId
  result : ∃ result, message.result = some result ∧ pending.operation.accepts result = true

/-- Nothing has been sent to the request yet, and it would be right to send this. -/
def Awaits (requests : ℕ → Option (PendingRequest Score)) (request : ℕ)
    (appPeer : PeerId) (message : DhtNetworkMessage Score) : Prop :=
  ∃ pending, requests request = some pending ∧ pending.inbox = [] ∧
    pending.isOpen = true ∧ Genuine pending appPeer message

/-- What the phase of a handler says about the request it is about. -/
def Handler.Consistent (requests : ℕ → Option (PendingRequest Score))
    (handler : Handler Score) : Prop :=
  match handler.phase with
  | .claiming appPeer result =>
    appPeer = handler.sender ∧ handler.message.result = some result
  | .normalizing appPeer request _ _ =>
    appPeer = handler.sender ∧ Awaits requests request appPeer handler.message
  | .answering appPeer request _ =>
    appPeer = handler.sender ∧ Awaits requests request appPeer handler.message
  | .delivered request => ∃ pending delivery, requests request = some pending ∧
      pending.inbox = [delivery] ∧ delivery.message = handler.message ∧
        delivery.appPeer = handler.sender
  | .refused reason => reason ≠ .closedDuringProcessing
  | _ => True

/-- The context of a request was registered with it; while it holds the sending half,
nothing has been sent. -/
structure DhtOperationContext.Registered (requests : ℕ → Option (PendingRequest Score))
    (messageId : String) (context : DhtOperationContext) : Prop where
  contacted : context.contactedNodes = [context.peerId]
  waiting : ∀ request, context.responseTx = some request →
    ∃ pending, requests request = some pending ∧ pending.inbox = [] ∧
      pending.messageId = messageId ∧ pending.peerId = context.peerId ∧
        pending.operation = context.operation

/-- The sending half of every request is in one place. -/
structure Correlated (state : ManagerState Score) : Prop where
  requestsFresh : ∀ request, state.requestCount ≤ request → state.requests request = none
  handlersFresh : ∀ number, state.handlerCount ≤ number → state.handlers number = none
  context : ∀ messageId context, state.operations messageId = some context →
    context.Registered state.requests messageId
  handler : ∀ number handler, state.handlers number = some handler →
    handler.Consistent state.requests
  inbox : ∀ request pending, state.requests request = some pending → pending.inbox = [] ∨
      ∃ delivery, pending.inbox = [delivery] ∧ Genuine pending delivery.appPeer delivery.message
  claimed : ∀ number handler request, state.handlers number = some handler →
    handler.phase.holds = some request → ∀ messageId context,
      state.operations messageId = some context → context.responseTx ≠ some request
  alone : ∀ number handler other otherHandler request,
    state.handlers number = some handler → handler.phase.holds = some request →
      state.handlers other = some otherHandler →
        otherHandler.phase.holds = some request → number = other

variable {state next : ManagerState Score}

/-- The request that a phase names. -/
def HandlerPhase.names : HandlerPhase Score → Option ℕ
  | .normalizing _ request _ _ => some request
  | .answering _ request _ => some request
  | .delivered request => some request
  | _ => none

variable {requests : ℕ → Option (PendingRequest Score)} {after : ℕ → Option (PendingRequest Score)}

theorem Handler.Consistent.congr {handler : Handler Score}
    (hconsistent : handler.Consistent requests)
    (hsame : ∀ request, handler.phase.names = some request →
      after request = requests request) : handler.Consistent after := by
  obtain ⟨message, sender, source, phase⟩ := handler
  cases phase with
  | normalizing appPeer request key task =>
    have hrequest := hsame request rfl
    simpa only [Handler.Consistent, Awaits, hrequest] using hconsistent
  | answering appPeer request result =>
    have hrequest := hsame request rfl
    simpa only [Handler.Consistent, Awaits, hrequest] using hconsistent
  | delivered request =>
    have hrequest := hsame request rfl
    simpa only [Handler.Consistent, hrequest] using hconsistent
  | _ => exact hconsistent

theorem DhtOperationContext.Registered.congr {messageId : String} {context : DhtOperationContext}
    (hregistered : context.Registered requests messageId)
    (hsame : ∀ request, context.responseTx = some request →
      after request = requests request) : context.Registered after messageId where
  contacted := hregistered.contacted
  waiting request htx := by
    rw [hsame request htx]
    exact hregistered.waiting request htx

variable {request : ℕ}

theorem Awaits.names {appPeer : PeerId} {message : DhtNetworkMessage Score}
    (hawaits : Awaits requests request appPeer message) : (requests request).isSome := by
  obtain ⟨pending, hpending, -⟩ := hawaits
  rw [hpending]
  rfl

/-- A request that is named by a handler exists. -/
theorem Correlated.isSome_of_names (hcorrelated : Correlated state) {number : ℕ}
    {handler : Handler Score} (hhandler : state.handlers number = some handler)
    (hnames : handler.phase.names = some request) : (state.requests request).isSome := by
  have hconsistent := hcorrelated.handler number handler hhandler
  obtain ⟨message, sender, source, phase⟩ := handler
  cases phase <;> cases hnames
  · exact Awaits.names hconsistent.2
  · exact Awaits.names hconsistent.2
  · obtain ⟨pending, delivery, hpending, -⟩ := hconsistent
    rw [hpending]
    rfl

theorem HandlerPhase.names_of_holds {phase : HandlerPhase Score}
    (hholds : phase.holds = some request) : phase.names = some request := by
  cases phase <;> first | exact hholds | cases hholds

/-! ## Handlers that go on -/

section Turns

variable {number : ℕ} {handler : Handler Score} {phase : HandlerPhase Score}

theorem handlers_setPhase {other : ℕ} {otherHandler : Handler Score}
    (hother : (state.setPhase number handler phase).handlers other = some otherHandler) :
    (other = number ∧ otherHandler = { handler with phase := phase }) ∨
      (other ≠ number ∧ state.handlers other = some otherHandler) :=
  update_eq_some hother

variable (hcorrelated : Correlated state)
include hcorrelated

variable (hhandler : state.handlers number = some handler)
include hhandler

/-- One handler takes its turn: it changes its phase and possibly what requests have
received.  A request that it holds afterwards is held by nobody else. -/
theorem Correlated.turn
    {requests : ℕ → Option (PendingRequest Score)} (held : List (DHTNode Score))
    (hfresh : ∀ request, state.requests request = none → requests request = none)
    (hcontext : ∀ messageId context, state.operations messageId = some context →
      context.Registered requests messageId)
    (hothers : ∀ other otherHandler, other ≠ number →
      state.handlers other = some otherHandler → otherHandler.Consistent requests)
    (hself : ({ handler with phase := phase } : Handler Score).Consistent requests)
    (hinbox : ∀ request pending, requests request = some pending →
      pending.inbox = [] ∨ ∃ delivery, pending.inbox = [delivery] ∧
        Genuine pending delivery.appPeer delivery.message)
    (hholds : ∀ request, phase.holds = some request →
      (∀ messageId context, state.operations messageId = some context →
        context.responseTx ≠ some request) ∧
      ∀ other otherHandler, other ≠ number → state.handlers other = some otherHandler →
        otherHandler.phase.holds ≠ some request) :
    Correlated ({ state with requests := requests, held := held }.setPhase number handler
      phase) where
  requestsFresh request hrequest := hfresh request (hcorrelated.requestsFresh request hrequest)
  handlersFresh other hother := by
    have hnone := hcorrelated.handlersFresh other hother
    have hne : other ≠ number := by
      rintro rfl
      rw [hhandler] at hnone
      cases hnone
    simpa [setPhase, update_of_ne hne] using hnone
  context := hcontext
  handler other otherHandler hother := by
    rcases handlers_setPhase hother with ⟨rfl, rfl⟩ | ⟨hne, hbefore⟩
    · exact hself
    · exact hothers other otherHandler hne hbefore
  inbox := hinbox
  claimed other otherHandler request hother hrequest := by
    rcases handlers_setPhase hother with ⟨rfl, rfl⟩ | ⟨-, hbefore⟩
    · exact (hholds request hrequest).1
    · exact hcorrelated.claimed other otherHandler request hbefore hrequest
  alone first firstHandler second secondHandler request hfirst hfirstHolds hsecond
      hsecondHolds := by
    rcases handlers_setPhase hfirst with ⟨rfl, rfl⟩ | ⟨hfirstNe, hfirstBefore⟩ <;>
      rcases handlers_setPhase hsecond with ⟨rfl, rfl⟩ | ⟨hsecondNe, hsecondBefore⟩
    · rfl
    · exact absurd hsecondHolds
        ((hholds request hfirstHolds).2 second secondHandler hsecondNe hsecondBefore)
    · exact absurd hfirstHolds
        ((hholds request hsecondHolds).2 first firstHandler hfirstNe hfirstBefore)
    · exact hcorrelated.alone first firstHandler second secondHandler request hfirstBefore
        hfirstHolds hsecondBefore hsecondHolds

/-- A handler takes over a request that nobody holds. -/
theorem Correlated.hold (hconsistent : ({ handler with phase := phase } : Handler Score).Consistent
      state.requests)
    (hholds : ∀ request, phase.holds = some request →
      (∀ messageId context, state.operations messageId = some context →
        context.responseTx ≠ some request) ∧
      ∀ other otherHandler, other ≠ number → state.handlers other = some otherHandler →
        otherHandler.phase.holds ≠ some request) :
    Correlated (state.setPhase number handler phase) :=
  hcorrelated.turn hhandler state.held (fun _ hnone => hnone) hcorrelated.context
    (fun other otherHandler _ => hcorrelated.handler other otherHandler) hconsistent
    hcorrelated.inbox hholds

/-- A handler moves to a phase that holds no other request than before. -/
theorem Correlated.setPhase
    (hconsistent : ({ handler with phase := phase } : Handler Score).Consistent
      state.requests)
    (hholds : ∀ request, phase.holds = some request → handler.phase.holds = some request) :
    Correlated (state.setPhase number handler phase) := by
  apply hcorrelated.hold hhandler hconsistent
  intro request hrequest
  refine ⟨hcorrelated.claimed number handler request hhandler (hholds request hrequest), ?_⟩
  intro other otherHandler hne hother hotherHolds
  exact hne (hcorrelated.alone other otherHandler number handler request hother
    hotherHolds hhandler (hholds request hrequest))

theorem Correlated.release
    (hconsistent : ({ handler with phase := phase } : Handler Score).Consistent
      state.requests) (hholds : phase.holds = none) :
    Correlated (state.setPhase number handler phase) := by
  apply hcorrelated.setPhase hhandler hconsistent
  intro request hrequest
  rw [hholds] at hrequest
  cases hrequest

theorem Correlated.refuse {reason : Refusal} (hreason : reason ≠ .closedDuringProcessing) :
    Correlated (state.setPhase number handler (.refused reason)) :=
  hcorrelated.release hhandler hreason rfl

end Turns

/-! ## Claiming and sending -/

section Requests

variable {number : ℕ} {handler : Handler Score}

/-- What a claim can come to. -/
theorem claimResponse_cases (operations : String → Option DhtOperationContext)
    (isClosed : ℕ → Bool) (messageId : String) (appPeer : PeerId)
    (result : DhtNetworkResult Score) :
    (∃ reason, claimResponse operations isClosed messageId appPeer result =
        (operations, .error reason) ∧ reason ≠ .closedDuringProcessing) ∨
    ∃ context request, operations messageId = some context ∧
      (context.peerId = appPeer ∨ appPeer ∈ context.contactedNodes) ∧
      context.operation.accepts result = true ∧ context.responseTx = some request ∧
      claimResponse operations isClosed messageId appPeer result =
        (update operations messageId (some { context with responseTx := none }),
          if isClosed request then .error .cancelled else .ok request) := by
  rw [claimResponse]
  cases hcontext : operations messageId with
  | none => exact .inl ⟨_, rfl, by decide⟩
  | some context =>
    simp only
    split
    · exact .inl ⟨_, rfl, by decide⟩
    · next hsender =>
        split
        · exact .inl ⟨_, rfl, by decide⟩
        · next haccepts =>
            cases htx : context.responseTx with
            | none => exact .inl ⟨_, rfl, by decide⟩
            | some request =>
              refine .inr ⟨context, request, rfl, not_not.mp hsender, by
                simpa using haccepts, htx, ?_⟩
              by_cases hclosed : isClosed request = true <;> simp [hclosed]

variable {messageId : String} {context : DhtOperationContext}

/-- Taking the sending half out of its context. -/
theorem Correlated.take (hcorrelated : Correlated state)
    (hcontext : state.operations messageId = some context) :
    Correlated { state with
      operations := update state.operations messageId
        (some { context with responseTx := none }) } where
  requestsFresh := hcorrelated.requestsFresh
  handlersFresh := hcorrelated.handlersFresh
  context other otherContext hother := by
    rcases update_eq_some hother with ⟨rfl, rfl⟩ | ⟨-, hother⟩
    · exact ⟨(hcorrelated.context other context hcontext).contacted, by simp⟩
    · exact hcorrelated.context other otherContext hother
  handler := hcorrelated.handler
  inbox := hcorrelated.inbox
  claimed holder holderHandler held hholder hheld other otherContext hother := by
    rcases update_eq_some hother with ⟨rfl, rfl⟩ | ⟨-, hother⟩
    · simp
    · exact hcorrelated.claimed holder holderHandler held hholder hheld other otherContext hother
  alone := hcorrelated.alone

variable {request : ℕ}

variable (hcorrelated : Correlated state)
include hcorrelated

section

variable (hcontext : state.operations messageId = some context)
include hcontext

/-- No handler holds a request whose sending half is still in its context. -/
theorem Correlated.unheld
    (htx : context.responseTx = some request) {holder : ℕ} {holderHandler : Handler Score}
    (hholder : state.handlers holder = some holderHandler) :
    holderHandler.phase.holds ≠ some request := by
  intro hholds
  exact hcorrelated.claimed holder holderHandler request hholder hholds messageId context
    hcontext htx

/-- The context of a claimed request names the peer and the operation. -/
theorem Correlated.awaits
    (htx : context.responseTx = some request) (hopen : state.isClosed request = false)
    {appPeer : PeerId} (hpeer : context.peerId = appPeer ∨ appPeer ∈ context.contactedNodes)
    {message : DhtNetworkMessage Score} (hmessage : message.messageId = messageId)
    {result : DhtNetworkResult Score} (hresult : message.result = some result)
    (haccepts : context.operation.accepts result = true) :
    Awaits state.requests request appPeer message := by
  have hregistered := hcorrelated.context messageId context hcontext
  obtain ⟨pending, hpending, hinbox, hid, hpendingPeer, hoperation⟩ :=
    hregistered.waiting request htx
  refine ⟨pending, hpending, hinbox, ?_, ?_, ?_, ?_⟩
  · simpa [isClosed, hpending] using hopen
  · rw [hregistered.contacted, List.mem_singleton] at hpeer
    rw [hpendingPeer]
    exact (or_self_iff.mp (hpeer.imp_left Eq.symm))
  · rw [hmessage, hid]
  · exact ⟨result, hresult, hoperation ▸ haccepts⟩

/-- After the claim the sending half is in no context. -/
theorem Correlated.taken (htx : context.responseTx = some request) {other : String}
    {otherContext : DhtOperationContext} (hother : update state.operations messageId
      (some { context with responseTx := none }) other = some otherContext) :
    otherContext.responseTx ≠ some request := by
  rcases update_eq_some hother with ⟨rfl, rfl⟩ | ⟨hne, hother⟩
  · simp
  · intro hotherTx
    -- Both contexts name the request, so they are registered under its id.
    obtain ⟨pending, hpending, -, hid, -⟩ :=
      (hcorrelated.context messageId context hcontext).waiting request htx
    obtain ⟨otherPending, hotherPending, -, hotherId, -⟩ :=
      (hcorrelated.context other otherContext hother).waiting request hotherTx
    rw [hpending] at hotherPending
    cases hotherPending
    exact hne (hotherId.symm.trans hid)

end

/-- Sending the message a request was waiting for. -/
theorem Correlated.send (hhandler : state.handlers number = some handler)
    (hholds : handler.phase.holds = some request) {pending : PendingRequest Score}
    (hpending : state.requests request = some pending) (hinbox : pending.inbox = [])
    {delivery : Delivery Score} (hgenuine : Genuine pending delivery.appPeer delivery.message)
    (hmessage : delivery.message = handler.message)
    (hsender : delivery.appPeer = handler.sender) (held : List (DHTNode Score)) :
    Correlated ({ state with
      requests := update state.requests request
        (some { pending with inbox := delivery :: pending.inbox })
      held := held }.setPhase number handler (.delivered request)) := by
  have hrequest : ∀ other, other ≠ request → update state.requests request
        (some { pending with inbox := delivery :: pending.inbox }) other =
          state.requests other := by
    intro other hne
    exact update_of_ne hne _ _
  apply hcorrelated.turn hhandler
  · intro other hnone
    rw [hrequest other, hnone]
    rintro rfl
    rw [hpending] at hnone
    cases hnone
  · intro messageId context hcontext
    apply (hcorrelated.context messageId context hcontext).congr
    intro other htx
    apply hrequest
    rintro rfl
    exact hcorrelated.claimed number handler other hhandler hholds messageId context hcontext htx
  · intro other otherHandler hne hother
    apply (hcorrelated.handler other otherHandler hother).congr
    intro named hnames
    apply hrequest
    rintro rfl
    -- A second handler of the request would hold it too, or has already delivered.
    have hconsistent := hcorrelated.handler other otherHandler hother
    obtain ⟨message, sender, source, phase⟩ := otherHandler
    cases phase <;> cases hnames
    · exact hne (hcorrelated.alone _ _ _ _ _ hother rfl hhandler hholds)
    · exact hne (hcorrelated.alone _ _ _ _ _ hother rfl hhandler hholds)
    · obtain ⟨other, delivered, hsame, hfull, -⟩ := hconsistent
      rw [hpending] at hsame
      cases hsame
      rw [hinbox] at hfull
      cases hfull
  · exact ⟨_, delivery, update_self .., by simp [hinbox], hmessage, hsender⟩
  · intro other otherPending hother
    rcases update_eq_some hother with ⟨rfl, rfl⟩ | ⟨-, hother⟩
    · exact .inr ⟨delivery, by simp [hinbox], hgenuine.peer, hgenuine.messageId, hgenuine.result⟩
    · exact hcorrelated.inbox other otherPending hother
  · intro other hnone
    cases hnone

end Requests

/-! ## Every step -/

/-- Only operations, requests and handlers matter. -/
theorem Correlated.silent (hcorrelated : Correlated state)
    (hoperations : next.operations = state.operations)
    (hrequests : next.requests = state.requests)
    (hrequestCount : next.requestCount = state.requestCount)
    (hhandlers : next.handlers = state.handlers)
    (hhandlerCount : next.handlerCount = state.handlerCount) : Correlated next where
  requestsFresh := by
    rw [hrequests, hrequestCount]
    exact hcorrelated.requestsFresh
  handlersFresh := by
    rw [hhandlers, hhandlerCount]
    exact hcorrelated.handlersFresh
  context := by
    rw [hoperations, hrequests]
    exact hcorrelated.context
  handler := by
    rw [hhandlers, hrequests]
    exact hcorrelated.handler
  inbox := by
    rw [hrequests]
    exact hcorrelated.inbox
  claimed := by
    rw [hhandlers, hoperations]
    exact hcorrelated.claimed
  alone := by
    rw [hhandlers]
    exact hcorrelated.alone

theorem Correlated.withStore (hcorrelated : Correlated state) (store : AddressStore) :
    Correlated { state with store := store } :=
  hcorrelated.silent rfl rfl rfl rfl rfl

section Steps

variable [LinearOrder Score] {config : ManagerConfig Score} {number : ℕ}
  {handler : Handler Score}

variable {appPeer : PeerId}

omit [LinearOrder Score] in
theorem canonicalAppPeerId_eq_some {peer : PeerId}
    (hpeer : state.canonicalAppPeerId peer = some appPeer) :
    appPeer = peer ∧ state.authenticated peer = true := by
  simp only [canonicalAppPeerId, ite_none_right_eq_some, some.injEq] at hpeer
  exact ⟨hpeer.2.symm, hpeer.1⟩

section

variable (hcorrelated : Correlated state)
include hcorrelated

section

variable (hhandler : state.handlers number = some handler)
include hhandler

omit [LinearOrder Score] in
theorem Correlated.dispatch : Correlated (state.dispatch config number handler) := by
  rw [ManagerState.dispatch]
  split
  · exact (hcorrelated.withStore _).release hhandler trivial rfl
  · split
    · exact hcorrelated.refuse hhandler (by decide)
    · next result hresult =>
        split
        · next appPeer hpeer =>
            exact hcorrelated.release hhandler ⟨(canonicalAppPeerId_eq_some hpeer).1, hresult⟩ rfl
        · exact hcorrelated.refuse hhandler (by decide)
  · exact hcorrelated.release hhandler trivial rfl
  · exact hcorrelated.release hhandler trivial rfl

theorem Correlated.claim {result : DhtNetworkResult Score}
    (hsender : appPeer = handler.sender) (hresult : handler.message.result = some result) :
    Correlated (state.claim config number handler appPeer result) := by
  rw [ManagerState.claim]
  rcases claimResponse_cases state.operations state.isClosed handler.message.messageId
      appPeer result with ⟨reason, hclaim, hreason⟩ |
        ⟨context, request, hcontext, hpeer, haccepts, htx, hclaim⟩
  · rw [hclaim]
    exact hcorrelated.refuse hhandler hreason
  · rw [hclaim]
    have htaken := hcorrelated.take hcontext
    cases hclosed : state.isClosed request with
    | true =>
      exact htaken.refuse hhandler (by decide)
    | false =>
      have hawaits := hcorrelated.awaits hcontext htx hclosed hpeer rfl hresult haccepts
      have hfree : ∀ held, some request = some held → (∀ other otherContext, update state.operations
            handler.message.messageId (some { context with responseTx := none }) other =
              some otherContext → otherContext.responseTx ≠ some held) ∧
          ∀ other otherHandler, other ≠ number → state.handlers other = some otherHandler →
              otherHandler.phase.holds ≠ some held := by
        rintro held ⟨⟩
        refine ⟨fun _ _ hother => hcorrelated.taken hcontext htx hother, ?_⟩
        intro other otherHandler _ hother
        exact hcorrelated.unheld hcontext htx hother
      cases result with
      | nodesFound key nodes =>
        exact (htaken.withStore _).hold hhandler ⟨hsender, hawaits⟩ hfree
      | _ => exact htaken.hold hhandler ⟨hsender, hawaits⟩ hfree

omit [LinearOrder Score] in
theorem Correlated.sendResponse {request : ℕ}
    {result : DhtNetworkResult Score}
    (hphase : handler.phase = .answering appPeer request result) :
    Correlated (state.sendResponse number handler appPeer request result) := by
  have hconsistent := hcorrelated.handler number handler hhandler
  rw [Handler.Consistent, hphase] at hconsistent
  obtain ⟨hsender, pending, hpending, hinbox, hopen, hgenuine⟩ := hconsistent
  rw [ManagerState.sendResponse, hpending]
  simp only
  rw [if_pos hopen]
  have hholds : handler.phase.holds = some request := by
    rw [hphase]
    rfl
  let delivery : Delivery Score := ⟨appPeer, handler.message, result⟩
  have hdelivery : Genuine pending delivery.appPeer delivery.message := hgenuine
  exact hcorrelated.send hhandler hholds hpending hinbox hdelivery rfl hsender _

theorem Correlated.handle
    (hstep : state.handle config number handler = some next) : Correlated next := by
  have hconsistent := hcorrelated.handler number handler hhandler
  rw [ManagerState.handle] at hstep
  rw [Handler.Consistent] at hconsistent
  cases hphase : handler.phase with
  | arrived topic =>
    simp only [hphase, some.injEq] at hstep
    rw [← hstep]
    split
    · exact hcorrelated.refuse hhandler (by decide)
    · split
      · exact hcorrelated.release hhandler trivial rfl
      · exact hcorrelated.release hhandler trivial rfl
  | updating appPeer =>
    simp only [hphase, some.injEq] at hstep
    rw [← hstep]
    exact (hcorrelated.withStore _).release hhandler trivial rfl
  | dispatching =>
    simp only [hphase, some.injEq] at hstep
    exact hstep ▸ hcorrelated.dispatch hhandler
  | serving task =>
    cases task <;> simp only [hphase, some.injEq] at hstep <;> rw [← hstep]
    · exact hcorrelated.release hhandler trivial rfl
    · exact (hcorrelated.withStore _).release hhandler trivial rfl
  | claiming appPeer result =>
    simp only [hphase, some.injEq] at hstep hconsistent
    exact hstep ▸ hcorrelated.claim hhandler hconsistent.1 hconsistent.2
  | normalizing appPeer request key task =>
    simp only [hphase] at hconsistent
    cases task <;> simp only [hphase, some.injEq] at hstep <;> rw [← hstep]
    · exact hcorrelated.setPhase hhandler hconsistent fun _ hholds => by
        rw [hphase]
        exact hholds
    · exact (hcorrelated.withStore _).setPhase hhandler hconsistent fun _ hholds => by
        rw [hphase]
        exact hholds
  | answering appPeer request result =>
    simp only [hphase, some.injEq] at hstep
    exact hstep ▸ hcorrelated.sendResponse hhandler hphase
  | _ => simp [hphase] at hstep

end

omit [LinearOrder Score] in
theorem Correlated.register (peer : PeerId) (operation : DhtNetworkOperation) (messageId : String) :
    Correlated (state.register config peer operation messageId) := by
  -- The new request has a number that nothing mentions yet.
  have hnew := hcorrelated.requestsFresh state.requestCount le_rfl
  have hold : ∀ request, (state.requests request).isSome →
      (state.register config peer operation messageId).requests request =
        state.requests request := by
    intro request hsome
    apply update_of_ne
    rintro rfl
    rw [hnew] at hsome
    cases hsome
  have hswept : ∀ other context,
      sweepExpiredOperations state.operations state.store.now other = some context →
        state.operations other = some context :=
    fun other context hother => (filter_eq_some_iff.mp hother).1
  refine ⟨?_, hcorrelated.handlersFresh, ?_, ?_, ?_, ?_, hcorrelated.alone⟩
  · intro request hrequest
    have hne : request ≠ state.requestCount := by
      rintro rfl
      exact absurd hrequest (by simp [ManagerState.register])
    have hbefore : state.requestCount ≤ request := by
      simp only [ManagerState.register] at hrequest
      omega
    simpa [ManagerState.register, update_of_ne hne] using hcorrelated.requestsFresh request hbefore
  · intro other context hother
    rcases update_eq_some hother with ⟨rfl, rfl⟩ | ⟨-, hother⟩
    · refine ⟨rfl, ?_⟩
      rintro request ⟨⟩
      exact ⟨_, update_self .., rfl, rfl, rfl, rfl⟩
    · have hregistered := hcorrelated.context other context (hswept other context hother)
      apply hregistered.congr
      intro request htx
      obtain ⟨pending, hpending, -⟩ := hregistered.waiting request htx
      exact hold request (by rw [hpending]; rfl)
  · intro number handler hhandler
    apply (hcorrelated.handler number handler hhandler).congr
    intro request hnames
    exact hold request (hcorrelated.isSome_of_names hhandler hnames)
  · intro request pending hpending
    rcases update_eq_some hpending with ⟨rfl, rfl⟩ | ⟨-, hpending⟩
    · exact .inl rfl
    · exact hcorrelated.inbox request pending hpending
  · intro number handler request hhandler hholds other context hother
    rcases update_eq_some hother with ⟨rfl, rfl⟩ | ⟨-, hother⟩
    · rintro ⟨⟩
      have hsome := hcorrelated.isSome_of_names hhandler (HandlerPhase.names_of_holds hholds)
      rw [hnew] at hsome
      cases hsome
    · exact hcorrelated.claimed number handler request hhandler hholds other context
        (hswept other context hother)

omit [LinearOrder Score] in
/-- The receiver of a request that no handler holds goes away. -/
theorem Correlated.dropReceiver {request : ℕ}
    {pending : PendingRequest Score} (hpending : state.requests request = some pending)
    (hunheld : ∀ number handler, state.handlers number = some handler →
      handler.phase.holds ≠ some request) :
    Correlated { state with
      requests := update state.requests request
        (some { pending with isOpen := false }) } := by
  have hother : ∀ other, other ≠ request → update state.requests request
      (some { pending with isOpen := false }) other = state.requests other := by
    intro other hne
    exact update_of_ne hne _ _
  refine ⟨?_, hcorrelated.handlersFresh, ?_, ?_, ?_, hcorrelated.claimed, hcorrelated.alone⟩
  · intro other hfresh
    have hnone := hcorrelated.requestsFresh other hfresh
    have hne : other ≠ request := by
      rintro rfl
      rw [hpending] at hnone
      cases hnone
    exact (hother other hne).trans hnone
  · intro messageId context hcontext
    have hregistered := hcorrelated.context messageId context hcontext
    refine ⟨hregistered.contacted, ?_⟩
    intro other htx
    obtain ⟨waiting, hwaiting, hinbox, hid, hpeer, hoperation⟩ :=
      hregistered.waiting other htx
    by_cases hne : other = request
    · subst hne
      rw [hpending] at hwaiting
      cases hwaiting
      exact ⟨_, update_self .., hinbox, hid, hpeer, hoperation⟩
    · exact ⟨waiting, (hother other hne).trans hwaiting, hinbox, hid, hpeer, hoperation⟩
  · intro number handler hhandler
    have hconsistent := hcorrelated.handler number handler hhandler
    by_cases hnames : handler.phase.names = some request
    · -- It does not hold the request, so it has delivered to it.
      have hholds := hunheld number handler hhandler
      obtain ⟨message, sender, source, phase⟩ := handler
      cases phase <;> cases hnames
      · exact absurd rfl hholds
      · exact absurd rfl hholds
      · obtain ⟨received, delivery, hreceived, hinbox, hmessage⟩ := hconsistent
        rw [hpending] at hreceived
        cases hreceived
        exact ⟨_, delivery, update_self .., hinbox, hmessage⟩
    · apply hconsistent.congr
      intro other hother'
      apply hother
      rintro rfl
      exact hnames hother'
  · intro other otherPending hotherPending
    rcases update_eq_some hotherPending with ⟨rfl, rfl⟩ | ⟨-, hotherPending⟩
    · rcases hcorrelated.inbox other pending hpending with hempty | ⟨delivery, hfull, hgenuine⟩
      · exact .inl hempty
      · exact .inr ⟨delivery, hfull, hgenuine.peer, hgenuine.messageId, hgenuine.result⟩
    · exact hcorrelated.inbox other otherPending hotherPending

omit [LinearOrder Score] in
theorem Correlated.dropGuard (messageId : String) :
    Correlated { state with
      operations := update state.operations messageId none } := by
  have hbefore : ∀ other context, update state.operations messageId none other =
      some context → state.operations other = some context := by
    intro other context hother
    by_cases hne : other = messageId
    · subst hne
      simp at hother
    · rwa [update_of_ne hne] at hother
  refine ⟨hcorrelated.requestsFresh, hcorrelated.handlersFresh, ?_, hcorrelated.handler,
    hcorrelated.inbox, ?_, hcorrelated.alone⟩
  · intro other context hother
    exact hcorrelated.context other context (hbefore other context hother)
  · intro number handler request hhandler hholds other context hother
    exact hcorrelated.claimed number handler request hhandler hholds other context
      (hbefore other context hother)

omit [LinearOrder Score] in
/-- A message arrives and gets a handler of its own. -/
theorem Correlated.receive (handler : Handler Score)
    (hnames : handler.phase.names = none) (hconsistent : handler.Consistent state.requests) :
    Correlated { state with
      handlers := update state.handlers state.handlerCount (some handler)
      handlerCount := state.handlerCount + 1 } := by
  have hholds : ∀ request, handler.phase.holds ≠ some request := by
    intro request hrequest
    rw [HandlerPhase.names_of_holds hrequest] at hnames
    cases hnames
  refine ⟨hcorrelated.requestsFresh, ?_, hcorrelated.context, ?_, hcorrelated.inbox, ?_, ?_⟩
  · intro number hnumber
    have hne : number ≠ state.handlerCount := by
      rintro rfl
      simp at hnumber
    simpa [update_of_ne hne] using hcorrelated.handlersFresh number (by simp only at hnumber; omega)
  · intro number other hother
    rcases update_eq_some hother with ⟨-, rfl⟩ | ⟨-, hbefore⟩
    · exact hconsistent
    · exact hcorrelated.handler number other hbefore
  · intro number other request hother hrequest
    rcases update_eq_some hother with ⟨-, rfl⟩ | ⟨-, hbefore⟩
    · exact absurd hrequest (hholds request)
    · exact hcorrelated.claimed number other request hbefore hrequest
  · intro first firstHandler second secondHandler request hfirst hfirstHolds hsecond hsecondHolds
    rcases update_eq_some hfirst with ⟨-, rfl⟩ | ⟨-, hfirstBefore⟩
    · exact absurd hfirstHolds (hholds request)
    · rcases update_eq_some hsecond with ⟨-, rfl⟩ | ⟨-, hsecondBefore⟩
      · exact absurd hsecondHolds (hholds request)
      · exact hcorrelated.alone first firstHandler second secondHandler request
          hfirstBefore hfirstHolds hsecondBefore hsecondHolds

/-- The invariant along a step. -/
theorem Correlated.step {step : ManagerStep Score}
    (hpatient : patient state step) (hstep : managerStep config state step = some next) :
    Correlated next := by
  cases step with
  | tick now =>
    cases hstep
    exact hcorrelated.withStore _
  | readdress context =>
    cases hstep
    exact hcorrelated.withStore _
  | authenticate authenticated =>
    cases hstep
    exact hcorrelated.silent rfl rfl rfl rfl rfl
  | routing op =>
    simp only [managerStep, ite_none_left_eq_some, some.injEq] at hstep
    exact hstep.2 ▸ hcorrelated.withStore _
  | sendRequest peer operation messageId =>
    cases hstep
    exact hcorrelated.register peer operation messageId
  | dropReceiver request =>
    obtain ⟨pending, hpending, rfl⟩ := map_eq_some_iff.mp hstep
    apply hcorrelated.dropReceiver hpending
    intro number handler hhandler hholds
    have hlt : number < state.handlerCount := by
      by_contra hge
      rw [hcorrelated.handlersFresh number (not_lt.mp hge)] at hhandler
      cases hhandler
    exact hpatient number hlt (by rw [hhandler]; exact hholds)
  | dropGuard request =>
    obtain ⟨pending, hpending, rfl⟩ := map_eq_some_iff.mp hstep
    exact hcorrelated.dropGuard pending.messageId
  | receive topic message sender transportSource =>
    cases hstep
    exact hcorrelated.receive _ rfl trivial
  | handle number =>
    obtain ⟨handler, hhandler, hhandle⟩ := bind_eq_some_iff.mp hstep
    exact hcorrelated.handle hhandler hhandle
  | abandon number =>
    obtain ⟨handler, hhandler, habandon⟩ := bind_eq_some_iff.mp hstep
    simp only [ite_none_left_eq_some, some.injEq] at habandon
    exact habandon.2 ▸ hcorrelated.release hhandler trivial rfl
  | start job =>
    simp only [managerStep, ite_none_right_eq_some, some.injEq] at hstep
    exact hstep.2 ▸ hcorrelated.silent rfl rfl rfl rfl rfl
  | run number =>
    rw [managerStep] at hstep
    split at hstep
    · cases hstep
    · cases hstep
      exact hcorrelated.silent rfl rfl rfl rfl rfl
    · cases hstep
      exact hcorrelated.silent rfl rfl rfl rfl rfl
  | hold node =>
    simp only [managerStep, ite_none_right_eq_some, some.injEq] at hstep
    exact hstep.2 ▸ hcorrelated.silent rfl rfl rfl rfl rfl

end

/-- The invariant along a run. -/
theorem reaches_correlated {context : DialAddressContext} {now : ℕ}
    (hreaches : Reaches (managerStep config) patient (.initial config context now) state) :
    Correlated state := by
  apply hreaches.invariant
  · constructor <;> intros <;> first | rfl | contradiction
  · intro before step after hcorrelated hpatient hstep
    exact hcorrelated.step hpatient hstep

end Steps

end SaorsaCore.Manager
