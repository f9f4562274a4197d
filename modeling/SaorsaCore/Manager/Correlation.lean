import SaorsaCore.Manager.Delivery
import SaorsaCore.Routing.AddressView

/-!
# Correlation of responses with requests

A handler that is going to refuse its message has changed nothing but, for a cancelled
request, the context of that request.  A handler that has claimed a request is not
going to refuse its message.  So after a refusal the contacted peer can still answer,
and what a request receives is one answer of the contacted peer.
-/

namespace SaorsaCore.Manager

open Routing Transition ManagerState HandlerPhase Option Function RoutingTable

variable {Score : Type} {state next : ManagerState Score}

/-! ## Phases that are not left -/

/-- A message whose handler has come here is not going to be refused. -/
def HandlerPhase.isAccepted : HandlerPhase Score → Bool
  | .serving _ | .normalizing _ _ _ _ | .answering _ _ _ | .delivered _ | .finished
  | .abandoned => true
  | .arrived _ | .updating _ | .dispatching | .claiming _ _ | .refused _ => false

/-- How the phase of a handler may change. -/
structure HandlerPhase.Leads (before after : HandlerPhase Score) : Prop where
  accepted : before.isAccepted = true → after.isAccepted = true
  refused : ∀ reason, before = .refused reason → after = .refused reason

namespace HandlerPhase.Leads

variable {before middle after : HandlerPhase Score}

theorem refl (phase : HandlerPhase Score) : phase.Leads phase :=
  ⟨id, fun _ => id⟩

theorem trans (hfirst : before.Leads middle) (hsecond : middle.Leads after) :
    before.Leads after where
  accepted haccepted := hsecond.accepted (hfirst.accepted haccepted)
  refused reason hrefused := hsecond.refused reason (hfirst.refused reason hrefused)

/-- A handler in progress may go wherever the message is accepted. -/
theorem of_isAccepted (hbefore : ∀ reason, before ≠ .refused reason)
    (hafter : after.isAccepted = true) : before.Leads after where
  accepted _ := hafter
  refused reason hrefused := absurd hrefused (hbefore reason)

theorem of_undecided (hbefore : before.isAccepted = false)
    (hrefused : ∀ reason, before ≠ .refused reason) : before.Leads after where
  accepted haccepted := by
    rw [hbefore] at haccepted
    cases haccepted
  refused reason hreason := absurd hreason (hrefused reason)

end HandlerPhase.Leads

/-! ## What a handler changes before it has claimed a request -/

/-- The two stores agree on the addresses and the publications of every peer. -/
structure AddressStore.SameAddresses (before after : AddressStore) : Prop where
  addresses : ∀ peer,
    (after.table.findNodeById peer).map (fun node => (node.addresses, node.addressTypes)) =
      (before.table.findNodeById peer).map fun node => (node.addresses, node.addressTypes)
  publications : after.table.addressPublications = before.table.addressPublications

theorem AddressStore.SameAddresses.refl (store : AddressStore) : store.SameAddresses store :=
  ⟨fun _ => rfl, rfl⟩

theorem AddressStore.sameAddresses_touch (store : AddressStore) (peer : PeerId)
    (addressType : AddressType) (now : ℕ) :
    store.SameAddresses { store with
      table := (touchNodeTyped store.table peer none addressType now).1 } := by
  rw [touchNodeTyped_none]
  refine ⟨?_, addressPublications_tryTouchLastSeen ..⟩
  intro other
  have hrewrites := tryTouchLastSeen_rewrites store.table peer none addressType now
  simp only [hrewrites.findNode other]
  split
  · next hother =>
      subst hother
      cases store.table.findNodeById other with
      | none => rfl
      | some node => simp [observedAddress, KBucket.seenNode, KBucket.mergeIsNoop]
  · rfl

/-- The identity under which a handler deals with a response. -/
def HandlerPhase.identity : HandlerPhase Score → Option PeerId
  | .claiming appPeer _ | .normalizing appPeer _ _ _ | .answering appPeer _ _ => some appPeer
  | _ => none

theorem HandlerPhase.forall_identity {phase : HandlerPhase Score}
    {property : PeerId → Prop} (hnone : phase.identity = none) :
    ∀ appPeer, phase.identity = some appPeer → property appPeer := by
  intro appPeer hsome
  rw [hnone] at hsome
  contradiction

/-- An action after which the handler is in `phase` and the message is not accepted. -/
structure Harmless (state next : ManagerState Score) (messageId : String)
    (phase : HandlerPhase Score) : Prop where
  addresses : state.store.SameAddresses next.store
  requests : next.requests = state.requests
  others : ∀ other, other ≠ messageId → next.operations other = state.operations other
  operations : phase ≠ .refused .cancelled → next.operations = state.operations

theorem Harmless.setPhase (number : ℕ) (handler : Handler Score) (messageId : String)
    (phase : HandlerPhase Score) :
    Harmless state (state.setPhase number handler phase) messageId phase :=
  ⟨.refl _, rfl, fun _ _ => rfl, fun _ => rfl⟩

section Steps

variable [LinearOrder Score] {config : ManagerConfig Score} {number : ℕ}
  {handler : Handler Score}

/-- The handler acts and is in `phase` afterwards: either the message is accepted, or
nothing of importance has happened. -/
structure HandlerTurn (state next : ManagerState Score) (number : ℕ) (handler : Handler Score)
    (phase : HandlerPhase Score) : Prop where
  handlers : next.handlers =
    Function.update state.handlers number (some { handler with phase := phase })
  leads : handler.phase.Leads phase
  harmless : phase.isAccepted = true ∨ Harmless state next handler.message.messageId phase
  identity : ∀ appPeer, phase.identity = some appPeer →
    handler.phase.identity = some appPeer ∨ state.authenticated appPeer = true
  inbox : ∀ request pending, next.requests request = some pending → ∀ delivery ∈ pending.inbox,
      (∃ before, state.requests request = some before ∧ delivery ∈ before.inbox) ∨
        handler.phase.identity = some delivery.appPeer

variable {phase : HandlerPhase Score}

omit [LinearOrder Score] in
/-- An action that sends nothing. -/
theorem HandlerTurn.of_requests (hhandlers : next.handlers =
      update state.handlers number (some { handler with phase := phase }))
    (hrequests : next.requests = state.requests) (hleads : handler.phase.Leads phase)
    (hharmless : phase.isAccepted = true ∨ Harmless state next handler.message.messageId phase)
    (hidentity : ∀ appPeer, phase.identity = some appPeer →
      handler.phase.identity = some appPeer ∨ state.authenticated appPeer = true) :
    HandlerTurn state next number handler phase where
  handlers := hhandlers
  leads := hleads
  harmless := hharmless
  identity := hidentity
  inbox request pending hpending delivery hdelivery := by
    rw [hrequests] at hpending
    exact .inl ⟨pending, hpending, hdelivery⟩

omit [LinearOrder Score] in
theorem HandlerTurn.setPhase (hleads : handler.phase.Leads phase)
    (hidentity : ∀ appPeer, phase.identity = some appPeer → state.authenticated appPeer = true) :
    HandlerTurn state (state.setPhase number handler phase) number handler phase := by
  refine HandlerTurn.of_requests rfl rfl hleads (.inr (Harmless.setPhase number handler _ phase)) ?_
  intro appPeer hphase
  exact .inr (hidentity appPeer hphase)

omit [LinearOrder Score] in
theorem exists_turn_dispatch (hphase : handler.phase = .dispatching) :
    ∃ phase, HandlerTurn state (state.dispatch config number handler) number handler phase := by
  have hleads : ∀ phase, handler.phase.Leads phase := by
    intro phase
    rw [hphase]
    exact .of_undecided rfl (by simp)
  rw [dispatch]
  split
  · exact ⟨_, .of_requests rfl rfl (hleads _) (.inl rfl) (forall_identity rfl)⟩
  · split
    · exact ⟨_, .setPhase (hleads _) (forall_identity rfl)⟩
    · split
      · next appPeer hpeer =>
          obtain ⟨rfl, hauthenticated⟩ := canonicalAppPeerId_eq_some hpeer
          refine ⟨_, .setPhase (hleads _) ?_⟩
          rintro appPeer ⟨⟩
          exact hauthenticated
      · exact ⟨_, .setPhase (hleads _) (forall_identity rfl)⟩
  · exact ⟨_, .setPhase (hleads _) (forall_identity rfl)⟩
  · exact ⟨_, .setPhase (hleads _) (forall_identity rfl)⟩

theorem exists_turn_claim {appPeer : PeerId} {result : DhtNetworkResult Score}
    (hphase : handler.phase = .claiming appPeer result) :
    ∃ phase, HandlerTurn state (state.claim config number handler appPeer result) number handler
      phase := by
  have hleads : ∀ phase, handler.phase.Leads phase := by
    intro phase
    rw [hphase]
    exact .of_undecided rfl (by simp)
  have hsame : ∀ other, some appPeer = some other →
      handler.phase.identity = some other ∨ state.authenticated other = true := by
    intro other hother
    rw [hphase]
    exact .inl hother
  rw [claim]
  rcases claimResponse_cases state.operations state.isClosed handler.message.messageId
      appPeer result with ⟨reason, hclaim, -⟩ | ⟨context, request, -, -, -, -, hclaim⟩
  · rw [hclaim]
    exact ⟨_, .setPhase (hleads _) (forall_identity rfl)⟩
  · rw [hclaim]
    cases state.isClosed request with
    | true =>
      refine ⟨.refused .cancelled, .of_requests rfl rfl (hleads _)
        (.inr ⟨.refl _, rfl, ?_, ?_⟩) (forall_identity rfl)⟩
      · intro other hother
        exact update_of_ne hother _ _
      · intro hnot
        exact absurd rfl hnot
    | false =>
      cases result with
      | nodesFound key nodes => exact ⟨_, .of_requests rfl rfl (hleads _) (.inl rfl) hsame⟩
      | _ => exact ⟨_, .of_requests rfl rfl (hleads _) (.inl rfl) hsame⟩

omit [LinearOrder Score] in
/-- Sending the answer, while the request waits for it. -/
theorem exists_turn_sendResponse {appPeer : PeerId} {request : ℕ}
    {result : DhtNetworkResult Score} (hphase : handler.phase = .answering appPeer request result)
    (hawaits : Awaits state.requests request appPeer handler.message) :
    ∃ phase, HandlerTurn state (state.sendResponse number handler appPeer request result) number
      handler phase := by
  obtain ⟨pending, hpending, -, hopen, -⟩ := hawaits
  rw [sendResponse, hpending]
  simp only
  rw [if_pos hopen]
  refine ⟨.delivered request, rfl, hphase ▸ .of_isAccepted (by simp) rfl, .inl rfl,
    forall_identity rfl, ?_⟩
  intro other received hreceived delivery hdelivery
  rcases update_eq_some hreceived with ⟨rfl, rfl⟩ | ⟨-, hreceived⟩
  · rcases List.mem_cons.mp hdelivery with rfl | hmem
    · rw [hphase]
      exact .inr rfl
    · exact .inl ⟨pending, hpending, hmem⟩
  · exact .inl ⟨received, hreceived, hdelivery⟩

/-- What an action of a handler comes to. -/
theorem Correlated.exists_turn (hcorrelated : Correlated state)
    (hhandler : state.handlers number = some handler)
    (hstep : state.handle config number handler = some next) :
    ∃ phase, HandlerTurn state next number handler phase := by
  have hconsistent := hcorrelated.handler number handler hhandler
  rw [ManagerState.handle] at hstep
  rw [Handler.Consistent] at hconsistent
  cases hphase : handler.phase with
  | arrived topic =>
    have hleads : ∀ phase, handler.phase.Leads phase := by
      intro phase
      rw [hphase]
      exact .of_undecided rfl (by simp)
    simp only [hphase, some.injEq] at hstep
    rw [← hstep]
    split
    · exact ⟨_, .setPhase (hleads _) (HandlerPhase.forall_identity rfl)⟩
    · split <;> exact ⟨_, .setPhase (hleads _) (HandlerPhase.forall_identity rfl)⟩
  | updating appPeer =>
    simp only [hphase, some.injEq] at hstep
    rw [← hstep]
    refine ⟨.dispatching, .of_requests rfl rfl ?_ (.inr ⟨?_, rfl, fun _ _ => rfl,
      fun _ => rfl⟩) (HandlerPhase.forall_identity rfl)⟩
    · rw [hphase]
      exact .of_undecided rfl (by simp)
    · exact state.store.sameAddresses_touch appPeer .unverified state.store.now
  | dispatching =>
    simp only [hphase, some.injEq] at hstep
    exact hstep ▸ exists_turn_dispatch hphase
  | serving task =>
    cases task <;> simp only [hphase, some.injEq] at hstep <;> rw [← hstep] <;>
      exact ⟨_, .of_requests rfl rfl (hphase ▸ .of_isAccepted (by simp) rfl) (.inl rfl)
        (HandlerPhase.forall_identity rfl)⟩
  | claiming appPeer result =>
    simp only [hphase, some.injEq] at hstep
    exact hstep ▸ exists_turn_claim hphase
  | normalizing appPeer request key task =>
    have hsame : ∀ other, some appPeer = some other →
        handler.phase.identity = some other ∨ state.authenticated other = true := by
      intro other hother
      rw [hphase]
      exact .inl hother
    cases task <;> simp only [hphase, some.injEq] at hstep <;> rw [← hstep] <;>
      exact ⟨_, .of_requests rfl rfl (hphase ▸ .of_isAccepted (by simp) rfl) (.inl rfl) hsame⟩
  | answering appPeer request result =>
    simp only [hphase, some.injEq] at hstep hconsistent
    exact hstep ▸ exists_turn_sendResponse hphase hconsistent.2
  | _ => simp [hphase] at hstep

/-! ## Handlers over time -/

/-- The handler goes on, or waits. -/
theorem Correlated.leads (hcorrelated : Correlated state) {step : ManagerStep Score}
    (hstep : managerStep config state step = some next)
    (hhandler : state.handlers number = some handler) :
    ∃ phase, next.handlers number = some { handler with phase := phase } ∧
      handler.phase.Leads phase := by
  have hwaits : next.handlers number = state.handlers number →
      ∃ phase, next.handlers number = some { handler with phase := phase } ∧
        handler.phase.Leads phase := by
    intro hsame
    exact ⟨handler.phase, hsame.trans hhandler, .refl _⟩
  cases step with
  | receive topic message sender transportSource =>
    cases hstep
    apply hwaits
    apply update_of_ne
    rintro rfl
    rw [hcorrelated.handlersFresh _ le_rfl] at hhandler
    cases hhandler
  | handle other =>
    obtain ⟨acting, hacting, hhandle⟩ := bind_eq_some_iff.mp hstep
    obtain ⟨phase, hturn⟩ := hcorrelated.exists_turn hacting hhandle
    by_cases hne : number = other
    · subst hne
      rw [hhandler] at hacting
      cases hacting
      exact ⟨phase, by rw [hturn.handlers, update_self], hturn.leads⟩
    · exact hwaits (by rw [hturn.handlers, update_of_ne hne])
  | abandon other =>
    obtain ⟨acting, hacting, habandon⟩ := bind_eq_some_iff.mp hstep
    simp only [ite_none_left_eq_some, some.injEq] at habandon
    obtain ⟨hover, rfl⟩ := habandon
    by_cases hne : number = other
    · subst hne
      rw [hhandler] at hacting
      cases hacting
      refine ⟨.abandoned, update_self .., .of_isAccepted ?_ rfl⟩
      intro reason hreason
      exact hover (by rw [hreason]; rfl)
    · exact hwaits (update_of_ne hne _ _)
  | routing op =>
    simp only [managerStep, ite_none_left_eq_some, some.injEq] at hstep
    exact hwaits (by rw [← hstep.2])
  | start job =>
    simp only [managerStep, ite_none_right_eq_some, some.injEq] at hstep
    exact hwaits (by rw [← hstep.2]; rfl)
  | hold node =>
    simp only [managerStep, ite_none_right_eq_some, some.injEq] at hstep
    exact hwaits (by rw [← hstep.2])
  | dropReceiver request =>
    obtain ⟨pending, -, rfl⟩ := map_eq_some_iff.mp hstep
    exact hwaits rfl
  | dropGuard request =>
    obtain ⟨pending, -, rfl⟩ := map_eq_some_iff.mp hstep
    exact hwaits rfl
  | run job =>
    rw [managerStep] at hstep
    split at hstep <;> cases hstep <;> exact hwaits rfl
  | _ =>
    cases hstep
    exact hwaits rfl

/-- The same along a run. -/
theorem Correlated.leads_of_reaches (hcorrelated : Correlated state)
    (hreaches : Reaches (managerStep config) patient state next)
    (hhandler : state.handlers number = some handler) :
    ∃ phase, next.handlers number = some { handler with phase := phase } ∧
      handler.phase.Leads phase := by
  have hboth : Correlated next ∧
      ∃ phase, next.handlers number = some { handler with phase := phase } ∧
        handler.phase.Leads phase := by
    apply hreaches.invariant
    · exact ⟨hcorrelated, handler.phase, hhandler, .refl _⟩
    · rintro before step after ⟨hbefore, phase, hphase, hleads⟩ hpatient hstep
      obtain ⟨later, hlater, hon⟩ := hbefore.leads hstep hphase
      exact ⟨hbefore.step hpatient hstep, later, hlater, hleads.trans hon⟩
  exact hboth.2

/-! ## Identities -/

/-- Every response in the manager came under an identity that is `known`. -/
structure Authentic (known : PeerId → Prop) (state : ManagerState Score) : Prop where
  handler : ∀ number handler appPeer, state.handlers number = some handler →
    handler.phase.identity = some appPeer → known appPeer
  inbox : ∀ request pending, state.requests request = some pending →
    ∀ delivery ∈ pending.inbox, known delivery.appPeer

/-- The peer has been authenticated at some point of the run. -/
def WasAuthenticated (config : ManagerConfig Score) (start state : ManagerState Score)
    (peer : PeerId) : Prop :=
  ∃ earlier, Reaches (managerStep config) patient start earlier ∧
    Reaches (managerStep config) patient earlier state ∧ earlier.authenticated peer = true

theorem WasAuthenticated.tail {start : ManagerState Score} {peer : PeerId}
    (hwas : WasAuthenticated config start state peer)
    (hreaches : Reaches (managerStep config) patient state next) :
    WasAuthenticated config start next peer := by
  obtain ⟨earlier, hbefore, hafter, hauthenticated⟩ := hwas
  exact ⟨earlier, hbefore, hafter.trans hreaches, hauthenticated⟩

variable {known : PeerId → Prop}

omit [LinearOrder Score] in
/-- A step that sends nothing and attributes no message keeps the identities. -/
theorem Authentic.of_same (hauthentic : Authentic known state)
    (hhandlers : ∀ number handler appPeer, next.handlers number = some handler →
      handler.phase.identity = some appPeer → state.handlers number = some handler)
    (hrequests : ∀ request pending, next.requests request = some pending →
      ∀ delivery ∈ pending.inbox,
        ∃ before, state.requests request = some before ∧ delivery ∈ before.inbox) :
    Authentic known next where
  handler number handler appPeer hhandler hidentity :=
    hauthentic.handler number handler appPeer
      (hhandlers number handler appPeer hhandler hidentity) hidentity
  inbox request pending hpending delivery hdelivery := by
    obtain ⟨before, hbefore, hmem⟩ := hrequests request pending hpending delivery hdelivery
    exact hauthentic.inbox request before hbefore delivery hmem

omit [LinearOrder Score] in
theorem Authentic.turn (hauthentic : Authentic known state)
    (hknown : ∀ peer, state.authenticated peer = true → known peer)
    (hhandler : state.handlers number = some handler)
    (hturn : HandlerTurn state next number handler phase) : Authentic known next where
  handler other otherHandler appPeer hother hidentity := by
    rw [hturn.handlers] at hother
    rcases update_eq_some hother with ⟨rfl, rfl⟩ | ⟨-, hother⟩
    · rcases hturn.identity appPeer hidentity with hbefore | hauthenticated
      · exact hauthentic.handler other handler appPeer hhandler hbefore
      · exact hknown appPeer hauthenticated
    · exact hauthentic.handler other otherHandler appPeer hother hidentity
  inbox request pending hpending delivery hdelivery := by
    rcases hturn.inbox request pending hpending delivery hdelivery with
      ⟨before, hbefore, hmem⟩ | hidentity
    · exact hauthentic.inbox request before hbefore delivery hmem
    · exact hauthentic.handler number handler delivery.appPeer hhandler hidentity

theorem Authentic.step (hauthentic : Authentic known state) (hcorrelated : Correlated state)
    (hknown : ∀ peer, state.authenticated peer = true → known peer) {step : ManagerStep Score}
    (hstep : managerStep config state step = some next) : Authentic known next := by
  have hsilent : next.handlers = state.handlers → next.requests = state.requests →
      Authentic known next := by
    intro hhandlers hrequests
    constructor
    · rw [hhandlers]
      exact hauthentic.handler
    · rw [hrequests]
      exact hauthentic.inbox
  cases step with
  | handle number =>
    obtain ⟨handler, hhandler, hhandle⟩ := bind_eq_some_iff.mp hstep
    obtain ⟨phase, hturn⟩ := hcorrelated.exists_turn hhandler hhandle
    exact hauthentic.turn hknown hhandler hturn
  | abandon number =>
    obtain ⟨handler, hhandler, habandon⟩ := bind_eq_some_iff.mp hstep
    simp only [ite_none_left_eq_some, some.injEq] at habandon
    obtain ⟨-, rfl⟩ := habandon
    apply hauthentic.of_same
    · intro other otherHandler appPeer hother hidentity
      rcases handlers_setPhase hother with ⟨-, rfl⟩ | ⟨-, hbefore⟩
      · cases hidentity
      · exact hbefore
    · intro request pending hpending delivery hdelivery
      exact ⟨pending, hpending, hdelivery⟩
  | receive topic message sender transportSource =>
    cases hstep
    apply hauthentic.of_same
    · intro other otherHandler appPeer hother hidentity
      rcases update_eq_some hother with ⟨-, rfl⟩ | ⟨-, hother⟩
      · cases hidentity
      · exact hother
    · intro request pending hpending delivery hdelivery
      exact ⟨pending, hpending, hdelivery⟩
  | sendRequest peer operation messageId =>
    cases hstep
    apply hauthentic.of_same
    · intro number handler appPeer hhandler _
      exact hhandler
    · intro request pending hpending delivery hdelivery
      rcases update_eq_some hpending with ⟨-, rfl⟩ | ⟨-, hpending⟩
      · cases hdelivery
      · exact ⟨pending, hpending, hdelivery⟩
  | dropReceiver request =>
    obtain ⟨dropped, hdropped, rfl⟩ := map_eq_some_iff.mp hstep
    apply hauthentic.of_same
    · intro number handler appPeer hhandler _
      exact hhandler
    · intro other pending hpending delivery hdelivery
      rcases update_eq_some hpending with ⟨rfl, rfl⟩ | ⟨-, hpending⟩
      · exact ⟨dropped, hdropped, hdelivery⟩
      · exact ⟨pending, hpending, hdelivery⟩
  | dropGuard request =>
    obtain ⟨pending, -, rfl⟩ := map_eq_some_iff.mp hstep
    exact hsilent rfl rfl
  | routing op =>
    simp only [managerStep, ite_none_left_eq_some, some.injEq] at hstep
    exact hsilent (by rw [← hstep.2]) (by rw [← hstep.2])
  | start job =>
    simp only [managerStep, ite_none_right_eq_some, some.injEq] at hstep
    exact hsilent (by rw [← hstep.2]; rfl) (by rw [← hstep.2]; rfl)
  | hold node =>
    simp only [managerStep, ite_none_right_eq_some, some.injEq] at hstep
    exact hsilent (by rw [← hstep.2]) (by rw [← hstep.2])
  | run job =>
    rw [managerStep] at hstep
    split at hstep <;> cases hstep <;> exact hsilent rfl rfl
  | _ =>
    cases hstep
    exact hsilent rfl rfl

/-- A response is delivered under an identity that was authenticated. -/
theorem reaches_authentic {context : DialAddressContext} {now : ℕ}
    (hreaches : Reaches (managerStep config) patient (.initial config context now) state) :
    Authentic (WasAuthenticated config (.initial config context now) state) state := by
  induction hreaches with
  | refl => constructor <;> intros <;> contradiction
  | tail hbefore hpatient hstep ih =>
    have hone := Reaches.refl.tail hpatient hstep
    refine Authentic.step ?_ (reaches_correlated hbefore) ?_ hstep
    · exact ⟨fun number handler appPeer hhandler hidentity =>
          (ih.handler number handler appPeer hhandler hidentity).tail hone,
        fun request pending hpending delivery hdelivery =>
          (ih.inbox request pending hpending delivery hdelivery).tail hone⟩
    · intro peer hauthenticated
      exact ⟨_, hbefore, hone, hauthenticated⟩

/-! ## Answers that still arrive -/

/-- The message can be delivered to the request under this identity. -/
def Deliverable (config : ManagerConfig Score) (state : ManagerState Score) (request : ℕ)
    (appPeer : PeerId) (message : DhtNetworkMessage Score) : Prop :=
  ∃ final, Reaches (managerStep config) patient state final ∧
    ∃ pending delivery, final.requests request = some pending ∧
      delivery ∈ pending.inbox ∧ delivery.appPeer = appPeer ∧ delivery.message = message

/-- The request is registered under the id of the message and open, and the message is
an answer to it that the contacted peer could send now. -/
structure Answers (state : ManagerState Score) (request : ℕ) (context : DhtOperationContext)
    (message : DhtNetworkMessage Score) : Prop where
  registered : state.operations message.messageId = some context
  waiting : context.responseTx = some request
  receiving : state.isClosed request = false
  authenticated : state.authenticated context.peerId = true
  messageType : message.messageType = .response
  result : message.result.isSome = true
  accepts : ∀ result, message.result = some result → context.operation.accepts result = true

omit [LinearOrder Score] in
theorem Answers.congr {request : ℕ} {context : DhtOperationContext}
    {message : DhtNetworkMessage Score} (hanswers : Answers state request context message)
    (hoperations : next.operations = state.operations)
    (hrequests : next.requests = state.requests)
    (hauthenticated : next.authenticated = state.authenticated) :
    Answers next request context message where
  registered := by
    rw [hoperations]
    exact hanswers.registered
  waiting := hanswers.waiting
  receiving := by
    rw [isClosed, hrequests]
    exact hanswers.receiving
  authenticated := by
    rw [hauthenticated]
    exact hanswers.authenticated
  messageType := hanswers.messageType
  result := hanswers.result
  accepts := hanswers.accepts

section Answers

variable {request : ℕ} {appPeer : PeerId} {message : DhtNetworkMessage Score}

theorem Deliverable.of_handle (hhandler : state.handlers number = some handler)
    (hhandle : state.handle config number handler = some next)
    (hdeliverable : Deliverable config next request appPeer message) :
    Deliverable config state request appPeer message := by
  obtain ⟨final, hreaches, hreceived⟩ := hdeliverable
  have hstep : managerStep config state (.handle number) = some next := by
    rw [managerStep, hhandler]
    exact hhandle
  exact ⟨final, (Reaches.refl.tail trivial hstep).trans hreaches, hreceived⟩

theorem Correlated.deliverable_of_answering (hcorrelated : Correlated state)
    (hhandler : state.handlers number = some handler) (hmessage : handler.message = message)
    {result : DhtNetworkResult Score}
    (hphase : handler.phase = .answering appPeer request result) :
    Deliverable config state request appPeer message := by
  have hconsistent := hcorrelated.handler number handler hhandler
  rw [Handler.Consistent, hphase] at hconsistent
  obtain ⟨-, pending, hpending, -, hopen, -⟩ := hconsistent
  have hhandle : state.handle config number handler =
      some (state.sendResponse number handler appPeer request result) := by
    rw [ManagerState.handle, hphase]
  apply Deliverable.of_handle hhandler hhandle
  rw [ManagerState.sendResponse, hpending]
  simp only
  rw [if_pos hopen]
  exact ⟨_, .refl, _, _, update_self .., List.mem_cons_self, rfl, hmessage⟩

/-- Normalization comes to an end. -/
theorem Correlated.deliverable_of_normalizing (hcorrelated : Correlated state)
    (hhandler : state.handlers number = some handler) (hmessage : handler.message = message)
    {key : PeerId} {task : StoreTask (List (DHTNode Score))}
    (hphase : handler.phase = .normalizing appPeer request key task) :
    Deliverable config state request appPeer message := by
  induction task generalizing state handler with
  | done nodes =>
    have hhandle : state.handle config number handler = some (state.setPhase number
        handler (.answering appPeer request (.nodesFound key nodes))) := by
      rw [ManagerState.handle, hphase]
    apply Deliverable.of_handle hhandler hhandle
    exact (hcorrelated.handle hhandler hhandle).deliverable_of_answering
      (update_self ..) hmessage rfl
  | act update rest ih =>
    have hhandle : state.handle config number handler =
        some ({ state with store := update state.store }.setPhase number handler
          (.normalizing appPeer request key (rest state.store))) := by
      rw [ManagerState.handle, hphase]
    apply Deliverable.of_handle hhandler hhandle
    exact ih state.store (hcorrelated.handle hhandler hhandle) (update_self ..) hmessage rfl

section Context

variable {context : DhtOperationContext}

variable (hcorrelated : Correlated state)
include hcorrelated

variable (hanswers : Answers state request context message)
include hanswers

section Handler

variable (hhandler : state.handlers number = some handler) (hmessage : handler.message = message)
include hhandler hmessage

theorem Correlated.deliverable_of_claiming {result : DhtNetworkResult Score}
    (hphase : handler.phase = .claiming context.peerId result)
    (hresult : message.result = some result) :
    Deliverable config state request context.peerId message := by
  have haccepts := hanswers.accepts result hresult
  have hclaim : claimResponse state.operations state.isClosed handler.message.messageId
      context.peerId result = (update state.operations message.messageId
        (some { context with responseTx := none }), .ok request) := by
    simp [claimResponse, hmessage, hanswers.registered, haccepts, hanswers.waiting,
      hanswers.receiving]
  have hhandle : state.handle config number handler =
      some (state.claim config number handler context.peerId result) := by
    rw [ManagerState.handle, hphase]
  have hafter := hcorrelated.handle hhandler hhandle
  apply Deliverable.of_handle hhandler hhandle
  rw [ManagerState.claim, hclaim] at hafter ⊢
  cases result with
  | nodesFound key nodes =>
    exact hafter.deliverable_of_normalizing (update_self ..) hmessage rfl
  | _ => exact hafter.deliverable_of_answering (update_self ..) hmessage rfl

/-- The handler of an authenticated response comes to the claim. -/
theorem Correlated.deliverable_of_dispatching
    (hsender : handler.sender = context.peerId) (hphase : handler.phase = .dispatching) :
    Deliverable config state request context.peerId message := by
  obtain ⟨result, hresult⟩ := isSome_iff_exists.mp hanswers.result
  have hhandle : state.handle config number handler =
      some (state.setPhase number handler (.claiming context.peerId result)) := by
    rw [ManagerState.handle, hphase]
    simp only [ManagerState.dispatch, hmessage, hanswers.messageType, hresult, hsender,
      ManagerState.canonicalAppPeerId, if_pos hanswers.authenticated]
  have hanswers : Answers (state.setPhase number handler (.claiming context.peerId result))
      request context message := hanswers.congr rfl rfl rfl
  apply Deliverable.of_handle hhandler hhandle
  exact (hcorrelated.handle hhandler hhandle).deliverable_of_claiming hanswers
    (update_self ..) hmessage rfl hresult

theorem Correlated.deliverable_of_updating
    (hsender : handler.sender = context.peerId)
    (hphase : handler.phase = .updating context.peerId) :
    Deliverable config state request context.peerId message := by
  obtain ⟨touched, hhandle, hdispatching, hoperations, hrequests, hauthenticated⟩ :
      ∃ touched, state.handle config number handler = some touched ∧
        touched.handlers number = some { handler with phase := .dispatching } ∧
        touched.operations = state.operations ∧ touched.requests = state.requests ∧
        touched.authenticated = state.authenticated := by
    rw [ManagerState.handle, hphase]
    exact ⟨_, rfl, update_self .., rfl, rfl, rfl⟩
  apply Deliverable.of_handle hhandler hhandle
  exact (hcorrelated.handle hhandler hhandle).deliverable_of_dispatching
    (hanswers.congr hoperations hrequests hauthenticated) hdispatching hmessage hsender rfl

end Handler

/-- A request that is registered and open can be answered by the peer it was sent to. -/
theorem Correlated.deliverable : Deliverable config state request context.peerId message := by
  -- The answer arrives on the first topic, and the identity of its sender is found.
  let arrived : Handler Score :=
    { message := message
      sender := context.peerId
      transportSource := none
      phase := .arrived .v1 }
  let received : ManagerState Score := { state with
    handlers := update state.handlers state.handlerCount (some arrived)
    handlerCount := state.handlerCount + 1 }
  have hpatient : patient state (.receive .v1 message context.peerId none) := trivial
  have hreceive : managerStep config state (.receive .v1 message context.peerId none) =
      some received := rfl
  have hreceived := hcorrelated.step hpatient hreceive
  have harrived : received.handlers state.handlerCount = some arrived :=
    update_self ..
  have hidentify : received.handle config state.handlerCount arrived =
      some (received.setPhase state.handlerCount arrived (.updating context.peerId)) := by
    have hcanonical : received.canonicalAppPeerId context.peerId = some context.peerId :=
      if_pos hanswers.authenticated
    simp [ManagerState.handle, arrived, DhtNetworkMessage.allowedOn, hcanonical]
  have hupdating : Answers (received.setPhase state.handlerCount arrived
      (.updating context.peerId)) request context message := hanswers.congr rfl rfl rfl
  obtain ⟨final, hreaches, hdelivered⟩ := Deliverable.of_handle harrived hidentify
    ((hreceived.handle harrived hidentify).deliverable_of_updating hupdating
      (update_self ..) rfl rfl rfl)
  exact ⟨final, (Reaches.refl.tail hpatient hreceive).trans hreaches, hdelivered⟩

end Context

end Answers

/-! ## Responses and requests over a run -/

/-- A message that is not delivered because of `reason`, handled by a step from `state`
to `next`. -/
structure Ignored (config : ManagerConfig Score) (state next : ManagerState Score)
    (messageId : String) (reason : Refusal) : Prop where
  addresses : state.store.SameAddresses next.store
  requests : next.requests = state.requests
  others : ∀ other, other ≠ messageId → next.operations other = state.operations other
  /-- Unless the receiver was gone, the request can still be answered. -/
  answerable : reason ≠ .cancelled → next.operations = state.operations ∧
    ∀ request context message, message.messageId = messageId →
      Answers next request context message → Deliverable config next request context.peerId message

/-- Responses and requests are correlated in every run in which no request is cancelled
while a handler holds its sending half.  A request receives at most one message; it comes
from the contacted peer, whose identity was authenticated, under the id of the request
and with a result, and a lookup answer is for the key that was asked.  A handler that
refuses its message has changed no address, no publication and no other request at any
of its steps, and for a wrong sender, operation or key the request can still receive its
answer.  What a handler reports as delivered is in the inbox of the request. -/
theorem responses_correlated (context : DialAddressContext) (now : ℕ)
    (hreaches : Reaches (managerStep config) patient (.initial config context now) state) :
    (∀ request pending, state.requests request = some pending →
      pending.inbox.length ≤ 1 ∧ ∀ delivery ∈ pending.inbox,
        delivery.appPeer = pending.peerId ∧
          WasAuthenticated config (.initial config context now) state pending.peerId ∧
          delivery.message.messageId = pending.messageId ∧
          ∃ result, delivery.message.result = some result ∧
            ∀ key nodes, result = .nodesFound key nodes →
              pending.operation = .findNode key) ∧
    (∀ number handler request, state.handlers number = some handler →
      handler.phase = .delivered request →
        ∃ pending delivery, state.requests request = some pending ∧
          delivery ∈ pending.inbox ∧ delivery.message = handler.message ∧
            delivery.appPeer = handler.sender) ∧
    ∀ number handler next final later reason, state.handlers number = some handler →
      managerStep config state (.handle number) = some next →
        Reaches (managerStep config) patient next final →
          final.handlers number = some later → later.phase = .refused reason →
            Ignored config state next handler.message.messageId reason := by
  have hcorrelated := reaches_correlated hreaches
  have hauthentic := reaches_authentic hreaches
  refine ⟨?_, ?_, ?_⟩
  · intro request pending hpending
    rcases hcorrelated.inbox request pending hpending with hempty | ⟨delivery, hinbox, hgenuine⟩
    · simp [hempty]
    · rw [hinbox]
      refine ⟨le_rfl, ?_⟩
      intro other hother
      obtain rfl := List.mem_singleton.mp hother
      have hwas := hauthentic.inbox request pending hpending other (by simp [hinbox])
      obtain ⟨result, hresult, haccepts⟩ := hgenuine.result
      refine ⟨hgenuine.peer, hgenuine.peer ▸ hwas, hgenuine.messageId, result, hresult, ?_⟩
      rintro key nodes rfl
      simpa [DhtNetworkOperation.accepts] using haccepts
  · intro number handler request hhandler hphase
    have hconsistent := hcorrelated.handler number handler hhandler
    rw [Handler.Consistent, hphase] at hconsistent
    obtain ⟨pending, delivery, hpending, hinbox, hmessage, hsender⟩ := hconsistent
    exact ⟨pending, delivery, hpending, by simp [hinbox], hmessage, hsender⟩
  · intro number handler next final later reason hhandler hstep hfinal hlater hrefused
    have hpatient : patient state (.handle number) := trivial
    have hnext := hcorrelated.step hpatient hstep
    obtain ⟨acting, hacting, hhandle⟩ := bind_eq_some_iff.mp hstep
    rw [hhandler] at hacting
    cases hacting
    obtain ⟨phase, hturn⟩ := hcorrelated.exists_turn hhandler hhandle
    -- A handler that refuses in the end has not accepted its message at this step.
    have hafter : next.handlers number = some { handler with phase := phase } := by
      rw [hturn.handlers, update_self]
    obtain ⟨last, hlast, hleads⟩ := hnext.leads_of_reaches hfinal hafter
    rw [hlast] at hlater
    cases hlater
    rcases hturn.harmless with haccepted | hharmless
    · have hlast := hleads.accepted haccepted
      simp only at hrefused
      rw [hrefused] at hlast
      cases hlast
    · refine ⟨hharmless.addresses, hharmless.requests, hharmless.others, ?_⟩
      intro hreason
      refine ⟨hharmless.operations ?_, ?_⟩
      · rintro rfl
        have hsame := (hleads.refused .cancelled rfl).symm.trans hrefused
        cases hsame
        exact hreason rfl
      · intro request context message _ hanswers
        exact hnext.deliverable hanswers

end Steps

/-- A manager that knows nobody; no address can be encoded. -/
def lonelyManager : ManagerConfig ℕ :=
  { peerId := 0
    engine := EngineConfig.withDefaults 4
    wire := { decode := fun _ => none, encode := fun _ => none }
    signatures :=
      { signableBytes := fun _ _ _ _ => none
        peerIdFromPublicKey := fun _ => none
        isSignature := fun _ => false
        mlDsaVerify := fun _ _ _ => none }
    display := fun _ => ""
    selfReliability := 50
    requestTimeout := 30 }

/-- An empty answer to the lookup of key `7` with the id `lookup`. -/
def lookupAnswer : DhtNetworkMessage ℕ :=
  { messageId := "lookup"
    messageType := .response
    payload := .findNode 7
    result := some (.nodesFound 7 [])
    signedRecords := [] }

/-- Peer `1` is asked for key `7`, and peer `2` answers; its handler is about to claim
the request. -/
def forgedSteps : List (ManagerStep ℕ) :=
  [.authenticate fun peer => peer == 1 || peer == 2,
    .sendRequest 1 (.findNode 7) "lookup", .receive .v1 lookupAnswer 2 none,
    .handle 0, .handle 0, .handle 0]

/-- The context of the lookup. -/
def lookupContext : DhtOperationContext :=
  { operation := .findNode 7
    peerId := 1
    startedAt := 0
    timeout := 30
    contactedNodes := [1]
    responseTx := some 0 }

/-- Whether a handler has refused its message for this reason. -/
def Handler.refuses (reason : Refusal) (handler : Handler ℕ) : Bool :=
  match handler.phase with
  | .refused given => given = reason
  | _ => false

theorem Handler.phase_of_refuses {reason : Refusal} {handler : Handler ℕ}
    (hrefuses : handler.refuses reason = true) : handler.phase = .refused reason := by
  rw [Handler.refuses] at hrefuses
  split at hrefuses
  · next given hphase => rw [hphase, of_decide_eq_true hrefuses]
  · cases hrefuses

theorem responses_correlated_forged :
    ∃ state next, Reaches (managerStep lonelyManager) patient
        (.initial lonelyManager ⟨[]⟩ 0) state ∧
      managerStep lonelyManager state (.handle 0) = some next ∧
      Ignored lonelyManager state next "lookup" .wrongSender ∧
      Deliverable lonelyManager next 0 1 lookupAnswer := by
  have hrun : ((run (managerStep lonelyManager) patient (.initial lonelyManager ⟨[]⟩ 0)
      forgedSteps).map fun state =>
        ((state.handlers 0).map fun handler => handler.message.messageId,
          (managerStep lonelyManager state (.handle 0)).map fun next =>
            ((next.handlers 0).map (Handler.refuses .wrongSender),
              decide (next.operations "lookup" = some lookupContext), next.isClosed 0,
              next.authenticated 1))) =
      some (some "lookup", some (some true, true, false, true)) := by
    decide +kernel
  obtain ⟨state, hstate, hobserved⟩ := map_eq_some_iff.mp hrun
  simp only [Prod.mk.injEq, map_eq_some_iff, decide_eq_true_eq] at hobserved
  obtain ⟨⟨handler, hhandler, hid⟩, next, hstep, ⟨later, hlater, hrefuses⟩, hcontext, hopen,
    hauthenticated⟩ := hobserved
  have hreaches := reaches_of_run hstate
  have hignored := (responses_correlated ⟨[]⟩ 0 hreaches).2.2 0 handler next next later
    .wrongSender hhandler hstep .refl hlater (Handler.phase_of_refuses hrefuses)
  rw [hid] at hignored
  refine ⟨state, next, hreaches, hstep, hignored, ?_⟩
  apply (hignored.answerable (by decide)).2 0 lookupContext lookupAnswer rfl
  refine ⟨hcontext, rfl, hopen, hauthenticated, rfl, rfl, ?_⟩
  rintro result ⟨⟩
  decide

end SaorsaCore.Manager
