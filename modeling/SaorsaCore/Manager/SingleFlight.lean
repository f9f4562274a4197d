import SaorsaCore.Manager.Dial

/-!
# One dial at a time

The entry of a peer in `pending_peer_dials` belongs to the one call that dials it, and
the channel of that call tells how far it has come.  So the calls that joined the dial
learn its outcome, or that it was dropped, and nothing is left when all calls have
ended.
-/

namespace SaorsaCore.Manager

open DialState DialPhase Function Option PendingDialOutcome List

/-! ## The invariant -/

namespace DialPhase

/-- The call has its entry in `pending_peer_dials`. -/
def owns : DialPhase → Prop
  | .dialing => True
  | .evicting _ => True
  | .clearing _ => True
  | _ => False

def ended : DialPhase → Prop
  | .returned _ => True
  | .cancelled => True
  | _ => False

end DialPhase

/-- The channel of a call, as far as the call has come. -/
def DialCall.ChannelIs (call : DialCall) (channel : Option DialChannel) : Prop :=
  match call.phase with
  | .checking => channel = none
  | .claiming => channel = none
  | .joined _ => channel = none
  | .dialing => channel = some { message := none, closed := false }
  | .evicting outcome => call.outcome = some outcome ∧
      channel = some { message := none, closed := false }
  | .clearing outcome => call.outcome = some outcome ∧
      channel = some { message := none, closed := false }
  | .sending outcome => call.outcome = some outcome ∧
      channel = some { message := none, closed := false }
  | .dropping => channel = some { message := none, closed := false }
  | .returned result => channel = none ∨ ∃ outcome, call.outcome = some outcome ∧
      channel = some { message := some outcome, closed := true } ∧
      result = outcome.intoResult call.peer
  | .cancelled => channel = none ∨ channel = some { message := none, closed := true }

namespace DialCall.ChannelIs

variable {call : DialCall} {channel : DialChannel}

/-- Only an owner that has returned has sent, and it has sent its outcome. -/
theorem returned (his : call.ChannelIs (some channel)) {outcome : PendingDialOutcome}
    (hmessage : channel.message = some outcome) :
    call.outcome = some outcome ∧ call.phase = .returned (outcome.intoResult call.peer) := by
  rw [ChannelIs] at his
  cases hphase : call.phase with
  | returned result =>
    rw [hphase] at his
    rcases his with hnone | ⟨sent, houtcome, hchannel, hresult⟩
    · cases hnone
    · cases hchannel
      cases hmessage
      exact ⟨houtcome, congrArg returned hresult⟩
  | _ =>
    rw [hphase] at his
    simp_all

/-- A channel that closes without a message was dropped. -/
theorem cancelled (his : call.ChannelIs (some channel)) (hmessage : channel.message = none)
    (hclosed : channel.closed = true) : call.phase = .cancelled := by
  rw [ChannelIs] at his
  cases hphase : call.phase with
  | returned result =>
    rw [hphase] at his
    rcases his with hnone | ⟨sent, -, hchannel, -⟩
    · cases hnone
    · cases hchannel
      cases hmessage
  | cancelled => rfl
  | _ =>
    rw [hphase] at his
    simp_all

/-- The channel of an owner that has ended has a message or is closed. -/
theorem ready (his : call.ChannelIs (some channel)) (hended : call.phase.ended) :
    channel.message ≠ none ∨ channel.closed = true := by
  rw [ChannelIs] at his
  cases hphase : call.phase with
  | returned result =>
    rw [hphase] at his
    rcases his with hnone | ⟨sent, -, hchannel, -⟩
    · cases hnone
    · cases hchannel
      exact Or.inr rfl
  | cancelled =>
    rw [hphase] at his
    rcases his with hnone | hchannel
    · cases hnone
    · cases hchannel
      exact Or.inr rfl
  | _ =>
    rw [hphase] at hended
    exact hended.elim

/-- An owner has a channel. -/
theorem ne_none {channel : Option DialChannel} (his : call.ChannelIs channel)
    (howns : call.phase.owns) : channel ≠ none := by
  rw [ChannelIs] at his
  cases hphase : call.phase with
  | dialing => simp_all
  | evicting outcome => simp_all
  | clearing outcome => simp_all
  | _ =>
    rw [hphase] at howns
    exact howns.elim

end DialCall.ChannelIs

/-- What a call has of the dial it joined, given the call that owns the dial. -/
def DialCall.Follows (call : DialCall) (owner : CallId) (dial : DialCall) : Prop :=
  match call.phase with
  | .joined other => other = owner
  | .returned result =>
    (dial.phase = .cancelled ∧ result = droppedDial call.peer) ∨
      ∃ outcome, dial.outcome = some outcome ∧
        dial.phase = .returned (outcome.intoResult call.peer) ∧
        result = outcome.intoResult call.peer
  | .cancelled => True
  | _ => False

structure Coordinated (state : DialState) : Prop where
  channels : ∀ id call, state.calls id = some call → call.ChannelIs (state.channels id)
  owners : ∀ id call, state.calls id = some call →
    (state.pendingPeerDials call.peer = some id ↔ call.phase.owns)
  entries : ∀ peer id, state.pendingPeerDials peer = some id →
    ∃ call, state.calls id = some call ∧ call.peer = peer
  fresh : ∀ id, state.calls id = none → state.channels id = none
  joined : ∀ id call owner, state.calls id = some call → call.joinedDial = some owner →
    owner ≠ id ∧ state.channels owner ≠ none ∧ ∃ dial, state.calls owner = some dial ∧
      dial.peer = call.peer ∧ call.Follows owner dial
  subscribed : ∀ id call owner, state.calls id = some call → call.phase = .joined owner →
    call.joinedDial = some owner

/-- The turn of one call: what it leaves of itself, of the entry of its peer and of its
channel. -/
structure Turn (state : DialState) (id : CallId) (call after : DialCall)
    (entry : Option CallId) (channel : Option DialChannel) : Prop where
  live : ¬call.phase.ended
  peer : after.peer = call.peer
  channelIs : after.ChannelIs channel
  created : state.channels id ≠ none → channel ≠ none
  entryIs : entry = state.pendingPeerDials call.peer ∨
    (state.pendingPeerDials call.peer = none ∧ entry = some id) ∨
    (state.pendingPeerDials call.peer = some id ∧ entry = none)
  owner : entry = some id ↔ after.phase.owns
  joined : ∀ owner, after.joinedDial = some owner →
    owner ≠ id ∧ state.channels owner ≠ none ∧ ∃ dial, state.calls owner = some dial ∧
      dial.peer = call.peer ∧ after.Follows owner dial
  subscribed : ∀ owner, after.phase = .joined owner → after.joinedDial = some owner

namespace Coordinated

variable {state : DialState}

theorem idle : Coordinated DialState.idle := by
  constructor <;> simp [DialState.idle]

variable {after : DialCall}

/-- A call keeps following a dial whose owner takes a turn: it has returned only if
that owner has ended. -/
theorem follows_of_live {call dial : DialCall} {owner : CallId}
    (hfollows : call.Follows owner dial) (hlive : ¬dial.phase.ended) :
    call.Follows owner after := by
  unfold DialCall.Follows at hfollows ⊢
  split at hfollows
  · exact hfollows
  · rcases hfollows with ⟨hcancelled, -⟩ | ⟨outcome, -, hreturned, -⟩
    · rw [hcancelled] at hlive
      exact absurd trivial hlive
    · rw [hreturned] at hlive
      exact absurd trivial hlive
  · trivial
  · exact hfollows

theorem turn (hstate : Coordinated state) {id : CallId} {call : DialCall}
    {entry : Option CallId} {channel : Option DialChannel} (hcall : state.calls id = some call)
    (hturn : Turn state id call after entry channel) :
    Coordinated
      { pendingPeerDials := update state.pendingPeerDials call.peer entry
        channels := update state.channels id channel
        calls := update state.calls id (some after) } where
  channels other otherCall hother := by
    simp only [update_apply] at hother ⊢
    split at hother
    · next hsame =>
        cases hother
        rw [if_pos hsame]
        exact hturn.channelIs
    · next hdifferent =>
        rw [if_neg hdifferent]
        exact hstate.channels other otherCall hother
  owners other otherCall hother := by
    simp only [update_apply] at hother ⊢
    split at hother
    · next hsame =>
        cases hother
        rw [if_pos hturn.peer, hsame]
        exact hturn.owner
    · next hdifferent =>
        rw [← hstate.owners other otherCall hother]
        split
        · next hpeer =>
            rw [hpeer]
            rcases hturn.entryIs with hkept | ⟨hnone, hclaimed⟩ | ⟨howned, hremoved⟩
            · rw [hkept]
            · simp [hnone, hclaimed, Ne.symm hdifferent]
            · simp [howned, hremoved, Ne.symm hdifferent]
        · rfl
  entries peer owner hentry := by
    simp only [update_apply] at hentry ⊢
    by_cases howner : owner = id
    · subst howner
      refine ⟨after, if_pos rfl, ?_⟩
      split at hentry
      · next hpeer => rw [hturn.peer, hpeer]
      · obtain ⟨other, hother, hpeer⟩ := hstate.entries peer owner hentry
        rw [hcall, some.injEq] at hother
        rw [hturn.peer, hother, hpeer]
    · rw [if_neg howner]
      apply hstate.entries peer owner
      split at hentry
      · next hpeer =>
          rcases hturn.entryIs with hkept | ⟨-, hclaimed⟩ | ⟨-, hremoved⟩
          · rw [hpeer, ← hkept, hentry]
          · rw [hclaimed, some.injEq] at hentry
            exact absurd hentry.symm howner
          · rw [hremoved] at hentry
            cases hentry
      · exact hentry
  fresh other hother := by
    simp only [update_apply] at hother ⊢
    split at hother
    · cases hother
    · next hdifferent =>
        rw [if_neg hdifferent]
        exact hstate.fresh other hother
  joined other otherCall owner hother hjoined := by
    simp only [update_apply] at hother ⊢
    split at hother
    · next hsame =>
        cases hother
        obtain ⟨hne, hchannel, dial, hdial, hpeer, hfollows⟩ := hturn.joined owner hjoined
        rw [hsame, if_neg hne, if_neg hne]
        exact ⟨hne, hchannel, dial, hdial, hpeer.trans hturn.peer.symm, hfollows⟩
    · obtain ⟨hne, hchannel, dial, hdial, hpeer, hfollows⟩ :=
        hstate.joined other otherCall owner hother hjoined
      by_cases howner : owner = id
      · subst howner
        rw [if_pos rfl, if_pos rfl]
        rw [hcall, some.injEq] at hdial
        subst hdial
        exact ⟨hne, hturn.created hchannel, after, rfl, hturn.peer.trans hpeer,
          follows_of_live hfollows hturn.live⟩
      · rw [if_neg howner, if_neg howner]
        exact ⟨hne, hchannel, dial, hdial, hpeer, hfollows⟩
  subscribed other otherCall owner hother hphase := by
    simp only [update_apply] at hother
    split at hother
    · cases hother
      exact hturn.subscribed owner hphase
    · exact hstate.subscribed other otherCall owner hother hphase

theorem start (hstate : Coordinated state) {id : CallId} (hnew : state.calls id = none)
    (hphase : after.phase = .checking) (hjoined : after.joinedDial = none) :
    Coordinated (state.setCall id after) where
  channels other otherCall hother := by
    simp only [DialState.setCall, update_apply] at hother ⊢
    split at hother
    · next hsame =>
        cases hother
        rw [DialCall.ChannelIs, hphase, hsame]
        exact hstate.fresh id hnew
    · exact hstate.channels other otherCall hother
  owners other otherCall hother := by
    simp only [DialState.setCall, update_apply] at hother ⊢
    split at hother
    · next hsame =>
        cases hother
        rw [hphase, hsame]
        refine iff_of_false (fun hentry => ?_) (fun howns => howns)
        obtain ⟨owner, howner, -⟩ := hstate.entries _ _ hentry
        rw [hnew] at howner
        cases howner
    · exact hstate.owners other otherCall hother
  entries peer owner hentry := by
    obtain ⟨ownerCall, howner, hpeer⟩ := hstate.entries peer owner hentry
    have hne : owner ≠ id := by
      rintro rfl
      rw [hnew] at howner
      cases howner
    exact ⟨ownerCall, (update_of_ne hne _ _).trans howner, hpeer⟩
  fresh other hother := by
    simp only [DialState.setCall, update_apply] at hother ⊢
    split at hother
    · cases hother
    · exact hstate.fresh other hother
  joined other otherCall owner hother hdial := by
    simp only [DialState.setCall, update_apply] at hother ⊢
    split at hother
    · cases hother
      rw [hjoined] at hdial
      cases hdial
    · obtain ⟨hne, hchannel, dial, howner, hpeer, hfollows⟩ :=
        hstate.joined other otherCall owner hother hdial
      have hold : owner ≠ id := by
        rintro rfl
        rw [hnew] at howner
        cases howner
      rw [if_neg hold]
      exact ⟨hne, hchannel, dial, howner, hpeer, hfollows⟩
  subscribed other otherCall owner hother hdial := by
    simp only [DialState.setCall, update_apply] at hother
    split at hother
    · cases hother
      rw [hphase] at hdial
      cases hdial
    · exact hstate.subscribed other otherCall owner hother hdial

section Turns

variable {id : CallId} {call after : DialCall}

/-- A turn that leaves the entry and the channel. -/
theorem setCall (hstate : Coordinated state) (hcall : state.calls id = some call)
    (hturn : Turn state id call after (state.pendingPeerDials call.peer)
      (state.channels id)) : Coordinated (state.setCall id after) := by
  have hnext := hstate.turn hcall hturn
  rwa [update_eq_self, update_eq_self] at hnext

/-- A turn that removes the entry of the call. -/
theorem removeEntry (hstate : Coordinated state) (hcall : state.calls id = some call)
    (hturn : Turn state id call after none (state.channels id)) :
    Coordinated ((state.setEntry call.peer none).setCall id after) := by
  have hnext := hstate.turn hcall hturn
  rwa [update_eq_self] at hnext

/-- Only calls at `rx.recv()` or past it have joined a dial. -/
theorem joinedDial_eq_none (hstate : Coordinated state)
    (hcall : state.calls id = some call) (hphase : ¬call.phase.ended)
    (hwaits : ∀ owner, call.phase ≠ .joined owner) : call.joinedDial = none := by
  cases hdial : call.joinedDial with
  | none => rfl
  | some owner =>
    obtain ⟨-, -, dial, -, -, hfollows⟩ := hstate.joined id call owner hcall hdial
    unfold DialCall.Follows at hfollows
    split at hfollows
    · next other hother => exact absurd hother (hwaits other)
    · next hreturned => exact absurd (hreturned ▸ trivial) hphase
    · next hcancelled => exact absurd (hcancelled ▸ trivial) hphase
    · exact hfollows.elim

variable {phase : DialPhase} {outcome : Option PendingDialOutcome}

/-- The turn of a call that has not joined a dial. -/
theorem turn_alone (hstate : Coordinated state) (hcall : state.calls id = some call)
    (hlive : ¬call.phase.ended) (hwaits : ∀ owner, call.phase ≠ .joined owner)
    (hnot : ∀ owner, phase ≠ .joined owner)
    {entry : Option CallId} {channel : Option DialChannel}
    (hchannel : { call with phase := phase, outcome := outcome }.ChannelIs channel)
    (hcreated : state.channels id ≠ none → channel ≠ none)
    (hentry : entry = state.pendingPeerDials call.peer ∨
      (state.pendingPeerDials call.peer = none ∧ entry = some id) ∨
      (state.pendingPeerDials call.peer = some id ∧ entry = none))
    (howner : entry = some id ↔ phase.owns) :
    Turn state id call { call with phase := phase, outcome := outcome } entry channel where
  live := hlive
  peer := rfl
  channelIs := hchannel
  created := hcreated
  entryIs := hentry
  owner := howner
  joined owner hjoined := by
    have hnone := hstate.joinedDial_eq_none hcall hlive hwaits
    exact absurd (hnone.symm.trans hjoined) (by simp)
  subscribed owner hjoined := absurd hjoined (hnot owner)

variable (hstate : Coordinated state) (hcall : state.calls id = some call)
  (hlive : ¬call.phase.ended) (hwaits : ∀ owner, call.phase ≠ .joined owner)
  (howns : call.phase.owns ↔ phase.owns) (hnot : ∀ owner, phase ≠ .joined owner)
include hstate hcall hlive hwaits howns hnot

/-- A turn of a call that has joined no dial, with its entry and its channel left. -/
theorem quiet
    (hchannel : { call with phase := phase, outcome := outcome }.ChannelIs (state.channels id)) :
    Coordinated (state.setCall id { call with phase := phase, outcome := outcome }) :=
  hstate.setCall hcall (hstate.turn_alone hcall hlive hwaits hnot hchannel
    (fun hcreated => hcreated) (Or.inl rfl) ((hstate.owners id call hcall).trans howns))

/-- A turn that ends with the channel of the call. -/
theorem lastSend {channel : DialChannel}
    (hchannel : { call with phase := phase, outcome := outcome }.ChannelIs (some channel)) :
    Coordinated ((state.setChannel id channel).setCall id
      { call with phase := phase, outcome := outcome }) := by
  have hnext := hstate.turn hcall (hstate.turn_alone hcall hlive hwaits hnot hchannel
    (by simp) (Or.inl rfl) ((hstate.owners id call hcall).trans howns))
  rwa [update_eq_self] at hnext

end Turns

section Steps

variable {next : DialState} {id : CallId} {call : DialCall}

variable (hstate : Coordinated state)
include hstate

section

variable (hcall : state.calls id = some call)
include hcall

theorem claim (hphase : call.phase = .claiming) {isFailed : Bool}
    (hstep : ensurePeerChannel state id call .claiming (.claim isFailed) = some next) :
    Coordinated next := by
  have hlive : ¬call.phase.ended := by simp [hphase, ended]
  have hwaits : ∀ owner, call.phase ≠ .joined owner := by simp [hphase]
  have hchannel : state.channels id = none := by
    simpa [DialCall.ChannelIs, hphase] using hstate.channels id call hcall
  have howner := hstate.owners id call hcall
  rw [hphase] at howner
  simp only [ensurePeerChannel] at hstep
  split at hstep
  · next owner hentry =>
      cases hstep
      obtain ⟨dial, hdial, hpeer⟩ := hstate.entries _ _ hentry
      have hne : owner ≠ id := by
        rintro rfl
        exact howner.mp hentry
      have howns := (hstate.owners owner dial hdial).mp (hpeer ▸ hentry)
      have hopen := (hstate.channels owner dial hdial).ne_none howns
      apply hstate.setCall hcall
      exact
        { live := hlive
          peer := rfl
          channelIs := hchannel
          created := fun hcreated => hcreated
          entryIs := Or.inl rfl
          owner := howner
          joined := fun other hother => by
            cases hother
            exact ⟨hne, hopen, dial, hdial, hpeer, rfl⟩
          subscribed := fun other hother => by
            cases hother
            rfl }
  · next hvacant =>
      split at hstep <;> cases hstep
      · exact hstate.quiet hcall hlive hwaits (by simp [hphase, owns]) (by simp) (Or.inl hchannel)
      · exact hstate.turn hcall (hstate.turn_alone hcall hlive hwaits (by simp) rfl
          (by simp) (Or.inr (Or.inl ⟨hvacant, rfl⟩)) (iff_of_true rfl trivial))

/-- The turn of a call that waits for a dial it has joined. -/
theorem waiting
    {owner : CallId} (hphase : call.phase = .joined owner) {after : DialCall}
    (hpeer : after.peer = call.peer) (hdial : after.joinedDial = call.joinedDial)
    (hchannel : after.ChannelIs none) (hended : after.phase.ended)
    (hfollows : ∀ dial, state.calls owner = some dial → after.Follows owner dial) :
    Coordinated (state.setCall id after) := by
  have hnone : state.channels id = none := by
    simpa [DialCall.ChannelIs, hphase] using hstate.channels id call hcall
  have howner := hstate.owners id call hcall
  rw [hphase] at howner
  have hjoined := hstate.subscribed id call owner hcall hphase
  have hnotowner : ¬after.phase.owns := by
    cases hafter : after.phase <;> simp_all [owns, ended]
  apply hstate.setCall hcall
  exact
    { live := by simp [hphase, ended]
      peer := hpeer
      channelIs := hnone ▸ hchannel
      created := fun hcreated => hcreated
      entryIs := Or.inl rfl
      owner := iff_of_false (fun hentry => howner.mp hentry) hnotowner
      joined := fun other hother => by
        rw [hdial, hjoined, some.injEq] at hother
        subst hother
        obtain ⟨hne, hopen, dial, hdialed, hsame, -⟩ :=
          hstate.joined id call owner hcall hjoined
        exact ⟨hne, hopen, dial, hdialed, hsame, hfollows dial hdialed⟩
      subscribed := fun other hother => by
        rw [hother] at hended
        exact hended.elim }

theorem receive
    {owner : CallId} (hphase : call.phase = .joined owner)
    (hstep : ensurePeerChannel state id call (.joined owner) .receive = some next) :
    Coordinated next := by
  have hjoined := hstate.subscribed id call owner hcall hphase
  obtain ⟨-, -, dial, hdial, hpeer, -⟩ := hstate.joined id call owner hcall hjoined
  have his := hstate.channels owner dial hdial
  simp only [ensurePeerChannel] at hstep
  split at hstep
  · cases hstep
  · next channel hchannel =>
      rw [hchannel] at his
      split at hstep
      · next outcome hmessage =>
          cases hstep
          refine hstate.waiting hcall hphase rfl rfl (Or.inl rfl) trivial ?_
          intro other hother
          rw [hdial, some.injEq] at hother
          subst hother
          obtain ⟨houtcome, hreturned⟩ := his.returned hmessage
          rw [hpeer] at hreturned
          exact Or.inr ⟨outcome, houtcome, hreturned, rfl⟩
      · next hmessage =>
          split at hstep <;> cases hstep
          next hclosed =>
            refine hstate.waiting hcall hphase rfl rfl (Or.inl rfl) trivial ?_
            intro other hother
            rw [hdial, some.injEq] at hother
            subst hother
            exact Or.inl ⟨his.cancelled hmessage hclosed, rfl⟩

/-- The owner of a dial removes its entry, because the dial is over or because the call
is cancelled. -/
theorem removeOwnEntry (howns : call.phase.owns) {phase : DialPhase} (hnot : ¬phase.owns)
    (hjoined : ∀ owner, phase ≠ .joined owner)
    (hchannel : { call with phase := phase }.ChannelIs (state.channels id)) :
    Coordinated ((state.setEntry call.peer none).setCall id { call with phase := phase }) := by
  have hentry := (hstate.owners id call hcall).mpr howns
  have hlive : ¬call.phase.ended := by
    cases hphase : call.phase <;> simp_all [owns, ended]
  have hwaits : ∀ owner, call.phase ≠ .joined owner := by
    intro owner hphase
    rw [hphase] at howns
    exact howns
  exact hstate.removeEntry hcall (hstate.turn_alone hcall hlive hwaits hjoined hchannel
    (fun hcreated => hcreated) (Or.inr (Or.inr ⟨hentry, rfl⟩))
    (iff_of_false (by simp) hnot))

/-- Every operation of a call keeps the invariant. -/
theorem act
    {action : DialAction}
    (hstep : ensurePeerChannel state id call call.phase action = some next) :
    Coordinated next := by
  have his := hstate.channels id call hcall
  generalize hphase : call.phase = phase at hstep
  rw [DialCall.ChannelIs, hphase] at his
  unfold ensurePeerChannel at hstep
  split at hstep
  · -- `is_peer_connected` answers.
    next connected =>
    cases hstep
    apply hstate.quiet hcall (by simp [hphase, ended]) (by simp [hphase])
    all_goals cases connected
    all_goals simp [DialCall.ChannelIs, his, hphase, owns]
  · exact hstate.claim hcall hphase hstep
  · exact hstate.receive hcall hphase hstep
  · -- `run_owned_dial` returns.
    next answer =>
    cases hstep
    apply hstate.quiet hcall (by simp [hphase, ended]) (by simp [hphase])
    all_goals cases runOwnedDial call.peer call.candidatesCount answer
    all_goals simp [DialCall.ChannelIs, his, hphase, owns]
  · cases hstep
    exact hstate.quiet hcall (by simp [hphase, ended]) (by simp [hphase])
      (by simp [hphase, owns]) (by simp) his
  · cases hstep
    exact hstate.removeOwnEntry hcall (hphase ▸ trivial) (fun howns => howns) (by simp) his
  · -- The outcome is sent.
    cases hstep
    exact hstate.lastSend hcall (by simp [hphase, ended]) (by simp [hphase])
      (by simp [hphase, owns]) (by simp) (Or.inr ⟨_, his.1, rfl, rfl⟩)
  · cases hstep
    exact hstate.quiet hcall (by simp [hphase, ended]) (by simp [hphase])
      (by simp [hphase, owns]) (by simp) (Or.inl his)
  · cases hstep
    exact hstate.waiting hcall hphase rfl rfl (Or.inl rfl) trivial fun _ _ => trivial
  · cases hstep
    exact hstate.removeOwnEntry hcall (hphase ▸ trivial) (fun howns => howns) (by simp) his
  · cases hstep
    exact hstate.removeOwnEntry hcall (hphase ▸ trivial) (fun howns => howns) (by simp) his.2
  · -- A cancelled owner drops its sender.
    cases hstep
    exact hstate.lastSend hcall (by simp [hphase, ended]) (by simp [hphase])
      (by simp [hphase, owns]) (by simp) (Or.inr rfl)
  · cases hstep

end

theorem step {action : DialStep}
    (hstep : dialStep state action = some next) : Coordinated next := by
  cases action with
  | call id peer candidatesCount =>
    simp only [dialStep] at hstep
    split at hstep
    · cases hstep
    · next hnew =>
        cases hstep
        exact hstate.start hnew rfl rfl
  | act id action =>
    simp only [dialStep] at hstep
    split at hstep
    · cases hstep
    · next call hcall => exact hstate.act hcall hstep

end Steps

end Coordinated

/-! ## Runs -/

/-- The error of a dropped dial is none of the results of a dial. -/
theorem intoResult_ne_droppedDial (peer : PeerId) (outcome : PendingDialOutcome) :
    outcome.intoResult peer ≠ droppedDial peer := by
  intro heq
  cases outcome with
  | dialFailed candidatesCount =>
    simp only [intoResult, droppedDial, Except.error.injEq, P2PError.peerNotFound.injEq] at heq
    have hlist := congrArg (fun text : String => text.toList.head?) heq
    simp [String.toList_append] at hlist
  | connected => cases heq
  | identityFailed err => cases heq
  | identityMismatch actual => cases heq

/-- In every interleaving of calls of `ensure_peer_channel`, at most one call dials a
peer at a time; a call that joined a dial returns the outcome of that dial, or the
error of a dropped dial exactly if the owner was cancelled, and it can return once the
owner has ended; and when all calls for a peer have ended, the peer has no entry in
`pending_peer_dials`. -/
theorem dials_single_flight {state : DialState}
    (hreaches : Transition.Reaches dialStep (fun _ _ => True) DialState.idle state) :
    (∀ first second one other, state.calls first = some one →
      state.calls second = some other → one.peer = other.peer →
      one.phase = .dialing → other.phase = .dialing → first = second) ∧
    (∀ id call owner, state.calls id = some call → call.joinedDial = some owner →
      ∃ dial, state.calls owner = some dial ∧ dial.peer = call.peer ∧
        (∀ result, call.phase = .returned result →
          (result = droppedDial call.peer ↔ dial.phase = .cancelled) ∧
          (dial.phase ≠ .cancelled → ∃ outcome, dial.outcome = some outcome ∧
            result = outcome.intoResult call.peer)) ∧
        (call.phase = .joined owner → dial.phase.ended →
          (dialStep state (.act id .receive)).isSome)) ∧
    (∀ peer, (∀ id call, state.calls id = some call → call.peer = peer →
      call.phase.ended) → state.pendingPeerDials peer = none) := by
  have hstate : Coordinated state :=
    hreaches.invariant Coordinated.idle fun _ _ _ hbefore _ hstep => hbefore.step hstep
  refine ⟨?_, ?_, ?_⟩
  · intro first second one other hone hother hpeer hdials halso
    have hfirst := (hstate.owners first one hone).mpr (hdials ▸ trivial)
    have hsecond := (hstate.owners second other hother).mpr (halso ▸ trivial)
    rw [hpeer, hsecond, some.injEq] at hfirst
    exact hfirst.symm
  · intro id call owner hcall hjoined
    obtain ⟨-, hchannel, dial, hdial, hpeer, hfollows⟩ :=
      hstate.joined id call owner hcall hjoined
    refine ⟨dial, hdial, hpeer, ?_, ?_⟩
    · intro result hreturned
      rw [DialCall.Follows, hreturned] at hfollows
      rcases hfollows with ⟨hcancelled, hresult⟩ | ⟨outcome, houtcome, hphase, hresult⟩
      · exact ⟨iff_of_true hresult hcancelled, fun hnot => absurd hcancelled hnot⟩
      · rw [hphase, hresult]
        exact ⟨iff_of_false (intoResult_ne_droppedDial _ _) (by simp),
          fun _ => ⟨outcome, houtcome, rfl⟩⟩
    · intro hphase hended
      obtain ⟨channel, hopen⟩ := ne_none_iff_exists'.mp hchannel
      have his := hstate.channels owner dial hdial
      rw [hopen] at his
      simp only [dialStep, hcall, hphase, ensurePeerChannel, hopen]
      rcases his.ready hended with hmessage | hclosed
      · obtain ⟨outcome, houtcome⟩ := ne_none_iff_exists'.mp hmessage
        simp [houtcome]
      · cases hmessage : channel.message <;> simp [hclosed]
  · intro peer hended
    cases hentry : state.pendingPeerDials peer with
    | none => rfl
    | some id =>
      obtain ⟨call, hcall, hpeer⟩ := hstate.entries peer id hentry
      have howns := (hstate.owners id call hcall).mp (hpeer ▸ hentry)
      have hover := hended id call hcall hpeer
      cases hphase : call.phase <;> simp_all [owns, ended]

/-- Call `1` joins the dial of call `0`, which is cancelled; call `2` dials again, and
call `3` joins it. -/
def joiningSteps : List DialStep :=
  [.call 0 7 1, .act 0 (.check false), .act 0 (.claim false),
    .call 1 7 1, .act 1 (.check false), .act 1 (.claim false),
    .act 0 .cancel,
    .call 2 7 1, .act 2 (.check false), .act 2 (.claim false),
    .call 3 7 1, .act 3 (.check false), .act 3 (.claim false),
    .act 0 .dropSender, .act 1 .receive,
    .act 2 (.dial .noChannel), .act 2 .clear, .act 2 .send, .act 3 .receive]

theorem joiningSteps_single_flight :
    ∃ state, Transition.Reaches dialStep (fun _ _ => True) DialState.idle state ∧
      (∃ call result, state.calls 1 = some call ∧ call.joinedDial = some 0 ∧
        call.phase = .returned result ∧ result = droppedDial call.peer) ∧
      ∃ call result, ∃ outcome : PendingDialOutcome,
        state.calls 3 = some call ∧ call.joinedDial = some 2 ∧
        call.phase = .returned result ∧ result = outcome.intoResult call.peer := by
  have hrun : (Transition.run dialStep (fun _ _ => True) DialState.idle joiningSteps).map
      (fun state => (range 4).map fun id =>
        (state.calls id).map fun call => (call.joinedDial, call.phase)) =
      some [some (none, .cancelled), some (some 0, .returned (droppedDial 7)),
        some (none, .returned ((dialFailed 1).intoResult 7)),
        some (some 2, .returned ((dialFailed 1).intoResult 7))] := by
    decide +kernel
  obtain ⟨state, hstate, hcalls⟩ := map_eq_some_iff.mp hrun
  simp only [range_succ, range_zero, nil_append, cons_append,
    map_cons, map_nil, cons.injEq, map_eq_some_iff,
    Prod.mk.injEq, and_true] at hcalls
  obtain ⟨⟨dropped, hdropped, -, hcancelled⟩, ⟨one, hone, honeJoined, honePhase⟩,
    ⟨dialed, hdialed, -, hdialedPhase⟩, three, hthree, hthreeJoined, hthreePhase⟩ := hcalls
  have hreaches := Transition.reaches_of_run hstate
  obtain ⟨-, hjoined, -⟩ := dials_single_flight hreaches
  obtain ⟨owner, howner, -, hresult, -⟩ := hjoined 1 one 0 hone honeJoined
  obtain ⟨other, hother, -, houtcome, -⟩ := hjoined 3 three 2 hthree hthreeJoined
  rw [hdropped, some.injEq] at howner
  rw [hdialed, some.injEq] at hother
  obtain ⟨outcome, -, hreturned⟩ := (houtcome _ hthreePhase).2
    (by rw [← hother, hdialedPhase]; simp)
  exact ⟨state, hreaches,
    ⟨one, _, hone, honeJoined, honePhase, (hresult _ honePhase).1.mpr (howner ▸ hcancelled)⟩,
    three, _, outcome, hthree, hthreeJoined, hthreePhase, hreturned⟩

end SaorsaCore.Manager
