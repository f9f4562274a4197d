import SaorsaCore.Reachability.Cycles

/-!
# Why a relay is given up

`hold_until_lost` takes the first `RelayLost` event of its queue, whatever its
address, and the queue outlives the allocation an event is about.  A hold ends on
evidence about its own relay if no event about another one is in the queue.
-/

namespace SaorsaCore.Reachability

open DriverState Transition Option

/-- The allocation whose `select!` or maintenance round is running. -/
def Phase.watched : Phase → Option AcquiredRelay
  | .holding relay => some relay
  | .revalidating relay _ _ => some relay
  | _ => none

/-- The events of the queue name one relay. -/
def QueueNames (relay : AcquiredRelay) (queue : List SocketAddr) : Prop :=
  ∀ address ∈ queue, address = relay.allocation.publicAddr

/-- When a hold begins, the queue has only events about its relay, and while it lasts
only such events arrive. -/
def timely (state : DriverState) : DriverInput → Bool
  | .subscribe =>
    match state.phase with
    | .subscribing relay =>
      state.relayLost.all fun address => address == relay.allocation.publicAddr
    | _ => true
  | .queueRelayLost address =>
    state.phase.watched.all fun relay => address == relay.allocation.publicAddr
  | _ => true

/-- Evidence that the relay that is held is gone: a `RelayLost` event with its
address, an unhealthy tunnel, or a rejection of this relayer and this address. -/
def LossEvidence (state : DriverState) (relay : AcquiredRelay) (input : DriverInput) : Prop :=
  (input = .recvRelayLost ∧ state.relayLost.head? = some relay.allocation.publicAddr) ∨
  input = .healthTick false ∨
  (state.phase = .revalidating relay relay.relayer relay.allocation.publicAddr ∧
    ∃ successes attempts, input = .maintenance (.rejected successes attempts))

/-- The step returns `false` from the hold of the relay. -/
def GivesUp (state next : DriverState) (relay : AcquiredRelay) : Prop :=
  state.phase.watched = some relay ∧ next.phase = .losing relay false false

structure Watching (env : DriverEnv) (state : DriverState) : Prop where
  orderly : Orderly env state
  queue : ∀ relay ∈ state.phase.watched, QueueNames relay state.relayLost
  revalidating : ∀ relay relayer address, state.phase = .revalidating relay relayer address →
      relayer = relay.relayer ∧ address = relay.allocation.publicAddr

variable {env : DriverEnv} {state next : DriverState} {input : DriverInput}
  {relay : AcquiredRelay}

/-- A hold that is running goes on or has just begun, and the queue is as before. -/
theorem DriverMove.watched (hmove : DriverMove env state input next)
    (hwatched : next.phase.watched = some relay) :
    ((input = .subscribe ∧ state.phase = .subscribing relay) ∨
      state.phase.watched = some relay) ∧ next.relayLost = state.relayLost := by
  cases hmove with
  | subscribe hphase =>
    cases hwatched
    exact ⟨Or.inl ⟨rfl, hphase⟩, rfl⟩
  | hold hphase hmove =>
    cases hmove with
    | revalidate =>
      cases hwatched
      exact ⟨Or.inr (congrArg Phase.watched hphase), rfl⟩
    | ignore => exact ⟨Or.inr hwatched, rfl⟩
    | healthy => exact ⟨Or.inr hwatched, rfl⟩
    | addressSignal => exact ⟨Or.inr hwatched, rfl⟩
    | dhtSignal => exact ⟨Or.inr hwatched, rfl⟩
    | stop => cases hwatched
    | relayLost => cases hwatched
    | unhealthy => cases hwatched
    | vanished => cases hwatched
  | maintained hphase =>
    cases hwatched
    exact ⟨Or.inr (congrArg Phase.watched hphase), rfl⟩
  | @admission _ verdict => cases verdict <;> cases hwatched
  | @commit _ success => cases success <;> cases hwatched
  | @withdrawLost _ aborted => cases aborted <;> cases hwatched
  | @abortLost _ published => cases published <;> cases hwatched
  | backoffRefresh hphase =>
    rw [show (publishTypedSet env none false _ state).phase = .backoff from hphase] at hwatched
    cases hwatched
  | backoffIgnore hphase =>
    rw [hphase] at hwatched
    cases hwatched
  | _ => cases hwatched

/-- The moves that give a relay up. -/
theorem DriverMove.evidence (hmove : DriverMove env state input next)
    (hgivesUp : GivesUp state next relay) :
    (∃ address rest, input = .recvRelayLost ∧ state.relayLost = address :: rest) ∨
    input = .healthTick false ∨
    (∃ relayer address successes attempts, state.phase = .revalidating relay relayer address ∧
        input = .maintenance (.rejected successes attempts)) ∨
    (state.phase = .holding relay ∧ (state.relayerPeerId = none ∨ state.relayAddress = none)) := by
  obtain ⟨hwatched, hlosing⟩ := hgivesUp
  cases hmove with
  | hold hphase hmove =>
    rw [hphase] at hwatched
    cases hwatched
    cases hmove with
    | relayLost hqueue => exact Or.inl ⟨_, _, rfl, hqueue⟩
    | unhealthy => exact Or.inr (Or.inl rfl)
    | vanished hvanished => exact Or.inr (Or.inr (Or.inr ⟨hphase, hvanished⟩))
    | stop => cases hlosing
    | revalidate => cases hlosing
    | ignore => exact absurd (hphase.symm.trans hlosing) (by simp)
    | healthy => exact absurd (hphase.symm.trans hlosing) (by simp)
    | addressSignal => exact absurd (hphase.symm.trans hlosing) (by simp)
    | dhtSignal => exact absurd (hphase.symm.trans hlosing) (by simp)
  | refuted hphase =>
    rw [hphase] at hwatched
    cases hwatched
    exact Or.inr (Or.inr (Or.inl ⟨_, _, _, _, hphase, rfl⟩))
  | @admission _ verdict => cases verdict <;> cases hlosing
  | @commit _ success => cases success <;> cases hlosing
  | @withdrawLost _ aborted => cases aborted <;> cases hlosing
  | @abortLost _ published => cases published <;> cases hlosing
  | backoffRefresh hphase => exact absurd (hphase.symm.trans hlosing) (by simp)
  | backoffIgnore hphase => exact absurd (hphase.symm.trans hlosing) (by simp)
  | _ => cases hlosing

/-- A maintenance round begins with what the shared relay state says. -/
theorem DriverMove.revalidating (hmove : DriverMove env state input next) {relayer : PeerId}
    {address : SocketAddr} (hnext : next.phase = .revalidating relay relayer address) :
    state.phase = .holding relay ∧ state.relayerPeerId = some relayer ∧
      state.relayAddress = some address := by
  cases hmove with
  | hold hphase hmove =>
    cases hmove with
    | revalidate hrelayer haddress =>
      cases hnext
      exact ⟨hphase, hrelayer, haddress⟩
    | ignore => exact absurd (hphase.symm.trans hnext) (by simp)
    | healthy => exact absurd (hphase.symm.trans hnext) (by simp)
    | addressSignal => exact absurd (hphase.symm.trans hnext) (by simp)
    | dhtSignal => exact absurd (hphase.symm.trans hnext) (by simp)
    | _ => cases hnext
  | @admission _ verdict => cases verdict <;> cases hnext
  | @commit _ success => cases success <;> cases hnext
  | @withdrawLost _ aborted => cases aborted <;> cases hnext
  | @abortLost _ published => cases published <;> cases hnext
  | backoffRefresh hphase => exact absurd (hphase.symm.trans hnext) (by simp)
  | backoffIgnore hphase => exact absurd (hphase.symm.trans hnext) (by simp)
  | _ => cases hnext

namespace Watching

variable {env : DriverEnv} {state next : DriverState} {input : DriverInput}

theorem initial (env : DriverEnv) : Watching env DriverState.initial :=
  ⟨Orderly.initial env, by simp [DriverState.initial, Phase.watched], by simp [DriverState.initial]⟩

/-- While a hold is running the shared state names its relay. -/
theorem names (hwatching : Watching env state) {relay : AcquiredRelay}
    (hphase : state.phase = .holding relay) :
    state.relayerPeerId = some relay.relayer ∧
      state.relayAddress = some relay.allocation.publicAddr := by
  have hrelayer := hwatching.orderly.relayer (by simp [hphase])
  have haddress := hwatching.orderly.address (by simp [hphase])
  rw [hphase] at hrelayer haddress
  exact ⟨hrelayer, haddress⟩

theorem step (hwatching : Watching env state) (htimely : timely state input = true)
    (hstep : driverStep env state input = some next) : Watching env next := by
  have horderly := hwatching.orderly.step hstep
  unfold driverStep at hstep
  split at hstep
  · cases hstep
    exact ⟨horderly, hwatching.queue, hwatching.revalidating⟩
  · next arrived =>
      cases hstep
      refine ⟨horderly, ?_, hwatching.revalidating⟩
      intro relay hrelay address hmem
      rcases List.mem_append.mp hmem with hold | hnew
      · exact hwatching.queue relay hrelay address hold
      · rw [List.mem_singleton.mp hnew]
        rw [timely, mem_def.mp hrelay] at htimely
        exact beq_iff_eq.mp htimely
  · have hmove := phaseStep_move hstep
    refine ⟨horderly, ?_, ?_⟩
    · intro relay hrelay
      obtain ⟨hbefore, hqueue⟩ := hmove.watched hrelay
      rw [hqueue]
      rcases hbefore with ⟨rfl, hphase⟩ | hwatched
      · simpa [timely, hphase, QueueNames] using htimely
      · exact hwatching.queue relay hwatched
    · intro relay relayer address hnext
      obtain ⟨hphase, hrelayer, haddress⟩ := hmove.revalidating hnext
      obtain ⟨hnames, hnamed⟩ := hwatching.names hphase
      rw [hnames, some.injEq] at hrelayer
      rw [hnamed, some.injEq] at haddress
      exact ⟨hrelayer.symm, haddress.symm⟩

end Watching

/-- In every run in which the queue of `RelayLost` events names the relay that is
held, a hold is given up only on evidence about that relay. -/
theorem hold_given_up_on_evidence (env : DriverEnv) {state next : DriverState}
    {input : DriverInput} {relay : AcquiredRelay}
    (hreaches : Reaches (driverStep env) (fun state input => timely state input = true)
      DriverState.initial state)
    (hstep : driverStep env state input = some next)
    (hgivesUp : GivesUp state next relay) : LossEvidence state relay input := by
  have hwatching := hreaches.invariant (Watching.initial env)
    fun _ _ _ hwatching htimely hstep => hwatching.step htimely hstep
  have hmove : DriverMove env state input next := by
    unfold driverStep at hstep
    split at hstep
    · cases hstep
      have hphase : state.phase = .losing relay false false := hgivesUp.2
      rw [GivesUp, hphase] at hgivesUp
      cases hgivesUp.1
    · cases hstep
      have hphase : state.phase = .losing relay false false := hgivesUp.2
      rw [GivesUp, hphase] at hgivesUp
      cases hgivesUp.1
    · exact phaseStep_move hstep
  rcases hmove.evidence hgivesUp with ⟨address, rest, rfl, hqueue⟩ | rfl |
      ⟨relayer, address, successes, attempts, hphase, rfl⟩ | ⟨hphase, hvanished⟩
  · have hnames := hwatching.queue relay hgivesUp.1 address (by simp [hqueue])
    exact Or.inl ⟨rfl, by rw [hqueue, ← hnames]; rfl⟩
  · exact Or.inr (Or.inl rfl)
  · obtain ⟨rfl, rfl⟩ := hwatching.revalidating relay relayer address hphase
    exact Or.inr (Or.inr ⟨hphase, successes, attempts, rfl⟩)
  · obtain ⟨hrelayer, haddress⟩ := hwatching.names hphase
    rw [hrelayer, haddress] at hvanished
    rcases hvanished with hnone | hnone <;> cases hnone

theorem recvRelayLost_givesUp {address : SocketAddr} {rest : List SocketAddr} (env : DriverEnv)
    (hphase : state.phase = .holding relay) (hshutdown : state.shutdown = false)
    (hqueue : state.relayLost = address :: rest) :
    ∃ next, driverStep env state .recvRelayLost = some next ∧ GivesUp state next relay := by
  refine ⟨{ state with relayLost := rest }.lose relay, ?_, ?_, rfl⟩
  · simp [driverStep, phaseStep, holdStep, hphase, hshutdown, hqueue]
  · rw [hphase]
    rfl

/-- The relay at port `1` is lost and its own event ends the hold. -/
theorem own_event_ends_hold :
    ∃ state next, Reaches (driverStep exampleEnv)
        (fun state input => timely state input = true) DriverState.initial state ∧
      driverStep exampleEnv state .recvRelayLost = some next ∧
      GivesUp state next (exampleRelay 1) ∧
      LossEvidence state (exampleRelay 1) .recvRelayLost := by
  have hrun : (run (driverStep exampleEnv) (fun state input => timely state input = true)
      DriverState.initial
      ([.publish exampleSnapshot] ++ holdInputs 1 ++
        [.queueRelayLost (.v4 0xcb007107 1)])).map (fun state =>
          (state.phase, state.shutdown, state.relayLost)) =
      some (.holding (exampleRelay 1), false, [.v4 0xcb007107 1]) := by
    decide +kernel
  obtain ⟨state, hstate, hvalues⟩ := map_eq_some_iff.mp hrun
  simp only [Prod.mk.injEq] at hvalues
  obtain ⟨hphase, hshutdown, hqueue⟩ := hvalues
  have hreaches := reaches_of_run hstate
  obtain ⟨next, hstep, hgivesUp⟩ :=
    recvRelayLost_givesUp exampleEnv hphase hshutdown hqueue
  exact ⟨state, next, hreaches, hstep, hgivesUp,
    hold_given_up_on_evidence exampleEnv hreaches hstep hgivesUp⟩

/-- The relay at port `1` is found unhealthy; its `RelayLost` event arrives when it is
already gone and ends the hold of the next relay, at port `2`. -/
theorem stale_event_ends_hold :
    ∃ state next, Reaches (driverStep exampleEnv) (fun _ _ => True) DriverState.initial
        state ∧
      driverStep exampleEnv state .recvRelayLost = some next ∧
      GivesUp state next (exampleRelay 2) ∧
      ¬LossEvidence state (exampleRelay 2) .recvRelayLost := by
  have hrun : (run (driverStep exampleEnv) (fun _ _ => True) DriverState.initial
      ([.publish exampleSnapshot] ++ holdInputs 1 ++
        [.healthTick false, .abort, .publish exampleSnapshot,
          .queueRelayLost (.v4 0xcb007107 1)] ++ holdInputs 2)).map (fun state =>
          (state.phase, state.shutdown, state.relayLost)) =
      some (.holding (exampleRelay 2), false, [.v4 0xcb007107 1]) := by
    decide +kernel
  obtain ⟨state, hstate, hvalues⟩ := map_eq_some_iff.mp hrun
  simp only [Prod.mk.injEq] at hvalues
  obtain ⟨hphase, hshutdown, hqueue⟩ := hvalues
  obtain ⟨next, hstep, hgivesUp⟩ :=
    recvRelayLost_givesUp exampleEnv hphase hshutdown hqueue
  refine ⟨state, next, reaches_of_run hstate, hstep, hgivesUp, ?_⟩
  rintro (⟨-, hhead⟩ | hhealth | ⟨hrevalidating, -⟩)
  · rw [hqueue] at hhead
    exact absurd hhead (by decide)
  · cases hhealth
  · rw [hphase] at hrevalidating
    cases hrevalidating

end SaorsaCore.Reachability
