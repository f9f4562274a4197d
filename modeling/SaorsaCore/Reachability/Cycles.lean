import SaorsaCore.Reachability.Driver

/-!
# Acquisition cycles

What the driver does between two acquisitions: an allocation is announced only
between its commit and its loss, it is aborted exactly once, and a relay-free set is
published after it was lost or rejected.  The shared relay state names the allocation
while it is held and is empty while another one is sought.
-/

namespace SaorsaCore.Reachability

open DriverState Transition List

/-! ## What a cycle must look like -/

/-- The driver verified and committed the allocation and has not lost it. -/
structure Licensed (relay : AcquiredRelay) (events : List DriverEvent) : Prop where
  admitted : ∃ verdict, .admission relay verdict ∈ events ∧ verdict.isVerified = true
  committed : .commit relay true ∈ events
  kept : .lost relay ∉ events

/-- The typed set names no relay but the address of an allocation that the events
before license. -/
def Permitted (env : DriverEnv) (events : List DriverEvent)
    (typed : List (MultiAddr × AddressType)) : Prop :=
  ∀ address, (address, AddressType.relay) ∈ typed → ∃ relay,
    address = MultiAddr.quic (env.normalize relay.allocation.publicAddr) ∧ Licensed relay events

/-- Every publication in the cycle was permitted when it was made. -/
def Sanctioned (env : DriverEnv) (events : List DriverEvent) : Prop :=
  ∀ before typed after, events = before ++ .published typed :: after → Permitted env before typed

def RelayFree (typed : List (MultiAddr × AddressType)) : Prop :=
  ∀ address, (address, AddressType.relay) ∉ typed

/-- The event ends the life of an allocation: it is lost, or it was not verified, or
its commit failed. -/
inductive Ends (relay : AcquiredRelay) : DriverEvent → Prop where
  | lost : Ends relay (.lost relay)
  | unverified {verdict : RelayCanaryVerdict} (hverdict : verdict.isVerified = false) :
      Ends relay (.admission relay verdict)
  | uncommitted : Ends relay (.commit relay false)

def Ended (relay : AcquiredRelay) (events : List DriverEvent) : Prop :=
  ∃ before ending after, events = before ++ ending :: after ∧ Ends relay ending

/-- A relay-free set was published after the end of the allocation. -/
def Withdrawn (relay : AcquiredRelay) (events : List DriverEvent) : Prop :=
  ∃ before ending after typed, events = before ++ ending :: after ∧
    Ends relay ending ∧ .published typed ∈ after ∧ RelayFree typed

/-- Every allocation of the cycle was aborted once and withdrawn. -/
def Settled (events : List DriverEvent) : Prop :=
  ∀ relay, .acquired relay ∈ events →
    events.count (.aborted relay.allocation) = 1 ∧ Withdrawn relay events

/-! ## Appending events -/

theorem Sanctioned.nil (env : DriverEnv) : Sanctioned env [] := by
  intro before typed after heq
  simp at heq

variable {env : DriverEnv} {events : List DriverEvent} {event : DriverEvent}

theorem Sanctioned.append (hsanctioned : Sanctioned env events)
    (hevent : ∀ typed, event = .published typed → Permitted env events typed) :
    Sanctioned env (events ++ [event]) := by
  intro before typed after heq
  rcases eq_nil_or_concat after with rfl | ⟨rest, last, rfl⟩
  · obtain ⟨rfl, hlast⟩ := append_inj' heq rfl
    exact hevent typed (cons.inj hlast).1
  · have hsplit : events ++ [event] = (before ++ .published typed :: rest) ++ [last] := by
      simpa using heq
    exact hsanctioned before typed rest (append_inj' hsplit rfl).1

variable {typed : List (MultiAddr × AddressType)}

theorem Permitted.of_relayFree (hfree : RelayFree typed) : Permitted env events typed :=
  fun address hrelay => absurd hrelay (hfree address)

variable {relay : AcquiredRelay}

theorem Ended.append (hended : Ended relay events) (event : DriverEvent) :
    Ended relay (events ++ [event]) := by
  obtain ⟨before, ending, after, rfl, hends⟩ := hended
  exact ⟨before, ending, after ++ [event], by simp, hends⟩

theorem Ended.of_last (events : List DriverEvent) (hends : Ends relay event) :
    Ended relay (events ++ [event]) :=
  ⟨events, event, [], rfl, hends⟩

theorem Withdrawn.append (hwithdrawn : Withdrawn relay events) (event : DriverEvent) :
    Withdrawn relay (events ++ [event]) := by
  obtain ⟨before, ending, after, typed, rfl, hends, hmem, hfree⟩ := hwithdrawn
  exact ⟨before, ending, after ++ [event], typed, by simp, hends, mem_append_left _ hmem, hfree⟩

theorem Ended.withdrawn (hended : Ended relay events)
    (hfree : RelayFree typed) : Withdrawn relay (events ++ [.published typed]) := by
  obtain ⟨before, ending, after, rfl, hends⟩ := hended
  exact ⟨before, ending, after ++ [.published typed], typed, by simp, hends, by simp, hfree⟩

/-- The cycle is about one allocation, which has been aborted so many times. -/
structure Custody (relay : AcquiredRelay) (aborts : ℕ) (events : List DriverEvent) :
    Prop where
  only : ∀ other, .acquired other ∈ events → other = relay
  count_eq : events.count (.aborted relay.allocation) = aborts

theorem Custody.append {aborts : ℕ} (hcustody : Custody relay aborts events)
    (hacquired : ∀ other, event ≠ .acquired other)
    (haborted : ∀ allocation, event ≠ .aborted allocation) :
    Custody relay aborts (events ++ [event]) where
  only other hmem := by
    rcases mem_append.mp hmem with hold | hnew
    · exact hcustody.only other hold
    · exact absurd (mem_singleton.mp hnew).symm (hacquired other)
  count_eq := by
    rw [count_append, hcustody.count_eq, count_singleton,
      if_neg (by simpa using haborted _), Nat.add_zero]

theorem Custody.abort {aborts : ℕ} (hcustody : Custody relay aborts events) :
    Custody relay (aborts + 1) (events ++ [.aborted relay.allocation]) where
  only other hmem := by
    rcases mem_append.mp hmem with hold | hnew
    · exact hcustody.only other hold
    · simp at hnew
  count_eq := by
    rw [count_append, hcustody.count_eq, count_singleton_self]

theorem Custody.settled (hcustody : Custody relay 1 events)
    (hwithdrawn : Withdrawn relay events) : Settled events := by
  intro other hmem
  obtain rfl := hcustody.only other hmem
  exact ⟨hcustody.count_eq, hwithdrawn⟩

theorem Settled.published (hsettled : Settled events) (typed : List (MultiAddr × AddressType)) :
    Settled (events ++ [.published typed]) := by
  intro relay hmem
  have hacquired : .acquired relay ∈ events := by simpa using hmem
  obtain ⟨hcount, hwithdrawn⟩ := hsettled relay hacquired
  refine ⟨?_, hwithdrawn.append _⟩
  rw [count_append, hcount, count_singleton, if_neg (by simp)]

/-! ## The invariant -/

/-- What the driver has done in the present cycle when it is at an await point. -/
def Books (events : List DriverEvent) : Phase → Prop
  | .starting => events = []
  | .loopHead => Settled events
  | .acquiring => events = []
  | .verifying relay => events = [.acquired relay]
  | .committing relay => ∃ verdict, verdict.isVerified = true ∧
    events = [.acquired relay, .admission relay verdict]
  | .announcing relay => Custody relay 0 events ∧ Licensed relay events
  | .subscribing relay => Custody relay 0 events ∧ Licensed relay events
  | .holding relay => Custody relay 0 events ∧ Licensed relay events
  | .revalidating relay _ _ => Custody relay 0 events ∧ Licensed relay events
  | .losing relay aborted published =>
    Custody relay (if aborted then 1 else 0) events ∧ Ended relay events ∧
      (published = true → Withdrawn relay events)
  | .discarding relay => Custody relay 0 events ∧ Ended relay events
  | .withdrawing => (∀ relay, .acquired relay ∉ events) ∨
    ∃ relay, Custody relay 1 events ∧ Ended relay events
  | .backoff => Settled events
  | .stopped => True

/-- The allocation the shared relay state is about at an await point. -/
def Phase.announced : Phase → Option AcquiredRelay
  | .announcing relay => some relay
  | .subscribing relay => some relay
  | .holding relay => some relay
  | .revalidating relay _ _ => some relay
  | _ => none

structure Orderly (env : DriverEnv) (state : DriverState) : Prop where
  past : ∀ cycle ∈ state.past, Sanctioned env cycle ∧ Settled cycle
  sanctioned : Sanctioned env state.current
  books : Books state.current state.phase
  relayer : state.phase ≠ .stopped →
    state.relayerPeerId = state.phase.announced.map AcquiredRelay.relayer
  address : state.phase ≠ .stopped →
    state.relayAddress = state.phase.announced.map fun relay => relay.allocation.publicAddr

theorem relayFree_typedSet (env : DriverEnv) (snapshot : Snapshot) :
    RelayFree (typedSet env none snapshot) := by
  intro address hmem
  obtain ⟨socket, hsocket, -⟩ := (mem_intoTypedVec_relay_iff _ _).mp hmem
  cases hsocket

theorem Licensed.permitted (hlicensed : Licensed relay events) (snapshot : Snapshot) :
    Permitted env events (typedSet env (some relay.allocation.publicAddr) snapshot) := by
  intro address hmem
  obtain ⟨socket, hsocket, haddress⟩ := (mem_intoTypedVec_relay_iff _ _).mp hmem
  cases hsocket
  exact ⟨relay, haddress, hlicensed⟩

theorem Licensed.append (hlicensed : Licensed relay events) (hevent : event ≠ .lost relay) :
    Licensed relay (events ++ [event]) where
  admitted := by
    obtain ⟨verdict, hmem, hverdict⟩ := hlicensed.admitted
    exact ⟨verdict, mem_append_left _ hmem, hverdict⟩
  committed := mem_append_left _ hlicensed.committed
  kept hmem := by
    rcases mem_append.mp hmem with hold | hnew
    · exact hlicensed.kept hold
    · exact hevent (mem_singleton.mp hnew).symm

namespace Orderly

variable {env : DriverEnv} {state next : DriverState} {input : DriverInput}

theorem initial (env : DriverEnv) : Orderly env DriverState.initial where
  past _ hmem := by cases hmem
  sanctioned := Sanctioned.nil env
  books := rfl
  relayer _ := rfl
  address _ := rfl

/-- A stopped driver owes nothing more. -/
theorem stop (horderly : Orderly env state) : Orderly env (state.goTo .stopped) :=
  ⟨horderly.past, horderly.sanctioned, trivial, fun hrun => absurd rfl hrun,
    fun hrun => absurd rfl hrun⟩

/-- A step that is logged and is not a publication. -/
theorem logged (horderly : Orderly env state) (event : DriverEvent)
    (hevent : ∀ typed, event ≠ .published typed)
    (hpast : next.past = state.past) (hcurrent : next.current = state.current ++ [event])
    (hbooks : Books next.current next.phase)
    (hrelayer : next.relayerPeerId = next.phase.announced.map AcquiredRelay.relayer)
    (haddress : next.relayAddress =
      next.phase.announced.map fun relay => relay.allocation.publicAddr) :
    Orderly env next where
  past := by
    rw [hpast]
    exact horderly.past
  sanctioned := by
    rw [hcurrent]
    exact horderly.sanctioned.append fun typed htyped => absurd htyped (hevent typed)
  books := hbooks
  relayer _ := hrelayer
  address _ := haddress

variable {phase : Phase}

/-- A publication leaves the shared relay state alone. -/
theorem publish (horderly : Orderly env state) {relay : Option SocketAddr}
    {snapshot : Snapshot} (force : Bool)
    (hpermitted : Permitted env state.current (typedSet env relay snapshot))
    (hrun : state.phase ≠ .stopped) (hannounced : phase.announced = state.phase.announced)
    (hbooks : Books (state.current ++ [.published (typedSet env relay snapshot)]) phase) :
    Orderly env ((publishTypedSet env relay force snapshot state).goTo phase) where
  past := horderly.past
  sanctioned := by
    apply horderly.sanctioned.append
    intro typed htyped
    cases htyped
    exact hpermitted
  books := hbooks
  relayer _ := by
    have hrelayer := horderly.relayer hrun
    rw [← hannounced] at hrelayer
    exact hrelayer
  address _ := by
    have haddress := horderly.address hrun
    rw [← hannounced] at haddress
    exact haddress

theorem publish_none (horderly : Orderly env state) (force : Bool) (snapshot : Snapshot)
    (hrun : state.phase ≠ .stopped) (hannounced : phase.announced = state.phase.announced)
    (hbooks : Books (state.current ++ [.published (typedSet env none snapshot)]) phase) :
    Orderly env ((publishTypedSet env none force snapshot state).goTo phase) :=
  horderly.publish force (Permitted.of_relayFree (relayFree_typedSet env snapshot)) hrun
    hannounced hbooks

variable {relay : AcquiredRelay}

variable (horderly : Orderly env state)
include horderly

/-- `hold_until_lost` gives the relay up; what else it changed does not matter. -/
theorem lose (hcustody : Custody relay 0 state.current)
    {altered : DriverState} (hpast : altered.past = state.past)
    (hcurrent : altered.current = state.current) : Orderly env (altered.lose relay) := by
  have hlogged : (altered.lose relay).current = state.current ++ [.lost relay] := by
    rw [← hcurrent]
    rfl
  refine horderly.logged (.lost relay) (by simp) hpast hlogged ?_ rfl rfl
  rw [hlogged]
  exact ⟨hcustody.append (by simp) (by simp), Ended.of_last _ Ends.lost, by simp⟩

theorem admissionStep (hphase : state.phase = .verifying relay)
    (verdict : RelayCanaryVerdict) : Orderly env (admissionStep state relay verdict) := by
  have hbooks := horderly.books
  have hrelayer := horderly.relayer
  have haddress := horderly.address
  rw [hphase] at hbooks hrelayer haddress
  have hcustody : Custody relay 0 state.current := by
    rw [hbooks]
    exact ⟨by simp, by simp⟩
  have hdiscard (hverdict : verdict.isVerified = false) :
      Books (state.current ++ [.admission relay verdict]) (.discarding relay) :=
    ⟨hcustody.append (by simp) (by simp), Ended.of_last _ (Ends.unverified hverdict)⟩
  cases verdict with
  | verified successes attempts =>
    have hcommitting : Books (state.current ++
        [.admission relay (.verified successes attempts)]) (.committing relay) :=
      ⟨.verified successes attempts, rfl, by rw [hbooks]; rfl⟩
    exact horderly.logged _ (by simp) rfl rfl hcommitting (hrelayer (by simp)) (haddress (by simp))
  | rejected successes attempts =>
    exact horderly.logged _ (by simp) rfl rfl (hdiscard rfl) (hrelayer (by simp))
      (haddress (by simp))
  | inconclusive successes failures unavailable =>
    exact horderly.logged _ (by simp) rfl rfl (hdiscard rfl) (hrelayer (by simp))
      (haddress (by simp))

theorem commitStep (hphase : state.phase = .committing relay)
    (success : Bool) : Orderly env (commitStep state relay success) := by
  have hbooks := horderly.books
  have hrelayer := horderly.relayer
  have haddress := horderly.address
  rw [hphase] at hbooks hrelayer haddress
  obtain ⟨verdict, hverdict, hcurrent⟩ := hbooks
  have hcustody : Custody relay 0 state.current := by
    rw [hcurrent]
    exact ⟨by simp, by simp⟩
  cases success with
  | true =>
    have hlicensed : Licensed relay (state.current ++ [.commit relay true]) := by
      rw [hcurrent]
      exact ⟨⟨verdict, by simp, hverdict⟩, by simp, by simp⟩
    exact horderly.logged (.commit relay true) (by simp) rfl rfl
      ⟨hcustody.append (by simp) (by simp), hlicensed⟩ rfl rfl
  | false =>
    exact horderly.logged (.commit relay false) (by simp) rfl rfl
      ⟨hcustody.append (by simp) (by simp), Ended.of_last _ Ends.uncommitted⟩
      (hrelayer (by simp)) (haddress (by simp))

/-- Moves that change neither the log nor the relay state. -/
theorem move (hrun : state.phase ≠ .stopped)
    (hannounced : phase.announced = state.phase.announced) (hbooks : Books state.current phase) :
    Orderly env (state.goTo phase) := by
  refine ⟨horderly.past, horderly.sanctioned, hbooks, fun _ => ?_, fun _ => ?_⟩
  · have hrelayer := horderly.relayer hrun
    rw [← hannounced] at hrelayer
    exact hrelayer
  · have haddress := horderly.address hrun
    rw [← hannounced] at haddress
    exact haddress

theorem holdMove (hphase : state.phase = .holding relay)
    (hmove : HoldMove env state relay input next) : Orderly env next := by
  have hbooks := horderly.books
  have haddress := horderly.address
  have hrun : state.phase ≠ .stopped := by simp [hphase]
  rw [hphase] at hbooks haddress
  have hcustody : Custody relay 0 state.current := hbooks.1
  have hpublish (snapshot : Snapshot) :
      Orderly env (publishTypedSet env state.relayAddress false snapshot state) := by
    rw [haddress (by simp)]
    refine horderly.publish false (hbooks.2.permitted snapshot) hrun rfl ?_
    rw [hphase]
    exact ⟨hcustody.append (by simp) (by simp), hbooks.2.append (by simp)⟩
  cases hmove with
  | stop => exact horderly.stop
  | ignore => exact horderly
  | healthy => exact horderly
  | addressSignal => exact hpublish _
  | dhtSignal => exact hpublish _
  | relayLost => exact horderly.lose hcustody rfl rfl
  | unhealthy => exact horderly.lose hcustody rfl rfl
  | revalidate => exact horderly.move hrun (by rw [hphase]; rfl) hbooks
  | vanished => exact horderly.lose hcustody rfl rfl

/-- The half of `lose_relay_and_republish` that publishes. -/
theorem withdrawLost {aborted : Bool}
    (hphase : state.phase = .losing relay aborted false) (snapshot : Snapshot) :
    Orderly env ((publishTypedSet env none true snapshot state).loseNext relay aborted true) := by
  have hbooks := horderly.books
  rw [hphase] at hbooks
  obtain ⟨hcustody, hended, -⟩ := hbooks
  have hwithdrawn := hended.withdrawn (relayFree_typedSet env snapshot)
  have hpublished : Custody relay (if aborted then 1 else 0)
      (state.current ++ [.published (typedSet env none snapshot)]) :=
    hcustody.append (by simp) (by simp)
  rw [loseNext]
  refine horderly.publish_none true snapshot (by simp [hphase]) ?_ ?_
  · cases aborted <;> simp [hphase, Phase.announced]
  · cases aborted with
    | true => exact hpublished.settled hwithdrawn
    | false => exact ⟨hpublished, hended.append _, fun _ => hwithdrawn⟩

/-- The half of `lose_relay_and_republish` that tears down. -/
theorem abortLost {published : Bool} (hphase : state.phase = .losing relay false published) :
    Orderly env ((state.log (.aborted relay.allocation)).loseNext relay true published) := by
  have hbooks := horderly.books
  have hrelayer := horderly.relayer
  have haddress := horderly.address
  rw [hphase] at hbooks hrelayer haddress
  obtain ⟨hcustody, hended, hpublished⟩ := hbooks
  cases published with
  | true =>
    exact horderly.logged (.aborted relay.allocation) (by simp) rfl rfl
      (hcustody.abort.settled ((hpublished rfl).append _)) (hrelayer (by simp))
      (haddress (by simp))
  | false =>
    exact horderly.logged (.aborted relay.allocation) (by simp) rfl rfl
      ⟨hcustody.abort, hended.append _, by simp⟩ (hrelayer (by simp))
      (haddress (by simp))

theorem driverMove (hmove : DriverMove env state input next) : Orderly env next := by
  have hbooks := horderly.books
  have hrelayer := horderly.relayer
  have haddress := horderly.address
  cases hmove with
  | stop => exact horderly.stop
  | startup hphase =>
    rw [hphase] at hbooks
    refine horderly.publish_none true _ (by simp [hphase]) (by rw [hphase]; rfl) ?_
    intro relay hmem
    rw [show state.current = [] from hbooks] at hmem
    simp at hmem
  | acquire hphase =>
    rw [hphase] at hbooks hrelayer haddress
    refine ⟨?_, Sanctioned.nil env, rfl, fun _ => hrelayer (by simp), fun _ => haddress (by simp)⟩
    intro cycle hcycle
    rcases mem_append.mp hcycle with hold | hnew
    · exact horderly.past cycle hold
    · rw [mem_singleton.mp hnew]
      exact ⟨horderly.sanctioned, hbooks⟩
  | acquired hphase =>
    rw [hphase] at hbooks hrelayer haddress
    refine horderly.logged (.acquired _) (by simp) rfl rfl ?_ (hrelayer (by simp))
      (haddress (by simp))
    rw [DriverState.goTo, DriverState.log, show state.current = [] from hbooks]
    rfl
  | failed hphase =>
    rw [hphase] at hbooks
    refine ⟨horderly.past, horderly.sanctioned, Or.inl ?_, fun _ => rfl, fun _ => rfl⟩
    intro relay
    rw [DriverState.goTo, DriverState.clearRelay, DriverState.canary,
      show state.current = [] from hbooks]
    simp
  | admission hphase => exact horderly.admissionStep hphase _
  | commit hphase => exact horderly.commitStep hphase _
  | announce hphase =>
    rw [hphase] at hbooks
    exact horderly.publish true (hbooks.2.permitted _) (by simp [hphase]) (by rw [hphase]; rfl)
      ⟨hbooks.1.append (by simp) (by simp), hbooks.2.append (by simp)⟩
  | subscribe hphase =>
    rw [hphase] at hbooks
    exact horderly.move (by simp [hphase]) (by rw [hphase]; rfl) hbooks
  | hold hphase hmove => exact horderly.holdMove hphase hmove
  | maintained hphase =>
    rw [hphase] at hbooks
    exact horderly.move (by simp [hphase]) (by rw [hphase]; rfl) hbooks
  | refuted hphase =>
    rw [hphase] at hbooks
    exact horderly.lose hbooks.1 rfl rfl
  | withdrawLost hphase => exact horderly.withdrawLost hphase _
  | abortLost hphase => exact horderly.abortLost hphase
  | discard hphase =>
    rw [hphase] at hbooks
    exact horderly.logged (.aborted _) (by simp) rfl rfl
      (Or.inr ⟨_, hbooks.1.abort, hbooks.2.append _⟩) rfl rfl
  | withdraw hphase =>
    rw [hphase] at hbooks
    refine horderly.publish_none false _ (by simp [hphase]) (by rw [hphase]; rfl) ?_
    rcases hbooks with hnone | ⟨relay, hcustody, hended⟩
    · intro relay hmem
      exact absurd (by simpa using hmem) (hnone relay)
    · exact (hcustody.append (by simp) (by simp)).settled
        (hended.withdrawn (relayFree_typedSet env _))
  | backoffRefresh hphase =>
    rw [hphase] at hbooks
    refine horderly.publish_none false _ (by simp [hphase]) rfl ?_
    rw [hphase]
    exact hbooks.published _
  | backoffIgnore hphase => exact horderly
  | backoffEnd hphase =>
    rw [hphase] at hbooks hrelayer haddress
    exact ⟨horderly.past, horderly.sanctioned, hbooks, fun _ => hrelayer (by simp),
      fun _ => haddress (by simp)⟩

theorem step (hstep : driverStep env state input = some next) : Orderly env next := by
  unfold driverStep at hstep
  split at hstep
  · cases hstep
    exact ⟨horderly.past, horderly.sanctioned, horderly.books, horderly.relayer, horderly.address⟩
  · cases hstep
    exact ⟨horderly.past, horderly.sanctioned, horderly.books, horderly.relayer, horderly.address⟩
  · exact horderly.driverMove (phaseStep_move hstep)

end Orderly

/-! ## Runs -/

/-- The allocation `hold_until_lost` is holding. -/
def Phase.Holds (relay : AcquiredRelay) : Phase → Prop
  | .subscribing held => held = relay
  | .holding held => held = relay
  | .revalidating held _ _ => held = relay
  | _ => False

/-- Acquisition, verification and backoff. -/
def Phase.Seeks : Phase → Prop
  | .acquiring => True
  | .verifying _ => True
  | .backoff => True
  | _ => False

/-- In every run of the driver, relay addresses are published between the commit and
the loss of their allocation, the shared relay state follows the allocation, and every
cycle that led to another acquisition has aborted and withdrawn its allocation. -/
theorem driver_orderly (env : DriverEnv) {state : DriverState}
    (hreaches : Reaches (driverStep env) (fun _ _ => True) DriverState.initial state) :
    (∀ cycle ∈ state.past ++ [state.current], Sanctioned env cycle) ∧
    (∀ relay, state.phase.Holds relay → Licensed relay state.current ∧
      state.relayerPeerId = some relay.relayer ∧
      state.relayAddress = some relay.allocation.publicAddr) ∧
    (state.phase.Seeks → state.relayerPeerId = none ∧ state.relayAddress = none) ∧
    (∀ cycle ∈ state.past, Settled cycle) := by
  have horderly := hreaches.invariant (Orderly.initial env) fun _ _ _ horderly _ hstep =>
    horderly.step hstep
  refine ⟨?_, ?_, ?_, fun cycle hcycle => (horderly.past cycle hcycle).2⟩
  · intro cycle hcycle
    rcases mem_append.mp hcycle with hpast | hcurrent
    · exact (horderly.past cycle hpast).1
    · rw [mem_singleton.mp hcurrent]
      exact horderly.sanctioned
  · intro relay hholds
    obtain ⟨hpast, hsanctioned, hbooks, hrelayer, haddress⟩ := horderly
    cases hphase : state.phase <;> rw [hphase] at hholds hbooks hrelayer haddress <;>
      first
      | exact hholds.elim
      | cases hholds
        exact ⟨hbooks.2, hrelayer (by simp), haddress (by simp)⟩
  · intro hseeks
    obtain ⟨hpast, hsanctioned, hbooks, hrelayer, haddress⟩ := horderly
    cases hphase : state.phase <;> rw [hphase] at hseeks hrelayer haddress <;>
      first
      | exact hseeks.elim
      | exact ⟨hrelayer (by simp), haddress (by simp)⟩

/-! A run on a small node: one observed address, one close peer, and relays at two
ports of one address. -/

def exampleEnv : DriverEnv :=
  { own := 0, normalize := id, encode := fun _ => some [7] }

def exampleSnapshot : Snapshot :=
  { observed := [.v4 0xcb007109 9000]
    listen := []
    isExternalProven := fun _ => false
    supplemental := []
    closest := [1] }

def exampleRelay (port : BitVec 16) : AcquiredRelay :=
  { relayer := 1, allocation := { publicAddr := .v4 0xcb007107 port, identity := 0 } }

/-- From the head of the loop to the hold. -/
def holdInputs (port : BitVec 16) : List DriverInput :=
  [.proceed, .acquisition (.acquired (exampleRelay port)), .admission (.verified 3 3),
    .commit true, .publish exampleSnapshot, .subscribe]

/-- The startup, and the cycle of a relay that is lost. -/
def lostCycles : List (List DriverEvent) :=
  let direct := (MultiAddr.quic (.v4 0xcb007109 9000), AddressType.unverified)
  let relay := exampleRelay 1
  [[.published [direct]], [.acquired relay, .admission relay (.verified 3 3), .commit relay true,
      .published [(.quic (.v4 0xcb007107 1), .relay), direct],
      .lost relay, .aborted relay.allocation, .published [direct]]]

theorem lost_relay_settled :
    ∃ state, Reaches (driverStep exampleEnv) (fun _ _ => True) DriverState.initial state ∧
      state.past = lostCycles ∧ ∀ cycle ∈ state.past, Settled cycle := by
  have hrun : (run (driverStep exampleEnv) (fun _ _ => True) DriverState.initial
      ([.publish exampleSnapshot] ++ holdInputs 1 ++
        [.healthTick false, .abort, .publish exampleSnapshot, .proceed])).map
          DriverState.past = some lostCycles := by
    decide +kernel
  obtain ⟨state, hstate, hpast⟩ := Option.map_eq_some_iff.mp hrun
  have hreaches := reaches_of_run hstate
  exact ⟨state, hreaches, hpast, (driver_orderly exampleEnv hreaches).2.2.2⟩

end SaorsaCore.Reachability
