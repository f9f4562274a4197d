import SaorsaCore.Lookup.Walk

/-!
# What a walk guarantees

A caller makes a lookup, registers known results and candidates in any order and
runs it.  The books of the lookup start with what was registered, and at the end of
the walk they say whom it asked, why everybody else was not asked, and that the
results are the closest peers that are known or answered.
-/

namespace SaorsaCore.Lookup

open Ledger List IterativeLookup Round QueueLog Closest HashOrder

variable {Q N E : Type*} [LookupNode N] {ledger : Ledger}
  {lookup : IterativeLookup N}

/-! ## Setting a lookup up -/

/-- The calls a caller makes before it runs the lookup. -/
inductive LookupSetup (N : Type*)
  | knownResult (node : N)
  | candidate (node : N)

/-- The lookup after these calls, with the changes of its queue. -/
def IterativeLookup.setUp (lookup : IterativeLookup N) :
    List (LookupSetup N) → IterativeLookup N × QueueLog
  | [] => (lookup, .empty)
  | .knownResult node :: calls => (lookup.addKnownResult node).setUp calls
  | .candidate node :: calls =>
    let added := lookup.addCandidate node
    let rest := added.1.setUp calls
    (rest.1, (QueueLog.ofInsertion (lookupPeerId node) added.2).append rest.2)

/-- The peers registered with `add_known_result`. -/
def registered : List (LookupSetup N) → List PeerId
  | [] => []
  | .knownResult node :: calls => lookupPeerId node :: registered calls
  | .candidate _ :: calls => registered calls

/-- The ledger of a lookup that has not been run. -/
def Ledger.opening (known : List PeerId) (log : QueueLog) : Ledger :=
  ⟨known, [], [], [], log⟩

variable {known : List PeerId} {log : QueueLog}

/-- Before the first round the known peers count as succeeded and nobody else has
a state. -/
theorem Idle.of_states (hstates : ∀ peer, lookup.peerStates peer =
      if peer ∈ known then some .succeeded else none)
    (hsuccessful : lookup.successful.map lookupPeerId = known) (hnodup : known.Nodup)
    (hqueryOrder : lookup.queryOrder = []) (hinFlight : lookup.inFlight = [])
    (hinactive : lookup.roundActive = false)
    (hfresh : ∀ node ∈ lookup.candidates.values, lookupPeerId node ∉ known)
    (hentered : ∀ peer ∈ log.entered, peer ∈ lookup.queuedPeers ∨
      peer ∈ known ∨ peer ∈ log.evicted) :
    Idle (Ledger.opening known log) lookup where
  accounts := by
    refine ⟨hqueryOrder, ?_, fun peer => ?_, ?_, ?_, fun peer => ?_,
      fun peer => ?_, fun node hnode => ?_, fun peer hpeer => ?_⟩
    · simpa [opening] using hnodup
    · simp [hstates, opening]
    · simpa [opening] using hsuccessful
    · simpa [opening] using hnodup
    · simp [hstates, opening]
    · simp [hstates, hinFlight]
    · simp [hstates, hfresh node hnode]
    · rcases hentered peer hpeer with hqueued | hknown | hevicted
      · exact Or.inl hqueued
      · exact Or.inr (Or.inl hknown)
      · exact Or.inr (Or.inr (Or.inr (Or.inr hevicted)))
  inactive := hinactive
  awaits := ⟨nodup_nil, fun peer => by simp [hstates]⟩

theorem Idle.states (hidle : Idle (Ledger.opening known log) lookup) (peer : PeerId) :
    lookup.peerStates peer = if peer ∈ known then some .succeeded else none := by
  split
  · next hknown => exact (hidle.accounts.succeeded peer).mpr (Or.inl hknown)
  · next hunknown =>
      have hcontacted := hidle.accounts.contacted peer
      rw [← Option.not_isSome_iff_eq_none, hcontacted]
      simpa [opening] using hunknown

theorem Idle.of_new {target : PeerId} {config : LookupConfig}
    (hnew : IterativeLookup.new target config = .ok lookup) :
    Idle (Ledger.opening [] .empty) lookup := by
  rw [new] at hnew
  cases hvalid : config.validate with
  | error refusal =>
    rw [hvalid] at hnew
    cases hnew
  | ok valid =>
    rw [hvalid] at hnew
    cases hnew
    apply Idle.of_states
    all_goals simp [empty, OrderedBy.empty]

section

variable (hidle : Idle (Ledger.opening known log) lookup)
include hidle

/-- The known results after one more registration. -/
theorem map_retainSuccess (node : N) :
    ∃ extended, (lookup.retainSuccess node).map lookupPeerId = extended ∧ extended.Nodup ∧
        ∀ peer, peer ∈ extended ↔ peer = lookupPeerId node ∨ peer ∈ known := by
  have hsuccessful : lookup.successful.map lookupPeerId = known := by
    simpa [opening] using hidle.accounts.successful
  have hnodup : known.Nodup := by
    simpa [opening] using hidle.accounts.nodup
  have hpresent : (KeyedList.lookup lookupPeerId (lookupPeerId node)
      lookup.successful).isSome ↔ lookupPeerId node ∈ known := by
    rw [KeyedList.isSome_lookup_iff, hsuccessful]
  rw [retainSuccess]
  by_cases hknown : lookupPeerId node ∈ known
  · rw [if_pos (hpresent.mpr hknown)]
    refine ⟨known, hsuccessful, hnodup, fun peer => ⟨Or.inr, ?_⟩⟩
    rintro (rfl | hold)
    · exact hknown
    · exact hold
  · rw [if_neg (mt hpresent.mp hknown)]
    refine ⟨known ++ [lookupPeerId node], by simp [hsuccessful], ?_, fun peer => ?_⟩
    · exact (nodup_append_comm.mp (nodup_cons.mpr ⟨hknown, hnodup⟩))
    · rw [mem_append, mem_singleton, or_comm]

theorem Idle.addKnownResult (node : N) :
    ∃ extended, Idle (Ledger.opening extended log) (lookup.addKnownResult node) ∧
      ∀ peer, peer ∈ extended ↔ peer = lookupPeerId node ∨ peer ∈ known := by
  obtain ⟨extended, hsuccessful, hnodup, hmem⟩ := map_retainSuccess hidle node
  refine ⟨extended, ?_, hmem⟩
  apply Idle.of_states
  · intro peer
    simp only [IterativeLookup.addKnownResult, Function.update_apply, hidle.states, hmem]
    by_cases hpeer : peer = lookupPeerId node <;> simp [hpeer]
  · exact hsuccessful
  · exact hnodup
  · exact hidle.accounts.queryOrder
  · exact hidle.accounts.inFlight_eq_nil hidle.awaits
  · exact hidle.inactive
  · intro other hother
    obtain ⟨hqueued, hkept⟩ := List.mem_filter.mp hother
    have hfresh := hidle.accounts.fresh other hqueued
    have hother : lookupPeerId other ∉ known := by
      intro hknown
      rw [hidle.states, if_pos hknown] at hfresh
      cases hfresh
    rw [hmem, not_or]
    exact ⟨by simpa using hkept, hother⟩
  · intro peer hpeer
    rcases hidle.accounts.entered peer hpeer with
      hqueued | hknown | hqueried | hineligible | hevicted
    · by_cases hsame : peer = lookupPeerId node
      · exact Or.inr (Or.inl ((hmem peer).mpr (Or.inl hsame)))
      · obtain ⟨other, hother, rfl⟩ := List.mem_map.mp hqueued
        refine Or.inl (List.mem_map_of_mem (List.mem_filter.mpr ⟨hother, ?_⟩))
        simpa using hsame
    · exact Or.inr (Or.inl ((hmem peer).mpr (Or.inr hknown)))
    · cases hqueried
    · cases hineligible
    · exact Or.inr (Or.inr hevicted)

theorem Idle.addCandidate (node : N) : Idle (Ledger.opening known (log.append (ofInsertion
      (lookupPeerId node) (lookup.addCandidate node).2))) (lookup.addCandidate node).1 where
  accounts := hidle.accounts.addCandidate node
  inactive := (addCandidate_frame lookup node).1.roundActive.trans hidle.inactive
  awaits := by
    refine ⟨nodup_nil, fun peer => ?_⟩
    rw [(addCandidate_frame lookup node).2]
    exact hidle.awaits.waiting peer

end

theorem setUp_idle (calls : List (LookupSetup N)) (hidle : Idle (Ledger.opening known log) lookup) :
    Frame lookup (lookup.setUp calls).1 ∧
      ∃ extended, Idle (Ledger.opening extended (log.append (lookup.setUp calls).2))
          (lookup.setUp calls).1 ∧
        ∀ peer, peer ∈ extended ↔ peer ∈ registered calls ∨ peer ∈ known := by
  induction calls generalizing lookup known log with
  | nil =>
    refine ⟨Frame.refl lookup, known, ?_, by simp [registered]⟩
    rw [setUp, QueueLog.append_empty]
    exact hidle
  | cons call calls ih =>
    cases call with
    | knownResult node =>
      obtain ⟨between, hbetween, hmem⟩ := hidle.addKnownResult node
      obtain ⟨hframe, extended, hextended, hregistered⟩ := ih hbetween
      have hadded : Frame lookup (lookup.addKnownResult node) :=
        ⟨rfl, rfl, rfl, rfl, rfl, rfl⟩
      refine ⟨hadded.trans hframe, extended, hextended, fun peer => ?_⟩
      rw [hregistered, hmem, registered, mem_cons]
      tauto
    | candidate node =>
      obtain ⟨hframe, extended, hextended, hregistered⟩ :=
        ih (hidle.addCandidate node)
      rw [QueueLog.append_assoc] at hextended
      exact ⟨(addCandidate_frame lookup node).1.trans hframe, extended, hextended, hregistered⟩

/-! ## The books of a walk -/

namespace Round

/-- The peers asked in a round. -/
def queriedPeers (round : Round N) : List PeerId :=
  (eligible round.answers).map lookupPeerId

def succeededPeers (round : Round N) : List PeerId :=
  round.outcomes.filterMap LookupQueryOutcome.success?

/-- The peers that were selected and declared ineligible. -/
def ineligiblePeers (round : Round N) : List PeerId :=
  (rejected round.answers).map lookupPeerId

end Round

/-- The changes of the queue in these rounds. -/
def roundsLog (rounds : List (Round N)) : QueueLog :=
  ⟨rounds.flatMap fun round => round.log.entered, rounds.flatMap fun round => round.log.evicted⟩

theorem Ledger.foldl_extend (ledger : Ledger) (rounds : List (Round N)) :
    rounds.foldl Ledger.extend ledger =
      { known := ledger.known
        queried := ledger.queried ++ rounds.flatMap queriedPeers
        succeeded := ledger.succeeded ++ rounds.flatMap succeededPeers
        ineligible := ledger.ineligible ++ rounds.flatMap ineligiblePeers
        log := ledger.log.append (roundsLog rounds) } := by
  induction rounds generalizing ledger with
  | nil => simp [roundsLog, append]
  | cons round rounds ih =>
    rw [foldl_cons, ih]
    simp [extend, handle, select, queriedPeers, succeededPeers, ineligiblePeers, roundsLog, append]

theorem Ledger.foldl_extend_opening (known : List PeerId) (log : QueueLog)
    (rounds : List (Round N)) :
    rounds.foldl Ledger.extend (Ledger.opening known log) =
      ⟨known, rounds.flatMap queriedPeers, rounds.flatMap succeededPeers,
        rounds.flatMap ineligiblePeers, log.append (roundsLog rounds)⟩ := by
  rw [foldl_extend]
  rfl

theorem length_queriedPeers_le {rounds : List (Round N)} {alpha : ℕ}
    (hbounded : ∀ round ∈ rounds, round.queriedPeers.length ≤ alpha) :
    (rounds.flatMap queriedPeers).length ≤ alpha * rounds.length := by
  induction rounds with
  | nil => exact Nat.zero_le _
  | cons round rounds ih =>
    obtain ⟨hround, hrest⟩ := forall_mem_cons.mp hbounded
    rw [flatMap_cons, length_append, length_cons, Nat.mul_succ, Nat.add_comm]
    exact Nat.add_le_add (ih hrest) hround

theorem new_frame {target : PeerId} {config : LookupConfig}
    (hnew : IterativeLookup.new target config = .ok lookup) :
    lookup.target = target ∧ lookup.config = config ∧ lookup.iterations = 0 ∧
      (lookup.termination = none ↔ 0 < config.count) := by
  simp only [new, LookupConfig.validate] at hnew
  split at hnew
  · cases hnew
  · next valid hvalid =>
      split at hvalid
      · cases hvalid
      · split at hvalid
        · cases hvalid
        · split at hvalid
          · cases hvalid
          · cases hvalid
            cases hnew
            refine ⟨rfl, rfl, rfl, ?_⟩
            simp [Nat.pos_iff_ne_zero]

/-! ## A walk on bare peer ids -/

instance : LookupNode PeerId := ⟨id⟩

/-- Every peer answers with two others, and one peer is never eligible. -/
def chattyAdapter : LookupQuery Unit PeerId Unit where
  isCandidateEligible _ node := ((), .ok (node != 7))
  queryBatch _ _ _ _ batch :=
    ((), .ok (batch.map fun node => .succeeded node [node / 2, node + 1]))
  candidateEvicted _ _ := ((), .ok ())

/-- Two results, three queries in a round, twenty rounds, eight candidates. -/
def exampleConfig : LookupConfig := ⟨2, 3, 20, 8⟩

def exampleCalls : List (LookupSetup PeerId) :=
  [.knownResult 6, .candidate 40, .candidate 7]

def exampleLookup : IterativeLookup PeerId where
  target := 0
  config := exampleConfig
  candidates := OrderedBy.empty
  peerStates := fun _ => none
  queryOrder := []
  inFlight := []
  successful := []
  previousTopK := []
  iterations := 0
  roundActive := false
  roundQueries := 0
  termination := none

theorem new_exampleConfig : IterativeLookup.new 0 exampleConfig = .ok exampleLookup := rfl

/-! ## The guarantees -/

section Guarantees

variable {target : PeerId} {config : LookupConfig}

/-- The books at the end of a walk on a lookup that was just set up. -/
structure WalkReport (target : PeerId) (config : LookupConfig)
    (known : List PeerId) (log : QueueLog) (walk : Walk N E) : Prop where
  accounts : Accounts ⟨known, walk.rounds.flatMap Round.queriedPeers,
    walk.rounds.flatMap Round.succeededPeers,
    walk.rounds.flatMap Round.ineligiblePeers,
    log.append (roundsLog walk.rounds)⟩ walk.lookup
  rounds_le : walk.rounds.length ≤ config.maxIterations
  fair : ∀ round ∈ walk.rounds, FairRound target config.alpha round
  settled : walk.result = .ok .converged ∨ walk.result = .ok .exhausted → Settled walk.lookup
  accepted : ∀ refusal, walk.result ≠ .error (.lookup refusal)
  target : walk.lookup.target = target
  config : walk.lookup.config = config

variable (adapter : LookupQuery Q N E) (order : HashOrder PeerId) (query : Q)
  (calls : List (LookupSetup N))

theorem runIterativeLookup_spec (hnew : IterativeLookup.new target config = .ok lookup)
    (hcount : 0 < config.count) (fuel : ℕ) :
    ∃ known, (∀ peer, peer ∈ known ↔ peer ∈ registered calls) ∧
      (∀ walk, runIterativeLookup adapter order fuel (lookup.setUp calls).1 query = some walk →
        WalkReport target config known (lookup.setUp calls).2 walk) ∧
      (runIterativeLookup adapter order fuel (lookup.setUp calls).1 query = none →
        fuel ≤ config.maxIterations) := by
  obtain ⟨htarget, hconfig, hiterations, hopen⟩ := new_frame hnew
  obtain ⟨hframe, known, hidle, hknown⟩ := setUp_idle calls (Idle.of_new hnew)
  have hunfinished := hframe.termination.trans (hopen.mpr hcount)
  have hfirst := hframe.iterations.trans hiterations
  have hlimits := hframe.config.trans hconfig
  have hgoal := hframe.target.trans htarget
  obtain ⟨hwalks, hreturns⟩ := runLookupRounds_spec adapter order query fuel hidle
    hunfinished (by rw [hfirst]; exact Nat.zero_le _)
  rw [runIterativeLookup, if_neg (by simp [hunfinished])]
  refine ⟨known, fun peer => by simp [hknown], fun walk hrun => ?_, fun hnone => ?_⟩
  · have hwalk := hwalks walk hrun
    have haccounts := hwalk.accounts
    have hrounds := hwalk.rounds_le
    have hfair := hwalk.fair
    rw [foldl_extend_opening] at haccounts
    rw [hfirst, hlimits, Nat.zero_add] at hrounds
    rw [hgoal, hlimits] at hfair
    exact ⟨haccounts, hrounds, hfair, hwalk.settled, hwalk.accepted,
      hwalk.target.trans hgoal, hwalk.config.trans hlimits⟩
  · have hfuel := hreturns hnone
    rwa [hfirst, hlimits, Nat.zero_add] at hfuel

/-- Whatever the adapter answers, a walk returns within `max_iterations` rounds and
without a refused call.  It asks nobody twice and nobody it already knows, at most
`alpha` peers in a round, and always the closest eligible candidates. -/
theorem runIterativeLookup_returns
    (hnew : IterativeLookup.new target config = .ok lookup)
    (hunfinished : (lookup.setUp calls).1.termination = none) {fuel : ℕ}
    (hfuel : config.maxIterations < fuel) :
    ∃ walk, runIterativeLookup adapter order fuel (lookup.setUp calls).1 query =
        some walk ∧
      walk.rounds.length ≤ config.maxIterations ∧
      (∀ refusal, walk.result ≠ .error (.lookup refusal)) ∧
      walk.lookup.queryOrder = walk.rounds.flatMap Round.queriedPeers ∧
      walk.lookup.queryOrder.Nodup ∧
      (∀ round ∈ walk.rounds, round.queriedPeers.length ≤ config.alpha) ∧
      walk.lookup.queryOrder.length ≤ config.alpha * config.maxIterations ∧
      (∀ peer ∈ registered calls, peer ∉ walk.lookup.queryOrder) ∧
      ∀ round ∈ walk.rounds, FairRound target config.alpha round := by
  obtain ⟨-, -, -, hopen⟩ := new_frame hnew
  obtain ⟨hframe, -⟩ := setUp_idle calls (Idle.of_new hnew)
  have hcount := hopen.mp (hframe.termination.symm.trans hunfinished)
  obtain ⟨known, hknown, hwalks, hreturns⟩ :=
    runIterativeLookup_spec adapter order query calls hnew hcount fuel
  cases hrun : runIterativeLookup adapter order fuel (lookup.setUp calls).1 query with
  | none => exact absurd hfuel (Nat.not_lt.mpr (hreturns hrun))
  | some walk =>
    have hreport := hwalks walk hrun
    have hqueried := hreport.accounts.queryOrder
    have hbounded : ∀ round ∈ walk.rounds, round.queriedPeers.length ≤ config.alpha := by
      intro round hround
      rw [queriedPeers, length_map]
      exact (hreport.fair round hround).bounded
    obtain ⟨-, honce, hunknown⟩ := nodup_append'.mp hreport.accounts.nodup
    refine ⟨walk, rfl, hreport.rounds_le, hreport.accepted, hqueried, ?_, hbounded,
      ?_, ?_, hreport.fair⟩
    · rw [hqueried]
      exact honce
    · calc walk.lookup.queryOrder.length ≤ config.alpha * walk.rounds.length := by
            rw [hqueried]
            exact length_queriedPeers_le hbounded
        _ ≤ config.alpha * config.maxIterations :=
            Nat.mul_le_mul_left _ hreport.rounds_le
    · intro peer hpeer
      rw [hqueried]
      exact fun hasked => hunknown ((hknown peer).mpr hpeer) hasked

/-- The example walk returns and asks nobody twice. -/
theorem chattyAdapter_returns :
    (exampleLookup.setUp exampleCalls).1.termination = none ∧
      ∃ walk, runIterativeLookup chattyAdapter (HashOrder.insertion _) 21
          (exampleLookup.setUp exampleCalls).1 () = some walk ∧
        walk.rounds.length ≤ 20 ∧ walk.lookup.queryOrder.Nodup ∧
        6 ∉ walk.lookup.queryOrder := by
  have hunfinished : (exampleLookup.setUp exampleCalls).1.termination = none := rfl
  obtain ⟨walk, hrun, hrounds, -, -, honce, -, -, hunknown, -⟩ :=
    runIterativeLookup_returns chattyAdapter (insertion _) () exampleCalls
      new_exampleConfig hunfinished (Nat.lt_succ_self 20)
  exact ⟨hunfinished, walk, hrun, hrounds, honce, hunknown 6 (by decide)⟩

/-- A list without repetitions that has the members of another is the other up to
order, once its repetitions are dropped. -/
theorem perm_dedup_of_mem_iff {peers others : List PeerId} (hnodup : peers.Nodup)
    (hmem : ∀ peer, peer ∈ peers ↔ peer ∈ others) : peers.Perm others.dedup :=
  (List.perm_ext_iff_of_nodup hnodup (List.nodup_dedup others)).mpr fun peer =>
    (hmem peer).trans List.mem_dedup.symm

/-- The results are the closest of the peers that are known or answered. -/
theorem WalkReport.resultPeerIds_eq {known : List PeerId} {log : QueueLog}
    {walk : Walk N E} (hreport : WalkReport target config known log walk)
    (hknown : ∀ peer, peer ∈ known ↔ peer ∈ registered calls) :
    walk.lookup.resultPeerIds = closest (fun peer => xorDistance peer target) config.count
        (registered calls ++ walk.rounds.flatMap succeededPeers).dedup := by
  have hsuccessful := hreport.accounts.successful
  have hnodup := hreport.accounts.nodup_successful
  calc walk.lookup.resultPeerIds = closest (fun peer => xorDistance peer target) config.count
          (walk.lookup.successful.map lookupPeerId) := by
        rw [resultPeerIds, results, hreport.target, hreport.config]
        exact map_closest (fun peer => xorDistance peer target)
          lookupPeerId config.count walk.lookup.successful
    _ = _ := by
        rw [hsuccessful]
        apply closest_perm
        · exact hnodup.map (xorDistance_left_injective target)
        · apply perm_dedup_of_mem_iff hnodup
          intro peer
          rw [mem_append, mem_append, hknown]

/-- A walk that converges or exhausts its candidates returns the closest peers among
those it knew and those that answered, closest first.  Every candidate that was ever
queued is accounted for, and none still in the queue belongs among the results. -/
theorem runIterativeLookup_complete
    (hnew : IterativeLookup.new target config = .ok lookup)
    (hcount : 0 < config.count) {fuel : ℕ} {walk : Walk N E}
    (hrun : runIterativeLookup adapter order fuel (lookup.setUp calls).1 query =
      some walk)
    (hended : walk.result = .ok .converged ∨ walk.result = .ok .exhausted) :
    walk.lookup.resultPeerIds =
        Closest.closest (fun peer => xorDistance peer target) config.count
          (registered calls ++ walk.rounds.flatMap Round.succeededPeers).dedup ∧
      (walk.lookup.results.Pairwise fun left right =>
        distanceTo target left < distanceTo target right) ∧
      (∀ peer ∈ (lookup.setUp calls).2.entered ++ (roundsLog walk.rounds).entered,
        peer ∈ walk.rounds.flatMap Round.queriedPeers ∨ peer ∈ registered calls ∨
          peer ∈ walk.rounds.flatMap Round.ineligiblePeers ∨
          peer ∈ (lookup.setUp calls).2.evicted ++ (roundsLog walk.rounds).evicted ∨
          peer ∈ walk.lookup.queuedPeers) ∧
      (∀ node ∈ walk.lookup.candidates.values, ∀ result ∈ walk.lookup.results,
        distanceTo target result < distanceTo target node) ∧
      (walk.lookup.results.length < config.count →
        walk.lookup.candidates.values = []) := by
  obtain ⟨known, hknown, hwalks, -⟩ :=
    runIterativeLookup_spec adapter order query calls hnew hcount fuel
  have hreport := hwalks walk hrun
  have hsorted := hreport.accounts.pairwise_results
  obtain ⟨hfarther, hexhausted⟩ := hreport.settled hended
  rw [hreport.target] at hsorted
  refine ⟨hreport.resultPeerIds_eq calls hknown, hsorted, fun peer hpeer => ?_,
    fun node hnode result hresult => ?_, fun hfewer => ?_⟩
  rotate_left
  · have hdistance := hfarther node hnode result hresult
    rwa [hreport.target] at hdistance
  · rw [← hreport.config] at hfewer
    exact hexhausted hfewer
  rcases hreport.accounts.entered peer hpeer with
    hqueued | hregistered | hqueried | hineligible | hevicted
  · exact Or.inr (Or.inr (Or.inr (Or.inr hqueued)))
  · exact Or.inr (Or.inl ((hknown peer).mp hregistered))
  · exact Or.inl hqueried
  · exact Or.inr (Or.inr (Or.inl hineligible))
  · exact Or.inr (Or.inr (Or.inr (Or.inl hevicted)))

/-- The example walk converges to the peers `0` and `1`. -/
theorem chattyAdapter_converges :
    ∃ walk, runIterativeLookup chattyAdapter (HashOrder.insertion _) 21
        (exampleLookup.setUp exampleCalls).1 () = some walk ∧
      walk.result = .ok .converged ∧ walk.lookup.resultPeerIds = [0, 1] ∧
      walk.lookup.resultPeerIds =
        Closest.closest (fun peer => xorDistance peer 0) 2
          (registered exampleCalls ++
            walk.rounds.flatMap Round.succeededPeers).dedup := by
  have hconverges : (runIterativeLookup chattyAdapter (insertion _) 21
      (exampleLookup.setUp exampleCalls).1 ()).map (fun walk =>
        (walk.result.toOption, walk.lookup.resultPeerIds)) = some (some .converged, [0, 1]) := by
    decide +kernel
  obtain ⟨walk, hrun, hresult⟩ := Option.map_eq_some_iff.mp hconverges
  obtain ⟨hreason, hids⟩ := Prod.mk.inj hresult
  have hended : walk.result = .ok .converged := by
    cases hwalk : walk.result with
    | error failure =>
      rw [hwalk] at hreason
      cases hreason
    | ok reason =>
      rw [hwalk] at hreason
      cases hreason
      rfl
  exact ⟨walk, hrun, hended, hids, (runIterativeLookup_complete chattyAdapter (insertion _) ()
      exampleCalls new_exampleConfig (by decide) hrun (Or.inl hended)).1⟩

end Guarantees

end SaorsaCore.Lookup
