import SaorsaCore.Lookup.Invariant

/-!
# One round of a walk

The loops of the runner keep the books of the lookup in order, so none of the calls
they make is refused.  A round begins and ends without a query in flight.
-/

namespace SaorsaCore.Lookup

open Ledger IterativeLookup List SaorsaCore.Lookup.Frame OrderedBy

/-- The candidates that were declared ineligible. -/
def rejected {N : Type*} (answers : List (N × Bool)) : List N :=
  (answers.filter fun answer => !answer.2).map Prod.fst

variable {Q N E : Type*} [LookupNode N] {adapter : LookupQuery Q N E}
  {ledger : Ledger} {lookup : IterativeLookup N} {query : Q}

/-! ## Selection -/

/-- The entries of a selection. -/
def Ledger.select (ledger : Ledger) (answers : List (N × Bool)) : Ledger :=
  { ledger with
    queried := ledger.queried ++ (eligible answers).map lookupPeerId
    ineligible := ledger.ineligible ++ (rejected answers).map lookupPeerId }

omit [LookupNode N] in
@[simp]
theorem eligible_cons_true (node : N) (answers : List (N × Bool)) :
    eligible ((node, true) :: answers) = node :: eligible answers := rfl

theorem Ledger.select_nil (ledger : Ledger) : ledger.select ([] : List (N × Bool)) = ledger := by
  simp [select, eligible, rejected]

theorem Ledger.select_cons_true (ledger : Ledger) (node : N) (answers : List (N × Bool)) :
    ledger.select ((node, true) :: answers) = ({ ledger with
        queried := ledger.queried ++ [lookupPeerId node] } : Ledger).select
          answers := by
  simp [select, eligible, rejected]

theorem Ledger.select_cons_false (ledger : Ledger) (node : N) (answers : List (N × Bool)) :
    ledger.select ((node, false) :: answers) = ({ ledger with
        ineligible := ledger.ineligible ++ [lookupPeerId node] } : Ledger).select
          answers := by
  simp [select, eligible, rejected]

/-- The selection takes candidates from the head of the queue and never exceeds the
limit of the round. -/
structure Selects (ledger : Ledger) (lookup : IterativeLookup N)
    (selection : Selection Q N E) : Prop where
  frame : Frame lookup selection.lookup
  accounts : Accounts (ledger.select selection.answers) selection.lookup
  queue : lookup.candidates.values =
    selection.answers.map Prod.fst ++ selection.lookup.candidates.values
  queries : selection.lookup.roundQueries =
    lookup.roundQueries + (eligible selection.answers).length
  bounded : lookup.roundQueries ≤ lookup.config.alpha →
    selection.lookup.roundQueries ≤ lookup.config.alpha
  complete : selection.result = .ok () → lookup.config.alpha ≤ selection.lookup.roundQueries ∨
      selection.lookup.candidates.values = []
  waiting : ∀ peer, selection.lookup.peerStates peer = some .waiting ↔
    lookup.peerStates peer = some .waiting ∨ peer ∈ (eligible selection.answers).map lookupPeerId
  accepted : ∀ refusal, selection.result ≠ .error (.lookup refusal)

variable {result : Except (LookupRunError E) Unit}

theorem Selects.stop (haccounts : Accounts ledger lookup) {query : Q}
    (hcomplete : result = .ok () → lookup.config.alpha ≤ lookup.roundQueries ∨
      lookup.candidates.values = [])
    (haccepted : ∀ refusal, result ≠ .error (.lookup refusal)) :
    Selects ledger lookup ⟨lookup, query, [], result⟩ where
  frame := refl lookup
  accounts := by
    rw [select_nil]
    exact haccounts
  queue := rfl
  queries := rfl
  bounded := id
  complete := hcomplete
  waiting _ := by simp [eligible]
  accepted := haccepted

variable {node : N} {selection : Selection Q N E}

theorem Selects.consFalse {rest : List N} (hqueue : lookup.candidates.values = node :: rest)
    (hselects : Selects
      { ledger with ineligible := ledger.ineligible ++ [lookupPeerId node] }
      { lookup with candidates := lookup.candidates.dropFirst } selection) :
    Selects ledger lookup (selection.cons (node, false)) where
  frame :=
    have hframe := hselects.frame
    ⟨hframe.target, hframe.config, hframe.iterations, hframe.roundActive,
      hframe.previousTopK, hframe.termination⟩
  accounts := by
    rw [Selection.cons, select_cons_false]
    exact hselects.accounts
  queue := by
    have htail := hselects.queue
    simp only [values_dropFirst, hqueue, tail_cons] at htail
    rw [hqueue, htail]
    rfl
  queries := hselects.queries
  bounded := hselects.bounded
  complete := hselects.complete
  waiting := hselects.waiting
  accepted := hselects.accepted

theorem Selects.consTrue {rest : List N} (hqueue : lookup.candidates.values = node :: rest)
    (hroom : lookup.roundQueries < lookup.config.alpha) (hselects : Selects
      { ledger with queried := ledger.queried ++ [lookupPeerId node] }
      (lookup.startQuery node) selection) :
    Selects ledger lookup (selection.cons (node, true)) where
  frame :=
    have hframe := hselects.frame
    ⟨hframe.target, hframe.config, hframe.iterations, hframe.roundActive,
      hframe.previousTopK, hframe.termination⟩
  accounts := by
    rw [Selection.cons, select_cons_true]
    exact hselects.accounts
  queue := by
    have htail := hselects.queue
    simp only [startQuery, values_dropFirst, hqueue, tail_cons] at htail
    rw [hqueue, htail]
    rfl
  queries := by
    have hqueries := hselects.queries
    simp only [startQuery, Selection.cons, eligible_cons_true, length_cons] at hqueries ⊢
    omega
  bounded _ := hselects.bounded hroom
  complete := hselects.complete
  waiting peer := by
    simp only [hselects.waiting peer, startQuery, Selection.cons,
      eligible_cons_true, map_cons, mem_cons]
    by_cases hpeer : peer = lookupPeerId node
    · simp [hpeer]
    · simp [hpeer]
  accepted := hselects.accepted

theorem takeNextCandidate_cases (haccounts : Accounts ledger lookup)
    (hactive : lookup.roundActive = true) :
    (lookup.takeNextCandidate = .ok (lookup, none) ∧ (lookup.config.alpha ≤ lookup.roundQueries ∨
        lookup.candidates.values = [])) ∨
    ∃ node rest, lookup.candidates.values = node :: rest ∧
      lookup.roundQueries < lookup.config.alpha ∧
      lookup.takeNextCandidate = .ok ({ lookup with candidates := lookup.candidates.dropFirst },
          some node) := by
  rw [haccounts.takeNextCandidate_eq hactive]
  by_cases hfull : lookup.config.alpha ≤ lookup.roundQueries
  · exact Or.inl ⟨if_pos hfull, Or.inl hfull⟩
  · rw [if_neg hfull]
    cases hqueue : lookup.candidates.values with
    | nil =>
      have hsame : lookup.candidates.dropFirst = lookup.candidates := by
        apply ext
        rw [values_dropFirst, hqueue, tail_nil]
      exact Or.inl ⟨by rw [hsame]; rfl, Or.inr rfl⟩
    | cons node rest =>
      exact Or.inr ⟨node, rest, rfl, Nat.lt_of_not_le hfull, rfl⟩

/-- A candidate that is taken is the head of the queue. -/
theorem of_takeNextCandidate (haccounts : Accounts ledger lookup)
    (hactive : lookup.roundActive = true) {taken : IterativeLookup N}
    (htake : lookup.takeNextCandidate = .ok (taken, some node)) :
    ∃ rest, lookup.candidates.values = node :: rest ∧ lookup.roundQueries < lookup.config.alpha ∧
      taken = { lookup with candidates := lookup.candidates.dropFirst } := by
  rcases takeNextCandidate_cases haccounts hactive with
    ⟨hnone, -⟩ | ⟨head, rest, hqueue, hroom, hsome⟩
  · rw [htake] at hnone
    cases hnone
  · rw [htake] at hsome
    cases hsome
    exact ⟨rest, hqueue, hroom, rfl⟩

variable (adapter) (query) in
theorem selectBatch_selects (haccounts : Accounts ledger lookup)
    (hactive : lookup.roundActive = true) :
    Selects ledger lookup (selectBatch adapter lookup query) := by
  fun_induction selectBatch adapter lookup query generalizing ledger with
  | case1 lookup query refusal htake =>
    rcases takeNextCandidate_cases haccounts hactive with
      ⟨hnone, -⟩ | ⟨node, rest, -, -, hsome⟩
    · rw [htake] at hnone
      cases hnone
    · rw [htake] at hsome
      cases hsome
  | case2 lookup query taken htake =>
    rcases takeNextCandidate_cases haccounts hactive with
      ⟨hnone, hend⟩ | ⟨node, rest, -, -, hsome⟩
    · rw [htake] at hnone
      cases hnone
      exact Selects.stop haccounts (fun _ => hend) (by simp)
    · rw [htake] at hsome
      cases hsome
  | case3 lookup query taken candidate htake =>
    obtain ⟨rest, hqueue, -, rfl⟩ := of_takeNextCandidate haccounts hactive htake
    exact (Selects.stop (haccounts.dropIneligible hqueue) (by simp) (by simp)).consFalse hqueue
  | case4 lookup query taken candidate htake _ _ _ ih =>
    obtain ⟨rest, hqueue, -, rfl⟩ := of_takeNextCandidate haccounts hactive htake
    exact (ih (haccounts.dropIneligible hqueue) hactive).consFalse hqueue
  | case5 lookup query taken candidate htake _ _ _ refusal hmark =>
    obtain ⟨rest, hqueue, hroom, rfl⟩ :=
      of_takeNextCandidate haccounts hactive htake
    rw [haccounts.markWaiting_eq hqueue hactive hroom] at hmark
    cases hmark
  | case6 lookup query taken candidate htake _ _ _ marked hmark ih =>
    obtain ⟨rest, hqueue, hroom, rfl⟩ :=
      of_takeNextCandidate haccounts hactive htake
    rw [haccounts.markWaiting_eq hqueue hactive hroom] at hmark
    cases hmark
    exact (ih (haccounts.startQuery hqueue) hactive).consTrue hqueue hroom

/-! ## Outcomes -/

/-- The entries for outcomes that were handled. -/
def Ledger.handle (ledger : Ledger) (outcomes : List (LookupQueryOutcome N))
    (log : QueueLog) : Ledger :=
  { ledger with
    succeeded :=
      ledger.succeeded ++ outcomes.filterMap LookupQueryOutcome.success?
    log := ledger.log.append log }

theorem QueueLog.append_assoc (first second third : QueueLog) :
    (first.append second).append third = first.append (second.append third) := by
  simp [append]

theorem QueueLog.append_empty (log : QueueLog) : log.append .empty = log := by
  simp [append, empty]

omit [LookupNode N] in
theorem Ledger.handle_nil (ledger : Ledger) :
    ledger.handle ([] : List (LookupQueryOutcome N)) .empty = ledger := by
  simp [handle, QueueLog.append_empty]

omit [LookupNode N] in
theorem Ledger.handle_cons (ledger : Ledger) (outcome : LookupQueryOutcome N)
    (outcomes : List (LookupQueryOutcome N)) (first second : QueueLog) :
    ledger.handle (outcome :: outcomes) (first.append second) =
      (ledger.handle [outcome] first).handle outcomes second := by
  simp only [handle, QueueLog.append_assoc, append_assoc]
  rw [← filterMap_append, singleton_append]

omit [LookupNode N] in
/-- A query without success leaves no entry. -/
theorem Ledger.handle_singleton (ledger : Ledger)
    {outcome : LookupQueryOutcome N} (hfailed : outcome.success? = none) :
    ledger.handle [outcome] .empty = ledger := by
  rw [handle, QueueLog.append_empty, filterMap_cons_none hfailed]
  simp

/-- Offering candidates touches the queue only. -/
structure Admits (ledger : Ledger) (lookup : IterativeLookup N)
    (admission : Admission Q N E) : Prop where
  frame : Frame lookup admission.lookup
  accounts : Accounts { ledger with log := ledger.log.append admission.log }
    admission.lookup
  peerStates : admission.lookup.peerStates = lookup.peerStates
  accepted : ∀ refusal, admission.result ≠ .error (.lookup refusal)

theorem addCandidate_frame (lookup : IterativeLookup N) (node : N) :
    Frame lookup (lookup.addCandidate node).1 ∧
      (lookup.addCandidate node).1.peerStates = lookup.peerStates := by
  rw [addCandidate]
  split
  · exact ⟨refl lookup, rfl⟩
  · split
    · exact ⟨⟨rfl, rfl, rfl, rfl, rfl, rfl⟩, rfl⟩
    · split
      · split
        · exact ⟨refl lookup, rfl⟩
        · split
          · exact ⟨refl lookup, rfl⟩
          · exact ⟨⟨rfl, rfl, rfl, rfl, rfl, rfl⟩, rfl⟩
      · exact ⟨⟨rfl, rfl, rfl, rfl, rfl, rfl⟩, rfl⟩

theorem Admits.stop (haccounts : Accounts ledger lookup) {query : Q}
    (haccepted : ∀ refusal, result ≠ .error (.lookup refusal)) :
    Admits ledger lookup ⟨lookup, query, .empty, result⟩ where
  frame := refl lookup
  accounts := haccounts.append_empty_log
  peerStates := rfl
  accepted := haccepted

theorem Admits.prepend {log : QueueLog} {added : IterativeLookup N}
    {admission : Admission Q N E} (hframe : Frame lookup added)
    (hstates : added.peerStates = lookup.peerStates)
    (hadmits : Admits { ledger with log := ledger.log.append log } added
      admission) :
    Admits ledger lookup (admission.prepend log) where
  frame := hframe.trans hadmits.frame
  accounts := by
    have haccounts := hadmits.accounts
    simp only [QueueLog.append_assoc] at haccounts
    exact haccounts
  peerStates := hadmits.peerStates.trans hstates
  accepted := hadmits.accepted

variable (adapter) (query)

theorem admitCandidates_admits (haccounts : Accounts ledger lookup) (candidates : List N) :
    Admits ledger lookup (admitCandidates adapter lookup query candidates) := by
  induction candidates generalizing ledger lookup query with
  | nil => exact Admits.stop haccounts (by simp)
  | cons candidate candidates ih =>
    obtain ⟨hframe, hstates⟩ := addCandidate_frame lookup candidate
    have hadded := haccounts.addCandidate candidate
    rw [admitCandidates]
    split
    · exact Admits.stop haccounts (by simp)
    · exact ih _ haccounts
    · simp only
      split
      · split
        · refine ⟨hframe, ?_, hstates, by simp⟩
          exact hadded
        · exact (ih _ hadded).prepend hframe hstates
      · exact (ih _ hadded).prepend hframe hstates

/-- One outcome ends the query of its responder. -/
theorem handleOutcome_spec (haccounts : Accounts ledger lookup) (outcome : LookupQueryOutcome N)
    (hwaiting : lookup.peerStates outcome.responder = some .waiting) :
    Ended outcome.responder lookup (handleOutcome adapter lookup query outcome).lookup ∧
      Accounts (ledger.handle [outcome] (handleOutcome adapter lookup query outcome).log)
        (handleOutcome adapter lookup query outcome).lookup ∧
      ∀ refusal, (handleOutcome adapter lookup query outcome).result ≠
        .error (.lookup refusal) := by
  cases outcome with
  | succeeded responder candidates =>
    change lookup.peerStates responder = some .waiting at hwaiting
    obtain ⟨recorded, hrecord, hrecorded, hended⟩ :=
      recordSuccess_spec haccounts hwaiting
    have hadmits := admitCandidates_admits adapter query hrecorded candidates
    have heq : handleOutcome adapter lookup query (.succeeded responder candidates) =
          admitCandidates adapter recorded query candidates := by
      rw [handleOutcome, hrecord]
    rw [heq]
    refine ⟨⟨hended.frame.trans hadmits.frame, fun other => ?_⟩, hadmits.accounts, hadmits.accepted⟩
    rw [hadmits.peerStates]
    exact hended.waiting other
  | failed responder =>
    change lookup.peerStates responder = some .waiting at hwaiting
    obtain ⟨recorded, hrecord, hrecorded, hended⟩ :=
      recordFailure_spec haccounts hwaiting
    have heq : handleOutcome adapter lookup query (.failed responder) =
        ⟨recorded, query, .empty, .ok ()⟩ := by
      rw [handleOutcome, hrecord]
    rw [heq]
    refine ⟨hended, ?_, by simp⟩
    rw [handle_singleton ledger rfl]
    exact hrecorded
  | unresponsive responder =>
    change lookup.peerStates responder = some .waiting at hwaiting
    obtain ⟨recorded, hrecord, hrecorded, hended⟩ :=
      recordUnresponsive_spec haccounts hwaiting
    have heq : handleOutcome adapter lookup query (.unresponsive responder) =
        ⟨recorded, query, .empty, .ok ()⟩ := by
      rw [handleOutcome, hrecord]
    rw [heq]
    refine ⟨hended, ?_, by simp⟩
    rw [handle_singleton ledger rfl]
    exact hrecorded

/-- The peers that wait are exactly those listed, each once. -/
structure Awaits (awaiting : List PeerId) (lookup : IterativeLookup N) : Prop where
  nodup : awaiting.Nodup
  waiting : ∀ peer, lookup.peerStates peer = some .waiting ↔ peer ∈ awaiting

variable {after : IterativeLookup N}

theorem Awaits.erase {awaiting : List PeerId} {peer : PeerId}
    (hawaits : Awaits awaiting lookup) (hended : Ended peer lookup after) :
    Awaits (awaiting.erase peer) after where
  nodup := hawaits.nodup.erase peer
  waiting other := by
    rw [hended.waiting, hawaits.waiting, hawaits.nodup.mem_erase_iff]

/-- After the outcomes, only peers without an outcome wait. -/
structure Handles (ledger : Ledger) (lookup : IterativeLookup N)
    (handling : Handling Q N E) : Prop where
  frame : Frame lookup handling.lookup
  accounts : Accounts (ledger.handle handling.outcomes handling.log)
    handling.lookup
  awaits : ∀ awaiting, handling.result = .ok awaiting → Awaits awaiting handling.lookup
  accepted : ∀ refusal, handling.result ≠ .error (.lookup refusal)

theorem handleOutcomes_handles (haccounts : Accounts ledger lookup)
    {awaiting : List PeerId} (hawaits : Awaits awaiting lookup)
    (outcomes : List (LookupQueryOutcome N)) :
    Handles ledger lookup (handleOutcomes adapter lookup query awaiting outcomes) := by
  induction outcomes generalizing ledger lookup query awaiting with
  | nil =>
    refine ⟨refl lookup, ?_, ?_, by simp [handleOutcomes]⟩
    · rw [handleOutcomes, handle_nil]
      exact haccounts
    · intro left hleft
      cases hleft
      exact hawaits
  | cons outcome outcomes ih =>
    rw [handleOutcomes]
    split
    · next hmember =>
        have hwaiting : lookup.peerStates outcome.responder = some .waiting :=
          (hawaits.waiting _).mpr (by simpa using hmember)
        obtain ⟨hended, hhandled, haccepted⟩ :=
          handleOutcome_spec adapter query haccounts outcome hwaiting
        simp only
        split
        · next failure hfailure =>
            refine ⟨hended.frame, hhandled, by simp, ?_⟩
            intro refusal hrefused
            cases hrefused
            exact haccepted refusal hfailure
        · have hrest := ih (handleOutcome adapter lookup query outcome).query
            hhandled (hawaits.erase hended)
          refine ⟨hended.frame.trans hrest.frame, ?_, hrest.awaits, hrest.accepted⟩
          rw [Handling.prepend, handle_cons]
          exact hrest.accounts
    · refine ⟨refl lookup, ?_, by simp, by simp⟩
      rw [handle_nil]
      exact haccounts

/-- Giving up the remaining queries succeeds and leaves none in flight. -/
theorem abandon_spec (haccounts : Accounts ledger lookup) {peers : List PeerId}
    (hawaits : Awaits peers lookup) :
    (abandon lookup peers).2 = .ok () ∧ Accounts ledger (abandon lookup peers).1 ∧
      Frame lookup (abandon lookup peers).1 ∧
      Awaits [] (abandon lookup peers).1 := by
  induction peers generalizing lookup with
  | nil => exact ⟨rfl, haccounts, refl lookup, hawaits⟩
  | cons peer peers ih =>
    obtain ⟨recorded, hrecord, hrecorded, hended⟩ :=
      recordUnresponsive_spec haccounts ((hawaits.waiting peer).mpr mem_cons_self)
    have hrest : Awaits peers recorded := by
      have herased := hawaits.erase hended
      rwa [erase_cons_head] at herased
    obtain ⟨hok, haccounted, hframe, hnone⟩ := ih hrecorded hrest
    rw [abandon, hrecord]
    exact ⟨hok, haccounted, hended.frame.trans hframe, hnone⟩

/-! ## The end of a round -/

/-- No candidate is left that belongs among the results: those still queued are
farther than every result, and there are none if results are missing. -/
structure Settled (lookup : IterativeLookup N) : Prop where
  farther : ∀ node ∈ lookup.candidates.values, ∀ result ∈ lookup.results,
    distanceTo lookup.target result < distanceTo lookup.target node
  exhausted : lookup.results.length < lookup.config.count → lookup.candidates.values = []

theorem Settled.of_empty (hempty : lookup.candidates.values = []) : Settled lookup where
  farther node hnode := by
    rw [hempty] at hnode
    cases hnode
  exhausted _ := hempty

section

variable (haccounts : Accounts ledger lookup)
include haccounts

theorem Accounts.nodup_distances : (lookup.successful.map (distanceTo lookup.target)).Nodup := by
  have hmap : lookup.successful.map (distanceTo lookup.target) =
      (lookup.successful.map lookupPeerId).map fun peer =>
        xorDistance peer lookup.target := by
    rw [map_map]
    rfl
  rw [hmap, haccounts.successful]
  exact haccounts.nodup_successful.map (xorDistance_left_injective _)

theorem Accounts.pairwise_results : lookup.results.Pairwise fun left right =>
      distanceTo lookup.target left < distanceTo lookup.target right :=
  Closest.pairwise_closest haccounts.nodup_distances _

/-- A result was contacted, a candidate was not. -/
theorem Accounts.result_ne_candidate {result : N}
    (hnode : node ∈ lookup.candidates.values) (hresult : result ∈ lookup.results) :
    distanceTo lookup.target result ≠ distanceTo lookup.target node := by
  intro hdistance
  have hid := distanceTo_injective hdistance
  have hmem : lookupPeerId result ∈ ledger.known ++ ledger.succeeded := by
    rw [← haccounts.successful]
    exact mem_map_of_mem (Closest.closest_subset _ _ hresult)
  have hstate := (haccounts.succeeded _).mpr (mem_append.mp hmem)
  rw [hid, haccounts.fresh node hnode] at hstate
  cases hstate

theorem Accounts.settled_of_not_promising
    (hfull : ¬(lookup.resultPeerIds.length < lookup.config.count ∧
      (!lookup.candidates.values.isEmpty) = true))
    (hpromising : lookup.hasPromisingCandidate = false) : Settled lookup where
  farther node hnode result hresult := by
    cases hlast : lookup.results.getLast? with
    | none =>
      rw [getLast?_eq_none_iff.mp hlast] at hresult
      cases hresult
    | some worst =>
      have hworst := Closest.le_getLast_of_pairwise haccounts.pairwise_results hlast hresult
      obtain ⟨head, rest, hqueue⟩ :=
        exists_cons_of_ne_nil (ne_nil_of_mem hnode)
      have hfar : distanceTo lookup.target worst ≤ distanceTo lookup.target head := by
        rw [hasPromisingCandidate, resultPeerIds, getLast?_map, hlast, hqueue] at hpromising
        simp only [Option.map_some, head?_cons, Option.any_some,
          decide_eq_false_iff_not, Nat.not_lt] at hpromising
        exact hpromising
      have hhead : distanceTo lookup.target head ≤ distanceTo lookup.target node := by
        have hsorted := lookup.candidates.sorted
        rw [hqueue] at hsorted hnode
        rcases mem_cons.mp hnode with rfl | hrest
        · exact le_rfl
        · exact ((pairwise_cons.mp hsorted).1 node hrest).le
      exact lt_of_le_of_ne (hworst.trans (hfar.trans hhead))
        (haccounts.result_ne_candidate hnode hresult)
  exhausted hfew := by
    by_contra hne
    apply hfull
    rw [resultPeerIds, length_map]
    exact ⟨hfew, by simpa using hne⟩

end

/-- A lookup between two rounds. -/
structure Idle (ledger : Ledger) (lookup : IterativeLookup N) : Prop where
  accounts : Accounts ledger lookup
  inactive : lookup.roundActive = false
  awaits : Awaits [] lookup

/-- What the end of a round may lead to. -/
structure Completes (ledger : Ledger) (lookup next : IterativeLookup N)
    (progress : LookupProgress) : Prop where
  idle : Idle ledger next
  target : next.target = lookup.target
  config : next.config = lookup.config
  iterations : next.iterations = lookup.iterations
  continues : progress = .continues → next.termination = lookup.termination
  settled : progress = .finished .converged ∨ progress = .finished .exhausted → Settled next

theorem Accounts.inFlight_eq_nil (haccounts : Accounts ledger lookup)
    (hawaits : Awaits [] lookup) : lookup.inFlight = [] := by
  rw [eq_nil_iff_forall_not_mem]
  intro node hnode
  have hwaiting := (haccounts.waiting _).mp (mem_map_of_mem hnode)
  cases (hawaits.waiting _).mp hwaiting

/-- Closing a round changes neither the books nor the peers that wait. -/
theorem Accounts.idle (haccounts : Accounts ledger lookup)
    (hawaits : Awaits [] lookup) (topK : List PeerId)
    (termination : Option LookupTermination) :
    Idle ledger { lookup with
      roundActive := false
      previousTopK := topK
      termination := termination } where
  accounts :=
    ⟨haccounts.queryOrder, haccounts.nodup, haccounts.contacted,
      haccounts.successful, haccounts.nodup_successful, haccounts.succeeded,
      haccounts.waiting, haccounts.fresh, haccounts.entered⟩
  inactive := rfl
  awaits := ⟨hawaits.nodup, hawaits.waiting⟩

theorem completeRound_completes (haccounts : Accounts ledger lookup)
    (hactive : lookup.roundActive = true) (hawaits : Awaits [] lookup) :
    ∃ next progress, lookup.completeRound = .ok (next, progress) ∧
      Completes ledger lookup next progress := by
  have hdiscard := ((haccounts.idle hawaits lookup.resultPeerIds
    lookup.termination).accounts).discardContactedCandidates_eq
  have hidle := haccounts.idle hawaits
  have htopK : ({ lookup with roundActive := false } :
      IterativeLookup N).resultPeerIds = lookup.resultPeerIds := rfl
  rw [completeRound, if_neg (by simp [hactive]),
    if_neg (by simp [haccounts.inFlight_eq_nil hawaits])]
  simp only [htopK, hdiscard]
  split
  · exact ⟨_, _, rfl, hidle _ _, rfl, rfl, rfl, fun _ => rfl, by simp⟩
  · next hfull =>
      split
      · next hconverged =>
          refine ⟨_, _, rfl, hidle _ _, rfl, rfl, rfl, by simp, fun _ => ?_⟩
          have hsettled : Settled lookup := haccounts.settled_of_not_promising
            (fun hfew => hfull ⟨hconverged.1, hfew⟩)
            ((Bool.not_eq_true' _).mp hconverged.2)
          exact ⟨hsettled.farther, hsettled.exhausted⟩
      · split
        · exact ⟨_, _, rfl, hidle _ _, rfl, rfl, rfl, by simp, by simp⟩
        · split
          · next hempty =>
              refine ⟨_, _, rfl, hidle _ _, rfl, rfl, rfl, by simp, fun _ => ?_⟩
              have hnil : lookup.discardContactedCandidates.candidates.values =
                  [] := isEmpty_iff.mp hempty
              rw [haccounts.discardContactedCandidates_eq] at hnil
              exact Settled.of_empty hnil
          · exact ⟨_, _, rfl, hidle _ _, rfl, rfl, rfl, fun _ => rfl, by simp⟩

/-! ## A whole round -/

/-- The entries of a round. -/
def Ledger.extend (ledger : Ledger) (round : Round N) : Ledger :=
  (ledger.select round.answers).handle round.outcomes round.log

/-- A round queries the closest eligible candidates of the queue, no more than
`alpha` of them, and no call it makes is refused. -/
structure RoundSpec (ledger : Ledger) (lookup : IterativeLookup N)
    (done : RoundResult Q N E) : Prop where
  accounts : Accounts (ledger.extend done.round) done.lookup
  target : done.lookup.target = lookup.target
  config : done.lookup.config = lookup.config
  queue : done.round.queue = lookup.candidates.values
  taken : ∃ rest, done.round.queue = done.round.answers.map Prod.fst ++ rest ∧
    (done.round.selected = true →
      (eligible done.round.answers).length = lookup.config.alpha ∨ rest = [])
  bounded : (eligible done.round.answers).length ≤ lookup.config.alpha
  completes : ∀ progress, done.result = .ok progress →
    Completes (ledger.extend done.round) lookup done.lookup progress
  accepted : ∀ refusal, done.result ≠ .error (.lookup refusal)

theorem closeRound_eq {round : Round N} (haccounts : Accounts (ledger.extend round) after)
    (hframe : Frame lookup after) (hactive : lookup.roundActive = true)
    (hawaits : Awaits [] after) :
    ∃ next progress, (closeRound after query round : RoundResult Q N E) =
        ⟨next, query, round, .ok progress⟩ ∧
      Completes (ledger.extend round) lookup next progress := by
  obtain ⟨next, progress, hcomplete, hcompletes⟩ := completeRound_completes
    haccounts (hframe.roundActive.trans hactive) hawaits
  refine ⟨next, progress, by rw [closeRound, hcomplete], hcompletes.idle,
    hcompletes.target.trans hframe.target, hcompletes.config.trans hframe.config,
    hcompletes.iterations.trans hframe.iterations, ?_, hcompletes.settled⟩
  exact fun hcontinues =>
    (hcompletes.continues hcontinues).trans hframe.termination

theorem RoundSpec.of_selection {done : RoundResult Q N E}
    (hselects : Selects ledger lookup selection) (hqueries : lookup.roundQueries = 0)
    (hqueue : done.round.queue = lookup.candidates.values)
    (hanswers : done.round.answers = selection.answers)
    (hselected : done.round.selected = true → selection.result = .ok ())
    (haccounts : Accounts (ledger.extend done.round) done.lookup)
    (htarget : done.lookup.target = lookup.target)
    (hconfig : done.lookup.config = lookup.config)
    (hcompletes : ∀ progress, done.result = .ok progress →
      Completes (ledger.extend done.round) lookup done.lookup progress)
    (haccepted : ∀ refusal, done.result ≠ .error (.lookup refusal)) :
    RoundSpec ledger lookup done := by
  have hlength := hselects.queries
  have hbounded := hselects.bounded (by omega)
  refine ⟨haccounts, htarget, hconfig, hqueue,
    ⟨selection.lookup.candidates.values, ?_, fun hdone => ?_⟩, ?_, hcompletes,
    haccepted⟩
  · rw [hqueue, hanswers]
    exact hselects.queue
  · rw [hanswers]
    exact (hselects.complete (hselected hdone)).imp_left fun hfull => by omega
  · rw [hanswers]
    omega

theorem RoundSpec.of_close {round : Round N} (hselects : Selects ledger lookup selection)
    (hqueries : lookup.roundQueries = 0) (hqueue : round.queue = lookup.candidates.values)
    (hanswers : round.answers = selection.answers) (hselected : selection.result = .ok ())
    (haccounts : Accounts (ledger.extend round) after) (hframe : Frame lookup after)
    (hactive : lookup.roundActive = true) (hawaits : Awaits [] after) :
    RoundSpec ledger lookup (closeRound after query round : RoundResult Q N E) := by
  obtain ⟨next, progress, hclose, hcompletes⟩ :=
    closeRound_eq (E := E) query haccounts hframe hactive hawaits
  rw [hclose]
  refine RoundSpec.of_selection hselects hqueries hqueue hanswers
    (fun _ => hselected) hcompletes.idle.accounts hcompletes.target
    hcompletes.config ?_ (by simp)
  intro _ hprogress
  cases hprogress
  exact hcompletes

theorem runRound_spec (order : HashOrder PeerId)
    (haccounts : Accounts ledger lookup) (hactive : lookup.roundActive = true)
    (hqueries : lookup.roundQueries = 0) (hawaits : Awaits [] lookup) :
    RoundSpec ledger lookup (runRound adapter order lookup query) := by
  have hselects := selectBatch_selects adapter query haccounts hactive
  -- A round that ends before the first outcome is handled.
  have hopen : ∀ (selected : Bool) (queue : List N), Accounts (ledger.extend
        { queue := queue
          answers := (selectBatch adapter lookup query).answers
          selected := selected
          outcomes := []
          log := .empty }) (selectBatch adapter lookup query).lookup := by
    intro selected queue
    rw [extend, handle_nil]
    exact hselects.accounts
  have hwaiting : Awaits ((eligible (selectBatch adapter lookup query).answers).map lookupPeerId)
      (selectBatch adapter lookup query).lookup := by
    constructor
    · have hnodup := (nodup_append.mp hselects.accounts.nodup).2.1
      exact (nodup_append.mp hnodup).2.1
    · intro peer
      rw [hselects.waiting, hawaits.waiting]
      simp
  simp only [runRound]
  split
  · next failure hfailure =>
      refine RoundSpec.of_selection hselects hqueries rfl rfl (by simp)
        (hopen _ _) hselects.frame.target hselects.frame.config (by simp) ?_
      intro refusal hrefused
      cases hrefused
      exact hselects.accepted refusal hfailure
  · next hselected =>
      split
      · next hempty =>
          have hnone : Awaits [] (selectBatch adapter lookup query).lookup := by
            rw [isEmpty_iff.mp hempty] at hwaiting
            exact hwaiting
          exact RoundSpec.of_close _ hselects hqueries rfl rfl hselected
            (hopen _ _) hselects.frame hactive hnone
      · split
        · next failed failure hquery =>
            exact RoundSpec.of_selection hselects hqueries rfl rfl
              (fun _ => hselected) (hopen _ _) hselects.frame.target
              hselects.frame.config (by simp) (by simp)
        · next asked outcomes hquery =>
            have hhandles := handleOutcomes_handles adapter asked
              hselects.accounts hwaiting outcomes
            split
            · next failure hfailure =>
                have hframe := hselects.frame.trans hhandles.frame
                refine RoundSpec.of_selection hselects hqueries rfl rfl
                  (fun _ => hselected) hhandles.accounts hframe.target
                  hframe.config (by simp) ?_
                intro refusal hrefused
                cases hrefused
                exact hhandles.accepted refusal hfailure
            · next awaiting hleft =>
                have hleftover := hhandles.awaits awaiting hleft
                have harranged : Awaits (order.arrange awaiting) _ :=
                  ⟨(order.perm awaiting).nodup_iff.mpr hleftover.nodup,
                    fun peer => (hleftover.waiting peer).trans (order.perm awaiting).mem_iff.symm⟩
                obtain ⟨hok, habandoned, hframe, hnone⟩ :=
                  abandon_spec hhandles.accounts harranged
                split
                · next refused refusal hrefused =>
                    rw [hrefused] at hok
                    cases hok
                · next abandoned hdone =>
                    rw [hdone] at habandoned hframe hnone
                    exact RoundSpec.of_close _ hselects hqueries rfl rfl hselected
                      habandoned (hselects.frame.trans (hhandles.frame.trans
                        hframe)) hactive hnone

end SaorsaCore.Lookup
