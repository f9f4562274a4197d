import SaorsaCore.Lookup.State

/-!
# The runner of an iterative lookup

`run_lookup_rounds` drives the state machine through an adapter that decides which
candidates are eligible and executes the queries.  The adapter is an arbitrary
machine with a state of its own.  Next to what the source computes, each function
returns a record of what the walk did, so that a whole run can be spoken about.
-/

namespace SaorsaCore.Lookup

inductive LookupQueryOutcome (N : Type*) where
  | succeeded (responder : PeerId) (candidates : List N)
  | failed (responder : PeerId)
  | unresponsive (responder : PeerId)
  deriving Repr

namespace LookupQueryOutcome

variable {N : Type*}

def responder : LookupQueryOutcome N → PeerId
  | .succeeded responder _ => responder
  | .failed responder => responder
  | .unresponsive responder => responder

/-- The responder of a query that succeeded. -/
def success? : LookupQueryOutcome N → Option PeerId
  | .succeeded responder _ => some responder
  | .failed _ => none
  | .unresponsive _ => none

end LookupQueryOutcome

/-- The transport behind a walk: every call completes, with an answer or with an
error that ends the walk. -/
structure LookupQuery (Q N E : Type*) where
  isCandidateEligible : Q → N → Q × Except E Bool
  queryBatch : Q → PeerId → ℕ → ℕ → List N → Q × Except E (List (LookupQueryOutcome N))
  candidateEvicted : Q → PeerId → Q × Except E Unit

inductive LookupRunError (E : Type*) where
  | lookup (refusal : LookupError)
  | query (failure : E)
  | timedOut
  | unexpectedResponder (peer : PeerId)
  deriving DecidableEq, Repr

/-- The peers that entered the queue and those that were evicted from it. -/
structure QueueLog where
  entered : List PeerId
  evicted : List PeerId
  deriving DecidableEq, Repr

namespace QueueLog

def empty : QueueLog := ⟨[], []⟩

def append (first second : QueueLog) : QueueLog :=
  ⟨first.entered ++ second.entered, first.evicted ++ second.evicted⟩

/-- The entry for one call of `add_candidate`. -/
def ofInsertion (peer : PeerId) : CandidateInsertion → QueueLog
  | .inserted evicted => ⟨[peer], evicted.toList⟩
  | .replaced => ⟨[peer], []⟩
  | .alreadyContacted => empty
  | .tooFar => empty

end QueueLog

/-- What happened in one round: the queue at its beginning, the candidates taken
from it, each with whether it was declared eligible, whether the selection came to
its end, the outcomes that were handled and the changes of the queue. -/
structure Round (N : Type*) where
  queue : List N
  answers : List (N × Bool)
  selected : Bool
  outcomes : List (LookupQueryOutcome N)
  log : QueueLog

/-- The candidates that were declared eligible. -/
def eligible {N : Type*} (answers : List (N × Bool)) : List N :=
  (answers.filter fun answer => answer.2).map Prod.fst

section Runner

variable {Q N E : Type*} [LookupNode N] (adapter : LookupQuery Q N E)

/-! ## Selection -/

structure Selection (Q N E : Type*) [LookupNode N] where
  lookup : IterativeLookup N
  query : Q
  answers : List (N × Bool)
  result : Except (LookupRunError E) Unit

def Selection.cons (selection : Selection Q N E) (answer : N × Bool) : Selection Q N E :=
  { selection with answers := answer :: selection.answers }

theorem IterativeLookup.length_takeNextCandidate {lookup taken : IterativeLookup N}
    {candidate : N} (htake : lookup.takeNextCandidate = .ok (taken, some candidate)) :
    taken.candidates.values.length < lookup.candidates.values.length := by
  simp only [takeNextCandidate] at htake
  split at htake
  · cases htake
  · split at htake
    · cases htake
    · injection htake with htake
      injection htake with htaken hhead
      subst htaken
      have hne : lookup.discardContactedCandidates.candidates.values ≠ [] := by
        intro hnil
        rw [hnil] at hhead
        cases hhead
      calc lookup.discardContactedCandidates.candidates.dropFirst.values.length
          = lookup.discardContactedCandidates.candidates.values.length - 1 :=
            List.length_tail
        _ < lookup.discardContactedCandidates.candidates.values.length :=
            Nat.sub_lt (List.length_pos_iff.mpr hne) Nat.one_pos
        _ ≤ lookup.candidates.values.length := List.length_filter_le _ _

theorem IterativeLookup.candidates_markWaiting {lookup marked : IterativeLookup N}
    {node : N} (hmark : lookup.markWaiting node = .ok marked) :
    marked.candidates.values = lookup.candidates.values := by
  simp only [markWaiting] at hmark
  split at hmark
  · cases hmark
  · split at hmark
    · cases hmark
    · split at hmark
      · cases hmark
      · cases hmark
        rfl

/-- Take candidates, closest first, until the round is full or the queue empty. -/
def selectBatch (lookup : IterativeLookup N) (query : Q) : Selection Q N E :=
  match htake : lookup.takeNextCandidate with
  | .error refusal => ⟨lookup, query, [], .error (.lookup refusal)⟩
  | .ok (taken, none) => ⟨taken, query, [], .ok ()⟩
  | .ok (taken, some candidate) =>
    have _hlength := IterativeLookup.length_takeNextCandidate htake
    match adapter.isCandidateEligible query candidate with
    | (query, .error failure) =>
      ⟨taken, query, [(candidate, false)], .error (.query failure)⟩
    | (query, .ok false) => (selectBatch taken query).cons (candidate, false)
    | (query, .ok true) =>
      match _hmark : taken.markWaiting candidate with
      | .error refusal => ⟨taken, query, [], .error (.lookup refusal)⟩
      | .ok marked => (selectBatch marked query).cons (candidate, true)
termination_by lookup.candidates.values.length
decreasing_by
  · exact _hlength
  · rw [IterativeLookup.candidates_markWaiting _hmark]
    exact _hlength

/-! ## Outcomes -/

structure Admission (Q N E : Type*) [LookupNode N] where
  lookup : IterativeLookup N
  query : Q
  log : QueueLog
  result : Except (LookupRunError E) Unit

def Admission.prepend (admission : Admission Q N E) (log : QueueLog) : Admission Q N E :=
  { admission with log := log.append admission.log }

/-- Offer the candidates of one response to the queue. -/
def admitCandidates (lookup : IterativeLookup N) (query : Q) : List N → Admission Q N E
  | [] => ⟨lookup, query, .empty, .ok ()⟩
  | candidate :: candidates =>
    match adapter.isCandidateEligible query candidate with
    | (query, .error failure) => ⟨lookup, query, .empty, .error (.query failure)⟩
    | (query, .ok false) => admitCandidates lookup query candidates
    | (query, .ok true) =>
      let added := lookup.addCandidate candidate
      let log := QueueLog.ofInsertion (lookupPeerId candidate) added.2
      match added.2 with
      | .inserted (some evicted) =>
        match adapter.candidateEvicted query evicted with
        | (query, .error failure) => ⟨added.1, query, log, .error (.query failure)⟩
        | (query, .ok ()) => (admitCandidates added.1 query candidates).prepend log
      | _ => (admitCandidates added.1 query candidates).prepend log

structure Handling (Q N E : Type*) [LookupNode N] where
  lookup : IterativeLookup N
  query : Q
  outcomes : List (LookupQueryOutcome N)
  log : QueueLog
  /-- The peers of the batch without an outcome. -/
  result : Except (LookupRunError E) (List PeerId)

def Handling.prepend (handling : Handling Q N E) (outcome : LookupQueryOutcome N)
    (log : QueueLog) : Handling Q N E :=
  { handling with
    outcomes := outcome :: handling.outcomes
    log := log.append handling.log }

/-- Record the outcome of one query and offer the candidates it brought. -/
def handleOutcome (lookup : IterativeLookup N) (query : Q) : LookupQueryOutcome N → Admission Q N E
  | .succeeded responder candidates =>
    match lookup.recordSuccess responder with
    | .error refusal => ⟨lookup, query, .empty, .error (.lookup refusal)⟩
    | .ok recorded => admitCandidates adapter recorded query candidates
  | .failed responder =>
    match lookup.recordFailure responder with
    | .error refusal => ⟨lookup, query, .empty, .error (.lookup refusal)⟩
    | .ok recorded => ⟨recorded, query, .empty, .ok ()⟩
  | .unresponsive responder =>
    match lookup.recordUnresponsive responder with
    | .error refusal => ⟨lookup, query, .empty, .error (.lookup refusal)⟩
    | .ok recorded => ⟨recorded, query, .empty, .ok ()⟩

/-- Handle the outcomes one after the other.  Each must belong to a peer of the
batch that has none yet. -/
def handleOutcomes (lookup : IterativeLookup N) (query : Q)
    (awaiting : List PeerId) : List (LookupQueryOutcome N) → Handling Q N E
  | [] => ⟨lookup, query, [], .empty, .ok awaiting⟩
  | outcome :: outcomes =>
    if awaiting.contains outcome.responder then
      let handled := handleOutcome adapter lookup query outcome
      match handled.result with
      | .error failure =>
        ⟨handled.lookup, handled.query, [outcome], handled.log, .error failure⟩
      | .ok () =>
        (handleOutcomes handled.lookup handled.query
          (awaiting.erase outcome.responder) outcomes).prepend outcome handled.log
    else
      ⟨lookup, query, [], .empty, .error (.unexpectedResponder outcome.responder)⟩

/-- The queries without an outcome are given up. -/
def abandon (lookup : IterativeLookup N) : List PeerId → IterativeLookup N × Except LookupError Unit
  | [] => (lookup, .ok ())
  | peer :: peers =>
    match lookup.recordUnresponsive peer with
    | .error refusal => (lookup, .error refusal)
    | .ok recorded => abandon recorded peers

/-! ## Rounds -/

structure RoundResult (Q N E : Type*) [LookupNode N] where
  lookup : IterativeLookup N
  query : Q
  round : Round N
  result : Except (LookupRunError E) LookupProgress

/-- `complete_round` at the end of a round. -/
def closeRound (lookup : IterativeLookup N) (query : Q) (round : Round N) : RoundResult Q N E :=
  match lookup.completeRound with
  | .error refusal => ⟨lookup, query, round, .error (.lookup refusal)⟩
  | .ok (next, progress) => ⟨next, query, round, .ok progress⟩

/-- The body of the loop after `begin_round`. -/
def runRound (order : HashOrder PeerId) (lookup : IterativeLookup N) (query : Q) :
    RoundResult Q N E :=
  let selection := selectBatch adapter lookup query
  let batch := eligible selection.answers
  let round : Round N :=
    { queue := lookup.candidates.values
      answers := selection.answers
      selected := false
      outcomes := []
      log := .empty }
  match selection.result with
  | .error failure => ⟨selection.lookup, selection.query, round, .error failure⟩
  | .ok () =>
    let round := { round with selected := true }
    if batch.isEmpty then closeRound selection.lookup selection.query round
    else
      match adapter.queryBatch selection.query lookup.target lookup.config.count
          lookup.iterations batch with
      | (query, .error failure) =>
        ⟨selection.lookup, query, round, .error (.query failure)⟩
      | (query, .ok outcomes) =>
        let handling := handleOutcomes adapter selection.lookup query
          (batch.map lookupPeerId) outcomes
        let round := { round with
          outcomes := handling.outcomes
          log := handling.log }
        match handling.result with
        | .error failure =>
          ⟨handling.lookup, handling.query, round, .error failure⟩
        | .ok awaiting =>
          match abandon handling.lookup (order.arrange awaiting) with
          | (abandoned, .error refusal) =>
            ⟨abandoned, handling.query, round, .error (.lookup refusal)⟩
          | (abandoned, .ok ()) => closeRound abandoned handling.query round

/-- A finished walk: the lookup it leaves, its rounds and what it returned. -/
structure Walk (N E : Type*) [LookupNode N] where
  lookup : IterativeLookup N
  rounds : List (Round N)
  result : Except (LookupRunError E) LookupTermination

def Walk.cons (walk : Walk N E) (round : Round N) : Walk N E :=
  { walk with rounds := round :: walk.rounds }

/-- The loop over rounds.  `none` means that the fuel ran out. -/
def runLookupRounds (order : HashOrder PeerId) : ℕ → IterativeLookup N → Q → Option (Walk N E)
  | 0, _, _ => none
  | fuel + 1, lookup, query =>
    match lookup.beginRound with
    | .error refusal => some ⟨lookup, [], .error (.lookup refusal)⟩
    | .ok (begun, .finished reason) => some ⟨begun, [], .ok reason⟩
    | .ok (begun, .continues) =>
      let done := runRound adapter order begun query
      match done.result with
      | .error failure => some ⟨done.lookup, [done.round], .error failure⟩
      | .ok (.finished reason) => some ⟨done.lookup, [done.round], .ok reason⟩
      | .ok .continues =>
        (runLookupRounds order fuel done.lookup done.query).map fun walk =>
          walk.cons done.round

/-- `run_iterative_lookup` with a deadline that does not fire. -/
def runIterativeLookup (order : HashOrder PeerId) (fuel : ℕ)
    (lookup : IterativeLookup N) (query : Q) : Option (Walk N E) :=
  if lookup.termination = some .timedOut then
    some ⟨lookup, [], .error .timedOut⟩
  else runLookupRounds adapter order fuel lookup query

end Runner

end SaorsaCore.Lookup
