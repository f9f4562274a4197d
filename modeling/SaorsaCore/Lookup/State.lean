import SaorsaCore.Core.Closest
import SaorsaCore.Core.Collections
import SaorsaCore.Core.KeyedList
import SaorsaCore.Identity

/-!
# The state machine of an iterative lookup

`IterativeLookup` holds the queue of candidates, the state of every peer that was
contacted, the queries in flight and the peers that answered.  Its methods refuse
calls out of order; a refused call changes nothing, so a method returns the new
state together with its answer, or an error.
-/

namespace SaorsaCore.Lookup

/-- A candidate with a stable 256-bit peer identity. -/
class LookupNode (N : Type*) where
  lookupPeerId : N → PeerId

export LookupNode (lookupPeerId)

structure LookupConfig where
  count : ℕ
  alpha : ℕ
  maxIterations : ℕ
  maxCandidates : ℕ
  deriving DecidableEq, Repr

inductive LookupTermination where
  | converged
  | exhausted
  | iterationLimit
  | timedOut
  deriving DecidableEq, Repr

inductive LookupProgress where
  | continues
  | finished (reason : LookupTermination)
  deriving DecidableEq, Repr

inductive CandidateInsertion where
  | inserted (evicted : Option PeerId)
  | replaced
  | alreadyContacted
  | tooFar
  deriving DecidableEq, Repr

inductive LookupPeerState where
  | waiting
  | succeeded
  | failed
  | unresponsive
  deriving DecidableEq, Repr

inductive LookupError where
  | invalidConfig (message : String)
  | invalidState (message : String)
  | peerNotWaiting (peer : PeerId)
  deriving DecidableEq, Repr

def LookupConfig.saorsa (count : ℕ) : LookupConfig :=
  { count := count
    alpha := 3
    maxIterations := 20
    maxCandidates := 200 }

def LookupConfig.validate (config : LookupConfig) : Except LookupError LookupConfig :=
  if config.alpha = 0 then
    .error (.invalidConfig "lookup alpha must be greater than zero")
  else if config.maxIterations = 0 then
    .error (.invalidConfig "lookup iteration limit must be greater than zero")
  else if config.maxCandidates = 0 then
    .error (.invalidConfig "lookup candidate limit must be greater than zero")
  else .ok config

/-- The position of a node in the queue.  The key in the source also holds the peer
id, for ties, but two peers are never at the same distance. -/
def distanceTo {N : Type*} [LookupNode N] (target : PeerId) (node : N) : ℕ :=
  xorDistance (lookupPeerId node) target

structure IterativeLookup (N : Type*) [LookupNode N] where
  target : PeerId
  config : LookupConfig
  candidates : OrderedBy (distanceTo (N := N) target)
  peerStates : PeerId → Option LookupPeerState
  queryOrder : List PeerId
  inFlight : List N
  successful : List N
  previousTopK : List PeerId
  iterations : ℕ
  roundActive : Bool
  roundQueries : ℕ
  termination : Option LookupTermination

namespace IterativeLookup

variable {N : Type*} [LookupNode N]

/-- An empty lookup; it is finished from the start if nothing is asked for. -/
def new (target : PeerId) (config : LookupConfig) : Except LookupError (IterativeLookup N) :=
  match config.validate with
  | .error refusal => .error refusal
  | .ok valid => .ok
    { target := target
      config := valid
      candidates := OrderedBy.empty
      peerStates := fun _ => none
      queryOrder := []
      inFlight := []
      successful := []
      previousTopK := []
      iterations := 0
      roundActive := false
      roundQueries := 0
      termination := if config.count = 0 then some .converged else none }

def isContactable (lookup : IterativeLookup N) (peer : PeerId) : Bool :=
  (lookup.peerStates peer).isNone

/-- `successful.entry(peer).or_insert(node)` -/
def retainSuccess (lookup : IterativeLookup N) (node : N) : List N :=
  if (KeyedList.lookup lookupPeerId (lookupPeerId node) lookup.successful).isSome
  then lookup.successful
  else lookup.successful ++ [node]

/-- Add a result that must never be queried. -/
def addKnownResult (lookup : IterativeLookup N) (node : N) : IterativeLookup N :=
  { lookup with
    candidates := lookup.candidates.retain fun other =>
      lookupPeerId other != lookupPeerId node
    peerStates :=
      Function.update lookup.peerStates (lookupPeerId node) (some .succeeded)
    successful := lookup.retainSuccess node }

/-- Add or update an unqueried candidate.  A full queue gives up its farthest
candidate for a closer one. -/
def addCandidate (lookup : IterativeLookup N) (node : N) : IterativeLookup N × CandidateInsertion :=
  if !lookup.isContactable (lookupPeerId node) then (lookup, .alreadyContacted)
  else if lookup.candidates.contains node then
    ({ lookup with candidates := lookup.candidates.insert node }, .replaced)
  else if lookup.config.maxCandidates ≤ lookup.candidates.values.length then
    match lookup.candidates.values.getLast? with
    | none => (lookup, .tooFar)
    | some farthest =>
      if distanceTo lookup.target farthest ≤ distanceTo lookup.target node then
        (lookup, .tooFar)
      else
        ({ lookup with candidates := lookup.candidates.dropLast.insert node },
          .inserted (some (lookupPeerId farthest)))
  else
    ({ lookup with candidates := lookup.candidates.insert node }, .inserted none)

def discardContactedCandidates (lookup : IterativeLookup N) : IterativeLookup N :=
  { lookup with
    candidates := lookup.candidates.retain fun node =>
      lookup.isContactable (lookupPeerId node) }

def finish (lookup : IterativeLookup N) (reason : LookupTermination) :
    IterativeLookup N × LookupProgress :=
  ({ lookup with
    roundActive := false
    termination := some reason }, .finished reason)

def beginRound (lookup : IterativeLookup N) :
    Except LookupError (IterativeLookup N × LookupProgress) :=
  if lookup.roundActive then
    .error (.invalidState
      "cannot begin a lookup round while another round is active")
  else
    match lookup.termination with
    | some reason => .ok (lookup, .finished reason)
    | none =>
      if lookup.config.maxIterations ≤ lookup.iterations then
        .ok (lookup.finish .iterationLimit)
      else
        let lookup := lookup.discardContactedCandidates
        if lookup.candidates.values.isEmpty then .ok (lookup.finish .exhausted)
        else
          .ok ({ lookup with
            iterations := lookup.iterations + 1
            roundQueries := 0
            roundActive := true }, .continues)

/-- Remove and return the closest candidate for the active round. -/
def takeNextCandidate (lookup : IterativeLookup N) :
    Except LookupError (IterativeLookup N × Option N) :=
  if !lookup.roundActive then
    .error (.invalidState
      "cannot select a candidate outside an active lookup round")
  else if lookup.config.alpha ≤ lookup.roundQueries then .ok (lookup, none)
  else
    let lookup := lookup.discardContactedCandidates
    .ok ({ lookup with candidates := lookup.candidates.dropFirst }, lookup.candidates.values.head?)

def markWaiting (lookup : IterativeLookup N) (node : N) : Except LookupError (IterativeLookup N) :=
  if !lookup.roundActive then
    .error (.invalidState "cannot start a query outside an active lookup round")
  else if lookup.config.alpha ≤ lookup.roundQueries then
    .error (.invalidState "lookup round already reached its alpha limit")
  else if !lookup.isContactable (lookupPeerId node) then
    .error (.invalidState "cannot query a peer that already has lookup state")
  else
    .ok { lookup with
      peerStates :=
        Function.update lookup.peerStates (lookupPeerId node) (some .waiting)
      queryOrder := lookup.queryOrder ++ [lookupPeerId node]
      inFlight := KeyedList.remove lookupPeerId (lookupPeerId node)
        lookup.inFlight ++ [node]
      roundQueries := lookup.roundQueries + 1 }

def takeWaiting (lookup : IterativeLookup N) (peer : PeerId) :
    Except LookupError (IterativeLookup N × N) :=
  if lookup.peerStates peer ≠ some .waiting then .error (.peerNotWaiting peer)
  else
    match KeyedList.lookup lookupPeerId peer lookup.inFlight with
    | none => .error (.peerNotWaiting peer)
    | some node =>
      .ok ({ lookup with
        inFlight := KeyedList.remove lookupPeerId peer lookup.inFlight }, node)

def setPeerState (lookup : IterativeLookup N) (peer : PeerId)
    (state : LookupPeerState) : IterativeLookup N :=
  { lookup with
    peerStates := Function.update lookup.peerStates peer (some state) }

def recordSuccess (lookup : IterativeLookup N) (peer : PeerId) :
    Except LookupError (IterativeLookup N) := do
  let taken ← lookup.takeWaiting peer
  .ok { taken.1.setPeerState peer .succeeded with
    successful := taken.1.retainSuccess taken.2 }

def recordFailure (lookup : IterativeLookup N) (peer : PeerId) :
    Except LookupError (IterativeLookup N) := do
  let taken ← lookup.takeWaiting peer
  .ok (taken.1.setPeerState peer .failed)

def recordUnresponsive (lookup : IterativeLookup N) (peer : PeerId) :
    Except LookupError (IterativeLookup N) := do
  let taken ← lookup.takeWaiting peer
  .ok (taken.1.setPeerState peer .unresponsive)

/-- Successful responders, closest first, truncated to the number asked for. -/
def results (lookup : IterativeLookup N) : List N :=
  Closest.closest (distanceTo lookup.target) lookup.config.count
    lookup.successful

def resultPeerIds (lookup : IterativeLookup N) : List PeerId :=
  lookup.results.map lookupPeerId

def hasPromisingCandidate (lookup : IterativeLookup N) : Bool :=
  match lookup.resultPeerIds.getLast? with
  | none => !lookup.candidates.values.isEmpty
  | some worst =>
    lookup.candidates.values.head?.any fun node =>
      decide (distanceTo lookup.target node < xorDistance worst lookup.target)

/-- The round is over: decide whether the walk is. -/
def completeRound (lookup : IterativeLookup N) :
    Except LookupError (IterativeLookup N × LookupProgress) :=
  if !lookup.roundActive then
    .error (.invalidState "cannot complete a lookup round when none is active")
  else if !lookup.inFlight.isEmpty then
    .error (.invalidState
      "cannot complete a lookup round with queries still waiting")
  else
    let idle := { lookup with roundActive := false }
    let topK := idle.resultPeerIds
    let next := { idle with previousTopK := topK }
    if topK = idle.previousTopK ∧ topK.length < idle.config.count
        ∧ !idle.candidates.values.isEmpty then .ok (next, .continues)
    else if topK = idle.previousTopK ∧ !idle.hasPromisingCandidate then
      .ok (idle.finish .converged)
    else if next.config.maxIterations ≤ next.iterations then
      .ok (next.finish .iterationLimit)
    else
      let next := next.discardContactedCandidates
      if next.candidates.values.isEmpty then .ok (next.finish .exhausted)
      else .ok (next, .continues)

end IterativeLookup

end SaorsaCore.Lookup
