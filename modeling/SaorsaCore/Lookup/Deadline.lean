import SaorsaCore.Lookup.Consistency

/-!
# A walk that meets its deadline

`run_iterative_lookup` races the walk against a deadline.  When the deadline wins, the
walk is dropped at the call of the adapter it was waiting for, and the lookup stays as it
was at that point: with queries in flight, an active round and some outcomes recorded.
The walk is a sequence of calls of the lookup's methods, so what every call keeps holds
wherever it is dropped.
-/

namespace SaorsaCore.Lookup

open IterativeLookup Transition.Reaches List Function Option HashOrder

variable {Q N E : Type*} [LookupNode N]

/-! ## The race -/

/-- The adapter of a walk that is dropped: a number of calls complete, and the call after
them does not.  That one is marked by a failure of its own. -/
def LookupQuery.interrupted (adapter : LookupQuery Q N E) : LookupQuery (Q × ℕ) N (Option E) where
  isCandidateEligible state node :=
    match state with
    | (query, 0) => ((query, 0), .error none)
    | (query, calls + 1) =>
      let answer := adapter.isCandidateEligible query node
      ((answer.1, calls), answer.2.mapError some)
  queryBatch state target count iteration batch :=
    match state with
    | (query, 0) => ((query, 0), .error none)
    | (query, calls + 1) =>
      let answer := adapter.queryBatch query target count iteration batch
      ((answer.1, calls), answer.2.mapError some)
  candidateEvicted state peer :=
    match state with
    | (query, 0) => ((query, 0), .error none)
    | (query, calls + 1) =>
      let answer := adapter.candidateEvicted query peer
      ((answer.1, calls), answer.2.mapError some)

/-- The deadline has fired: the queries in flight are given up. -/
def IterativeLookup.expire (lookup : IterativeLookup N) : IterativeLookup N :=
  ({ lookup with
    inFlight := []
    peerStates := lookup.inFlight.foldl (fun states node =>
      Function.update states (lookupPeerId node) (some .unresponsive))
        lookup.peerStates }.finish .timedOut).1

/-- What `run_iterative_lookup` makes of the walk it raced. -/
def Walk.race (walk : Walk N (Option E)) : Walk N E :=
  match walk.result with
  | .ok reason => ⟨walk.lookup, walk.rounds, .ok reason⟩
  | .error (.query none) => ⟨walk.lookup.expire, walk.rounds, .error .timedOut⟩
  | .error (.query (some failure)) => ⟨walk.lookup, walk.rounds, .error (.query failure)⟩
  | .error (.lookup refusal) => ⟨walk.lookup, walk.rounds, .error (.lookup refusal)⟩
  | .error .timedOut => ⟨walk.lookup, walk.rounds, .error .timedOut⟩
  | .error (.unexpectedResponder peer) =>
    ⟨walk.lookup, walk.rounds, .error (.unexpectedResponder peer)⟩

/-- `run_iterative_lookup` with a deadline that fires during the call of the adapter that
follows `calls` others, if the walk gets there. -/
def runWithDeadline (adapter : LookupQuery Q N E) (order : HashOrder PeerId)
    (fuel calls : ℕ) (lookup : IterativeLookup N) (query : Q) : Option (Walk N E) :=
  if lookup.termination = some .timedOut then
    some ⟨lookup, [], .error .timedOut⟩
  else (runLookupRounds adapter.interrupted order fuel lookup (query, calls)).map Walk.race

/-- The lookup of a walk that was dropped. -/
def Walk.dropped? (walk : Walk N (Option E)) : Option (IterativeLookup N) :=
  match walk.result with
  | .error (.query none) => some walk.lookup
  | _ => none

/-- The lookup while the walk waits for the adapter, after `calls` calls that completed. -/
def suspendedAt (adapter : LookupQuery Q N E) (order : HashOrder PeerId) (fuel calls : ℕ)
    (lookup : IterativeLookup N) (query : Q) : Option (IterativeLookup N) :=
  (runLookupRounds adapter.interrupted order fuel lookup (query, calls)).bind Walk.dropped?

/-! ## The walk as a sequence of calls -/

/-- The calls that a walk makes. -/
def LookupCall.InWalk : LookupCall N → Prop
  | .addKnownResult _ => False
  | _ => True

/-- One lookup follows from another by calls that a walk makes. -/
def WalkCalls (start final : IterativeLookup N) : Prop :=
  Transition.Reaches (fun lookup call => some (LookupCall.apply lookup call))
    (fun _ call => LookupCall.InWalk call) start final

namespace WalkCalls

variable {lookup next final : IterativeLookup N}

theorem refl (lookup : IterativeLookup N) : WalkCalls lookup lookup :=
  Transition.Reaches.refl

theorem trans (hfirst : WalkCalls lookup next) (hsecond : WalkCalls next final) :
    WalkCalls lookup final :=
  Transition.Reaches.trans hfirst hsecond

theorem single (call : LookupCall N) (hwalk : call.InWalk)
    (happly : call.apply lookup = next) : WalkCalls lookup next :=
  Transition.Reaches.refl.tail hwalk (congrArg some happly)

theorem beginRound {progress : LookupProgress}
    (hbegin : lookup.beginRound = .ok (next, progress)) : WalkCalls lookup next := by
  apply single .beginRound trivial
  rw [LookupCall.apply, hbegin]
  rfl

theorem takeNextCandidate {taken : Option N}
    (htake : lookup.takeNextCandidate = .ok (next, taken)) : WalkCalls lookup next := by
  apply single .takeNextCandidate trivial
  rw [LookupCall.apply, htake]
  rfl

theorem markWaiting {node : N} (hmark : lookup.markWaiting node = .ok next) :
    WalkCalls lookup next := by
  apply single (.markWaiting node) trivial
  rw [LookupCall.apply, hmark]
  rfl

theorem record {peer : PeerId} {ending : QueryEnd}
    (hrecord : lookup.record peer ending = .ok next) : WalkCalls lookup next := by
  apply single (.record peer ending) trivial
  rw [LookupCall.apply, hrecord]
  rfl

theorem completeRound {progress : LookupProgress}
    (hcomplete : lookup.completeRound = .ok (next, progress)) : WalkCalls lookup next := by
  apply single .completeRound trivial
  rw [LookupCall.apply, hcomplete]
  rfl

theorem addCandidate (lookup : IterativeLookup N) (node : N) :
    WalkCalls lookup (lookup.addCandidate node).1 :=
  single (.addCandidate node) trivial rfl

end WalkCalls

section Walks

variable (adapter : LookupQuery Q N E)

theorem selectBatch_walkCalls (lookup : IterativeLookup N) (query : Q) :
    WalkCalls lookup (selectBatch adapter lookup query).lookup := by
  fun_induction selectBatch adapter lookup query with
  | case1 lookup query refusal htake => exact .refl lookup
  | case2 lookup query taken htake => exact .takeNextCandidate htake
  | case3 lookup query taken candidate htake => exact .takeNextCandidate htake
  | case4 lookup query taken candidate htake _ next _ ih =>
    exact (WalkCalls.takeNextCandidate htake).trans ih
  | case5 lookup query taken candidate htake => exact .takeNextCandidate htake
  | case6 lookup query taken candidate htake _ next _ marked hmark ih =>
    exact (WalkCalls.takeNextCandidate htake).trans ((WalkCalls.markWaiting hmark).trans ih)

theorem admitCandidates_walkCalls (lookup : IterativeLookup N) (query : Q) (candidates : List N) :
    WalkCalls lookup (admitCandidates adapter lookup query candidates).lookup := by
  induction candidates generalizing lookup query with
  | nil => exact .refl lookup
  | cons candidate candidates ih =>
    have hadd := WalkCalls.addCandidate lookup candidate
    rw [admitCandidates]
    split
    · exact .refl lookup
    · exact ih lookup _
    · dsimp only
      split
      · split
        · exact hadd
        · exact hadd.trans (ih _ _)
      · exact hadd.trans (ih _ _)

theorem handleOutcome_walkCalls (lookup : IterativeLookup N) (query : Q)
    (outcome : LookupQueryOutcome N) :
    WalkCalls lookup (handleOutcome adapter lookup query outcome).lookup := by
  cases outcome with
  | succeeded responder candidates =>
    rw [handleOutcome]
    split
    · exact .refl lookup
    · next recorded hrecord =>
        have hsuccess : lookup.record responder .success = .ok recorded := hrecord
        exact (WalkCalls.record hsuccess).trans (admitCandidates_walkCalls adapter _ _ _)
  | failed responder =>
    rw [handleOutcome]
    split
    · exact .refl lookup
    · next recorded hrecord =>
        have hfailure : lookup.record responder .failure = .ok recorded := hrecord
        exact WalkCalls.record hfailure
  | unresponsive responder =>
    rw [handleOutcome]
    split
    · exact .refl lookup
    · next recorded hrecord =>
        have hend : lookup.record responder .unresponsive = .ok recorded := hrecord
        exact WalkCalls.record hend

theorem handleOutcomes_walkCalls (lookup : IterativeLookup N) (query : Q)
    (awaiting : List PeerId) (outcomes : List (LookupQueryOutcome N)) :
    WalkCalls lookup (handleOutcomes adapter lookup query awaiting outcomes).lookup := by
  induction outcomes generalizing lookup query awaiting with
  | nil => exact .refl lookup
  | cons outcome outcomes ih =>
    have hhandle := handleOutcome_walkCalls adapter lookup query outcome
    rw [handleOutcomes]
    split
    · dsimp only
      split
      · exact hhandle
      · exact hhandle.trans (ih _ _ _)
    · exact .refl lookup

theorem abandon_walkCalls (lookup : IterativeLookup N) (peers : List PeerId) :
    WalkCalls lookup (abandon lookup peers).1 := by
  induction peers generalizing lookup with
  | nil => exact .refl lookup
  | cons peer peers ih =>
    rw [abandon]
    split
    · exact .refl lookup
    · next recorded hrecord =>
        have hend : lookup.record peer .unresponsive = .ok recorded := hrecord
        exact (WalkCalls.record hend).trans (ih recorded)

theorem closeRound_walkCalls (lookup : IterativeLookup N) (query : Q) (round : Round N) :
    WalkCalls lookup (closeRound (E := E) lookup query round).lookup := by
  rw [closeRound]
  split
  · exact .refl lookup
  · next next progress hcomplete => exact .completeRound hcomplete

theorem runRound_walkCalls (order : HashOrder PeerId) (lookup : IterativeLookup N)
    (query : Q) : WalkCalls lookup (runRound adapter order lookup query).lookup := by
  have hselect := selectBatch_walkCalls adapter lookup query
  rw [runRound]
  dsimp only
  split
  · exact hselect
  · split
    · exact hselect.trans (closeRound_walkCalls _ _ _)
    · split
      · exact hselect
      · next asked outcomes _ =>
          have hhandle := hselect.trans (handleOutcomes_walkCalls adapter _ asked
            ((eligible (selectBatch adapter lookup query).answers).map lookupPeerId) outcomes)
          split
          · exact hhandle
          · next awaiting _ =>
              have habandon := hhandle.trans (abandon_walkCalls _ (order.arrange awaiting))
              split
              · next abandoned refusal hresult =>
                  rw [hresult] at habandon
                  exact habandon
              · next abandoned hresult =>
                  rw [hresult] at habandon
                  exact habandon.trans (closeRound_walkCalls _ _ _)

/-- Wherever a walk ends, it has only made calls of the lookup's methods. -/
theorem runLookupRounds_walkCalls (order : HashOrder PeerId) (fuel : ℕ)
    {lookup : IterativeLookup N} {query : Q} {walk : Walk N E}
    (hrun : runLookupRounds adapter order fuel lookup query = some walk) :
    WalkCalls lookup walk.lookup := by
  induction fuel generalizing lookup query walk with
  | zero => cases hrun
  | succ fuel ih =>
    rw [runLookupRounds] at hrun
    split at hrun
    · cases hrun
      exact .refl lookup
    · next begun reason hbegin =>
        cases hrun
        exact .beginRound hbegin
    · next begun hbegin =>
        have hround := (WalkCalls.beginRound hbegin).trans
          (runRound_walkCalls adapter order begun query)
        dsimp only at hrun
        split at hrun
        · cases hrun
          exact hround
        · cases hrun
          exact hround
        · obtain ⟨rest, hrest, rfl⟩ := map_eq_some_iff.mp hrun
          have hwalk := ih hrest
          exact hround.trans hwalk

end Walks

/-! ## What calls keep -/

/-- Everything that can happen to a lookup: a call of one of its methods, or a deadline. -/
inductive LookupEvent (N : Type*) where
  | method (call : LookupCall N)
  | deadline

def LookupEvent.apply (lookup : IterativeLookup N) : LookupEvent N → IterativeLookup N
  | .method call => call.apply lookup
  | .deadline => lookup.expire

/-- One lookup follows from another by any calls and deadlines. -/
def Follows (start final : IterativeLookup N) : Prop :=
  Transition.Reaches (fun lookup event => some (LookupEvent.apply lookup event))
    (fun _ _ => True) start final

variable {start lookup next : IterativeLookup N}

namespace Follows

theorem refl (lookup : IterativeLookup N) : Follows lookup lookup :=
  Transition.Reaches.refl

variable (hfollows : Follows start lookup)
include hfollows

theorem method (call : LookupCall N) : Follows start (call.apply lookup) :=
  have hstep : some (LookupEvent.apply lookup (.method call)) = some (call.apply lookup) := rfl
  tail hfollows trivial hstep

end Follows

theorem record_eq_ok {peer : PeerId} {ending : QueryEnd}
    (hrecord : lookup.record peer ending = .ok next) :
    ∃ node, next = lookup.endQuery peer node ending := by
  cases htaken : lookup.takeWaiting peer with
  | error refusal =>
    rw [Consistent.record_of_error htaken] at hrecord
    cases hrecord
  | ok taken =>
    have htake := htaken
    rw [takeWaiting] at htaken
    split at htaken
    · cases htaken
    · split at htaken
      · cases htaken
      · next node _ =>
          cases htaken
          rw [Consistent.record_of_takeWaiting htake, Except.ok.injEq] at hrecord
          exact ⟨node, hrecord.symm⟩

theorem inFlight_addCandidate (lookup : IterativeLookup N) (node : N) :
    (lookup.addCandidate node).1.inFlight = lookup.inFlight := by
  rw [addCandidate]
  split
  · rfl
  · split
    · rfl
    · split
      · split
        · rfl
        · split <;> rfl
      · rfl

/-- Peers that wait are in flight, and only a round has queries in flight. -/
structure Booked (lookup : IterativeLookup N) : Prop where
  waiting : ∀ peer, lookup.peerStates peer = some .waiting → peer ∈ lookup.inFlight.map lookupPeerId
  idle : lookup.roundActive = false → lookup.inFlight = []

namespace Booked

section

variable (hbooked : Booked lookup)
include hbooked

theorem of_sameBooks (hsame : SameBooks lookup next)
    (hidle : next.roundActive = false → lookup.inFlight = []) : Booked next where
  waiting peer := by
    rw [hsame.peerStates, hsame.inFlight]
    exact hbooked.waiting peer
  idle hinactive := by
    rw [hsame.inFlight]
    exact hidle hinactive

theorem beginRound {progress : LookupProgress}
    (hbegin : lookup.beginRound = .ok (next, progress)) : Booked next := by
  apply hbooked.of_sameBooks (beginRound_sameBooks hbegin)
  intro _
  apply hbooked.idle
  rw [IterativeLookup.beginRound] at hbegin
  split at hbegin
  · cases hbegin
  · next hinactive => simpa using hinactive

theorem takeNextCandidate {taken : Option N}
    (htake : lookup.takeNextCandidate = .ok (next, taken)) : Booked next := by
  apply hbooked.of_sameBooks (takeNextCandidate_sameBooks htake)
  rw [IterativeLookup.takeNextCandidate] at htake
  split_ifs at htake <;> cases htake <;> exact hbooked.idle

theorem markWaiting {node : N} (hmark : lookup.markWaiting node = .ok next) : Booked next := by
  rw [IterativeLookup.markWaiting] at hmark
  split_ifs at hmark with hactive
  cases hmark
  refine ⟨fun peer hwaiting => ?_, fun hinactive => absurd hinactive ?_⟩
  · rw [map_append, mem_append, mem_keys_remove]
    by_cases hpeer : peer = lookupPeerId node
    · exact .inr (by simp [hpeer])
    · simp only [update_of_ne hpeer] at hwaiting
      exact .inl ⟨hpeer, hbooked.waiting peer hwaiting⟩
  · simpa using hactive

theorem endQuery (peer : PeerId) (node : N) (ending : QueryEnd) :
    Booked (lookup.endQuery peer node ending) where
  waiting other hwaiting := by
    obtain ⟨hne, hwaiting⟩ :=
      (Consistent.endQuery_waiting_iff lookup peer node ending other).mp hwaiting
    exact mem_keys_remove.mpr ⟨hne, hbooked.waiting other hwaiting⟩
  idle hinactive := by
    rw [IterativeLookup.endQuery, hbooked.idle hinactive]
    rfl

theorem completeRound {progress : LookupProgress}
    (hcomplete : lookup.completeRound = .ok (next, progress)) : Booked next := by
  apply hbooked.of_sameBooks (completeRound_sameBooks hcomplete)
  intro _
  rw [IterativeLookup.completeRound] at hcomplete
  split at hcomplete
  · cases hcomplete
  · split at hcomplete
    · cases hcomplete
    · next hempty => simpa using hempty

theorem addKnownResult (node : N) : Booked (lookup.addKnownResult node) where
  waiting peer hwaiting := by
    apply hbooked.waiting peer
    simp only [IterativeLookup.addKnownResult, update_apply] at hwaiting
    split at hwaiting
    · cases hwaiting
    · exact hwaiting
  idle := hbooked.idle

theorem addCandidate (node : N) : Booked (lookup.addCandidate node).1 := by
  obtain ⟨hframe, hstates⟩ := addCandidate_frame lookup node
  constructor
  · rw [hstates, inFlight_addCandidate]
    exact hbooked.waiting
  · rw [hframe.roundActive, inFlight_addCandidate]
    exact hbooked.idle

theorem apply (call : LookupCall N) : Booked (call.apply lookup) := by
  cases call with
  | addKnownResult node => exact hbooked.addKnownResult node
  | addCandidate node => exact hbooked.addCandidate node
  | beginRound => exact settle_map_kept hbooked fun _ _ => hbooked.beginRound
  | takeNextCandidate => exact settle_map_kept hbooked fun _ _ => hbooked.takeNextCandidate
  | markWaiting node => exact settle_kept hbooked fun _ => hbooked.markWaiting
  | record peer ending =>
    apply settle_kept hbooked
    intro next hrecord
    obtain ⟨node, rfl⟩ := record_eq_ok hrecord
    exact hbooked.endQuery peer node ending
  | completeRound => exact settle_map_kept hbooked fun _ _ => hbooked.completeRound

end

theorem peerStates_drain (nodes : List N) (states : PeerId → Option LookupPeerState)
    (peer : PeerId) :
    nodes.foldl (fun states node =>
        update states (lookupPeerId node) (some .unresponsive)) states peer =
      if peer ∈ nodes.map lookupPeerId then some .unresponsive else states peer := by
  induction nodes generalizing states with
  | nil => simp
  | cons node nodes ih =>
    rw [foldl_cons, ih, map_cons]
    by_cases hpeer : peer = lookupPeerId node
    · simp [hpeer]
    · simp [hpeer]

theorem peerStates_expire (lookup : IterativeLookup N) (peer : PeerId) :
    lookup.expire.peerStates peer =
      if peer ∈ lookup.inFlight.map lookupPeerId then some .unresponsive
      else lookup.peerStates peer :=
  peerStates_drain lookup.inFlight lookup.peerStates peer

theorem expire (hbooked : Booked lookup) : Booked lookup.expire where
  waiting peer hwaiting := by
    rw [peerStates_expire] at hwaiting
    split at hwaiting
    · cases hwaiting
    · next hidle => exact absurd (hbooked.waiting peer hwaiting) hidle
  idle _ := rfl

theorem new {target : PeerId} {config : LookupConfig}
    (hnew : IterativeLookup.new target config = .ok lookup) : Booked lookup := by
  rw [IterativeLookup.new] at hnew
  split at hnew
  · cases hnew
  · cases hnew
    exact ⟨by simp, fun _ => rfl⟩

theorem follows (hbooked : Booked lookup) (hfollows : Follows lookup next) : Booked next := by
  apply invariant hfollows hbooked
  rintro state (call | _) _ hstate - ⟨⟩
  · exact hstate.apply call
  · exact hstate.expire

theorem walkCalls (hbooked : Booked lookup) (hcalls : WalkCalls lookup next) : Booked next := by
  apply invariant hcalls hbooked
  rintro state call _ hstate - ⟨⟩
  exact hstate.apply call

end Booked

/-! ## Peers in flight -/

/-- Peers in flight wait. -/
def FlightsWait (lookup : IterativeLookup N) : Prop :=
  ∀ peer ∈ lookup.inFlight.map lookupPeerId, lookup.peerStates peer = some .waiting

namespace FlightsWait

variable (hwait : FlightsWait lookup)
include hwait

theorem of_sameBooks (hsame : SameBooks lookup next) : FlightsWait next := by
  rw [FlightsWait, hsame.inFlight, hsame.peerStates]
  exact hwait

theorem markWaiting {node : N} (hmark : lookup.markWaiting node = .ok next) : FlightsWait next := by
  rw [IterativeLookup.markWaiting] at hmark
  split_ifs at hmark
  cases hmark
  intro peer hflight
  rw [map_append, mem_append, mem_keys_remove] at hflight
  by_cases hpeer : peer = lookupPeerId node
  · simp [hpeer]
  · simp only [update_of_ne hpeer]
    rcases hflight with ⟨-, hflight⟩ | hnode
    · exact hwait peer hflight
    · exact absurd (mem_singleton.mp hnode) hpeer

theorem endQuery (peer : PeerId) (node : N)
    (ending : QueryEnd) : FlightsWait (lookup.endQuery peer node ending) := by
  intro other hflight
  obtain ⟨hne, hflight⟩ := mem_keys_remove.mp hflight
  exact (Consistent.endQuery_waiting_iff lookup peer node ending other).mpr
    ⟨hne, hwait other hflight⟩

theorem addCandidate (node : N) : FlightsWait (lookup.addCandidate node).1 := by
  rw [FlightsWait, inFlight_addCandidate, (addCandidate_frame lookup node).2]
  exact hwait

theorem apply {call : LookupCall N} (hwalk : call.InWalk) : FlightsWait (call.apply lookup) := by
  cases call with
  | addKnownResult node => exact absurd hwalk id
  | addCandidate node => exact hwait.addCandidate node
  | beginRound =>
    exact settle_map_kept hwait fun _ _ hbegin => hwait.of_sameBooks (beginRound_sameBooks hbegin)
  | takeNextCandidate =>
    exact settle_map_kept hwait fun _ _ htake =>
      hwait.of_sameBooks (takeNextCandidate_sameBooks htake)
  | markWaiting node => exact settle_kept hwait fun _ => hwait.markWaiting
  | record peer ending =>
    apply settle_kept hwait
    intro next hrecord
    obtain ⟨node, rfl⟩ := record_eq_ok hrecord
    exact hwait.endQuery peer node ending
  | completeRound =>
    exact settle_map_kept hwait fun _ _ hcomplete =>
      hwait.of_sameBooks (completeRound_sameBooks hcomplete)

theorem walkCalls (hcalls : WalkCalls lookup next) : FlightsWait next := by
  apply invariant hcalls hwait
  rintro state call _ hstate hwalk ⟨⟩
  exact hstate.apply hwalk

end FlightsWait

/-! ## The deadline -/

section Suspended

variable {adapter : LookupQuery Q N E} {order : HashOrder PeerId} {fuel calls : ℕ} {query : Q}
  {suspended : IterativeLookup N}

variable (hsuspended : suspendedAt adapter order fuel calls lookup query = some suspended)
include hsuspended

theorem suspendedAt_eq_some :
    ∃ rounds, runLookupRounds adapter.interrupted order fuel lookup (query, calls) =
      some ⟨suspended, rounds, .error (.query none)⟩ := by
  obtain ⟨walk, hrun, hdropped⟩ := bind_eq_some_iff.mp hsuspended
  rw [Walk.dropped?] at hdropped
  split at hdropped
  · next hresult =>
      cases hdropped
      refine ⟨walk.rounds, hrun.trans (congrArg some ?_)⟩
      rw [← hresult]
  · cases hdropped

/-- A walk waits for its adapter only on a lookup that was idle and unfinished. -/
theorem idle_of_suspendedAt : lookup.roundActive = false ∧ lookup.termination = none := by
  obtain ⟨rounds, hrun⟩ := suspendedAt_eq_some hsuspended
  cases fuel with
  | zero => cases hrun
  | succ fuel =>
    rw [runLookupRounds, beginRound] at hrun
    cases hactive : lookup.roundActive with
    | true =>
      rw [hactive] at hrun
      cases hrun
    | false =>
      cases hfinished : lookup.termination with
      | none => exact ⟨rfl, rfl⟩
      | some reason =>
        rw [hactive, hfinished] at hrun
        cases hrun

theorem runWithDeadline_of_suspendedAt :
    ∃ rounds, runWithDeadline adapter order fuel calls lookup query =
      some ⟨suspended.expire, rounds, .error .timedOut⟩ := by
  obtain ⟨rounds, hrun⟩ := suspendedAt_eq_some hsuspended
  have hunfinished : lookup.termination ≠ some .timedOut := by
    rw [(idle_of_suspendedAt hsuspended).2]
    exact (some_ne_none _).symm
  refine ⟨rounds, ?_⟩
  rw [runWithDeadline, if_neg hunfinished, hrun]
  rfl

theorem walkCalls_of_suspendedAt : WalkCalls lookup suspended := by
  obtain ⟨rounds, hrun⟩ := suspendedAt_eq_some hsuspended
  exact runLookupRounds_walkCalls adapter.interrupted order fuel hrun

end Suspended

/-- A lookup that has met its deadline. -/
def TimedOut (lookup : IterativeLookup N) : Prop :=
  lookup.roundActive = false ∧ lookup.termination = some .timedOut

theorem TimedOut.apply (htimedOut : TimedOut lookup) (call : LookupCall N) :
    TimedOut (call.apply lookup) := by
  obtain ⟨hinactive, hfinished⟩ := htimedOut
  cases call with
  | addKnownResult node => exact ⟨hinactive, hfinished⟩
  | addCandidate node =>
    have hframe := (addCandidate_frame lookup node).1
    exact ⟨hframe.roundActive.trans hinactive, hframe.termination.trans hfinished⟩
  | beginRound =>
    apply settle_map_kept ⟨hinactive, hfinished⟩
    intro next progress hbegin
    rw [beginRound, hinactive, hfinished] at hbegin
    cases hbegin
    exact ⟨hinactive, hfinished⟩
  | takeNextCandidate =>
    apply settle_map_kept ⟨hinactive, hfinished⟩
    intro next taken htake
    rw [takeNextCandidate, hinactive] at htake
    cases htake
  | markWaiting node =>
    apply settle_kept ⟨hinactive, hfinished⟩
    intro next hmark
    rw [markWaiting, hinactive] at hmark
    cases hmark
  | record peer ending =>
    apply settle_kept ⟨hinactive, hfinished⟩
    intro next hrecord
    obtain ⟨node, rfl⟩ := record_eq_ok hrecord
    exact ⟨hinactive, hfinished⟩
  | completeRound =>
    apply settle_map_kept ⟨hinactive, hfinished⟩
    intro next progress hcomplete
    rw [completeRound, hinactive] at hcomplete
    cases hcomplete

theorem TimedOut.follows (htimedOut : TimedOut lookup) (hfollows : Follows lookup next) :
    TimedOut next := by
  apply invariant hfollows htimedOut
  rintro state (call | _) _ hstate - ⟨⟩
  · exact hstate.apply call
  · exact ⟨rfl, rfl⟩

/-- A deadline that fires at any await of a walk on any lookup gives up the peers that
wait and changes nothing else but the end of the walk; whatever is called on the lookup
afterwards, a further walk times out before its first round. -/
theorem runWithDeadline_timedOut {Q' E' : Type*} {target : PeerId} {config : LookupConfig}
    {created suspended : IterativeLookup N} (adapter : LookupQuery Q N E)
    (order : HashOrder PeerId) (fuel calls : ℕ) (query : Q)
    (hnew : IterativeLookup.new target config = .ok created)
    (hfollows : Follows created lookup)
    (hsuspended : suspendedAt adapter order fuel calls lookup query = some suspended)
    (adapter' : LookupQuery Q' N E') (order' : HashOrder PeerId) (fuel' calls' : ℕ)
    (query' : Q') :
    ∃ walk, runWithDeadline adapter order fuel calls lookup query = some walk ∧
      walk.result = .error .timedOut ∧
      walk.lookup.roundActive = false ∧
      walk.lookup.waitingPeers = [] ∧
      (∀ peer, walk.lookup.peerStates peer ≠ some .waiting) ∧
      (∀ peer, suspended.peerStates peer = some .waiting →
        walk.lookup.peerStates peer = some .unresponsive) ∧
      (∀ peer, suspended.peerStates peer ≠ some .waiting →
        walk.lookup.peerStates peer = suspended.peerStates peer) ∧
      walk.lookup.results = suspended.results ∧
      walk.lookup.termination = some .timedOut ∧
      ∀ later, Follows walk.lookup later →
        runWithDeadline adapter' order' fuel' calls' later query' =
          some ⟨later, [], .error .timedOut⟩ := by
  obtain ⟨rounds, hrun⟩ := runWithDeadline_of_suspendedAt hsuspended
  obtain ⟨hinactive, -⟩ := idle_of_suspendedAt hsuspended
  have hcalls := walkCalls_of_suspendedAt hsuspended
  have hstart : Booked lookup := (Booked.new hnew).follows hfollows
  have hbooked : Booked suspended := hstart.walkCalls hcalls
  have hwait : FlightsWait suspended := by
    apply FlightsWait.walkCalls _ hcalls
    rw [FlightsWait, hstart.idle hinactive]
    exact fun _ hflight => absurd hflight not_mem_nil
  have hwaiting (peer : PeerId) : peer ∈ suspended.inFlight.map lookupPeerId ↔
      suspended.peerStates peer = some .waiting :=
    ⟨hwait peer, hbooked.waiting peer⟩
  refine ⟨_, hrun, rfl, rfl, rfl, fun peer => ?_, fun peer hpeer => ?_, fun peer hpeer => ?_,
    rfl, rfl, fun later hlater => ?_⟩
  · intro hstate
    have hflight := hbooked.expire.waiting peer hstate
    exact absurd hflight not_mem_nil
  · exact (Booked.peerStates_expire suspended peer).trans (if_pos ((hwaiting peer).mpr hpeer))
  · exact (Booked.peerStates_expire suspended peer).trans
      (if_neg fun hflight => hpeer ((hwaiting peer).mp hflight))
  · have hlate : TimedOut later := TimedOut.follows ⟨rfl, rfl⟩ hlater
    exact if_pos hlate.2

/-- The deadline fires while the batch of the first round is out. -/
theorem runWithDeadline_batch :
    ∃ suspended walk,
      suspendedAt chattyAdapter (HashOrder.insertion _) 21 1
          (exampleLookup.setUp [.knownResult 6, .candidate 40]).1 () = some suspended ∧
        suspended.peerStates 40 = some .waiting ∧
        runWithDeadline chattyAdapter (HashOrder.insertion _) 21 1
          (exampleLookup.setUp [.knownResult 6, .candidate 40]).1 () = some walk ∧
        walk.result = .error .timedOut ∧
        walk.lookup.peerStates 40 = some .unresponsive := by
  have hreached : (suspendedAt chattyAdapter (insertion _) 21 1
      (exampleLookup.setUp [.knownResult 6, .candidate 40]).1 ()).map
        (fun lookup => lookup.peerStates 40) = some (some .waiting) := by
    decide +kernel
  have hfollows : Follows exampleLookup (exampleLookup.setUp [.knownResult 6, .candidate 40]).1 :=
    ((Follows.refl exampleLookup).method (.addKnownResult 6)).method (.addCandidate 40)
  obtain ⟨suspended, hsuspended, hwaiting⟩ := map_eq_some_iff.mp hreached
  obtain ⟨walk, hrun, hresult, -, -, -, hgivenUp, -⟩ :=
    runWithDeadline_timedOut chattyAdapter (insertion _) 21 1 ()
      new_exampleConfig hfollows hsuspended chattyAdapter (insertion _) 21 0 ()
  exact ⟨suspended, walk, hsuspended, hwaiting, hrun, hresult, hgivenUp 40 hwaiting⟩

end SaorsaCore.Lookup
