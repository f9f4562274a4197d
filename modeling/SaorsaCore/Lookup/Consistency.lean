import SaorsaCore.Core.Transition
import SaorsaCore.Lookup.Guarantees

/-!
# Any sequence of calls on a lookup

The methods of `IterativeLookup` are public, so nothing forces a caller to use them in
the order of the runner.  Five collections describe overlapping views of the same
peers.  This file follows them through arbitrary calls, refused ones included: they
stay consistent, and an active round can be brought to its end, as long as no query is
in flight to a peer that is declared a known result.
-/

namespace SaorsaCore.Lookup

open IterativeLookup List KeyedList Function

variable {N : Type*} [LookupNode N]

/-! ## Calls -/

/-- How a query ends. -/
inductive QueryEnd where
  | success
  | failure
  | unresponsive
  deriving DecidableEq, Repr

/-- The three methods that record the end of a query. -/
def IterativeLookup.record (lookup : IterativeLookup N) (peer : PeerId) :
    QueryEnd → Except LookupError (IterativeLookup N)
  | .success => lookup.recordSuccess peer
  | .failure => lookup.recordFailure peer
  | .unresponsive => lookup.recordUnresponsive peer

def QueryEnd.state : QueryEnd → LookupPeerState
  | .success => .succeeded
  | .failure => .failed
  | .unresponsive => .unresponsive

/-- The lookup after the query to a peer has ended; `node` is what was in flight. -/
def IterativeLookup.endQuery (lookup : IterativeLookup N) (peer : PeerId) (node : N)
    (ending : QueryEnd) : IterativeLookup N :=
  { lookup with
    inFlight := KeyedList.remove lookupPeerId peer lookup.inFlight
    peerStates := Function.update lookup.peerStates peer (some ending.state)
    successful := if ending = .success then lookup.retainSuccess node else lookup.successful }

/-- A call of a method that changes the lookup. -/
inductive LookupCall (N : Type*) where
  | addKnownResult (node : N)
  | addCandidate (node : N)
  | beginRound
  | takeNextCandidate
  | markWaiting (node : N)
  | record (peer : PeerId) (ending : QueryEnd)
  | completeRound

/-- The lookup after a call that may have been refused. -/
def IterativeLookup.settle (lookup : IterativeLookup N) :
    Except LookupError (IterativeLookup N) → IterativeLookup N
  | .ok next => next
  | .error _ => lookup

def LookupCall.apply (lookup : IterativeLookup N) : LookupCall N → IterativeLookup N
  | .addKnownResult node => lookup.addKnownResult node
  | .addCandidate node => (lookup.addCandidate node).1
  | .beginRound => lookup.settle (lookup.beginRound.map Prod.fst)
  | .takeNextCandidate => lookup.settle (lookup.takeNextCandidate.map Prod.fst)
  | .markWaiting node => lookup.settle (lookup.markWaiting node)
  | .record peer ending => lookup.settle (lookup.record peer ending)
  | .completeRound => lookup.settle (lookup.completeRound.map Prod.fst)

/-- `waiting_peers`: the peers with a query in flight, closest first. -/
def IterativeLookup.waitingPeers (lookup : IterativeLookup N) : List PeerId :=
  (lookup.inFlight.map lookupPeerId).insertionSort fun left right =>
    xorDistance left lookup.target ≤ xorDistance right lookup.target

/-- Record an end for each of some queries. -/
def IterativeLookup.recordAll (lookup : IterativeLookup N) (ending : PeerId → QueryEnd)
    (peers : List PeerId) : Except LookupError (IterativeLookup N) :=
  peers.foldlM (fun lookup peer => lookup.record peer (ending peer)) lookup

/-! ## Consistency -/

/-- The collections of a lookup agree on the state of every peer. -/
structure Consistent (lookup : IterativeLookup N) : Prop where
  inFlight : ∀ peer, peer ∈ lookup.inFlight.map lookupPeerId ↔
    lookup.peerStates peer = some .waiting
  successful : ∀ peer, peer ∈ lookup.successful.map lookupPeerId ↔
    lookup.peerStates peer = some .succeeded
  queued : lookup.candidates.values.length ≤ lookup.config.maxCandidates
  nodup_queryOrder : lookup.queryOrder.Nodup
  nodup_inFlight : (lookup.inFlight.map lookupPeerId).Nodup
  queried : ∀ peer ∈ lookup.queryOrder, (lookup.peerStates peer).isSome

/-- The round can be brought to its end: whatever the ends of the queries in flight and
in whatever order they are recorded, no call is refused. -/
def Completable (lookup : IterativeLookup N) : Prop :=
  lookup.roundActive = true →
    ∀ (peers : List PeerId) (ending : PeerId → QueryEnd), peers.Perm lookup.waitingPeers →
      ∃ recorded result, lookup.recordAll ending peers = .ok recorded ∧
        recorded.completeRound = .ok result

/-- At most the queue has changed, and has not become longer. -/
structure SameBooks (before after : IterativeLookup N) : Prop where
  config : after.config = before.config
  peerStates : after.peerStates = before.peerStates
  queryOrder : after.queryOrder = before.queryOrder
  inFlight : after.inFlight = before.inFlight
  successful : after.successful = before.successful
  queued : after.candidates.values.length ≤ before.candidates.values.length

theorem SameBooks.refl (lookup : IterativeLookup N) : SameBooks lookup lookup :=
  ⟨rfl, rfl, rfl, rfl, rfl, le_rfl⟩

theorem discardContactedCandidates_sameBooks (lookup : IterativeLookup N) :
    SameBooks lookup lookup.discardContactedCandidates :=
  ⟨rfl, rfl, rfl, rfl, rfl, List.length_filter_le _ _⟩

variable {lookup next : IterativeLookup N}

theorem beginRound_sameBooks {progress : LookupProgress}
    (hbegin : lookup.beginRound = .ok (next, progress)) : SameBooks lookup next := by
  have hdiscard := discardContactedCandidates_sameBooks lookup
  simp only [beginRound] at hbegin
  split at hbegin
  · cases hbegin
  · split at hbegin
    · cases hbegin
      exact .refl lookup
    · split_ifs at hbegin
      · cases hbegin
        exact ⟨rfl, rfl, rfl, rfl, rfl, le_rfl⟩
      · cases hbegin
        exact ⟨rfl, rfl, rfl, rfl, rfl, hdiscard.queued⟩
      · cases hbegin
        exact ⟨rfl, rfl, rfl, rfl, rfl, hdiscard.queued⟩

theorem takeNextCandidate_sameBooks {taken : Option N}
    (htake : lookup.takeNextCandidate = .ok (next, taken)) : SameBooks lookup next := by
  have hdiscard := discardContactedCandidates_sameBooks lookup
  simp only [takeNextCandidate] at htake
  split_ifs at htake
  · cases htake
    exact .refl lookup
  · cases htake
    refine ⟨rfl, rfl, rfl, rfl, rfl, ?_⟩
    exact (tail_sublist _).length_le.trans hdiscard.queued

theorem completeRound_sameBooks {progress : LookupProgress}
    (hcomplete : lookup.completeRound = .ok (next, progress)) : SameBooks lookup next := by
  simp only [completeRound] at hcomplete
  split_ifs at hcomplete <;> cases hcomplete
  · exact ⟨rfl, rfl, rfl, rfl, rfl, le_rfl⟩
  · exact ⟨rfl, rfl, rfl, rfl, rfl, le_rfl⟩
  · exact ⟨rfl, rfl, rfl, rfl, rfl, le_rfl⟩
  · exact ⟨rfl, rfl, rfl, rfl, rfl, length_filter_le _ _⟩
  · exact ⟨rfl, rfl, rfl, rfl, rfl, length_filter_le _ _⟩

/-! ## One call -/

theorem mem_retainSuccess {node : N} {peer : PeerId} :
    peer ∈ (lookup.retainSuccess node).map lookupPeerId ↔
      peer = lookupPeerId node ∨ peer ∈ lookup.successful.map lookupPeerId := by
  rw [retainSuccess]
  split
  · next hpresent =>
      rw [isSome_lookup_iff] at hpresent
      constructor
      · exact .inr
      · rintro (rfl | hmem)
        · exact hpresent
        · exact hmem
  · rw [map_append, mem_append, map_singleton, mem_singleton, or_comm]

theorem mem_keys_remove {nodes : List N} {peer other : PeerId} :
    other ∈ (KeyedList.remove lookupPeerId peer nodes).map lookupPeerId ↔
      other ≠ peer ∧ other ∈ nodes.map lookupPeerId := by
  simp only [mem_map, mem_remove]
  constructor
  · rintro ⟨node, ⟨hmem, hne⟩, rfl⟩
    exact ⟨hne, node, hmem, rfl⟩
  · rintro ⟨hne, node, hmem, rfl⟩
    exact ⟨node, ⟨hmem, hne⟩, rfl⟩

namespace Consistent

variable {lookup : IterativeLookup N}

theorem of_sameBooks {next : IterativeLookup N} (hconsistent : Consistent lookup)
    (hsame : SameBooks lookup next) : Consistent next where
  inFlight peer := by
    rw [hsame.inFlight, hsame.peerStates]
    exact hconsistent.inFlight peer
  successful peer := by
    rw [hsame.successful, hsame.peerStates]
    exact hconsistent.successful peer
  queued := by
    rw [hsame.config]
    exact hsame.queued.trans hconsistent.queued
  nodup_queryOrder := by
    rw [hsame.queryOrder]
    exact hconsistent.nodup_queryOrder
  nodup_inFlight := by
    rw [hsame.inFlight]
    exact hconsistent.nodup_inFlight
  queried := by
    rw [hsame.queryOrder, hsame.peerStates]
    exact hconsistent.queried

theorem withCandidates (hconsistent : Consistent lookup)
    {candidates : OrderedBy (distanceTo (N := N) lookup.target)}
    (hqueued : candidates.values.length ≤ lookup.config.maxCandidates) :
    Consistent { lookup with candidates := candidates } :=
  ⟨hconsistent.inFlight, hconsistent.successful, hqueued, hconsistent.nodup_queryOrder,
    hconsistent.nodup_inFlight, hconsistent.queried⟩

variable {node : N}

theorem addKnownResult (hconsistent : Consistent lookup)
    (hidle : lookup.peerStates (lookupPeerId node) ≠ some .waiting) :
    Consistent (lookup.addKnownResult node) where
  inFlight peer := by
    simp only [IterativeLookup.addKnownResult, update_apply]
    rw [hconsistent.inFlight peer]
    split
    · next hpeer =>
        rw [hpeer]
        simp [hidle]
    · rfl
  successful peer := by
    simp only [IterativeLookup.addKnownResult, update_apply]
    rw [mem_retainSuccess, hconsistent.successful peer]
    split
    · next hpeer => simp [hpeer]
    · next hpeer => simp [hpeer]
  queued := (List.length_filter_le _ _).trans hconsistent.queued
  nodup_queryOrder := hconsistent.nodup_queryOrder
  nodup_inFlight := hconsistent.nodup_inFlight
  queried peer hpeer := by
    simp only [IterativeLookup.addKnownResult, update_apply]
    split
    · rfl
    · exact hconsistent.queried peer hpeer

theorem addCandidate (hconsistent : Consistent lookup) (node : N) :
    Consistent (lookup.addCandidate node).1 := by
  rw [IterativeLookup.addCandidate]
  split
  · exact hconsistent
  · split
    · next hcontains =>
        exact hconsistent.withCandidates
          ((OrderedBy.length_insert_of_contains hcontains).trans hconsistent.queued)
    · split
      · split
        · exact hconsistent
        · next farthest hfarthest =>
            split
            · exact hconsistent
            · apply hconsistent.withCandidates
              have hinsert := lookup.candidates.dropLast.length_insert_le node
              have hdrop : lookup.candidates.dropLast.values.length =
                  lookup.candidates.values.length - 1 := List.length_dropLast
              have hlength : 0 < lookup.candidates.values.length :=
                List.length_pos_of_mem (List.mem_of_getLast? hfarthest)
              have hqueued := hconsistent.queued
              omega
      · next hroom =>
          apply hconsistent.withCandidates
          have hinsert := lookup.candidates.length_insert_le node
          omega

theorem markWaiting (hconsistent : Consistent lookup) {next : IterativeLookup N}
    (hmark : lookup.markWaiting node = .ok next) : Consistent next := by
  rw [IterativeLookup.markWaiting] at hmark
  split_ifs at hmark with _ _ hcontactable
  cases hmark
  have hfresh : lookup.peerStates (lookupPeerId node) = none := by
    simpa [IterativeLookup.isContactable] using hcontactable
  have habsent : lookupPeerId node ∉ lookup.queryOrder := by
    intro hqueried
    have hstate := hconsistent.queried _ hqueried
    rw [hfresh] at hstate
    cases hstate
  refine ⟨fun peer => ?_, fun peer => ?_, hconsistent.queued, ?_, ?_, fun peer hpeer => ?_⟩
  · simp only [List.map_append, List.mem_append, List.map_singleton, List.mem_singleton,
      mem_keys_remove, update_apply]
    split
    · next hpeer => simp [hpeer]
    · next hpeer => simp only [hpeer, ne_eq, not_false_eq_true, true_and, or_false,
        hconsistent.inFlight peer]
  · simp only [update_apply]
    rw [hconsistent.successful peer]
    split
    · next hpeer => simp [hpeer, hfresh]
    · rfl
  · simpa using hconsistent.nodup_queryOrder.concat habsent
  · have hremoved : lookupPeerId node ∉
        (KeyedList.remove lookupPeerId (lookupPeerId node) lookup.inFlight).map lookupPeerId :=
      fun hmem => (mem_keys_remove.mp hmem).1 rfl
    simpa using List.Nodup.concat hremoved
      ((KeyedList.map_key_remove_sublist _).nodup hconsistent.nodup_inFlight)
  · simp only [update_apply]
    split
    · rfl
    · next hne =>
        rcases List.mem_append.mp hpeer with hold | hnew
        · exact hconsistent.queried peer hold
        · exact absurd (List.mem_singleton.mp hnew) hne

/-! ## The end of a query -/

theorem endQuery_waiting_iff (lookup : IterativeLookup N) (peer : PeerId) (node : N)
    (ending : QueryEnd) (other : PeerId) :
    (lookup.endQuery peer node ending).peerStates other = some .waiting ↔
      other ≠ peer ∧ lookup.peerStates other = some .waiting := by
  simp only [endQuery, update_apply]
  split
  · next hother => cases ending <;> simp [hother, QueryEnd.state]
  · next hother => simp [hother]

variable {peer : PeerId}

/-- A query that has ended takes its peer off the waiting ones. -/
theorem endQuery (hconsistent : Consistent lookup)
    (hwaiting : lookup.peerStates peer = some .waiting) (hpeer : lookupPeerId node = peer)
    (ending : QueryEnd) : Consistent (lookup.endQuery peer node ending) where
  inFlight other := by
    simp only [IterativeLookup.endQuery, mem_keys_remove, hconsistent.inFlight other, update_apply]
    split
    · next hother => cases ending <;> simp [hother, QueryEnd.state]
    · next hother => simp [hother]
  successful other := by
    simp only [IterativeLookup.endQuery, update_apply]
    cases ending with
    | success =>
      rw [QueryEnd.state, if_pos rfl, mem_retainSuccess, hpeer, hconsistent.successful other]
      split <;> next hother => simp [hother]
    | _ =>
      rw [QueryEnd.state, if_neg (by simp), hconsistent.successful other]
      split <;> next hother => simp [hother, hwaiting]
  queued := hconsistent.queued
  nodup_queryOrder := hconsistent.nodup_queryOrder
  nodup_inFlight := (KeyedList.map_key_remove_sublist _).nodup hconsistent.nodup_inFlight
  queried other hother := by
    simp only [IterativeLookup.endQuery, update_apply]
    split
    · rfl
    · exact hconsistent.queried other hother

theorem record_of_takeWaiting (htaken : lookup.takeWaiting peer = .ok ({ lookup with
      inFlight := KeyedList.remove lookupPeerId peer lookup.inFlight }, node))
    (ending : QueryEnd) :
    lookup.record peer ending = .ok (lookup.endQuery peer node ending) := by
  cases ending with
  | success => rw [record, recordSuccess, htaken]; rfl
  | failure => rw [record, recordFailure, htaken]; rfl
  | unresponsive => rw [record, recordUnresponsive, htaken]; rfl

theorem record_of_error {refusal : LookupError}
    (hrefused : lookup.takeWaiting peer = .error refusal) (ending : QueryEnd) :
    lookup.record peer ending = .error refusal := by
  cases ending with
  | success => rw [record, recordSuccess, hrefused]; rfl
  | failure => rw [record, recordFailure, hrefused]; rfl
  | unresponsive =>
    rw [record, recordUnresponsive, hrefused]; rfl

/-- The end of a query in flight is recorded. -/
theorem record_ok (hconsistent : Consistent lookup)
    (hwaiting : lookup.peerStates peer = some .waiting) (ending : QueryEnd) :
    ∃ node, lookupPeerId node = peer ∧
      lookup.record peer ending = .ok (lookup.endQuery peer node ending) := by
  have hflight := isSome_lookup_iff.mpr ((hconsistent.inFlight peer).mpr hwaiting)
  obtain ⟨node, hnode⟩ := Option.isSome_iff_exists.mp hflight
  have htaken : lookup.takeWaiting peer = .ok ({ lookup with
      inFlight := remove lookupPeerId peer lookup.inFlight }, node) := by
    rw [takeWaiting, if_neg (by simp [hwaiting]), hnode]
  exact ⟨node, key_of_lookup hnode, record_of_takeWaiting htaken ending⟩

theorem record_refused (hidle : lookup.peerStates peer ≠ some .waiting) (ending : QueryEnd) :
    lookup.record peer ending = .error (.peerNotWaiting peer) := by
  have hrefused : lookup.takeWaiting peer = .error (.peerNotWaiting peer) := if_pos hidle
  exact record_of_error hrefused ending

/-- The queries in flight can be ended in any order, each in any way, and then the round
is over. -/
theorem recordAll_ok (hconsistent : Consistent lookup) (hactive : lookup.roundActive = true)
    {peers : List PeerId} (hnodup : peers.Nodup)
    (hpeers : ∀ peer, peer ∈ peers ↔ lookup.peerStates peer = some .waiting)
    (ending : PeerId → QueryEnd) :
    ∃ recorded result, lookup.recordAll ending peers = .ok recorded ∧
      recorded.completeRound = .ok result := by
  induction peers generalizing lookup with
  | nil =>
    have hempty : lookup.inFlight = [] := by
      rw [← map_eq_nil_iff (f := lookupPeerId), eq_nil_iff_forall_not_mem]
      intro peer hmem
      have hwaiting := (hpeers peer).mpr ((hconsistent.inFlight peer).mp hmem)
      cases hwaiting
    have hcompleted : ∃ result, lookup.completeRound = .ok result := by
      rw [completeRound, if_neg (by simp [hactive]), if_neg (by simp [hempty])]
      simp only
      split_ifs <;> exact ⟨_, rfl⟩
    obtain ⟨result, hresult⟩ := hcompleted
    exact ⟨lookup, result, rfl, hresult⟩
  | cons peer peers ih =>
    obtain ⟨habsent, hnodup⟩ := nodup_cons.mp hnodup
    have hwaiting := (hpeers peer).mp mem_cons_self
    obtain ⟨node, hnode, hrecord⟩ := hconsistent.record_ok hwaiting (ending peer)
    have hrest (other : PeerId) : other ∈ peers ↔
        (lookup.endQuery peer node (ending peer)).peerStates other = some .waiting := by
      rw [endQuery_waiting_iff, ← hpeers, mem_cons]
      constructor
      · intro hother
        exact ⟨fun heq => habsent (heq ▸ hother), .inr hother⟩
      · rintro ⟨hne, heq | hother⟩
        · exact absurd heq hne
        · exact hother
    obtain ⟨recorded, result, hall, hresult⟩ :=
      ih (hconsistent.endQuery hwaiting hnode (ending peer)) hactive hnodup hrest
    refine ⟨recorded, result, ?_, hresult⟩
    rw [recordAll, foldlM_cons, hrecord]
    exact hall

theorem completable (hconsistent : Consistent lookup) : Completable lookup := by
  intro hactive peers ending hperm
  have hsorted : peers.Perm (lookup.inFlight.map lookupPeerId) :=
    hperm.trans (perm_insertionSort _ _)
  refine hconsistent.recordAll_ok hactive (hsorted.nodup_iff.mpr hconsistent.nodup_inFlight)
    (fun peer => ?_) ending
  rw [hsorted.mem_iff]
  exact hconsistent.inFlight peer

end Consistent

/-! ## Every sequence of calls -/

/-- The call declares no peer with a query in flight a known result. -/
def LookupCall.SparesWaiting (lookup : IterativeLookup N) : LookupCall N → Prop
  | .addKnownResult node => lookup.peerStates (lookupPeerId node) ≠ some .waiting
  | _ => True

variable {property : IterativeLookup N → Prop}

/-- What is kept by a call that changes the lookup is kept by one that may be refused. -/
theorem settle_kept (hlookup : property lookup)
    {result : Except LookupError (IterativeLookup N)}
    (hresult : ∀ next, result = .ok next → property next) :
    property (lookup.settle result) := by
  cases result with
  | error refusal => exact hlookup
  | ok next => exact hresult next rfl

theorem settle_map_kept (hlookup : property lookup)
    {Answer : Type*} {result : Except LookupError (IterativeLookup N × Answer)}
    (hresult : ∀ next answer, result = .ok (next, answer) → property next) :
    property (lookup.settle (result.map Prod.fst)) := by
  cases result with
  | error refusal => exact hlookup
  | ok pair => exact hresult pair.1 pair.2 rfl

theorem Consistent.apply (hconsistent : Consistent lookup) {call : LookupCall N}
    (hspares : call.SparesWaiting lookup) : Consistent (call.apply lookup) := by
  cases call with
  | addKnownResult node => exact hconsistent.addKnownResult hspares
  | addCandidate node => exact hconsistent.addCandidate node
  | beginRound => exact settle_map_kept hconsistent fun _ _ hbegin =>
    hconsistent.of_sameBooks (beginRound_sameBooks hbegin)
  | takeNextCandidate => exact settle_map_kept hconsistent fun _ _ htake =>
    hconsistent.of_sameBooks (takeNextCandidate_sameBooks htake)
  | markWaiting node =>
    apply settle_kept hconsistent
    intro next hnext
    exact hconsistent.markWaiting hnext
  | record peer ending =>
    apply settle_kept hconsistent
    intro next hnext
    by_cases hwaiting : lookup.peerStates peer = some .waiting
    · obtain ⟨node, hnode, hrecord⟩ := hconsistent.record_ok hwaiting ending
      rw [hrecord, Except.ok.injEq] at hnext
      exact hnext ▸ hconsistent.endQuery hwaiting hnode ending
    · rw [Consistent.record_refused hwaiting] at hnext
      cases hnext
  | completeRound => exact settle_map_kept hconsistent fun _ _ hcomplete =>
    hconsistent.of_sameBooks (completeRound_sameBooks hcomplete)

theorem Consistent.new {target : PeerId} {config : LookupConfig}
    (hnew : IterativeLookup.new target config = .ok lookup) : Consistent lookup := by
  rw [IterativeLookup.new] at hnew
  split at hnew
  · cases hnew
  · cases hnew
    exact ⟨by simp, by simp, Nat.zero_le _, List.nodup_nil, List.nodup_nil, by simp⟩

/-- The collections agree and every active round can be completed after any sequence of
calls that declares no peer with a query in flight a known result. -/
theorem IterativeLookup.reaches_consistent {target : PeerId} {config : LookupConfig}
    {start lookup : IterativeLookup N} (hnew : IterativeLookup.new target config = .ok start)
    (hreaches : Transition.Reaches
      (fun lookup call => some (LookupCall.apply (N := N) lookup call))
      (fun lookup call => call.SparesWaiting lookup) start lookup) :
    Consistent lookup ∧ Completable lookup := by
  have hconsistent : Consistent lookup := by
    apply hreaches.invariant (Consistent.new hnew)
    rintro lookup call next hconsistent hspares ⟨⟩
    exact hconsistent.apply hspares
  exact ⟨hconsistent, hconsistent.completable⟩

/-- A lookup with a query in flight to one peer. -/
def queryingLookup : IterativeLookup PeerId :=
  [.addCandidate 40, .beginRound, .takeNextCandidate, .markWaiting 40].foldl
    LookupCall.apply exampleLookup

theorem queryingLookup_consistent :
    queryingLookup.roundActive = true ∧ queryingLookup.waitingPeers = [40] ∧
      Consistent queryingLookup ∧ Completable queryingLookup := by
  refine ⟨by decide +kernel, by decide +kernel, reaches_consistent new_exampleConfig ?_⟩
  have hqueue (lookup : IterativeLookup PeerId) :
    LookupCall.SparesWaiting lookup (.addCandidate 40) := trivial
  have hbegin (lookup : IterativeLookup PeerId) :
    LookupCall.SparesWaiting lookup .beginRound := trivial
  have htake (lookup : IterativeLookup PeerId) :
    LookupCall.SparesWaiting lookup .takeNextCandidate := trivial
  have hmark (lookup : IterativeLookup PeerId) :
    LookupCall.SparesWaiting lookup (.markWaiting 40) := trivial
  exact .tail (.tail (.tail (.tail .refl (hqueue _) rfl) (hbegin _) rfl) (htake _) rfl)
    (hmark _) rfl

/-- A peer that becomes a known result while its query is in flight stays in flight: no
end can be recorded for it, and the round cannot be completed. -/
theorem known_result_blocks_round :
    IterativeLookup.new 0 exampleConfig = .ok exampleLookup ∧
      ¬Consistent (LookupCall.apply queryingLookup (.addKnownResult 40)) ∧
      ¬Completable (LookupCall.apply queryingLookup (.addKnownResult 40)) ∧
      ∀ result, (LookupCall.apply queryingLookup (.addKnownResult 40)).completeRound ≠
        .ok result := by
  have hstate : (LookupCall.apply queryingLookup (.addKnownResult 40)).peerStates 40 =
      some .succeeded := by decide +kernel
  have hidle : (LookupCall.apply queryingLookup (.addKnownResult 40)).peerStates 40 ≠
      some .waiting := by
    rw [hstate]
    nofun
  refine ⟨new_exampleConfig, ?_, ?_, ?_⟩
  · intro hconsistent
    exact hidle ((hconsistent.inFlight 40).mp (by decide +kernel))
  · intro hcompletable
    obtain ⟨recorded, -, hrecorded, -⟩ := hcompletable (by decide +kernel) [40]
      (fun _ => .success) (by decide +kernel)
    have hrefused := Consistent.record_refused hidle .success
    rw [recordAll, foldlM_cons, hrefused] at hrecorded
    cases hrecorded
  · intro result hresult
    have hflight : (LookupCall.apply queryingLookup (.addKnownResult 40)).inFlight.isEmpty =
        false := by decide +kernel
    rw [completeRound, hflight] at hresult
    split at hresult <;> cases hresult

end SaorsaCore.Lookup
