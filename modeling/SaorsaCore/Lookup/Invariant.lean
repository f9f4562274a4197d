import SaorsaCore.Lookup.Runner

/-!
# The books of a lookup

A ledger lists the peers a walk has dealt with: known results, queried peers, those
whose query succeeded, candidates declared ineligible, and the changes of the queue.
`Accounts` says that the state machine agrees with its ledger.  Each operation of
the runner keeps the agreement, with one more entry in the ledger.
-/

namespace SaorsaCore.Lookup

open List OrderedBy IterativeLookup KeyedList Function

structure Ledger where
  known : List PeerId
  queried : List PeerId
  succeeded : List PeerId
  ineligible : List PeerId
  log : QueueLog

variable {N : Type*} [LookupNode N]

namespace IterativeLookup

/-- The peers in the queue. -/
def queuedPeers (lookup : IterativeLookup N) : List PeerId :=
  lookup.candidates.values.map lookupPeerId

/-- The state after the head of the queue became a query in flight. -/
def startQuery (lookup : IterativeLookup N) (node : N) : IterativeLookup N :=
  { lookup with
    candidates := lookup.candidates.dropFirst
    peerStates :=
      Function.update lookup.peerStates (lookupPeerId node) (some .waiting)
    queryOrder := lookup.queryOrder ++ [lookupPeerId node]
    inFlight := KeyedList.remove lookupPeerId (lookupPeerId node)
      lookup.inFlight ++ [node]
    roundQueries := lookup.roundQueries + 1 }

end IterativeLookup

theorem distanceTo_injective {target : PeerId} {left right : N}
    (hdistance : distanceTo target left = distanceTo target right) :
    lookupPeerId left = lookupPeerId right :=
  xorDistance_left_injective target hdistance

theorem mem_peers_insert_iff {target : PeerId}
    {candidates : OrderedBy (distanceTo (N := N) target)} {node : N}
    {peer : PeerId} :
    peer ∈ (candidates.insert node).values.map lookupPeerId ↔
      peer = lookupPeerId node ∨ peer ∈ candidates.values.map lookupPeerId := by
  simp only [List.mem_map, OrderedBy.mem_insert_iff]
  constructor
  · rintro ⟨other, rfl | ⟨hmem, -⟩, rfl⟩
    · exact Or.inl rfl
    · exact Or.inr ⟨other, hmem, rfl⟩
  · rintro (rfl | ⟨other, hmem, rfl⟩)
    · exact ⟨node, Or.inl rfl, rfl⟩
    · by_cases hdistance : distanceTo target other = distanceTo target node
      · exact ⟨node, Or.inl rfl, (distanceTo_injective hdistance).symm⟩
      · exact ⟨other, Or.inr ⟨hmem, hdistance⟩, rfl⟩

/-- The state machine agrees with the ledger.  Every peer that ever entered the
queue is accounted for. -/
structure Accounts (ledger : Ledger) (lookup : IterativeLookup N) : Prop where
  queryOrder : lookup.queryOrder = ledger.queried
  nodup : (ledger.known ++ ledger.queried).Nodup
  contacted : ∀ peer, (lookup.peerStates peer).isSome ↔ peer ∈ ledger.known ∨ peer ∈ ledger.queried
  successful : lookup.successful.map lookupPeerId = ledger.known ++ ledger.succeeded
  nodup_successful : (ledger.known ++ ledger.succeeded).Nodup
  succeeded : ∀ peer, lookup.peerStates peer = some .succeeded ↔
    peer ∈ ledger.known ∨ peer ∈ ledger.succeeded
  waiting : ∀ peer, peer ∈ lookup.inFlight.map lookupPeerId ↔ lookup.peerStates peer = some .waiting
  fresh : ∀ node ∈ lookup.candidates.values, lookup.peerStates (lookupPeerId node) = none
  entered : ∀ peer ∈ ledger.log.entered, peer ∈ lookup.queuedPeers ∨
    peer ∈ ledger.known ∨ peer ∈ ledger.queried ∨ peer ∈ ledger.ineligible ∨
      peer ∈ ledger.log.evicted

/-- What the operations inside a round leave alone. -/
structure Frame (before after : IterativeLookup N) : Prop where
  target : after.target = before.target
  config : after.config = before.config
  iterations : after.iterations = before.iterations
  roundActive : after.roundActive = before.roundActive
  previousTopK : after.previousTopK = before.previousTopK
  termination : after.termination = before.termination

theorem Frame.refl (lookup : IterativeLookup N) : Frame lookup lookup :=
  ⟨rfl, rfl, rfl, rfl, rfl, rfl⟩

theorem Frame.trans {before middle after : IterativeLookup N}
    (hfirst : Frame before middle) (hsecond : Frame middle after) :
    Frame before after where
  target := hsecond.target.trans hfirst.target
  config := hsecond.config.trans hfirst.config
  iterations := hsecond.iterations.trans hfirst.iterations
  roundActive := hsecond.roundActive.trans hfirst.roundActive
  previousTopK := hsecond.previousTopK.trans hfirst.previousTopK
  termination := hsecond.termination.trans hfirst.termination

namespace Accounts

variable {ledger : Ledger} {lookup : IterativeLookup N} {node : N}
  {peer : PeerId}

/-- Nobody in the queue was contacted, so there is nothing to discard. -/
theorem discardContactedCandidates_eq (haccounts : Accounts ledger lookup) :
    lookup.discardContactedCandidates = lookup := by
  have hretain : lookup.candidates.retain (fun node =>
      lookup.isContactable (lookupPeerId node)) = lookup.candidates := by
    apply retain_eq_self
    intro node hnode
    rw [isContactable, haccounts.fresh node hnode]
    rfl
  rw [discardContactedCandidates, hretain]

theorem mem_successful_iff (haccounts : Accounts ledger lookup) (peer : PeerId) :
    (KeyedList.lookup lookupPeerId peer lookup.successful).isSome ↔
      lookup.peerStates peer = some .succeeded := by
  rw [isSome_lookup_iff, haccounts.successful, mem_append, haccounts.succeeded]

/-! ## The queue -/

section

variable (haccounts : Accounts ledger lookup)
include haccounts

/-- The candidates may change as long as only fresh peers are queued and nobody
drops out of the books. -/
theorem withCandidates
    {candidates : OrderedBy (distanceTo (N := N) lookup.target)}
    {ineligible : List PeerId} {log : QueueLog}
    (hfresh : ∀ node ∈ candidates.values, lookup.peerStates (lookupPeerId node) = none)
    (hentered : ∀ peer ∈ log.entered,
      peer ∈ candidates.values.map lookupPeerId ∨ peer ∈ ledger.known ∨
        peer ∈ ledger.queried ∨ peer ∈ ineligible ∨ peer ∈ log.evicted) :
    Accounts { ledger with
      ineligible := ineligible
      log := log } { lookup with candidates := candidates } where
  queryOrder := haccounts.queryOrder
  nodup := haccounts.nodup
  contacted := haccounts.contacted
  successful := haccounts.successful
  nodup_successful := haccounts.nodup_successful
  succeeded := haccounts.succeeded
  waiting := haccounts.waiting
  fresh := hfresh
  entered := hentered

/-- Inserting a fresh node in place of some evicted peers. -/
theorem insertCandidate (hnode : lookup.peerStates (lookupPeerId node) = none)
    {kept : OrderedBy (distanceTo (N := N) lookup.target)} {evicted : List PeerId}
    (hkept : kept.values ⊆ lookup.candidates.values)
    (hevicted : ∀ peer ∈ lookup.queuedPeers, peer ∈ kept.values.map lookupPeerId ∨ peer ∈ evicted) :
    Accounts { ledger with
      log := ledger.log.append ⟨[lookupPeerId node], evicted⟩ }
        { lookup with candidates := kept.insert node } := by
  apply haccounts.withCandidates
  · intro other hother
    rcases mem_insert_iff.mp hother with rfl | ⟨hmem, -⟩
    · exact hnode
    · exact haccounts.fresh other (hkept hmem)
  · intro peer hpeer
    simp only [QueueLog.append, mem_append, mem_singleton, mem_peers_insert_iff] at hpeer ⊢
    rcases hpeer with hold | rfl
    · rcases haccounts.entered peer hold with hqueued | hknown | hqueried | hineligible | hgone
      · rcases hevicted peer hqueued with hstill | hout
        · exact Or.inl (Or.inr hstill)
        · exact Or.inr (Or.inr (Or.inr (Or.inr (Or.inr hout))))
      · exact Or.inr (Or.inl hknown)
      · exact Or.inr (Or.inr (Or.inl hqueried))
      · exact Or.inr (Or.inr (Or.inr (Or.inl hineligible)))
      · exact Or.inr (Or.inr (Or.inr (Or.inr (Or.inl hgone))))
    · exact Or.inl (Or.inl rfl)

theorem append_empty_log : Accounts { ledger with log := ledger.log.append .empty } lookup := by
  have hlog : ledger.log.append .empty = ledger.log := by
    simp [QueueLog.append, QueueLog.empty]
  rw [hlog]
  exact haccounts

theorem addCandidate (node : N) : Accounts { ledger with
      log := ledger.log.append (QueueLog.ofInsertion (lookupPeerId node)
        (lookup.addCandidate node).2) } (lookup.addCandidate node).1 := by
  rw [IterativeLookup.addCandidate]
  split
  · exact haccounts.append_empty_log
  · next hcontactable =>
      have hnode : lookup.peerStates (lookupPeerId node) = none := by
        simpa [IterativeLookup.isContactable] using hcontactable
      have hall : ∀ peer ∈ lookup.queuedPeers, peer ∈ lookup.candidates.values.map lookupPeerId ∨
            peer ∈ ([] : List PeerId) := fun _ hpeer => Or.inl hpeer
      split
      · exact haccounts.insertCandidate hnode (List.Subset.refl _) hall
      · split
        · split
          · exact haccounts.append_empty_log
          · next farthest hfarthest =>
              split
              · exact haccounts.append_empty_log
              · apply haccounts.insertCandidate hnode
                · intro other hother
                  exact OrderedBy.mem_of_mem_dropLast hother
                · intro peer hpeer
                  obtain ⟨other, hother, rfl⟩ := List.mem_map.mp hpeer
                  rcases OrderedBy.mem_dropLast_or_eq hfarthest hother with
                    hkept | rfl
                  · exact Or.inl (List.mem_map_of_mem hkept)
                  · exact Or.inr (by simp)
        · exact haccounts.insertCandidate hnode (List.Subset.refl _) hall

end

/-! ## Selection -/

theorem takeNextCandidate_eq (haccounts : Accounts ledger lookup)
    (hactive : lookup.roundActive = true) :
    lookup.takeNextCandidate = if lookup.config.alpha ≤ lookup.roundQueries then .ok (lookup, none)
      else .ok ({ lookup with candidates := lookup.candidates.dropFirst },
        lookup.candidates.values.head?) := by
  rw [takeNextCandidate, if_neg (by simp [hactive]), haccounts.discardContactedCandidates_eq]

variable {rest : List N}

section

variable (haccounts : Accounts ledger lookup)
include haccounts

/-- A candidate that is taken and not queried was declared ineligible. -/
theorem dropIneligible (hqueue : lookup.candidates.values = node :: rest) :
    Accounts { ledger with
      ineligible := ledger.ineligible ++ [lookupPeerId node] }
        { lookup with candidates := lookup.candidates.dropFirst } := by
  have htail : lookup.candidates.dropFirst.values = rest := by
    rw [values_dropFirst, hqueue, tail_cons]
  apply haccounts.withCandidates
  · intro other hother
    apply haccounts.fresh
    rw [hqueue]
    exact mem_cons_of_mem node (htail ▸ hother)
  · intro peer hpeer
    rw [htail, mem_append, mem_singleton]
    rcases haccounts.entered peer hpeer with hqueued | hknown | hqueried |
      hineligible | hevicted
    · rw [queuedPeers, hqueue, map_cons, mem_cons] at hqueued
      rcases hqueued with rfl | hrest
      · exact Or.inr (Or.inr (Or.inr (Or.inl (Or.inr rfl))))
      · exact Or.inl hrest
    · exact Or.inr (Or.inl hknown)
    · exact Or.inr (Or.inr (Or.inl hqueried))
    · exact Or.inr (Or.inr (Or.inr (Or.inl (Or.inl hineligible))))
    · exact Or.inr (Or.inr (Or.inr (Or.inr hevicted)))

theorem markWaiting_eq
    (hqueue : lookup.candidates.values = node :: rest) (hactive : lookup.roundActive = true)
    (hroom : lookup.roundQueries < lookup.config.alpha) :
    ({ lookup with candidates := lookup.candidates.dropFirst } :
      IterativeLookup N).markWaiting node = .ok (lookup.startQuery node) := by
  have hfresh := haccounts.fresh node (hqueue ▸ mem_cons_self)
  rw [markWaiting, if_neg (by simp [hactive]), if_neg (Nat.not_le.mpr hroom),
    if_neg (by simp [isContactable, hfresh])]
  rfl

theorem not_mem_of_fresh (hfresh : lookup.peerStates peer = none) :
    peer ∉ ledger.known ∧ peer ∉ ledger.queried ∧ peer ∉ ledger.succeeded := by
  have hcontacted := haccounts.contacted peer
  have hsucceeded := haccounts.succeeded peer
  rw [hfresh] at hcontacted hsucceeded
  refine ⟨fun hknown => ?_, fun hqueried => ?_, fun hdone => ?_⟩
  · cases hcontacted.mpr (Or.inl hknown)
  · cases hcontacted.mpr (Or.inr hqueried)
  · cases hsucceeded.mpr (Or.inr hdone)

theorem startQuery (hqueue : lookup.candidates.values = node :: rest) :
    Accounts { ledger with queried := ledger.queried ++ [lookupPeerId node] }
      (lookup.startQuery node) := by
  have hfresh := haccounts.fresh node (hqueue ▸ List.mem_cons_self)
  obtain ⟨hknown, hqueried, hsucceeded⟩ := haccounts.not_mem_of_fresh hfresh
  have hsorted := lookup.candidates.sorted
  rw [hqueue] at hsorted
  exact
    { queryOrder := by rw [IterativeLookup.startQuery, haccounts.queryOrder]
      nodup := by
        rw [← List.append_assoc]
        apply List.nodup_append_comm.mp
        apply List.nodup_cons.mpr
        exact ⟨by simp [hknown, hqueried], haccounts.nodup⟩
      contacted := by
        intro peer
        by_cases hpeer : peer = lookupPeerId node
        · simp [IterativeLookup.startQuery, hpeer]
        · simp [IterativeLookup.startQuery, hpeer, haccounts.contacted peer]
      successful := haccounts.successful
      nodup_successful := haccounts.nodup_successful
      succeeded := by
        intro peer
        by_cases hpeer : peer = lookupPeerId node
        · simp [IterativeLookup.startQuery, hpeer, hknown, hsucceeded]
        · simp [IterativeLookup.startQuery, hpeer, haccounts.succeeded peer]
      waiting := by
        intro peer
        rw [IterativeLookup.startQuery, List.map_append, List.mem_append,
          List.map_singleton, List.mem_singleton]
        by_cases hpeer : peer = lookupPeerId node
        · simp [hpeer]
        · simp only [update_of_ne hpeer, ← haccounts.waiting peer,
            List.mem_map, KeyedList.mem_remove, hpeer, or_false]
          constructor
          · rintro ⟨other, ⟨hmem, -⟩, rfl⟩
            exact ⟨other, hmem, rfl⟩
          · rintro ⟨other, hmem, rfl⟩
            exact ⟨other, ⟨hmem, hpeer⟩, rfl⟩
      fresh := by
        intro other hother
        have hrest : other ∈ rest := by
          simpa [IterativeLookup.startQuery, hqueue] using hother
        have hne : lookupPeerId other ≠ lookupPeerId node := by
          intro hid
          have hless := (List.pairwise_cons.mp hsorted).1 other hrest
          rw [distanceTo, distanceTo, hid] at hless
          exact lt_irrefl _ hless
        exact (update_of_ne hne _ _).trans
          (haccounts.fresh other (hqueue ▸ List.mem_cons_of_mem node hrest))
      entered := by
        intro peer hpeer
        have hold := haccounts.entered peer hpeer
        simp only [IterativeLookup.queuedPeers, IterativeLookup.startQuery, hqueue,
          OrderedBy.values_dropFirst, List.tail_cons, List.map_cons,
          List.mem_cons, List.mem_append] at hold ⊢
        tauto }

end

/-! ## Outcomes -/

section

variable (haccounts : Accounts ledger lookup) (hwaiting : lookup.peerStates peer = some .waiting)
include haccounts hwaiting

/-- A waiting peer is taken out of the queries in flight. -/
theorem takeWaiting_eq : ∃ node, lookupPeerId node = peer ∧
      lookup.takeWaiting peer = .ok ({ lookup with
        inFlight := KeyedList.remove lookupPeerId peer lookup.inFlight }, node) := by
  have hflight := isSome_lookup_iff.mpr ((haccounts.waiting peer).mpr hwaiting)
  obtain ⟨node, hnode⟩ := Option.isSome_iff_exists.mp hflight
  refine ⟨node, key_of_lookup hnode, ?_⟩
  rw [takeWaiting, if_neg (by simp [hwaiting]), hnode]

/-- A query in flight ends with a state other than waiting. -/
theorem endQuery {state : LookupPeerState} (hstate : state ≠ .waiting)
    {successful : List N} {succeeded : List PeerId}
    (hsuccessful : successful.map lookupPeerId = ledger.known ++ succeeded)
    (hnodup : (ledger.known ++ succeeded).Nodup)
    (hsucceeded : ∀ other, other ∈ ledger.known ∨ other ∈ succeeded ↔
      if other = peer then state = .succeeded
      else other ∈ ledger.known ∨ other ∈ ledger.succeeded) :
    Accounts { ledger with succeeded := succeeded }
      { lookup with
        inFlight := KeyedList.remove lookupPeerId peer lookup.inFlight
        peerStates := update lookup.peerStates peer (some state)
        successful := successful } where
  queryOrder := haccounts.queryOrder
  nodup := haccounts.nodup
  contacted other := by
    by_cases hother : other = peer
    · have hcontacted := (haccounts.contacted peer).mp (by rw [hwaiting]; rfl)
      simp [hother, hcontacted]
    · simp [hother, haccounts.contacted other]
  successful := hsuccessful
  nodup_successful := hnodup
  succeeded other := by
    rw [hsucceeded other]
    by_cases hother : other = peer
    · simp [hother]
    · simp [hother, haccounts.succeeded other]
  waiting other := by
    by_cases hother : other = peer
    · simp [hother, hstate, mem_remove]
    · simp only [update_of_ne hother, ← haccounts.waiting other, mem_map, mem_remove]
      constructor
      · rintro ⟨node, ⟨hmem, -⟩, rfl⟩
        exact ⟨node, hmem, rfl⟩
      · rintro ⟨node, hmem, rfl⟩
        exact ⟨node, ⟨hmem, hother⟩, rfl⟩
  fresh node hnode := by
    have hfresh := haccounts.fresh node hnode
    have hne : lookupPeerId node ≠ peer := by
      intro heq
      rw [heq, hwaiting] at hfresh
      cases hfresh
    exact (update_of_ne hne _ _).trans hfresh
  entered := haccounts.entered

/-- A query that fails or is given up leaves the ledger as it is. -/
theorem endWithoutSuccess {state : LookupPeerState}
    (hstate : state ≠ .waiting) (hfailed : state ≠ .succeeded) :
    Accounts ledger { lookup with
      inFlight := KeyedList.remove lookupPeerId peer lookup.inFlight
      peerStates := update lookup.peerStates peer (some state) } := by
  apply haccounts.endQuery hwaiting hstate haccounts.successful haccounts.nodup_successful
  intro other
  split
  · next hother =>
      have hnot := haccounts.succeeded other
      rw [hother, hwaiting] at hnot
      rw [hother]
      simpa [hfailed] using hnot
  · rfl

end

theorem endWithSuccess (haccounts : Accounts ledger lookup)
    (hwaiting : lookup.peerStates (lookupPeerId node) = some .waiting) :
    Accounts { ledger with succeeded := ledger.succeeded ++ [lookupPeerId node] }
      { lookup with
        inFlight := KeyedList.remove lookupPeerId (lookupPeerId node)
          lookup.inFlight
        peerStates :=
          update lookup.peerStates (lookupPeerId node) (some .succeeded)
        successful := lookup.retainSuccess node } := by
  have hnew := haccounts.succeeded (lookupPeerId node)
  rw [hwaiting] at hnew
  have hretain : lookup.retainSuccess node = lookup.successful ++ [node] := by
    rw [retainSuccess, if_neg]
    rw [haccounts.mem_successful_iff, hwaiting]
    simp
  apply haccounts.endQuery hwaiting (by simp)
  · rw [hretain, map_append, haccounts.successful, append_assoc]
    rfl
  · rw [← append_assoc]
    apply nodup_append_comm.mp
    apply nodup_cons.mpr
    exact ⟨by simpa using hnew, haccounts.nodup_successful⟩
  · intro other
    rw [mem_append, mem_singleton]
    by_cases hother : other = lookupPeerId node
    · simp [hother]
    · simp [hother]

end Accounts

/-! ## One outcome -/

/-- The query of one waiting peer has ended. -/
structure Ended (peer : PeerId) (before after : IterativeLookup N) : Prop where
  frame : Frame before after
  waiting : ∀ other, after.peerStates other = some .waiting ↔
    other ≠ peer ∧ before.peerStates other = some .waiting

section Records

variable {ledger : Ledger} {lookup : IterativeLookup N} {peer : PeerId}

theorem waiting_update {states : PeerId → Option LookupPeerState}
    {state : LookupPeerState} (hstate : state ≠ .waiting) (other : PeerId) :
    update states peer (some state) other = some .waiting ↔
      other ≠ peer ∧ states other = some .waiting := by
  by_cases hother : other = peer
  · simp [hother, hstate]
  · simp [hother]

variable (haccounts : Accounts ledger lookup) (hwaiting : lookup.peerStates peer = some .waiting)
include haccounts hwaiting

theorem recordSuccess_spec : ∃ recorded, lookup.recordSuccess peer = .ok recorded ∧
      Accounts { ledger with succeeded := ledger.succeeded ++ [peer] } recorded ∧
      Ended peer lookup recorded := by
  obtain ⟨node, rfl, htake⟩ := haccounts.takeWaiting_eq hwaiting
  refine ⟨_, by rw [recordSuccess, htake]; rfl,
    haccounts.endWithSuccess hwaiting, ⟨⟨rfl, rfl, rfl, rfl, rfl, rfl⟩, ?_⟩⟩
  exact waiting_update (by simp)

theorem recordFailure_spec : ∃ recorded, lookup.recordFailure peer = .ok recorded ∧
      Accounts ledger recorded ∧ Ended peer lookup recorded := by
  obtain ⟨node, -, htake⟩ := haccounts.takeWaiting_eq hwaiting
  refine ⟨_, by rw [recordFailure, htake]; rfl,
    haccounts.endWithoutSuccess hwaiting (by simp) (by simp),
    ⟨⟨rfl, rfl, rfl, rfl, rfl, rfl⟩, ?_⟩⟩
  exact waiting_update (by simp)

theorem recordUnresponsive_spec : ∃ recorded, lookup.recordUnresponsive peer = .ok recorded ∧
      Accounts ledger recorded ∧ Ended peer lookup recorded := by
  obtain ⟨node, -, htake⟩ := haccounts.takeWaiting_eq hwaiting
  refine ⟨_, by rw [recordUnresponsive, htake]; rfl,
    haccounts.endWithoutSuccess hwaiting (by simp) (by simp),
    ⟨⟨rfl, rfl, rfl, rfl, rfl, rfl⟩, ?_⟩⟩
  exact waiting_update (by simp)

end Records

end SaorsaCore.Lookup
