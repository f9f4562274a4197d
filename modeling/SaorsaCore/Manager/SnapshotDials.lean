import SaorsaCore.Reachability.SelfAddress

/-!
# Dial candidates from a routing snapshot

A restarted node dials the peers of its snapshot after those that were queued before.  The
sockets queued so far are remembered from one peer to the next, so that no two peers share a
socket.  The addresses of one peer are not compared with each other: a socket that the
snapshot lists twice for a peer is dialed twice.
-/

namespace SaorsaCore.Manager

structure SnapshotPeer where
  peerId : PeerId
  addresses : List MultiAddr
  deriving DecidableEq, Repr

/-- `MAX_SNAPSHOT_ADDRESSES_DIALLED` -/
def maxSnapshotAddressesDialled : ℕ := 2

structure SnapshotDials where
  sets : List (PeerId × List MultiAddr)
  seenPeers : Finset PeerId
  seenAddresses : Finset SocketAddr

def dialableSockets (addresses : List MultiAddr) : List SocketAddr :=
  addresses.filterMap MultiAddr.dialableSocketAddr

/-- One round of the loop of `snapshot_dial_sets`. -/
def SnapshotDials.add (selfId : PeerId) (state : SnapshotDials) (peer : SnapshotPeer) :
    SnapshotDials :=
  if peer.peerId = selfId ∨ peer.peerId ∈ state.seenPeers then state
  else
    let newAddresses := (peer.addresses.filter fun address =>
      address.dialableSocketAddr.any fun socket => socket ∉ state.seenAddresses).take
        maxSnapshotAddressesDialled
    if newAddresses.isEmpty then { state with seenPeers := insert peer.peerId state.seenPeers }
    else
      { sets := state.sets ++ [(peer.peerId, newAddresses)]
        seenPeers := insert peer.peerId state.seenPeers
        seenAddresses := state.seenAddresses ∪ (dialableSockets newAddresses).toFinset }

/-- `snapshot_dial_sets`: the sets, and the seen sockets afterwards. -/
def snapshotDialSets (peers : List SnapshotPeer) (selfId : PeerId)
    (seenAddresses : Finset SocketAddr) : List (PeerId × List MultiAddr) × Finset SocketAddr :=
  let state := peers.foldl (SnapshotDials.add selfId)
    { sets := [], seenPeers := ∅, seenAddresses := seenAddresses }
  (state.sets, state.seenAddresses)

/-- What the sets are: different peers without the node itself, sockets that were not seen
and that no two peers share, and the seen sockets extended by those of the sets. -/
structure IsSnapshotDial (peers : List SnapshotPeer) (selfId : PeerId)
    (seen : Finset SocketAddr) (sets : List (PeerId × List MultiAddr))
    (after : Finset SocketAddr) : Prop where
  disjoint : sets.Pairwise fun left right =>
    (dialableSockets left.2).Disjoint (dialableSockets right.2)
  listed : ∀ set ∈ sets, ∃ peer ∈ peers, peer.peerId = set.1 ∧ ∀ socket,
    (dialableSockets set.2).count socket ≤ (dialableSockets peer.addresses).count socket
  unseen : ∀ set ∈ sets, ∀ socket ∈ dialableSockets set.2, socket ∉ seen
  nodup : (sets.map Prod.fst).Nodup
  others : selfId ∉ sets.map Prod.fst
  bounded : ∀ set ∈ sets, 1 ≤ set.2.length ∧ set.2.length ≤ maxSnapshotAddressesDialled
  after_eq : after = seen ∪ (sets.flatMap fun set => dialableSockets set.2).toFinset

variable {peers : List SnapshotPeer} {selfId : PeerId} {seen : Finset SocketAddr}

/-- A round keeps it, and that the peers of the sets are among those seen. -/
theorem SnapshotDials.add_isSnapshotDial {state : SnapshotDials} {peer : SnapshotPeer}
    (hstate : IsSnapshotDial peers selfId seen state.sets state.seenAddresses)
    (hknown : ∀ set ∈ state.sets, set.1 ∈ state.seenPeers) (hpeer : peer ∈ peers) :
    IsSnapshotDial peers selfId seen (state.add selfId peer).sets
        (state.add selfId peer).seenAddresses ∧
      ∀ set ∈ (state.add selfId peer).sets, set.1 ∈ (state.add selfId peer).seenPeers := by
  rw [SnapshotDials.add]
  split
  · exact ⟨hstate, hknown⟩
  · next hnew =>
    rw [not_or] at hnew
    have hinsert : ∀ set ∈ state.sets, set.1 ∈ insert peer.peerId state.seenPeers :=
      fun set hset => Finset.mem_insert_of_mem (hknown set hset)
    simp only
    split
    · exact ⟨hstate, hinsert⟩
    · next hsome =>
      generalize hchosen : (peer.addresses.filter fun address =>
        address.dialableSocketAddr.any fun socket => socket ∉ state.seenAddresses).take
          maxSnapshotAddressesDialled = chosen at hsome ⊢
      have hsublist : chosen.Sublist peer.addresses := by
        rw [← hchosen]
        exact (List.take_sublist _ _).trans List.filter_sublist
      have hfresh : ∀ socket ∈ dialableSockets chosen, socket ∉ state.seenAddresses := by
        intro socket hsocket
        obtain ⟨address, haddress, hdialable⟩ := List.mem_filterMap.mp hsocket
        rw [← hchosen] at haddress
        simpa [hdialable] using (List.mem_filter.mp (List.mem_of_mem_take haddress)).2
      have hlength : chosen.length ≤ maxSnapshotAddressesDialled := by
        rw [← hchosen]
        exact List.length_take_le _ _
      have hqueued : ∀ set ∈ state.sets, ∀ socket ∈ dialableSockets set.2,
          socket ∈ state.seenAddresses := by
        intro set hset socket hsocket
        rw [hstate.after_eq, Finset.mem_union, List.mem_toFinset]
        exact .inr (List.mem_flatMap.mpr ⟨set, hset, hsocket⟩)
      have hdifferent : ∀ set ∈ state.sets, set.1 ≠ peer.peerId := by
        rintro set hset heq
        exact hnew.2 (heq ▸ hknown set hset)
      refine ⟨⟨?_, ?_, ?_, ?_, ?_, ?_, ?_⟩, ?_⟩
      · rw [List.pairwise_append]
        refine ⟨hstate.disjoint, List.pairwise_singleton _ _, ?_⟩
        simp only [List.mem_singleton, forall_eq]
        intro set hset socket hsocket hagain
        exact hfresh socket hagain (hqueued set hset socket hsocket)
      · simp only [List.forall_mem_append, List.forall_mem_singleton]
        exact ⟨hstate.listed, peer, hpeer, rfl, fun socket =>
          (hsublist.filterMap _).count_le socket⟩
      · simp only [List.forall_mem_append, List.forall_mem_singleton]
        refine ⟨hstate.unseen, fun socket hsocket hseen => hfresh socket hsocket ?_⟩
        rw [hstate.after_eq]
        exact Finset.mem_union_left _ hseen
      · rw [List.map_append, List.map_singleton, ← List.concat_eq_append]
        apply hstate.nodup.concat
        simpa using fun addresses hset => hdifferent _ hset rfl
      · rw [List.map_append, List.mem_append, not_or]
        exact ⟨hstate.others, by simpa using fun heq => hnew.1 heq.symm⟩
      · simp only [List.forall_mem_append, List.forall_mem_singleton]
        refine ⟨hstate.bounded, ?_, hlength⟩
        rw [List.isEmpty_iff] at hsome
        exact List.length_pos_iff.mpr hsome
      · rw [hstate.after_eq, List.flatMap_append, List.toFinset_append, Finset.union_assoc]
        simp
      · simp only [List.forall_mem_append, List.forall_mem_singleton]
        exact ⟨hinsert, Finset.mem_insert_self _ _⟩

/-- The sets share no socket, with each other or with those queued before; within the set of
one peer a socket occurs no more often than the snapshot lists it for the peer. -/
theorem snapshotDialSets_isSnapshotDial (peers : List SnapshotPeer) (selfId : PeerId)
    (seen : Finset SocketAddr) :
    IsSnapshotDial peers selfId seen (snapshotDialSets peers selfId seen).1
      (snapshotDialSets peers selfId seen).2 := by
  have hrun := List.foldlRecOn (motive := fun state : SnapshotDials =>
      IsSnapshotDial peers selfId seen state.sets state.seenAddresses ∧
        ∀ set ∈ state.sets, set.1 ∈ state.seenPeers) peers (SnapshotDials.add selfId)
    (b := { sets := [], seenPeers := ∅, seenAddresses := seen })
    ⟨⟨.nil, by simp, by simp, by simp, by simp, by simp, by simp⟩, by simp⟩
    (fun state hstate peer hpeer => SnapshotDials.add_isSnapshotDial hstate.1 hstate.2 hpeer)
  exact hrun.1

/-- One endpoint, with and without the peer's name. -/
theorem snapshotDialSets_repeats_socket :
    (snapshotDialSets [⟨1, [⟨.quic (.v4 0x05050505 1), none⟩, ⟨.quic (.v4 0x05050505 1), some 1⟩]⟩]
      0 ∅).1.flatMap (fun set => dialableSockets set.2) =
        [.v4 0x05050505 1, .v4 0x05050505 1] := by
  decide +kernel

end SaorsaCore.Manager
