import SaorsaCore.Manager.Correlation
import SaorsaCore.Routing.Diversity

/-!
# The peers in an answer to FIND_NODE

The answer is cut to the `K` closest peers before the requester is taken out of it.  A
requester that is among the `K` closest leaves a gap, which no other peer fills, so the
answer is one peer short whenever the table has more than `K` peers.

The answer is composed over several visits to the store.  Which peers it has is settled
by the first visit; the later ones only replace their addresses.
-/

namespace SaorsaCore.Manager

open Routing Closest List DHTNode NodeInfo

section Answer

variable {Score : Type} (config : ManagerConfig Score)

def filterResponseNodes (candidates : List (DHTNode Score)) (requester : PeerId) :
    List (DHTNode Score) :=
  candidates.filter fun node => node.peerId ≠ requester

def findNodeAnswer (key requester : PeerId) : StoreTask (List (DHTNode Score)) := do
  let candidates ← findClosestNodesLocal config key config.engine.kValue
  return filterResponseNodes candidates requester

/-- The peers of a table in the order of their distance from the key, up to `count`. -/
def closestPeers (table : RoutingTable) (key : PeerId) (count : ℕ) : List PeerId :=
  closest (fun peer => xorDistance peer key) count (table.allNodes.map NodeInfo.id)

/-- The answer that the documentation promises: the peers other than the requester in the
order of their distance from the key, up to `count`. -/
def closestOthers (table : RoutingTable) (key requester : PeerId) (count : ℕ) : List PeerId :=
  closest (fun peer => xorDistance peer key) count
    ((table.allNodes.map NodeInfo.id).filter fun peer => peer ≠ requester)

variable {config} {key requester : PeerId} {found : ℕ → AddressStore}

theorem peerId_ownerView (table : RoutingTable) (hint : DHTNode Score) :
    (ownerView table hint).peerId = hint.peerId := by
  rw [ownerView]
  split <;> rfl

/-- Owner views replace no peer. -/
theorem peerIds_protectOwnerViews (nodes : List (DHTNode Score)) :
    ((protectOwnerViews nodes).answer found).map DHTNode.peerId = nodes.map DHTNode.peerId := by
  apply Task.map_answer_collect
  intro node found
  exact congrArg some (peerId_ownerView (found 0).table node)

theorem map_id_findClosestNodes (table : RoutingTable) (count : ℕ) :
    (table.findClosestNodes key count).map NodeInfo.id = closestPeers table key count :=
  map_closest (fun peer => xorDistance peer key) NodeInfo.id count table.allNodes

/-- The first visit to the store settles the peers. -/
theorem peerIds_findClosestNodesLocal {k : ℕ} (count : ℕ)
    (hvalid : (found 0).table.Valid config.peerId k) :
    ((findClosestNodesLocal config key count).answer found).map DHTNode.peerId =
      closestPeers (found 0).table key count := by
  have hothers : ((found 0).table.findClosestNodes key count).filter
      (fun node => node.id ≠ config.peerId) = (found 0).table.findClosestNodes key count := by
    apply List.filter_eq_self.mpr
    intro node hnode
    have hmem : node ∈ (found 0).table.allNodes :=
      (List.perm_insertionSort _ _).mem_iff.mp (List.mem_of_mem_take hnode)
    simpa using hvalid.wellFormed.self_absent node hmem
  calc ((findClosestNodesLocal config key count).answer found).map DHTNode.peerId
      = ((((found 0).table.findClosestNodes key count).filter
          fun node => node.id ≠ config.peerId).map
            (routingNode config (found 0).table)).map DHTNode.peerId :=
        peerIds_protectOwnerViews _
    _ = ((found 0).table.findClosestNodes key count).map NodeInfo.id := by
        rw [hothers, List.map_map]
        rfl
    _ = closestPeers (found 0).table key count := map_id_findClosestNodes _ count

theorem peerIds_findNodeAnswer {k : ℕ} (hvalid : (found 0).table.Valid config.peerId k) :
    ((findNodeAnswer config key requester).answer found).map DHTNode.peerId =
      (closestPeers (found 0).table key config.engine.kValue).filter
        fun peer => peer ≠ requester := by
  obtain ⟨actions, hanswer⟩ := Task.answer_bind
    (findClosestNodesLocal config key config.engine.kValue)
    (fun candidates => .done (filterResponseNodes candidates requester)) found
  have hfilter (nodes : List (DHTNode Score)) : (filterResponseNodes nodes requester).map peerId =
        (nodes.map peerId).filter fun peer => peer ≠ requester := by
    rw [filterResponseNodes, filter_map]
    rfl
  rw [← peerIds_findClosestNodesLocal config.engine.kValue hvalid, ← hfilter]
  exact congrArg (map peerId) hanswer

end Answer

/-- An answer to FIND_NODE has the `K` closest peers other than the requester exactly when
the requester is not in the table, when `K` peers of the table are closer to the key than
the requester, or when the table has no more than `K` peers. -/
theorem findNodeAnswer_eq_closestOthers_iff {Score : Type} (config : ManagerConfig Score)
    {k : ℕ} (key requester : PeerId) {found : ℕ → AddressStore}
    (hvalid : (found 0).table.Valid config.peerId k) :
    ((findNodeAnswer config key requester).answer found).map DHTNode.peerId =
        closestOthers (found 0).table key requester config.engine.kValue ↔
      requester ∉ (found 0).table.allNodes.map NodeInfo.id ∨
        config.engine.kValue ≤ ((found 0).table.allNodes.countP fun node =>
          decide (xorDistance node.id key < xorDistance requester key)) ∨
        (found 0).table.allNodes.length ≤ config.engine.kValue := by
  have hnodup : (((found 0).table.allNodes.map NodeInfo.id).map fun peer =>
      xorDistance peer key).Nodup :=
    hvalid.nodup_allNodes_ids.map (xorDistance_left_injective key)
  have hcloser : rank (fun peer => xorDistance peer key)
      ((found 0).table.allNodes.map NodeInfo.id) requester =
        (found 0).table.allNodes.countP fun node =>
          decide (xorDistance node.id key < xorDistance requester key) := by
    rw [rank, List.countP_map]
    rfl
  rw [peerIds_findNodeAnswer hvalid, closestPeers, closestOthers,
    closest_filter_ne_iff hnodup, mem_closest_iff hnodup, hcloser, not_and_or, not_lt,
    List.length_map, or_assoc]

/-! Five peers are in the table and `K = 4`.  Peer `8` asks for its own neighbourhood and
is told about three others, although a fourth is known as well.  Peer `128` asks for the
same key and is told about all four others. -/

section Example

private def fiveKnown : RoutingTable :=
  (RoutingTable.new 0 4 0).run { decode := fun _ => none } (EngineConfig.withDefaults 4)
    ([exampleNode 8 [0xcb007101], exampleNode 16 [0xcb007201], exampleNode 32 [0xcb007301],
      exampleNode 64 [0xcb007401], exampleNode 128 [0xcb007501]].map fun node =>
        .admission (HashOrder.insertion _) { trustScore := fun _ => 50, now := 0 } node)

private def knownStore : ℕ → AddressStore := fun _ =>
  { table := fiveKnown
    context := { localWanIps := [] }
    now := 0
    statements := [] }

private theorem fiveKnown_valid : fiveKnown.Valid lonelyManager.peerId 4 :=
  RoutingTable.run_valid _ _ _ (RoutingTable.Valid.new 0 4 0)

theorem findNodeAnswer_one_short :
    ((findNodeAnswer lonelyManager 8 8).answer knownStore).map DHTNode.peerId = [16, 32, 64] ∧
      closestOthers fiveKnown 8 8 lonelyManager.engine.kValue = [16, 32, 64, 128] := by
  decide +kernel

theorem findNodeAnswer_of_far_requester :
    ((findNodeAnswer lonelyManager 8 128).answer knownStore).map DHTNode.peerId =
      closestOthers fiveKnown 8 128 lonelyManager.engine.kValue := by
  apply (findNodeAnswer_eq_closestOthers_iff lonelyManager 8 128 fiveKnown_valid).mpr
  apply Or.inr
  apply Or.inl
  decide +kernel

end Example

/-! ## With this node among the candidates -/

def findNodesWithSelf (table : RoutingTable) (key : PeerId) (count now : ℕ) : List NodeInfo :=
  let candidates := table.findClosestNodes key count
  let selfInfo : NodeInfo :=
    { id := table.nodeId, addresses := [], addressTypes := [], lastSeen := now }
  let position := candidates.findIdx fun node =>
    decide (xorDistance table.nodeId key < xorDistance node.id key)
  (candidates.insertIdx position selfInfo).take count

section WithSelf

variable {Score : Type} (config : ManagerConfig Score) (selfTyped : List (MultiAddr × AddressType))

/-- `local_dht_node`, with the node's own typed addresses. -/
def localDhtNode : DHTNode Score :=
  { peerId := config.peerId
    addresses := selfTyped.map Prod.fst
    addressTypes := selfTyped.map Prod.snd
    distance := none
    reliability := config.selfReliability
    addressAuthority := none }

/-- The lookup in the table, with this node sorted in by a distance. -/
def findSortedWithSelf (distance : DHTNode Score → ℕ) (key : PeerId) (count : ℕ) :
    StoreTask (List (DHTNode Score)) := do
  let nodes ← findClosestNodesLocal config key count
  return ((nodes ++ [localDhtNode config selfTyped]).insertionSort fun left right =>
    distance left ≤ distance right).take count

def findClosestNodesLocalWithSelf (key : PeerId) : ℕ → StoreTask (List (DHTNode Score)) :=
  findSortedWithSelf config selfTyped (fun node => xorDistance node.peerId key) key

/-- `find_closest_nodes_local_by_distance_with_self`; `compare_node_distance` compares the
same distances. -/
def findClosestNodesLocalByDistanceWithSelf (key : PeerId) : ℕ → StoreTask (List (DHTNode Score)) :=
  findSortedWithSelf config selfTyped (fun node => xorDistance node.peerId key) key

/-- The peers of a table and this node in the order of their distance from the key, up to
`count`. -/
def closestWithSelf (table : RoutingTable) (key : PeerId) (count : ℕ) : List PeerId :=
  closest (fun peer => xorDistance peer key) count
    (table.allNodes.map NodeInfo.id ++ [table.nodeId])

variable {config selfTyped} {localId : PeerId} {k : ℕ} {table : RoutingTable}

theorem nodup_with_self (hvalid : table.Valid localId k) (key : PeerId) :
    ((table.allNodes.map NodeInfo.id ++ [table.nodeId]).map fun peer =>
      xorDistance peer key).Nodup := by
  have hself : table.nodeId ∉ table.allNodes.map NodeInfo.id := by
    rw [hvalid.nodeId, List.mem_map]
    rintro ⟨node, hnode, hid⟩
    exact hvalid.wellFormed.self_absent node hnode hid
  apply List.Nodup.map (xorDistance_left_injective key)
  simpa using hvalid.nodup_allNodes_ids.concat hself

theorem map_id_findNodesWithSelf (hvalid : table.Valid localId k) (key : PeerId) (count now : ℕ) :
    (findNodesWithSelf table key count now).map NodeInfo.id = closestWithSelf table key count := by
  have hnodup := nodup_with_self hvalid key
  have hpeers : (table.findClosestNodes key count).map NodeInfo.id = closestPeers table key count :=
    map_id_findClosestNodes table count
  have hdistinct : ((closestPeers table key count ++ [table.nodeId]).map fun peer =>
      xorDistance peer key).Nodup :=
    (nodup_closest_append hnodup.of_map count).map (xorDistance_left_injective key)
  calc (findNodesWithSelf table key count now).map NodeInfo.id
      = ((closestPeers table key count).insertIdx ((closestPeers table key count).findIdx
          fun peer => decide (xorDistance table.nodeId key < xorDistance peer key))
            table.nodeId).take count := by
        rw [findNodesWithSelf, List.map_take, List.map_insertIdx, ← hpeers, List.findIdx_map]
        rfl
    _ = closest (fun peer => xorDistance peer key) count
          (closestPeers table key count ++ [table.nodeId]) :=
        take_insertIdx_findIdx hdistinct (pairwise_closest
          (hvalid.nodup_allNodes_ids.map (xorDistance_left_injective key)) count) count
    _ = closestWithSelf table key count := closest_closest_append hnodup

theorem peerIds_findSortedWithSelf {found : ℕ → AddressStore}
    (hvalid : (found 0).table.Valid config.peerId k) (key : PeerId) (count : ℕ) :
    ((findSortedWithSelf config selfTyped (fun node => xorDistance node.peerId key) key
      count).answer found).map DHTNode.peerId = closestWithSelf (found 0).table key count := by
  obtain ⟨actions, hanswer⟩ := Task.answer_bind (findClosestNodesLocal config key count)
    (fun nodes => .done (closest (fun node => xorDistance node.peerId key) count
      (nodes ++ [localDhtNode config selfTyped]))) found
  have hself : config.peerId = (found 0).table.nodeId := hvalid.nodeId.symm
  calc _ = (closest ((fun peer => xorDistance peer key) ∘ peerId) count
          ((findClosestNodesLocal config key count).answer found ++
            [localDhtNode config selfTyped])).map peerId :=
        congrArg (map peerId) hanswer
    _ = closest (fun peer => xorDistance peer key) count
          (closestPeers (found 0).table key count ++ [(found 0).table.nodeId]) := by
        rw [map_closest, map_append, peerIds_findClosestNodesLocal count hvalid, ← hself]
        rfl
    _ = closestWithSelf (found 0).table key count :=
        closest_closest_append (nodup_with_self hvalid key)

/-- The three lookups that include this node return the closest peers of the table and this
node together, and this node is one of them if fewer than `count` peers are closer. -/
theorem lookups_with_self_agree [LinearOrder Score] (config : ManagerConfig Score)
    (selfTyped : List (MultiAddr × AddressType)) (k start now : ℕ) (ops : List (RoutingOp Score))
    (found : ℕ → AddressStore) (key : PeerId) (count : ℕ)
    (htable : (found 0).table = (RoutingTable.new config.peerId k start).run
      config.wire.toAddressCodec config.engine ops) :
    (findNodesWithSelf (found 0).table key count now).map NodeInfo.id =
        closestWithSelf (found 0).table key count ∧
      ((findClosestNodesLocalWithSelf config selfTyped key count).answer found).map
        DHTNode.peerId = closestWithSelf (found 0).table key count ∧
      ((findClosestNodesLocalByDistanceWithSelf config selfTyped key count).answer found).map
        DHTNode.peerId = closestWithSelf (found 0).table key count ∧
      (config.peerId ∈ closestWithSelf (found 0).table key count ↔
        ((found 0).table.allNodes.countP fun node =>
          decide (xorDistance node.id key < xorDistance config.peerId key)) < count) := by
  have hvalid : (found 0).table.Valid config.peerId k := by
    rw [htable]
    exact RoutingTable.run_valid _ _ ops (RoutingTable.Valid.new config.peerId k start)
  have hlocal : ((findClosestNodesLocalWithSelf config selfTyped key count).answer found).map
      peerId = closestWithSelf (found 0).table key count :=
    peerIds_findSortedWithSelf hvalid key count
  refine ⟨map_id_findNodesWithSelf hvalid key count now, hlocal, hlocal, ?_⟩
  rw [closestWithSelf, mem_closest_iff (nodup_with_self hvalid key), hvalid.nodeId,
    rank_append_singleton, if_neg (lt_irrefl _), rank, countP_map]
  simp [Function.comp_def]

end WithSelf

/-- Node `0` is closer to key `3` than every peer. -/
theorem lookups_with_self_agree_fiveKnown :
    (findNodesWithSelf fiveKnown 3 4 0).map NodeInfo.id = [0, 8, 16, 32] :=
  (lookups_with_self_agree lonelyManager [] 4 0 0 _ knownStore 3 4 rfl).1.trans (by decide +kernel)

end SaorsaCore.Manager
