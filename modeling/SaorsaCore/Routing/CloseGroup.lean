import SaorsaCore.Routing.Diversity

/-!
# IP diversity among the closest peers

The second diversity loop checks the group of the `K` closest peers as it would be
with the candidate in it.  That group is fixed before the loop plans its evictions.
Each eviction frees a place, and the peer that takes it was not part of the check; nor
was the candidate, if it only gets into the group because a peer is evicted for lack of
trust.  The limits are kept exactly when these newcomers fit into what the checked peers
leave of them.
-/

namespace SaorsaCore.Routing

open Closest NodeInfo List KBucket RoutingTable EngineConfig

namespace RoutingTable.Valid

variable {table : RoutingTable} {node : NodeInfo}

theorem mem_allNodes_setBucket_append {index : Fin 256} {bucket : KBucket} {added : NodeInfo}
    (hnodes : bucket.nodes = (table.buckets index).nodes ++ [added]) :
    node ∈ (table.setBucket index bucket).allNodes ↔ node ∈ table.allNodes ∨ node = added := by
  rw [mem_allNodes_iff, mem_allNodes_iff]
  constructor
  · rintro ⟨position, hmem⟩
    rw [buckets_setBucket] at hmem
    split at hmem
    · rw [hnodes, mem_append, mem_singleton] at hmem
      exact hmem.imp_left fun hold => ⟨index, hold⟩
    · exact Or.inl ⟨position, hmem⟩
  · rintro (⟨position, hmem⟩ | rfl)
    · refine ⟨position, ?_⟩
      rw [buckets_setBucket]
      split
      · next heq =>
          rw [hnodes, mem_append]
          exact Or.inl (heq ▸ hmem)
      · exact hmem
    · refine ⟨index, ?_⟩
      rw [buckets_setBucket, if_pos rfl, hnodes]
      exact mem_append_right _ mem_cons_self

end RoutingTable.Valid

namespace EngineConfig

variable {Score : Type*} {config : EngineConfig Score}
  {localId : PeerId} {k : ℕ} {table after : RoutingTable} {node : NodeInfo}
  {swaps : List PeerId} {now : ℕ} {events : List RoutingTableEvent}

/-! ## The close group after an admission -/

/-- What an admission of an absent peer leaves in the table. -/
structure Replaces (localId : PeerId) (k : ℕ) (table : RoutingTable)
    (node : NodeInfo) (swaps : List PeerId) (after : RoutingTable) : Prop where
  before : table.Valid localId k
  valid : after.Valid localId k
  perm : after.allNodes.Perm ((table.allNodes.filter fun other => !swaps.contains other.id) ++
      [KBucket.insertedNode node])

theorem executeAdmission_replaces (hvalid : table.Valid localId k)
    (habsent : table.findNodeById node.id = none)
    (hresult : (config.executeAdmission table node swaps now).2 = .ok (.admitted events)) :
    Replaces localId k table node swaps (config.executeAdmission table node swaps now).1 := by
  have hevicts := executeSwaps_evicts hvalid swaps
  simp only [executeAdmission] at hresult ⊢
  split at hresult
  · cases hresult
  · next inserted hinserted =>
      have hgone : (executeSwaps table swaps).1.findNodeById node.id = none := by
        rw [hevicts.findNode, habsent]
        simp
      have hafter : inserted.Valid localId k :=
        hevicts.valid.addNode hinserted
      obtain ⟨index, bucket, hindex, hnodes, rfl⟩ :=
        hevicts.valid.addNode_of_absent hgone hinserted
      refine ⟨hvalid, hafter, ?_⟩
      have hold : (executeSwaps table swaps).1.allNodes =
          table.allNodes.filter fun other => !swaps.contains other.id := by
        rw [allNodes, allNodes, filter_flatMap]
        exact flatMap_congr fun index _ => hevicts.nodes index
      have hfresh : insertedNode node ∉ (executeSwaps table swaps).1.allNodes := by
        intro hmem
        apply hevicts.valid.mem_ids_of_mem_allNodes hmem
        rw [id_insertedNode, hgone]
      -- Neither side repeats a peer, so it is enough to compare members.
      rw [← hold, perm_ext_iff_of_nodup hafter.nodup_allNodes (nodup_append_comm.mp
          (nodup_cons.mpr ⟨hfresh, hevicts.valid.nodup_allNodes⟩))]
      intro other
      rw [RoutingTable.Valid.mem_allNodes_setBucket_append hnodes, mem_append, mem_singleton]

namespace Replaces

variable {other : NodeInfo}

variable (hreplaces : Replaces localId k table node swaps after)
include hreplaces

theorem mem_allNodes_iff : other ∈ after.allNodes ↔ (other ∈ table.allNodes ∧ other.id ∉ swaps) ∨
        other = KBucket.insertedNode node := by
  rw [hreplaces.perm.mem_iff]
  simp

theorem nodeId_eq : after.nodeId = table.nodeId := by
  rw [hreplaces.valid.nodeId, hreplaces.before.nodeId]

theorem closeGroup_eq (count : ℕ) : after.closeGroup count =
    closest (distanceFrom table.nodeId) count
      ((table.allNodes.filter fun other => !swaps.contains other.id) ++ [insertedNode node]) := by
  rw [closeGroup_eq_closest, hreplaces.nodeId_eq]
  exact closest_perm (nodup_distances _ hreplaces.valid.nodup_allNodes_ids) hreplaces.perm count

end Replaces

/-! ## Who gets into the group unchecked -/

section

variable [LinearOrder Score] (config) (observation : Observation Score) (table : RoutingTable)
  (index : Fin 256) (node : NodeInfo) (ips : List IpAddr)

/-- The `K` closest once everyone in the way has left and the candidate is stored. -/
def groupAfter : List NodeInfo :=
  closest (distanceFrom table.nodeId) config.kValue
    ((table.allNodes.filter fun other =>
      !(config.evictions table index observation node.id ips).contains other.id) ++
        [insertedNode node])

/-- Whose addresses were counted together: the candidate and the peers next to which it
was checked, or the close group as it was. -/
def countedGroup : List NodeInfo :=
  if config.isChecked table index node.id ips then
    insertedNode node :: config.checkedGroup table (config.bucketDisplaced table index ips)
  else table.closeGroup config.kValue

/-- The peers of the new group that were counted. -/
def knownPeers : List NodeInfo :=
  (config.groupAfter observation table index node ips).filter fun other =>
    decide (other ∈ config.countedGroup table index node ips)

/-- Those that were not. -/
def newcomers : List NodeInfo :=
  (config.groupAfter observation table index node ips).filter fun other =>
    !decide (other ∈ config.countedGroup table index node ips)

/-- The newcomers that are counted fit into what the others leave of the limit. -/
def NewcomersFit (shares : NodeInfo → Bool) (limit : ℕ) : Prop :=
  (config.newcomers observation table index node ips).countP shares ≤
    limit - (config.knownPeers observation table index node ips).countP shares

instance (shares : NodeInfo → Bool) (limit : ℕ) :
    Decidable (config.NewcomersFit observation table index node ips shares limit) :=
  inferInstanceAs (Decidable (_ ≤ _))

end

variable [LinearOrder Score] {observation : Observation Score} {index : Fin 256} {ip : IpAddr}
  {ips : List IpAddr}

/-- The check leaves room for the candidate among the peers it was compared with. -/
theorem hasRoomFor_checkedGroup
    (hwithin : config.WithinLimits (table.closeGroup config.kValue))
    (hplace : config.HasPlace table index observation node.id ips)
    (hchecked : config.isChecked table index node.id ips = true)
    (hmem : ip ∈ ips) (hloopback : ip.isLoopback = false) :
    config.HasRoomFor ((config.checkedGroup table
      (config.bucketDisplaced table index ips)).filter fun other =>
        !(config.evictions table index observation node.id ips).contains other.id) ip := by
  have hroom := hasRoomFor_of_displaced
    (hwithin.sublist ((take_sublist _ _).trans filter_sublist))
    (hplace.closeGroup hchecked).isSome hmem hloopback
  apply hroom.sublist
  apply filter_contains_sublist
  refine List.Subset.trans ?_ closeDisplaced_subset_evictions
  rw [closeDisplaced, if_pos hchecked]
  exact List.Subset.refl _

section

variable {shares : NodeInfo → Bool} {limit : ℕ}

/-- The peers that were counted are within the limit. -/
theorem countP_knownPeers_le (hnodup : (config.groupAfter observation table index node ips).Nodup)
    (hbefore : (table.closeGroup config.kValue).countP shares ≤ limit)
    (hroom : config.isChecked table index node.id ips = true →
      ((config.checkedGroup table (config.bucketDisplaced table index ips)).filter fun other =>
        !(config.evictions table index observation node.id ips).contains other.id).countP shares <
          limit) :
    (config.knownPeers observation table index node ips).countP shares ≤ limit := by
  by_cases hchecked : config.isChecked table index node.id ips = true
  · -- The candidate, and peers that were checked with it and have stayed.
    have hknown : (config.knownPeers observation table index node ips).countP shares ≤
        (insertedNode node :: (config.checkedGroup table
          (config.bucketDisplaced table index ips)).filter fun other =>
            !(config.evictions table index observation node.id ips).contains other.id).countP
              shares := by
      apply countP_le_of_forall_mem (hnodup.filter _)
      intro other hother _
      obtain ⟨hgroup, hcounted⟩ := mem_filter.mp hother
      rw [decide_eq_true_eq, countedGroup, if_pos hchecked] at hcounted
      rcases mem_cons.mp hcounted with hnew | hold
      · exact hnew ▸ mem_cons_self
      · rcases mem_append.mp (closest_subset _ _ hgroup) with hstays | hnew
        · exact mem_cons_of_mem _ (mem_filter.mpr ⟨hold, (mem_filter.mp hstays).2⟩)
        · exact mem_singleton.mp hnew ▸ mem_cons_self
    have hfits := hroom hchecked
    rw [countP_cons] at hknown
    split at hknown <;> omega
  · refine le_trans (countP_le_of_forall_mem (hnodup.filter _) ?_) hbefore
    intro other hother _
    have hcounted := (mem_filter.mp hother).2
    rwa [decide_eq_true_eq, countedGroup, if_neg hchecked] at hcounted

theorem countP_groupAfter_le_iff
    (hknown : (config.knownPeers observation table index node ips).countP shares ≤ limit) :
    (config.groupAfter observation table index node ips).countP shares ≤ limit ↔
      config.NewcomersFit observation table index node ips shares limit := by
  have hsplit := countP_eq_countP_filter_add (config.groupAfter observation table index node ips)
    shares fun other => decide (other ∈ config.countedGroup table index node ips)
  rw [← knownPeers, ← newcomers] at hsplit
  rw [NewcomersFit, hsplit]
  omega

end

/-- A checked admission of an absent peer carries out the plan made for it. -/
theorem addNode_eq_executeAdmission {order : HashOrder IpAddr} {incoming : NodeInfo}
    (habsent : table.findNodeById incoming.id = none)
    (hresult : (config.addNode observation order table incoming).2 =
      .ok (.admitted events)) (hmem : ip ∈ incoming.retainStorableAddresses.allIps)
    (hloopback : ip.isLoopback = false) :
    ∃ index swaps, table.bucketIndex incoming.id = some index ∧
      config.planAdmission observation table index
        incoming.retainStorableAddresses
          (order.arrange incoming.retainStorableAddresses.allIps) true = .ok (.insert swaps) ∧
      config.addNode observation order table incoming =
        config.executeAdmission table incoming.retainStorableAddresses swaps
          observation.now := by
  have hid := incoming.id_retainStorableAddresses
  simp only [addNode] at hresult ⊢
  generalize incoming.retainStorableAddresses = node at *
  rw [← hid] at habsent hresult ⊢
  split at hresult
  · cases hresult
  · split at hresult
    · cases hresult
    · next hself hstorable =>
        have hips : ip ∈ order.arrange node.allIps :=
          (order.perm node.allIps).mem_iff.mpr hmem
        rw [if_neg hself, if_neg hstorable]
        rw [if_neg (by simpa using ne_nil_of_mem hips)] at hresult ⊢
        rcases config.addWithDiversity_cases observation table node
          (order.arrange node.allIps) true rfl with
          ⟨-, hrefused⟩ | ⟨hall, -⟩ | ⟨hpresent, -⟩ | ⟨index, swaps, hindex, -, hplan, hdone⟩
        · exact absurd hresult (hrefused events)
        · have hlocal := all_eq_true.mp hall ip hips
          rw [hloopback] at hlocal
          cases hlocal
        · rw [habsent] at hpresent
          cases hpresent
        · exact ⟨index, swaps, hindex, hplan, hdone⟩

omit [LinearOrder Score] in
/-- Only addresses that occur can exceed a limit. -/
theorem withinLimits_of_occurring {nodes : List NodeInfo}
    (hoccurring : ∀ node ∈ nodes, ∀ ip ∈ node.allIps,
      nodes.countP (fun other => other.hasIp ip) ≤ config.limitIp ∧
        nodes.countP (fun other => other.hasSubnet ip) ≤ config.limitSubnet) :
    config.WithinLimits nodes := by
  intro ip
  constructor
  · rcases Nat.eq_zero_or_pos (nodes.countP fun other => other.hasIp ip) with
      hzero | hpos
    · rw [hzero]
      exact Nat.zero_le _
    · obtain ⟨node, hnode, hip⟩ := countP_pos_iff.mp hpos
      exact (hoccurring node hnode ip ((node.hasIp_iff ip).mp hip).1).1
  · rcases Nat.eq_zero_or_pos (nodes.countP fun other => other.hasSubnet ip) with
      hzero | hpos
    · rw [hzero]
      exact Nat.zero_le _
    · obtain ⟨node, hnode, hsubnet⟩ := countP_pos_iff.mp hpos
      obtain ⟨existing, hmem, -, hsame⟩ := (node.hasSubnet_iff ip).mp hsubnet
      have hcount := (hoccurring node hnode existing hmem).2
      simp only [hasSubnet, hsame] at hcount
      exact hcount

end EngineConfig

/-! The four closest peers to node `0` sit in four subnets.  Peer `2` comes with a
relay in the subnet of peer `4` and a direct address in that of peer `8`.  Peer `8`
is left out of the check as the farthest of five, peer `4` is evicted, and peer `8`
is back among the four closest. -/

section Example

private def fourObservation : EngineConfig.Observation ℕ :=
  { trustScore := fun _ => 50, now := 0 }

private def fourAdmissions : List (RoutingOp ℕ) :=
  [exampleNode 1 [0xcb007101], exampleNode 3 [0xcb007201],
    exampleNode 4 [0xcb007301], exampleNode 8 [0xcb007401]].map
      (.admission (HashOrder.insertion _) fourObservation)

private def fourPeers : RoutingTable :=
  (RoutingTable.new 0 4 0).run { decode := fun _ => none }
    (EngineConfig.withDefaults 4) fourAdmissions

private def relayedPeer : NodeInfo :=
  { exampleNode 2 [0xcb007302, 0xcb007402] with
    addressTypes := [.relay, .direct] }

private theorem fourPeers_valid : fourPeers.Valid 0 4 :=
  run_valid _ _ fourAdmissions (RoutingTable.Valid.new 0 4 0)

private theorem fourPeers_within : (withDefaults 4).WithinLimits (fourPeers.closeGroup 4) :=
  withinLimits_of_occurring (by decide +kernel)

end Example

end SaorsaCore.Routing
