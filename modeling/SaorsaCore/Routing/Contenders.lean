import SaorsaCore.Core.Closest
import SaorsaCore.Routing.Invariant

/-!
# Who has to give way to a candidate

The two diversity loops look at one IP of the candidate after the other.  An IP whose
limit is used up costs the farthest of the peers that use it up, and that peer no longer
counts for the IPs that follow.  This says who has to give way without asking whether
the peers do; an admission succeeds exactly if they all do, and if the candidate's bucket
has a slot for it.
-/

namespace SaorsaCore.Routing

open Closest NodeInfo List KBucket RoutingTable EngineConfig

/-! ## The close group -/

/-- The `k` peers closest to this node. -/
def RoutingTable.closeGroup (table : RoutingTable) (k : ℕ) : List NodeInfo :=
  table.findClosestNodes table.nodeId k

/-- The distance by which `find_closest_nodes` orders the peers. -/
def NodeInfo.distanceFrom (key : DhtKey) (node : NodeInfo) : ℕ :=
  xorDistance node.id key

theorem RoutingTable.closeGroup_eq_closest (table : RoutingTable) (k : ℕ) : table.closeGroup k =
      closest (NodeInfo.distanceFrom table.nodeId) k table.allNodes :=
  rfl

theorem nodup_distances {nodes : List NodeInfo} (key : DhtKey)
    (hnodup : (nodes.map NodeInfo.id).Nodup) :
    (nodes.map (NodeInfo.distanceFrom key)).Nodup := by
  have hmap : nodes.map (NodeInfo.distanceFrom key) =
      (nodes.map NodeInfo.id).map fun peer => xorDistance peer key := by
    rw [List.map_map]
    rfl
  rw [hmap]
  exact hnodup.map (xorDistance_left_injective key)

namespace RoutingTable.Valid

variable {localId : PeerId} {k : ℕ} {table : RoutingTable} {node : NodeInfo}

theorem nodup_allNodes (hvalid : table.Valid localId k) : table.allNodes.Nodup :=
  hvalid.nodup_allNodes_ids.of_map _

theorem mem_ids_of_mem_allNodes (hvalid : table.Valid localId k) (hmem : node ∈ table.allNodes) :
    table.findNodeById node.id ≠ none := by
  obtain ⟨index, hnode⟩ := mem_allNodes_iff.mp hmem
  have hid : node.id ∈ (table.buckets index).ids := mem_map_of_mem hnode
  rw [findNodeById_eq (hvalid.placed index node.id hid), ← Option.isSome_iff_ne_none,
    isSome_findNode_iff]
  exact hid

end RoutingTable.Valid

namespace NodeInfo

theorem hasIp_iff (node : NodeInfo) (ip : IpAddr) :
    node.hasIp ip = true ↔ ip ∈ node.allIps ∧ ip.isLoopback = false := by
  rw [hasIp, any_eq_true]
  constructor
  · rintro ⟨existing, hmem, hmatch⟩
    simp only [Bool.and_eq_true, Bool.not_eq_true', beq_iff_eq] at hmatch
    obtain ⟨hloopback, rfl⟩ := hmatch
    exact ⟨hmem, hloopback⟩
  · rintro ⟨hmem, hloopback⟩
    exact ⟨ip, hmem, by simp [hloopback]⟩

theorem hasSubnet_iff (node : NodeInfo) (ip : IpAddr) : node.hasSubnet ip = true ↔
      ∃ existing ∈ node.allIps, existing.isLoopback = false ∧ existing.subnet = ip.subnet := by
  simp [hasSubnet]

/-- Sharing the exact IP is a special case of sharing the subnet. -/
theorem hasSubnet_of_hasIp {node : NodeInfo} {ip : IpAddr}
    (hip : node.hasIp ip = true) : node.hasSubnet ip = true := by
  obtain ⟨hmem, hloopback⟩ := (node.hasIp_iff ip).mp hip
  exact (node.hasSubnet_iff ip).mpr ⟨ip, hmem, hloopback, rfl⟩

end NodeInfo

namespace EngineConfig

variable {Score : Type*} (config : EngineConfig Score)

/-! ## The peers that use up a limit -/

/-- The peers that use up a limit of this IP, those on the IP itself before those of its
subnet. -/
def rivals (nodes : List NodeInfo) (ip : IpAddr) : Option (List NodeInfo) :=
  let onIp := nodes.filter fun node => node.hasIp ip
  let inSubnet := nodes.filter fun node => node.hasSubnet ip
  if config.limitIp ≤ onIp.length then some onIp
  else if config.limitSubnet ≤ inSubnet.length then some inSubnet
  else none

/-- For each IP whose limit is used up, the farthest of its rivals.  There is none if the
limit is zero and nobody shares the IP. -/
def contenders (self : PeerId) (nodes : List NodeInfo) : List IpAddr → List (Option NodeInfo)
  | [] => []
  | ip :: ips =>
    if ip.isLoopback then contenders self nodes ips
    else
      match config.rivals nodes ip with
      | none => contenders self nodes ips
      | some sharing =>
        let farthest := sharing.argmax fun node => xorDistance self node.id
        farthest :: contenders self
          (nodes.filter fun node => farthest.all fun gone => node.id != gone.id) ips

/-- The contenders, as the peers an admission has to evict. -/
def displaced (self : PeerId) (nodes : List NodeInfo) (ips : List IpAddr) : List PeerId :=
  (config.contenders self nodes ips).reduceOption.map NodeInfo.id

/-- The peers of the close group that are left once some have gone. -/
def remainingGroup (table : RoutingTable) (gone : List PeerId) : List NodeInfo :=
  (table.closeGroup config.kValue).filter fun other => !gone.contains other.id

/-- The peers next to which the candidate is checked in the close group: it takes the
last of the `K` places, if they are all taken. -/
def checkedGroup (table : RoutingTable) (gone : List PeerId) : List NodeInfo :=
  (config.remainingGroup table gone).take (config.kValue - 1)

variable (table : RoutingTable) (index : Fin 256)

/-- Who has to leave the candidate's bucket. -/
def bucketDisplaced (ips : List IpAddr) : List PeerId :=
  config.displaced table.nodeId (table.buckets index).nodes ips

/-- Is the candidate checked against the close group? -/
def isChecked (candidate : PeerId) (ips : List IpAddr) : Bool :=
  config.candidateInClose table.nodeId candidate
    (config.remainingGroup table (config.bucketDisplaced table index ips))

/-- Who has to leave the close group. -/
def closeDisplaced (candidate : PeerId) (ips : List IpAddr) : List PeerId :=
  if config.isChecked table index candidate ips then
    config.displaced table.nodeId
      (config.checkedGroup table (config.bucketDisplaced table index ips)) ips
  else []

/-- The bucket has a slot, or one of the peers that leave is in it. -/
def HasSlot (candidate : PeerId) (ips : List IpAddr) : Prop :=
  (table.buckets index).nodes.length < (table.buckets index).maxSize ∨
    config.bucketDisplaced table index ips ≠ [] ∨
    ∃ peer ∈ config.closeDisplaced table index candidate ips,
      table.bucketIndex peer = some index

instance (candidate : PeerId) (ips : List IpAddr) :
    Decidable (config.HasSlot table index candidate ips) :=
  inferInstanceAs (Decidable (_ ∨ _ ∨ _))

variable [LinearOrder Score] (observation : Observation Score)

/-- The peer is farther than the candidate and not protected. -/
def Yields (self candidate : PeerId) (peer : NodeInfo) : Prop :=
  xorDistance self candidate < xorDistance self peer.id ∧
    config.isUnprotected observation peer = true

instance (self candidate : PeerId) (peer : NodeInfo) :
    Decidable (config.Yields observation self candidate peer) :=
  inferInstanceAs (Decidable (_ ∧ _))

/-- Everyone who has to give way to the candidate is there and does. -/
def GivesWay (self candidate : PeerId) (nodes : List NodeInfo) (ips : List IpAddr) : Prop :=
  ∀ contender ∈ config.contenders self nodes ips, ∃ peer ∈ contender,
    config.Yields observation self candidate peer

instance (self candidate : PeerId) (nodes : List NodeInfo) (ips : List IpAddr) :
    Decidable (config.GivesWay observation self candidate nodes ips) :=
  inferInstanceAs (Decidable (∀ contender ∈ config.contenders self nodes ips, _))

/-- The candidate is trusted enough to displace a peer of the bucket that is not. -/
def TrustSwapDue (bucket : KBucket) (candidate : PeerId) : Prop :=
  config.zeroTrust < config.swapThreshold ∧
    config.swapThreshold ≤ observation.trustScore candidate ∧
    ∃ member ∈ bucket.nodes, observation.trustScore member.id < config.swapThreshold

/-- What it takes to insert a candidate that is not in the table. -/
structure HasPlace (candidate : PeerId) (ips : List IpAddr) : Prop where
  bucket : config.GivesWay observation table.nodeId candidate (table.buckets index).nodes ips
  closeGroup : config.isChecked table index candidate ips = true →
    config.GivesWay observation table.nodeId candidate
      (config.checkedGroup table (config.bucketDisplaced table index ips)) ips
  slot : config.HasSlot table index candidate ips ∨
    config.TrustSwapDue observation (table.buckets index) candidate

/-- Everyone an admission evicts: those who share an IP with the candidate, and for a slot
the least trusted peer of the bucket. -/
def evictions (candidate : PeerId) (ips : List IpAddr) : List PeerId :=
  config.bucketDisplaced table index ips ++
    (if config.HasSlot table index candidate ips then []
      else (config.trustSwap observation (table.buckets index) candidate).toList) ++
    config.closeDisplaced table index candidate ips

/-! ## The loop over the candidate's IPs -/

variable {config table index observation} {self candidate : PeerId} {scope : DiversityScope}
  {nodes : List NodeInfo} {ip : IpAddr} {ips : List IpAddr} {swaps planned : List PeerId}

variable (config observation self candidate) in
/-- The farthest of these peers yields, and it is the one to be evicted. -/
def FarthestYields (sharing : List NodeInfo) (swap : Option PeerId) : Prop :=
  ∃ peer ∈ sharing.argmax fun node => xorDistance self node.id,
    config.Yields observation self candidate peer ∧ swap = some peer.id

theorem tierSwap_eq_none_iff {tier : DiversityTier} {limit : ℕ}
    {matching : List NodeInfo} :
    config.tierSwap observation self candidate scope tier limit matching =
      .ok none ↔ matching.length < limit := by
  rw [tierSwap]
  constructor
  · intro hswap
    split at hswap
    · split at hswap
      · split at hswap <;> cases hswap
      · cases hswap
    · next hroom => exact Nat.lt_of_not_le hroom
  · intro hroom
    exact if_neg (Nat.not_le.mpr hroom)

theorem tierSwap_eq_ok_iff {tier : DiversityTier} {limit : ℕ} {matching : List NodeInfo}
    {swap : Option PeerId} (hfull : limit ≤ matching.length) :
    config.tierSwap observation self candidate scope tier limit matching = .ok swap ↔
      config.FarthestYields observation self candidate matching swap := by
  rw [tierSwap, if_pos hfull, FarthestYields]
  cases hfarthest : matching.argmax fun node => xorDistance self node.id with
  | none => simp
  | some farthest =>
    simp only [Option.mem_def, Option.some.injEq, exists_eq_left']
    split
    · next hyields =>
        rw [Except.ok.injEq, eq_comm]
        exact (and_iff_right hyields).symm
    · next hstays => exact iff_of_false (by simp) fun hyields => hstays hyields.1

/-- The peers one check looks at. -/
def others (candidate : PeerId) (nodes : List NodeInfo) : List NodeInfo :=
  nodes.filter fun node => node.id != candidate

/-- One check asks for no eviction if the IP has no rivals, and otherwise for that of the
farthest one. -/
theorem findIpSwapInScope_eq_ok_iff (hloopback : ip.isLoopback = false) {swap : Option PeerId} :
    config.findIpSwapInScope observation self nodes candidate ip scope = .ok swap ↔
      match config.rivals (others candidate nodes) ip with
      | none => swap = none
      | some sharing => config.FarthestYields observation self candidate sharing swap := by
  rw [findIpSwapInScope, if_neg (by simp [hloopback])]
  simp only [bind, Except.bind, rivals]
  rw [← others]
  by_cases hfull : config.limitIp ≤
      ((others candidate nodes).filter fun node => node.hasIp ip).length
  · -- the first tier decides
    rw [if_pos hfull]
    cases htier : config.tierSwap observation self candidate scope .exactIp config.limitIp
        ((others candidate nodes).filter fun node => node.hasIp ip) with
    | error refusal =>
      simp only
      rw [← tierSwap_eq_ok_iff hfull, htier]
    | ok first =>
      obtain ⟨peer, -, -, rfl⟩ := (tierSwap_eq_ok_iff hfull).mp htier
      simp only
      rw [← tierSwap_eq_ok_iff hfull, htier]
  · rw [if_neg hfull, tierSwap_eq_none_iff.mpr (Nat.lt_of_not_le hfull)]
    simp only
    by_cases hsubnet : config.limitSubnet ≤
        ((others candidate nodes).filter fun node => node.hasSubnet ip).length
    · rw [if_pos hsubnet]
      exact tierSwap_eq_ok_iff hsubnet
    · rw [if_neg hsubnet, tierSwap_eq_none_iff.mpr (Nat.lt_of_not_le hsubnet), Except.ok.injEq]
      exact eq_comm

omit [LinearOrder Score] in
theorem rivals_subset {sharing : List NodeInfo} (hrivals : config.rivals nodes ip = some sharing) :
    ∀ peer ∈ sharing, peer ∈ nodes ∧ peer.hasSubnet ip = true := by
  simp only [rivals] at hrivals
  intro peer hpeer
  split at hrivals
  · cases hrivals
    exact (mem_filter.mp hpeer).imp_right hasSubnet_of_hasIp
  · split at hrivals <;> cases hrivals
    exact mem_filter.mp hpeer

omit [LinearOrder Score] in
/-- Those who have to give way are among the peers looked at, and share a subnet with the
candidate. -/
theorem mem_contenders {peer : NodeInfo}
    (hpeer : some peer ∈ config.contenders self nodes ips) :
    peer ∈ nodes ∧ ∃ ip ∈ ips, ip.isLoopback = false ∧ peer.hasSubnet ip = true := by
  induction ips generalizing nodes with
  | nil => cases hpeer
  | cons ip ips ih =>
    have hlater {fewer : List NodeInfo} (hsublist : fewer.Sublist nodes)
        (hcontends : some peer ∈ config.contenders self fewer ips) : peer ∈ nodes ∧
          ∃ other ∈ ip :: ips, other.isLoopback = false ∧ peer.hasSubnet other = true := by
      obtain ⟨hmem, other, hother, hshares⟩ := ih hcontends
      exact ⟨hsublist.subset hmem, other, mem_cons_of_mem ip hother, hshares⟩
    rw [contenders] at hpeer
    split at hpeer
    · exact hlater (Sublist.refl nodes) hpeer
    · next hloopback =>
        split at hpeer
        · exact hlater (Sublist.refl nodes) hpeer
        · next sharing hrivals =>
            rcases mem_cons.mp hpeer with hhead | htail
            · obtain ⟨hmem, hsubnet⟩ := rivals_subset hrivals peer (argmax_mem hhead.symm)
              exact ⟨hmem, ip, mem_cons_self, by simpa using hloopback, hsubnet⟩
            · exact hlater filter_sublist htail

namespace GivesWay

variable (hway : config.GivesWay observation self candidate nodes ips)
include hway

theorem isSome : ∀ contender ∈ config.contenders self nodes ips, contender.isSome = true := by
  intro contender hcontender
  obtain ⟨peer, hpeer, -⟩ := hway contender hcontender
  exact Option.isSome_of_mem hpeer

/-- Everyone who is displaced yields to the candidate and shares a subnet with it. -/
theorem of_mem_displaced {gone : PeerId} (hgone : gone ∈ config.displaced self nodes ips) :
    ∃ peer ∈ nodes, peer.id = gone ∧ config.Yields observation self candidate peer ∧
      ∃ ip ∈ ips, ip.isLoopback = false ∧ peer.hasSubnet ip = true := by
  obtain ⟨peer, hpeer, rfl⟩ := mem_map.mp hgone
  have hcontends := reduceOption_mem_iff.mp hpeer
  obtain ⟨hmem, hshares⟩ := mem_contenders hcontends
  obtain ⟨other, hother, hyields⟩ := hway _ hcontends
  cases hother
  exact ⟨peer, hmem, rfl, hyields, hshares⟩

end GivesWay

theorem filter_contains_sublist {fewer more : List PeerId} (hsubset : fewer ⊆ more) :
    (nodes.filter fun node => !more.contains node.id).Sublist
      (nodes.filter fun node => !fewer.contains node.id) := by
  apply monotone_filter_right
  intro node hkept
  simp only [Bool.not_eq_true', contains_eq_mem, decide_eq_false_iff_not] at hkept ⊢
  exact fun hmem => hkept (hsubset hmem)

/-- What the loop still sees once it has planned one more eviction. -/
theorem filter_contains_append (peer : PeerId) :
    nodes.filter (fun node => !(swaps ++ [peer]).contains node.id) =
      (nodes.filter fun node => !swaps.contains node.id).filter fun node => node.id != peer := by
  rw [filter_filter]
  apply filter_congr
  intro node _
  rw [Bool.eq_iff_iff]
  simp [and_comm]

/-- The loop succeeds exactly if everyone in the way yields, and then it evicts those. -/
theorem planSwaps_eq_ok_iff {earlier : List PeerId} (hearlier : ∀ node ∈ nodes, node.id ∉ earlier) :
    config.planSwaps observation self candidate scope nodes earlier ips swaps = .ok planned ↔
      config.GivesWay observation self candidate
          (others candidate (nodes.filter fun node => !swaps.contains node.id)) ips ∧
        planned = swaps ++ config.displaced self
          (others candidate (nodes.filter fun node => !swaps.contains node.id)) ips := by
  induction ips generalizing swaps with
  | nil => simp [planSwaps, GivesWay, contenders, displaced, eq_comm]
  | cons ip ips ih =>
    by_cases hloopback : ip.isLoopback = true
    · simp only [planSwaps, GivesWay, displaced, contenders, hloopback, if_true]
      exact ih
    · have hcheck (swap : Option PeerId) : config.findIpSwapInScope observation self
          (nodes.filter fun node => !swaps.contains node.id) candidate ip scope = .ok swap ↔ _ :=
        findIpSwapInScope_eq_ok_iff (Bool.eq_false_of_not_eq_true hloopback)
      rw [planSwaps, GivesWay, displaced, contenders, if_neg hloopback, if_neg hloopback]
      simp only [bind, Except.bind]
      cases hrivals : config.rivals
          (others candidate (nodes.filter fun node => !swaps.contains node.id)) ip with
      | none =>
        rw [hrivals] at hcheck
        rw [(hcheck none).mpr rfl]
        exact ih
      | some sharing =>
        rw [hrivals] at hcheck
        cases hswap : config.findIpSwapInScope observation self
            (nodes.filter fun node => !swaps.contains node.id) candidate ip scope with
        | error refusal =>
          refine iff_of_false (by simp) ?_
          rintro ⟨hway, -⟩
          obtain ⟨peer, hpeer, hyields⟩ := hway _ mem_cons_self
          have hevicts := (hcheck (some peer.id)).mpr ⟨peer, hpeer, hyields, rfl⟩
          rw [hswap] at hevicts
          cases hevicts
        | ok swap =>
          obtain ⟨peer, hpeer, hyields, rfl⟩ := (hcheck swap).mp hswap
          obtain ⟨hnode, hkept⟩ := mem_filter.mp
            (mem_of_mem_filter (rivals_subset hrivals peer (argmax_mem hpeer)).1)
          -- The loop does not see those it has evicted, so the peer is a new one.
          have hnew : (earlier.contains peer.id || swaps.contains peer.id) = false := by
            rw [Bool.or_eq_false_iff]
            exact ⟨by simpa using hearlier peer hnode, by simpa using hkept⟩
          simp only [Option.mem_def.mp hpeer, hnew, Bool.false_eq_true, if_false, forall_mem_cons,
            reduceOption_cons_of_some, map_cons, Option.all_some, Option.mem_def,
            Option.some.injEq, exists_eq_left', hyields, true_and]
          rw [ih, filter_contains_append, others, filter_comm, ← others, append_assoc,
            singleton_append]
          rfl

/-! ## The group that is checked -/

section

variable {localId : PeerId} {k : ℕ} {node : NodeInfo} {gone : List PeerId}

omit [LinearOrder Score] in
theorem remainingGroup_subset : config.remainingGroup table gone ⊆ table.closeGroup config.kValue :=
  filter_subset_self _

omit [LinearOrder Score] in
theorem hypotheticalClose_eq_closest (remaining : List NodeInfo) :
    config.hypotheticalClose table.nodeId node remaining =
      closest (NodeInfo.distanceFrom table.nodeId) config.kValue
        (others node.id remaining ++ [node]) := by
  have horder : (fun left right : NodeInfo =>
      xorDistance table.nodeId left.id ≤ xorDistance table.nodeId right.id) =
        fun left right => distanceFrom table.nodeId left ≤ distanceFrom table.nodeId right := by
    funext left right
    rw [distanceFrom, distanceFrom, xorDistance_comm table.nodeId left.id,
      xorDistance_comm table.nodeId right.id]
  rw [hypotheticalClose, closest]
  simp only [horder]
  rfl

omit [LinearOrder Score] in
theorem others_hypotheticalClose_subset (remaining : List NodeInfo) :
    others node.id (config.hypotheticalClose table.nodeId node remaining) ⊆ remaining := by
  intro other hmem
  obtain ⟨hclose, hne⟩ := mem_filter.mp hmem
  rw [hypotheticalClose_eq_closest] at hclose
  rcases mem_append.mp (closest_subset _ _ hclose) with hold | hnew
  · exact mem_of_mem_filter hold
  · rw [mem_singleton.mp hnew] at hne
    simp at hne

omit [LinearOrder Score] in
/-- A candidate in front of the last of the remaining peers leaves the closest `K - 1` of
them in the group, wherever it stands itself. -/
theorem rank_lt_iff_of_candidateInClose {remaining : List NodeInfo} {other : NodeInfo}
    (hshort : remaining.length ≤ config.kValue) (hmem : other ∈ remaining)
    (hin : config.candidateInClose table.nodeId node.id remaining = true) :
    (rank (distanceFrom table.nodeId) remaining other +
        if distanceFrom table.nodeId node < distanceFrom table.nodeId other then 1 else 0) <
          config.kValue ↔
      rank (distanceFrom table.nodeId) remaining other < config.kValue - 1 := by
  constructor
  · intro hrank
    split at hrank
    · omega
    · next hfar =>
        have hbelow : rank (distanceFrom table.nodeId) remaining other < remaining.length :=
          rank_lt_length hmem
        rw [candidateInClose, Bool.or_eq_true, decide_eq_true_eq] at hin
        rcases hin with hfree | hfront
        · omega
        · cases hlast : remaining.getLast? with
          | none =>
            rw [getLast?_eq_none_iff.mp hlast] at hmem
            cases hmem
          | some last =>
            rw [hlast] at hfront
            simp only [decide_eq_true_eq] at hfront
            rw [xorDistance_comm table.nodeId, xorDistance_comm table.nodeId] at hfront
            -- The last peer is behind the candidate, and the other one is not.
            have hbehind : distanceFrom table.nodeId other < distanceFrom table.nodeId last :=
              (Nat.le_of_not_lt hfar).trans_lt hfront
            obtain ⟨front, rfl⟩ := getLast?_eq_some_iff.mp hlast
            have hother : other ∈ front := by
              rcases mem_append.mp hmem with hother | heq
              · exact hother
              · rw [mem_singleton.mp heq] at hbehind
                exact absurd hbehind (Nat.lt_irrefl _)
            have hless : rank (distanceFrom table.nodeId) front other < front.length :=
              rank_lt_length hother
            rw [rank_append_singleton, if_neg (Nat.lt_asymm hbehind)]
            rw [length_append, length_singleton] at hshort
            omega
  · intro hrank
    split <;> omega

variable (hvalid : table.Valid localId k) (habsent : table.findNodeById node.id = none)
include hvalid habsent

omit [LinearOrder Score] in
theorem others_remainingGroup :
    others node.id (config.remainingGroup table gone) = config.remainingGroup table gone := by
  rw [others, filter_eq_self]
  intro other hmem
  rw [bne_iff_ne]
  intro heq
  apply hvalid.mem_ids_of_mem_allNodes (closest_subset _ _ (remainingGroup_subset hmem))
  rw [heq, habsent]

omit [LinearOrder Score] in
/-- The check compares the candidate with the closest `K - 1` of the remaining peers. -/
theorem others_hypotheticalClose
    (hin : config.candidateInClose table.nodeId node.id (config.remainingGroup table gone) = true) :
    others node.id (config.hypotheticalClose table.nodeId node
      (config.remainingGroup table gone)) = config.checkedGroup table gone := by
  have hsorted : (config.remainingGroup table gone).Pairwise fun left right =>
      distanceFrom table.nodeId left < distanceFrom table.nodeId right :=
    (pairwise_closest (nodup_distances _ hvalid.nodup_allNodes_ids) _).filter _
  have hshort : (config.remainingGroup table gone).length ≤ config.kValue := by
    refine (length_filter_le _ _).trans ?_
    rw [closeGroup_eq_closest, length_closest]
    exact Nat.min_le_left _ _
  have hsame : others node.id (config.remainingGroup table gone) = _ :=
    others_remainingGroup hvalid habsent
  have hids : ((config.remainingGroup table gone ++ [node]).map NodeInfo.id).Nodup := by
    rw [map_append, map_singleton, nodup_append_comm, singleton_append, nodup_cons]
    constructor
    · rw [← hsame]
      simp [others]
    · exact (((table.allNodes.perm_insertionSort _).map _).nodup_iff.mpr
        hvalid.nodup_allNodes_ids).sublist ((filter_sublist.trans (take_sublist _ _)).map _)
  rw [hypotheticalClose_eq_closest, hsame, checkedGroup]
  apply eq_of_mem_iff ((pairwise_closest (nodup_distances _ hids) _).filter _)
    (hsorted.sublist (take_sublist _ _))
  intro other
  rw [mem_take_iff_of_pairwise hsorted, mem_filter,
    mem_closest_iff (nodup_distances _ hids), rank_append_singleton, mem_append, mem_singleton]
  constructor
  · rintro ⟨⟨hold | rfl, hrank⟩, hne⟩
    · exact ⟨hold, (rank_lt_iff_of_candidateInClose hshort hold hin).mp hrank⟩
    · simp at hne
  · rintro ⟨hold, hrank⟩
    exact ⟨⟨.inl hold, (rank_lt_iff_of_candidateInClose hshort hold hin).mpr hrank⟩,
      (mem_filter.mp (hsame.symm ▸ hold : other ∈ others node.id _)).2⟩

end

/-! ## The plan -/

section

variable {allowStaleRevalidation : Bool} {closeSwaps : List PeerId} {node : NodeInfo}

/-- The three parts of a plan that ends in an insertion. -/
theorem planAdmission_parts {table : RoutingTable}
    (hplan : config.planAdmission observation table index node ips
      allowStaleRevalidation = .ok (.insert swaps)) :
    ∃ bucketSwaps closeSwaps, config.planSwaps observation table.nodeId node.id .bucket
        (table.buckets index).nodes [] ips [] = .ok bucketSwaps ∧
      config.planCloseSwaps observation table node ips bucketSwaps = .ok closeSwaps ∧
      config.capacityPlan observation table index node.id bucketSwaps closeSwaps
        allowStaleRevalidation = .ok (.insert swaps) := by
  simp only [planAdmission, bind, Except.bind] at hplan
  split at hplan
  · cases hplan
  · next bucketSwaps hbucket =>
      split at hplan
      · cases hplan
      · next closeSwaps hclose => exact ⟨bucketSwaps, closeSwaps, hbucket, hclose, hplan⟩

omit [LinearOrder Score] in
/-- Leaving an absent candidate out of its bucket changes nothing. -/
theorem others_bucket_of_absent (hindex : table.bucketIndex node.id = some index)
    (habsent : table.findNodeById node.id = none) :
    others node.id (table.buckets index).nodes = (table.buckets index).nodes := by
  rw [others, filter_eq_self]
  intro other hother
  rw [bne_iff_ne]
  intro heq
  have hmember : node.id ∈ (table.buckets index).ids :=
    heq ▸ mem_map_of_mem hother
  rw [← KBucket.isSome_findNode_iff, ← findNodeById_eq hindex, habsent] at hmember
  cases hmember

theorem isSome_trustSwap_iff {bucket : KBucket} :
    (config.trustSwap observation bucket candidate).isSome = true ↔
      config.TrustSwapDue observation bucket candidate := by
  rw [trustSwap, TrustSwapDue]
  split
  · next htrusted =>
      rw [Option.isSome_map, ← and_assoc, and_iff_right htrusted, Option.isSome_iff_ne_none, Ne,
        argmin_eq_none, filter_eq_nil_iff]
      simp
  · next hlow => exact iff_of_false (by simp) fun hdue => hlow ⟨hdue.1, hdue.2.1⟩

theorem bucketDisplaced_subset_evictions : config.bucketDisplaced table index ips ⊆
    config.evictions table index observation candidate ips := by
  rw [evictions, append_assoc]
  exact subset_append_left _ _

theorem closeDisplaced_subset_evictions : config.closeDisplaced table index candidate ips ⊆
    config.evictions table index observation candidate ips :=
  subset_append_right _ _

/-- Whoever leaves the close group yields to the candidate as well. -/
theorem HasPlace.of_mem_closeDisplaced
    (hplace : config.HasPlace table index observation candidate ips) {gone : PeerId}
    (hgone : gone ∈ config.closeDisplaced table index candidate ips) :
    ∃ peer ∈ table.allNodes, peer.id = gone ∧
      config.Yields observation table.nodeId candidate peer ∧
        ∃ ip ∈ ips, ip.isLoopback = false ∧ peer.hasSubnet ip = true := by
  rw [closeDisplaced] at hgone
  split at hgone
  · next hchecked =>
      obtain ⟨peer, hpeer, hreasons⟩ := (hplace.closeGroup hchecked).of_mem_displaced hgone
      exact ⟨peer, closest_subset _ _ (remainingGroup_subset (mem_of_mem_take hpeer)), hreasons⟩
  · cases hgone

theorem capacityPlan_eq_insert_iff :
    config.capacityPlan observation table index candidate (config.bucketDisplaced table index ips)
        (config.closeDisplaced table index candidate ips) allowStaleRevalidation =
          .ok (.insert swaps) ↔
      (config.HasSlot table index candidate ips ∨
        config.TrustSwapDue observation (table.buckets index) candidate) ∧
      swaps = config.evictions table index observation candidate ips := by
  have hslot : (decide ((table.buckets index).nodes.length < (table.buckets index).maxSize) ||
      !(config.bucketDisplaced table index ips).isEmpty ||
      (config.closeDisplaced table index candidate ips).any fun swap =>
        table.bucketIndex swap == some index) = true ↔
      config.HasSlot table index candidate ips := by
    simp [HasSlot, or_assoc]
  rw [← isSome_trustSwap_iff, evictions]
  simp only [capacityPlan]
  by_cases hfree : config.HasSlot table index candidate ips
  · rw [if_pos (hslot.mpr hfree), if_pos hfree, append_nil, Except.ok.injEq,
      AdmissionPlan.insert.injEq, and_iff_right (Or.inl hfree)]
    exact eq_comm
  · rw [if_neg (mt hslot.mp hfree), if_neg hfree]
    cases config.trustSwap observation (table.buckets index) candidate with
    | none =>
      simp only [hfree, Option.isSome_none, Bool.false_eq_true, or_self, false_and, iff_false]
      split <;> simp
    | some peer =>
      simp only [Except.ok.injEq, AdmissionPlan.insert.injEq, Option.toList_some,
        Option.isSome_some, or_true, true_and]
      exact eq_comm

variable {localId : PeerId} {k : ℕ} (hvalid : table.Valid localId k)
  (habsent : table.findNodeById node.id = none) (hindex : table.bucketIndex node.id = some index)
include hvalid habsent hindex

theorem planCloseSwaps_eq_ok_iff :
    config.planCloseSwaps observation table node ips (config.bucketDisplaced table index ips) =
        .ok closeSwaps ↔
      (config.isChecked table index node.id ips = true →
        config.GivesWay observation table.nodeId node.id
          (config.checkedGroup table (config.bucketDisplaced table index ips)) ips) ∧
      closeSwaps = config.closeDisplaced table index node.id ips := by
  simp only [planCloseSwaps]
  change (if config.isChecked table index node.id ips = true then
    config.planSwaps observation table.nodeId node.id .closeGroup
      (config.hypotheticalClose table.nodeId node
        (config.remainingGroup table (config.bucketDisplaced table index ips)))
      (config.bucketDisplaced table index ips) ips [] else .ok []) = _ ↔ _
  by_cases hchecked : config.isChecked table index node.id ips = true
  · have hearlier : ∀ other ∈ config.hypotheticalClose table.nodeId node
        (config.remainingGroup table (config.bucketDisplaced table index ips)),
        other.id ∉ config.bucketDisplaced table index ips := by
      intro other hother hgone
      by_cases hid : other.id = node.id
      · obtain ⟨peer, hpeer, heq⟩ := mem_map.mp hgone
        have hbucket := (mem_contenders (reduceOption_mem_iff.mp hpeer)).1
        rw [← others_bucket_of_absent hindex habsent] at hbucket
        simpa [heq, hid] using (mem_filter.mp hbucket).2
      · have hkept := (mem_filter.mp (others_hypotheticalClose_subset _
          (mem_filter.mpr ⟨hother, by simpa using hid⟩))).2
        simp [hgone] at hkept
    rw [if_pos hchecked, planSwaps_eq_ok_iff hearlier, closeDisplaced, if_pos hchecked]
    simp only [contains_nil, Bool.not_false, filter_true, nil_append]
    rw [others_hypotheticalClose hvalid habsent hchecked]
    simp [hchecked]
  · rw [if_neg hchecked, closeDisplaced, if_neg hchecked]
    simp [hchecked, eq_comm]

/-- A candidate that is not in the table is inserted exactly if there is a place for it,
and the evictions are those that make it. -/
theorem planAdmission_eq_insert_iff :
    config.planAdmission observation table index node ips allowStaleRevalidation =
        .ok (.insert swaps) ↔
      config.HasPlace table index observation node.id ips ∧
        swaps = config.evictions table index observation node.id ips := by
  have hbucket (bucketSwaps : List PeerId) : config.planSwaps observation table.nodeId node.id
      .bucket (table.buckets index).nodes [] ips [] = .ok bucketSwaps ↔
        config.GivesWay observation table.nodeId node.id (table.buckets index).nodes ips ∧
          bucketSwaps = config.bucketDisplaced table index ips := by
    rw [planSwaps_eq_ok_iff fun _ _ => not_mem_nil]
    simp only [contains_nil, Bool.not_false, filter_true, nil_append]
    rw [others_bucket_of_absent hindex habsent, bucketDisplaced]
  constructor
  · intro hplan
    obtain ⟨bucketSwaps, closeSwaps, hfirst, hclose, hcapacity⟩ := planAdmission_parts hplan
    obtain ⟨hway, rfl⟩ := (hbucket bucketSwaps).mp hfirst
    obtain ⟨hcloseWay, rfl⟩ := (planCloseSwaps_eq_ok_iff hvalid habsent hindex).mp hclose
    obtain ⟨hslot, hswaps⟩ := capacityPlan_eq_insert_iff.mp hcapacity
    exact ⟨⟨hway, hcloseWay, hslot⟩, hswaps⟩
  · rintro ⟨hplace, hswaps⟩
    rw [planAdmission, (hbucket _).mpr ⟨hplace.bucket, rfl⟩]
    simp only [bind, Except.bind]
    rw [(planCloseSwaps_eq_ok_iff hvalid habsent hindex).mpr ⟨hplace.closeGroup, rfl⟩]
    exact capacityPlan_eq_insert_iff.mpr ⟨hplace.slot, hswaps⟩

variable (allowStaleRevalidation) in
theorem exists_insert_iff_hasPlace :
    (∃ swaps, config.planAdmission observation table index node ips allowStaleRevalidation =
        .ok (.insert swaps)) ↔ config.HasPlace table index observation node.id ips := by
  simp only [planAdmission_eq_insert_iff hvalid habsent hindex, exists_and_left, exists_eq,
    and_true]

end

end EngineConfig

end SaorsaCore.Routing
