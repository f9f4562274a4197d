import SaorsaCore.Routing.Contenders

/-!
# IP diversity inside the buckets

A bucket may hold only so many peers with one exact IP, and only so many with one
subnet.  An address whose limit is used up has room again once one of its rivals has
left, and later evictions cannot take that room away.  So the bucket without all who
have to give way has room for each address of the candidate.
-/

namespace SaorsaCore.Routing

open List RoutingTable EngineConfig NodeInfo

/-- Removing one matching element lowers a count. -/
private theorem countP_filter_lt {A : Type*} {counted kept : A → Bool}
    {values : List A} {value : A} (hmem : value ∈ values)
    (hcounted : counted value = true) (hdropped : kept value = false) :
    (values.filter kept).countP counted < values.countP counted := by
  have hsplit := countP_eq_countP_filter_add values counted kept
  have hpositive : 0 < (values.filter fun other => !kept other).countP counted := by
    rw [countP_pos_iff]
    exact ⟨value, mem_filter.mpr ⟨hmem, by simp [hdropped]⟩, hcounted⟩
  omega

namespace EngineConfig

variable {Score : Type*} (config : EngineConfig Score)

/-- No IP and no subnet occurs on more peers than its limit allows. -/
def WithinLimits (nodes : List NodeInfo) : Prop :=
  ∀ ip, nodes.countP (fun node => node.hasIp ip) ≤ config.limitIp ∧
    nodes.countP (fun node => node.hasSubnet ip) ≤ config.limitSubnet

/-- There is room for one more peer with this IP. -/
def HasRoomFor (nodes : List NodeInfo) (ip : IpAddr) : Prop :=
  nodes.countP (fun node => node.hasIp ip) < config.limitIp ∧
    nodes.countP (fun node => node.hasSubnet ip) < config.limitSubnet

variable {config}

theorem WithinLimits.sublist {nodes fewer : List NodeInfo}
    (hwithin : config.WithinLimits nodes) (hsublist : fewer.Sublist nodes) :
    config.WithinLimits fewer := by
  intro ip
  exact ⟨hsublist.countP_le.trans (hwithin ip).1, hsublist.countP_le.trans (hwithin ip).2⟩

theorem HasRoomFor.sublist {nodes fewer : List NodeInfo} {ip : IpAddr}
    (hroom : config.HasRoomFor nodes ip) (hsublist : fewer.Sublist nodes) :
    config.HasRoomFor fewer ip :=
  ⟨hsublist.countP_le.trans_lt hroom.1, hsublist.countP_le.trans_lt hroom.2⟩

variable {node : NodeInfo}

/-- A peer may join if there is room for each of its non-loopback IPs. -/
theorem WithinLimits.append {nodes : List NodeInfo} (hwithin : config.WithinLimits nodes)
    (hroom : ∀ ip ∈ node.allIps, ip.isLoopback = false → config.HasRoomFor nodes ip) :
    config.WithinLimits (nodes ++ [node]) := by
  intro ip
  rw [countP_append, countP_append, countP_singleton, countP_singleton]
  constructor
  · split
    · next hip =>
        obtain ⟨hmem, hloopback⟩ := (node.hasIp_iff ip).mp hip
        exact (hroom ip hmem hloopback).1
    · exact (hwithin ip).1
  · split
    · next hsubnet =>
        -- The subnet counts at `ip` are those at the peer's own address.
        obtain ⟨existing, hmem, hloopback, hsame⟩ :=
          (node.hasSubnet_iff ip).mp hsubnet
        have hcount := (hroom existing hmem hloopback).2
        simp only [hasSubnet, hsame] at hcount
        exact hcount
    · exact (hwithin ip).2

variable {self localId : PeerId} {ip : IpAddr} {ips : List IpAddr} {nodes : List NodeInfo}

theorem hasRoomFor_of_rivals (hrivals : config.rivals nodes ip = none) :
    config.HasRoomFor nodes ip := by
  rw [HasRoomFor, countP_eq_length_filter, countP_eq_length_filter]
  simp only [rivals] at hrivals
  split at hrivals
  · cases hrivals
  · next hip =>
      split at hrivals
      · cases hrivals
      · next hsubnet => exact ⟨Nat.lt_of_not_le hip, Nat.lt_of_not_le hsubnet⟩

/-- Without one of its rivals an IP has room, if the limits were kept before. -/
theorem hasRoomFor_without_rival (hwithin : config.WithinLimits nodes) {sharing : List NodeInfo}
    (hrivals : config.rivals nodes ip = some sharing) {peer : NodeInfo} (hpeer : peer ∈ sharing) :
    config.HasRoomFor (nodes.filter fun node => node.id != peer.id) ip := by
  have hdropped : (peer.id != peer.id) = false := by simp
  obtain ⟨hmem, hsubnet⟩ := rivals_subset hrivals peer hpeer
  refine ⟨?_, (countP_filter_lt hmem hsubnet hdropped).trans_le (hwithin ip).2⟩
  simp only [rivals] at hrivals
  split at hrivals
  · cases hrivals
    exact (countP_filter_lt hmem (mem_filter.mp hpeer).2 hdropped).trans_le (hwithin ip).1
  · next hroom =>
      rw [countP_eq_length_filter] at *
      exact (filter_sublist.filter _).length_le.trans_lt (Nat.lt_of_not_le hroom)

/-- Once everyone in the way has left, there is room for each of the IPs. -/
theorem hasRoomFor_of_displaced (hwithin : config.WithinLimits nodes)
    (hthere : ∀ contender ∈ config.contenders self nodes ips, contender.isSome = true)
    (hmem : ip ∈ ips) (hloopback : ip.isLoopback = false) :
    config.HasRoomFor (nodes.filter fun node =>
      !(config.displaced self nodes ips).contains node.id) ip := by
  induction ips generalizing nodes with
  | nil => cases hmem
  | cons head ips ih =>
    rw [displaced]
    rw [contenders] at hthere ⊢
    by_cases hhead : head.isLoopback = true
    · rw [if_pos hhead] at hthere ⊢
      rcases mem_cons.mp hmem with rfl | htail
      · rw [hloopback] at hhead
        cases hhead
      · exact ih hwithin hthere htail
    rw [if_neg hhead] at hthere ⊢
    cases hrivals : config.rivals nodes head with
    | none =>
      rw [hrivals] at hthere
      rcases mem_cons.mp hmem with rfl | htail
      · exact (hasRoomFor_of_rivals hrivals).sublist filter_sublist
      · exact ih hwithin hthere htail
    | some sharing =>
      rw [hrivals] at hthere
      simp only at hthere ⊢
      obtain ⟨hfirst, hrest⟩ := forall_mem_cons.mp hthere
      obtain ⟨gone, hgone⟩ := Option.isSome_iff_exists.mp hfirst
      rw [hgone] at hrest ⊢
      -- the rest of the IPs is checked against the peers without the first to leave
      have hview : nodes.filter (fun node =>
          !((some gone :: config.contenders self (nodes.filter fun node =>
            (some gone).all fun gone => node.id != gone.id) ips).reduceOption.map
              NodeInfo.id).contains node.id) =
          (nodes.filter fun node => node.id != gone.id).filter fun node =>
            !(config.displaced self (nodes.filter fun node => node.id != gone.id) ips).contains
              node.id := by
        rw [filter_filter, reduceOption_cons_of_some, map_cons]
        apply filter_congr
        intro node _
        rw [Bool.eq_iff_iff]
        simp [displaced, and_comm]
      rw [hview]
      rcases mem_cons.mp hmem with rfl | htail
      · exact (hasRoomFor_without_rival hwithin hrivals (argmax_mem hgone)).sublist filter_sublist
      · exact ih (hwithin.sublist filter_sublist) hrest htail

/-! ## Admission keeps every bucket within its limits -/

variable {k : ℕ} {table : RoutingTable} {swaps : List PeerId} {allowStaleRevalidation : Bool}

/-- Every bucket respects both limits. -/
def BucketsWithin (config : EngineConfig Score) (table : RoutingTable) : Prop :=
  ∀ index, config.WithinLimits (table.buckets index).nodes

/-- Evicting and inserting keeps the limits if the bucket has room for the
candidate once the evictions are carried out. -/
theorem executeAdmission_bucketsWithin {now : ℕ} (hvalid : table.Valid localId k)
    (hwithin : config.BucketsWithin table) (habsent : table.findNodeById node.id = none)
    (hroom : ∀ index, table.bucketIndex node.id = some index →
      ∀ ip ∈ node.allIps, ip.isLoopback = false →
        config.HasRoomFor ((table.buckets index).nodes.filter fun other =>
          !swaps.contains other.id) ip) :
    config.BucketsWithin (config.executeAdmission table node swaps now).1 := by
  have hevicts := executeSwaps_evicts hvalid swaps
  have hevicted : config.BucketsWithin (executeSwaps table swaps).1 := by
    intro index
    rw [hevicts.nodes index]
    exact (hwithin index).sublist filter_sublist
  simp only [executeAdmission]
  split
  · exact hevicted
  · next inserted hinserted =>
      have hgone : (executeSwaps table swaps).1.findNodeById node.id = none := by
        rw [hevicts.findNode, habsent]
        simp
      obtain ⟨index, bucket, hindex, hnodes, rfl⟩ :=
        hevicts.valid.addNode_of_absent hgone hinserted
      intro position
      rw [buckets_setBucket]
      split
      · rw [hnodes]
        refine (hevicted index).append ?_
        intro ip hmem hloopback
        rw [hevicts.nodes index]
        refine hroom index ?_ ip (allIps_subset
          (KBucket.addresses_insertedNode_subset node) hmem) hloopback
        rw [bucketIndex, hvalid.nodeId, ← hevicts.valid.nodeId]
        exact hindex
      · exact hevicted position

theorem addUnchecked_bucketsWithin {now : ℕ} (hvalid : table.Valid localId k)
    (hwithin : config.BucketsWithin table)
    (habsent : table.findNodeById node.id = none)
    (hloopback : ∀ ip ∈ node.allIps, ip.isLoopback = true) :
    config.BucketsWithin (config.addUnchecked table node now).1 := by
  rw [addUnchecked, if_neg (by simp [habsent])]
  apply executeAdmission_bucketsWithin hvalid hwithin habsent
  intro _ _ ip hmem hother
  rw [hloopback ip hmem] at hother
  cases hother

variable [LinearOrder Score] {observation : Observation Score}

/-- The check list has to contain the candidate's own addresses. -/
theorem addWithDiversity_bucketsWithin (hvalid : table.Valid localId k)
    (hwithin : config.BucketsWithin table) (habsent : table.findNodeById node.id = none)
    (hcover : node.allIps ⊆ ips) :
    config.BucketsWithin (config.addWithDiversity observation table node ips
      allowStaleRevalidation).1 := by
  rcases config.addWithDiversity_cases observation table node ips
    allowStaleRevalidation rfl with
    ⟨hsame, -⟩ | ⟨hloopback, hresult⟩ | ⟨hpresent, -⟩ | ⟨index, swaps, hindex, -, hplan, hresult⟩
  · rw [hsame]
    exact hwithin
  · rw [hresult]
    apply addUnchecked_bucketsWithin hvalid hwithin habsent
    intro ip hmem
    exact all_eq_true.mp hloopback ip (hcover hmem)
  · rw [habsent] at hpresent
    cases hpresent
  · rw [hresult]
    obtain ⟨hplace, rfl⟩ := (planAdmission_eq_insert_iff hvalid habsent hindex).mp hplan
    apply executeAdmission_bucketsWithin hvalid hwithin habsent
    intro position hposition ip hmem hloopback
    rw [hindex, Option.some.injEq] at hposition
    subst hposition
    have hroom := hasRoomFor_of_displaced (hwithin index) hplace.bucket.isSome (hcover hmem)
      hloopback
    exact hroom.sublist (filter_contains_sublist bucketDisplaced_subset_evictions)

theorem addNode_bucketsWithin (hvalid : table.Valid localId k)
    (hwithin : config.BucketsWithin table) (order : HashOrder IpAddr)
    (incoming : NodeInfo)
    (habsent : table.findNodeById incoming.id = none) :
    config.BucketsWithin (config.addNode observation order table incoming).1 := by
  rw [addNode]
  rw [← id_retainStorableAddresses] at habsent
  generalize incoming.retainStorableAddresses = node at habsent ⊢
  split
  · exact hwithin
  · simp only
    split
    · exact hwithin
    · split
      · next hnone =>
          apply addUnchecked_bucketsWithin hvalid hwithin habsent
          intro ip hmem
          rw [List.isEmpty_iff] at hnone
          have hips := (order.perm node.allIps).mem_iff.mpr hmem
          rw [hnone] at hips
          cases hips
      · apply addWithDiversity_bucketsWithin hvalid hwithin habsent
        exact (order.perm _).symm.subset

/-- Admission of an absent peer, and the retry that follows a revalidation
request, keep every bucket within the limits of every IP and subnet, whatever
they return. -/
theorem admission_bucketsWithin (hvalid : table.Valid localId k)
    (hwithin : config.BucketsWithin table) :
    (∀ (order : HashOrder IpAddr) (incoming : NodeInfo),
      table.findNodeById incoming.id = none →
        config.BucketsWithin
          (config.addNode observation order table incoming).1) ∧
    (∀ (earlier : RoutingTable) (earlierObservation : Observation Score)
      (order : HashOrder IpAddr) (incoming candidate : NodeInfo)
      (candidateIps : List IpAddr) (index : Fin 256)
      (stale : List (PeerId × Fin 256)),
      (config.addNode earlierObservation order earlier incoming).2 =
          .ok (.staleRevalidationNeeded candidate candidateIps index stale) →
        table.findNodeById candidate.id = none →
          config.BucketsWithin
            (config.reEvaluateAdmission observation table candidate
              candidateIps).1) := by
  refine ⟨addNode_bucketsWithin hvalid hwithin, ?_⟩
  intro earlier earlierObservation order incoming candidate candidateIps index
    stale hstale habsent
  obtain ⟨-, hips⟩ := config.addNode_eq_stale earlierObservation hstale
  have hcover : candidate.allIps ⊆ candidateIps := by
    rw [hips]
    exact (order.perm _).symm.subset
  have hafter : config.BucketsWithin (config.addWithDiversity observation table
      candidate candidateIps false).1 :=
    addWithDiversity_bucketsWithin hvalid hwithin habsent hcover
  rw [reEvaluateAdmission]
  split <;> next heq => simpa [heq] using hafter

end EngineConfig

/-! Two peers behind one IPv4 address, admitted one after the other. -/

section Example

/-- A record with one QUIC address for each of the given IPv4 addresses. -/
def exampleNode (id : PeerId) (ips : List Ipv4Addr) : NodeInfo :=
  { id := id
    addresses := ips.map fun ip => .quic (.v4 ip 9000)
    addressTypes := ips.map fun _ => .direct
    lastSeen := 0 }

private def exampleObservation : EngineConfig.Observation ℕ :=
  { trustScore := fun _ => 50, now := 0 }

private def onePeer : RoutingTable :=
  ((EngineConfig.withDefaults 4).addNode exampleObservation
    (HashOrder.insertion _) (RoutingTable.new 0 4 0) (exampleNode 1 [0xcb007109])).1

private theorem onePeer_valid : onePeer.Valid 0 4 :=
  (RoutingOp.admission (HashOrder.insertion _) exampleObservation
    (exampleNode 1 [0xcb007109])).apply_valid { decode := fun _ => none }
      (withDefaults 4) (RoutingTable.Valid.new 0 4 0)

private theorem onePeer_bucketsWithin : (withDefaults 4).BucketsWithin onePeer :=
  addNode_bucketsWithin (RoutingTable.Valid.new 0 4 0)
    (fun _ _ => by simp [new, KBucket.new]) _ _ (by decide +kernel)

theorem onePeer_admission_bucketsWithin :
    onePeer.findNodeById 1 ≠ none ∧
      (EngineConfig.withDefaults 4).BucketsWithin
        ((EngineConfig.withDefaults 4).addNode exampleObservation
          (HashOrder.insertion _) onePeer (exampleNode 2 [0xcb007109])).1 :=
  ⟨by decide +kernel, (admission_bucketsWithin onePeer_valid onePeer_bucketsWithin).1
      _ _ (by decide +kernel)⟩

end Example

end SaorsaCore.Routing
