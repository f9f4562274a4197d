import SaorsaCore.Routing.CloseGroup

/-!
# Refused admissions

An admission evicts before it inserts, so an insertion that fails at the end would
lose the evicted peers.  The plan rules this out: it ends in an insertion only if the
bucket has a free slot, or if one of the planned evictions frees one.
-/

namespace SaorsaCore.Routing

open List RoutingTable EngineConfig KBucket HashOrder

theorem NodeInfo.storableTyped_retainStorableAddresses_ne_nil {incoming : NodeInfo}
    (hnonempty : incoming.retainStorableAddresses.addresses ≠ []) :
    storableTyped incoming.retainStorableAddresses ≠ [] := by
  set kept := (incoming.addresses.zip incoming.paddedTypes).filter fun pair =>
    pair.1.isStorable with hkept
  have haddresses : incoming.retainStorableAddresses.addresses = kept.map Prod.fst := rfl
  have htypes : incoming.retainStorableAddresses.paddedTypes = kept.map Prod.snd := by
    simp [paddedTypes, retainStorableAddresses, withTyped, hkept]
  rw [haddresses, Ne, map_eq_nil_iff] at hnonempty
  have hstorable : ∀ pair ∈ kept, pair.1.isStorable = true := fun pair hmem =>
    (mem_filter.mp hmem).2
  rw [storableTyped, haddresses, htypes, zip_map', Ne, map_eq_nil_iff, take_eq_nil_iff, not_or]
  refine ⟨by decide, ?_⟩
  rw [filter_eq_self.mpr (by simpa using hstorable)]
  simpa using hnonempty

namespace EngineConfig

variable {Score : Type*} {config : EngineConfig Score} {localId : PeerId} {k : ℕ}
  {table : RoutingTable} {node : NodeInfo} {index : Fin 256} {swaps : List PeerId}
  {now : ℕ}

/-- An eviction from a bucket that is not overfull leaves a free slot. -/
theorem length_filter_lt_of_swap (hvalid : table.Valid localId k) {other : NodeInfo}
    (hother : other ∈ (table.buckets index).nodes) (hswap : other.id ∈ swaps) :
    ((table.buckets index).nodes.filter fun node =>
      !swaps.contains node.id).length < (table.buckets index).maxSize := by
  calc ((table.buckets index).nodes.filter fun node =>
          !swaps.contains node.id).length
      < (table.buckets index).nodes.length :=
        length_filter_lt_length_iff_exists.mpr ⟨other, hother, by simpa using hswap⟩
    _ ≤ k := hvalid.length_le index
    _ = (table.buckets index).maxSize := (hvalid.maxSize index).symm

/-- With a free slot after the evictions, a new peer with a storable address is
inserted. -/
theorem executeAdmission_admits (hvalid : table.Valid localId k)
    (habsent : table.findNodeById node.id = none)
    (hindex : table.bucketIndex node.id = some index)
    (hstorable : KBucket.storableTyped node ≠ [])
    (hslot : ((table.buckets index).nodes.filter fun node =>
      !swaps.contains node.id).length < (table.buckets index).maxSize) :
    ∃ events, (config.executeAdmission table node swaps now).2 = .ok (.admitted events) := by
  have hevicts := executeSwaps_evicts hvalid swaps
  set evicted := (executeSwaps table swaps).1 with hevicted
  have hgone : evicted.findNodeById node.id = none := by
    rw [hevicts.findNode, habsent, ite_self]
  have hplace : evicted.bucketIndex node.id = some index := by
    rw [RoutingTable.bucketIndex, hevicts.valid.nodeId, ← hvalid.nodeId]
    exact hindex
  have hunpublished : evicted.hasAddressPublication node.id = false := by
    cases hpublication : evicted.addressPublications node.id with
    | none => simp [RoutingTable.hasAddressPublication, RoutingTable.publishSeqFor,
        RoutingTable.transportAddressSet, hpublication]
    | some publication =>
      have hpresent := hevicts.valid.published node.id publication hpublication
      rw [hgone] at hpresent
      cases hpresent
  have hfree : (evicted.buckets index).nodes.length < (evicted.buckets index).maxSize := by
    rw [hevicts.nodes index, hevicts.valid.maxSize, ← hvalid.maxSize index]
    exact hslot
  have hadded : ∃ inserted, evicted.addNode node now = .ok inserted := by
    rw [RoutingTable.findNodeById_eq hplace] at hgone
    rw [RoutingTable.addNode, hunpublished, hplace]
    simp [KBucket.addNode, hstorable, hgone, hfree, Except.map]
  obtain ⟨inserted, hinserted⟩ := hadded
  simp only [executeAdmission, ← hevicted, hinserted]
  exact ⟨_, rfl⟩

/-- Without evictions a refused insertion has done nothing. -/
theorem addUnchecked_unchanged
    (hrefused : ∀ events, (config.addUnchecked table node now).2 ≠ .ok (.admitted events)) :
    (config.addUnchecked table node now).1 = table := by
  rw [addUnchecked] at hrefused ⊢
  split at hrefused
  · exact absurd rfl (hrefused [])
  · next habsent =>
      rw [if_neg habsent]
      simp only [executeAdmission, executeSwaps, foldl_nil] at hrefused ⊢
      split at hrefused
      · rfl
      · exact absurd rfl (hrefused _)

variable [LinearOrder Score] {observation : Observation Score} {ips : List IpAddr}
  {allowStaleRevalidation : Bool}

section

variable (hvalid : table.Valid localId k)
include hvalid

theorem plan_leaves_slot (habsent : table.findNodeById node.id = none)
    (hindex : table.bucketIndex node.id = some index)
    (hplan : config.planAdmission observation table index node ips
      allowStaleRevalidation = .ok (.insert swaps)) :
    ((table.buckets index).nodes.filter fun node =>
      !swaps.contains node.id).length < (table.buckets index).maxSize := by
  obtain ⟨hplace, rfl⟩ := (planAdmission_eq_insert_iff hvalid habsent hindex).mp hplan
  by_cases hslot : config.HasSlot table index node.id ips
  · rcases hslot with hfree | hdisplaced | ⟨gone, hgone, hhere⟩
    · exact (length_filter_le _ _).trans_lt hfree
    · obtain ⟨gone, hgone⟩ := exists_mem_of_ne_nil _ hdisplaced
      obtain ⟨other, hother, rfl, -⟩ := hplace.bucket.of_mem_displaced hgone
      exact length_filter_lt_of_swap hvalid hother (bucketDisplaced_subset_evictions hgone)
    · obtain ⟨other, hother, rfl, -⟩ := hplace.of_mem_closeDisplaced hgone
      obtain ⟨position, hnode⟩ := RoutingTable.Valid.mem_allNodes_iff.mp hother
      have hposition := hvalid.placed position other.id (mem_map_of_mem hnode)
      rw [hhere, Option.some.injEq] at hposition
      exact length_filter_lt_of_swap hvalid (hposition ▸ hnode)
        (closeDisplaced_subset_evictions hgone)
  · have hdue := isSome_trustSwap_iff.mpr (hplace.slot.resolve_left hslot)
    obtain ⟨gone, hgone⟩ := Option.isSome_iff_exists.mp hdue
    have hevicted : gone ∈ config.evictions table index observation node.id ips := by
      simp [evictions, hslot, hgone]
    rw [trustSwap] at hgone
    split at hgone
    · obtain ⟨other, hother, rfl⟩ := Option.map_eq_some_iff.mp hgone
      exact length_filter_lt_of_swap hvalid (mem_of_mem_filter (argmin_mem hother)) hevicted
    · cases hgone

/-- `add_with_diversity` changes nothing unless it admits the candidate. -/
theorem addWithDiversity_unchanged (hstorable : storableTyped node ≠ [])
    (hrefused : ∀ events, (config.addWithDiversity observation table node ips
      allowStaleRevalidation).2 ≠ .ok (.admitted events)) :
    (config.addWithDiversity observation table node ips
      allowStaleRevalidation).1 = table := by
  rcases config.addWithDiversity_cases observation table node ips
    allowStaleRevalidation rfl with
    ⟨hsame, -⟩ | ⟨-, hdone⟩ | ⟨-, hdone⟩ | ⟨index, swaps, hindex, habsent, hplan, hdone⟩
  · exact hsame
  · rw [hdone] at hrefused ⊢
    exact addUnchecked_unchanged hrefused
  · rw [hdone] at hrefused
    exact absurd rfl (hrefused [])
  · rw [← findNodeById_eq hindex] at habsent
    obtain ⟨events, hadmitted⟩ := executeAdmission_admits hvalid habsent hindex
      hstorable (plan_leaves_slot hvalid habsent hindex hplan)
    rw [hdone] at hrefused
    exact absurd hadmitted (hrefused events)

theorem addNode_unchanged
    {order : HashOrder IpAddr}
    (hrefused : ∀ events, (config.addNode observation order table node).2 ≠
      .ok (.admitted events)) :
    (config.addNode observation order table node).1 = table := by
  simp only [addNode] at hrefused ⊢
  split at hrefused
  · next hself => rw [if_pos hself]
  · next hself =>
      rw [if_neg hself]
      split at hrefused
      · next hempty => rw [if_pos hempty]
      · next hempty =>
          rw [if_neg hempty]
          have hstorable :=
            NodeInfo.storableTyped_retainStorableAddresses_ne_nil (by simpa using hempty)
          split at hrefused
          · next hnone =>
              rw [if_pos hnone]
              exact addUnchecked_unchanged hrefused
          · next hsome =>
              rw [if_neg hsome]
              exact addWithDiversity_unchanged hvalid hstorable hrefused

/-- `re_evaluate_admission` changes nothing when it returns an error. -/
theorem reEvaluateAdmission_of_error (hstorable : storableTyped node ≠ []) {refusal : RoutingError}
    (hresult : (config.reEvaluateAdmission observation table node ips).2 = .error refusal) :
    (config.reEvaluateAdmission observation table node ips).1 = table := by
  have hunchanged : (∀ events, (config.addWithDiversity observation table node ips false).2 ≠
        .ok (.admitted events)) →
      (config.addWithDiversity observation table node ips false).1 = table :=
    addWithDiversity_unchanged hvalid hstorable
  rw [reEvaluateAdmission] at hresult ⊢
  split at hresult
  · next after refused hdone =>
      rw [hdone] at hunchanged
      exact hunchanged fun _ hadmitted => by cases hadmitted
  · cases hresult
  · next after _ _ _ _ hdone =>
      rw [hdone] at hunchanged
      exact hunchanged fun _ hadmitted => by cases hadmitted

end

/-- A deferred candidate has an address that can be stored. -/
theorem storableTyped_of_stale {order : HashOrder IpAddr} {candidate : NodeInfo}
    {candidateIps : List IpAddr} {stale : List (PeerId × Fin 256)}
    (hresult : (config.addNode observation order table node).2 =
      .ok (.staleRevalidationNeeded candidate candidateIps index stale)) :
    storableTyped candidate ≠ [] := by
  obtain ⟨rfl, -⟩ := config.addNode_eq_stale observation hresult
  apply NodeInfo.storableTyped_retainStorableAddresses_ne_nil
  intro hempty
  simp only [addNode] at hresult
  split at hresult
  · cases hresult
  · rw [if_pos (by simp [hempty])] at hresult
    cases hresult

end EngineConfig

/-- An admission that is refused or put off leaves a table that the engine can reach as it
was, and so does a retry that is refused, for a candidate that was put off before. -/
theorem RoutingTable.run_refused_unchanged {Score : Type*} [LinearOrder Score]
    (codec : AddressCodec) (config : EngineConfig Score) {localId : PeerId} {k now : ℕ}
    {ops : List (RoutingOp Score)} {table : RoutingTable}
    (hrun : (RoutingTable.new localId k now).run codec config ops = table)
    (observation : EngineConfig.Observation Score) :
    (∀ order incoming,
      (∀ events, (config.addNode observation order table incoming).2 ≠
        .ok (.admitted events)) →
      (config.addNode observation order table incoming).1 = table) ∧
    ∀ earlier seen order incoming candidate ips index stale,
      (config.addNode seen order earlier incoming).2 =
        .ok (.staleRevalidationNeeded candidate ips index stale) →
      ∀ refusal, (config.reEvaluateAdmission observation table candidate ips).2 =
        .error refusal →
      (config.reEvaluateAdmission observation table candidate ips).1 = table := by
  have hvalid : table.Valid localId k := by
    rw [← hrun]
    exact run_valid codec config ops (RoutingTable.Valid.new localId k now)
  constructor
  · intro order incoming hrefused
    exact addNode_unchanged hvalid hrefused
  · intro earlier seen order incoming candidate ips index stale hstale refusal hrefused
    exact reEvaluateAdmission_of_error hvalid (storableTyped_of_stale hstale) hrefused

/-! Peer `11` belongs into the bucket of the peers `8`, `9`, `10` and `12`, which is full
with `K = 4`.  It is refused while these are alive, put off once they are stale, and
refused again while they are still there. -/

section Example

def fullBucketAdmissions : List (RoutingOp ℕ) :=
  [exampleNode 8 [0xcb007101], exampleNode 9 [0xcb007201], exampleNode 10 [0xcb007301],
    exampleNode 12 [0xcb007401]].map fun node =>
      .admission (insertion _) { trustScore := fun _ => 50, now := 0 } node

def fullBucket : RoutingTable :=
  (RoutingTable.new 0 4 0).run { decode := fun _ => none } (EngineConfig.withDefaults 4)
    fullBucketAdmissions

theorem fullBucket_eq_run :
    (RoutingTable.new 0 4 0).run { decode := fun _ => none } (EngineConfig.withDefaults 4)
      fullBucketAdmissions = fullBucket :=
  rfl

private def neutralAt (now : ℕ) : EngineConfig.Observation ℕ :=
  { trustScore := fun _ => 50, now := now }

private theorem fullBucket_stale :
    ((EngineConfig.withDefaults 4).addNode (neutralAt 1000) (insertion _)
      fullBucket (exampleNode 11 [0xcb007501])).2 =
        .ok (.staleRevalidationNeeded (exampleNode 11 [0xcb007501]) [.v4 0xcb007501] 252
          [(8, 252), (9, 252), (10, 252), (12, 252)]) := by
  decide +kernel

theorem fullBucket_unchanged :
    ((EngineConfig.withDefaults 4).addNode (neutralAt 0) (HashOrder.insertion _)
        fullBucket (exampleNode 11 [0xcb007501])).1 = fullBucket ∧
      ((EngineConfig.withDefaults 4).addNode (neutralAt 1000) (HashOrder.insertion _)
        fullBucket (exampleNode 11 [0xcb007501])).1 = fullBucket ∧
      ((EngineConfig.withDefaults 4).reEvaluateAdmission (neutralAt 1000) fullBucket
        (exampleNode 11 [0xcb007501]) [.v4 0xcb007501]).1 = fullBucket := by
  have hlive : ((withDefaults 4).addNode (neutralAt 0) (insertion _)
      fullBucket (exampleNode 11 [0xcb007501])).2 = .error (.noStalePeers 4 4) := by
    decide +kernel
  have hretry : ((withDefaults 4).reEvaluateAdmission (neutralAt 1000) fullBucket
      (exampleNode 11 [0xcb007501]) [.v4 0xcb007501]).2 = .error (.noStalePeers 4 4) := by
    decide +kernel
  have hunchanged := fun now =>
    run_refused_unchanged _ _ fullBucket_eq_run (neutralAt now)
  refine ⟨?_, ?_, ?_⟩
  · apply (hunchanged 0).1
    intro events
    rw [hlive]
    simp
  · apply (hunchanged 1000).1
    intro events
    rw [fullBucket_stale]
    simp
  · exact (hunchanged 1000).2 _ _ _ _ _ _ _ _ fullBucket_stale _ hretry

end Example

end SaorsaCore.Routing
