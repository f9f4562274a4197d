import SaorsaCore.Routing.Engine

/-!
# The invariant of the routing table

Every operation of the engine, successful or not, keeps the placement of peers,
the capacity of buckets and the agreement between the buckets and the map of
publications.  The operations are collected in one type, so that a history of
the table is a list of them.
-/

namespace SaorsaCore.Routing

open KBucket RoutingTable KeyedList

namespace RoutingTable

/-- The invariant, bucket by bucket. -/
structure Valid (localId : PeerId) (k : ℕ) (table : RoutingTable) : Prop where
  nodeId : table.nodeId = localId
  maxSize : ∀ index, (table.buckets index).maxSize = k
  length_le : ∀ index, (table.buckets index).nodes.length ≤ k
  nodup : table.NodupIds
  placed : ∀ index, ∀ peer ∈ (table.buckets index).ids, table.bucketIndex peer = some index
  published : ∀ peer publication, table.addressPublications peer = some publication →
      (table.findNodeById peer).isSome
  sequenced : ∀ peer publication set, table.addressPublications peer = some publication →
      publication.transport = some set → set.seq = publication.seq ∧ publication.seq ≠ 0

namespace Valid

variable {localId : PeerId} {k : ℕ} {table after : RoutingTable}

theorem new (localId : PeerId) (k now : ℕ) : Valid localId k (RoutingTable.new localId k now) where
  nodeId := rfl
  maxSize _ := rfl
  length_le _ := Nat.zero_le k
  nodup _ := List.nodup_nil
  placed _ _ hmem := by cases hmem
  published _ _ hpublication := by cases hpublication
  sequenced _ _ _ hpublication := by cases hpublication

/-- In a valid table a peer is found exactly when some bucket lists it. -/
theorem mem_ids_iff (hvalid : Valid localId k table) (peer : PeerId) :
    (∃ index, peer ∈ (table.buckets index).ids) ↔ (table.findNodeById peer).isSome := by
  constructor
  · rintro ⟨index, hmem⟩
    rw [findNodeById_eq (hvalid.placed index peer hmem), isSome_findNode_iff]
    exact hmem
  · intro hpresent
    cases hindex : table.bucketIndex peer with
    | none => simp [findNodeById_eq_none hindex] at hpresent
    | some index =>
      rw [findNodeById_eq hindex, isSome_findNode_iff] at hpresent
      exact ⟨index, hpresent⟩

variable {peer : PeerId} {update : NodeInfo → NodeInfo}

section

variable (hvalid : Valid localId k table)
include hvalid

/-- A rewritten record keeps the invariant if the new publications do. -/
theorem of_rewrites
    (hrewrites : Rewrites table after peer update) (hpublished : ∀ other publication,
      after.addressPublications other = some publication → (table.findNodeById other).isSome ∧
          ∀ set, publication.transport = some set →
            set.seq = publication.seq ∧ publication.seq ≠ 0) :
    Valid localId k after where
  nodeId := hrewrites.nodeId.trans hvalid.nodeId
  maxSize index := (hrewrites.maxSize index).trans (hvalid.maxSize index)
  length_le index := by
    have hlength := (hrewrites.ids_perm index).length_eq
    simp only [ids, List.length_map] at hlength
    exact hlength ▸ hvalid.length_le index
  nodup := hrewrites.nodupIds hvalid.nodup
  placed index other hmem := by
    rw [bucketIndex, hrewrites.nodeId]
    exact hvalid.placed index other ((hrewrites.ids_perm index).mem_iff.mp hmem)
  published other publication hpublication := by
    rw [hrewrites.isSome_findNode]
    exact (hpublished other publication hpublication).1
  sequenced other publication set hpublication htransport :=
    (hpublished other publication hpublication).2 set htransport

/-- Operations that leave the publications alone. -/
theorem of_rewrites_of_eq (hrewrites : Rewrites table after peer update)
    (hsame : after.addressPublications = table.addressPublications) :
    Valid localId k after := by
  apply hvalid.of_rewrites hrewrites
  intro other publication hpublication
  rw [hsame] at hpublication
  exact ⟨hvalid.published other publication hpublication,
    fun set => hvalid.sequenced other publication set hpublication⟩

/-- Operations that store a new publication for one present peer. -/
theorem of_rewrites_of_update {stored : AddressPublication}
    (hrewrites : Rewrites table after peer update)
    (hpresent : (table.findNodeById peer).isSome) (hupdate : after.addressPublications =
      Function.update table.addressPublications peer (some stored))
    (hstored : ∀ set, stored.transport = some set →
      set.seq = stored.seq ∧ stored.seq ≠ 0) : Valid localId k after := by
  apply hvalid.of_rewrites hrewrites
  intro other publication hpublication
  rw [hupdate] at hpublication
  by_cases hother : other = peer
  · subst hother
    rw [Function.update_self, Option.some.injEq] at hpublication
    subst hpublication
    exact ⟨hpresent, hstored⟩
  · rw [Function.update_of_ne hother] at hpublication
    exact ⟨hvalid.published other publication hpublication,
      fun set => hvalid.sequenced other publication set hpublication⟩

theorem touchNode (nodeId : PeerId)
    (address : Option MultiAddr) (addressType : AddressType) (now : ℕ) :
    Valid localId k (table.touchNode nodeId address addressType now).1 :=
  hvalid.of_rewrites_of_eq (touchNode_rewrites table nodeId hvalid.nodup address addressType now)
    (addressPublications_touchNode table nodeId address addressType now)

theorem tryTouchLastSeen (nodeId : PeerId)
    (address : Option MultiAddr) (addressType : AddressType) (now : ℕ) :
    Valid localId k (table.tryTouchLastSeen nodeId address addressType now).1 :=
  hvalid.of_rewrites_of_eq (tryTouchLastSeen_rewrites table nodeId address addressType now)
    (addressPublications_tryTouchLastSeen table nodeId address addressType now)

theorem touchLegacyRelayHintIfUnsequenced (nodeId : PeerId) (address : MultiAddr) (now : ℕ) :
    Valid localId k (table.touchLegacyRelayHintIfUnsequenced nodeId address now).1 := by
  rw [RoutingTable.touchLegacyRelayHintIfUnsequenced]
  split
  · exact hvalid
  · exact hvalid.touchNode nodeId (some address) .relay now

theorem mergeTypedAddressUpgradeOnly
    (nodeId : PeerId) (address : MultiAddr) (addressType : AddressType) :
    Valid localId k (table.mergeTypedAddressUpgradeOnly nodeId address addressType).1 :=
  hvalid.of_rewrites_of_eq (mergeTypedAddressUpgradeOnly_rewrites table nodeId address addressType)
    (addressPublications_mergeTypedAddressUpgradeOnly table nodeId address
      addressType)

theorem replaceNodeAddressesWithMode (nodeId : PeerId)
    (typed : List (MultiAddr × AddressType)) (seq : ℕ)
    (mode : AddressReplaceMode) (now : ℕ) :
    Valid localId k (table.replaceNodeAddressesWithMode nodeId typed seq mode now).1 := by
  by_cases haccepts : table.AcceptsV1 nodeId typed seq
  · obtain ⟨hrewrites, hpublications⟩ :=
      replaceNodeAddressesWithMode_applied hvalid.nodup haccepts mode now
    exact hvalid.of_rewrites_of_update hrewrites haccepts.2.2.1 hpublications (by simp)
  · rw [replaceNodeAddressesWithMode_refused haccepts]
    exact hvalid

theorem storeTransportAddressSet (codec : AddressCodec)
    (nodeId : PeerId) (set : TransportAddressSet)
    (native : List (MultiAddr × AddressType)) (mode : AddressReplaceMode)
    (now : ℕ) :
    Valid localId k (table.storeTransportAddressSet codec nodeId set native mode now).1 := by
  by_cases haccepts : table.AcceptsV2 nodeId native set
  · obtain ⟨hrewrites, hpublications⟩ :=
      storeTransportAddressSet_applied hvalid.nodup haccepts codec mode now
    apply hvalid.of_rewrites_of_update hrewrites haccepts.2.2.1 hpublications
    intro stored hstored
    rw [Option.some.injEq] at hstored
    subst hstored
    exact ⟨rfl, haccepts.1⟩
  · rw [storeTransportAddressSet_refused haccepts]
    exact hvalid

theorem removeNode (peer : PeerId) : Valid localId k (table.removeNode peer) where
  nodeId := (nodeId_removeNode table peer).trans hvalid.nodeId
  maxSize index := by
    rw [buckets_removeNode]
    split
    · exact hvalid.maxSize index
    · exact hvalid.maxSize index
  length_le index := by
    rw [buckets_removeNode]
    split
    · exact (List.length_filter_le _ _).trans (hvalid.length_le index)
    · exact hvalid.length_le index
  nodup index := by
    rw [buckets_removeNode]
    split
    · exact (hvalid.nodup index).sublist (map_key_remove_sublist _)
    · exact hvalid.nodup index
  placed index other hmem := by
    rw [bucketIndex, nodeId_removeNode]
    apply hvalid.placed index other
    rw [buckets_removeNode] at hmem
    split at hmem
    · exact (map_key_remove_sublist _).subset hmem
    · exact hmem
  published other publication hpublication := by
    rw [addressPublications_removeNode] at hpublication
    by_cases hother : other = peer
    · simp [hother] at hpublication
    · rw [Function.update_of_ne hother] at hpublication
      rw [findNodeById_removeNode, if_neg hother]
      exact hvalid.published other publication hpublication
  sequenced other publication set hpublication := by
    rw [addressPublications_removeNode] at hpublication
    by_cases hother : other = peer
    · simp [hother] at hpublication
    · rw [Function.update_of_ne hother] at hpublication
      exact hvalid.sequenced other publication set hpublication

end

variable {node : NodeInfo}

variable (hvalid : Valid localId k table)
include hvalid

private theorem insert {index : Fin 256} {bucket : KBucket}
    (hindex : table.bucketIndex node.id = some index)
    (habsent : (table.buckets index).findNode node.id = none)
    (hroom : (table.buckets index).nodes.length < (table.buckets index).maxSize)
    (hnodes : bucket.nodes = (table.buckets index).nodes ++ [KBucket.insertedNode node])
    (hmaxSize : bucket.maxSize = (table.buckets index).maxSize) :
    Valid localId k (table.setBucket index bucket) := by
  have hnew : node.id ∉ (table.buckets index).ids := by
    rw [← isSome_findNode_iff, habsent]
    simp
  have hids : bucket.ids = (table.buckets index).ids ++ [node.id] := by
    rw [ids, hnodes]
    simp [ids]
  refine ⟨hvalid.nodeId, ?_, ?_, ?_, ?_, ?_, hvalid.sequenced⟩
  · intro position
    rw [buckets_setBucket]
    split
    · rw [hmaxSize, hvalid.maxSize]
    · exact hvalid.maxSize position
  · intro position
    rw [buckets_setBucket]
    split
    · rw [hnodes, List.length_append]
      rw [hvalid.maxSize] at hroom
      exact hroom
    · exact hvalid.length_le position
  · intro position
    rw [buckets_setBucket]
    split
    · rw [hids]
      refine List.nodup_append.mpr ⟨hvalid.nodup index, List.nodup_singleton _, ?_⟩
      intro other hother last hlast heq
      rw [heq, List.mem_singleton.mp hlast] at hother
      exact hnew hother
    · exact hvalid.nodup position
  · intro position other hmem
    rw [buckets_setBucket] at hmem
    split at hmem
    · next hposition =>
        rw [hids] at hmem
        rcases List.mem_append.mp hmem with hold | hinserted
        · rw [hposition]
          exact hvalid.placed index other hold
        · rw [List.mem_singleton.mp hinserted, hposition]
          exact hindex
    · exact hvalid.placed position other hmem
  · intro other publication hpublication
    have hother := hvalid.published other publication hpublication
    rw [findNodeById_setBucket]
    split
    · next hsame =>
        rw [findNodeById_eq hsame, isSome_findNode_iff] at hother
        rw [isSome_findNode_iff, hids]
        exact List.mem_append_left _ hother
    · exact hother

theorem addNode {now : ℕ} (hadd : table.addNode node now = .ok after) : Valid localId k after := by
  rcases addNode_eq_ok hadd with ⟨-, rfl⟩ | ⟨-, index, bucket, hindex, hbucket, rfl⟩
  · exact hvalid.touchNode node.id none .unverified now
  · rcases KBucket.addNode_eq_ok hbucket with ⟨-, rfl⟩ | ⟨habsent, hroom, rfl⟩
    · exact hvalid.of_rewrites_of_eq (Rewrites.setBucket hindex
        (KBucket.rewrites_moveToTail (KBucket.id_mergedNode node) (hvalid.nodup index) rfl rfl)) rfl
    · exact hvalid.insert hindex habsent hroom rfl rfl

/-- A successful insertion of an absent peer appends its record to its bucket and
changes nothing else. -/
theorem addNode_of_absent {now : ℕ}
    (habsent : table.findNodeById node.id = none) (hadd : table.addNode node now = .ok after) :
    ∃ index bucket, table.bucketIndex node.id = some index ∧ bucket.nodes =
        (table.buckets index).nodes ++ [KBucket.insertedNode node] ∧
      after = table.setBucket index bucket := by
  rcases addNode_eq_ok hadd with
    ⟨hpublication, -⟩ | ⟨-, index, bucket, hindex, hbucket, rfl⟩
  · -- A stored publication belongs to a present peer.
    cases hentry : table.addressPublications node.id with
    | none =>
      simp [hasAddressPublication, publishSeqFor, transportAddressSet, hentry] at hpublication
    | some publication =>
      have hpresent := hvalid.published node.id publication hentry
      rw [habsent] at hpresent
      cases hpresent
  · rcases KBucket.addNode_eq_ok hbucket with ⟨hpresent, -⟩ | ⟨-, -, rfl⟩
    · rw [← findNodeById_eq hindex, habsent] at hpresent
      cases hpresent
    · exact ⟨index, _, hindex, rfl, rfl⟩

/-- In a valid table a removal filters every bucket. -/
theorem nodes_removeNode (peer : PeerId) (index : Fin 256) :
    ((table.removeNode peer).buckets index).nodes =
      (table.buckets index).nodes.filter fun node => node.id != peer := by
  rw [buckets_removeNode]
  split
  · refine List.filter_congr ?_
    intro node _
    rw [Bool.eq_iff_iff]
    simp
  · next helsewhere =>
      symm
      rw [List.filter_eq_self]
      intro node hnode
      have hplaced := hvalid.placed index node.id (List.mem_map_of_mem hnode)
      rw [bne_iff_ne]
      intro heq
      exact helsewhere (heq ▸ hplaced)

end Valid

end RoutingTable

/-! ## Evictions -/

/-- Executing planned evictions removes exactly the planned peers and reports
each of them once. -/
structure Evicts (localId : PeerId) (k : ℕ) (table : RoutingTable)
    (swaps : List PeerId) (result : RoutingTable × List PeerId) : Prop where
  valid : result.1.Valid localId k
  nodes : ∀ index, (result.1.buckets index).nodes =
    (table.buckets index).nodes.filter fun node => !swaps.contains node.id
  findNode : ∀ peer, result.1.findNodeById peer =
    if peer ∈ swaps then none else table.findNodeById peer
  mem_executed : ∀ peer, peer ∈ result.2 ↔ peer ∈ swaps
  nodup_executed : result.2.Nodup

theorem EngineConfig.executeSwaps_evicts {localId : PeerId} {k : ℕ}
    {table : RoutingTable} (hvalid : table.Valid localId k)
    (swaps : List PeerId) :
    Evicts localId k table swaps (executeSwaps table swaps) := by
  induction swaps using List.reverseRecOn with
  | nil =>
    exact ⟨hvalid, fun _ => by simp [executeSwaps],
      fun _ => by simp [executeSwaps], fun _ => by simp [executeSwaps],
      List.nodup_nil⟩
  | append_singleton swaps peer ih =>
    have hstep : executeSwaps table (swaps ++ [peer]) =
        if (executeSwaps table swaps).2.contains peer then
          executeSwaps table swaps
        else ((executeSwaps table swaps).1.removeNode peer,
          (executeSwaps table swaps).2 ++ [peer]) := by
      rw [executeSwaps, List.foldl_append]
      rfl
    rw [hstep]
    by_cases hmem : peer ∈ swaps
    · have hsame : ∀ other, other ∈ swaps ++ [peer] ↔ other ∈ swaps := by
        intro other
        constructor
        · intro hother
          rcases List.mem_append.mp hother with hold | hnew
          · exact hold
          · rw [List.mem_singleton.mp hnew]
            exact hmem
        · exact fun hold => List.mem_append_left _ hold
      rw [if_pos (by simpa using (ih.mem_executed peer).mpr hmem)]
      exact ⟨ih.valid, fun index => by
          rw [ih.nodes index]
          exact List.filter_congr (by simp [hsame]),
        fun other => by simp only [ih.findNode other, hsame other],
        fun other => (ih.mem_executed other).trans (hsame other).symm,
        ih.nodup_executed⟩
    · have hfresh : peer ∉ (executeSwaps table swaps).2 := by
        rw [ih.mem_executed peer]
        exact hmem
      rw [if_neg (by simpa using hfresh)]
      refine ⟨ih.valid.removeNode peer, ?_, ?_, ?_, ?_⟩
      · intro index
        rw [ih.valid.nodes_removeNode peer index, ih.nodes index, List.filter_filter]
        refine List.filter_congr ?_
        intro node _
        rw [Bool.eq_iff_iff]
        simp [and_comm]
      · intro other
        rw [findNodeById_removeNode, ih.findNode other]
        by_cases hother : other = peer
        · simp [hother]
        · simp [hother]
      · intro other
        simp [ih.mem_executed other]
      · exact List.nodup_append.mpr ⟨ih.nodup_executed, List.nodup_singleton peer, by
            intro other hother last hlast heq
            rw [heq, List.mem_singleton.mp hlast] at hother
            exact hfresh hother⟩

/-! ## Admission as a sequence of table operations -/

namespace EngineConfig

variable {Score : Type*} [LinearOrder Score] (config : EngineConfig Score)

section Admission

-- An admission of `node` only ever touches that peer with its own addresses, removes
-- peers and inserts that peer, so whatever these three keep is kept by every admission.
-- It inserts only a peer that is absent from the table.
variable (Property : RoutingTable → Prop) {node : NodeInfo}
  (htouch : ∀ table (address : Option MultiAddr) addressType now,
    (∀ taken ∈ address, taken ∈ node.addresses) → Property table →
      Property (table.touchNode node.id address addressType now).1)
  (hremove : ∀ table peer, Property table → Property (table.removeNode peer))
  (hadd : ∀ table now after, Property table → table.addNode node now = .ok after → Property after)

include htouch in
theorem touchAddresses_preserves (table : RoutingTable) (now : ℕ) (hproperty : Property table) :
    Property (touchAddresses table node now) := by
  rw [touchAddresses]
  refine List.foldlRecOn _ _ hproperty ?_
  intro touched htouched entry hentry
  refine htouch touched (some entry.1) (node.addressTypeAt entry.2) now ?_ htouched
  rintro taken ⟨⟩
  exact List.fst_mem_of_mem_zipIdx hentry

include hremove in
theorem executeSwaps_preserves (table : RoutingTable) (swaps : List PeerId)
    (hproperty : Property table) : Property (executeSwaps table swaps).1 := by
  rw [executeSwaps]
  refine List.foldlRecOn (motive := fun state : RoutingTable × List PeerId =>
    Property state.1) swaps _ hproperty ?_
  intro state hstate peer _
  split
  · exact hstate
  · exact hremove state.1 peer hstate

omit [LinearOrder Score] in
include hremove hadd in
theorem executeAdmission_preserves (table : RoutingTable)
    (swaps : List PeerId) (now : ℕ) (hproperty : Property table) :
    Property (config.executeAdmission table node swaps now).1 := by
  have hevicted := executeSwaps_preserves Property hremove table swaps hproperty
  simp only [executeAdmission]
  split
  · exact hevicted
  · next inserted hinserted => exact hadd _ now inserted hevicted hinserted

variable {table : RoutingTable}
  (habsent : table.findNodeById node.id = none → ∀ table now after, Property table →
    table.addNode node now = .ok after → Property after)

include htouch hremove habsent

omit [LinearOrder Score] in
theorem addUnchecked_preserves (now : ℕ) (hproperty : Property table) :
    Property (config.addUnchecked table node now).1 := by
  rw [addUnchecked]
  split
  · exact touchAddresses_preserves Property htouch table now hproperty
  · next hnone =>
      exact config.executeAdmission_preserves Property hremove (habsent (by simpa using hnone))
        table [] now hproperty

theorem addWithDiversity_preserves (observation : Observation Score) (ips : List IpAddr)
    (allowStaleRevalidation : Bool) (hproperty : Property table) :
    Property (config.addWithDiversity observation table node ips
      allowStaleRevalidation).1 := by
  rcases config.addWithDiversity_cases observation table node ips
    allowStaleRevalidation rfl with
    ⟨hsame, -⟩ | ⟨-, hresult⟩ | ⟨-, hresult⟩ | ⟨index, swaps, hindex, hnone, -, hresult⟩
  · rw [hsame]
    exact hproperty
  · rw [hresult]
    exact config.addUnchecked_preserves Property htouch hremove habsent _ hproperty
  · rw [hresult]
    exact touchAddresses_preserves Property htouch _ _ (htouch _ _ _ _ (by simp) hproperty)
  · rw [hresult]
    exact config.executeAdmission_preserves Property hremove
      (habsent ((findNodeById_eq hindex).trans hnone)) table _ _ hproperty

theorem addNode_preserves (observation : Observation Score)
    (order : HashOrder IpAddr) (incoming : NodeInfo)
    (hnode : incoming.retainStorableAddresses = node) (hproperty : Property table) :
    Property (config.addNode observation order table incoming).1 := by
  simp only [addNode, hnode]
  split
  · exact hproperty
  · split
    · exact hproperty
    · split
      · exact config.addUnchecked_preserves Property htouch hremove habsent _ hproperty
      · exact config.addWithDiversity_preserves Property htouch hremove habsent
          observation _ true hproperty

theorem reEvaluateAdmission_preserves (observation : Observation Score) (ips : List IpAddr)
    (hproperty : Property table) :
    Property (config.reEvaluateAdmission observation table node ips).1 := by
  have hafter := config.addWithDiversity_preserves Property htouch hremove habsent
    observation ips false hproperty
  rw [reEvaluateAdmission]
  split <;> next heq => simpa [heq] using hafter

end Admission

end EngineConfig

/-! ## Histories of the table -/

/-- One call on the routing table, with everything the call reads besides the
table itself. -/
inductive RoutingOp (Score : Type*) where
  | admission (order : HashOrder IpAddr)
      (observation : EngineConfig.Observation Score) (incoming : NodeInfo)
  | reEvaluate (observation : EngineConfig.Observation Score)
      (candidate : NodeInfo) (ips : List IpAddr)
  | insert (node : NodeInfo) (now : ℕ)
  | remove (peer : PeerId)
  | touch (peer : PeerId) (address : Option MultiAddr)
      (addressType : AddressType) (now : ℕ)
  | touchFast (peer : PeerId) (address : Option MultiAddr)
      (addressType : AddressType) (now : ℕ)
  | legacyRelayHint (peer : PeerId) (address : MultiAddr) (now : ℕ)
  | upgradeOnly (peer : PeerId) (address : MultiAddr)
      (addressType : AddressType)
  | replace (peer : PeerId) (typed : List (MultiAddr × AddressType)) (seq : ℕ)
      (mode : AddressReplaceMode) (now : ℕ)
  | storeTransport (peer : PeerId) (set : TransportAddressSet)
      (native : List (MultiAddr × AddressType)) (mode : AddressReplaceMode)
      (now : ℕ)

section Histories

variable {Score : Type*} [LinearOrder Score] (codec : AddressCodec) (config : EngineConfig Score)

/-- The table after one call, whatever the call returns. -/
def RoutingOp.apply (table : RoutingTable) : RoutingOp Score → RoutingTable
  | .admission order observation incoming =>
    (config.addNode observation order table incoming).1
  | .reEvaluate observation candidate ips =>
    (config.reEvaluateAdmission observation table candidate ips).1
  | .insert node now =>
    match table.addNode node now with
    | .ok after => after
    | .error _ => table
  | .remove peer => (config.removeNodeById table peer).1
  | .touch peer address addressType now =>
    (table.touchNode peer address addressType now).1
  | .touchFast peer address addressType now =>
    (table.tryTouchLastSeen peer address addressType now).1
  | .legacyRelayHint peer address now =>
    (table.touchLegacyRelayHintIfUnsequenced peer address now).1
  | .upgradeOnly peer address addressType =>
    (table.mergeTypedAddressUpgradeOnly peer address addressType).1
  | .replace peer typed seq mode now =>
    (table.replaceNodeAddressesWithMode peer typed seq mode now).1
  | .storeTransport peer set native mode now =>
    (table.storeTransportAddressSet codec peer set native mode now).1

/-- The table after a sequence of calls. -/
def RoutingTable.run (table : RoutingTable) (ops : List (RoutingOp Score)) : RoutingTable :=
  ops.foldl (RoutingOp.apply codec config) table

variable {localId : PeerId} {k : ℕ} {table : RoutingTable}

theorem RoutingOp.apply_valid (op : RoutingOp Score) (hvalid : table.Valid localId k) :
    (op.apply codec config table).Valid localId k := by
  have htouch (node : NodeInfo) : ∀ (table : RoutingTable) (address : Option MultiAddr)
      addressType now, (∀ taken ∈ address, taken ∈ node.addresses) → table.Valid localId k →
          (table.touchNode node.id address addressType now).1.Valid localId k := by
    intro table address addressType now _ hvalid
    exact hvalid.touchNode node.id address addressType now
  have hremove : ∀ (table : RoutingTable) peer, table.Valid localId k →
      (table.removeNode peer).Valid localId k := by
    intro table peer hvalid
    exact hvalid.removeNode peer
  have hadd (node : NodeInfo) : ∀ (table : RoutingTable) now after,
      table.Valid localId k → table.addNode node now = .ok after → after.Valid localId k := by
    intro table now after hvalid hadd
    exact hvalid.addNode hadd
  cases op with
  | admission order observation incoming =>
    exact config.addNode_preserves (RoutingTable.Valid localId k) (htouch _) hremove
      (fun _ => hadd _) observation order incoming rfl hvalid
  | reEvaluate observation candidate ips =>
    exact config.reEvaluateAdmission_preserves (RoutingTable.Valid localId k)
      (htouch _) hremove (fun _ => hadd _) observation ips hvalid
  | insert node now =>
    simp only [RoutingOp.apply]
    split
    · next after hafter => exact hvalid.addNode hafter
    · exact hvalid
  | remove peer =>
    simp only [RoutingOp.apply, EngineConfig.removeNodeById]
    split
    · exact hvalid
    · exact hvalid.removeNode peer
  | touch peer address addressType now =>
    exact hvalid.touchNode peer address addressType now
  | touchFast peer address addressType now =>
    exact hvalid.tryTouchLastSeen peer address addressType now
  | legacyRelayHint peer address now =>
    exact hvalid.touchLegacyRelayHintIfUnsequenced peer address now
  | upgradeOnly peer address addressType =>
    exact hvalid.mergeTypedAddressUpgradeOnly peer address addressType
  | replace peer typed seq mode now =>
    exact hvalid.replaceNodeAddressesWithMode peer typed seq mode now
  | storeTransport peer set native mode now =>
    exact hvalid.storeTransportAddressSet codec peer set native mode now

theorem RoutingTable.run_valid (ops : List (RoutingOp Score))
    (hvalid : table.Valid localId k) : (table.run codec config ops).Valid localId k := by
  refine List.foldlRecOn ops _ hvalid ?_
  intro before hbefore op _
  exact op.apply_valid codec config hbefore

/-- What the table promises to its readers, in terms of its contents. -/
structure RoutingTable.WellFormed (localId : PeerId) (k : ℕ)
    (table : RoutingTable) : Prop where
  nodup_ids : (table.allNodes.map NodeInfo.id).Nodup
  placed : ∀ index, ∀ node ∈ (table.buckets index).nodes,
    localId.getMsbD index ≠ node.id.getMsbD index ∧
      ∀ earlier < index, localId.getMsbD earlier = node.id.getMsbD earlier
  self_absent : ∀ node ∈ table.allNodes, node.id ≠ localId
  length_le : ∀ index, (table.buckets index).nodes.length ≤ k
  published : ∀ peer publication, table.addressPublications peer = some publication →
      ∃ node ∈ table.allNodes, node.id = peer
  sequenced : ∀ peer publication set, table.addressPublications peer = some publication →
      publication.transport = some set → set.seq = publication.seq ∧ set.seq ≠ 0

namespace RoutingTable.Valid

theorem mem_allNodes_iff {node : NodeInfo} :
    node ∈ table.allNodes ↔ ∃ index, node ∈ (table.buckets index).nodes := by
  simp [allNodes]

/-- Every record of the table is found under its id. -/
theorem findNodeById_of_mem (hvalid : table.Valid localId k) {node : NodeInfo}
    (hnode : node ∈ table.allNodes) : table.findNodeById node.id = some node := by
  obtain ⟨index, hmem⟩ := mem_allNodes_iff.mp hnode
  rw [findNodeById_eq (hvalid.placed index node.id (List.mem_map_of_mem hmem))]
  exact (lookup_eq_some_iff (hvalid.nodup index)).mpr ⟨hmem, rfl⟩

/-- Distinct buckets hold distinct peers, so the whole table has no duplicate. -/
theorem nodup_allNodes_ids (hvalid : table.Valid localId k) :
    (table.allNodes.map NodeInfo.id).Nodup := by
  rw [allNodes, List.map_flatMap, List.nodup_flatMap]
  refine ⟨fun index _ => hvalid.nodup index, ?_⟩
  refine (List.nodup_finRange 256).imp ?_
  intro left right hne peer hleft hright
  have hindex := hvalid.placed left peer hleft
  rw [hvalid.placed right peer hright, Option.some.injEq] at hindex
  exact hne hindex.symm

theorem wellFormed (hvalid : table.Valid localId k) : table.WellFormed localId k where
  nodup_ids := hvalid.nodup_allNodes_ids
  placed index node hnode := by
    have hindex := hvalid.placed index node.id (List.mem_map_of_mem hnode)
    rw [bucketIndex, hvalid.nodeId] at hindex
    exact (bucketIndexForKey_eq_some_iff localId node.id index).mp hindex
  self_absent node hnode heq := by
    obtain ⟨index, hmem⟩ := mem_allNodes_iff.mp hnode
    have hindex := hvalid.placed index node.id (List.mem_map_of_mem hmem)
    rw [bucketIndex, hvalid.nodeId, heq, bucketIndexForKey_self] at hindex
    cases hindex
  length_le := hvalid.length_le
  published peer publication hpublication := by
    have hpresent := hvalid.published peer publication hpublication
    obtain ⟨index, hmem⟩ := (hvalid.mem_ids_iff peer).mpr hpresent
    obtain ⟨node, hnode, hid⟩ := List.mem_map.mp hmem
    exact ⟨node, mem_allNodes_iff.mpr ⟨index, hnode⟩, hid⟩
  sequenced peer publication set hpublication htransport := by
    obtain ⟨hseq, hnonzero⟩ :=
      hvalid.sequenced peer publication set hpublication htransport
    exact ⟨hseq, hseq ▸ hnonzero⟩

end RoutingTable.Valid

/-- Every table the engine can reach from the empty one is well formed, whatever
the calls, their arguments and their results are. -/
theorem RoutingTable.run_new_wellFormed (localId : PeerId) (k now : ℕ)
    (ops : List (RoutingOp Score)) :
    ((RoutingTable.new localId k now).run codec config ops).WellFormed localId k :=
  (RoutingTable.run_valid codec config ops (RoutingTable.Valid.new localId k now)).wellFormed

end Histories

end SaorsaCore.Routing
