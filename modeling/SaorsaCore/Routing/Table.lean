import SaorsaCore.Routing.KBucket

/-!
# The Kademlia routing table

The table holds one bucket for each possible position of the first bit in which
a peer identity differs from the local one, and beside the buckets a map of the
address publications it has accepted.  Sequence `0` stands for "no publication
observed".
-/

namespace SaorsaCore.Routing

open KeyedList KBucket Function

/-- A V2 publication retained for an admitted peer.  `records` is the filtered
local view; `proof` is the owner's unchanged record. -/
structure TransportAddressSet where
  seq : ℕ
  records : List TransportAddressRecord
  proof : Option VerifiedAddressRecord
  deriving DecidableEq, Repr

structure AddressPublication where
  seq : ℕ
  transport : Option TransportAddressSet
  deriving DecidableEq, Repr

/-- `KademliaRoutingTable`.  The map of publications is only ever consulted at
one peer, so it is a function here. -/
structure RoutingTable where
  buckets : Fin 256 → KBucket
  nodeId : PeerId
  addressPublications : PeerId → Option AddressPublication

namespace RoutingTable

def new (nodeId : PeerId) (kValue now : ℕ) : RoutingTable :=
  { buckets := fun _ => KBucket.new kValue now
    nodeId := nodeId
    addressPublications := fun _ => none }

def bucketIndex (table : RoutingTable) (nodeId : PeerId) : Option (Fin 256) :=
  bucketIndexForKey table.nodeId nodeId

def setBucket (table : RoutingTable) (index : Fin 256) (bucket : KBucket) : RoutingTable :=
  { table with buckets := Function.update table.buckets index bucket }

def setPublication (table : RoutingTable) (nodeId : PeerId)
    (publication : Option AddressPublication) : RoutingTable :=
  { table with
    addressPublications :=
      Function.update table.addressPublications nodeId publication }

def findNodeById (table : RoutingTable) (nodeId : PeerId) : Option NodeInfo :=
  (table.bucketIndex nodeId).bind fun index =>
    (table.buckets index).findNode nodeId

/-- `all_nodes`: bucket after bucket. -/
def allNodes (table : RoutingTable) : List NodeInfo :=
  (List.finRange 256).flatMap fun index => (table.buckets index).nodes

/-- `find_closest_nodes`: a stable sort of all peers by XOR distance. -/
def findClosestNodes (table : RoutingTable) (key : DhtKey) (count : ℕ) : List NodeInfo :=
  (table.allNodes.insertionSort fun left right =>
    xorDistance left.id key ≤ xorDistance right.id key).take count

def kClosestIds (table : RoutingTable) (k : ℕ) : List PeerId :=
  (table.findClosestNodes table.nodeId k).map NodeInfo.id

/-! ## Publications -/

def publishSeqFor (table : RoutingTable) (nodeId : PeerId) : ℕ :=
  ((table.addressPublications nodeId).map AddressPublication.seq).getD 0

def transportAddressSet (table : RoutingTable) (nodeId : PeerId) : Option TransportAddressSet :=
  (table.addressPublications nodeId).bind AddressPublication.transport

def hasAddressPublication (table : RoutingTable) (nodeId : PeerId) : Bool :=
  table.publishSeqFor nodeId != 0 || (table.transportAddressSet nodeId).isSome

/-- Keep a V2 record unless it is a QUIC record whose address did not survive
the caps of the native projection. -/
def retainsRecord (codec : AddressCodec) (addresses : List MultiAddr)
    (record : TransportAddressRecord) : Bool :=
  record.transport != KnownTransport.quic.id
    || (record.knownAddress codec).any fun address =>
      addresses.contains address

/-- `store_transport_address_set`: a V2 publication replaces the whole address
view and ignores every V1 sequence. -/
def storeTransportAddressSet (table : RoutingTable) (codec : AddressCodec)
    (nodeId : PeerId) (set : TransportAddressSet)
    (native : List (MultiAddr × AddressType)) (mode : AddressReplaceMode)
    (now : ℕ) : RoutingTable × Bool :=
  match table.bucketIndex nodeId with
  | none => (table, false)
  | some index =>
    if set.seq = 0
        || (table.transportAddressSet nodeId).any fun old => set.seq ≤ old.seq then
      (table, false)
    else
      let replaced := (table.buckets index).replaceNodeAddressesWithMode
        nodeId native mode now
      if replaced.2 then
        match replaced.1.findNode nodeId with
        | none => (table.setBucket index replaced.1, false)
        | some node =>
          let stored :=
            { set with
              records := set.records.filter (retainsRecord codec node.addresses) }
          ((table.setBucket index replaced.1).setPublication nodeId
            (some { seq := stored.seq, transport := some stored }), true)
      else (table, false)

/-- `replace_node_addresses_with_mode`: a V1 publication applies only while no
V2 publication is stored, and only with a greater sequence. -/
def replaceNodeAddressesWithMode (table : RoutingTable) (nodeId : PeerId)
    (typed : List (MultiAddr × AddressType)) (seq : ℕ)
    (mode : AddressReplaceMode) (now : ℕ) : RoutingTable × Bool :=
  if seq = 0 then (table, false)
  else if (table.addressPublications nodeId).any fun stored =>
      stored.transport.isSome || seq ≤ stored.seq then
    (table, false)
  else
    match table.bucketIndex nodeId with
    | none => (table, false)
    | some index =>
      let replaced := (table.buckets index).replaceNodeAddressesWithMode
        nodeId typed mode now
      if replaced.2 then
        ((table.setBucket index replaced.1).setPublication nodeId
          (some { seq := seq, transport := table.transportAddressSet nodeId }),
          true)
      else (table, false)

/-! ## Observations -/

/-- Once an owner publication is stored, observed addresses are dropped. -/
def observedAddress (table : RoutingTable) (nodeId : PeerId)
    (address : Option MultiAddr) : Option MultiAddr :=
  if table.hasAddressPublication nodeId then none else address

def touchNode (table : RoutingTable) (nodeId : PeerId)
    (address : Option MultiAddr) (addressType : AddressType) (now : ℕ) :
    RoutingTable × Bool :=
  match table.bucketIndex nodeId with
  | none => (table, false)
  | some index =>
    let touched := (table.buckets index).touchNodeTyped nodeId
      (table.observedAddress nodeId address) addressType now
    (table.setBucket index touched.1, touched.2)

/-- `try_touch_last_seen`, the fast path of a touch. -/
def tryTouchLastSeen (table : RoutingTable) (nodeId : PeerId)
    (address : Option MultiAddr) (addressType : AddressType) (now : ℕ) :
    RoutingTable × Option Bool :=
  match table.bucketIndex nodeId with
  | none => (table, none)
  | some index =>
    let touched := (table.buckets index).touchLastSeenIfMergeNoop nodeId
      (table.observedAddress nodeId address) addressType now
    (table.setBucket index touched.1, touched.2)

def touchLegacyRelayHintIfUnsequenced (table : RoutingTable) (nodeId : PeerId)
    (address : MultiAddr) (now : ℕ) : RoutingTable × Bool :=
  if table.publishSeqFor nodeId != 0
      || (table.transportAddressSet nodeId).isSome then (table, false)
  else table.touchNode nodeId (some address) .relay now

def mergeTypedAddressUpgradeOnly (table : RoutingTable) (nodeId : PeerId)
    (address : MultiAddr) (addressType : AddressType) : RoutingTable × Bool :=
  if table.hasAddressPublication nodeId then (table, false)
  else
    match table.bucketIndex nodeId with
    | none => (table, false)
    | some index =>
      let merged := (table.buckets index).mergeTypedAddressUpgradeOnly
        nodeId address addressType
      (table.setBucket index merged.1, merged.2)

/-! ## Membership -/

/-- `add_node`: a peer with a stored publication is only touched. -/
def addNode (table : RoutingTable) (node : NodeInfo) (now : ℕ) : Except RoutingError RoutingTable :=
  if table.hasAddressPublication node.id then
    .ok (table.touchNode node.id none .unverified now).1
  else
    match table.bucketIndex node.id with
    | none => .error .insertSelf
    | some index =>
      ((table.buckets index).addNode node now).map fun bucket =>
        table.setBucket index bucket

def removeNode (table : RoutingTable) (nodeId : PeerId) : RoutingTable :=
  let removed :=
    match table.bucketIndex nodeId with
    | none => table
    | some index =>
      table.setBucket index ((table.buckets index).removeNode nodeId)
  removed.setPublication nodeId none

/-! ## What the operations do to the records -/

/-- `after` is `before` with the record of one peer rewritten; buckets may have
been reordered, and nothing is said about publications. -/
structure Rewrites (before after : RoutingTable) (peer : PeerId)
    (update : NodeInfo → NodeInfo) : Prop where
  nodeId : after.nodeId = before.nodeId
  maxSize : ∀ index, (after.buckets index).maxSize = (before.buckets index).maxSize
  ids_perm : ∀ index, (after.buckets index).ids.Perm (before.buckets index).ids
  findNode : ∀ other, after.findNodeById other =
    if other = peer then (before.findNodeById peer).map update
    else before.findNodeById other

/-- No bucket holds two records of one peer. -/
def NodupIds (table : RoutingTable) : Prop :=
  ∀ index, (table.buckets index).ids.Nodup

theorem findNodeById_eq {table : RoutingTable} {peer : PeerId}
    {index : Fin 256} (hindex : table.bucketIndex peer = some index) :
    table.findNodeById peer = (table.buckets index).findNode peer := by
  rw [findNodeById, hindex]
  rfl

theorem findNodeById_eq_none {table : RoutingTable} {peer : PeerId}
    (hindex : table.bucketIndex peer = none) :
    table.findNodeById peer = none := by
  rw [findNodeById, hindex]
  rfl

@[simp]
theorem buckets_setPublication (table : RoutingTable) (peer : PeerId)
    (publication : Option AddressPublication) :
    (table.setPublication peer publication).buckets = table.buckets := rfl

theorem buckets_setBucket (table : RoutingTable) (index position : Fin 256) (bucket : KBucket) :
    (table.setBucket index bucket).buckets position =
      if position = index then bucket else table.buckets position :=
  update_apply table.buckets index bucket position

theorem findNodeById_setBucket (table : RoutingTable) (index : Fin 256)
    (bucket : KBucket) (peer : PeerId) :
    (table.setBucket index bucket).findNodeById peer =
      if table.bucketIndex peer = some index then bucket.findNode peer
      else table.findNodeById peer := by
  have hsame : (table.setBucket index bucket).bucketIndex peer = table.bucketIndex peer := rfl
  cases hindex : table.bucketIndex peer with
  | none => simp [findNodeById, hsame, hindex]
  | some position =>
    rw [findNodeById_eq (hsame.trans hindex), findNodeById_eq hindex]
    by_cases hposition : position = index
    · simp [setBucket, hposition]
    · simp [setBucket, hposition]

namespace Rewrites

variable {before after : RoutingTable} {peer : PeerId}
  {update : NodeInfo → NodeInfo}

theorem of_fixed (hfixed : (before.findNodeById peer).map update = before.findNodeById peer) :
    Rewrites before before peer update where
  nodeId := rfl
  maxSize _ := rfl
  ids_perm _ := List.Perm.refl _
  findNode other := by
    split
    · next hother => rw [hfixed, hother]
    · rfl

theorem of_absent (habsent : before.findNodeById peer = none) :
    Rewrites before before peer update :=
  of_fixed (by rw [habsent]; rfl)

theorem setPublication (hrewrites : Rewrites before after peer update)
    (other : PeerId) (publication : Option AddressPublication) :
    Rewrites before (after.setPublication other publication) peer update :=
  ⟨hrewrites.nodeId, hrewrites.maxSize, hrewrites.ids_perm, hrewrites.findNode⟩

theorem setBucket {index : Fin 256} {bucket : KBucket}
    (hindex : before.bucketIndex peer = some index)
    (hbucket : (before.buckets index).Rewrites bucket peer update) :
    Rewrites before (before.setBucket index bucket) peer update where
  nodeId := rfl
  maxSize position := by
    by_cases hposition : position = index
    · subst hposition
      simpa [RoutingTable.setBucket] using hbucket.maxSize
    · simp [RoutingTable.setBucket, hposition]
  ids_perm position := by
    by_cases hposition : position = index
    · subst hposition
      simpa [RoutingTable.setBucket] using hbucket.ids_perm
    · simp [RoutingTable.setBucket, hposition]
  findNode other := by
    rw [findNodeById_setBucket, hbucket.findNode other]
    by_cases hother : other = peer
    · subst hother
      simp [hindex, findNodeById_eq hindex]
    · rw [if_neg hother, if_neg hother]
      split
      · next hsame => rw [findNodeById_eq hsame]
      · rfl

theorem isSome_findNode (hrewrites : Rewrites before after peer update) (other : PeerId) :
    (after.findNodeById other).isSome = (before.findNodeById other).isSome := by
  rw [hrewrites.findNode other]
  split
  · next hother => rw [Option.isSome_map, hother]
  · rfl

theorem nodupIds (hrewrites : Rewrites before after peer update)
    (hnodup : before.NodupIds) : after.NodupIds := by
  intro index
  exact (hrewrites.ids_perm index).nodup_iff.mpr (hnodup index)

end Rewrites

section Observations

variable (table : RoutingTable) (nodeId : PeerId)

theorem touchNode_rewrites (hnodup : table.NodupIds)
    (address : Option MultiAddr) (addressType : AddressType) (now : ℕ) :
    Rewrites table (table.touchNode nodeId address addressType now).1 nodeId
      (touchedNode (table.observedAddress nodeId address)
        addressType now) := by
  rw [touchNode]
  split
  · next hindex => exact Rewrites.of_absent (findNodeById_eq_none hindex)
  · next index hindex =>
      exact Rewrites.setBucket hindex (touchNodeTyped_rewrites _ (hnodup index) _ _ _ _)

@[simp]
theorem addressPublications_touchNode (address : Option MultiAddr)
    (addressType : AddressType) (now : ℕ) :
    (table.touchNode nodeId address addressType now).1.addressPublications =
      table.addressPublications := by
  rw [touchNode]
  split <;> rfl

theorem tryTouchLastSeen_rewrites (address : Option MultiAddr)
    (addressType : AddressType) (now : ℕ) :
    Rewrites table (table.tryTouchLastSeen nodeId address addressType now).1
      nodeId (seenNode (table.observedAddress nodeId address)
        addressType now) := by
  rw [tryTouchLastSeen]
  split
  · next hindex => exact Rewrites.of_absent (findNodeById_eq_none hindex)
  · next index hindex =>
      exact Rewrites.setBucket hindex (touchLastSeenIfMergeNoop_rewrites _ _ _ _ _)

@[simp]
theorem addressPublications_tryTouchLastSeen (address : Option MultiAddr)
    (addressType : AddressType) (now : ℕ) :
    (table.tryTouchLastSeen nodeId address addressType
      now).1.addressPublications = table.addressPublications := by
  rw [tryTouchLastSeen]
  split <;> rfl

/-- What an upgrade-only merge may do to the record of a peer. -/
def upgraded (address : MultiAddr) (addressType : AddressType) : NodeInfo → NodeInfo :=
  if table.hasAddressPublication nodeId then id
  else KBucket.upgradedNode address addressType

theorem mergeTypedAddressUpgradeOnly_rewrites (address : MultiAddr) (addressType : AddressType) :
    Rewrites table (table.mergeTypedAddressUpgradeOnly nodeId address addressType).1
      nodeId (table.upgraded nodeId address addressType) := by
  rw [mergeTypedAddressUpgradeOnly, upgraded]
  split
  · exact Rewrites.of_fixed (by simp)
  · split
    · next hindex => exact Rewrites.of_absent (findNodeById_eq_none hindex)
    · next index hindex =>
        exact Rewrites.setBucket hindex (KBucket.mergeTypedAddressUpgradeOnly_rewrites _ _ _ _)

@[simp]
theorem addressPublications_mergeTypedAddressUpgradeOnly (address : MultiAddr)
    (addressType : AddressType) :
    (table.mergeTypedAddressUpgradeOnly nodeId address
      addressType).1.addressPublications = table.addressPublications := by
  rw [mergeTypedAddressUpgradeOnly]
  split
  · rfl
  · split <;> rfl

end Observations

section Publications

variable (table : RoutingTable) (nodeId : PeerId)

/-- The condition under which a V1 publication is applied. -/
def AcceptsV1 (typed : List (MultiAddr × AddressType)) (seq : ℕ) : Prop :=
  seq ≠ 0 ∧ (∀ stored, table.addressPublications nodeId = some stored →
      stored.transport = none ∧ stored.seq < seq) ∧
    (table.findNodeById nodeId).isSome ∧ KBucket.acceptsPublication typed = true

/-- The condition under which a V2 publication is applied. -/
def AcceptsV2 (native : List (MultiAddr × AddressType)) (set : TransportAddressSet) : Prop :=
  set.seq ≠ 0 ∧ (∀ old, table.transportAddressSet nodeId = some old → old.seq < set.seq) ∧
    (table.findNodeById nodeId).isSome ∧ KBucket.acceptsPublication native = true

/-- The V2 set as the table keeps it. -/
def storedSet (codec : AddressCodec) (native : List (MultiAddr × AddressType))
    (set : TransportAddressSet) : TransportAddressSet :=
  { set with
    records := set.records.filter (retainsRecord codec (KBucket.publishedAddresses native).1) }

variable {table nodeId}

private theorem exists_replaced (hpresent : (table.findNodeById nodeId).isSome)
    {typed : List (MultiAddr × AddressType)} (hacceptable : acceptsPublication typed = true)
    (mode : AddressReplaceMode) (now : ℕ) :
    ∃ index, table.bucketIndex nodeId = some index ∧
      ((table.buckets index).findNode nodeId).isSome ∧
      ((table.buckets index).replaceNodeAddressesWithMode nodeId typed mode now).2 = true := by
  cases hindex : table.bucketIndex nodeId with
  | none => simp [findNodeById_eq_none hindex] at hpresent
  | some index =>
    rw [findNodeById_eq hindex] at hpresent
    refine ⟨index, rfl, hpresent, ?_⟩
    rw [KBucket.replaceNodeAddressesWithMode_applied, hpresent, hacceptable]
    rfl

private theorem replaced_eq_false (typed : List (MultiAddr × AddressType))
    (mode : AddressReplaceMode) (now : ℕ) {index : Fin 256}
    (hindex : table.bucketIndex nodeId = some index)
    (hrefused : ¬((table.findNodeById nodeId).isSome ∧ acceptsPublication typed = true)) :
    ((table.buckets index).replaceNodeAddressesWithMode nodeId typed mode
      now).2 = false := by
  rw [replaceNodeAddressesWithMode_applied, ← findNodeById_eq hindex]
  simpa using hrefused

variable {typed : List (MultiAddr × AddressType)}

theorem replaceNodeAddressesWithMode_refused {seq : ℕ}
    (hrefused : ¬table.AcceptsV1 nodeId typed seq) (mode : AddressReplaceMode)
    (now : ℕ) :
    table.replaceNodeAddressesWithMode nodeId typed seq mode now = (table, false) := by
  rw [replaceNodeAddressesWithMode]
  split
  · rfl
  · next hseq =>
      split
      · rfl
      · next hstored =>
          split
          · rfl
          · next index hindex =>
              have hreplaced := replaced_eq_false typed mode now hindex (by
                intro hpresent
                refine hrefused ⟨hseq, ?_, hpresent⟩
                intro stored hpublication
                simpa [hpublication] using hstored)
              simp [hreplaced]

theorem replaceNodeAddressesWithMode_applied (hnodup : table.NodupIds) {seq : ℕ}
    (haccepts : table.AcceptsV1 nodeId typed seq) (mode : AddressReplaceMode)
    (now : ℕ) :
    Rewrites table (table.replaceNodeAddressesWithMode nodeId typed seq mode now).1 nodeId
        (KBucket.republishedNode typed mode now) ∧
      (table.replaceNodeAddressesWithMode nodeId typed seq mode now).1.addressPublications =
        update table.addressPublications nodeId (some { seq := seq, transport := none }) := by
  obtain ⟨hseq, hstored, hpresent, hacceptable⟩ := haccepts
  obtain ⟨index, hindex, -, hreplaced⟩ := exists_replaced hpresent hacceptable mode now
  have hguard : (table.addressPublications nodeId).any (fun stored =>
      stored.transport.isSome || decide (seq ≤ stored.seq)) = false := by
    cases hpublication : table.addressPublications nodeId with
    | none => rfl
    | some stored =>
      obtain ⟨htransport, hlt⟩ := hstored stored hpublication
      simp [htransport, hlt]
  have htransport : table.transportAddressSet nodeId = none := by
    cases hpublication : table.addressPublications nodeId with
    | none => simp [transportAddressSet, hpublication]
    | some stored =>
      simp [transportAddressSet, hpublication, (hstored stored hpublication).1]
  have heq : table.replaceNodeAddressesWithMode nodeId typed seq mode now =
      ((table.setBucket index ((table.buckets index).replaceNodeAddressesWithMode
          nodeId typed mode now).1).setPublication nodeId
        (some { seq := seq, transport := none }), true) := by
    rw [replaceNodeAddressesWithMode, if_neg hseq, hguard]
    simp [hindex, hreplaced, htransport]
  rw [heq]
  exact ⟨(Rewrites.setBucket hindex
    (KBucket.replaceNodeAddressesWithMode_rewrites _ (hnodup index) _ _ _ _
      hreplaced)).setPublication _ _, rfl⟩

variable {native : List (MultiAddr × AddressType)}

theorem storeTransportAddressSet_refused {set : TransportAddressSet}
    (hrefused : ¬table.AcceptsV2 nodeId native set) (codec : AddressCodec)
    (mode : AddressReplaceMode) (now : ℕ) :
    table.storeTransportAddressSet codec nodeId set native mode now = (table, false) := by
  rw [storeTransportAddressSet]
  split
  · rfl
  · next index hindex =>
      split
      · rfl
      · next hguard =>
          have hreplaced := replaced_eq_false native mode now hindex (by
            intro hpresent
            have hseq : set.seq ≠ 0 := by
              intro hzero
              simp [hzero] at hguard
            refine hrefused ⟨hseq, ?_, hpresent⟩
            intro old hold
            simpa [hold, hseq] using hguard)
          simp [hreplaced]

theorem storeTransportAddressSet_applied (hnodup : table.NodupIds) {set : TransportAddressSet}
    (haccepts : table.AcceptsV2 nodeId native set) (codec : AddressCodec)
    (mode : AddressReplaceMode) (now : ℕ) :
    Rewrites table (table.storeTransportAddressSet codec nodeId set native mode now).1
        nodeId (KBucket.republishedNode native mode now) ∧
      (table.storeTransportAddressSet codec nodeId set native mode now).1.addressPublications =
        update table.addressPublications nodeId
          (some { seq := set.seq, transport := some (storedSet codec native set) }) := by
  obtain ⟨hseq, hold, hpresent, hacceptable⟩ := haccepts
  obtain ⟨index, hindex, hfound, hreplaced⟩ := exists_replaced hpresent hacceptable mode now
  have hrewrites := KBucket.replaceNodeAddressesWithMode_rewrites
    (table.buckets index) (hnodup index) nodeId native mode now hreplaced
  obtain ⟨node, hnode⟩ := Option.isSome_iff_exists.mp hfound
  have hstored : ((table.buckets index).replaceNodeAddressesWithMode nodeId
      native mode now).1.findNode nodeId = some (KBucket.republishedNode native mode now node) := by
    rw [hrewrites.findNode, if_pos rfl, hnode]
    rfl
  have hguard : (decide (set.seq = 0) || (table.transportAddressSet nodeId).any fun old =>
        decide (set.seq ≤ old.seq)) = false := by
    cases hset : table.transportAddressSet nodeId with
    | none => simp [hseq]
    | some old => simp [hseq, hold old hset]
  have heq : table.storeTransportAddressSet codec nodeId set native mode now =
      ((table.setBucket index ((table.buckets index).replaceNodeAddressesWithMode
          nodeId native mode now).1).setPublication nodeId
        (some { seq := set.seq, transport := some (storedSet codec native set) }), true) := by
    rw [storeTransportAddressSet, hindex]
    simp only [hguard, hreplaced, hstored, Bool.false_eq_true, if_false, if_true]
    rfl
  rw [heq]
  exact ⟨(Rewrites.setBucket hindex hrewrites).setPublication _ _, rfl⟩

end Publications

section Membership

variable {table after : RoutingTable} {node : NodeInfo} {now : ℕ}

/-- The two ways in which `add_node` succeeds. -/
theorem addNode_eq_ok (hadd : table.addNode node now = .ok after) :
    (table.hasAddressPublication node.id = true ∧
      after = (table.touchNode node.id none .unverified now).1) ∨
    (table.hasAddressPublication node.id = false ∧
      ∃ index bucket, table.bucketIndex node.id = some index ∧
        (table.buckets index).addNode node now = .ok bucket ∧
        after = table.setBucket index bucket) := by
  rw [addNode] at hadd
  split at hadd
  · next hpublication =>
      exact Or.inl ⟨hpublication, (Except.ok.inj hadd).symm⟩
  · next hpublication =>
      split at hadd
      · cases hadd
      · next index hindex =>
          cases hbucket : (table.buckets index).addNode node now with
          | error refusal =>
            rw [hbucket] at hadd
            cases hadd
          | ok bucket =>
            rw [hbucket] at hadd
            exact Or.inr ⟨by simpa using hpublication, index, bucket, hindex,
              hbucket, (Except.ok.inj hadd).symm⟩

@[simp]
theorem addressPublications_removeNode (table : RoutingTable) (peer : PeerId) :
    (table.removeNode peer).addressPublications = update table.addressPublications peer none := by
  rw [removeNode, setPublication]
  split <;> rfl

@[simp]
theorem nodeId_removeNode (table : RoutingTable) (peer : PeerId) :
    (table.removeNode peer).nodeId = table.nodeId := by
  rw [removeNode, setPublication]
  split <;> rfl

theorem buckets_removeNode (table : RoutingTable) (peer : PeerId) (index : Fin 256) :
    (table.removeNode peer).buckets index = if table.bucketIndex peer = some index then
        (table.buckets index).removeNode peer
      else table.buckets index := by
  rw [removeNode, buckets_setPublication]
  cases hindex : table.bucketIndex peer with
  | none => simp
  | some position =>
    by_cases hposition : position = index
    · simp [setBucket, hposition]
    · simp [setBucket, hposition, Ne.symm hposition]

theorem findNodeById_removeNode (table : RoutingTable) (peer other : PeerId) :
    (table.removeNode peer).findNodeById other =
      if other = peer then none else table.findNodeById other := by
  have hsame : (table.removeNode peer).bucketIndex other = table.bucketIndex other := by
    rw [bucketIndex, nodeId_removeNode, bucketIndex]
  cases hindex : table.bucketIndex other with
  | none =>
    rw [findNodeById_eq_none (hsame.trans hindex), findNodeById_eq_none hindex]
    simp
  | some index =>
    rw [findNodeById_eq (hsame.trans hindex), findNodeById_eq hindex, buckets_removeNode]
    by_cases hother : other = peer
    · subst hother
      simp [hindex, KBucket.removeNode, KBucket.findNode]
    · split <;> simp [KBucket.removeNode, KBucket.findNode, hother]

end Membership

end RoutingTable

end SaorsaCore.Routing
