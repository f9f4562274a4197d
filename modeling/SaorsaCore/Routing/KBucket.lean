import SaorsaCore.Core.KeyedList
import SaorsaCore.Routing.NodeInfo

/-!
# K-buckets

A bucket is a list of peer records ordered from the least to the most recently
seen one, with a capacity.  Every operation that the source runs at some instant
takes that instant as the argument `now`.
-/

namespace SaorsaCore.Routing

open KeyedList NodeInfo List

/-- The tier of an IP diversity limit. -/
inductive DiversityTier where
  | exactIp
  | subnetV4
  | subnetV6
  deriving DecidableEq, Repr

/-- The set of peers a diversity limit is checked against. -/
inductive DiversityScope where
  | bucket
  | closeGroup
  deriving DecidableEq, Repr

/-- The refusals of the routing table and of the engine above it. -/
inductive RoutingError where
  | noAddresses
  | bucketAtCapacity (size maxSize : ℕ)
  | insertSelf
  | addSelf
  | nothingStorable
  | multicastOrUnspecified
  | loopbackRejected
  | diversityExceeded (tier : DiversityTier) (limit : ℕ) (scope : DiversityScope)
  | noStalePeers (size maxSize : ℕ)
  | stillAtCapacity
  deriving DecidableEq, Repr

inductive AddressReplaceMode where
  | authenticatedSelfPublish
  | gossipedRecord
  deriving DecidableEq, Repr

def AddressReplaceMode.refreshesLiveness : AddressReplaceMode → Bool
  | .authenticatedSelfPublish => true
  | .gossipedRecord => false

structure KBucket where
  nodes : List NodeInfo
  maxSize : ℕ
  lastRefreshedByLivePeer : ℕ
  lastProbeFinished : ℕ
  deriving DecidableEq, Repr

namespace KBucket

def new (maxSize now : ℕ) : KBucket :=
  { nodes := []
    maxSize := maxSize
    lastRefreshedByLivePeer := now
    lastProbeFinished := now }

def findNode (bucket : KBucket) (nodeId : PeerId) : Option NodeInfo :=
  lookup NodeInfo.id nodeId bucket.nodes

/-- The identities in a bucket, in bucket order. -/
def ids (bucket : KBucket) : List PeerId :=
  bucket.nodes.map NodeInfo.id

/-- The addresses of a record that may be stored, with their canonical tags and
cut to the cap. -/
def storableTyped (node : NodeInfo) : List (MultiAddr × AddressType) :=
  (((node.addresses.zip node.paddedTypes).filter fun pair =>
      pair.1.isStorable).take maxAddressesPerNode).map
    fun pair => (pair.1, AddressType.forAdvertisedAddress pair.1 pair.2)

def mergeAll (node : NodeInfo) (typed : List (MultiAddr × AddressType)) : NodeInfo :=
  typed.foldl (fun merged pair => merged.mergeTypedAddress pair.1 pair.2) node

/-- A record that is already here takes the time of contact and merges the
addresses of the incoming one. -/
def mergedNode (node existing : NodeInfo) : NodeInfo :=
  mergeAll { existing with lastSeen := node.lastSeen } (storableTyped node)

/-- The record with which a new peer enters its bucket. -/
def insertedNode (node : NodeInfo) : NodeInfo :=
  (node.withTyped (storableTyped node)).enforcePerIpFamilyCap

/-- `add_node`: merge into a record that is already here, else append while the
bucket has room. -/
def addNode (bucket : KBucket) (node : NodeInfo) (now : ℕ) : Except RoutingError KBucket :=
  if (storableTyped node).isEmpty then .error .noAddresses
  else if (bucket.findNode node.id).isSome then
    .ok { bucket with
      nodes := moveToTail NodeInfo.id node.id (mergedNode node) bucket.nodes
      lastRefreshedByLivePeer := now }
  else if bucket.nodes.length < bucket.maxSize then
    .ok { bucket with
      nodes := bucket.nodes ++ [insertedNode node]
      lastRefreshedByLivePeer := now }
  else .error (.bucketAtCapacity bucket.nodes.length bucket.maxSize)

def removeNode (bucket : KBucket) (nodeId : PeerId) : KBucket :=
  { bucket with nodes := remove NodeInfo.id nodeId bucket.nodes }

/-- What a touch does to the record: the time of contact, and the address unless
the loopback guard skips it. -/
def touchedNode (address : Option MultiAddr) (addressType : AddressType)
    (now : ℕ) (node : NodeInfo) : NodeInfo :=
  let seen := { node with lastSeen := now }
  match address with
  | none => seen
  | some address =>
    if node.skipsLoopback address then seen
    else seen.mergeTypedAddress address addressType

/-- `touch_node_typed`, the slow path of a touch. -/
def touchNodeTyped (bucket : KBucket) (nodeId : PeerId)
    (address : Option MultiAddr) (addressType : AddressType) (now : ℕ) :
    KBucket × Bool :=
  if (bucket.findNode nodeId).isSome then
    ({ bucket with
        nodes := moveToTail NodeInfo.id nodeId (touchedNode address addressType now) bucket.nodes
        lastRefreshedByLivePeer := now }, true)
  else (bucket, false)

/-- `merge_typed_address_upgrade_only`: neither the time of contact nor the
order of the bucket changes. -/
def mergeTypedAddressUpgradeOnly (bucket : KBucket) (nodeId : PeerId)
    (address : MultiAddr) (addressType : AddressType) : KBucket × Bool :=
  match bucket.findNode nodeId with
  | none => (bucket, false)
  | some node =>
    if node.skipsLoopback address then (bucket, false)
    else
      ({ bucket with
          nodes := updateInPlace NodeInfo.id nodeId (fun node =>
              (node.mergeTypedAddressUpgradeOnly address addressType).1)
            bucket.nodes },
        (node.mergeTypedAddressUpgradeOnly address addressType).2)

/-- Would merging the address leave the record as it is?  The test of the fast
path of a touch. -/
def mergeIsNoop (node : NodeInfo) (address : Option MultiAddr) (addressType : AddressType) : Bool :=
  match address with
  | none => true
  | some address =>
    match node.addresses.findIdx? (· == address) with
    | some position =>
      node.addressTypeAt position == AddressType.forAdvertisedAddress address addressType
    | none => node.skipsLoopback address

/-- `touch_last_seen_if_merge_noop`, the fast path of a touch: `none` asks for
the slow path. -/
def touchLastSeenIfMergeNoop (bucket : KBucket) (nodeId : PeerId)
    (address : Option MultiAddr) (addressType : AddressType) (now : ℕ) :
    KBucket × Option Bool :=
  match bucket.findNode nodeId with
  | none => (bucket, some false)
  | some node =>
    if mergeIsNoop node address addressType then
      ({ bucket with
          nodes := updateInPlace NodeInfo.id nodeId
            (fun node => { node with lastSeen := now }) bucket.nodes },
        some true)
    else (bucket, none)

/-- The list a publication asks for: storable addresses with canonical tags. -/
def publishedTyped (typed : List (MultiAddr × AddressType)) : List (MultiAddr × AddressType) :=
  (typed.filter fun pair => pair.1.isStorable).map fun pair =>
    (pair.1, AddressType.forAdvertisedAddress pair.1 pair.2)

/-- The record after a publication: sorted by tag, truncated and capped. -/
def publishedNode (typed : List (MultiAddr × AddressType)) (node : NodeInfo) : NodeInfo :=
  (node.withTyped (((publishedTyped typed).insertionSort fun left right =>
      left.2.priority ≤ right.2.priority).take
        maxAddressesPerNode)).enforcePerIpFamilyCap

/-- The addresses and tags a publication leaves in the record; they do not depend
on what was there before. -/
def publishedAddresses (typed : List (MultiAddr × AddressType)) :
    List MultiAddr × List AddressType :=
  let node := publishedNode typed
    { id := 0, addresses := [], addressTypes := [], lastSeen := 0 }
  (node.addresses, node.addressTypes)

/-- A publication is refused when filtering empties a non-empty list. -/
def acceptsPublication (typed : List (MultiAddr × AddressType)) : Bool :=
  typed.isEmpty || !(publishedTyped typed).isEmpty

/-- `replace_node_addresses_with_mode`: only the owner's own publication counts
as a sign of life. -/
def replaceNodeAddressesWithMode (bucket : KBucket) (nodeId : PeerId)
    (typed : List (MultiAddr × AddressType)) (mode : AddressReplaceMode)
    (now : ℕ) : KBucket × Bool :=
  if (bucket.findNode nodeId).isSome && acceptsPublication typed then
    if mode.refreshesLiveness then
      ({ bucket with
          nodes := moveToTail NodeInfo.id nodeId
            (fun node => { publishedNode typed node with lastSeen := now })
            bucket.nodes
          lastRefreshedByLivePeer := now }, true)
    else
      ({ bucket with
          nodes := updateInPlace NodeInfo.id nodeId (publishedNode typed)
            bucket.nodes }, true)
  else (bucket, false)

/-! ## What the operations do to the records -/

/-- `after` is `before` with the record of one peer rewritten; the bucket may
have been reordered. -/
structure Rewrites (before after : KBucket) (peer : PeerId)
    (update : NodeInfo → NodeInfo) : Prop where
  maxSize : after.maxSize = before.maxSize
  ids_perm : after.ids.Perm before.ids
  findNode : ∀ other, after.findNode other = if other = peer then (before.findNode peer).map update
    else before.findNode other

theorem isSome_findNode_iff (bucket : KBucket) (peer : PeerId) :
    (bucket.findNode peer).isSome ↔ peer ∈ bucket.ids :=
  isSome_lookup_iff

variable {bucket : KBucket} {peer : PeerId} {update : NodeInfo → NodeInfo}

theorem Rewrites.of_fixed (hfixed : (bucket.findNode peer).map update = bucket.findNode peer) :
    Rewrites bucket bucket peer update where
  maxSize := rfl
  ids_perm := List.Perm.refl _
  findNode other := by
    split
    · next hother => rw [hfixed, hother]
    · rfl

theorem Rewrites.of_absent (habsent : bucket.findNode peer = none) :
    Rewrites bucket bucket peer update :=
  Rewrites.of_fixed (by rw [habsent]; rfl)

variable {before after : KBucket}

/-- Only the value of the update at the stored record matters. -/
theorem Rewrites.congr {update' : NodeInfo → NodeInfo}
    (hrewrites : Rewrites before after peer update)
    (hagree : (before.findNode peer).map update = (before.findNode peer).map update') :
    Rewrites before after peer update' where
  maxSize := hrewrites.maxSize
  ids_perm := hrewrites.ids_perm
  findNode other := by rw [hrewrites.findNode other, hagree]

theorem rewrites_moveToTail (hid : ∀ node, (update node).id = node.id)
    (hnodup : before.ids.Nodup) (hmaxSize : after.maxSize = before.maxSize)
    (hnodes : after.nodes = moveToTail NodeInfo.id peer update before.nodes) :
    Rewrites before after peer update where
  maxSize := hmaxSize
  ids_perm := by
    rw [ids, ids, hnodes]
    exact map_key_moveToTail_perm hid before.nodes
  findNode other := by
    rw [findNode, findNode, findNode, hnodes]
    exact lookup_moveToTail hid before.nodes hnodup

theorem rewrites_updateInPlace (hid : ∀ node, (update node).id = node.id)
    (hmaxSize : after.maxSize = before.maxSize)
    (hnodes : after.nodes = updateInPlace NodeInfo.id peer update before.nodes) :
    Rewrites before after peer update where
  maxSize := hmaxSize
  ids_perm := by
    rw [ids, ids, hnodes, map_key_updateInPlace hid]
  findNode other := by
    rw [findNode, findNode, findNode, hnodes]
    exact lookup_updateInPlace hid before.nodes

@[simp]
theorem id_touchedNode (address : Option MultiAddr) (addressType : AddressType)
    (now : ℕ) (node : NodeInfo) :
    (touchedNode address addressType now node).id = node.id := by
  cases address with
  | none => rfl
  | some address =>
    simp only [touchedNode]
    split <;> simp

theorem id_mergeAll (node : NodeInfo) (typed : List (MultiAddr × AddressType)) :
    (mergeAll node typed).id = node.id := by
  induction typed generalizing node with
  | nil => rfl
  | cons head tail ih =>
    calc
      (mergeAll node (head :: tail)).id
          = (mergeAll (node.mergeTypedAddress head.1 head.2) tail).id := rfl
      _ = node.id := by rw [ih, id_mergeTypedAddress]

theorem touchNodeTyped_rewrites (bucket : KBucket) (hnodup : bucket.ids.Nodup)
    (nodeId : PeerId) (address : Option MultiAddr) (addressType : AddressType)
    (now : ℕ) :
    Rewrites bucket (bucket.touchNodeTyped nodeId address addressType now).1
      nodeId (touchedNode address addressType now) := by
  rw [touchNodeTyped]
  split
  · exact rewrites_moveToTail (id_touchedNode address addressType now) hnodup rfl rfl
  · next habsent => exact Rewrites.of_absent (by simpa using habsent)

/-- What an upgrade-only merge does to the record. -/
def upgradedNode (address : MultiAddr) (addressType : AddressType) (node : NodeInfo) : NodeInfo :=
  if node.skipsLoopback address then node
  else (node.mergeTypedAddressUpgradeOnly address addressType).1

theorem mergeTypedAddressUpgradeOnly_rewrites (bucket : KBucket)
    (nodeId : PeerId) (address : MultiAddr) (addressType : AddressType) :
    Rewrites bucket (bucket.mergeTypedAddressUpgradeOnly nodeId address addressType).1
      nodeId (upgradedNode address addressType) := by
  rw [mergeTypedAddressUpgradeOnly]
  cases hfind : bucket.findNode nodeId with
  | none => exact Rewrites.of_absent hfind
  | some node =>
    by_cases hskip : node.skipsLoopback address
    · simp only [hskip, if_true]
      apply Rewrites.of_fixed
      simp [hfind, upgradedNode, hskip]
    · simp only [hskip, Bool.false_eq_true, if_false]
      refine Rewrites.congr (rewrites_updateInPlace
        (fun node => id_mergeTypedAddressUpgradeOnly node address
          addressType) rfl rfl) ?_
      simp [hfind, upgradedNode, hskip]

/-- What the fast path of a touch does to the record. -/
def seenNode (address : Option MultiAddr) (addressType : AddressType)
    (now : ℕ) (node : NodeInfo) : NodeInfo :=
  if mergeIsNoop node address addressType then { node with lastSeen := now }
  else node

theorem touchLastSeenIfMergeNoop_rewrites (bucket : KBucket) (nodeId : PeerId)
    (address : Option MultiAddr) (addressType : AddressType) (now : ℕ) :
    Rewrites bucket (bucket.touchLastSeenIfMergeNoop nodeId address addressType now).1
      nodeId (seenNode address addressType now) := by
  rw [touchLastSeenIfMergeNoop]
  cases hfind : bucket.findNode nodeId with
  | none => exact Rewrites.of_absent hfind
  | some node =>
    by_cases hnoop : mergeIsNoop node address addressType
    · simp only [hnoop, if_true]
      have hid : ∀ node : NodeInfo, ({ node with lastSeen := now } : NodeInfo).id = node.id :=
        fun _ => rfl
      refine Rewrites.congr (rewrites_updateInPlace hid rfl rfl) ?_
      simp [hfind, seenNode, hnoop]
    · simp only [hnoop, Bool.false_eq_true, if_false]
      apply Rewrites.of_fixed
      simp [hfind, seenNode, hnoop]

/-- What an accepted publication does to the record. -/
def republishedNode (typed : List (MultiAddr × AddressType))
    (mode : AddressReplaceMode) (now : ℕ) (node : NodeInfo) : NodeInfo :=
  { publishedNode typed node with
    lastSeen := if mode.refreshesLiveness then now else node.lastSeen }

theorem id_republishedNode (typed : List (MultiAddr × AddressType))
    (mode : AddressReplaceMode) (now : ℕ) (node : NodeInfo) :
    (republishedNode typed mode now node).id = node.id := rfl

theorem replaceNodeAddressesWithMode_rewrites (bucket : KBucket)
    (hnodup : bucket.ids.Nodup) (nodeId : PeerId)
    (typed : List (MultiAddr × AddressType)) (mode : AddressReplaceMode)
    (now : ℕ)
    (hreplaced : (bucket.replaceNodeAddressesWithMode nodeId typed mode now).2 = true) :
    Rewrites bucket (bucket.replaceNodeAddressesWithMode nodeId typed mode now).1
      nodeId (republishedNode typed mode now) := by
  rw [replaceNodeAddressesWithMode] at hreplaced ⊢
  by_cases hpresent : (bucket.findNode nodeId).isSome && acceptsPublication typed
  · simp only [hpresent, if_true]
    cases mode with
    | authenticatedSelfPublish =>
      exact rewrites_moveToTail (id_republishedNode typed _ now) hnodup rfl rfl
    | gossipedRecord =>
      exact rewrites_updateInPlace (id_republishedNode typed _ now) rfl rfl
  · simp [hpresent] at hreplaced

/-- A publication is applied exactly when the peer is here and the list is
acceptable; otherwise the bucket is left alone. -/
theorem replaceNodeAddressesWithMode_applied (bucket : KBucket)
    (nodeId : PeerId) (typed : List (MultiAddr × AddressType))
    (mode : AddressReplaceMode) (now : ℕ) :
    (bucket.replaceNodeAddressesWithMode nodeId typed mode now).2 =
      ((bucket.findNode nodeId).isSome && acceptsPublication typed) := by
  rw [replaceNodeAddressesWithMode]
  split
  · next hpresent =>
      rw [hpresent]
      split <;> rfl
  · next habsent => simpa using habsent

@[simp]
theorem id_mergedNode (node existing : NodeInfo) : (mergedNode node existing).id = existing.id := by
  rw [mergedNode, id_mergeAll]

@[simp]
theorem id_insertedNode (node : NodeInfo) : (insertedNode node).id = node.id :=
  rfl

theorem addresses_insertedNode_subset (node : NodeInfo) :
    (insertedNode node).addresses ⊆ node.addresses := by
  intro address hmem
  have hstorable :=
    addresses_enforcePerIpFamilyCap_subset _ hmem
  simp only [withTyped, storableTyped, map_map, mem_map] at hstorable
  obtain ⟨pair, hpair, rfl⟩ := hstorable
  exact (of_mem_zip (mem_of_mem_filter (mem_of_mem_take hpair))).1

/-- The two ways in which `add_node` succeeds. -/
theorem addNode_eq_ok {node : NodeInfo} {now : ℕ} (hadd : bucket.addNode node now = .ok after) :
    ((bucket.findNode node.id).isSome ∧ after = { bucket with
        nodes := moveToTail NodeInfo.id node.id (mergedNode node) bucket.nodes
        lastRefreshedByLivePeer := now }) ∨
    (bucket.findNode node.id = none ∧ bucket.nodes.length < bucket.maxSize ∧ after = { bucket with
        nodes := bucket.nodes ++ [insertedNode node]
        lastRefreshedByLivePeer := now }) := by
  rw [addNode] at hadd
  split at hadd
  · cases hadd
  · split at hadd
    · next hpresent =>
        exact Or.inl ⟨hpresent, (Except.ok.inj hadd).symm⟩
    · next habsent =>
        split at hadd
        · next hroom =>
            exact Or.inr ⟨by simpa using habsent, hroom, (Except.ok.inj hadd).symm⟩
        · cases hadd

end KBucket

end SaorsaCore.Routing
