import SaorsaCore.Address.SignedRecord

/-!
# Peer records of lookups

`DHTNode` is what lookups exchange about a peer.  On the wire its `distance` field may
claim the sequence of the peer's own publication, which anyone can write there; what
this process has itself established about the owner is in `addressAuthority`, which is
never sent.  Merging two records of one peer lets the better established one replace
the other whole, and only mixes addresses while neither is established.
-/

namespace SaorsaCore.Manager

/-- Local-only provenance of the addresses of a record. -/
inductive AddressAuthority where
  /-- Received on the authenticated connection of the owner, with this sequence. -/
  | authenticatedOwner (seq : ℕ)
  /-- Signed by the owner and verified here. -/
  | signed (record : VerifiedAddressRecord)
  deriving DecidableEq, Repr

namespace AddressAuthority

def sequence : AddressAuthority → ℕ
  | authenticatedOwner seq => seq
  | signed record => record.sequence

/-- A signed record without QUIC addresses says nothing about them. -/
def quicSequence : AddressAuthority → ℕ
  | authenticatedOwner seq => seq
  | signed record =>
    if record.records.any (·.transport == KnownTransport.quic.id) then record.sequence
    else 0

def publication : AddressAuthority → Option VerifiedAddressRecord
  | authenticatedOwner _ => none
  | signed record => some record

end AddressAuthority

/-- An address with the tag it may be advertised under. -/
def canonical (pair : MultiAddr × AddressType) : MultiAddr × AddressType :=
  (pair.1, AddressType.forAdvertisedAddress pair.1 pair.2)

@[simp]
theorem canonical_canonical (pair : MultiAddr × AddressType) :
    canonical (canonical pair) = canonical pair := by
  simp [canonical]

structure DHTNode (Score : Type*) where
  peerId : PeerId
  addresses : List MultiAddr
  addressTypes : List AddressType
  distance : Option (List Byte)
  reliability : Score
  addressAuthority : Option AddressAuthority
  deriving DecidableEq, Repr

/-! ## The sequence in the distance field -/

/-- `PUBLISH_SEQ_DISTANCE_MARKER`, the bytes of `PUBSEQ01`. -/
def publishSeqDistanceMarker : List Byte :=
  [0x50, 0x55, 0x42, 0x53, 0x45, 0x51, 0x30, 0x31]

/-- `u64::to_be_bytes` -/
def toBeBytes (seq : ℕ) : List Byte :=
  (List.range 8).map fun index => BitVec.ofNat 8 (seq / 256 ^ (7 - index))

/-- `u64::from_be_bytes` -/
def fromBeBytes (bytes : List Byte) : ℕ :=
  bytes.foldl (fun number byte => number * 256 + byte.toNat) 0

def encodePublishSeqDistance (seq : ℕ) : Option (List Byte) :=
  if seq = 0 then none else some (publishSeqDistanceMarker ++ toBeBytes seq)

namespace DHTNode

variable {Score : Type*}

/-- `dht_node_publish_seq`: the sequence this process has established. -/
def publishSeq (node : DHTNode Score) : ℕ :=
  (node.addressAuthority.map AddressAuthority.sequence).getD 0

/-- `advertised_publish_seq`: the sequence the sender of the record claims. -/
def advertisedPublishSeq (node : DHTNode Score) : ℕ :=
  match node.distance with
  | none => 0
  | some distance =>
    if distance.length ≠ publishSeqDistanceMarker.length + 8
        || distance.take publishSeqDistanceMarker.length != publishSeqDistanceMarker then 0
    else fromBeBytes (distance.drop publishSeqDistanceMarker.length)

/-- Each address with its tag; tags are missing in records of old peers, and
local-scope addresses are always tagged as such. -/
def typedAddresses (node : DHTNode Score) : List (MultiAddr × AddressType) :=
  node.addresses.mapIdx fun index address =>
    (address, AddressType.forAdvertisedAddress address (node.addressTypes.getD index .unverified))

/-- Replace addresses and tags by a list of pairs. -/
def withTyped (node : DHTNode Score) (typed : List (MultiAddr × AddressType)) : DHTNode Score :=
  { node with
    addresses := typed.map Prod.fst
    addressTypes := typed.map Prod.snd }

theorem typedAddresses_withTyped (node : DHTNode Score) (typed : List (MultiAddr × AddressType)) :
    (node.withTyped typed).typedAddresses =
      typed.map fun pair => (pair.1, AddressType.forAdvertisedAddress pair.1 pair.2) := by
  apply List.ext_getElem
  · simp [typedAddresses, withTyped]
  · intro index hleft hright
    have hindex : index < typed.length := by simpa using hright
    simp [typedAddresses, withTyped, hindex]

/-! ## Merging two records -/

def publication (node : DHTNode Score) : Option VerifiedAddressRecord :=
  node.addressAuthority.bind AddressAuthority.publication

/-- The sequence of the signed publication of a record, or zero. -/
def publicationSequence (node : DHTNode Score) : ℕ :=
  (node.publication.map VerifiedAddressRecord.sequence).getD 0

/-- A signed publication replaces every other view, and only a newer one replaces
it; without one the greater established sequence wins. -/
def mergeOwnerViews (node other : DHTNode Score) : DHTNode Score :=
  let replace :=
    if node.publicationSequence ≠ 0 || other.publicationSequence ≠ 0 then
      node.publicationSequence < other.publicationSequence
    else node.publishSeq < other.publishSeq
  if replace then other else node

/-- One pass of the merge of unestablished records: a known address may be promoted, a
new one is appended. -/
def mergeHint (lists : List MultiAddr × List AddressType)
    (pair : MultiAddr × AddressType) : List MultiAddr × List AddressType :=
  match lists.1.findIdx? (· == pair.1) with
  | some position =>
    if pair.2.priority < (lists.2.getD position .unverified).priority then
      (lists.1, lists.2.set position pair.2)
    else lists
  | none => (lists.1 ++ [pair.1], lists.2 ++ [pair.2])

/-- The tags before the merge: padded, and canonical as far as there are addresses. -/
def mergeableTypes (node : DHTNode Score) : List AddressType :=
  node.typedAddresses.map Prod.snd ++ node.addressTypes.drop node.addresses.length

def mergeHints [LT Score] [DecidableLT Score] (node other : DHTNode Score) : DHTNode Score :=
  let lists := other.typedAddresses.foldl mergeHint (node.addresses, node.mergeableTypes)
  let pairs := (lists.1.zip lists.2).insertionSort fun left right =>
    left.2.priority ≤ right.2.priority
  let publishSeq := max node.publishSeq other.publishSeq
  { node.withTyped pairs with
    reliability :=
      if node.reliability < other.reliability then other.reliability
      else node.reliability
    distance :=
      if publishSeq ≠ 0 then encodePublishSeqDistance publishSeq else node.distance }

def mergeFrom [LT Score] [DecidableLT Score] (node other : DHTNode Score) : DHTNode Score :=
  if node.peerId ≠ other.peerId then node
  else if node.publishSeq ≠ 0 || other.publishSeq ≠ 0 then node.mergeOwnerViews other
  else node.mergeHints other

section MergeLemmas

variable [LT Score] [DecidableLT Score] (node other : DHTNode Score)

omit [LT Score] [DecidableLT Score] in
theorem mergeOwnerViews_eq_or :
    node.mergeOwnerViews other = other ∨ node.mergeOwnerViews other = node := by
  rw [mergeOwnerViews]
  exact ite_eq_or_eq _ _ _

/-- A merged record is one of the two, unless nothing is established about either. -/
theorem mergeFrom_eq_or : node.mergeFrom other = node ∨ node.mergeFrom other = other ∨
    (node.publishSeq = 0 ∧ node.mergeFrom other = node.mergeHints other) := by
  rw [mergeFrom]
  split
  · exact .inl rfl
  · split
    · rcases node.mergeOwnerViews_eq_or other with heq | heq
      · exact .inr (.inl heq)
      · exact .inl heq
    · next hseq =>
        refine .inr (.inr ⟨?_, rfl⟩)
        simp only [ne_eq, Bool.or_eq_true, decide_eq_true_eq, not_or, not_not] at hseq
        exact hseq.1

end MergeLemmas

end DHTNode

end SaorsaCore.Manager
