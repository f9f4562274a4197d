import SaorsaCore.Routing.Engine

/-!
# The frame of the gossip operations

What other peers report about a peer may change its addresses and its publication and
nothing else: a report is no sign of life.  Upgrade-only merges, replacements from
gossip and V2 stores that are not the owner's own share their code with the operations
of authenticated peers, which do refresh the time of contact.
-/

namespace SaorsaCore.Routing

open KeyedList

/-! ## Records -/

namespace NodeInfo

/-- What identifies a peer in its bucket and orders it by liveness. -/
def contact (node : NodeInfo) : PeerId × ℕ := (node.id, node.lastSeen)

theorem contact_removeDuplicate (node : NodeInfo) (address : MultiAddr) :
    (node.removeDuplicate address).contact = node.contact := by
  rw [removeDuplicate]
  split <;> rfl

theorem contact_insertTyped (node : NodeInfo) (address : MultiAddr) (addressType : AddressType) :
    (node.insertTyped address addressType).contact = node.contact := by
  cases addressType <;> rfl

theorem contact_mergeTypedAddress (node : NodeInfo) (address : MultiAddr)
    (advertised : AddressType) :
    (node.mergeTypedAddress address advertised).contact = node.contact := by
  rw [mergeTypedAddress]
  split
  · calc
      _ = ((node.padTypes.removeDuplicate address).insertTyped address
            (AddressType.forAdvertisedAddress address advertised)).contact := rfl
      _ = (node.padTypes.removeDuplicate address).contact := contact_insertTyped _ _ _
      _ = node.contact := contact_removeDuplicate _ _
  · rfl

theorem contact_mergeTypedAddressUpgradeOnly (node : NodeInfo) (address : MultiAddr)
    (advertised : AddressType) :
    (node.mergeTypedAddressUpgradeOnly address advertised).1.contact = node.contact := by
  have hmerged := node.contact_mergeTypedAddress address
    (AddressType.forAdvertisedAddress address advertised)
  simp only [mergeTypedAddressUpgradeOnly]
  split
  · split
    · split
      · rfl
      · exact hmerged
    · exact hmerged
  · rfl

end NodeInfo

/-! ## Buckets -/

/-- `after` differs from `before` at most in the addresses of one peer. -/
structure KBucket.Frames (before after : KBucket) (peer : PeerId) : Prop where
  maxSize : after.maxSize = before.maxSize
  lastRefreshed : after.lastRefreshedByLivePeer = before.lastRefreshedByLivePeer
  lastProbe : after.lastProbeFinished = before.lastProbeFinished
  contacts : after.nodes.map NodeInfo.contact = before.nodes.map NodeInfo.contact
  others : after.nodes.filter (fun node => node.id ≠ peer) =
    before.nodes.filter fun node => node.id ≠ peer

namespace KBucket

theorem Frames.refl (bucket : KBucket) (peer : PeerId) : bucket.Frames bucket peer :=
  ⟨rfl, rfl, rfl, rfl, rfl⟩

theorem frames_updateInPlace (bucket : KBucket) (peer : PeerId)
    {update : NodeInfo → NodeInfo} (hcontact : ∀ node, (update node).contact = node.contact) :
    bucket.Frames
      { bucket with nodes := updateInPlace NodeInfo.id peer update bucket.nodes } peer where
  maxSize := rfl
  lastRefreshed := rfl
  lastProbe := rfl
  contacts := map_updateInPlace hcontact bucket.nodes
  others := by
    have hid (node : NodeInfo) : (update node).id = node.id := congrArg Prod.fst (hcontact node)
    exact filter_updateInPlace hid bucket.nodes

theorem mergeTypedAddressUpgradeOnly_frames (bucket : KBucket) (peer : PeerId)
    (address : MultiAddr) (addressType : AddressType) :
    bucket.Frames (bucket.mergeTypedAddressUpgradeOnly peer address addressType).1 peer := by
  rw [mergeTypedAddressUpgradeOnly]
  split
  · exact Frames.refl bucket peer
  · split
    · exact Frames.refl bucket peer
    · apply frames_updateInPlace
      exact fun node => node.contact_mergeTypedAddressUpgradeOnly address addressType

theorem replaceNodeAddressesWithMode_frames (bucket : KBucket) (peer : PeerId)
    (typed : List (MultiAddr × AddressType)) (now : ℕ) :
    bucket.Frames (bucket.replaceNodeAddressesWithMode peer typed .gossipedRecord now).1 peer := by
  rw [replaceNodeAddressesWithMode]
  split
  · exact frames_updateInPlace bucket peer fun _ => rfl
  · exact Frames.refl bucket peer

end KBucket

/-! ## Tables -/

/-- `after` differs from `before` at most in the addresses and the publication of one
peer. -/
structure RoutingTable.Frames (before after : RoutingTable) (peer : PeerId) : Prop where
  nodeId : after.nodeId = before.nodeId
  buckets : ∀ index, (before.buckets index).Frames (after.buckets index) peer
  publications : ∀ other, other ≠ peer →
    after.addressPublications other = before.addressPublications other

namespace RoutingTable

theorem Frames.refl (table : RoutingTable) (peer : PeerId) : table.Frames table peer :=
  ⟨rfl, fun _ => KBucket.Frames.refl _ peer, fun _ _ => rfl⟩

theorem Frames.setBucket {table : RoutingTable} {index : Fin 256} {bucket : KBucket}
    {peer : PeerId} (hframes : (table.buckets index).Frames bucket peer) :
    table.Frames (table.setBucket index bucket) peer where
  nodeId := rfl
  buckets position := by
    rw [buckets_setBucket]
    split
    · next hposition =>
        rw [hposition]
        exact hframes
    · exact KBucket.Frames.refl _ peer
  publications _ _ := rfl

theorem Frames.setPublication {before after : RoutingTable} {peer : PeerId}
    (hframes : before.Frames after peer) (publication : Option AddressPublication) :
    before.Frames (after.setPublication peer publication) peer where
  nodeId := hframes.nodeId
  buckets := hframes.buckets
  publications other hother :=
    (Function.update_of_ne hother _ _).trans (hframes.publications other hother)

theorem mergeTypedAddressUpgradeOnly_frames (table : RoutingTable) (peer : PeerId)
    (address : MultiAddr) (addressType : AddressType) :
    table.Frames (table.mergeTypedAddressUpgradeOnly peer address addressType).1 peer := by
  rw [mergeTypedAddressUpgradeOnly]
  split
  · exact Frames.refl table peer
  · split
    · exact Frames.refl table peer
    · exact Frames.setBucket (KBucket.mergeTypedAddressUpgradeOnly_frames _ peer _ _)

theorem replaceNodeAddressesWithMode_frames (table : RoutingTable) (peer : PeerId)
    (typed : List (MultiAddr × AddressType)) (seq now : ℕ) :
    table.Frames
      (table.replaceNodeAddressesWithMode peer typed seq .gossipedRecord now).1 peer := by
  rw [replaceNodeAddressesWithMode]
  split
  · exact Frames.refl table peer
  · split
    · exact Frames.refl table peer
    · split
      · exact Frames.refl table peer
      · next index _ =>
          have hreplaced := Frames.setBucket
            ((table.buckets index).replaceNodeAddressesWithMode_frames peer typed now)
          simp only
          split
          · exact hreplaced.setPublication _
          · exact Frames.refl table peer

theorem storeTransportAddressSet_frames (table : RoutingTable) (codec : AddressCodec)
    (peer : PeerId) (set : TransportAddressSet) (native : List (MultiAddr × AddressType))
    (now : ℕ) :
    table.Frames
      (table.storeTransportAddressSet codec peer set native .gossipedRecord now).1 peer := by
  rw [storeTransportAddressSet]
  split
  · exact Frames.refl table peer
  · next index _ =>
      have hreplaced := Frames.setBucket
        ((table.buckets index).replaceNodeAddressesWithMode_frames peer native now)
      split
      · exact Frames.refl table peer
      · simp only
        split
        · split
          · exact hreplaced
          · exact hreplaced.setPublication _
        · exact Frames.refl table peer

/-- Gossip about a peer changes no time of contact, no order of a bucket, no membership,
no refresh or probe timestamp, and nothing about other peers. -/
theorem gossip_frames {Score : Type*} (config : EngineConfig Score) (codec : AddressCodec)
    (table : RoutingTable) (peer : PeerId) :
    (∀ address addressType,
      table.Frames (table.mergeTypedAddressUpgradeOnly peer address addressType).1 peer) ∧
    (∀ typed seq now,
      table.Frames
        (table.replaceNodeAddressesWithMode peer typed seq .gossipedRecord now).1 peer) ∧
    (∀ typed seq now,
      table.Frames
        (config.replaceNodeAddresses table peer typed seq .gossipedRecord now).1 peer) ∧
    (∀ set native now,
      table.Frames
        (table.storeTransportAddressSet codec peer set native .gossipedRecord now).1 peer) := by
  refine ⟨table.mergeTypedAddressUpgradeOnly_frames peer,
    table.replaceNodeAddressesWithMode_frames peer, ?_,
    table.storeTransportAddressSet_frames codec peer⟩
  intro typed seq now
  rw [EngineConfig.replaceNodeAddresses]
  split
  · exact Frames.refl table peer
  · exact table.replaceNodeAddressesWithMode_frames peer _ seq now

end RoutingTable

end SaorsaCore.Routing
