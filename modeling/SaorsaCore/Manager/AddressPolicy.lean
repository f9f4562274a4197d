import SaorsaCore.Manager.PeerRecord

/-!
# Local policy on published addresses

Before a published address set is stored, local-scope addresses are dropped unless the
publisher is close by, and the records of a set are checked one by one.  Whatever
passes was offered by the publisher: the policy drops addresses and corrects tags, it
never adds any.
-/

namespace SaorsaCore.Manager

open List

/-- What the store policy reads of `DialAddressContext`. -/
structure DialAddressContext where
  localWanIps : List IpAddr
  deriving DecidableEq, Repr

namespace DialAddressContext

variable (context : DialAddressContext)

def ipSharesLocalWan (ip : IpAddr) : Bool :=
  !ip.canonicalize.isLan && context.localWanIps.contains ip.canonicalize

def peerSharesWan (typed : List (MultiAddr × AddressType)) : Bool :=
  !context.localWanIps.isEmpty && typed.any fun pair =>
    let addressType := AddressType.forAdvertisedAddress pair.1 pair.2
    !(addressType == .relay || addressType == .lan) && pair.1.ip.any context.ipSharesLocalWan

/-- `filter_lan_addresses_for_store_with_context` -/
def filterLanAddressesForStore (typed : List (MultiAddr × AddressType))
    (transportSource : Option MultiAddr) : List (MultiAddr × AddressType) :=
  let canonical := typed.map fun pair =>
    (pair.1, AddressType.forAdvertisedAddress pair.1 pair.2)
  let arrivedOverLan := (transportSource.bind MultiAddr.ip).any IpAddr.isLan
  if arrivedOverLan || context.peerSharesWan canonical then canonical
  else canonical.filter fun pair => pair.2 != .lan

end DialAddressContext

/-! ## Validation of a record set -/

/-- WebRTC Direct has no reachability classes. -/
def normalizeKnownWebrtcReachability (record : TransportAddressRecord) : TransportAddressRecord :=
  if record.transport = KnownTransport.webRtcDirect.id ∧ record.legacyReachability.isSome then
    { record with reachability := reachabilityId .unverified }
  else record

/-- A record that passed the checks, with the address and tag it was decoded to; the
records of unknown transports have none. -/
abbrev BoundedRecord := TransportAddressRecord × Option (MultiAddr × AddressType)

variable (wire : AddressWire)

/-- One pass of the loop in `validate_transport_address_records`. -/
def boundRecord (owner : PeerId) (bounded : List BoundedRecord)
    (received : TransportAddressRecord) : List BoundedRecord :=
  let record := normalizeKnownWebrtcReachability received
  if !record.isWithinWireBounds || (bounded.map Prod.fst).contains record then bounded
  else
    match record.decodeKnown wire.toAddressCodec with
    | .ok (some address) =>
      if !address.isStorable then bounded
      else if address.peerId.any (· != owner) then bounded
      else if record.transport = KnownTransport.webRtcDirect.id
          ∧ address.peerId ≠ some owner then bounded
      else
        bounded ++ [(record, some (address, record.legacyReachability.getD .unverified))]
    | .ok none =>
      if (KnownTransport.fromId record.transport).isNone then bounded ++ [(record, none)]
      else bounded
    | .error _ => bounded

/-- The record as it is stored: with the tag the address was allowed under, or not at
all. -/
def allowedRecord (allowed : List (MultiAddr × AddressType)) :
    BoundedRecord → Option TransportAddressRecord
  | (record, none) => some record
  | (record, some (address, _)) =>
    (allowed.find? fun pair => pair.1 = address).map fun pair =>
      if record.legacyReachability.isSome then
        { record with
          reachability :=
            if record.transport = KnownTransport.webRtcDirect.id then
              reachabilityId .unverified
            else reachabilityId pair.2 }
      else record

/-- `validate_transport_address_records`: the records to store and their QUIC
addresses; `none` if nothing is left. -/
def validateTransportAddressRecords (allowLoopback : Bool) (context : DialAddressContext)
    (owner : PeerId) (records : List TransportAddressRecord)
    (transportSource : Option MultiAddr) :
    Option (List TransportAddressRecord × List (MultiAddr × AddressType)) :=
  if records.isEmpty then none
  else
    let bounded :=
      (records.take maxTransportAddressRecords).foldl (boundRecord wire owner) []
    if bounded.isEmpty then none
    else
      let candidates := (bounded.filterMap Prod.snd).filter fun pair =>
        allowLoopback || !pair.1.canonicalIp.any IpAddr.isLoopback
      let allowed := context.filterLanAddressesForStore candidates transportSource
      let kept := bounded.filterMap (allowedRecord allowed)
      if kept.isEmpty then none
      else some (kept, allowed.filter fun pair => pair.1.isQuic)

/-! ## Nothing is added -/

/-- Every address was offered, and its tag is the one it was offered under unless the
address is of local scope. -/
def Drawn (offered typed : List (MultiAddr × AddressType)) : Prop :=
  ∀ pair ∈ typed, ∃ advertised, (pair.1, advertised) ∈ offered ∧
    pair.2 = AddressType.forAdvertisedAddress pair.1 advertised

namespace Drawn

variable {offered typed fewer : List (MultiAddr × AddressType)}

theorem subset (hdrawn : Drawn offered typed) (hsubset : fewer ⊆ typed) : Drawn offered fewer := by
  intro pair hpair
  exact hdrawn pair (hsubset hpair)

theorem trans (hfirst : Drawn offered typed) (hsecond : Drawn typed fewer) :
    Drawn offered fewer := by
  intro pair hpair
  obtain ⟨tag, htyped, htag⟩ := hsecond pair hpair
  obtain ⟨advertised, hoffered, hadvertised⟩ := hfirst _ htyped
  refine ⟨advertised, hoffered, ?_⟩
  simp only at hadvertised
  rw [htag, hadvertised, AddressType.forAdvertisedAddress_idem]

/-- Correcting the tags of some of the addresses. -/
theorem of_canonical (hfewer : fewer ⊆ typed.map fun pair =>
    (pair.1, AddressType.forAdvertisedAddress pair.1 pair.2)) : Drawn typed fewer := by
  intro pair hpair
  obtain ⟨source, hsource, rfl⟩ := mem_map.mp (hfewer hpair)
  exact ⟨source.2, hsource, rfl⟩

end Drawn

theorem DialAddressContext.filterLanAddressesForStore_drawn
    (context : DialAddressContext) (typed : List (MultiAddr × AddressType))
    (transportSource : Option MultiAddr) :
    Drawn typed (context.filterLanAddressesForStore typed transportSource) := by
  apply Drawn.of_canonical
  rw [filterLanAddressesForStore]
  split
  · exact List.Subset.refl _
  · exact filter_sublist.subset

/-- The addresses that a record set offers, with the tags they are read under. -/
def recordPairs (records : List TransportAddressRecord) : List (MultiAddr × AddressType) :=
  records.filterMap fun record =>
    (record.knownAddress wire.toAddressCodec).map fun address =>
      (address, (normalizeKnownWebrtcReachability record).legacyReachability.getD .unverified)

variable {wire}

theorem knownAddress_normalize (record : TransportAddressRecord) :
    (normalizeKnownWebrtcReachability record).knownAddress wire.toAddressCodec =
      record.knownAddress wire.toAddressCodec := by
  rw [normalizeKnownWebrtcReachability]
  split <;> rfl

variable {owner : PeerId}

theorem mem_boundRecord {bounded : List BoundedRecord} {received : TransportAddressRecord}
    {entry : BoundedRecord} (hentry : entry ∈ boundRecord wire owner bounded received) :
    entry ∈ bounded ∨ ∀ pair, entry.2 = some pair → pair ∈ recordPairs wire [received] := by
  rw [boundRecord] at hentry
  split at hentry
  · exact .inl hentry
  · split at hentry
    · next address hdecode =>
        split_ifs at hentry
        · exact .inl hentry
        · exact .inl hentry
        · exact .inl hentry
        · rcases mem_append.mp hentry with hmem | hmem
          · exact .inl hmem
          · have hknown : received.knownAddress wire.toAddressCodec = some address := by
              rw [← knownAddress_normalize, TransportAddressRecord.knownAddress, hdecode]
            rw [mem_singleton.mp hmem]
            right
            intro pair hpair
            rw [← Option.some.inj hpair]
            simp [recordPairs, hknown]
    · split_ifs at hentry
      · rcases mem_append.mp hentry with hmem | hmem
        · exact .inl hmem
        · rw [mem_singleton.mp hmem]
          right
          intro pair hpair
          cases hpair
      · exact .inl hentry
    · exact .inl hentry

theorem mem_foldl_boundRecord {records : List TransportAddressRecord} {entry : BoundedRecord}
    {pair : MultiAddr × AddressType}
    (hentry : entry ∈ records.foldl (boundRecord wire owner) []) (hpair : entry.2 = some pair) :
    pair ∈ recordPairs wire records := by
  induction records using reverseRecOn with
  | nil => cases hentry
  | append_singleton records received ih =>
    rw [foldl_append] at hentry
    rw [recordPairs, filterMap_append]
    rcases mem_boundRecord hentry with hmem | hmem
    · exact mem_append_left _ (ih hmem)
    · exact mem_append_right _ (hmem pair hpair)

/-- The addresses that validation lets through are among those of the records. -/
theorem validateTransportAddressRecords_drawn {allowLoopback : Bool}
    {context : DialAddressContext} {records kept : List TransportAddressRecord}
    {transportSource : Option MultiAddr} {native : List (MultiAddr × AddressType)}
    (hvalid : validateTransportAddressRecords wire allowLoopback context owner records
      transportSource = some (kept, native)) : Drawn (recordPairs wire records) native := by
  rw [validateTransportAddressRecords] at hvalid
  simp only at hvalid
  split_ifs at hvalid
  cases hvalid
  have hallowed := context.filterLanAddressesForStore_drawn
    ((((records.take maxTransportAddressRecords).foldl (boundRecord wire owner)
      []).filterMap Prod.snd).filter fun pair =>
        allowLoopback || !pair.1.canonicalIp.any IpAddr.isLoopback) transportSource
  intro pair hpair
  obtain ⟨advertised, hmem, htag⟩ := hallowed pair (mem_of_mem_filter hpair)
  obtain ⟨entry, hentry, hdecoded⟩ :=
    mem_filterMap.mp (mem_of_mem_filter hmem)
  have hoffered := mem_foldl_boundRecord hentry hdecoded
  refine ⟨advertised, ?_, htag⟩
  -- Only a prefix of the records was looked at.
  rw [recordPairs] at hoffered ⊢
  exact ((take_sublist _ records).filterMap _).subset hoffered

end SaorsaCore.Manager
