import SaorsaCore.Core.Grouping
import SaorsaCore.Manager.Projection
import SaorsaCore.Reachability.Announcement
import SaorsaCore.Routing.Slots

/-!
# One snapshot in two versions

A node sends every snapshot of its addresses twice: the whole snapshot as a signed V2
publication, and its QUIC addresses as a V1 publication.  A receiver takes the two through
different filters.  Both leave the same addresses unless the WebRTC addresses of the
snapshot, which only V2 carries, decide something: whether the owner is close enough for
its LAN addresses to be trusted, or whether anything is left to be stored at all.
-/

namespace SaorsaCore.Manager

open Routing IpAddr AddressType List KBucket NodeInfo Reachability TransportAddressRecord
open KnownTransport SignedAddressRecord DialAddressContext RoutingTable

/-! ## The two requests -/

section Requests

variable (wire : AddressWire) (signatures : AddressSignatures)

/-- The QUIC addresses of a snapshot. -/
def legacyAddresses (records : List TransportAddressRecord) : List (MultiAddr × AddressType) :=
  records.filterMap fun record =>
    ((record.knownAddress wire.toAddressCodec).filter MultiAddr.isQuic).map fun address =>
      (address, record.legacyReachability.getD .unverified)

/-- The WebRTC addresses of a snapshot, which are never verified. -/
def webRtcAddresses (records : List TransportAddressRecord) : List (MultiAddr × AddressType) :=
  records.filterMap fun record =>
    ((record.knownAddress wire.toAddressCodec).filter MultiAddr.isWebRtcDirect).map
      fun address => (address, .unverified)

/-- The requests that `publish_address_records_to_peers` sends to each peer; `signed` is
the answer of `local_signed_address_record`. -/
def publicationRequests (records : List TransportAddressRecord)
    (signed : Option SignedAddressRecord) : List DhtNetworkOperation :=
  if records.isEmpty then []
  else
    match signed with
    | none => []
    | some signed =>
      match signed.verify wire signatures with
      | .error _ => []
      | .ok verified =>
        let addresses := legacyAddresses wire records
        (if addresses.isEmpty then []
          else [.publishAddressSet verified.sequence addresses]) ++ [.publishAddressSetV2 signed]

end Requests

/-! ## The filters -/

/-- The address is not taken for a LAN address. -/
def isWide (pair : MultiAddr × AddressType) : Bool :=
  (canonical pair).2 != .lan

/-- The address passes under this setting for loopback addresses. -/
def passesLoopback (allowLoopback : Bool) (pair : MultiAddr × AddressType) : Bool :=
  allowLoopback || !pair.1.canonicalIp.any IpAddr.isLoopback

theorem IpAddr.isLan_of_isLoopback_canonicalize {ip : IpAddr}
    (hloopback : ip.canonicalize.isLoopback = true) : ip.isLan = true := by
  cases ip with
  | v4 ip => simp_all [canonicalize, isLoopback, isLan, Ipv4Addr.isLan]
  | v6 ip =>
    cases hmapped : ip.toIpv4Mapped <;>
      simp_all [canonicalize, isLoopback, isLan, Ipv4Addr.isLan, Ipv6Addr.isLan]

/-- Loopback addresses are LAN addresses. -/
theorem passesLoopback_of_isWide (allowLoopback : Bool) {pair : MultiAddr × AddressType}
    (hwide : isWide pair = true) : passesLoopback allowLoopback pair = true := by
  have hlan : pair.1.ip.any IpAddr.isLan = false := by
    by_contra hlan
    rw [Bool.not_eq_false] at hlan
    simp [isWide, canonical, AddressType.forAdvertisedAddress, hlan] at hwide
  rw [passesLoopback, MultiAddr.canonicalIp, Option.any_map]
  cases hip : pair.1.ip with
  | none => simp
  | some ip =>
    rw [hip, Option.any_some] at hlan
    have hloopback : ip.canonicalize.isLoopback = false := by
      by_contra hloopback
      rw [Bool.not_eq_false] at hloopback
      rw [IpAddr.isLan_of_isLoopback_canonicalize hloopback] at hlan
      cases hlan
    simp [hloopback]

namespace DialAddressContext

variable (context : DialAddressContext) (source : Option MultiAddr)
  (typed : List (MultiAddr × AddressType))

/-- LAN addresses are kept: the publication came over the local network, or its addresses
show that the owner shares the WAN address of this node. -/
def trustsLan : Bool :=
  (source.bind MultiAddr.ip).any IpAddr.isLan || context.peerSharesWan typed

theorem peerSharesWan_iff : context.peerSharesWan typed = true ↔
      ∃ pair ∈ typed, context.peerSharesWan [pair] = true := by
  simp only [peerSharesWan, Bool.and_eq_true, any_eq_true, mem_singleton, exists_eq_left]
  constructor
  · rintro ⟨hlocal, pair, hmem, hshares⟩
    exact ⟨pair, hmem, hlocal, hshares⟩
  · rintro ⟨pair, hmem, hlocal, hshares⟩
    exact ⟨hlocal, pair, hmem, hshares⟩

theorem peerSharesWan_map_canonical :
    context.peerSharesWan (typed.map canonical) = context.peerSharesWan typed := by
  simp [peerSharesWan, canonical, Function.comp_def]

/-- LAN addresses say nothing about the WAN. -/
theorem isWide_of_peerSharesWan {pair : MultiAddr × AddressType}
    (hshares : context.peerSharesWan [pair] = true) : isWide pair = true := by
  simp only [peerSharesWan, any_cons, any_nil, Bool.or_false, Bool.and_eq_true,
    Bool.not_eq_true', Bool.or_eq_false_iff] at hshares
  rw [isWide, canonical, bne, hshares.2.1.2]
  rfl

theorem filterLanAddressesForStore_eq : context.filterLanAddressesForStore typed source =
      (if context.trustsLan source typed then typed else typed.filter isWide).map
        canonical := by
  rw [trustsLan, ← context.peerSharesWan_map_canonical typed]
  have hcanonical : (typed.filter isWide).map canonical =
      (typed.map canonical).filter fun pair => pair.2 != .lan := by
    rw [filter_map]
    rfl
  rw [apply_ite (map canonical), hcanonical]
  rfl

end DialAddressContext

/-! ## What a publication leaves -/

theorem publishedTyped_map_canonical (typed : List (MultiAddr × AddressType)) :
    KBucket.publishedTyped (typed.map canonical) = KBucket.publishedTyped typed := by
  rw [publishedTyped, publishedTyped, filter_map, map_map]
  apply congrArg₂
  · funext pair
    exact canonical_canonical pair
  · rfl

theorem publishedAddresses_map_canonical (typed : List (MultiAddr × AddressType)) :
    KBucket.publishedAddresses (typed.map canonical) = KBucket.publishedAddresses typed := by
  simp only [publishedAddresses, publishedNode, publishedTyped_map_canonical]

/-- A publication of storable addresses is never refused. -/
theorem acceptsPublication_of_isStorable {typed : List (MultiAddr × AddressType)}
    (hstorable : ∀ pair ∈ typed, pair.1.isStorable = true) :
    KBucket.acceptsPublication typed = true := by
  have hall : (typed.filter fun pair => pair.1.isStorable) = typed :=
    filter_eq_self.mpr hstorable
  rw [acceptsPublication, publishedTyped, hall]
  cases typed <;> rfl

section Published

variable {typed : List (MultiAddr × AddressType)}

/-- The published pairs in the order in which they are cut. -/
def sortedPairs (typed : List (MultiAddr × AddressType)) : List (MultiAddr × AddressType) :=
  (KBucket.publishedTyped typed).insertionSort fun left right =>
    left.2.priority ≤ right.2.priority

section

variable (hstorable : ∀ pair ∈ typed, pair.1.isStorable = true)
include hstorable

/-- LAN addresses come last. -/
theorem sortedPairs_eq : sortedPairs typed = sortedPairs (typed.filter isWide) ++
      (typed.filter fun pair => !isWide pair).map canonical := by
  have hpublished {fewer : List (MultiAddr × AddressType)} (hfewer : fewer ⊆ typed) :
      publishedTyped fewer = fewer.map canonical := by
    rw [publishedTyped, filter_eq_self.mpr fun pair hpair => hstorable pair (hfewer hpair)]
    rfl
  have htop : ∀ pair ∈ typed.map canonical, pair.2.priority ≤ lan.priority := by
    intro pair _
    cases pair.2 <;> decide
  have hwide (pair : MultiAddr × AddressType) :
      decide (pair.2.priority ≠ lan.priority) = (pair.2 != .lan) := by
    cases pair.2 <;> rfl
  have hlan (pair : MultiAddr × AddressType) :
      decide (pair.2.priority = lan.priority) = !(pair.2 != .lan) := by
    cases pair.2 <;> rfl
  have hsplit := Grouping.insertionSort_eq_append
    (fun pair : MultiAddr × AddressType => pair.2.priority) htop
  rw [sortedPairs, sortedPairs, hpublished (List.Subset.refl _),
    hpublished filter_sublist.subset, hsplit]
  simp only [hwide, hlan, filter_map]
  rfl

theorem length_sortedPairs : (sortedPairs typed).length = typed.length := by
  rw [sortedPairs, length_insertionSort, publishedTyped, length_map, filter_eq_self.mpr hstorable]

/-- With enough other addresses, LAN addresses are cut off. -/
theorem publishedAddresses_of_many_wide
    (hmany : maxAddressesPerNode ≤ (typed.filter isWide).length) :
    KBucket.publishedAddresses typed = KBucket.publishedAddresses (typed.filter isWide) := by
  have hlength : maxAddressesPerNode ≤ (sortedPairs (typed.filter isWide)).length := by
    rw [length_sortedPairs fun pair hpair => hstorable pair (mem_of_mem_filter hpair)]
    exact hmany
  have hcut : (sortedPairs typed).take maxAddressesPerNode =
      (sortedPairs (typed.filter isWide)).take maxAddressesPerNode := by
    rw [sortedPairs_eq hstorable, take_append_of_le_length hlength]
  rw [sortedPairs, sortedPairs] at hcut
  simp only [publishedAddresses, publishedNode, hcut]

theorem exists_lan_before_cut (hlan : ∃ pair ∈ typed, isWide pair = false)
    (hfew : (typed.filter isWide).length < maxAddressesPerNode) :
    ∃ first ∈ typed, isWide first = false ∧
      canonical first ∈ (sortedPairs typed).take maxAddressesPerNode := by
  obtain ⟨pair, hpair, hnarrow⟩ := hlan
  have hmem : pair ∈ typed.filter fun pair => !isWide pair :=
    mem_filter.mpr ⟨hpair, by simp [hnarrow]⟩
  obtain ⟨first, rest, hrest⟩ := exists_cons_of_ne_nil (ne_nil_of_mem hmem)
  have hfirst : first ∈ typed.filter fun pair => !isWide pair := by
    rw [hrest]
    exact mem_cons_self
  have hlength := length_sortedPairs fun pair hpair =>
    hstorable pair (mem_of_mem_filter (p := isWide) hpair)
  refine ⟨first, mem_of_mem_filter hfirst, by simpa using (mem_filter.mp hfirst).2, ?_⟩
  -- the first LAN address stands right after the others
  obtain ⟨room, hroom⟩ := Nat.exists_eq_add_of_lt (hlength ▸ hfew)
  rw [sortedPairs_eq hstorable, hrest, hroom, take_append, mem_append]
  right
  simp [Nat.add_assoc]

end

theorem canonicalIp_of_isQuic {address : MultiAddr} (hquic : address.isQuic = true) :
    ∃ ip, address.canonicalIp = some ip := by
  obtain ⟨transport, peerId⟩ := address
  cases transport <;> cases hquic
  exact ⟨_, rfl⟩

/-- With room for one, some LAN address is stored. -/
theorem lan_mem_publishedAddresses (hstorable : ∀ pair ∈ typed, pair.1.isStorable = true)
    (hquic : ∀ pair ∈ typed, pair.1.isQuic = true)
    (hlan : ∃ pair ∈ typed, isWide pair = false)
    (hfew : (typed.filter isWide).length < maxAddressesPerNode) :
    .lan ∈ (KBucket.publishedAddresses typed).2 := by
  obtain ⟨first, hfirst, hnarrow, hmem⟩ := exists_lan_before_cut hstorable hlan hfew
  obtain ⟨ip, hip⟩ : ∃ ip, first.1.canonicalIp = some ip :=
    canonicalIp_of_isQuic (hquic first hfirst)
  have htag : (canonical first).2 = .lan := by
    rw [isWide, bne_eq_false_iff_eq] at hnarrow
    exact hnarrow
  have hslot : slotOf (canonical first) = some (ip.isIpv4, .lan) := by
    rw [slotOf, htag]
    exact congrArg (Option.map _) hip
  obtain ⟨holder, hholder⟩ : ∃ holder, preferred .lan
      (claimants ((sortedPairs typed).take maxAddressesPerNode) (ip.isIpv4, .lan)) =
        some holder := by
    have hclaims : canonical first ∈
        claimants ((sortedPairs typed).take maxAddressesPerNode) (ip.isIpv4, .lan) :=
      mem_filter.mpr ⟨hmem, by rw [hslot]; exact beq_self_eq_true _⟩
    exact ⟨_, getLast?_eq_getLast_of_ne_nil (ne_nil_of_mem hclaims)⟩
  let listed : NodeInfo := withTyped
    { id := 0, addresses := [], addressTypes := [], lastSeen := 0 }
    ((sortedPairs typed).take maxAddressesPerNode)
  have hparallel : listed.Parallel := parallel_withTyped _ _
  have hcapped := slotsOf_enforcePerIpFamilyCap hparallel (ip.isIpv4, .lan)
  rw [typed_withTyped, hholder,
    (exclusive_enforcePerIpFamilyCap hparallel).slotsOf_eq_some_iff] at hcapped
  have hholds : holder.2 = .lan :=
    slotOfType_eq_lan_iff.mp (slotOf_eq_some_iff.mp hcapped.2).2
  have htypes : listed.enforcePerIpFamilyCap.typed.map Prod.snd = (publishedAddresses typed).2 :=
    (parallel_enforcePerIpFamilyCap hparallel).map_snd_typed
  rw [← htypes, ← hholds]
  exact mem_map_of_mem hcapped.1

theorem lan_notMem_publishedAddresses (hwide : ∀ pair ∈ typed, isWide pair = true) :
    .lan ∉ (KBucket.publishedAddresses typed).2 := by
  obtain ⟨hlength, hdrawn⟩ := publishedAddresses_drawn typed
  rw [← map_snd_zip hlength.le]
  intro hmem
  obtain ⟨pair, hpair, hlan⟩ := mem_map.mp hmem
  obtain ⟨advertised, hoffered, htag⟩ := hdrawn pair hpair
  have hcanonical := hwide _ hoffered
  rw [isWide, canonical] at hcanonical
  simp only at hcanonical
  rw [← htag, hlan] at hcanonical
  cases hcanonical

end Published

/-- The addresses and tags that the table has for a peer. -/
def storedAddresses (table : RoutingTable) (peer : PeerId) :
    Option (List MultiAddr × List AddressType) :=
  (table.findNodeById peer).map fun node => (node.addresses, node.addressTypes)

/-- Two tables agree on a peer: on its addresses and tags, and on whether they hold a
publication of the peer. -/
def AgreeOn (peer : PeerId) (left right : RoutingTable) : Prop :=
  storedAddresses left peer = storedAddresses right peer ∧
    (left.hasAddressPublication peer ↔ right.hasAddressPublication peer)

section Handlers

variable {Score : Type} (config : ManagerConfig Score)
  (store : AddressStore) (owner : PeerId) (source : Option MultiAddr)

/-- The table after a request that nothing interrupts. -/
def tableAfter (operation : DhtNetworkOperation) : RoutingTable :=
  ((handleDhtRequest config operation owner source).alone store).1.table

variable {config store owner source}

theorem tableAfter_publishAddressSet (seq : ℕ) (typed : List (MultiAddr × AddressType)) :
    tableAfter config store owner source (.publishAddressSet seq typed) =
      (config.engine.replaceNodeAddresses store.table owner
        (store.context.filterLanAddressesForStore typed source) seq
        .authenticatedSelfPublish store.now).1 :=
  rfl

theorem tableAfter_publishAddressSetV2 {signed : SignedAddressRecord}
    {proof : VerifiedAddressRecord}
    (hverify : signed.verify config.wire config.signatures = .ok proof)
    (howner : proof.owner = owner) (hpresent : (store.table.findNodeById owner).isSome) :
    tableAfter config store owner source (.publishAddressSetV2 signed) =
      ((validateTransportAddressRecords config.wire config.engine.allowLoopback store.context
          owner proof.records source).map fun validated =>
        (store.table.storeTransportAddressSet config.wire.toAddressCodec owner
          { seq := proof.sequence, records := validated.1, proof := some proof } validated.2
          .authenticatedSelfPublish store.now).1).getD store.table := by
  subst howner
  simp only [tableAfter, handleDhtRequest, hverify, ne_eq, not_true_eq_false, if_false]
  change ((Task.bind (Task.read _) _).alone store).1.table = _
  rw [Task.alone_bind]
  change (Task.alone (if (!(store.table.findNodeById proof.owner).isSome) = true then _
    else Task.bind (Task.bind (validateRecords config proof.owner proof.records source) _) _)
    store).1.table = _
  rw [hpresent, Bool.not_true, if_neg Bool.false_ne_true, Task.alone_bind, Task.alone_bind]
  have hread : (validateRecords config proof.owner proof.records source).alone store =
      (store, validateTransportAddressRecords config.wire config.engine.allowLoopback
        store.context proof.owner proof.records source) := rfl
  rw [hread]
  cases validateTransportAddressRecords config.wire config.engine.allowLoopback store.context
    proof.owner proof.records source <;> rfl

end Handlers

/-! ## Snapshots -/

section Snapshots

variable {wire : AddressWire} {owner : PeerId} {records : List TransportAddressRecord}

/-- The form of the records of a snapshot. -/
def Announced (record : TransportAddressRecord) : Prop :=
  record.transport = KnownTransport.quic.id ∨ (record.transport = KnownTransport.webRtcDirect.id ∧
      record.legacyReachability = some .unverified)

variable {address : MultiAddr} {record : TransportAddressRecord}

theorem announced_of_fromMultiaddr {tag : AddressType}
    (hrecord : fromMultiaddr wire.encode address tag = some (some record)) :
    Announced record := by
  rw [fromMultiaddr] at hrecord
  cases hencode : wire.encode address with
  | none =>
    rw [hencode] at hrecord
    split_ifs at hrecord <;> cases hrecord
  | some payload =>
    rw [hencode] at hrecord
    split_ifs at hrecord
    · cases hrecord
      exact .inl rfl
    · cases hrecord
      exact .inr ⟨rfl, rfl⟩
    · cases hrecord

/-- A round that does not fail adds the record of the address once. -/
theorem addRecord_eq_ok {next : List TransportAddressRecord} {tag : AddressType}
    (hadded : Reachability.addRecord wire.encode owner records address tag = .ok next) :
    next = records ∨ ∃ record, Announced record ∧ record ∉ records ∧
      next = records ++ [record] := by
  rw [addRecord] at hadded
  simp only at hadded
  generalize (if address.isWebRtcDirect then { address with peerId := some owner }
    else address) = bound at hadded
  by_cases hforeign : address.peerId.any (· != owner) = true
  · rw [if_pos hforeign] at hadded
    cases hadded
  rw [if_neg hforeign] at hadded
  cases hrecord : fromMultiaddr wire.encode bound tag with
  | none =>
    rw [hrecord] at hadded
    cases hadded
  | some made =>
    rw [hrecord] at hadded
    cases made with
    | none => cases hadded
    | some record =>
      simp only at hadded
      split_ifs at hadded with hinvalid hknown
      · cases hadded
        exact .inl rfl
      · cases hadded
        rw [contains_iff_mem] at hknown
        exact .inr ⟨record, announced_of_fromMultiaddr hrecord, hknown, rfl⟩

theorem completeTransportAddressRecords_eq_ok {supplemental : List MultiAddr}
    {supplied : List (MultiAddr × AddressType)}
    (hsnapshot : Reachability.completeTransportAddressRecords wire.encode owner supplemental
      supplied = .ok records) :
    (∀ record ∈ records, Announced record) ∧ records.Nodup := by
  rw [completeTransportAddressRecords] at hsnapshot
  -- the loop starts from no records, and each round keeps both properties
  have hrun (entries : List (MultiAddr × AddressType)) :
      ∀ before : List TransportAddressRecord, (∀ record ∈ before, Announced record) →
        before.Nodup → entries.foldlM (fun records entry =>
          addRecord wire.encode owner records entry.1 entry.2) before =
            .ok records → (∀ record ∈ records, Announced record) ∧ records.Nodup := by
    induction entries with
    | nil =>
      intro before hall hnodup hdone
      cases hdone
      exact ⟨hall, hnodup⟩
    | cons entry entries ih =>
      intro before hall hnodup hdone
      rw [foldlM_cons] at hdone
      cases hround : addRecord wire.encode owner before entry.1 entry.2 with
      | error cause =>
        rw [hround] at hdone
        cases hdone
      | ok next =>
        rw [hround] at hdone
        rcases addRecord_eq_ok hround with rfl | ⟨record, hform, hnew, rfl⟩
        · exact ih _ hall hnodup hdone
        · apply ih _ _ _ hdone
          · intro other hother
            rcases mem_append.mp hother with hother | hother
            · exact hall other hother
            · rw [mem_singleton.mp hother]
              exact hform
          · simpa using hnodup.concat hnew
  exact hrun _ [] (by simp) nodup_nil hsnapshot

theorem decodeKnown_eq_some
    (hdecode : record.decodeKnown wire.toAddressCodec = .ok (some address)) :
    (record.transport = KnownTransport.quic.id ∧ address.isQuic = true) ∨
      (record.transport = KnownTransport.webRtcDirect.id ∧ address.isWebRtcDirect = true) := by
  rw [decodeKnown] at hdecode
  cases htransport : fromId record.transport with
  | none =>
    rw [htransport] at hdecode
    cases hdecode
  | some transport =>
    rw [htransport] at hdecode
    rw [fromId_eq_some_iff] at htransport
    cases hdecoded : wire.decode record.address with
    | none =>
      rw [hdecoded] at hdecode
      cases hdecode
    | some decoded =>
      rw [hdecoded] at hdecode
      simp only [Except.ok.injEq, Option.ite_none_right_eq_some, Option.some.injEq] at hdecode
      obtain ⟨hmatches, rfl⟩ := hdecode
      cases transport with
      | quic => exact .inl ⟨htransport.symm, hmatches⟩
      | webRtcDirect => exact .inr ⟨htransport.symm, hmatches⟩

/-- The address and tag of a record, as both versions read them. -/
def snapshotPair (wire : AddressWire) (record : TransportAddressRecord) :
    Option (MultiAddr × AddressType) :=
  (record.knownAddress wire.toAddressCodec).map fun address =>
    (address, record.legacyReachability.getD .unverified)

/-- What the owner's checks let through has an address that a receiver may store. -/
theorem exists_snapshotPair (hform : Announced record)
    (hvalid : SignedAddressRecord.validateRecord wire owner record = .ok ()) :
    ∃ address, record.decodeKnown wire.toAddressCodec = .ok (some address) ∧
      record.isWithinWireBounds = true ∧ address.isStorable = true ∧
      address.peerId.any (· != owner) = false ∧
      (address.isWebRtcDirect = true → address.peerId = some owner) := by
  rw [SignedAddressRecord.validateRecord] at hvalid
  split at hvalid
  · cases hvalid
  · next hbounds =>
      cases hdecode : record.decodeKnown wire.toAddressCodec with
      | error cause =>
        rw [hdecode] at hvalid
        cases hvalid
      | ok decoded =>
        rw [hdecode] at hvalid
        cases decoded with
        | none =>
          have hknown : (KnownTransport.fromId record.transport).isSome = true := by
            rcases hform with hquic | ⟨hwebrtc, -⟩
            · rw [hquic]
              rfl
            · rw [hwebrtc]
              rfl
          simp only [hknown, if_true] at hvalid
          cases hvalid
        | some address =>
          simp only at hvalid
          split_ifs at hvalid with hstorable howner
          simp_all [TransportAddressRecord.isWithinWireBounds]

theorem normalize_of_announced (hform : Announced record) :
    normalizeKnownWebrtcReachability record = record := by
  rw [normalizeKnownWebrtcReachability]
  split
  · next hwebrtc =>
      rcases hform with hquic | ⟨-, hunverified⟩
      · have hid := hquic.symm.trans hwebrtc.1
        cases hid
      · have hid : record.reachability = reachabilityId .unverified := by
          rw [legacyReachability, reachabilityFromId] at hunverified
          split_ifs at hunverified <;> simp_all [reachabilityId]
        rw [← hid]
  · rfl

theorem boundRecord_eq {bounded : List BoundedRecord} (hform : Announced record)
    (hvalid : SignedAddressRecord.validateRecord wire owner record = .ok ())
    (hnew : record ∉ bounded.map Prod.fst) :
    boundRecord wire owner bounded record = bounded ++ [(record, snapshotPair wire record)] := by
  obtain ⟨address, hdecode, hbounds, hstorable, hforeign, hwebrtc⟩ :=
    exists_snapshotPair hform hvalid
  have hknown : record.knownAddress wire.toAddressCodec = some address := by
    rw [TransportAddressRecord.knownAddress, hdecode]
  have hcontains : (bounded.map Prod.fst).contains record = false := by
    simpa using hnew
  have hbound : ¬(record.transport = webRtcDirect.id ∧ address.peerId ≠ some owner) := by
    rintro ⟨htransport, hpeer⟩
    rcases decodeKnown_eq_some hdecode with ⟨hquic, -⟩ | ⟨-, hdirect⟩
    · rw [htransport] at hquic
      cases hquic
    · exact hpeer (hwebrtc hdirect)
  rw [boundRecord, normalize_of_announced hform]
  simp only [hbounds, hcontains, hdecode, hstorable, hforeign, hbound, snapshotPair, hknown]
  simp

theorem foldl_boundRecord_eq (hform : ∀ record ∈ records, Announced record) (hnodup : records.Nodup)
    (hvalid : ∀ record ∈ records, SignedAddressRecord.validateRecord wire owner record = .ok ()) :
    records.foldl (boundRecord wire owner) [] =
      records.map fun record => (record, snapshotPair wire record) := by
  induction records using reverseRecOn with
  | nil => rfl
  | append_singleton records record ih =>
    have hlast : record ∈ records ++ [record] := by simp
    have hearlier {other : TransportAddressRecord} (hother : other ∈ records) :
        other ∈ records ++ [record] := mem_append_left _ hother
    have hnew : record ∉ records := by
      intro hmem
      exact (disjoint_of_nodup_append hnodup) hmem (mem_singleton_self record)
    rw [foldl_concat, ih (fun other hother => hform other (hearlier hother))
      hnodup.of_append_left (fun other hother => hvalid other (hearlier hother)),
      boundRecord_eq (hform record hlast) (hvalid record hlast)]
    · rw [map_append]
      rfl
    · rw [map_map]
      simpa using hnew

/-- The addresses of a snapshot. -/
def snapshotPairs (wire : AddressWire) (records : List TransportAddressRecord) :
    List (MultiAddr × AddressType) :=
  records.filterMap (snapshotPair wire)

section Kept

variable (allowLoopback : Bool) (context : DialAddressContext) (source : Option MultiAddr)
  (pairs : List (MultiAddr × AddressType))

/-- The addresses that pass the filters of a receiver. -/
def keptPairs : List (MultiAddr × AddressType) :=
  (if context.trustsLan source pairs then pairs else pairs.filter isWide).filter
    (passesLoopback allowLoopback)

theorem keptPairs_subset : keptPairs allowLoopback context source pairs ⊆ pairs := by
  intro pair hpair
  have hmem := mem_of_mem_filter hpair
  split at hmem
  · exact hmem
  · exact mem_of_mem_filter hmem

theorem trustsLan_filter : context.trustsLan source
      (pairs.filter (passesLoopback allowLoopback)) =
      context.trustsLan source pairs := by
  rw [trustsLan, trustsLan]
  congr 1
  rw [Bool.eq_iff_iff, context.peerSharesWan_iff, context.peerSharesWan_iff]
  constructor
  · rintro ⟨pair, hmem, hshares⟩
    exact ⟨pair, mem_of_mem_filter hmem, hshares⟩
  · rintro ⟨pair, hmem, hshares⟩
    exact ⟨pair, mem_filter.mpr ⟨hmem, passesLoopback_of_isWide allowLoopback
      (context.isWide_of_peerSharesWan hshares)⟩, hshares⟩

/-- V2 drops loopback addresses first and LAN addresses then. -/
theorem filterLan_filter_passesLoopback :
    context.filterLanAddressesForStore (pairs.filter (passesLoopback allowLoopback)) source =
      (keptPairs allowLoopback context source pairs).map canonical := by
  rw [context.filterLanAddressesForStore_eq, trustsLan_filter, keptPairs]
  split
  · rfl
  · rw [filter_filter, filter_filter]
    simp only [Bool.and_comm]

end Kept

/-- Validation of a snapshot fails only if no address passes, and otherwise hands on the
QUIC addresses that do. -/
theorem filterMap_allowedRecord_eq_nil_iff {kept : List (MultiAddr × AddressType)}
    (hkept : kept ⊆ snapshotPairs wire records)
    (hdecoded : ∀ record ∈ records, (snapshotPair wire record).isSome) :
    (records.map fun record => (record, snapshotPair wire record)).filterMap
        (allowedRecord (kept.map canonical)) = [] ↔ kept = [] := by
  rw [filterMap_eq_nil_iff]
  constructor
  · intro hnone
    rw [eq_nil_iff_forall_not_mem]
    intro pair hpair
    obtain ⟨record, hrecord, hsnapshot⟩ := mem_filterMap.mp (hkept hpair)
    have hallowed : allowedRecord (kept.map canonical) (record, snapshotPair wire record) = none :=
      hnone _ (mem_map_of_mem hrecord)
    have hdecoded : (record, snapshotPair wire record).2 = some ((canonical pair).1, pair.2) :=
      hsnapshot
    obtain ⟨stored, hstored⟩ := exists_allowedRecord hdecoded (mem_map_of_mem hpair)
    rw [hallowed] at hstored
    cases hstored
  · rintro rfl entry hentry
    obtain ⟨record, hrecord, rfl⟩ := mem_map.mp hentry
    obtain ⟨pair, hpair⟩ := Option.isSome_iff_exists.mp (hdecoded record hrecord)
    rw [hpair]
    rfl

theorem validate_snapshot (allowLoopback : Bool) (context : DialAddressContext)
    (source : Option MultiAddr) (hform : ∀ record ∈ records, Announced record)
    (hnodup : records.Nodup) (hlength : records.length ≤ maxTransportAddressRecords)
    (hvalid : ∀ record ∈ records, SignedAddressRecord.validateRecord wire owner record = .ok ()) :
    ∃ kept, validateTransportAddressRecords wire allowLoopback context owner records source =
      if keptPairs allowLoopback context source (snapshotPairs wire records) = [] then none
      else some (kept, ((keptPairs allowLoopback context source
        (snapshotPairs wire records)).filter fun pair => pair.1.isQuic).map canonical) := by
  have hdecoded : ∀ record ∈ records, (snapshotPair wire record).isSome := by
    intro record hmem
    obtain ⟨address, hdecode, -⟩ := exists_snapshotPair (hform record hmem) (hvalid record hmem)
    rw [snapshotPair, TransportAddressRecord.knownAddress, hdecode]
    rfl
  have hpairs : (records.map fun record => (record, snapshotPair wire record)).filterMap
      Prod.snd = snapshotPairs wire records := by
    rw [filterMap_map]
    rfl
  have hsubset := keptPairs_subset allowLoopback context source (snapshotPairs wire records)
  have hallowed := filterLan_filter_passesLoopback allowLoopback context source
    (snapshotPairs wire records)
  have hnil := filterMap_allowedRecord_eq_nil_iff hsubset hdecoded
  have hquic (kept : List (MultiAddr × AddressType)) :
      ((kept.map canonical).filter fun pair => pair.1.isQuic) =
        (kept.filter fun pair => pair.1.isQuic).map canonical := by
    rw [filter_map]
    rfl
  refine ⟨(records.map fun record => (record, snapshotPair wire record)).filterMap
    (allowedRecord ((keptPairs allowLoopback context source (snapshotPairs wire records)).map
      canonical)), ?_⟩
  rw [validateTransportAddressRecords]
  by_cases hempty : records.isEmpty = true
  · have hnone : keptPairs allowLoopback context source (snapshotPairs wire records) = [] := by
      rw [isEmpty_iff.mp hempty] at hsubset ⊢
      exact subset_nil.mp hsubset
    rw [if_pos hempty, if_pos hnone]
  · have hbounded : ¬(records.map fun record =>
        (record, snapshotPair wire record)).isEmpty = true := by
      rwa [isEmpty_map]
    rw [if_neg hempty, take_of_length_le hlength, foldl_boundRecord_eq hform hnodup hvalid]
    simp only
    rw [if_neg hbounded, hpairs]
    change (if (filterMap (allowedRecord (context.filterLanAddressesForStore
      ((snapshotPairs wire records).filter (passesLoopback allowLoopback)) source)) _).isEmpty
        then none else some (filterMap (allowedRecord (context.filterLanAddressesForStore
      ((snapshotPairs wire records).filter (passesLoopback allowLoopback)) source)) _,
          (context.filterLanAddressesForStore
      ((snapshotPairs wire records).filter (passesLoopback allowLoopback)) source).filter _)) = _
    rw [hallowed, hquic]
    exact if_congr (isEmpty_iff.trans hnil) rfl rfl

theorem legacyAddresses_eq (wire : AddressWire) (records : List TransportAddressRecord) :
    legacyAddresses wire records =
      (snapshotPairs wire records).filter fun pair => pair.1.isQuic := by
  rw [legacyAddresses, snapshotPairs, filter_filterMap]
  congr 1
  funext record
  rw [snapshotPair, Option.filter_map]
  rfl

/-- The addresses of a snapshot are those of the two transports. -/
theorem mem_snapshotPairs_iff (hform : ∀ record ∈ records, Announced record)
    {pair : MultiAddr × AddressType} :
    pair ∈ snapshotPairs wire records ↔
      pair ∈ legacyAddresses wire records ∨ pair ∈ webRtcAddresses wire records := by
  simp only [snapshotPairs, legacyAddresses, webRtcAddresses, mem_filterMap,
    ← exists_or, ← and_or_left]
  refine exists_congr fun record => and_congr_right fun hmem => ?_
  rw [snapshotPair]
  cases hdecode : record.decodeKnown wire.toAddressCodec with
  | error cause => simp [TransportAddressRecord.knownAddress, hdecode]
  | ok decoded =>
    cases decoded with
    | none => simp [TransportAddressRecord.knownAddress, hdecode]
    | some address =>
      have hknown : record.knownAddress wire.toAddressCodec = some address := by
        rw [TransportAddressRecord.knownAddress, hdecode]
      rcases decodeKnown_eq_some hdecode with ⟨hquic, haddress⟩ | ⟨hwebrtc, haddress⟩
      · have hother : address.isWebRtcDirect = false := by
          obtain ⟨transport, peerId⟩ := address
          cases transport <;> cases haddress
          rfl
        simp [hknown, haddress, hother]
      · have hother : address.isQuic = false := by
          obtain ⟨transport, peerId⟩ := address
          cases transport <;> cases haddress
          rfl
        have hunverified : record.legacyReachability = some .unverified := by
          rcases hform record hmem with hquic | ⟨-, hunverified⟩
          · rw [hwebrtc] at hquic
            cases hquic
          · exact hunverified
        simp [hknown, haddress, hother, hunverified]

theorem isStorable_of_mem_snapshotPairs (hform : ∀ record ∈ records, Announced record)
    (hvalid : ∀ record ∈ records, SignedAddressRecord.validateRecord wire owner record = .ok ())
    {pair : MultiAddr × AddressType} (hpair : pair ∈ snapshotPairs wire records) :
    pair.1.isStorable = true := by
  obtain ⟨record, hrecord, hsnapshot⟩ := mem_filterMap.mp hpair
  obtain ⟨address, hdecode, -, hstorable, -⟩ :=
    exists_snapshotPair (hform record hrecord) (hvalid record hrecord)
  rw [snapshotPair, TransportAddressRecord.knownAddress, hdecode] at hsnapshot
  cases hsnapshot
  exact hstorable

end Snapshots

/-! ## Agreement -/

/-- The WebRTC addresses of a snapshot decide nothing about its QUIC addresses.  They are
not what makes LAN addresses trusted, unless no LAN address could be stored anyway; and
they are not what is left when every QUIC address is dropped. -/
structure WebRtcNeutral (allowLoopback : Bool) (context : DialAddressContext)
    (source : Option MultiAddr) (quic webRtc : List (MultiAddr × AddressType)) : Prop where
  trust : context.trustsLan source quic = true ∨ context.peerSharesWan webRtc = false ∨
    (∀ pair ∈ quic, passesLoopback allowLoopback pair = true → isWide pair = true) ∨
    maxAddressesPerNode ≤ (quic.filter isWide).length
  rest : context.trustsLan source (quic ++ webRtc) = true ∨
    (∃ pair ∈ quic, isWide pair = true) ∨ ∀ pair ∈ webRtc, isWide pair = false

section Filters

variable (allowLoopback : Bool) (context : DialAddressContext) (source : Option MultiAddr)
  {quic webRtc pairs : List (MultiAddr × AddressType)}

theorem filter_isWide_passesLoopback (typed : List (MultiAddr × AddressType)) :
    (typed.filter isWide).filter (passesLoopback allowLoopback) = typed.filter isWide := by
  rw [filter_eq_self]
  intro pair hpair
  exact passesLoopback_of_isWide allowLoopback (mem_filter.mp hpair).2

theorem trustsLan_eq_or (hmem : ∀ pair, pair ∈ pairs ↔ pair ∈ quic ∨ pair ∈ webRtc) :
    context.trustsLan source pairs =
      (context.trustsLan source quic || context.peerSharesWan webRtc) := by
  rw [trustsLan, trustsLan, Bool.or_assoc]
  congr 1
  rw [Bool.eq_iff_iff, Bool.or_eq_true, context.peerSharesWan_iff pairs,
    context.peerSharesWan_iff quic, context.peerSharesWan_iff webRtc]
  simp only [hmem, or_and_right, exists_or]

theorem filter_isQuic_keptPairs (hfilter : (pairs.filter fun pair => pair.1.isQuic) = quic) :
    ((keptPairs allowLoopback context source pairs).filter fun pair => pair.1.isQuic) =
      if context.trustsLan source pairs then quic.filter (passesLoopback allowLoopback)
      else quic.filter isWide := by
  rw [keptPairs, ← hfilter]
  split
  · exact filter_comm _ _ _
  · rw [filter_isWide_passesLoopback]
    exact filter_comm _ _ _

variable {allowLoopback context source}

/-- LAN addresses that only V2 trusts make a difference if one of them is stored. -/
theorem published_wide_eq_iff (hquic : ∀ pair ∈ quic, pair.1.isQuic = true)
    (hstorable : ∀ pair ∈ quic, pair.1.isStorable = true)
    (hremote : quic.filter (passesLoopback allowLoopback) ≠ []) :
    (if quic.filter isWide = [] then none
      else some (KBucket.publishedAddresses (quic.filter isWide))) =
      some (KBucket.publishedAddresses (quic.filter (passesLoopback allowLoopback))) ↔
    (∀ pair ∈ quic, passesLoopback allowLoopback pair = true → isWide pair = true) ∨
      maxAddressesPerNode ≤ (quic.filter isWide).length := by
  have hwide : (quic.filter (passesLoopback allowLoopback)).filter isWide = quic.filter isWide := by
    rw [filter_comm, filter_isWide_passesLoopback]
  have hpassing {pair : MultiAddr × AddressType}
      (hpair : pair ∈ quic.filter (passesLoopback allowLoopback)) : pair ∈ quic :=
    mem_of_mem_filter hpair
  constructor
  · intro heq
    by_contra! hneither
    obtain ⟨⟨pair, hpair, hpasses, hnarrow⟩, hfew⟩ := hneither
    have hlan := lan_mem_publishedAddresses (fun pair hpair => hstorable pair (hpassing hpair))
      (fun pair hpair => hquic pair (hpassing hpair))
      ⟨pair, mem_filter.mpr ⟨hpair, hpasses⟩, by simpa using hnarrow⟩ (hwide ▸ hfew)
    split at heq
    · cases heq
    · rw [← Option.some.inj heq] at hlan
      exact lan_notMem_publishedAddresses (fun pair hpair => (mem_filter.mp hpair).2) hlan
  · rintro (hall | hmany)
    · have hsame : quic.filter (passesLoopback allowLoopback) = quic.filter isWide := by
        rw [← hwide]
        symm
        rw [filter_eq_self]
        intro pair hpair
        exact hall pair (hpassing hpair) (mem_filter.mp hpair).2
      rw [← hsame, if_neg hremote]
    · have hsome : quic.filter isWide ≠ [] := by
        intro hnil
        rw [hnil] at hmany
        exact absurd hmany (by decide)
      have hsame := publishedAddresses_of_many_wide
        (fun pair hpair => hstorable pair (hpassing hpair)) (hwide ▸ hmany)
      rw [if_neg hsome, hsame, hwide]

/-- Where LAN addresses are not trusted, the versions differ if only WebRTC addresses are
left. -/
theorem ite_wide_eq_iff {Value : Type*} {value : Value}
    (hmem : ∀ pair, pair ∈ pairs ↔ pair ∈ quic ∨ pair ∈ webRtc) :
    (if quic.filter isWide = [] then none else some value) =
      (if pairs.filter isWide = [] then none else some value) ↔
    (∃ pair ∈ quic, isWide pair = true) ∨ ∀ pair ∈ webRtc, isWide pair = false := by
  have hnil : pairs.filter isWide = [] ↔
      quic.filter isWide = [] ∧ ∀ pair ∈ webRtc, isWide pair = false := by
    simp only [filter_eq_nil_iff, Bool.not_eq_true, hmem, or_imp, forall_and]
  by_cases hwide : quic.filter isWide = []
  · have hnone : ¬∃ pair ∈ quic, isWide pair = true := by
      rintro ⟨pair, hpair, hpairWide⟩
      exact filter_eq_nil_iff.mp hwide pair hpair hpairWide
    rw [if_pos hwide, or_iff_right hnone]
    constructor
    · intro heq
      by_contra hrest
      rw [if_neg fun hempty => hrest (hnil.mp hempty).2] at heq
      cases heq
    · intro hrest
      rw [if_pos (hnil.mpr ⟨hwide, hrest⟩)]
  · obtain ⟨pair, hpair⟩ := exists_mem_of_ne_nil _ hwide
    rw [if_neg hwide, if_neg fun hempty => hwide (hnil.mp hempty).1]
    exact iff_of_true rfl (.inl ⟨pair, mem_filter.mp hpair⟩)

/-- The lists that the two versions publish, compared. -/
theorem published_eq_iff (hfilter : (pairs.filter fun pair => pair.1.isQuic) = quic)
    (hmem : ∀ pair, pair ∈ pairs ↔ pair ∈ quic ∨ pair ∈ webRtc)
    (hstorable : ∀ pair ∈ pairs, pair.1.isStorable = true)
    (hremote : ∃ pair ∈ quic, pair.1.canonicalIp.any IpAddr.isLoopback = false) :
    (if (if context.trustsLan source quic then quic else quic.filter isWide) = [] then none
      else some (KBucket.publishedAddresses (keptPairs allowLoopback context source quic))) =
      (if keptPairs allowLoopback context source pairs = [] then none
        else some (KBucket.publishedAddresses
          ((keptPairs allowLoopback context source pairs).filter fun pair =>
            pair.1.isQuic))) ↔
      WebRtcNeutral allowLoopback context source quic webRtc := by
  have hquic : ∀ pair ∈ quic, pair.1.isQuic = true := by
    rw [← hfilter]
    intro pair hpair
    exact (mem_filter.mp hpair).2
  have hpassing : quic.filter (passesLoopback allowLoopback) ≠ [] := by
    obtain ⟨pair, hpair, hloopback⟩ := hremote
    exact ne_nil_of_mem (mem_filter.mpr ⟨hpair, by simp [passesLoopback, hloopback]⟩)
  have htrust := trustsLan_eq_or context source hmem
  have hboth : context.trustsLan source (quic ++ webRtc) = context.trustsLan source pairs := by
    rw [htrust, trustsLan_eq_or context source (fun pair => mem_append)]
  have hkept := filter_isQuic_keptPairs allowLoopback context source hfilter
  have hnonempty (hsame : ((keptPairs allowLoopback context source pairs).filter fun pair =>
      pair.1.isQuic) = quic.filter (passesLoopback allowLoopback)) :
      keptPairs allowLoopback context source pairs ≠ [] := by
    intro hnil
    rw [hnil] at hsame
    exact hpassing hsame.symm
  have hquicStorable : ∀ pair ∈ quic, pair.1.isStorable = true :=
    fun pair hpair => hstorable pair ((hmem pair).mpr (.inl hpair))
  by_cases hquicTrust : context.trustsLan source quic = true
  · have hpairs : context.trustsLan source pairs = true := by
      rw [htrust, hquicTrust, Bool.true_or]
    have hown : keptPairs allowLoopback context source quic =
        quic.filter (passesLoopback allowLoopback) := by
      rw [keptPairs, if_pos hquicTrust]
    have hsome : quic ≠ [] := by
      rintro rfl
      exact hpassing rfl
    rw [if_pos hpairs] at hkept
    rw [if_pos hquicTrust, if_neg hsome, if_neg (hnonempty hkept), hkept, hown, eq_self_iff_true,
      true_iff]
    exact ⟨.inl hquicTrust, .inl (hboth.trans hpairs)⟩
  · have hown : keptPairs allowLoopback context source quic = quic.filter isWide := by
      rw [keptPairs, if_neg hquicTrust, filter_isWide_passesLoopback]
    by_cases hshares : context.peerSharesWan webRtc = true
    · have hpairs : context.trustsLan source pairs = true := by
        rw [htrust, hshares, Bool.or_true]
      rw [if_pos hpairs] at hkept
      rw [if_neg hquicTrust, if_neg (hnonempty hkept), hkept, hown,
        published_wide_eq_iff hquic hquicStorable hpassing]
      constructor
      · intro hneutral
        exact ⟨.inr (.inr hneutral), .inl (hboth.trans hpairs)⟩
      · intro hneutral
        exact (hneutral.trust.resolve_left hquicTrust).resolve_left (by simp [hshares])
    · have hpairs : ¬context.trustsLan source pairs = true := by
        rw [htrust, Bool.or_eq_true, not_or]
        exact ⟨hquicTrust, hshares⟩
      have hall : keptPairs allowLoopback context source pairs = pairs.filter isWide := by
        rw [keptPairs, if_neg hpairs, filter_isWide_passesLoopback]
      rw [if_neg hpairs] at hkept
      rw [if_neg hquicTrust, hkept, hown, hall]
      have hunshared : context.peerSharesWan webRtc = false := by simpa using hshares
      rw [ite_wide_eq_iff hmem]
      constructor
      · exact fun hrest => ⟨.inr (.inl hunshared), .inr hrest⟩
      · exact fun hneutral => hneutral.rest.resolve_left (by rwa [hboth])

end Filters

section Outcomes

variable {before after other : RoutingTable} {owner : PeerId}

/-- Nothing was applied, or the table holds a publication of the peer that left these
addresses. -/
def Outcome (before after : RoutingTable) (owner : PeerId) :
    Option (List (MultiAddr × AddressType)) → Prop
  | none => after = before
  | some typed => storedAddresses after owner = some (KBucket.publishedAddresses typed) ∧
      after.hasAddressPublication owner = true

theorem Outcome.of_represents (codec : AddressCodec) {publication : Publication}
    (hrepresents : after.Represents codec owner publication) :
    Outcome before after owner (some publication.native) :=
  ⟨hrepresents.record, hrepresents.hasAddressPublication⟩

theorem agreeOn_iff {left right : Option (List (MultiAddr × AddressType))}
    (hunpublished : before.addressPublications owner = none)
    (hleft : Outcome before after owner left) (hright : Outcome before other owner right) :
    AgreeOn owner after other ↔
      left.map KBucket.publishedAddresses = right.map KBucket.publishedAddresses := by
  have hbefore : before.hasAddressPublication owner = false := by
    simp [hasAddressPublication, publishSeqFor, transportAddressSet, hunpublished]
  cases left with
  | none =>
    cases right with
    | none => simp [AgreeOn, show after = before from hleft, show other = before from hright]
    | some right =>
      simp [AgreeOn, show after = before from hleft, hbefore, hright.2]
  | some left =>
    cases right with
    | none => simp [AgreeOn, show other = before from hright, hbefore, hleft.2]
    | some right => simp [AgreeOn, hleft.1, hleft.2, hright.1, hright.2]

variable {Score : Type} (config : ManagerConfig Score) {store : AddressStore}
  (source : Option MultiAddr)

/-- A V1 publication is ignored if all its addresses are LAN addresses that are not
trusted. -/
theorem outcome_v1 {seq : ℕ} {typed : List (MultiAddr × AddressType)}
    (hnodup : store.table.NodupIds) (hpresent : (store.table.findNodeById owner).isSome)
    (hunpublished : store.table.addressPublications owner = none) (hseq : seq ≠ 0)
    (hstorable : ∀ pair ∈ typed, pair.1.isStorable = true) :
    Outcome store.table (tableAfter config store owner source (.publishAddressSet seq typed)) owner
      (if (if store.context.trustsLan source typed then typed else typed.filter isWide) = []
        then none
        else some ((keptPairs config.engine.allowLoopback store.context source typed).map
          canonical)) := by
  rw [tableAfter_publishAddressSet, store.context.filterLanAddressesForStore_eq, keptPairs]
  have hkept : (if store.context.trustsLan source typed then typed
      else typed.filter isWide) ⊆ typed := by
    split
    · exact List.Subset.refl _
    · exact filter_sublist.subset
  generalize (if store.context.trustsLan source typed then typed
    else typed.filter isWide) = trusted at hkept
  rw [EngineConfig.replaceNodeAddresses, EngineConfig.filterPublishAddressSet]
  by_cases hnone : trusted = []
  · rw [if_pos hnone, hnone]
    rfl
  · have hfiltered : (((trusted.map canonical).filter fun pair =>
        config.engine.allowLoopback || !pair.1.canonicalIp.any isLoopback).map
          fun pair => (pair.1, forAdvertisedAddress pair.1 pair.2)) =
        (trusted.filter (passesLoopback config.engine.allowLoopback)).map canonical := by
      rw [filter_map, map_map]
      apply congrArg₂
      · funext pair
        exact canonical_canonical pair
      · rfl
    have haccepts : store.table.AcceptsV1 owner
        ((trusted.filter (passesLoopback config.engine.allowLoopback)).map canonical) seq := by
      refine ⟨hseq, by simp [hunpublished], hpresent, acceptsPublication_of_isStorable ?_⟩
      intro pair hpair
      obtain ⟨original, horiginal, rfl⟩ := mem_map.mp hpair
      exact hstorable original (hkept (mem_of_mem_filter horiginal))
    rw [if_neg hnone, if_neg (by simpa using hnone)]
    simp only
    rw [hfiltered]
    exact Outcome.of_represents config.wire.toAddressCodec (haccepts.represents hnodup _ _)

/-- A V2 publication of a snapshot is ignored only if no address passes. -/
theorem outcome_v2 {signed : SignedAddressRecord} {proof : VerifiedAddressRecord}
    (hnodup : store.table.NodupIds) (hpresent : (store.table.findNodeById owner).isSome)
    (hunpublished : store.table.addressPublications owner = none)
    (hverify : signed.verify config.wire config.signatures = .ok proof)
    (howner : signed.owner = owner)
    (hform : ∀ record ∈ signed.records, Announced record) (hdifferent : signed.records.Nodup) :
    Outcome store.table (tableAfter config store owner source (.publishAddressSetV2 signed)) owner
      (if keptPairs config.engine.allowLoopback store.context source
          (snapshotPairs config.wire signed.records) = [] then none
        else some (((keptPairs config.engine.allowLoopback store.context source
          (snapshotPairs config.wire signed.records)).filter fun pair =>
            pair.1.isQuic).map canonical)) := by
  obtain ⟨hsigned, hseq⟩ := verify_eq_ok hverify
  obtain ⟨hlength, hvalid⟩ := validateRecord_of_verify hverify
  rw [howner] at hvalid
  have hproof : proof.owner = owner := by
    rw [VerifiedAddressRecord.owner, hsigned, howner]
  have hrecords : proof.records = signed.records := by
    rw [VerifiedAddressRecord.records, hsigned]
  obtain ⟨kept, hkept⟩ := validate_snapshot config.engine.allowLoopback store.context source
    hform hdifferent hlength hvalid
  have hsubset := keptPairs_subset config.engine.allowLoopback store.context source
    (snapshotPairs config.wire signed.records)
  rw [tableAfter_publishAddressSetV2 hverify hproof hpresent, hrecords, hkept]
  generalize keptPairs config.engine.allowLoopback store.context source
    (snapshotPairs config.wire signed.records) = passing at hsubset
  by_cases hnone : passing = []
  · rw [if_pos hnone, if_pos hnone]
    rfl
  · rw [if_neg hnone, if_neg hnone]
    have haccepts : store.table.AcceptsV2 owner
        ((passing.filter fun pair => pair.1.isQuic).map canonical)
        { seq := proof.sequence, records := kept, proof := some proof } := by
      refine ⟨hseq, by simp [transportAddressSet, hunpublished], hpresent,
        acceptsPublication_of_isStorable ?_⟩
      intro pair hpair
      obtain ⟨original, horiginal, rfl⟩ := mem_map.mp hpair
      have hstorable := isStorable_of_mem_snapshotPairs hform hvalid
        (hsubset (mem_of_mem_filter horiginal))
      exact hstorable
    exact Outcome.of_represents config.wire.toAddressCodec (haccepts.represents hnodup _ _)

theorem publicationRequests_eq {wire : AddressWire} {signatures : AddressSignatures}
    {records : List TransportAddressRecord} {signed : SignedAddressRecord}
    {legacy request : DhtNetworkOperation}
    (hrequests : publicationRequests wire signatures records (some signed) = [legacy, request]) :
    ∃ proof, signed.verify wire signatures = .ok proof ∧
      legacy = .publishAddressSet proof.sequence (legacyAddresses wire records) ∧
      request = .publishAddressSetV2 signed := by
  rw [publicationRequests] at hrequests
  simp only at hrequests
  split at hrequests
  · cases hrequests
  · split at hrequests
    · cases hrequests
    · next proof hverify =>
        split at hrequests <;> cases hrequests
        exact ⟨proof, hverify, rfl, rfl⟩

/-- A receiver that holds no publication of the owner takes the V1 and the V2 request of a
snapshot with a QUIC address that is not a loopback address to the same outcome exactly if
the WebRTC addresses of the snapshot decide nothing. -/
theorem versions_agree_iff {Score : Type} [LinearOrder Score] (config : ManagerConfig Score)
    (localId : PeerId) (k start : ℕ) (ops : List (RoutingOp Score)) (store : AddressStore)
    (owner : PeerId) (source : Option MultiAddr) (supplemental : List MultiAddr)
    (supplied : List (MultiAddr × AddressType)) (signed : SignedAddressRecord)
    (legacy request : DhtNetworkOperation)
    (htable : store.table = (RoutingTable.new localId k start).run config.wire.toAddressCodec
      config.engine ops)
    (hpresent : (store.table.findNodeById owner).isSome)
    (hunpublished : store.table.addressPublications owner = none)
    (hsnapshot : Reachability.completeTransportAddressRecords config.wire.encode owner
      supplemental supplied = .ok signed.records)
    (howner : signed.owner = owner)
    (hrequests : publicationRequests config.wire config.signatures signed.records
      (some signed) = [legacy, request])
    (hremote : ∃ pair ∈ legacyAddresses config.wire signed.records,
      pair.1.canonicalIp.any IpAddr.isLoopback = false) :
    AgreeOn owner (tableAfter config store owner source legacy)
        (tableAfter config store owner source request) ↔
      WebRtcNeutral config.engine.allowLoopback store.context source
        (legacyAddresses config.wire signed.records)
        (webRtcAddresses config.wire signed.records) := by
  have hnodup : store.table.NodupIds := by
    rw [htable]
    exact (run_valid _ _ ops (RoutingTable.Valid.new localId k start)).nodup
  obtain ⟨hform, hdifferent⟩ := completeTransportAddressRecords_eq_ok hsnapshot
  obtain ⟨proof, hverify, rfl, rfl⟩ := publicationRequests_eq hrequests
  obtain ⟨-, hseq⟩ := verify_eq_ok hverify
  obtain ⟨-, hvalid⟩ := validateRecord_of_verify hverify
  have hmem (pair : MultiAddr × AddressType) : pair ∈ snapshotPairs config.wire signed.records ↔
        pair ∈ legacyAddresses config.wire signed.records ∨
          pair ∈ webRtcAddresses config.wire signed.records :=
    mem_snapshotPairs_iff hform
  have hstorable : ∀ pair ∈ snapshotPairs config.wire signed.records, pair.1.isStorable = true :=
    fun pair hpair => isStorable_of_mem_snapshotPairs hform hvalid hpair
  have hfirst := outcome_v1 config source hnodup hpresent hunpublished hseq
    fun pair hpair => hstorable pair ((hmem pair).mpr (.inl hpair))
  have hsecond := outcome_v2 config source hnodup hpresent hunpublished hverify howner hform
    hdifferent
  rw [agreeOn_iff hunpublished hfirst hsecond, apply_ite (Option.map _), apply_ite (Option.map _)]
  simp only [Option.map_none, Option.map_some, publishedAddresses_map_canonical]
  exact published_eq_iff (legacyAddresses_eq config.wire signed.records).symm hmem hstorable hremote

end Outcomes

/-! Peer 1 publishes a QUIC and a WebRTC address, and the WebRTC address is on the WAN
address of the receiver. -/

private def announcedLan : MultiAddr := .quic (.v4 0xc0a80105 9000)

private def announcedWan : MultiAddr := .quic (.v4 0x06060606 9000)

private def announcedWebRtc : MultiAddr := ⟨.webRtcDirect (.v4 0x05050505 9000) [], some 1⟩

private def announcingWire : AddressWire :=
  { decode := fun bytes =>
      if bytes = [1] then some announcedLan
      else if bytes = [2] then some announcedWan
      else if bytes = [3] then some announcedWebRtc
      else none
    encode := fun address =>
      if address = announcedLan then some [1]
      else if address = announcedWan then some [2]
      else if address = announcedWebRtc then some [3]
      else none }

private def receiverConfig : ManagerConfig ℕ :=
  { peerId := 0
    engine := .withDefaults 20
    wire := announcingWire
    signatures :=
      { signableBytes := fun _ _ _ _ => some []
        peerIdFromPublicKey := fun _ => some 1
        isSignature := fun _ => true
        mlDsaVerify := fun _ _ _ => some true }
    display := fun _ => ""
    selfReliability := 0
    requestTimeout := 0 }

private def receiverStore : AddressStore :=
  { table := (RoutingTable.new 0 20 0).run announcingWire.toAddressCodec (.withDefaults 20)
      [entering [(0xcb007109, .direct)]]
    context := { localWanIps := [.v4 0x05050505] }
    now := 1
    statements := [] }

private def announcement (payload : Byte) (tag : AddressType) : SignedAddressRecord :=
  { owner := 1
    sequence := 3
    records := [
      { transport := 1, reachability := reachabilityId tag, address := [payload] },
      { transport := 2, reachability := 3, address := [3] }]
    publicKey := []
    signature := [] }

instance (peer : PeerId) (left right : RoutingTable) : Decidable (AgreeOn peer left right) :=
  inferInstanceAs (Decidable (_ ∧ _))

theorem versions_agree_wan :
    AgreeOn 1
      (tableAfter receiverConfig receiverStore 1 none
        (.publishAddressSet 3 [(announcedWan, .direct)]))
      (tableAfter receiverConfig receiverStore 1 none
        (.publishAddressSetV2 (announcement 2 .direct))) :=
  (versions_agree_iff receiverConfig 0 20 0 [entering [(0xcb007109, .direct)]] receiverStore 1
    none [announcedWebRtc] [(announcedWan, .direct)] (announcement 2 .direct) _ _ rfl
    (by decide +kernel) (by decide +kernel) (by decide +kernel) rfl (by decide +kernel)
    (by decide +kernel)).mpr ⟨.inr (.inr (.inl (by decide +kernel))), .inl (by decide +kernel)⟩

/-- The LAN address is stored by V2 only: the WebRTC address shows that the owner is behind
the same NAT, and the V1 request does not carry it. -/
theorem versions_disagree_lan :
    ¬∀ (config : ManagerConfig ℕ) (localId : PeerId) (k start : ℕ) (ops : List (RoutingOp ℕ))
      (store : AddressStore) (owner : PeerId) (source : Option MultiAddr)
      (supplemental : List MultiAddr) (supplied : List (MultiAddr × AddressType))
      (signed : SignedAddressRecord) (legacy request : DhtNetworkOperation),
      store.table = (RoutingTable.new localId k start).run config.wire.toAddressCodec
        config.engine ops →
      (store.table.findNodeById owner).isSome →
      store.table.addressPublications owner = none →
      Reachability.completeTransportAddressRecords config.wire.encode owner supplemental
        supplied = .ok signed.records →
      signed.owner = owner →
      publicationRequests config.wire config.signatures signed.records (some signed) =
        [legacy, request] →
      (∃ pair ∈ legacyAddresses config.wire signed.records,
        pair.1.canonicalIp.any IpAddr.isLoopback = false) →
      AgreeOn owner (tableAfter config store owner source legacy)
        (tableAfter config store owner source request) := by
  intro hclaim
  have hagree := hclaim receiverConfig 0 20 0 [entering [(0xcb007109, .direct)]] receiverStore 1
    none [announcedWebRtc] [(announcedLan, .lan)] (announcement 1 .lan)
    (.publishAddressSet 3 [(announcedLan, .lan)]) (.publishAddressSetV2 (announcement 1 .lan))
    rfl (by decide +kernel) (by decide +kernel) (by decide +kernel) rfl (by decide +kernel)
    (by decide +kernel)
  exact absurd hagree (by decide +kernel)

end SaorsaCore.Manager
