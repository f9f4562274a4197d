import SaorsaCore.Manager.Provenance
import SaorsaCore.Routing.RecordInvariants

/-!
# The native projection of a V2 publication

A V2 publication is kept twice: as transport records, and as the QUIC addresses in the
routing-table entry of its owner.  Validation, the store filters, the cap for each IP
family and the truncation cut the two down in different places.  This file shows that
they agree in every table: the QUIC addresses of the records that are kept are exactly
the addresses of the entry.
-/

namespace SaorsaCore.Manager

open Routing TransportAddressRecord KnownTransport RoutingTable Option

variable {wire : AddressWire}

/-! ## What validation passes on -/

/-- A record with the address it was decoded to. -/
def BoundedRecord.Decoded (wire : AddressWire) (entry : BoundedRecord) : Prop :=
  ∀ pair, entry.2 = some pair → entry.1.knownAddress wire.toAddressCodec = some pair.1

theorem decoded_boundRecord {owner : PeerId} {bounded : List BoundedRecord}
    (hbounded : ∀ entry ∈ bounded, BoundedRecord.Decoded wire entry)
    (received : TransportAddressRecord) :
    ∀ entry ∈ boundRecord wire owner bounded received, BoundedRecord.Decoded wire entry := by
  intro entry hentry
  rw [boundRecord] at hentry
  split at hentry
  · exact hbounded entry hentry
  · split at hentry
    · next address hdecode =>
        split_ifs at hentry
        · exact hbounded entry hentry
        · exact hbounded entry hentry
        · exact hbounded entry hentry
        · rcases List.mem_append.mp hentry with hmem | hmem
          · exact hbounded entry hmem
          · rw [List.mem_singleton.mp hmem]
            rintro pair ⟨⟩
            rw [TransportAddressRecord.knownAddress, hdecode]
    · split_ifs at hentry
      · rcases List.mem_append.mp hentry with hmem | hmem
        · exact hbounded entry hmem
        · rw [List.mem_singleton.mp hmem]
          rintro pair ⟨⟩
      · exact hbounded entry hentry
    · exact hbounded entry hentry

theorem decoded_foldl_boundRecord (owner : PeerId) (records : List TransportAddressRecord) :
    ∀ entry ∈ records.foldl (boundRecord wire owner) [], BoundedRecord.Decoded wire entry := by
  refine List.foldlRecOn (motive := fun bounded =>
    ∀ entry ∈ bounded, BoundedRecord.Decoded wire entry) records _ (by simp) ?_
  intro bounded hbounded received _
  exact decoded_boundRecord hbounded received

variable {allowed : List (MultiAddr × AddressType)}

/-- Storing a record corrects its tag and nothing else. -/
theorem allowedRecord_eq_some {entry : BoundedRecord} {record : TransportAddressRecord}
    (hallowed : allowedRecord allowed entry = some record) :
    record.transport = entry.1.transport ∧ record.address = entry.1.address := by
  obtain ⟨received, decoded⟩ := entry
  cases decoded with
  | none =>
    cases hallowed
    exact ⟨rfl, rfl⟩
  | some decoded =>
    simp only [allowedRecord, map_eq_some_iff] at hallowed
    obtain ⟨pair, -, rfl⟩ := hallowed
    split <;> exact ⟨rfl, rfl⟩

/-- The record of an allowed address is kept. -/
theorem exists_allowedRecord {entry : BoundedRecord} {pair : MultiAddr × AddressType}
    {tag : AddressType}
    (hdecoded : entry.2 = some (pair.1, tag)) (hallowed : pair ∈ allowed) :
    ∃ record, allowedRecord allowed entry = some record := by
  obtain ⟨received, decoded⟩ := entry
  cases hdecoded
  have hfound : (allowed.find? fun other => other.1 = pair.1).isSome := by
    rw [List.find?_isSome]
    exact ⟨pair, hallowed, by simp⟩
  obtain ⟨other, hother⟩ := isSome_iff_exists.mp hfound
  rw [allowedRecord, hother]
  exact ⟨_, rfl⟩

variable {codec : AddressCodec}

theorem knownAddress_congr {left right : TransportAddressRecord}
    (htransport : left.transport = right.transport) (haddress : left.address = right.address) :
    left.knownAddress codec = right.knownAddress codec := by
  simp only [TransportAddressRecord.knownAddress, decodeKnown, htransport, haddress]

/-- Only a QUIC record decodes to a QUIC address. -/
theorem transport_of_isQuic {record : TransportAddressRecord} {address : MultiAddr}
    (hknown : record.knownAddress codec = some address) (hquic : address.isQuic = true) :
    record.transport = KnownTransport.quic.id := by
  rw [TransportAddressRecord.knownAddress, TransportAddressRecord.decodeKnown] at hknown
  cases htransport : KnownTransport.fromId record.transport with
  | none => simp [htransport] at hknown
  | some transport =>
    rw [KnownTransport.fromId_eq_some_iff] at htransport
    cases transport with
    | quic => exact htransport.symm
    | webRtcDirect =>
      exfalso
      rw [← htransport] at hknown
      simp only [KnownTransport.fromId, KnownTransport.id] at hknown
      cases hdecode : codec.decode record.address with
      | none => simp [hdecode] at hknown
      | some decoded =>
        simp [hdecode] at hknown
        obtain ⟨hwebrtc, rfl⟩ := hknown
        obtain ⟨transport, peerId⟩ := decoded
        cases transport <;> cases hquic
        cases hwebrtc

variable {native : List (MultiAddr × AddressType)}

/-- Every native address is the address of a QUIC record that validation passes on. -/
theorem exists_record_of_native {allowLoopback : Bool} {context : DialAddressContext}
    {owner : PeerId} {records kept : List TransportAddressRecord}
    {transportSource : Option MultiAddr}
    (hvalid : validateTransportAddressRecords wire allowLoopback context owner records
      transportSource = some (kept, native)) {pair : MultiAddr × AddressType}
    (hpair : pair ∈ native) :
    ∃ record ∈ kept, record.transport = KnownTransport.quic.id ∧
      record.knownAddress wire.toAddressCodec = some pair.1 := by
  rw [validateTransportAddressRecords] at hvalid
  simp only at hvalid
  split_ifs at hvalid
  cases hvalid
  obtain ⟨hallowed, hquic⟩ := List.mem_filter.mp hpair
  obtain ⟨advertised, hcandidate, -⟩ :=
    context.filterLanAddressesForStore_drawn _ transportSource pair hallowed
  obtain ⟨entry, hentry, hdecoded⟩ :=
    List.mem_filterMap.mp (List.mem_of_mem_filter hcandidate)
  have hknown := decoded_foldl_boundRecord owner _ entry hentry _ hdecoded
  obtain ⟨record, hrecord⟩ := exists_allowedRecord hdecoded hallowed
  obtain ⟨htransport, haddress⟩ := allowedRecord_eq_some hrecord
  have hrecordKnown := (knownAddress_congr htransport haddress).trans hknown
  exact ⟨record, List.mem_filterMap.mpr ⟨entry, hentry, hrecord⟩,
    transport_of_isQuic hrecordKnown hquic, hrecordKnown⟩

/-! ## What the table keeps -/

/-- The QUIC addresses of a record list. -/
def quicAddresses (codec : AddressCodec) (records : List TransportAddressRecord) : List MultiAddr :=
  (records.filter fun record => record.transport = KnownTransport.quic.id).filterMap
    fun record => record.knownAddress codec

theorem mem_native_of_mem_publishedAddresses {address : MultiAddr}
    (haddress : address ∈ (KBucket.publishedAddresses native).1) :
    ∃ tag, (address, tag) ∈ native := by
  obtain ⟨hlength, hdrawn⟩ := publishedAddresses_drawn native
  rw [← List.map_fst_zip hlength.ge] at haddress
  obtain ⟨pair, hpair, rfl⟩ := List.mem_map.mp haddress
  obtain ⟨tag, htag, -⟩ := hdrawn pair hpair
  exact ⟨tag, htag⟩

/-- The records of a set and its native list agree on the QUIC addresses of the table
entry, if every native address is that of a QUIC record. -/
theorem mem_quicAddresses_storedSet {set : TransportAddressSet}
    (hnative : ∀ pair ∈ native, ∃ record ∈ set.records,
      record.transport = KnownTransport.quic.id ∧ record.knownAddress codec = some pair.1)
    (address : MultiAddr) :
    address ∈ quicAddresses codec (storedSet codec native set).records ↔
      address ∈ (KBucket.publishedAddresses native).1 := by
  simp only [quicAddresses, storedSet, List.mem_filterMap, List.mem_filter, decide_eq_true_eq]
  constructor
  · rintro ⟨record, ⟨⟨-, hretained⟩, htransport⟩, hknown⟩
    rw [retainsRecord, htransport, hknown] at hretained
    simpa using hretained
  · intro haddress
    obtain ⟨tag, htag⟩ := mem_native_of_mem_publishedAddresses haddress
    obtain ⟨record, hrecord, htransport, hknown⟩ := hnative _ htag
    refine ⟨record, ⟨⟨hrecord, ?_⟩, htransport⟩, hknown⟩
    rw [retainsRecord, hknown]
    simp [haddress]

section Results

variable {Score : Type*} [LinearOrder Score]

/-- V2 stores are called as the manager calls them: with the records and the native list
that validation makes of one record set of the owner. -/
def ValidatedStore (wire : AddressWire) : RoutingOp Score → Prop
  | .storeTransport owner set native _ _ =>
    ∃ allowLoopback context records transportSource,
      validateTransportAddressRecords wire allowLoopback context owner records
        transportSource = some (set.records, native)
  | _ => True

/-- In every table, the QUIC addresses of the records kept for a peer are the addresses
of its entry, and the records are among the validated ones of the store that they came
from. -/
theorem quicAddresses_eq_addresses (config : EngineConfig Score) (localId : PeerId)
    (k now : ℕ) (ops : List (RoutingOp Score)) (hstores : ∀ op ∈ ops, ValidatedStore wire op)
    {peer : PeerId} {set : TransportAddressSet}
    (hset : ((RoutingTable.new localId k now).run wire.toAddressCodec config
      ops).transportAddressSet peer = some set) :
    ∃ node, ((RoutingTable.new localId k now).run wire.toAddressCodec config
        ops).findNodeById peer = some node ∧
      (∀ address, address ∈ quicAddresses wire.toAddressCodec set.records ↔
        address ∈ node.addresses) ∧
      ∃ validated native mode stored,
        RoutingOp.storeTransport peer { set with records := validated } native mode stored ∈ ops ∧
          ∀ record ∈ set.records, record ∈ validated := by
  obtain ⟨entry, hentry, htransport⟩ := bind_eq_some_iff.mp hset
  obtain ⟨op, hop, publication, hdelivery, hrepresents⟩ :=
    run_represents config localId k now ops hentry
  obtain ⟨node, hnode, hrecord⟩ := map_eq_some_iff.mp hrepresents.record
  have hsame := hrepresents.entry.symm.trans hentry
  rw [some.injEq] at hsame
  rw [← hsame] at htransport
  cases op with
  | storeTransport target original native mode stored =>
    simp only [RoutingOp.delivery, ite_none_right_eq_some, some.injEq] at hdelivery
    obtain ⟨rfl, rfl⟩ := hdelivery
    cases htransport
    obtain ⟨allowLoopback, context, records, transportSource, hvalid⟩ := hstores _ hop
    refine ⟨node, hnode, ?_, original.records, native, mode, stored, hop, ?_⟩
    · intro address
      have haddresses : node.addresses = (KBucket.publishedAddresses native).1 :=
        congrArg Prod.fst hrecord
      rw [haddresses]
      exact mem_quicAddresses_storedSet (fun pair => exists_record_of_native hvalid) address
    · intro record hmem
      exact List.mem_of_mem_filter hmem
  | replace target typed seq mode stored =>
    simp only [RoutingOp.delivery, ite_none_right_eq_some, some.injEq] at hdelivery
    obtain ⟨rfl, rfl⟩ := hdelivery
    cases htransport
  | _ => cases hdelivery

/-! A peer publishes a QUIC record and a record of a transport this node does not
know. -/

private def projectedWire : AddressWire :=
  { decode := fun bytes => if bytes = [10] then some (.quic (.v4 0xcb00710a 9000)) else none
    encode := fun _ => none }

private def projectedSet : TransportAddressSet :=
  { seq := 3
    records := [{ transport := 1, reachability := 2, address := [10] },
      { transport := 7, reachability := 0, address := [1] }]
    proof := none }

private def projectedStore : RoutingOp ℕ :=
  .storeTransport 1 projectedSet [(.quic (.v4 0xcb00710a 9000), .direct)]
    .authenticatedSelfPublish 1

private def projectedTable : RoutingTable :=
  (RoutingTable.new 0 20 0).run projectedWire.toAddressCodec (.withDefaults 20)
    [entering [(0xcb007109, .direct)], projectedStore]

theorem projectedTable_quicAddresses :
    projectedTable.transportAddressSet 1 = some projectedSet ∧
      ∃ node, projectedTable.findNodeById 1 = some node ∧
        ∀ address, address ∈ quicAddresses projectedWire.toAddressCodec projectedSet.records ↔
          address ∈ node.addresses := by
  have hstore : ValidatedStore projectedWire projectedStore :=
    ⟨false, { localWanIps := [] }, projectedSet.records, none, by decide +kernel⟩
  have hset : projectedTable.transportAddressSet 1 = some projectedSet := by decide +kernel
  obtain ⟨node, hnode, haddresses, -⟩ := quicAddresses_eq_addresses (.withDefaults 20) 0 20 0
    [entering [(0xcb007109, .direct)], projectedStore]
    (by
      intro op hop
      rcases List.mem_pair.mp hop with rfl | rfl
      · exact trivial
      · exact hstore) hset
  exact ⟨hset, node, hnode, haddresses⟩

end Results

end SaorsaCore.Manager
