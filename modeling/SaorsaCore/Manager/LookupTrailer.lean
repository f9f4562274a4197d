import SaorsaCore.Manager.Messages
import SaorsaCore.Manager.RecordBundle

/-!
# Lookup answers on the wire

A lookup answer is the message that old peers understand, with QUIC addresses only,
followed by a trailer: a marker and the signed publications of the nodes, each behind its
length, as far as the size limit of a message allows.  A reader that does not know the
trailer stops at the end of the message; one that does and finds it malformed ignores it.
Postcard is a parameter, with the rule that a value is read back from its encoding
whatever follows.
-/

namespace SaorsaCore.Manager

open Frames List DHTNode RecordCodec

/-! ## Messages -/

def maxMessageSize : ℕ := 64 * 1024

/-- `LOOKUP_EXTENSION_MARKER`, the bytes of `ADDRSIG1`. -/
def lookupExtensionMarker : List Byte :=
  [0x41, 0x44, 0x44, 0x52, 0x53, 0x49, 0x47, 0x31]

def maxLookupExtensionRecords : ℕ := 256

/-- A message with the fields that only travel with it. -/
structure DhtWireMessage (Score : Type) extends DhtNetworkMessage Score where
  source : PeerId
  target : Option PeerId
  timestamp : ℕ
  ttl : BitVec 8
  hopCount : BitVec 8
  deriving DecidableEq, Repr

variable {Score : Type}

/-- The fields of a node that are not serialized are empty when it is read. -/
def DHTNode.serialized (node : DHTNode Score) : DHTNode Score :=
  { node with addressAuthority := none }

def DhtNetworkResult.serialized : DhtNetworkResult Score → DhtNetworkResult Score
  | .nodesFound key nodes => .nodesFound key (nodes.map DHTNode.serialized)
  | result => result

def DhtWireMessage.serialized (message : DhtWireMessage Score) : DhtWireMessage Score :=
  { message with
    result := message.result.map DhtNetworkResult.serialized
    signedRecords := [] }

/-- Postcard of `DhtNetworkMessage`; `none` is an error. -/
structure MessageCodec (Score : Type) where
  encode : DhtWireMessage Score → Option (List Byte)
  takeFromBytes : List Byte → Option (DhtWireMessage Score × List Byte)

/-- Postcard's rule: what is serialized of a message is read back from its encoding,
whatever follows. -/
def MessageCodec.ReadsBack (codec : MessageCodec Score) : Prop :=
  ∀ message bytes rest, codec.encode message = some bytes →
    codec.takeFromBytes (bytes ++ rest) = some (message.serialized, rest)

/-- The part of `P2PError` that encoding and decoding return. -/
inductive WireError where
  | postcard
  | serialization (cause : BundleError)
  | validation (message : String)
  deriving DecidableEq, Repr

/-- `matches!(result, Some(DhtNetworkResult::NodesFound { .. }))` -/
def DhtNetworkMessage.isNodesFound (message : DhtNetworkMessage Score) : Bool :=
  match message.result with
  | some (.nodesFound _ _) => true
  | _ => false

section Wire

variable (messages : MessageCodec Score) (records : RecordCodec)

/-! ### Reading -/

/-- A trailer that is unknown or malformed has no records. -/
def decodeLookupExtension (trailing : List Byte) : List SignedAddressRecord :=
  if lookupExtensionMarker <+: trailing then
    match records.decodeRecordBundle maxLookupExtensionRecords
        (trailing.drop lookupExtensionMarker.length) with
    | .ok signed => signed
    | .error _ => []
  else []

def decodeMessage (data : List Byte) : Except WireError (DhtWireMessage Score) :=
  match messages.takeFromBytes data with
  | none => .error .postcard
  | some (message, trailing) =>
    if message.messageType = .response ∧ message.isNodesFound then
      .ok { message with signedRecords := decodeLookupExtension records trailing }
    else .ok message

/-! ### Writing -/

/-- What the loop of `split_lookup_publications` leaves of a node: its QUIC addresses. -/
def DHTNode.legacy (node : DHTNode Score) : DHTNode Score :=
  if node.addresses.any (!·.isQuic) then
    node.withTyped (node.typedAddresses.filter fun pair => pair.1.isQuic)
  else node

/-- `split_lookup_publications`: the publications taken out, and the nodes left. -/
def splitLookupPublications (nodes : List (DHTNode Score)) :
    List SignedAddressRecord × List (DHTNode Score) :=
  (nodes.foldl (fun taken node =>
      match node.publication with
      | some proof => pushNew taken proof.signed
      | none => taken) [],
    nodes.map DHTNode.legacy)

/-- One pass of the loop of `append_lookup_extension`, behind a message of `base` bytes. -/
def extendLookup (base : ℕ) (extension : List Byte) (record : SignedAddressRecord) :
    Except WireError (List Byte) :=
  match records.encodeRecordBundle [record] with
  | .error cause => .error (.serialization cause)
  | .ok encoded =>
    if base + lookupExtensionMarker.length + extension.length + encoded.length ≤ maxMessageSize then
      .ok (extension ++ encoded)
    else .ok extension

def appendLookupExtension (bytes : List Byte) (signed : List SignedAddressRecord) :
    Except WireError (List Byte) := do
  let extension ← (signed.take maxLookupExtensionRecords).foldlM
    (extendLookup records bytes.length) []
  return if extension.isEmpty then bytes else bytes ++ lookupExtensionMarker ++ extension

/-- The message that is serialized and the records that follow it. -/
def detachRecords (response : DhtWireMessage Score) :
    DhtWireMessage Score × List SignedAddressRecord :=
  match response.result with
  | some (.nodesFound key nodes) =>
    let split := splitLookupPublications nodes
    ({ response with result := some (.nodesFound key split.2), signedRecords := [] },
      split.1.foldl pushNew response.signedRecords)
  | _ => ({ response with signedRecords := [] }, response.signedRecords)

def encodeResponseMessage (response : DhtWireMessage Score) : Except WireError (List Byte) :=
  let detached := detachRecords response
  match messages.encode detached.1 with
  | none => .error .postcard
  | some bytes =>
    if maxMessageSize < bytes.length then
      .error (.validation "DHT response exceeds the message size limit")
    else if detached.1.isNodesFound then
      appendLookupExtension records bytes detached.2
    else .ok bytes

end Wire

/-! ## What is offered to the trailer -/

/-- The records of a lookup answer: its own, then those of the nodes that are not among
them, once each. -/
def listedRecords (own : List SignedAddressRecord) (nodes : List (DHTNode Score)) :
    List SignedAddressRecord :=
  own ++ ((nodes.filterMap fun node => node.publication.map (·.signed)).filter
    fun record => record ∉ own).eraseDups

theorem splitLookupPublications_fst (nodes : List (DHTNode Score)) :
    (splitLookupPublications nodes).1 =
      (nodes.filterMap fun node => node.publication.map (·.signed)).foldl pushNew [] := by
  rw [foldl_filterMap]
  unfold splitLookupPublications
  dsimp only
  congr 1
  funext taken node
  cases node.publication <;> rfl

theorem detachRecords_nodesFound {response : DhtWireMessage Score} {key : PeerId}
    {nodes : List (DHTNode Score)} (hresult : response.result = some (.nodesFound key nodes)) :
    detachRecords response = ({ response with
          result := some (.nodesFound key (nodes.map DHTNode.legacy)), signedRecords := [] },
        listedRecords response.signedRecords nodes) := by
  have hlisted : (splitLookupPublications nodes).1.foldl pushNew response.signedRecords =
      listedRecords response.signedRecords nodes := by
    rw [splitLookupPublications_fst, foldl_pushNew_foldl, foldl_pushNew, listedRecords]
  rw [detachRecords, hresult]
  simp only [hlisted]
  rfl

/-- What arrives of a node: everything but the provenance of its addresses, and of
those the QUIC addresses. -/
structure DHTNode.ArrivesAs (node read : DHTNode Score) : Prop where
  peerId : read.peerId = node.peerId
  distance : read.distance = node.distance
  reliability : read.reliability = node.reliability
  addressAuthority : read.addressAuthority = none
  typedAddresses : read.typedAddresses = node.typedAddresses.filter fun pair => pair.1.isQuic

/-- Pairs read from a record are read back unchanged from the record that holds them. -/
theorem DHTNode.typedAddresses_withTyped_filter (node : DHTNode Score)
    (kept : MultiAddr × AddressType → Bool) :
    (node.withTyped (node.typedAddresses.filter kept)).typedAddresses =
      node.typedAddresses.filter kept := by
  rw [typedAddresses_withTyped]
  calc
    _ = (node.typedAddresses.filter kept).map id := by
      apply map_congr_left
      intro pair hpair
      obtain ⟨index, _, rfl⟩ := mem_mapIdx.mp (mem_of_mem_filter hpair)
      simp
    _ = node.typedAddresses.filter kept := map_id _

theorem DHTNode.legacy_typedAddresses (node : DHTNode Score) :
    node.legacy.typedAddresses = node.typedAddresses.filter fun pair => pair.1.isQuic := by
  rw [legacy]
  by_cases hother : node.addresses.any (!·.isQuic)
  · rw [if_pos hother, typedAddresses_withTyped_filter]
  · rw [if_neg hother]
    symm
    apply filter_eq_self.mpr
    intro pair hpair
    obtain ⟨index, hindex, rfl⟩ := mem_mapIdx.mp hpair
    simp only [any_eq_true, not_exists, not_and] at hother
    simpa using hother node.addresses[index] (getElem_mem hindex)

theorem DHTNode.arrivesAs_legacy (node : DHTNode Score) :
    node.ArrivesAs node.legacy.serialized := by
  refine ⟨?_, ?_, ?_, rfl, ?_⟩
  · rw [legacy]
    split <;> rfl
  · rw [legacy]
    split <;> rfl
  · rw [legacy]
    split <;> rfl
  · exact node.legacy_typedAddresses

/-! ## The trailer holds what fits -/

section Trailer

variable {records : RecordCodec}

variable {base : ℕ}

/-- One pass: the record is written whole, or there is no room for it. -/
theorem extendLookup_eq_ok {extension next : List Byte} {record : SignedAddressRecord}
    (hextend : extendLookup records base extension record = .ok next) :
    records.Writable record ∧ next = if base + lookupExtensionMarker.length + extension.length
          + records.frameSize record ≤ maxMessageSize then
        extension ++ frame 4 (records.body record) else extension := by
  rw [extendLookup] at hextend
  cases hbundle : records.encodeRecordBundle [record] with
  | error =>
    rw [hbundle] at hextend
    contradiction
  | ok encoded =>
    obtain ⟨body, hencode, hlength, hframe⟩ := RecordCodec.encodeRecordBundle_singleton hbundle
    have hbody : records.body record = body := by
      rw [RecordCodec.body, hencode]
      rfl
    subst hbody
    refine ⟨⟨hencode, hlength⟩, ?_⟩
    simp only [hbundle] at hextend
    rw [hframe] at hextend
    rw [RecordCodec.frameSize]
    split
    case isTrue hroom =>
      rw [if_pos hroom] at hextend
      exact (Except.ok.inj hextend).symm
    case isFalse hfull =>
      rw [if_neg hfull] at hextend
      exact (Except.ok.inj hextend).symm

/-- The whole loop writes exactly the records that still fit, each behind its length. -/
theorem foldlM_extendLookup {extension written : List Byte}
    {offered : List SignedAddressRecord}
    (hextend : offered.foldlM (extendLookup records base) extension = .ok written) :
    (∀ record ∈ offered, records.Writable record) ∧ written = extension ++ frames 4
        ((fitting records.frameSize maxMessageSize
          (base + lookupExtensionMarker.length + extension.length) offered).map records.body) := by
  induction offered generalizing extension with
  | nil =>
    cases hextend
    exact ⟨nofun, (append_nil _).symm⟩
  | cons record rest ih =>
    rw [foldlM_cons] at hextend
    cases hstep : extendLookup records base extension record with
    | error =>
      rw [hstep] at hextend
      contradiction
    | ok next =>
      rw [hstep] at hextend
      obtain ⟨hwritable, hnext⟩ := extendLookup_eq_ok hstep
      obtain ⟨hrest, hwritten⟩ := ih hextend
      refine ⟨forall_mem_cons.mpr ⟨hwritable, hrest⟩, ?_⟩
      rw [fitting, hwritten, hnext]
      by_cases hroom : base + lookupExtensionMarker.length + extension.length
          + records.frameSize record ≤ maxMessageSize
      · rw [if_pos hroom, if_pos hroom, map_cons, frames_cons, length_append,
          append_assoc, ← Nat.add_assoc, frameSize]
      · rw [if_neg hroom, if_neg hroom]

/-- The records written behind a message of `base` bytes. -/
def RecordCodec.written (records : RecordCodec) (base : ℕ)
    (listed : List SignedAddressRecord) : List SignedAddressRecord :=
  fitting records.frameSize maxMessageSize (base + lookupExtensionMarker.length)
    (listed.take maxLookupExtensionRecords)

variable {listed : List SignedAddressRecord}

theorem RecordCodec.mem_of_mem_written {record : SignedAddressRecord}
    (hmem : record ∈ records.written base listed) : record ∈ listed :=
  List.mem_of_mem_take ((fitting_sublist _ _ _ _).subset hmem)

theorem RecordCodec.length_written_le (base : ℕ) (listed : List SignedAddressRecord) :
    (records.written base listed).length ≤ maxLookupExtensionRecords :=
  Nat.le_trans (fitting_sublist _ _ _ _).length_le (List.length_take_le _ _)

theorem appendLookupExtension_eq_ok {bytes output : List Byte}
    (happend : appendLookupExtension records bytes listed = .ok output) :
    (∀ record ∈ records.written bytes.length listed, records.Writable record) ∧
      output = bytes ++ if records.written bytes.length listed = [] then []
        else lookupExtensionMarker ++
          frames 4 ((records.written bytes.length listed).map records.body) := by
  rw [appendLookupExtension] at happend
  cases hrun : (listed.take maxLookupExtensionRecords).foldlM
      (extendLookup records bytes.length) [] with
  | error =>
    rw [hrun] at happend
    contradiction
  | ok extension =>
    rw [hrun] at happend
    obtain ⟨hwritable, hextension⟩ := foldlM_extendLookup hrun
    change extension =
      frames 4 ((records.written bytes.length listed).map records.body) at hextension
    have hempty : extension.isEmpty = true ↔ records.written bytes.length listed = [] := by
      rw [List.isEmpty_iff, hextension, frames_eq_nil_iff (by decide), List.map_eq_nil_iff]
    refine ⟨fun record hmem => hwritable record ((fitting_sublist _ _ _ _).subset hmem), ?_⟩
    have houtput := Except.ok.inj happend
    by_cases hnone : records.written bytes.length listed = []
    · rw [if_pos hnone, List.append_nil, ← houtput, if_pos (hempty.mpr hnone)]
    · rw [if_neg hnone, ← houtput, if_neg (mt hempty.mp hnone), hextension, List.append_assoc]

/-- With the trailer the message stays within the limit it was in without. -/
theorem length_appendLookupExtension_le {bytes output : List Byte}
    (hbytes : bytes.length ≤ maxMessageSize)
    (happend : appendLookupExtension records bytes listed = .ok output) :
    output.length ≤ maxMessageSize := by
  rw [(appendLookupExtension_eq_ok happend).2]
  by_cases hnone : records.written bytes.length listed = []
  · rw [if_pos hnone, append_nil]
    exact hbytes
  · rw [if_neg hnone, length_append, length_append, ← Nat.add_assoc, length_frames, map_map]
    exact used_add_sum_fitting_le _ _ hnone

end Trailer

/-! ## What is read back -/

section Reading

variable {messages : MessageCodec Score} {records : RecordCodec}

/-- A trailer with the marker and a well-formed bundle of these records. -/
def RecordCodec.IsTrailer (records : RecordCodec) (trailing : List Byte)
    (signed : List SignedAddressRecord) : Prop :=
  ∃ bundle, trailing = lookupExtensionMarker ++ bundle ∧
    records.IsBundle maxLookupExtensionRecords bundle signed

theorem decodeLookupExtension_marker (bundle : List Byte) :
    decodeLookupExtension records (lookupExtensionMarker ++ bundle) =
      match records.decodeRecordBundle maxLookupExtensionRecords bundle with
      | .ok signed => signed
      | .error _ => [] := by
  rw [decodeLookupExtension, if_pos (prefix_append _ _), drop_left]

theorem RecordCodec.IsTrailer.decodeLookupExtension_eq {trailing : List Byte}
    {signed : List SignedAddressRecord} (htrailer : records.IsTrailer trailing signed) :
    decodeLookupExtension records trailing = signed := by
  obtain ⟨bundle, rfl, hbundle⟩ := htrailer
  rw [decodeLookupExtension_marker, decodeRecordBundle_eq_ok_iff.mpr hbundle]

/-- A trailer is read whole or not at all. -/
theorem decodeLookupExtension_spec (trailing : List Byte) :
    records.IsTrailer trailing (decodeLookupExtension records trailing) ∨
      decodeLookupExtension records trailing = [] ∧
        ∀ signed, ¬records.IsTrailer trailing signed := by
  by_cases htrailer : ∃ signed, records.IsTrailer trailing signed
  · obtain ⟨signed, htrailer⟩ := htrailer
    rw [htrailer.decodeLookupExtension_eq]
    exact .inl htrailer
  · refine .inr ⟨?_, not_exists.mp htrailer⟩
    rw [decodeLookupExtension]
    split
    case isFalse => rfl
    case isTrue hmarker =>
      obtain ⟨bundle, rfl⟩ := hmarker
      rw [drop_left]
      cases hdecode : records.decodeRecordBundle maxLookupExtensionRecords bundle with
      | error => rfl
      | ok signed =>
        exact absurd ⟨signed, bundle, rfl, decodeRecordBundle_eq_ok_iff.mp hdecode⟩ htrailer

/-- What the writer appends is read as the records it wrote. -/
theorem decodeLookupExtension_written (hreads : records.ReadsBack)
    {written : List SignedAddressRecord} (hmost : written.length ≤ maxLookupExtensionRecords)
    (hbounded : ∀ record ∈ written, records.isBounded record)
    (hwritable : ∀ record ∈ written, records.Writable record) :
    decodeLookupExtension records (if written = [] then []
      else lookupExtensionMarker ++ frames 4 (written.map records.body)) = written := by
  by_cases hnone : written = []
  · rw [if_pos hnone, hnone]
    rfl
  · rw [if_neg hnone]
    apply RecordCodec.IsTrailer.decodeLookupExtension_eq
    refine ⟨_, rfl, written.map records.body, rfl, by rwa [length_map], ?_⟩
    rw [forall₂_map_left_iff, forall₂_same]
    intro record hmem
    obtain ⟨hencode, hlength⟩ := hwritable record hmem
    exact hreads.decode_encode (hbounded record hmem) hencode hlength

theorem decodeMessage_append (hreads : messages.ReadsBack) {message : DhtWireMessage Score}
    {base : List Byte} (hencode : messages.encode message = some base)
    (htype : message.messageType = .response) {key : PeerId} {nodes : List (DHTNode Score)}
    (hresult : message.result = some (.nodesFound key nodes)) (trailing : List Byte) :
    decodeMessage messages records (base ++ trailing) = .ok { message with
        result := some (.nodesFound key (nodes.map DHTNode.serialized))
        signedRecords := decodeLookupExtension records trailing } := by
  have hserialized : message.serialized.result = some (.nodesFound key (nodes.map serialized)) := by
    rw [DhtWireMessage.serialized, hresult]
    rfl
  have hfound : message.serialized.messageType = .response ∧ message.serialized.isNodesFound := by
    refine ⟨htype, ?_⟩
    rw [DhtNetworkMessage.isNodesFound, hserialized]
  rw [decodeMessage, hreads message base trailing hencode]
  dsimp only
  rw [if_pos hfound, hserialized]
  rfl

/-- A lookup answer that is sent stays within the size limit and is read back with every
node in its place, without provenance and with its QUIC addresses, and with the signed
records that fit, in order.  Behind the same message any other trailer is read whole or
not at all.  The bounds on the records are those that their deserialization and their
signing enforce. -/
theorem lookupAnswer_read_back (hmessages : messages.ReadsBack) (hrecords : records.ReadsBack)
    {response : DhtWireMessage Score} {key : PeerId} {nodes : List (DHTNode Score)}
    (htype : response.messageType = .response)
    (hresult : response.result = some (.nodesFound key nodes))
    (hbounded : ∀ record ∈ listedRecords response.signedRecords nodes,
      records.isBounded record)
    {bytes : List Byte} (hencode : encodeResponseMessage messages records response = .ok bytes) :
    bytes.length ≤ maxMessageSize ∧
      ∃ base arrived, messages.encode (detachRecords response).1 = some base ∧
        List.Forall₂ DHTNode.ArrivesAs nodes arrived ∧
        decodeMessage messages records bytes =
          .ok { response with
            result := some (.nodesFound key arrived)
            signedRecords := fitting records.frameSize maxMessageSize
              (base.length + lookupExtensionMarker.length)
              ((listedRecords response.signedRecords nodes).take
                maxLookupExtensionRecords) } ∧
        ∀ trailing, ∃ signed,
          decodeMessage messages records (base ++ trailing) =
            .ok { response with
              result := some (.nodesFound key arrived)
              signedRecords := signed } ∧
          (records.IsTrailer trailing signed ∨
            signed = [] ∧ ∀ other, ¬records.IsTrailer trailing other) := by
  let arrived := nodes.map fun node => node.legacy.serialized
  have harrived : List.Forall₂ DHTNode.ArrivesAs nodes arrived := by
    rw [forall₂_map_right_iff, forall₂_same]
    intro node _
    exact node.arrivesAs_legacy
  rw [encodeResponseMessage] at hencode
  cases hbase : messages.encode (detachRecords response).1 with
  | none =>
    simp only [hbase] at hencode
    contradiction
  | some base =>
    simp only [hbase] at hencode
    by_cases hlong : maxMessageSize < base.length
    · rw [if_pos hlong] at hencode
      contradiction
    rw [if_neg hlong, detachRecords_nodesFound hresult] at hencode
    have happend : appendLookupExtension records base
        (listedRecords response.signedRecords nodes) = .ok bytes := hencode
    have hread (trailing : List Byte) : decodeMessage messages records (base ++ trailing) =
          .ok { response with
            result := some (.nodesFound key arrived)
            signedRecords := decodeLookupExtension records trailing } := by
      rw [detachRecords_nodesFound hresult] at hbase
      rw [decodeMessage_append hmessages hbase htype rfl, map_map]
      rfl
    refine ⟨length_appendLookupExtension_le (Nat.le_of_not_lt hlong) happend, base, arrived,
      rfl, harrived, ?_, fun trailing => ⟨_, hread trailing, decodeLookupExtension_spec trailing⟩⟩
    obtain ⟨hwritable, hbytes⟩ := appendLookupExtension_eq_ok happend
    rw [hbytes, hread, decodeLookupExtension_written hrecords (length_written_le _ _)
      (fun record hmem => hbounded record (mem_of_mem_written hmem)) hwritable]
    rfl

/-! ### An answer with two records -/

/-- Records that differ in their sequence only. -/
def numberedRecord (sequence : ℕ) : SignedAddressRecord :=
  { owner := 7
    sequence := sequence
    records := [{ transport := 900, reachability := 901, address := [1, 2, 3] }]
    publicKey := []
    signature := [] }

/-- An encoding of the numbered records by their number. -/
def numberedCodec : RecordCodec :=
  { encode := fun record =>
      if record = numberedRecord record.sequence ∧ record.sequence < 256 then
        some [BitVec.ofNat 8 record.sequence]
      else none
    takeFromBytes := fun bytes =>
      match bytes with
      | [] => none
      | byte :: rest => some (numberedRecord byte.toNat, rest)
    publicKeySize := 1952
    signatureSize := 3309 }

theorem numberedCodec_readsBack : numberedCodec.ReadsBack := by
  intro record bytes rest hencode
  simp only [numberedCodec, Option.ite_none_right_eq_some] at hencode
  obtain ⟨⟨hrecord, hlt⟩, hbytes⟩ := hencode
  cases hbytes
  have hsequence : (BitVec.ofNat 8 record.sequence).toNat = record.sequence := by
    rw [BitVec.toNat_ofNat]
    exact Nat.mod_eq_of_lt hlt
  simp only [numberedCodec, singleton_append, hsequence, ← hrecord]

/-- An answer with a record of its own and a node with a record, a QUIC address and a
WebRTC address. -/
def twoRecordAnswer : DhtWireMessage ℕ :=
  { messageId := "lookup"
    messageType := .response
    payload := .findNode 7
    result := some (.nodesFound 7 [
      { peerId := 7
        addresses := [⟨.webRtcDirect (.v4 0xCB007107 9000) [], none⟩, .quic (.v4 0xCB007107 9000)]
        addressTypes := [.unverified, .direct]
        distance := none
        reliability := 1
        addressAuthority := some (.signed ⟨numberedRecord 2⟩) }])
    signedRecords := [numberedRecord 1]
    source := 1
    target := some 2
    timestamp := 5
    ttl := 10
    hopCount := 0 }

/-- An encoding of this answer alone. -/
def answerCodec : MessageCodec ℕ :=
  { encode := fun message =>
      if message.serialized = (detachRecords twoRecordAnswer).1.serialized then some [1]
      else none
    takeFromBytes := fun bytes =>
      match bytes with
      | [] => none
      | _ :: rest => some ((detachRecords twoRecordAnswer).1.serialized, rest) }

theorem answerCodec_readsBack : answerCodec.ReadsBack := by
  intro message bytes rest hencode
  simp only [answerCodec, Option.ite_none_right_eq_some] at hencode
  obtain ⟨hmessage, hbytes⟩ := hencode
  cases hbytes
  simp only [answerCodec, singleton_append, hmessage]

theorem twoRecordAnswer_read_back :
    encodeResponseMessage answerCodec numberedCodec twoRecordAnswer =
        .ok (1 :: lookupExtensionMarker ++ [0, 0, 0, 1, 1, 0, 0, 0, 1, 2]) ∧
      ∃ arrived, decodeMessage answerCodec numberedCodec
          (1 :: lookupExtensionMarker ++ [0, 0, 0, 1, 1, 0, 0, 0, 1, 2]) =
        .ok { twoRecordAnswer with
          result := some (.nodesFound 7 arrived)
          signedRecords := [numberedRecord 1, numberedRecord 2] } := by
  have hencode : encodeResponseMessage answerCodec numberedCodec twoRecordAnswer =
      .ok (1 :: lookupExtensionMarker ++ [0, 0, 0, 1, 1, 0, 0, 0, 1, 2]) := by
    decide +kernel
  have hbounded : ∀ record ∈ listedRecords twoRecordAnswer.signedRecords
      ((twoRecordAnswer.result.map DhtNetworkResult.nodes).getD []),
      numberedCodec.isBounded record := by
    decide +kernel
  obtain ⟨-, base, arrived, hbase, -, hread, -⟩ := lookupAnswer_read_back answerCodec_readsBack
    numberedCodec_readsBack rfl rfl hbounded hencode
  have hone : base = [1] := by
    simp only [answerCodec, if_true, Option.some.injEq] at hbase
    exact hbase.symm
  subst hone
  exact ⟨hencode, arrived, hread⟩

end Reading

end SaorsaCore.Manager
