import SaorsaCore.Manager.LookupTrailer
import SaorsaCore.Transport.SignedBytes

/-!
# Sizes on the wire

How many addresses a publication may have, how long each may be, how long its key and its
signature are, how much one encoded record may take and how much a message may take: these
limits stand in different files.  They fit each other.  A publication that verifies is
within the limit of a record, and the largest one still leaves room for the envelope of the
request that carries it.
-/

namespace SaorsaCore

open Postcard SignedAddressRecord TransportAddressRecord List PeerId

/-! ## Publications -/

/-- Postcard of a signed record: its fields in the order of their declaration. -/
def SignedAddressRecord.postcard (record : SignedAddressRecord) : List UInt8 :=
  str record.owner.toHex ++ (varint record.sequence
    ++ (seq TransportAddressRecord.postcard record.records
      ++ (bytes (record.publicKey.map UInt8.ofBitVec)
        ++ bytes (record.signature.map UInt8.ofBitVec))))

/-- The bytes of a record determine it and tell where they end. -/
theorem SignedAddressRecord.postcard_selfDelimiting :
    SelfDelimiting SignedAddressRecord.postcard := by
  have hbytes : Function.Injective (map UInt8.ofBitVec) :=
    map_injective_iff.mpr fun first second hbyte => congrArg UInt8.toBitVec hbyte
  have hview : Function.Injective fun record : SignedAddressRecord =>
      (record.owner.toHex, record.sequence, record.records,
        record.publicKey.map UInt8.ofBitVec, record.signature.map UInt8.ofBitVec) := by
    intro left right hsame
    cases left
    cases right
    simp only [Prod.mk.injEq] at hsame
    obtain ⟨howner, hsequence, hrecords, hpublicKey, hsignature⟩ := hsame
    rw [SignedAddressRecord.mk.injEq]
    exact ⟨toHex_injective howner, hsequence, hrecords, hbytes hpublicKey, hbytes hsignature⟩
  have hfields := str_selfDelimiting.append (varint_selfDelimiting.append
    ((seq_selfDelimiting TransportAddressRecord.postcard_selfDelimiting).append
      (bytes_selfDelimiting.append bytes_selfDelimiting)))
  have hcomp := hfields.comp hview
  intro left right leftRest rightRest heq
  exact hcomp left right leftRest rightRest heq

theorem PeerId.length_str_toHex (peer : PeerId) : (str peer.toHex).length = 65 := by
  rw [str, bytes, length_append, length_utf8_toHex, varint_of_lt (by decide)]
  rfl

theorem TransportAddressRecord.length_postcard_le {record : TransportAddressRecord}
    (haddress : record.address.length ≤ maxTransportAddressPayload) :
    record.postcard.length ≤ 2056 := by
  have htransport : (varint record.transport.toNat).length ≤ 3 :=
    length_varint_le (Nat.lt_trans record.transport.isLt (by decide))
  have hreachability : (varint record.reachability.toNat).length ≤ 3 :=
    length_varint_le (Nat.lt_trans record.reachability.isLt (by decide))
  have hpayload : (bytes (record.address.map UInt8.ofBitVec)).length ≤ 1 + 1 + 2048 := by
    apply length_bytes_le _ (by decide)
    rwa [length_map]
  rw [postcard, length_append, length_append]
  omega

namespace SignedAddressRecord

variable {wire : AddressWire} {signatures : AddressSignatures}
  {record : SignedAddressRecord} {proof : VerifiedAddressRecord}

theorem length_address_of_validateRecord {owner : PeerId} {item : TransportAddressRecord}
    (hvalid : validateRecord wire owner item = .ok ()) :
    item.address.length ≤ maxTransportAddressPayload := by
  rw [validateRecord] at hvalid
  split at hvalid
  · cases hvalid
  · next hbounds =>
      simp only [Bool.or_eq_true, decide_eq_true_eq, not_or, not_lt] at hbounds
      exact hbounds.2

/-- The key and the signature of a verified record were accepted as such. -/
theorem key_and_signature_of_verify (hverify : record.verify wire signatures = .ok proof) :
    (∃ peer, signatures.peerIdFromPublicKey record.publicKey = some peer) ∧
      signatures.isSignature record.signature = true := by
  rw [verify] at hverify
  split at hverify
  · cases hverify
  · rw [verifySignature] at hverify
    split at hverify
    · cases hverify
    · next peer hpeer =>
        split at hverify
        · cases hverify
        · split at hverify
          · cases hverify
          · next hsignature => exact ⟨⟨peer, hpeer⟩, by simpa using hsignature⟩

/-- The sizes of ML-DSA-65: nothing else is accepted as a key or a signature. -/
structure Sizes (signatures : AddressSignatures) : Prop where
  publicKey : ∀ key peer, signatures.peerIdFromPublicKey key = some peer → key.length = 1952
  signature : ∀ signature, signatures.isSignature signature = true → signature.length = 3309

/-- A verified record takes at most 38237 bytes; the sequence is a `u64`. -/
theorem length_postcard_le (hsizes : Sizes signatures) (hsequence : record.sequence < 2 ^ 64)
    (hverify : record.verify wire signatures = .ok proof) :
    record.postcard.length ≤ 38237 := by
  obtain ⟨hcount, hitems⟩ := validateRecord_of_verify hverify
  obtain ⟨⟨peer, hkey⟩, hsignature⟩ := key_and_signature_of_verify hverify
  have howner := length_str_toHex record.owner
  have hnumber : (varint record.sequence).length ≤ 10 :=
    length_varint_le (Nat.lt_trans hsequence (by decide))
  have hrecords : (seq TransportAddressRecord.postcard record.records).length ≤ 1 + 16 * 2056 := by
    apply length_seq_le hcount (by decide)
    intro item hitem
    apply TransportAddressRecord.length_postcard_le
    exact length_address_of_validateRecord (hitems item hitem)
  have hpublicKey : (bytes (record.publicKey.map UInt8.ofBitVec)).length ≤ 1 + 1 + 1952 := by
    apply length_bytes_le _ (by decide)
    rw [length_map, hsizes.publicKey _ peer hkey]
  have hproof : (bytes (record.signature.map UInt8.ofBitVec)).length ≤ 1 + 1 + 3309 := by
    apply length_bytes_le _ (by decide)
    rw [length_map, hsizes.signature _ hsignature]
  simp only [postcard, length_append]
  omega

end SignedAddressRecord

namespace Manager

open Frames Transport

/-! ## Requests -/

/-- Digits of a number, from one position up to another. -/
def uuidDigits (uuid : BitVec 128) (first last : ℕ) : List Char :=
  (List.range' first (last - first)).map fun index =>
    PeerId.hexDigit (uuid.extractLsb' (4 * (31 - index)) 4)

/-- The text of `Uuid::new_v4`: 32 digits in five groups. -/
def uuidText (uuid : BitVec 128) : String :=
  String.ofList (List.intercalate ['-'] [uuidDigits uuid 0 8, uuidDigits uuid 8 12,
    uuidDigits uuid 12 16, uuidDigits uuid 16 20, uuidDigits uuid 20 32])

/-- The error of `create_request_message`. -/
inductive RequestError where
  /-- `NetworkError::ProtocolError` -/
  | protocolError (message : String)
  deriving DecidableEq, Repr

variable {Score : Type}

/-- `create_request_message` with the random number it draws and the clock it reads; there is
no time before the epoch. -/
def createRequestMessage (own : PeerId) (uuid : BitVec 128) (unixSeconds : Option UInt64)
    (peer : PeerId) (operation : DhtNetworkOperation) :
    Except RequestError (DhtWireMessage Score) :=
  match unixSeconds with
  | none =>
    .error (.protocolError "System clock error: unable to get current timestamp")
  | some seconds =>
    .ok
      { messageId := uuidText uuid
        source := own
        target := some peer
        messageType := .request
        payload := operation
        result := none
        timestamp := seconds.toNat
        ttl := 10
        hopCount := 0
        signedRecords := [] }

/-- The index of a variant in its declaration. -/
def DhtMessageType.variant : DhtMessageType → ℕ
  | .request => 0
  | .response => 1
  | .broadcast => 2
  | .error => 3

/-- Postcard of a message without a result whose payload is `PublishAddressSetV2`, the sixth
operation.  The signed records of a lookup are not part of it. -/
def DhtWireMessage.publicationPostcard (message : DhtWireMessage Score)
    (record : SignedAddressRecord) : List UInt8 :=
  str message.messageId ++ (str message.source.toHex
    ++ (opt (fun peer : PeerId => str peer.toHex) message.target
      ++ (varint message.messageType.variant ++ (varint 5 ++ (record.postcard
        ++ (0 :: (varint message.timestamp
          ++ [UInt8.ofBitVec message.ttl, UInt8.ofBitVec message.hopCount])))))))

/-- The first steps of `handle_dht_message_on_topic`: the size check, then decoding. -/
def receiveMessage (messages : MessageCodec Score) (records : RecordCodec)
    (data : List Byte) : Except WireError (DhtWireMessage Score) :=
  if maxMessageSize < data.length then
    .error (.validation ("Message size " ++ toString data.length
      ++ " bytes exceeds maximum allowed size of " ++ toString maxMessageSize ++ " bytes"))
  else decodeMessage messages records data

theorem utf8Size_of_mem_uuidDigits {uuid : BitVec 128} {first last : ℕ} {char : Char}
    (hchar : char ∈ uuidDigits uuid first last) : char.utf8Size = 1 := by
  have hdigit : ∀ nibble, (hexDigit nibble).utf8Size = 1 := by decide
  obtain ⟨index, -, rfl⟩ := mem_map.mp hchar
  exact hdigit _

theorem length_uuidText (uuid : BitVec 128) : (utf8 (uuidText uuid)).length = 36 := by
  rw [uuidText, length_utf8_ofList]
  · simp [intercalate, uuidDigits]
  · intro char hchar
    simp only [intercalate, intersperse, flatten_cons, flatten_nil,
      mem_append, mem_singleton, not_mem_nil, or_false] at hchar
    rcases hchar with hdigit | rfl | hdigit | rfl | hdigit | rfl | hdigit | rfl | hdigit
    all_goals first
      | exact utf8Size_of_mem_uuidDigits hdigit
      | decide

/-- The envelope of a request takes at most 183 bytes. -/
theorem length_publicationPostcard_le {own peer : PeerId} {uuid : BitVec 128}
    {unixSeconds : Option UInt64} {operation : DhtNetworkOperation}
    {message : DhtWireMessage Score} (record : SignedAddressRecord)
    (hcreate : createRequestMessage own uuid unixSeconds peer operation = .ok message) :
    (message.publicationPostcard record).length ≤ record.postcard.length + 183 := by
  cases unixSeconds with
  | none => cases hcreate
  | some seconds =>
    cases hcreate
    have hid : (str (uuidText uuid)).length ≤ 0 + 1 + 36 :=
      length_bytes_le (length_uuidText uuid).le (by decide)
    have htime : (varint seconds.toNat).length ≤ 10 :=
      length_varint_le (Nat.lt_trans seconds.toNat_lt (by decide))
    have htype : (varint DhtMessageType.request.variant).length ≤ 1 :=
      length_varint_le (by decide)
    have hvariant : (varint 5).length ≤ 1 := length_varint_le (by decide)
    simp only [DhtWireMessage.publicationPostcard, opt, length_append, length_cons,
      length_nil, length_str_toHex]
    omega

/-! ## The limits fit -/

/-- Postcard with the ML-DSA-65 sizes, on what the limits are about: signed records and the
requests that carry one. -/
structure WireRules (signatures : AddressSignatures) (records : RecordCodec)
    (messages : MessageCodec Score) : Prop where
  sizes : SignedAddressRecord.Sizes signatures
  publicKeySize : records.publicKeySize = 1952
  signatureSize : records.signatureSize = 3309
  encode : ∀ record, records.encode record = some (toAddressBytes record.postcard)
  readsBack : records.ReadsBack
  encodeRequest : ∀ (message : DhtWireMessage Score) record,
    message.payload = .publishAddressSetV2 record → message.result = none →
      messages.encode message = some (toAddressBytes (message.publicationPostcard record))

section Limits

variable {wire : AddressWire} {signatures : AddressSignatures} {records : RecordCodec}
  {messages : MessageCodec Score} (hrules : WireRules signatures records messages)
  {record : SignedAddressRecord} {proof : VerifiedAddressRecord}

include hrules

theorem WireRules.isBounded (hverify : record.verify wire signatures = .ok proof) :
    records.isBounded record = true := by
  obtain ⟨hcount, hitems⟩ := validateRecord_of_verify hverify
  obtain ⟨⟨peer, hkey⟩, hsignature⟩ := key_and_signature_of_verify hverify
  have haddresses : ∀ item ∈ record.records,
      item.address.length ≤ maxTransportAddressPayload := fun item hitem =>
    length_address_of_validateRecord (hitems item hitem)
  have hpublicKey := (hrules.sizes.publicKey _ peer hkey).trans hrules.publicKeySize.symm
  have hproof := (hrules.sizes.signature _ hsignature).trans hrules.signatureSize.symm
  simp only [RecordCodec.isBounded, Bool.and_eq_true, decide_eq_true_eq, all_eq_true]
  exact ⟨⟨⟨hcount, haddresses⟩, hpublicKey.le⟩, hproof.le⟩

variable (hsequence : record.sequence < 2 ^ 64)
include hsequence

variable (hverify : record.verify wire signatures = .ok proof)
include hverify

theorem WireRules.writable : records.Writable record ∧ (records.body record).length ≤ 38237 := by
  have hbody : records.body record = toAddressBytes record.postcard := by
    rw [RecordCodec.body, hrules.encode]
    rfl
  have hlength : (records.body record).length ≤ 38237 := by
    rw [hbody, toAddressBytes, length_map]
    exact length_postcard_le hrules.sizes hsequence hverify
  refine ⟨⟨?_, Nat.le_trans hlength (by decide)⟩, hlength⟩
  rw [hrules.encode, hbody]

theorem WireRules.decode_body : records.decode (records.body record) = .ok record := by
  obtain ⟨hencode, hlength⟩ := (hrules.writable hsequence hverify).1
  exact hrules.readsBack.decode_encode (hrules.isBounded hverify) hencode hlength

/-- Behind an empty message there is room for the record. -/
theorem WireRules.appendLookupExtension_nil : appendLookupExtension records [] [record] =
      .ok (lookupExtensionMarker ++ frame 4 (records.body record)) := by
  obtain ⟨hwritable, hlength⟩ := hrules.writable hsequence hverify
  have hbundle := RecordCodec.encodeRecordBundle_singleton_of_writable hwritable
  have hextend : extendLookup records 0 [] record = .ok (frame 4 (records.body record)) := by
    simp only [extendLookup, hbundle, nil_append]
    apply if_pos
    rw [length_frame, lookupExtensionMarker, maxMessageSize]
    simp only [length_cons, length_nil]
    omega
  have hnonempty : (frame 4 (records.body record)).isEmpty = false := by
    rw [isEmpty_eq_false_iff, ← length_pos_iff, length_frame]
    omega
  simp only [appendLookupExtension, maxLookupExtensionRecords, take_succ_cons,
    take_nil, length_nil, foldlM_cons, foldlM_nil, hextend]
  change Except.ok _ = _
  rw [hnonempty]
  rfl

theorem WireRules.length_request_le {own peer : PeerId}
    {uuid : BitVec 128} {unixSeconds : Option UInt64} {message : DhtWireMessage Score}
    (hcreate : createRequestMessage own uuid unixSeconds peer (.publishAddressSetV2 record) =
      .ok message) :
    ∃ data, messages.encode message = some data ∧ data.length ≤ maxMessageSize := by
  have hfields : message.payload = .publishAddressSetV2 record ∧ message.result = none := by
    cases unixSeconds with
    | none => cases hcreate
    | some seconds =>
      cases hcreate
      exact ⟨rfl, rfl⟩
  refine ⟨_, hrules.encodeRequest message record hfields.1 hfields.2, ?_⟩
  have hrecord := length_postcard_le hrules.sizes hsequence hverify
  have henvelope := length_publicationPostcard_le record hcreate
  rw [toAddressBytes, length_map, maxMessageSize]
  omega

end Limits

/-- A record that verifies is encoded within the limit of a record and read back.  Bundles of
such records can be written, and one alone fits the trailer of a message with nothing before
it.  The request that publishes the record is within the limit of a message, so its receiver
goes on to decode it. -/
theorem verified_record_fits {wire : AddressWire} {signatures : AddressSignatures}
    {records : RecordCodec} {messages : MessageCodec Score}
    (hrules : WireRules signatures records messages) {record : SignedAddressRecord}
    {proof : VerifiedAddressRecord} (hsequence : record.sequence < 2 ^ 64)
    (hverify : record.verify wire signatures = .ok proof) :
    (∃ bytes, records.encode record = some bytes ∧ bytes.length ≤ maxSignedAddressBytes ∧
      records.decode bytes = .ok record) ∧
    (∀ others : List SignedAddressRecord,
      (∀ other ∈ others, other.sequence < 2 ^ 64 ∧
        ∃ proof, other.verify wire signatures = .ok proof) →
      ∃ bundle, records.encodeRecordBundle others = .ok bundle) ∧
    (∃ bundle, records.encodeRecordBundle [record] = .ok bundle ∧
      lookupExtensionMarker.length + bundle.length ≤ maxMessageSize ∧
      appendLookupExtension records [] [record] = .ok (lookupExtensionMarker ++ bundle)) ∧
    ∀ (own peer : PeerId) (uuid : BitVec 128) (unixSeconds : Option UInt64)
      (message : DhtWireMessage Score),
      createRequestMessage own uuid unixSeconds peer (.publishAddressSetV2 record) =
        .ok message →
      ∃ data, messages.encode message = some data ∧ data.length ≤ maxMessageSize ∧
        receiveMessage messages records data = decodeMessage messages records data := by
  obtain ⟨hwritable, hlength⟩ := hrules.writable hsequence hverify
  refine ⟨⟨_, hwritable.1, hwritable.2, hrules.decode_body hsequence hverify⟩, ?_, ?_, ?_⟩
  · intro others hothers
    refine ⟨_, RecordCodec.encodeRecordBundle_of_writable fun other hother => ?_⟩
    obtain ⟨hnumber, otherProof, hproof⟩ := hothers other hother
    exact (hrules.writable hnumber hproof).1
  · refine ⟨_, RecordCodec.encodeRecordBundle_singleton_of_writable hwritable, ?_,
      hrules.appendLookupExtension_nil hsequence hverify⟩
    rw [length_frame, lookupExtensionMarker, maxMessageSize]
    simp only [length_cons, length_nil]
    omega
  · intro own peer uuid unixSeconds message hcreate
    obtain ⟨data, hencode, hsize⟩ := hrules.length_request_le hsequence hverify hcreate
    exact ⟨data, hencode, hsize, if_neg (Nat.not_lt.mpr hsize)⟩

/-! ### A record with a key and a signature of full length -/

/-- Whatever has the right length is a key of peer `7` or a signature that verifies. -/
def lengthSignatures : AddressSignatures :=
  { signableBytes := fun _ _ _ _ => some []
    peerIdFromPublicKey := fun key => if key.length = 1952 then some 7 else none
    isSignature := fun signature => signature.length == 3309
    mlDsaVerify := fun _ _ _ => some true }

/-- The encoding of records by their fields, with the reader that belongs to it. -/
noncomputable def postcardRecords : RecordCodec :=
  { encode := fun record => some (toAddressBytes record.postcard)
    takeFromBytes := fun input =>
      (reader SignedAddressRecord.postcard (ofAddressBytes input)).map fun read =>
        (read.1, toAddressBytes read.2)
    publicKeySize := 1952
    signatureSize := 3309 }

/-- An encoding of publication requests alone. -/
def postcardRequests : MessageCodec ℕ :=
  { encode := fun message =>
      match message.payload, message.result with
      | .publishAddressSetV2 record, none =>
        some (toAddressBytes (message.publicationPostcard record))
      | _, _ => none
    takeFromBytes := fun _ => none }

def fullRecord : SignedAddressRecord :=
  { owner := 7
    sequence := 1
    records := [{ transport := 900, reachability := 901, address := [1, 2, 3] }]
    publicKey := List.replicate 1952 0
    signature := List.replicate 3309 0 }

theorem fullRecord_verifies :
    fullRecord.verify noAddresses lengthSignatures = .ok ⟨fullRecord⟩ := by
  have hvalid : fullRecord.validate noAddresses = .ok () := rfl
  have hkey : lengthSignatures.peerIdFromPublicKey fullRecord.publicKey = some 7 := by
    simp only [lengthSignatures, fullRecord, length_replicate, if_true]
  have hsignature : lengthSignatures.isSignature fullRecord.signature = true := by
    simp only [lengthSignatures, fullRecord, length_replicate, beq_self_eq_true]
  simp only [verify, hvalid, verifySignature, hkey, hsignature]
  rfl

theorem lengthSignatures_rules : WireRules lengthSignatures postcardRecords postcardRequests := by
  refine ⟨⟨?_, ?_⟩, rfl, rfl, fun _ => rfl, ?_, ?_⟩
  · intro key peer hkey
    simp only [lengthSignatures, Option.ite_none_right_eq_some] at hkey
    exact hkey.1
  · intro signature hsignature
    simpa [lengthSignatures] using hsignature
  · intro record bytes rest hencode
    cases hencode
    have hinput : ofAddressBytes (toAddressBytes record.postcard ++ rest) =
        record.postcard ++ ofAddressBytes rest := by
      rw [ofAddressBytes, map_append]
      exact congrArg (· ++ _) (ofAddressBytes_toAddressBytes _)
    simp only [postcardRecords, hinput,
      SignedAddressRecord.postcard_selfDelimiting.reader_append, Option.map_some,
      toAddressBytes_ofAddressBytes]
  · intro message record hpayload hresult
    simp only [postcardRequests, hpayload, hresult]

theorem fullRecord_fits :
    fullRecord.verify noAddresses lengthSignatures = .ok ⟨fullRecord⟩ ∧
      (∃ bytes, postcardRecords.encode fullRecord = some bytes ∧
        bytes.length ≤ maxSignedAddressBytes) ∧
      ∃ (message : DhtWireMessage ℕ) (data : List Byte),
        createRequestMessage 1 2 (some 3) 4 (.publishAddressSetV2 fullRecord) = .ok message ∧
        postcardRequests.encode message = some data ∧ data.length ≤ maxMessageSize := by
  obtain ⟨⟨bytes, hencode, hlength, -⟩, -, -, hrequest⟩ :=
    verified_record_fits lengthSignatures_rules (by decide) fullRecord_verifies
  obtain ⟨data, hdata, hsize, -⟩ := hrequest 1 4 2 (some 3) _ rfl
  exact ⟨fullRecord_verifies, ⟨bytes, hencode, hlength⟩, _, data, rfl, hdata, hsize⟩

end Manager

end SaorsaCore
