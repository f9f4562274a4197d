import SaorsaCore.Address.SignedRecord
import SaorsaCore.Core.Postcard
import SaorsaCore.Transport.WireMessage

/-!
# What a node signs

A node signs wire messages and address records with the same key.  Both are tuples in
the Postcard format, and neither starts with a tag of its own: a message may name any
protocol.  The two are still told apart, field by field.  Where the message has its
sender, a string of 64 hexadecimal digits, the record has its sequence and the number of
its addresses, and the first digit would be more addresses than a record may have.
-/

namespace SaorsaCore

open Postcard List TransportAddressRecord SignedAddressRecord

/-! ## Peer ids as text -/

namespace PeerId

/-- The byte of a digit. -/
def hexByte (nibble : BitVec 4) : UInt8 := (hexDigit nibble).val.toUInt8

theorem hexDigit_utf8 : ∀ nibble, String.utf8EncodeChar (hexDigit nibble) = [hexByte nibble] := by
  decide

theorem hexByte_injective : Function.Injective hexByte := by
  decide

/-- Digits are below the bytes with a high bit and above sixteen. -/
theorem hexByte_bounds : ∀ nibble, 48 ≤ (hexByte nibble).toNat ∧ (hexByte nibble).toNat < 128 := by
  decide

theorem utf8_toHex (peer : PeerId) :
    utf8 (toHex peer) = (range 64).map fun index => hexByte (nibbleAt peer index) := by
  rw [utf8, toHex, String.toByteArray_ofList, utf8Encode, data_toByteArray]
  simp only [flatMap_map, hexDigit_utf8]
  exact (map_eq_flatMap ..).symm

/-- The digits determine the peer. -/
theorem toHex_injective : Function.Injective toHex := by
  intro left right heq
  have hbytes : ∀ index < 64, nibbleAt left index = nibbleAt right index := by
    have hutf8 := congrArg utf8 heq
    rw [utf8_toHex, utf8_toHex] at hutf8
    intro index hindex
    apply hexByte_injective
    exact map_inj_left.mp hutf8 index (mem_range.mpr hindex)
  apply BitVec.eq_of_getLsbD_eq
  intro bit hbit
  -- A bit is found in the digit it belongs to.
  have hdigit : ∀ peer : PeerId, (nibbleAt peer (63 - bit / 4)).getLsbD (bit % 4)
      = peer.getLsbD bit := by
    intro peer
    rw [nibbleAt, BitVec.getLsbD_extractLsb']
    have hposition : 4 * (63 - (63 - bit / 4)) + bit % 4 = bit := by omega
    rw [hposition, decide_eq_true (Nat.mod_lt bit (by decide)), Bool.true_and]
  rw [← hdigit left, ← hdigit right, hbytes (63 - bit / 4) (by omega)]

/-- The text of a peer starts with a digit. -/
theorem utf8_toHex_cons (peer : PeerId) : ∃ digits,
    utf8 (toHex peer) = hexByte (nibbleAt peer 0) :: digits := by
  rw [utf8_toHex, range_succ_eq_map, map_cons]
  exact ⟨_, rfl⟩

theorem length_utf8_toHex (peer : PeerId) : (utf8 (toHex peer)).length = 64 := by
  rw [utf8_toHex, length_map, length_range]

end PeerId

/-! ## Address records -/

/-- The fields of a record in the order of their declaration. -/
def TransportAddressRecord.postcard (record : TransportAddressRecord) : List UInt8 :=
  varint record.transport.toNat
    ++ (varint record.reachability.toNat ++ bytes (record.address.map UInt8.ofBitVec))

theorem TransportAddressRecord.postcard_selfDelimiting : SelfDelimiting postcard := by
  have hview : Function.Injective fun record : TransportAddressRecord =>
      (record.transport.toNat, record.reachability.toNat, record.address.map UInt8.ofBitVec) := by
    intro left right heq
    obtain ⟨htransport, hreachability, haddress⟩ :=
      Prod.mk.inj heq |>.imp_right Prod.mk.inj
    have hbytes : Function.Injective UInt8.ofBitVec := by
      intro first second hbyte
      exact congrArg UInt8.toBitVec hbyte
    cases left
    cases right
    rw [mk.injEq]
    exact ⟨BitVec.eq_of_toNat_eq htransport, BitVec.eq_of_toNat_eq hreachability,
      map_injective_iff.mpr hbytes haddress⟩
  exact (varint_selfDelimiting.append
    (varint_selfDelimiting.append bytes_selfDelimiting)).comp hview

namespace SignedAddressRecord

/-- The tuple that is signed for a record. -/
def signedTuple (domain : String) (owner : PeerId) (sequence : ℕ)
    (records : List TransportAddressRecord) : List UInt8 :=
  str domain ++ (str owner.toHex
    ++ (varint sequence ++ seq TransportAddressRecord.postcard records))

def signableBytes (record : SignedAddressRecord) : List UInt8 :=
  signedTuple domain record.owner record.sequence record.records

/-- The signed bytes determine the owner, the sequence and the records. -/
theorem signableBytes_inj {left right : SignedAddressRecord}
    (heq : left.signableBytes = right.signableBytes) :
    left.owner = right.owner ∧ left.sequence = right.sequence ∧ left.records = right.records := by
  have hview : Function.Injective fun signed : PeerId × ℕ × List TransportAddressRecord =>
      (signed.1.toHex, signed.2) := by
    intro left right hsame
    obtain ⟨hhex, hrest⟩ := Prod.mk.inj hsame
    exact Prod.ext (PeerId.toHex_injective hhex) hrest
  have hfields := ((str_selfDelimiting.append (varint_selfDelimiting.append
    (seq_selfDelimiting postcard_selfDelimiting))).comp
      hview).injective
  have hsigned : (left.owner, left.sequence, left.records)
      = (right.owner, right.sequence, right.records) :=
    hfields (append_cancel_left heq)
  simpa using hsigned

theorem validate_length {wire : AddressWire} {record : SignedAddressRecord}
    (hvalid : record.validate wire = .ok ()) :
    record.records.length ≤ maxTransportAddressRecords := by
  rw [validate] at hvalid
  split at hvalid
  · cases hvalid
  · next hbounds =>
      simp only [Bool.or_eq_true, decide_eq_true_eq, not_or, not_lt] at hbounds
      exact hbounds.2

/-- A record that verifies is valid, and its signature was checked on its signed
bytes. -/
theorem verify_checked {wire : AddressWire} {signatures : AddressSignatures}
    {record : SignedAddressRecord} {proof : VerifiedAddressRecord}
    (hverify : record.verify wire signatures = .ok proof) :
    record.validate wire = .ok () ∧ ∃ bytes,
      signatures.signableBytes domain record.owner record.sequence record.records = some bytes
        ∧ signatures.mlDsaVerify record.publicKey bytes record.signature = some true := by
  rw [verify] at hverify
  split at hverify
  · cases hverify
  · next hvalid =>
      refine ⟨hvalid, ?_⟩
      rw [verifySignature] at hverify
      split at hverify
      · cases hverify
      · split at hverify
        · cases hverify
        · split at hverify
          · cases hverify
          · split at hverify
            · cases hverify
            · next bytes hbytes =>
                split at hverify
                · cases hverify
                · next hchecked => exact ⟨bytes, hbytes, hchecked⟩
                · cases hverify

end SignedAddressRecord

namespace Transport

def computeSignableBytes (signable : Signable) : Bytes :=
  str signable.protocol ++ (bytes signable.data ++ (str signable.fromPeer.toHex
    ++ (varint signable.timestamp.toNat ++ str signable.userAgent)))

/-- The signed bytes determine what is signed. -/
theorem computeSignableBytes_injective : Function.Injective computeSignableBytes := by
  have hview : Function.Injective fun signable : Signable =>
      (signable.protocol, signable.data, signable.fromPeer.toHex, signable.timestamp.toNat,
        signable.userAgent) := by
    intro left right hsame
    cases left
    cases right
    simp only [Prod.mk.injEq] at hsame
    obtain ⟨hprotocol, hdata, hhex, htimestamp, huserAgent⟩ := hsame
    rw [Signable.mk.injEq]
    exact ⟨hprotocol, hdata, PeerId.toHex_injective hhex, UInt64.toNat_inj.mp htimestamp,
      huserAgent⟩
  exact ((str_selfDelimiting.append (bytes_selfDelimiting.append (str_selfDelimiting.append
    (varint_selfDelimiting.append str_selfDelimiting)))).comp hview).injective

/-- No message is signed with the bytes of a record that has no more addresses than a
record may have. -/
theorem computeSignableBytes_ne (signable : Signable) {record : SignedAddressRecord}
    (hlength : record.records.length ≤ maxTransportAddressRecords) :
    computeSignableBytes signable ≠ record.signableBytes := by
  intro heq
  -- The protocol is the domain of the records, and the data is the text of the owner.
  obtain ⟨-, hafterProtocol⟩ := str_selfDelimiting _ _ _ _ heq
  obtain ⟨-, hafterData⟩ := bytes_selfDelimiting _ _ _ _ hafterProtocol
  -- The sender stands where the record has its sequence and its number of addresses.
  rw [str, bytes, PeerId.length_utf8_toHex, append_assoc] at hafterData
  obtain ⟨-, hafterSequence⟩ := varint_selfDelimiting _ _ _ _ hafterData
  obtain ⟨digits, hdigits⟩ := PeerId.utf8_toHex_cons signable.fromPeer
  have hbounds := PeerId.hexByte_bounds (PeerId.nibbleAt signable.fromPeer 0)
  generalize PeerId.hexByte (PeerId.nibbleAt signable.fromPeer 0) = digit
    at hdigits hbounds
  have hdigit : varint digit.toNat = [digit] := by
    rw [varint_of_lt hbounds.2, UInt8.ofNat_toNat]
  rw [hdigits, seq, cons_append, ← singleton_append, ← hdigit] at hafterSequence
  have hcount := (varint_selfDelimiting _ _ _ _ hafterSequence).1
  rw [maxTransportAddressRecords] at hlength
  omega

/-! ## One key for both -/

/-- The bytes of the address plane as those of the transport. -/
def ofAddressBytes (content : List Byte) : Bytes := content.map UInt8.ofBitVec

def toAddressBytes (content : Bytes) : List Byte := content.map UInt8.toBitVec

theorem ofAddressBytes_toAddressBytes (content : Bytes) :
    ofAddressBytes (toAddressBytes content) = content := by
  simp [ofAddressBytes, toAddressBytes, Function.comp_def]

theorem toAddressBytes_ofAddressBytes (content : List Byte) :
    toAddressBytes (ofAddressBytes content) = content := by
  simp [ofAddressBytes, toAddressBytes, Function.comp_def]

namespace WireFormat

variable {Key Signature : Type*} (format : WireFormat Key Signature)

/-- Records are verified by the functions that verify messages. -/
def addressSignatures : AddressSignatures :=
  { signableBytes := fun domain owner sequence records =>
      some (toAddressBytes (SignedAddressRecord.signedTuple domain owner sequence records))
    peerIdFromPublicKey := fun key =>
      (format.publicKeyFromBytes (ofAddressBytes key)).map format.peerIdFromPublicKey
    isSignature := fun signature =>
      (format.signatureFromBytes (ofAddressBytes signature)).isSome
    mlDsaVerify := fun key content signature =>
      match format.publicKeyFromBytes (ofAddressBytes key),
        format.signatureFromBytes (ofAddressBytes signature) with
      | some key, some signature =>
        format.mlDsaVerify key (ofAddressBytes content) signature
      | _, _ => none }

/-- The message tuple is encoded by Postcard, and a signature verifies only for the
bytes it was made for. -/
structure Binds (Made : Key → Bytes → Signature → Prop) : Prop where
  signable : ∀ signable, format.signableBytes signable = some (computeSignableBytes signable)
  binding : ∀ {key content other signature}, Made key content signature →
    format.mlDsaVerify key other signature = some true → other = content

variable {format} {Made : Key → Bytes → Signature → Prop} {key : Key} {signature : Signature}

/-- A record whose signature was made for some bytes verifies only if these are its
own. -/
theorem Binds.record_signed (hbinds : format.Binds Made) {content : Bytes}
    (hmade : Made key content signature) {wire : AddressWire}
    {record : SignedAddressRecord} {proof : VerifiedAddressRecord}
    (hkey : format.publicKeyFromBytes (ofAddressBytes record.publicKey) = some key)
    (hsignature : format.signatureFromBytes (ofAddressBytes record.signature) = some signature)
    (hverify : record.verify wire format.addressSignatures = .ok proof) :
    record.validate wire = .ok () ∧ record.signableBytes = content := by
  obtain ⟨hvalid, signed, hsigned, hchecked⟩ := verify_checked hverify
  cases hsigned
  simp only [addressSignatures, hkey, hsignature, ofAddressBytes_toAddressBytes] at hchecked
  exact ⟨hvalid, hbinds.binding hmade hchecked⟩

/-- A message whose signature was made for some bytes verifies only if these are its
own. -/
theorem Binds.message_signed (hbinds : format.Binds Made) {content : Bytes}
    (hmade : Made key content signature) {message : WireMessage} {peer : PeerId}
    (hkey : format.publicKeyFromBytes message.publicKey = some key)
    (hsignature : format.signatureFromBytes message.signature = some signature)
    (hverify : format.verifyMessageSignature message = .ok peer) :
    computeSignableBytes message.signable = content := by
  rw [verifyMessageSignature, hkey] at hverify
  simp only [hbinds.signable, hsignature] at hverify
  split at hverify
  · cases hverify
  · split at hverify
    · cases hverify
    · next valid hvalid =>
        split at hverify
        · next htrue => exact hbinds.binding hmade (htrue ▸ hvalid)
        · cases hverify

end WireFormat

/-- The signed bytes of a message determine what is signed, those of an address record
its owner, sequence and records, and no message shares them with a valid record.  With a
signature scheme that binds a signature to its bytes, a signature made for a message
verifies no record, and one made for a valid record verifies no message. -/
theorem signedBytes_separate {Key Signature : Type*} {format : WireFormat Key Signature}
    {Made : Key → Bytes → Signature → Prop} (hbinds : format.Binds Made)
    (wire : AddressWire) :
    Function.Injective computeSignableBytes
      ∧ (∀ left right : SignedAddressRecord, left.signableBytes = right.signableBytes →
        left.owner = right.owner ∧ left.sequence = right.sequence
          ∧ left.records = right.records)
      ∧ (∀ (signable : Signable) (record : SignedAddressRecord),
        record.validate wire = .ok () →
          computeSignableBytes signable ≠ record.signableBytes)
      ∧ (∀ key signable signature, Made key (computeSignableBytes signable) signature →
        ∀ (record : SignedAddressRecord) proof,
          format.publicKeyFromBytes (ofAddressBytes record.publicKey) = some key →
          format.signatureFromBytes (ofAddressBytes record.signature) = some signature →
            record.verify wire format.addressSignatures ≠ .ok proof)
      ∧ ∀ key (record : SignedAddressRecord) signature, record.validate wire = .ok () →
        Made key record.signableBytes signature →
        ∀ message peer, format.publicKeyFromBytes message.publicKey = some key →
          format.signatureFromBytes message.signature = some signature →
            format.verifyMessageSignature message ≠ .ok peer := by
  have hdisjoint : ∀ (signable : Signable) (record : SignedAddressRecord),
      record.validate wire = .ok () → computeSignableBytes signable ≠ record.signableBytes :=
    fun signable record hvalid =>
      computeSignableBytes_ne signable (validate_length hvalid)
  refine ⟨computeSignableBytes_injective,
    fun left right heq => signableBytes_inj heq, hdisjoint, ?_, ?_⟩
  · intro key signable signature hmade record proof hkey hsignature hverify
    obtain ⟨hvalid, hsame⟩ := hbinds.record_signed hmade hkey hsignature hverify
    exact hdisjoint signable record hvalid hsame.symm
  · intro key record signature hvalid hmade message peer hkey hsignature hverify
    have hsame := hbinds.message_signed hmade hkey hsignature hverify
    exact hdisjoint message.signable record hvalid hsame

/-- A scheme in which a signature is the signed bytes, with one key. -/
def plainFormat : WireFormat Unit Bytes :=
  { decode := fun _ => none
    signableBytes := fun signable => some (computeSignableBytes signable)
    publicKeyFromBytes := fun _ => some ()
    peerIdFromPublicKey := fun _ => 0
    signatureFromBytes := some
    mlDsaVerify := fun _ content signature => some (content == signature) }

theorem plainFormat_binds : plainFormat.Binds fun _ content signature => signature = content := by
  constructor
  · exact fun _ => rfl
  · intro key content other signature hmade hverify
    have hsame : (other == signature) = true := Option.some.inj hverify
    rw [beq_iff_eq.mp hsame, hmade]

/-- A record with one address of an unknown transport. -/
def plainRecord : SignedAddressRecord :=
  { owner := 0
    sequence := 64
    records := [{ transport := 900, reachability := 901, address := [1, 2, 3] }]
    publicKey := []
    signature := [] }

/-- No address is known to this encoding. -/
def noAddresses : AddressWire :=
  { decode := fun _ => none
    encode := fun _ => none }

theorem plainRecord_separate :
    plainRecord.validate noAddresses = .ok ()
      ∧ ∀ message peer, message.signature = plainRecord.signableBytes →
        plainFormat.verifyMessageSignature message ≠ .ok peer := by
  have hvalid : plainRecord.validate noAddresses = .ok () := by
    rfl
  refine ⟨hvalid, fun message peer hsignature => ?_⟩
  exact (signedBytes_separate plainFormat_binds noAddresses).2.2.2.2 () plainRecord
    plainRecord.signableBytes hvalid rfl message peer rfl (congrArg some hsignature)

end Transport

end SaorsaCore
