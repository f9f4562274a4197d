import SaorsaCore.Address.TransportRecord

/-!
# Owner-signed address records

A signed record carries the complete address set of its owner.  It is verified
before any of its fields is used: sequence and sizes, the addresses it decodes to,
the key the owner is named after and the signature.  The encoding and the signature
scheme come from other libraries and enter as `AddressSignatures` and `AddressWire`.
-/

namespace SaorsaCore

def maxTransportAddressPayload : ℕ := 2 * 1024

def maxTransportAddressRecords : ℕ := 16

/-- Both directions of the Postcard encoding of `MultiAddr`; `none` is an error. -/
structure AddressWire extends AddressCodec where
  encode : MultiAddr → Option (List Byte)

/-- The stable identifier of a reachability class. -/
def reachabilityId : AddressType → BitVec 16
  | .relay => 1
  | .direct => 2
  | .unverified => 3
  | .lan => 4

namespace TransportAddressRecord

/-- `from_multiaddr`: the record of a QUIC or WebRTC Direct address, and nothing for other
transports; the outer `none` is an encoding error. -/
def fromMultiaddr (encode : MultiAddr → Option (List Byte)) (address : MultiAddr)
    (reachability : AddressType) : Option (Option TransportAddressRecord) :=
  let record (transport : KnownTransport) (reachability : AddressType) :=
    (encode address).map fun payload =>
      some
        { transport := transport.id
          reachability := reachabilityId reachability
          address := payload }
  if address.isQuic then record .quic reachability
  else if address.isWebRtcDirect then record .webRtcDirect .unverified
  else some none

def legacyReachability (record : TransportAddressRecord) : Option AddressType :=
  reachabilityFromId record.reachability

def isWithinWireBounds (record : TransportAddressRecord) : Bool :=
  !record.address.isEmpty && record.address.length ≤ maxTransportAddressPayload

end TransportAddressRecord

/-! ## Verification -/

/-- The signed bytes (postcard), the key a peer is named after and the signature
check (ML-DSA-65). -/
structure AddressSignatures where
  signableBytes : String → PeerId → ℕ → List TransportAddressRecord → Option (List Byte)
  peerIdFromPublicKey : List Byte → Option PeerId
  isSignature : List Byte → Bool
  mlDsaVerify : List Byte → List Byte → List Byte → Option Bool

/-- Texts of the source; the errors of the libraries are only named. -/
inductive RecordError where
  | invalid (message : String)
  | decode (cause : DecodeError)
  | encode
  | publicKey
  | signature
  | verification
  deriving DecidableEq, Repr

namespace SignedAddressRecord

def domain : String := "saorsa/address-record/2"

variable (wire : AddressWire) (signatures : AddressSignatures)

/-- One pass of the loop in `validate`. -/
def validateRecord (owner : PeerId) (record : TransportAddressRecord) : Except RecordError Unit :=
  if record.address.isEmpty || maxTransportAddressPayload < record.address.length then
    .error (.invalid "address record payload exceeds bounds")
  else
    match record.decodeKnown wire.toAddressCodec with
    | .error cause => .error (.decode cause)
    | .ok (some address) =>
      if !address.isStorable then
        .error (.invalid "address is not a dialable destination")
      else if address.peerId.any (· != owner)
          || (address.isWebRtcDirect && address.peerId != some owner) then
        .error (.invalid "address owner mismatch")
      else .ok ()
    | .ok none =>
      if (KnownTransport.fromId record.transport).isSome then
        .error (.invalid "address does not match transport identifier")
      else .ok ()

def validate (record : SignedAddressRecord) : Except RecordError Unit :=
  if record.sequence = 0 || record.records.isEmpty
      || maxTransportAddressRecords < record.records.length then
    .error (.invalid "invalid address record sequence or cardinality")
  else record.records.forM (validateRecord wire record.owner)

/-- The checks of `verify` after `validate`. -/
def verifySignature (record : SignedAddressRecord) : Except RecordError VerifiedAddressRecord :=
  match signatures.peerIdFromPublicKey record.publicKey with
  | none => .error .publicKey
  | some peer =>
    if peer ≠ record.owner then
      .error (.invalid "address signing key does not match owner")
    else if !signatures.isSignature record.signature then .error .signature
    else
      match signatures.signableBytes domain record.owner record.sequence record.records with
      | none => .error .encode
      | some bytes =>
        match signatures.mlDsaVerify record.publicKey bytes record.signature with
        | none => .error .verification
        | some true => .ok ⟨record⟩
        | some false => .error (.invalid "invalid address record signature")

def verify (record : SignedAddressRecord) : Except RecordError VerifiedAddressRecord :=
  match record.validate wire with
  | .error cause => .error cause
  | .ok () => record.verifySignature signatures

variable {wire signatures} {record : SignedAddressRecord} {proof : VerifiedAddressRecord}

theorem signed_of_verifySignature
    (hverify : record.verifySignature signatures = .ok proof) : proof.signed = record := by
  rw [verifySignature] at hverify
  split at hverify
  · cases hverify
  · split at hverify
    · cases hverify
    · split at hverify
      · cases hverify
      · split at hverify
        · cases hverify
        · split at hverify <;> cases hverify
          rfl

/-- A verified record is the record that was checked, with a nonzero sequence. -/
theorem verify_eq_ok (hverify : record.verify wire signatures = .ok proof) :
    proof.signed = record ∧ proof.sequence ≠ 0 := by
  rw [verify] at hverify
  split at hverify
  · cases hverify
  · next hvalid =>
      have hsigned := signed_of_verifySignature hverify
      refine ⟨hsigned, ?_⟩
      rw [VerifiedAddressRecord.sequence, hsigned]
      intro hzero
      rw [validate, if_pos (by simp [hzero])] at hvalid
      cases hvalid

theorem forM_eq_ok {A E : Type*} {check : A → Except E Unit} {items : List A}
    (hchecked : items.forM check = .ok ()) : ∀ item ∈ items, check item = .ok () := by
  induction items with
  | nil => simp
  | cons first rest ih =>
    rw [List.forM] at hchecked
    cases hfirst : check first with
    | error cause =>
      rw [hfirst] at hchecked
      cases hchecked
    | ok value =>
      rw [hfirst] at hchecked
      simpa [hfirst] using ih hchecked

/-- The records of a verified publication have passed the checks one by one. -/
theorem validateRecord_of_verify (hverify : record.verify wire signatures = .ok proof) :
    record.records.length ≤ maxTransportAddressRecords ∧
      ∀ item ∈ record.records, validateRecord wire record.owner item = .ok () := by
  rw [verify] at hverify
  split at hverify
  · cases hverify
  · next hvalid =>
      rw [validate] at hvalid
      split at hvalid
      · cases hvalid
      · next hbounds =>
          simp only [Bool.or_eq_true, decide_eq_true_eq, not_or, not_lt] at hbounds
          exact ⟨hbounds.2, forM_eq_ok hvalid⟩

end SignedAddressRecord

end SaorsaCore
