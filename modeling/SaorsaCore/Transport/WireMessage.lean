import SaorsaCore.Identity

/-!
# Signed wire messages

`parse_protocol_message` decodes the bytes received on a channel and, if the message
carries a signature, verifies it.  The encoding and the signature scheme come from
other libraries and are parameters here.  What is signed is the protocol, the payload,
the sender, the time and the user agent; neither the recipient nor the channel is part
of it.
-/

namespace SaorsaCore.Transport

abbrev Bytes := List UInt8

structure WireMessage where
  protocol : String
  data : Bytes
  fromPeer : PeerId
  timestamp : UInt64
  userAgent : String
  publicKey : Bytes
  signature : Bytes
  deriving DecidableEq, Repr

/-- The fields that are signed, in the order in which they are encoded. -/
structure Signable where
  protocol : String
  data : Bytes
  fromPeer : PeerId
  timestamp : UInt64
  userAgent : String
  deriving DecidableEq, Repr

def WireMessage.signable (message : WireMessage) : Signable :=
  ⟨message.protocol, message.data, message.fromPeer, message.timestamp, message.userAgent⟩

/-- The encoding (postcard) and the signature scheme (ML-DSA-65), with the derivation
of a peer id from a public key. -/
structure WireFormat (Key Signature : Type*) where
  decode : Bytes → Option WireMessage
  signableBytes : Signable → Option Bytes
  publicKeyFromBytes : Bytes → Option Key
  peerIdFromPublicKey : Key → PeerId
  signatureFromBytes : Bytes → Option Signature
  mlDsaVerify : Key → Bytes → Signature → Option Bool

inductive VerifyError
  | invalidPublicKey
  | fromMismatch (claimed derived : PeerId)
  | signableFailed
  | invalidSignature
  | verificationFailed
  | signatureInvalid
  deriving DecidableEq, Repr

/-- What a message is parsed to: the fields of the event that is broadcast, the
authenticated sender, the user agent and the length of the payload. -/
structure ParsedMessage where
  topic : String
  source : Option PeerId
  timestamp : UInt64
  data : Bytes
  authenticatedNodeId : Option PeerId
  userAgent : String
  payloadLen : ℕ
  deriving DecidableEq, Repr

namespace WireFormat

variable {Key Signature : Type*} (format : WireFormat Key Signature)

def verifyMessageSignature (message : WireMessage) : Except VerifyError PeerId :=
  match format.publicKeyFromBytes message.publicKey with
  | none => .error .invalidPublicKey
  | some key =>
    let peerId := format.peerIdFromPublicKey key
    if message.fromPeer ≠ peerId then
      .error (.fromMismatch message.fromPeer peerId)
    else
      match format.signableBytes message.signable with
      | none => .error .signableFailed
      | some signable =>
        match format.signatureFromBytes message.signature with
        | none => .error .invalidSignature
        | some signature =>
          match format.mlDsaVerify key signable signature with
          | none => .error .verificationFailed
          | some valid => if valid then .ok peerId else .error .signatureInvalid

/-- An unsigned message is accepted without a sender, a message with a signature that
does not verify is rejected. -/
def parseProtocolMessage (bytes : Bytes) : Option ParsedMessage :=
  match format.decode bytes with
  | none => none
  | some message =>
    let parsed (authenticated : Option PeerId) : ParsedMessage :=
      { topic := message.protocol
        source := authenticated
        timestamp := message.timestamp
        data := message.data
        authenticatedNodeId := authenticated
        userAgent := message.userAgent
        payloadLen := message.data.length }
    if message.signature.isEmpty then some (parsed none)
    else
      match format.verifyMessageSignature message with
      | .error _ => none
      | .ok peerId => some (parsed (some peerId))

variable {format} {message : WireMessage} {peer : PeerId}

/-- The signature that was verified is one of the key the sender is named after, on
the signed bytes of the message. -/
theorem verifyMessageSignature_eq_ok (hok : format.verifyMessageSignature message = .ok peer) :
    ∃ key signable signature, format.publicKeyFromBytes message.publicKey = some key ∧
      format.peerIdFromPublicKey key = peer ∧ message.fromPeer = peer ∧
      format.signableBytes message.signable = some signable ∧
      format.signatureFromBytes message.signature = some signature ∧
      format.mlDsaVerify key signable signature = some true := by
  rw [verifyMessageSignature] at hok
  split at hok
  · cases hok
  · next key hkey =>
      simp only at hok
      split at hok
      · cases hok
      · next hfrom =>
          split at hok
          · cases hok
          · next signable hsignable =>
              split at hok
              · cases hok
              · next signature hsignature =>
                  split at hok
                  · cases hok
                  · next valid hvalid =>
                      split at hok
                      · next htrue =>
                          cases hok
                          exact ⟨key, signable, signature, hkey, rfl,
                            not_not.mp hfrom, hsignable, hsignature, htrue ▸ hvalid⟩
                      · cases hok

theorem parseProtocolMessage_authenticated {bytes : Bytes} {parsed : ParsedMessage}
    (hparse : format.parseProtocolMessage bytes = some parsed)
    (hpeer : parsed.authenticatedNodeId = some peer) :
    ∃ message, format.decode bytes = some message ∧
      format.verifyMessageSignature message = .ok peer := by
  rw [parseProtocolMessage] at hparse
  split at hparse
  · cases hparse
  · next message hdecode =>
      simp only at hparse
      split at hparse
      · cases hparse
        cases hpeer
      · split at hparse
        · cases hparse
        · next verified hverified =>
            cases hparse
            cases hpeer
            exact ⟨message, hdecode, hverified⟩

end WireFormat

end SaorsaCore.Transport
