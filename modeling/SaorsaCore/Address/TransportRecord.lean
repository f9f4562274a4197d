import SaorsaCore.Address.MultiAddr

/-!
# Versioned transport address records

A V2 publication is a list of records that carry numeric transport and
reachability identifiers and an opaque payload.  The payload of a known
transport is a Postcard-encoded `MultiAddr`; the encoding belongs to a
third-party library and enters as the parameter `AddressCodec`.
-/

namespace SaorsaCore

abbrev Byte := BitVec 8

inductive KnownTransport where
  | quic
  | webRtcDirect
  deriving DecidableEq, Repr

namespace KnownTransport

def id : KnownTransport → BitVec 16
  | quic => 1
  | webRtcDirect => 2

def fromId (id : BitVec 16) : Option KnownTransport :=
  if id = 1 then some quic
  else if id = 2 then some webRtcDirect
  else none

theorem fromId_eq_some_iff (id : BitVec 16) (transport : KnownTransport) :
    fromId id = some transport ↔ transport.id = id := by
  cases transport <;> simp only [fromId, KnownTransport.id] <;>
    split_ifs <;> simp_all [eq_comm]

end KnownTransport

/-- `KnownReachability` with its stable identifiers, read as the address type
of the V1 address plane. -/
def reachabilityFromId (id : BitVec 16) : Option AddressType :=
  if id = 1 then some .relay
  else if id = 2 then some .direct
  else if id = 3 then some .unverified
  else if id = 4 then some .lan
  else none

structure TransportAddressRecord where
  transport : BitVec 16
  reachability : BitVec 16
  address : List Byte
  deriving DecidableEq, Repr

/-- `postcard::from_bytes` at type `MultiAddr`; `none` is a decoding error. -/
structure AddressCodec where
  decode : List Byte → Option MultiAddr

inductive DecodeError where
  | postcard
  deriving DecidableEq, Repr

def MultiAddr.isWebRtcDirect (address : MultiAddr) : Bool :=
  match address.transport with
  | .webRtcDirect _ _ => true
  | _ => false

namespace TransportAddressRecord

/-- Decode the payload of a known transport.  An unknown transport, or a payload
of another transport than the one declared, gives no address. -/
def decodeKnown (codec : AddressCodec) (record : TransportAddressRecord) :
    Except DecodeError (Option MultiAddr) :=
  match KnownTransport.fromId record.transport with
  | none => .ok none
  | some transport =>
    match codec.decode record.address with
    | none => .error .postcard
    | some address =>
      let matchesTransport :=
        match transport with
        | .quic => address.isQuic
        | .webRtcDirect => address.isWebRtcDirect
      .ok (if matchesTransport then some address else none)

/-- The address of a record, with decoding errors and unknown transports
alike read as no address. -/
def knownAddress (codec : AddressCodec) (record : TransportAddressRecord) : Option MultiAddr :=
  match record.decodeKnown codec with
  | .ok address => address
  | .error _ => none

end TransportAddressRecord

/-- Original immutable publication, including the owner's identity proof. -/
structure SignedAddressRecord where
  owner : PeerId
  sequence : ℕ
  records : List TransportAddressRecord
  publicKey : List Byte
  signature : List Byte
  deriving DecidableEq, Repr

/-- A publication that passed verification; the source builds one only in
`SignedAddressRecord::verify`. -/
structure VerifiedAddressRecord where
  signed : SignedAddressRecord
  deriving DecidableEq, Repr

namespace VerifiedAddressRecord

def owner (record : VerifiedAddressRecord) : PeerId := record.signed.owner

def sequence (record : VerifiedAddressRecord) : ℕ := record.signed.sequence

def records (record : VerifiedAddressRecord) : List TransportAddressRecord :=
  record.signed.records

end VerifiedAddressRecord

end SaorsaCore
