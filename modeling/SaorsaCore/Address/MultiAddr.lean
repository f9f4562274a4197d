import SaorsaCore.Address.Ip
import SaorsaCore.Identity

/-!
# Multi-transport addresses and their type tags

`MultiAddr` wraps a transport address with an optional peer identity.  The
routing table only asks which IP address a transport address carries, whether
it may be stored at all, and which tag it is allowed to be advertised under.
-/

namespace SaorsaCore

inductive SocketAddr where
  | v4 (ip : Ipv4Addr) (port : BitVec 16)
  | v6 (ip : Ipv6Addr) (port : BitVec 16) (flowinfo scopeId : BitVec 32)
  deriving DecidableEq, Repr

namespace SocketAddr

def ip : SocketAddr → IpAddr
  | v4 ip _ => .v4 ip
  | v6 ip _ _ _ => .v6 ip

def port : SocketAddr → BitVec 16
  | v4 _ port => port
  | v6 _ port _ _ => port

end SocketAddr

/-- The transports of `saorsa_transport::TransportAddr` that the address parser
names.  Only the first four carry an IP socket. -/
inductive TransportAddr where
  | quic (socket : SocketAddr)
  | tcp (socket : SocketAddr)
  | udp (socket : SocketAddr)
  | webRtcDirect (socket : SocketAddr) (certificateHash : List (BitVec 8))
  | bluetooth (mac : BitVec 48) (channel : BitVec 8)
  | ble (mac : BitVec 48) (psm : BitVec 16)
  | loRa (devAddr : BitVec 32) (frequency : BitVec 32)
  | loRaWan (devEui : BitVec 64)
  deriving DecidableEq, Repr

structure MultiAddr where
  transport : TransportAddr
  peerId : Option PeerId
  deriving DecidableEq, Repr

namespace MultiAddr

def quic (socket : SocketAddr) : MultiAddr := ⟨.quic socket, none⟩

def isQuic (address : MultiAddr) : Bool :=
  match address.transport with
  | .quic _ => true
  | _ => false

def socketAddr (address : MultiAddr) : Option SocketAddr :=
  match address.transport with
  | .quic socket => some socket
  | .tcp socket => some socket
  | .udp socket => some socket
  | .webRtcDirect socket _ => some socket
  | _ => none

def ip (address : MultiAddr) : Option IpAddr :=
  address.socketAddr.map SocketAddr.ip

/-- Wildcard addresses and port zero are never stored; addresses without an IP
socket always may be. -/
def isStorable (address : MultiAddr) : Bool :=
  match address.socketAddr with
  | none => true
  | some socket => !socket.ip.isUnspecified && socket.port != 0

/-- The IP the diversity limits see. -/
def canonicalIp (address : MultiAddr) : Option IpAddr :=
  address.ip.map IpAddr.canonicalize

end MultiAddr

/-- Address classification, from the most to the least preferred tag. -/
inductive AddressType where
  | relay
  | direct
  | unverified
  | lan
  deriving DecidableEq, Repr

namespace AddressType

def priority : AddressType → ℕ
  | relay => 0
  | direct => 1
  | unverified => 2
  | lan => 3

/-- A local-scope address is only ever accepted as `lan`, whatever its
publisher claims. -/
def forAdvertisedAddress (address : MultiAddr) (advertised : AddressType) : AddressType :=
  if address.ip.any IpAddr.isLan then lan else advertised

@[simp]
theorem forAdvertisedAddress_idem (address : MultiAddr) (advertised : AddressType) :
    forAdvertisedAddress address (forAdvertisedAddress address advertised) =
      forAdvertisedAddress address advertised := by
  simp only [forAdvertisedAddress]
  split <;> rfl

end AddressType

/-! ## Normalized sockets

`saorsa_transport::shared::normalize_socket_addr` is a parameter of the model.  What the
results need of it is that a socket at an IPv4-mapped IPv6 address becomes the IPv4 socket,
with the same port, and that no other IP address changes. -/

structure Unmaps (normalize : SocketAddr → SocketAddr) : Prop where
  ip : ∀ socket, (normalize socket).ip = socket.ip.canonicalize
  port : ∀ socket, (normalize socket).port = socket.port

/-- Such a function: other sockets stay as they are. -/
def SocketAddr.unmap (socket : SocketAddr) : SocketAddr :=
  match socket.ip.canonicalize with
  | .v4 ip => .v4 ip socket.port
  | .v6 _ => socket

theorem SocketAddr.unmaps_unmap : Unmaps SocketAddr.unmap := by
  constructor
  · intro socket
    cases socket with
    | v4 ip port => rfl
    | v6 ip port flowinfo scopeId =>
      cases hmapped : ip.toIpv4Mapped <;>
        simp [SocketAddr.unmap, SocketAddr.ip, IpAddr.canonicalize, hmapped]
  · intro socket
    rw [SocketAddr.unmap]
    split <;> rfl

end SaorsaCore
