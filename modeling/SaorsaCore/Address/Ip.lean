import Mathlib

/-!
# IP addresses

The predicates of `std::net` and of `address.rs` and `security.rs` that the
routing table consults: loopback, unspecified and multicast addresses, local
scope, canonicalisation of IPv4-mapped IPv6 addresses, and the subnet masks
behind the diversity limits.  Addresses are the big-endian numbers of their
octets.
-/

namespace SaorsaCore

abbrev Ipv4Addr := BitVec 32

abbrev Ipv6Addr := BitVec 128

namespace Ipv4Addr

def octet (ip : Ipv4Addr) (index : ℕ) : BitVec 8 :=
  ip.extractLsb' (8 * (3 - index)) 8

def isUnspecified (ip : Ipv4Addr) : Bool := ip == 0#32

/-- `127.0.0.0/8` -/
def isLoopback (ip : Ipv4Addr) : Bool := octet ip 0 == 127#8

/-- `224.0.0.0/4` -/
def isMulticast (ip : Ipv4Addr) : Bool := octet ip 0 &&& 0xf0#8 == 0xe0#8

/-- `10.0.0.0/8`, `172.16.0.0/12` and `192.168.0.0/16` -/
def isPrivate (ip : Ipv4Addr) : Bool :=
  octet ip 0 == 10#8
    || (octet ip 0 == 172#8 && octet ip 1 &&& 0xf0#8 == 16#8)
    || (octet ip 0 == 192#8 && octet ip 1 == 168#8)

/-- `169.254.0.0/16` -/
def isLinkLocal (ip : Ipv4Addr) : Bool :=
  octet ip 0 == 169#8 && octet ip 1 == 254#8

def isLan (ip : Ipv4Addr) : Bool :=
  isLoopback ip || isPrivate ip || isLinkLocal ip
    || (octet ip 0 == 100#8 && octet ip 1 &&& 0xc0#8 == 64#8)

/-- `mask_ipv4`: zero the host bits beyond the prefix length. -/
def mask (ip : Ipv4Addr) (prefixLength : ℕ) : Ipv4Addr :=
  ip &&& (if prefixLength ≥ 32 then BitVec.allOnes 32
    else BitVec.allOnes 32 <<< (32 - prefixLength))

end Ipv4Addr

namespace Ipv6Addr

def octet (ip : Ipv6Addr) (index : ℕ) : BitVec 8 :=
  ip.extractLsb' (8 * (15 - index)) 8

def isUnspecified (ip : Ipv6Addr) : Bool := ip == 0#128

/-- Only `::1`; an IPv4-mapped `127.0.0.1` is not a loopback here. -/
def isLoopback (ip : Ipv6Addr) : Bool := ip == 1#128

/-- `ff00::/8` -/
def isMulticast (ip : Ipv6Addr) : Bool := octet ip 0 == 0xff#8

/-- The IPv4 address behind `::ffff:a.b.c.d`. -/
def toIpv4Mapped (ip : Ipv6Addr) : Option Ipv4Addr :=
  if ip.extractLsb' 32 96 == 0xffff#96 then some (ip.extractLsb' 0 32)
  else none

def isLan (ip : Ipv6Addr) : Bool :=
  isLoopback ip || octet ip 0 &&& 0xfe#8 == 0xfc#8
    || (octet ip 0 == 0xfe#8 && octet ip 1 &&& 0xc0#8 == 0x80#8)

/-- `mask_ipv6`: zero the host bits beyond the prefix length. -/
def mask (ip : Ipv6Addr) (prefixLength : ℕ) : Ipv6Addr :=
  ip &&& (if prefixLength ≥ 128 then BitVec.allOnes 128
    else BitVec.allOnes 128 <<< (128 - prefixLength))

end Ipv6Addr

inductive IpAddr where
  | v4 (ip : Ipv4Addr)
  | v6 (ip : Ipv6Addr)
  deriving DecidableEq, Repr

namespace IpAddr

def isIpv4 : IpAddr → Bool
  | v4 _ => true
  | v6 _ => false

def isUnspecified : IpAddr → Bool
  | v4 ip => ip.isUnspecified
  | v6 ip => ip.isUnspecified

def isLoopback : IpAddr → Bool
  | v4 ip => ip.isLoopback
  | v6 ip => ip.isLoopback

def isMulticast : IpAddr → Bool
  | v4 ip => ip.isMulticast
  | v6 ip => ip.isMulticast

/-- `is_lan_ip`: an IPv4-mapped IPv6 address is judged as its IPv4 address. -/
def isLan : IpAddr → Bool
  | v4 ip => ip.isLan
  | v6 ip =>
    match ip.toIpv4Mapped with
    | some ip => ip.isLan
    | none => ip.isLan

/-- `canonicalize_ip`: replace an IPv4-mapped IPv6 address by its IPv4
address. -/
def canonicalize : IpAddr → IpAddr
  | v4 ip => v4 ip
  | v6 ip =>
    match ip.toIpv4Mapped with
    | some ip => v4 ip
    | none => v6 ip

@[simp]
theorem canonicalize_canonicalize (ip : IpAddr) :
    ip.canonicalize.canonicalize = ip.canonicalize := by
  cases ip with
  | v4 ip => rfl
  | v6 ip => cases hmapped : ip.toIpv4Mapped <;> simp [canonicalize, hmapped]

/-- Local scope is judged on the canonical form. -/
@[simp]
theorem isLan_canonicalize (ip : IpAddr) : ip.canonicalize.isLan = ip.isLan := by
  cases ip with
  | v4 ip => rfl
  | v6 ip => cases hmapped : ip.toIpv4Mapped <;> simp [canonicalize, isLan, hmapped]

/-- The subnet the diversity limits count by: `/24` for IPv4, `/48` for
IPv6. -/
def subnet : IpAddr → IpAddr
  | v4 ip => v4 (ip.mask 24)
  | v6 ip => v6 (ip.mask 48)

end IpAddr

end SaorsaCore
