/-
# Socket addresses (`std::net`)

The address types of `std::net`, and what the programs ask of them.

Addresses are numbers of 32 bits or sixteen octets, socket addresses add a port and, for
IPv6, a flow label and a scope.  `toCanonical` gives an IPv4-mapped address as what it maps.
-/
import IrohExperiment.Rust.Exec

namespace IrohExperiment.Rust

/-- `Ipv4Addr`, as the `u32` it converts to. -/
structure Ipv4Addr where
  bits : UInt32
  deriving DecidableEq, Repr

/-- `Ipv6Addr`. -/
structure Ipv6Addr where
  octets : Bytes
  length_eq : octets.length = 16
  deriving DecidableEq, Repr

/-- `IpAddr`. -/
inductive IpAddr where
  | v4 (ip : Ipv4Addr)
  | v6 (ip : Ipv6Addr)
  deriving DecidableEq, Repr

/-- `SocketAddr`. -/
inductive SocketAddr where
  | v4 (ip : Ipv4Addr) (port : UInt16)
  | v6 (ip : Ipv6Addr) (port : UInt16) (flowinfo scopeId : UInt32)
  deriving DecidableEq, Repr

/-- The first octet of an IPv4 address. -/
def Ipv4Addr.firstOctet (ip : Ipv4Addr) : UInt8 := (ip.bits >>> 24).toUInt8

/-- `Ipv6Addr::to_ipv4_mapped`: the address in `::ffff:a.b.c.d`. -/
def Ipv6Addr.toIpv4Mapped (ip : Ipv6Addr) : Option Ipv4Addr :=
  match ip.octets.drop 12 with
  | [a, b, c, d] =>
    if ip.octets.take 12 = List.replicate 10 0 ++ [0xff, 0xff] then some ⟨u32FromBe a b c d⟩
    else none
  | _ => none

namespace IpAddr

/-- `IpAddr::to_canonical`. -/
def toCanonical : IpAddr → IpAddr
  | .v4 ip => .v4 ip
  | .v6 ip =>
    match ip.toIpv4Mapped with
    | some mapped => .v4 mapped
    | none => .v6 ip

/-- `IpAddr::is_unspecified`. -/
def isUnspecified : IpAddr → Bool
  | .v4 ip => ip.bits = 0
  | .v6 ip => ip.octets = List.replicate 16 0

/-- `IpAddr::is_multicast`. -/
def isMulticast : IpAddr → Bool
  | .v4 ip => ip.firstOctet &&& 0xf0 = 0xe0
  | .v6 ip => ip.octets.head? = some 0xff

end IpAddr

namespace SocketAddr

/-- `SocketAddr::new`. -/
def new (ip : IpAddr) (port : UInt16) : SocketAddr :=
  match ip with
  | .v4 ip => .v4 ip port
  | .v6 ip => .v6 ip port 0 0

/-- `SocketAddr::ip`. -/
def ip : SocketAddr → IpAddr
  | .v4 ip _ => .v4 ip
  | .v6 ip _ _ _ => .v6 ip

/-- `SocketAddr::port`. -/
def port : SocketAddr → UInt16
  | .v4 _ port => port
  | .v6 _ port _ _ => port

/-- `SocketAddr::is_ipv4`. -/
def isIpv4 : SocketAddr → Bool
  | .v4 .. => true
  | .v6 .. => false

@[simp] theorem new_ip (ip : IpAddr) (port : UInt16) : (new ip port).ip = ip := by
  cases ip <;> rfl

@[simp] theorem new_port (ip : IpAddr) (port : UInt16) : (new ip port).port = port := by
  cases ip <;> rfl

end SocketAddr

end IrohExperiment.Rust
