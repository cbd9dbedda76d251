import NexusVPN.Basic

/-! # Addresses

    What the control plane and the client share of package `net`. -/

namespace NexusVPN

/-- `v4InV6Prefix`. -/
def v4InV6 : Bytes := List.replicate 10 0 ++ [0xff, 0xff]

/-- `IP.To4`. -/
def to4 (ip : Bytes) : Option Bytes :=
  if ip.length = 4 then some ip
  else if ip.length = 16 ∧ ip.take 12 = v4InV6 then some (ip.drop 12)
  else none

/-- `net.UDPAddr`. -/
structure UDPAddr where
  ip : Bytes
  port : Nat
deriving DecidableEq

/-- `IP.IsLoopback`. -/
def isLoopback (ip : Bytes) : Bool :=
  match to4 ip with
  | some v4 => v4.head? == some 127
  | none => ip == List.replicate 15 0 ++ [1]

/-- One spelling for an IPv4 address that may also be written as an IPv6 one. -/
def unmap (ip : Bytes) : Bytes := (to4 ip).getD ip

/-- `netip.AddrFromSlice`, with the port. -/
def addrPort (addr : UDPAddr) : Option UDPAddr :=
  if addr.ip.length = 4 ∨ addr.ip.length = 16 then some ⟨unmap addr.ip, addr.port % 65536⟩ else none

/-- A range of addresses: an address, and how many of its bits count. -/
structure IPRange where
  ip : Bytes
  bits : Nat
deriving DecidableEq

end NexusVPN
