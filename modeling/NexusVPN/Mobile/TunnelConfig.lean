import Mathlib.Data.List.Nodup
import NexusVPN.Mobile.Dart
import NexusVPN.Net

/-! # The configuration of the app's tunnel

    `buildConfig` of `mobile/lib/core/vpn_controller.dart`.  It writes `/32` after the address of
    a peer, of whichever family it is. -/

namespace NexusVPN

/-- The addresses are of one family and agree in their first bits. -/
def Bytes.Agree : Nat → Bytes → Bytes → Prop
  | _, [], [] => True
  | bits, x :: xs, y :: ys =>
    x.toNat / 2 ^ (8 - bits) = y.toNat / 2 ^ (8 - bits) ∧ Bytes.Agree (bits - 8) xs ys
  | _, _, _ => False

namespace Mobile.Config

open List

structure Device where
  publicKey : String
  virtualIp : Option String
  lastPublicIp : Option String

structure Network where
  cidr : String
  dnsServers : List String

def keepalive : String := "PersistentKeepalive = 25"

/-- `writeln`, of one line after the other. -/
def written (lines : List String) : List Char := lines.flatMap fun line => line.toList ++ ['\n']

/-- An address in the form that its text is read as. -/
def Canonical (a : Bytes) : Prop := a.length = 4 ∨ a.length = 16 ∧ to4 a = none

section

variable {ipString : Bytes → String} {parse : String → Option IPRange} {addr : Device → Bytes}
  {network : Network} {peers : List Device} {p q : Device}

end

end Mobile.Config

end NexusVPN
