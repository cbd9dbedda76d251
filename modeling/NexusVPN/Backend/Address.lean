import Mathlib.Algebra.Group.Nat.Defs
import NexusVPN.Backend.Domain
import NexusVPN.Net

/-! # Virtual addresses

    The address search of `deviceRepo.NextFreeVirtualIP` and the parts of package
    `net` that it uses.  Parsing a CIDR, printing an address and folding case
    are the standard library's business; they reach the model as a `StdLib` about
    which nothing is assumed. -/

namespace NexusVPN.Backend

/-- `net.IPNet`. -/
structure IPNet where
  ip : Bytes
  mask : Bytes
  length_eq : mask.length = ip.length

theorem length_mask24 : ([255, 255, 255, 0] : Bytes).length = 4 := rfl

/-- Functions of the standard library that the control plane calls. -/
structure StdLib where
  /-- The network that `net.ParseCIDR` returns, if it accepts the string. -/
  parseCIDR : String → Option IPNet
  /-- `net.IP.String`. -/
  ipString : Bytes → String
  /-- `strings.EqualFold`. -/
  equalFold : String → String → Bool
  /-- `strings.ToLower`. -/
  toLower : String → String

/-- `networkNumberAndMask`. -/
def IPNet.numberAndMask (n : IPNet) : Option (Bytes × Bytes) :=
  let ip := (to4 n.ip).getD n.ip
  if ip.length ≠ 4 ∧ ip.length ≠ 16 then none
  else if n.mask.length = 4 then if ip.length = 4 then some (ip, n.mask) else none
  else if n.mask.length = 16 then
    if ip.length = 4 then some (ip, n.mask.drop 12) else some (ip, n.mask)
  else none

/-- `IPNet.Contains`. -/
def IPNet.contains (n : IPNet) (ip : Bytes) : Bool :=
  match n.numberAndMask with
  | none => ip.isEmpty
  | some (number, mask) =>
    let ip := (to4 ip).getD ip
    ip.length == number.length &&
      List.zipWith (· &&& ·) number mask == List.zipWith (· &&& ·) ip mask

/-- Add one to a number written with its least byte first. -/
def incrementLow : Bytes → Bytes
  | [] => []
  | b :: bs => if b + 1 ≠ 0 then (b + 1) :: bs else 0 :: incrementLow bs

/-- `incrementIP`: the next address, wrapping around at the end. -/
def incrementIP (ip : Bytes) : Bytes := (incrementLow ip.reverse).reverse

/-- `isBroadcast`: the all-ones address of the subnet. -/
def isBroadcast (ip : Bytes) (subnet : IPNet) : Bool :=
  (List.zipWith (· ||| ·) ip subnet.mask).all (· == 0xff)

/-- The loop of `NextFreeVirtualIP` from `ip` upwards. -/
def searchFree (lib : StdLib) (subnet : IPNet) (taken : String → Bool) :
    Nat → Bytes → Except DomainError String
  | 0, _ => .error .networkFull
  | rounds + 1, ip =>
    if subnet.contains ip then
      if !taken (lib.ipString ip) && !isBroadcast ip subnet then .ok (lib.ipString ip)
      else searchFree lib subnet taken rounds (incrementIP ip)
    else .error .networkFull

/-- The first free address of the subnet, from the third one on.  As many rounds as
    there are addresses: only in a prefix of length zero, where no address lies
    outside, would the loop of the source go on after that. -/
def firstFree (lib : StdLib) (subnet : IPNet) (taken : String → Bool) : Except DomainError String :=
  searchFree lib subnet taken (2 ^ (8 * subnet.ip.length)) (incrementIP (incrementIP subnet.ip))

example : incrementIP [10, 0, 0, 255] = [10, 0, 1, 0] := by decide

end NexusVPN.Backend
