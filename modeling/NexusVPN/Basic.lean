import Mathlib.Data.List.Basic

/-! # Values shared by every component

    Byte strings, `uuid.UUID`, `time.Time` and what is white space, as the relay,
    the control plane and the client all use them. -/

namespace NexusVPN

open List Option

/-- A datagram, or a Go string that carries arbitrary bytes. -/
abbrev Bytes := List UInt8

/-- `time.Time` as nanoseconds since the zero time. -/
abbrev Time := Int

/-- `Time.IsZero`. -/
def Time.isZero (t : Time) : Bool := t == 0

/-- `t.After(u)`. -/
def Time.after (t u : Time) : Bool := decide (u < t)

/-- `t.Sub(u)`, which saturates at the ends of `time.Duration`. -/
def Time.sub (t u : Time) : Int := max (-9223372036854775808) (min 9223372036854775807 (t - u))

/-- `unicode.IsSpace`. -/
def isSpace (c : Char) : Bool :=
  let n := c.toNat
  (9 ≤ n && n ≤ 13) || n == 0x20 || n == 0x85 || n == 0xA0 || n == 0x1680 ||
    (0x2000 ≤ n && n ≤ 0x200a) || n == 0x2028 || n == 0x2029 || n == 0x202f || n == 0x205f ||
    n == 0x3000

/-- `strings.TrimSpace`. -/
def trimSpace (s : String) : String :=
  String.ofList ((s.toList.dropWhile isSpace).reverse.dropWhile isSpace).reverse

/-- `strings.TrimSpace(s) == ""`. -/
def isBlank (s : String) : Bool := s.toList.all isSpace

/-- By going through the list: the general instance for `Char` tries every code point. -/
instance decidableForallMem (p : Char → Prop) [DecidablePred p] (cs : List Char) :
    Decidable (∀ c ∈ cs, p c) := List.decidableBAll p cs

/-- `uuid.UUID`: exactly sixteen bytes. -/
structure UUID where
  bytes : Bytes
  length_eq : bytes.length = 16
deriving DecidableEq

namespace UUID

/-- `uuid.Nil`. -/
def nil : UUID := ⟨List.replicate 16 0, rfl⟩

/-- `var id uuid.UUID; copy(id[:], b)`: at most sixteen bytes are copied, and
    what `b` does not fill stays zero. -/
def ofBytes (b : Bytes) : UUID where
  bytes := (b ++ List.replicate 16 0).take 16
  length_eq := by simp

@[simp] theorem ofBytes_bytes (u : UUID) : ofBytes u.bytes = u := by
  obtain ⟨b, hb⟩ := u
  simp only [ofBytes, mk.injEq]
  rw [← hb, take_left']
  rfl

/-- One lower-case hexadecimal digit. -/
def hexDigit (n : Nat) : Char := "0123456789abcdef".toList.getD n '0'

/-- Two digits for each byte. -/
def hex (b : Bytes) : List Char :=
  b.flatMap fun x => [hexDigit (x.toNat / 16), hexDigit (x.toNat % 16)]

/-- `UUID.String`: the hyphenated form `xxxxxxxx-xxxx-xxxx-xxxx-xxxxxxxxxxxx`. -/
def string (u : UUID) : String :=
  String.ofList (hex (u.bytes.take 4) ++ '-' :: hex ((u.bytes.drop 4).take 2) ++
    '-' :: hex ((u.bytes.drop 6).take 2) ++ '-' :: hex ((u.bytes.drop 8).take 2) ++
    '-' :: hex (u.bytes.drop 10))

example : (ofBytes [0xab, 0x01]).string = "ab010000-0000-0000-0000-000000000000" := by decide

/-- The value of a hexadecimal digit. -/
def digitValue (c : Char) : Option Nat :=
  let i := "0123456789abcdef".toList.idxOf c.toLower
  if i < 16 then some i else none

theorem digitValue_hexDigit {n : Nat} (h : n < 16) : digitValue (hexDigit n) = some n := by
  revert n
  decide

theorem length_hex (b : Bytes) : (hex b).length = 2 * b.length := by
  induction b with
  | nil => rfl
  | cons x b ih =>
    show (hex b).length + 2 = 2 * (b.length + 1)
    omega

theorem hex_append (a b : Bytes) : hex (a ++ b) = hex a ++ hex b := flatMap_append

/-- Two digits for each byte, read back. -/
def unhex : List Char → Option Bytes
  | [] => some []
  | [_] => none
  | c :: d :: cs => do
    let hi ← digitValue c
    let lo ← digitValue d
    let b ← unhex cs
    return UInt8.ofNat (16 * hi + lo) :: b

theorem unhex_hex (b : Bytes) : unhex (hex b) = some b := by
  induction b with
  | nil => rfl
  | cons x b ih =>
    have hx : x.toNat < 256 := x.toNat_lt
    have hback : 16 * (x.toNat / 16) + x.toNat % 16 = x.toNat := Nat.div_add_mod ..
    show unhex (_ :: _ :: hex b) = _
    rw [unhex, digitValue_hexDigit (by omega), digitValue_hexDigit (by omega), ih]
    show some (UInt8.ofNat (16 * (x.toNat / 16) + x.toNat % 16) :: b) = _
    rw [hback, UInt8.ofNat_toNat]

/-- The digits of the hyphenated form. -/
def ungroup (cs : List Char) : Option (List Char) :=
  if cs.length = 36 ∧ cs[8]? = some '-' ∧ cs[13]? = some '-' ∧ cs[18]? = some '-' ∧
      cs[23]? = some '-' then
    some (cs.take 8 ++ (cs.drop 9).take 4 ++ (cs.drop 14).take 4 ++ (cs.drop 19).take 4 ++
      cs.drop 24)
  else none

theorem ungroup_hyphenated {a b c d e : List Char} (ha : a.length = 8) (hb : b.length = 4)
    (hc : c.length = 4) (hd : d.length = 4) (he : e.length = 12) :
    ungroup (a ++ '-' :: b ++ '-' :: c ++ '-' :: d ++ '-' :: e) = some (a ++ b ++ c ++ d ++ e) := by
  simp [ungroup, drop_append, drop_eq_nil_of_le, *]

/-- `uuid.Parse` of a string of 36 characters. -/
def parse (s : String) : Option UUID :=
  ((ungroup s.toList).bind unhex).bind fun b => if h : b.length = 16 then some ⟨b, h⟩ else none

theorem parse_string (u : UUID) : parse u.string = some u := by
  have hlen := u.length_eq
  have hrest : ∀ n k, (u.bytes.drop n).take k ++ u.bytes.drop (n + k) = u.bytes.drop n := by
    intro n k
    rw [← drop_drop, take_append_drop]
  have hdig : ungroup u.string.toList = some (hex u.bytes) := by
    rw [string, String.toList_ofList, ungroup_hyphenated]
    · simp only [← hex_append, append_assoc, hrest 8 2, hrest 6 2, hrest 4 2, take_append_drop]
    all_goals simp [length_hex, hlen]
  unfold parse
  rw [hdig, bind_some, unhex_hex, bind_some, dif_pos hlen]

/-- No two ids are spelled the same. -/
theorem string_injective {u v : UUID} (h : u.string = v.string) : u = v := by
  have hu := parse_string u
  rw [h, parse_string v] at hu
  exact (some.inj hu).symm

end UUID

end NexusVPN
