import Mathlib.Data.List.Basic
import Mathlib.Tactic.Common

/-! # Base64

    The standard alphabet with padding, as Go's `encoding/base64` reads and writes it.
    Reading skips line breaks wherever they are.  It ignores the bits of the last symbol that
    belong to no byte, unless it is strict.

    * `encodeToString_eq_iff`: a text that is read is the one that would be written, if it
      has no line breaks and is read strictly as well. -/

namespace NexusVPN.Base64

open List
open UInt8 (ofNat)
open Option (bind_eq_bind bind_eq_some_iff bind_some some)

/-- The symbol for six bits: capital letters, small letters, digits and two signs. -/
def symbol (n : Nat) : Char :=
  if n < 26 then Char.ofNat (n + 65)
  else if n < 52 then Char.ofNat (n + 71)
  else if n < 62 then Char.ofNat (n - 4)
  else if n = 62 then '+'
  else '/'

/-- The six bits that a symbol stands for. -/
def sextet (c : Char) : Option Nat :=
  if 65 ≤ c.toNat ∧ c.toNat ≤ 90 then some (c.toNat - 65)
  else if 97 ≤ c.toNat ∧ c.toNat ≤ 122 then some (c.toNat - 71)
  else if 48 ≤ c.toNat ∧ c.toNat ≤ 57 then some (c.toNat + 4)
  else if c = '+' then some 62
  else if c = '/' then some 63
  else none

variable {n : Nat} {bytes : List UInt8}

theorem sextet_symbol (h : n < 64) : sextet (symbol n) = some n := by
  revert n
  decide

theorem sextet_pad : sextet '=' = none := by decide

theorem symbol_of_sextet {c : Char} (h : sextet c = some n) : n < 64 ∧ symbol n = c := by
  unfold sextet at h
  split at h
  · next hcapital =>
    cases h
    refine ⟨by omega, ?_⟩
    rw [symbol, if_pos (by omega), Nat.sub_add_cancel hcapital.1, Char.ofNat_toNat]
  split at h
  · next hsmall =>
    cases h
    refine ⟨by omega, ?_⟩
    rw [symbol, if_neg (by omega), if_pos (by omega), Nat.sub_add_cancel (by omega),
      Char.ofNat_toNat]
  split at h
  · next hdigit =>
    cases h
    refine ⟨by omega, ?_⟩
    rw [symbol, if_neg (by omega), if_neg (by omega), if_pos (by omega), Nat.add_sub_cancel,
      Char.ofNat_toNat]
  split at h
  · next hplus =>
    cases h
    exact ⟨by omega, hplus.symm⟩
  split at h
  · next hslash =>
    cases h
    exact ⟨by omega, hslash.symm⟩
  · cases h

theorem symbol_ne_pad (h : n < 64) : symbol n ≠ '=' := by
  intro hpad
  have hsextet := sextet_symbol h
  rw [hpad, sextet_pad] at hsextet
  cases hsextet

/-! ## Writing -/

def encode : List UInt8 → List Char
  | [] => []
  | [a] => [symbol (a.toNat / 4), symbol (a.toNat % 4 * 16), '=', '=']
  | [a, b] => [symbol (a.toNat / 4), symbol (a.toNat % 4 * 16 + b.toNat / 16),
      symbol (b.toNat % 16 * 4), '=']
  | a :: b :: c :: rest => symbol (a.toNat / 4) :: symbol (a.toNat % 4 * 16 + b.toNat / 16) ::
      symbol (b.toNat % 16 * 4 + c.toNat / 64) :: symbol (c.toNat % 64) :: encode rest

/-- `StdEncoding.EncodeToString`. -/
def encodeToString (bytes : List UInt8) : String := String.ofList (encode bytes)

/-! ## Reading -/

/-- Four symbols at a time.  Padding ends the text. -/
def decode (strict : Bool) : List Char → Option (List UInt8)
  | [] => some []
  | p :: q :: r :: s :: rest => do
    let w ← sextet p
    let x ← sextet q
    if r = '=' then
      if s = '=' ∧ rest = [] ∧ (strict = true → x % 16 = 0) then
        some [ofNat (w * 4 + x / 16)]
      else none
    else
      let y ← sextet r
      if s = '=' then
        if rest = [] ∧ (strict = true → y % 4 = 0) then
          some [ofNat (w * 4 + x / 16), ofNat (x % 16 * 16 + y / 4)]
        else none
      else
        let z ← sextet s
        let tail ← decode strict rest
        some (ofNat (w * 4 + x / 16) :: ofNat (x % 16 * 16 + y / 4) ::
          ofNat (y % 4 * 64 + z) :: tail)
  | _ => none

def isLineBreak (c : Char) : Bool := c == '\n' || c == '\r'

/-- `StdEncoding.DecodeString`, or that of `StdEncoding.Strict()`. -/
def decodeString (strict : Bool) (s : String) : Option (List UInt8) :=
  decode strict (s.toList.filter fun c => !isLineBreak c)

/-! ## Round trips -/

theorem byte_eq (a : UInt8) (h : n = a.toNat) : ofNat n = a := by
  rw [h, UInt8.ofNat_toNat]

theorem decode_encode (strict : Bool) (bytes : List UInt8) :
    decode strict (encode bytes) = some bytes := by
  induction bytes using encode.induct with
  | case1 => rfl
  | case2 a =>
    have ha := a.toNat_lt
    rw [encode, decode, sextet_symbol (by omega), sextet_symbol (by omega)]
    simp only [bind_eq_bind, bind_some, if_true]
    rw [if_pos ⟨trivial, trivial, fun _ => by omega⟩, byte_eq a (by omega)]
  | case3 a b =>
    have ha := a.toNat_lt
    have hb := b.toNat_lt
    rw [encode, decode, sextet_symbol (by omega), sextet_symbol (by omega)]
    simp only [bind_eq_bind, bind_some, if_true]
    rw [if_neg (symbol_ne_pad (by omega)), sextet_symbol (by omega), bind_some,
      if_pos ⟨trivial, fun _ => by omega⟩, byte_eq a (by omega), byte_eq b (by omega)]
  | case4 a b c rest ih =>
    have ha := a.toNat_lt
    have hb := b.toNat_lt
    have hc := c.toNat_lt
    rw [encode, decode, sextet_symbol (by omega), sextet_symbol (by omega)]
    simp only [bind_eq_bind, bind_some]
    rw [if_neg (symbol_ne_pad (by omega)), sextet_symbol (by omega), bind_some,
      if_neg (symbol_ne_pad (by omega)), sextet_symbol (by omega), ih]
    simp only [bind_some]
    rw [byte_eq a (by omega), byte_eq b (by omega), byte_eq c (by omega)]

/-- The ways in which four characters are read. -/
theorem decode_cases {strict : Bool} {p q r s : Char} {rest : List Char}
    (h : decode strict (p :: q :: r :: s :: rest) = some bytes) :
    ∃ w x, sextet p = some w ∧ sextet q = some x ∧
      ((r = '=' ∧ s = '=' ∧ rest = [] ∧ (strict = true → x % 16 = 0) ∧
        bytes = [ofNat (w * 4 + x / 16)]) ∨
      ∃ y, sextet r = some y ∧
        ((s = '=' ∧ rest = [] ∧ (strict = true → y % 4 = 0) ∧
          bytes = [ofNat (w * 4 + x / 16), ofNat (x % 16 * 16 + y / 4)]) ∨
        ∃ z tail, sextet s = some z ∧ decode strict rest = some tail ∧
          bytes = ofNat (w * 4 + x / 16) :: ofNat (x % 16 * 16 + y / 4) ::
            ofNat (y % 4 * 64 + z) :: tail)) := by
  rw [decode] at h
  obtain ⟨w, hw, h⟩ := bind_eq_some_iff.mp h
  obtain ⟨x, hx, h⟩ := bind_eq_some_iff.mp h
  refine ⟨w, x, hw, hx, ?_⟩
  split at h
  · next hr =>
    obtain ⟨⟨hs, hrest, hbits⟩, hbytes⟩ := Option.ite_none_right_eq_some.mp h
    exact .inl ⟨hr, hs, hrest, hbits, (some.inj hbytes).symm⟩
  · obtain ⟨y, hy, h⟩ := bind_eq_some_iff.mp h
    refine .inr ⟨y, hy, ?_⟩
    split at h
    · next hs =>
      obtain ⟨⟨hrest, hbits⟩, hbytes⟩ := Option.ite_none_right_eq_some.mp h
      exact .inl ⟨hs, hrest, hbits, (some.inj hbytes).symm⟩
    · obtain ⟨z, hz, h⟩ := bind_eq_some_iff.mp h
      obtain ⟨tail, htail, h⟩ := bind_eq_some_iff.mp h
      exact .inr ⟨z, tail, hz, htail, (some.inj h).symm⟩

/-- What a strict reader takes is what would be written. -/
theorem encode_of_decode : ∀ {cs : List Char} {bytes : List UInt8}, decode true cs = some bytes →
    encode bytes = cs
  | [], _, h => by
    rw [← some.inj h]
    rfl
  | [_], _, h => nomatch h
  | [_, _], _, h => nomatch h
  | [_, _, _], _, h => nomatch h
  | p :: q :: r :: s :: rest, bytes, h => by
    obtain ⟨w, x, hw, hx, hcases⟩ := decode_cases h
    obtain ⟨hw, rfl⟩ := symbol_of_sextet hw
    obtain ⟨hx, rfl⟩ := symbol_of_sextet hx
    have htoNat : ∀ n < 256, (ofNat n).toNat = n := fun n hn => UInt8.toNat_ofNat_of_lt' hn
    have hfirst : (w * 4 + x / 16) / 4 = w := by omega
    rcases hcases with ⟨rfl, rfl, rfl, hbits, rfl⟩ | ⟨y, hy, hcases⟩
    · have hzero := hbits rfl
      have hsnd : (w * 4 + x / 16) % 4 * 16 = x := by omega
      rw [encode, htoNat _ (by omega), hfirst, hsnd]
    obtain ⟨hy, rfl⟩ := symbol_of_sextet hy
    have hsnd : (w * 4 + x / 16) % 4 * 16 + (x % 16 * 16 + y / 4) / 16 = x := by omega
    rcases hcases with ⟨rfl, rfl, hbits, rfl⟩ | ⟨z, tail, hz, htail, rfl⟩
    · have hzero := hbits rfl
      have hthird : (x % 16 * 16 + y / 4) % 16 * 4 = y := by omega
      rw [encode, htoNat _ (by omega), htoNat _ (by omega), hfirst, hsnd, hthird]
    · obtain ⟨hz, rfl⟩ := symbol_of_sextet hz
      have hthird : (x % 16 * 16 + y / 4) % 16 * 4 + (y % 4 * 64 + z) / 64 = y := by omega
      have hfourth : (y % 4 * 64 + z) % 64 = z := by omega
      rw [encode, htoNat _ (by omega), htoNat _ (by omega), htoNat _ (by omega), hfirst, hsnd,
        hthird, hfourth, encode_of_decode htail]

theorem not_isLineBreak_symbol (n : Nat) : isLineBreak (symbol n) = false := by
  have hsymbols : ∀ n < 64, isLineBreak (symbol n) = false := by decide
  by_cases hn : n < 64
  · exact hsymbols n hn
  · rw [symbol, if_neg (by omega), if_neg (by omega), if_neg (by omega), if_neg (by omega)]
    rfl

theorem not_isLineBreak_of_mem_encode {c : Char} (h : c ∈ encode bytes) :
    isLineBreak c = false := by
  induction bytes using encode.induct with
  | case1 => cases h
  | case2 | case3 =>
    simp only [encode, mem_cons, not_mem_nil, or_false] at h
    rcases h with rfl | rfl | rfl | rfl <;> first | exact not_isLineBreak_symbol _ | rfl
  | case4 a b c rest ih =>
    simp only [encode, mem_cons] at h
    rcases h with rfl | rfl | rfl | rfl | hrest
    all_goals first | exact not_isLineBreak_symbol _ | exact ih hrest

/-- The text has no line breaks, so reading skips nothing. -/
def Unbroken (s : String) : Prop := s.toList.any isLineBreak = false

theorem decodeString_of_unbroken {s : String} (h : Unbroken s) (strict : Bool) :
    decodeString strict s = decode strict s.toList := by
  rw [decodeString, filter_eq_self.mpr]
  intro c hc
  simpa using any_eq_false.mp h c hc

theorem unbroken_encodeToString (bytes : List UInt8) : Unbroken (encodeToString bytes) := by
  rw [Unbroken, any_eq_false]
  intro c hc
  rw [encodeToString, String.toList_ofList] at hc
  simp [not_isLineBreak_of_mem_encode hc]

theorem decodeString_encodeToString (strict : Bool) (bytes : List UInt8) :
    decodeString strict (encodeToString bytes) = some bytes := by
  rw [decodeString_of_unbroken (unbroken_encodeToString bytes), encodeToString,
    String.toList_ofList, decode_encode]

/-- No line breaks, and no bits that belong to no byte. -/
def Canonical (s : String) : Prop := Unbroken s ∧ (decodeString true s).isSome

instance (s : String) : Decidable (Canonical s) :=
  inferInstanceAs (Decidable (s.toList.any isLineBreak = false ∧ (decodeString true s).isSome))

theorem encodeToString_eq_iff {s : String} (h : decodeString false s = some bytes) :
    encodeToString bytes = s ↔ Canonical s := by
  constructor
  · intro heq
    subst heq
    refine ⟨unbroken_encodeToString bytes, ?_⟩
    rw [decodeString_encodeToString]
    rfl
  · intro hcanonical
    obtain ⟨hunbroken, hstrict⟩ := hcanonical
    obtain ⟨bytes', hbytes'⟩ := Option.isSome_iff_exists.mp hstrict
    rw [decodeString_of_unbroken hunbroken] at h hbytes'
    have hcs : encode bytes' = s.toList := encode_of_decode hbytes'
    -- The lenient reader takes the same text for the same bytes.
    rw [← hcs, decode_encode] at h
    cases h
    rw [encodeToString, hcs, String.ofList_toList]

example : encodeToString [0, 16, 131] = "ABCD" := by decide +kernel

example : decodeString false "AA\nB=" = some [0, 0] := by decide +kernel

end NexusVPN.Base64
