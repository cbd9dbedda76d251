import Mathlib.Data.List.Induction
import Mathlib.Tactic.Common

/-! # Dotted decimal

    Bytes written in decimal, with dots between them.  Reading takes leading zeros; a number
    has one spelling without them. -/

namespace NexusVPN

open List Nat

def dottedDecimal (bytes : List UInt8) : String :=
  String.ofList (['.'].intercalate (bytes.map fun b => toDigits 10 b.toNat))

/-- A number in decimal. -/
def parseDecimal (cs : List Char) : Option Nat :=
  if cs ≠ [] ∧ cs.all Char.isDigit then some (ofDigitChars 10 cs 0) else none

def parseByte (cs : List Char) : Option UInt8 :=
  match parseDecimal cs with
  | none => none
  | some n => if n < 256 then some (UInt8.ofNat n) else none

def parseDottedDecimal (cs : List Char) : Option (List UInt8) := (cs.splitOn '.').mapM parseByte

theorem parseDecimal_toDigits (n : Nat) : parseDecimal (toDigits 10 n) = some n := by
  have hdig : (toDigits 10 n).all Char.isDigit = true := by
    rw [all_eq_true]
    intro c hc
    exact isDigit_of_mem_toDigits (by omega) (by omega) hc
  rw [parseDecimal, if_pos ⟨toDigits_ne_nil, hdig⟩, ofDigitChars_ten_toDigits]

theorem parseByte_toDigits (b : UInt8) : parseByte (toDigits 10 b.toNat) = some b := by
  rw [parseByte, parseDecimal_toDigits]
  simp [b.toNat_lt]

def decimalDigits : List Char := "0123456789".toList

variable {c : Char}

theorem mem_decimalDigits (h : c.isDigit = true) : c ∈ decimalDigits := by
  have hlt : c.toNat < 128 := by
    simp only [Char.isDigit, Bool.and_eq_true, decide_eq_true_eq, ge_iff_le,
      UInt32.le_iff_toNat_le] at h
    have hval : c.toNat = c.val.toNat := rfl
    simp at h
    omega
  have hall : ∀ n < 128, (Char.ofNat n).isDigit = true → Char.ofNat n ∈ decimalDigits := by
    decide +kernel
  have hmem := hall c.toNat hlt
  rw [Char.ofNat_toNat] at hmem
  exact hmem h

theorem toDigits_of_isDigit (h : c.isDigit = true) :
    c.toNat - '0'.toNat < 10 ∧ toDigits 10 (c.toNat - '0'.toNat) = [c] := by
  have hall : ∀ d ∈ decimalDigits,
      d.toNat - '0'.toNat < 10 ∧ toDigits 10 (d.toNat - '0'.toNat) = [d] := by decide
  exact hall c (mem_decimalDigits h)

theorem le_ofDigitChars (cs : List Char) (init : Nat) : init ≤ ofDigitChars 10 cs init := by
  induction cs generalizing init with
  | nil => exact Nat.le_refl _
  | cons c cs ih =>
    rw [ofDigitChars_cons]
    exact Nat.le_trans (by omega) (ih _)

/-- Digits without a leading zero are what their number is written with. -/
theorem toDigits_ofDigitChars {cs : List Char} (hdig : ∀ d ∈ c :: cs, d.isDigit = true)
    (hzero : c ≠ '0' ∨ cs = []) : toDigits 10 (ofDigitChars 10 (c :: cs) 0) = c :: cs := by
  have hc := toDigits_of_isDigit (hdig c mem_cons_self)
  induction cs using List.reverseRecOn with
  | nil =>
    rw [Nat.ofDigitChars_cons, Nat.ofDigitChars_nil, Nat.mul_zero, Nat.zero_add]
    exact hc.2
  | append_singleton cs z ih =>
    have hne : c ≠ '0' := hzero.resolve_right (by simp)
    have hsub : ∀ d ∈ c :: cs, d ∈ c :: (cs ++ [z]) := fun d hd => mem_append_left [z] hd
    have hinit := ih (fun d hd => hdig d (hsub d hd)) (.inl hne)
    have hz := toDigits_of_isDigit (hdig z (by simp))
    -- The number of the digits before the last is positive, since the first of them is.
    have hpos : 0 < ofDigitChars 10 (c :: cs) 0 := by
      have hle := le_ofDigitChars cs (10 * 0 + (c.toNat - '0'.toNat))
      rw [← ofDigitChars_cons] at hle
      have hfirst : c.toNat - '0'.toNat ≠ 0 := by
        intro h0
        rw [h0] at hc
        exact hne (List.cons.inj hc.2).1.symm
      omega
    calc toDigits 10 (ofDigitChars 10 (c :: (cs ++ [z])) 0)
        = toDigits 10 (10 * ofDigitChars 10 (c :: cs) 0 + (z.toNat - '0'.toNat)) := by
          rw [← cons_append, ofDigitChars_append, ofDigitChars_cons, ofDigitChars_nil]
      _ = toDigits 10 (ofDigitChars 10 (c :: cs) 0) ++
            toDigits 10 (z.toNat - '0'.toNat) :=
          (toDigits_append_toDigits (by decide) hpos hz.1).symm
      _ = c :: (cs ++ [z]) := by rw [hinit, hz.2, cons_append]

/-- Digits are not dots, nor anything else that is not a digit. -/
theorem not_mem_toDigits (hc : c.isDigit = false) (n : Nat) : c ∉ toDigits 10 n := by
  intro hmem
  have hdigit := isDigit_of_mem_toDigits (by omega) (by omega) hmem
  rw [hc] at hdigit
  cases hdigit

theorem mem_intercalate {α : Type} {parts : List (List α)} {sep c : α}
    (h : c ∈ [sep].intercalate parts) : c = sep ∨ ∃ part ∈ parts, c ∈ part := by
  induction parts with
  | nil => simp at h
  | cons part parts ih =>
    cases parts with
    | nil =>
      rw [intercalate_singleton] at h
      exact .inr ⟨part, mem_singleton_self _, h⟩
    | cons next rest =>
      rw [intercalate_cons_cons, mem_append, mem_append] at h
      rcases h with (hpart | hsep) | hrest
      · exact .inr ⟨part, mem_cons_self, hpart⟩
      · exact .inl (mem_singleton.mp hsep)
      · refine (ih hrest).imp_right ?_
        intro hlater
        obtain ⟨later, hmem, hc⟩ := hlater
        exact ⟨later, mem_cons_of_mem _ hmem, hc⟩

theorem not_mem_dottedDecimal (hdot : c ≠ '.') (hdigit : c.isDigit = false) (bytes : List UInt8) :
    c ∉ (dottedDecimal bytes).toList := by
  intro hmem
  rw [dottedDecimal, String.toList_ofList] at hmem
  rcases mem_intercalate hmem with rfl | ⟨digits, hdig, hc⟩
  · exact hdot rfl
  · obtain ⟨b, -, rfl⟩ := mem_map.mp hdig
    exact not_mem_toDigits hdigit _ hc

theorem parse_dottedDecimal {bytes : List UInt8} (h : bytes ≠ []) :
    parseDottedDecimal (dottedDecimal bytes).toList = some bytes := by
  have hsplit : (dottedDecimal bytes).toList.splitOn '.' =
      bytes.map fun b => toDigits 10 b.toNat := by
    rw [dottedDecimal, String.toList_ofList]
    apply splitOn_intercalate
    · intro digits hmem
      obtain ⟨b, -, rfl⟩ := mem_map.mp hmem
      exact not_mem_toDigits rfl _
    · simpa using h
  rw [parseDottedDecimal, hsplit]
  clear hsplit h
  induction bytes with
  | nil => rfl
  | cons b bs ih => simp [parseByte_toDigits, ih]

example : dottedDecimal [10, 77, 0, 254] = "10.77.0.254" := by decide +kernel

end NexusVPN
