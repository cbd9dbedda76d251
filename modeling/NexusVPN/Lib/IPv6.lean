import Mathlib.Data.List.TakeWhile
import Mathlib.Tactic.Ring
import NexusVPN.Lib.DottedDecimal

/-! # IPv6 addresses in text

    Eight groups of up to four hexadecimal digits with colons between them.  Two colons stand
    once for one or more groups of zeros, and the last two groups may be written in dotted
    decimal. -/

namespace NexusVPN.IPv6

open List Option

/-! ## One group -/

def hexValue (c : Char) : Option Nat :=
  if '0' ≤ c ∧ c ≤ '9' then some (c.toNat - '0'.toNat)
  else if 'a' ≤ c ∧ c ≤ 'f' then some (c.toNat - 'a'.toNat + 10)
  else if 'A' ≤ c ∧ c ≤ 'F' then some (c.toNat - 'A'.toNat + 10)
  else none

/-- The value of some digits, after the digits that stand for `acc`. -/
def readHex (acc : Nat) : List Char → Option Nat
  | [] => some acc
  | c :: cs => (hexValue c).bind fun d => readHex (16 * acc + d) cs

/-- A group has one to four digits. -/
def hexGroup (s : List Char) : Option Nat :=
  if 1 ≤ s.length ∧ s.length ≤ 4 then readHex 0 s else none

/-! ## An address -/

/-- The last two groups, in dotted decimal. -/
def quad (s : List Char) : Option (List Nat) :=
  match parseDottedDecimal s with
  | some [a, b, c, d] => some [256 * a.toNat + b.toNat, 256 * c.toNat + d.toNat]
  | _ => none

/-- Groups up to the end of the text. -/
def groups : List (List Char) → Option (List Nat)
  | [] => some []
  | [last] => ((hexGroup last).map fun g => [g]) <|> quad last
  | part :: next :: rest => (hexGroup part).bind fun g =>
      (groups (next :: rest)).map fun gs => g :: gs

/-- The text before and after the first two colons. -/
def cutZeros : List Char → Option (List Char × List Char)
  | ':' :: ':' :: after => some ([], after)
  | c :: rest => (cutZeros rest).map fun p => (c :: p.1, p.2)
  | [] => none

/-- Text on one side of the two colons, which may be missing. -/
def side (read : List (List Char) → Option (List Nat)) (s : List Char) : Option (List Nat) :=
  if s = [] then some [] else read (s.splitOn ':')

/-- The eight groups of an address. -/
def parse (s : List Char) : Option (List Nat) :=
  match cutZeros s with
  | none => (groups (s.splitOn ':')).bind fun gs => if gs.length = 8 then some gs else none
  | some (before, after) =>
    (side (fun parts => parts.mapM hexGroup) before).bind fun high =>
      (side groups after).bind fun low =>
        if high.length + low.length ≤ 7 then
          some (high ++ List.replicate (8 - (high.length + low.length)) 0 ++ low)
        else none

example : parse "fe80::1:c0a8:14".toList = some [0xfe80, 0, 0, 0, 0, 1, 0xc0a8, 0x14] := by
  decide +kernel

/-! ## The first group -/

section

variable {s before after : List Char} {gs : List Nat}

/-- The text before the first colon. -/
def firstGroup (s : List Char) : List Char := s.takeWhile (· != ':')

theorem splitOn_head (s : List Char) : ∃ rest, s.splitOn ':' = firstGroup s :: rest := by
  have hall : ∀ c ∈ firstGroup s, (c == ':') = false := by
    intro c hc
    simpa using mem_takeWhile_imp hc
  have hsplit : firstGroup s ++ s.dropWhile (· != ':') = s := takeWhile_append_dropWhile
  cases hdrop : s.dropWhile (· != ':') with
  | nil =>
    rw [hdrop, append_nil] at hsplit
    refine ⟨[], ?_⟩
    nth_rewrite 1 [← hsplit]
    exact splitOnP_eq_singleton hall
  | cons c rest =>
    have hc : (c == ':') = true := by
      have hhead := head_dropWhile_not (· != ':') (l := s) (by rw [hdrop]; simp)
      simp only [hdrop, head_cons] at hhead
      simpa using hhead
    rw [hdrop] at hsplit
    refine ⟨rest.splitOn ':', ?_⟩
    nth_rewrite 1 [← hsplit]
    exact splitOnP_append_cons_of_forall_mem hall c hc rest

theorem cutZeros_eq (h : cutZeros s = some (before, after)) :
    s = before ++ ':' :: ':' :: after := by
  fun_induction cutZeros s generalizing before with
  | case1 rest =>
    cases h
    rfl
  | case2 c rest _ ih =>
    obtain ⟨⟨b, a⟩, hcut, heq⟩ := map_eq_some_iff.mp h
    cases heq
    rw [ih hcut]
    rfl
  | case3 => cases h

theorem firstGroup_append : firstGroup (before ++ ':' :: after) = firstGroup before := by
  unfold firstGroup
  rw [takeWhile_append]
  split
  case isTrue h =>
    have hall : before.takeWhile (· != ':') = before := (List.takeWhile_prefix _).eq_of_length h
    simp [hall]
  case isFalse => rfl

/-- Several parts are read one by one, so that the first part gives the first group. -/
theorem groups_head {part next : List Char} {rest : List (List Char)}
    (h : groups (part :: next :: rest) = some gs) :
    ∃ g tail, gs = g :: tail ∧ hexGroup part = some g := by
  obtain ⟨g, hg, hrest⟩ := bind_eq_some_iff.mp h
  obtain ⟨tail, -, rfl⟩ := map_eq_some_iff.mp hrest
  exact ⟨g, tail, rfl, hg⟩

theorem length_groups_single {last : List Char} (h : groups [last] = some gs) : gs.length ≤ 2 := by
  unfold groups at h
  cases hg : hexGroup last with
  | some g =>
    rw [hg] at h
    cases h
    simp
  | none =>
    rw [hg] at h
    unfold quad at h
    split at h
    · cases h
      simp
    · cases h

theorem parse_head (h : parse s = some gs) (hs : firstGroup s ≠ []) :
    ∃ g tail, gs = g :: tail ∧ hexGroup (firstGroup s) = some g := by
  unfold parse at h
  split at h
  case h_1 =>
    obtain ⟨gs', hgrps, hlen⟩ := bind_eq_some_iff.mp h
    split at hlen
    case isTrue height =>
      cases hlen
      obtain ⟨rest, hsplit⟩ := splitOn_head s
      rw [hsplit] at hgrps
      cases rest with
      | nil =>
        have hle := length_groups_single hgrps
        omega
      | cons next rest => exact groups_head hgrps
    case isFalse => cases hlen
  case h_2 before after hcut =>
    obtain ⟨high, hhigh, hrest⟩ := bind_eq_some_iff.mp h
    obtain ⟨low, -, hlen⟩ := bind_eq_some_iff.mp hrest
    have hfirst : firstGroup s = firstGroup before := by
      rw [cutZeros_eq hcut, firstGroup_append]
    -- There is text before the two colons, since `s` does not begin with them.
    have hne : before ≠ [] := by
      rintro rfl
      exact hs hfirst
    rw [side, if_neg hne] at hhigh
    obtain ⟨rest, hsplit⟩ := splitOn_head before
    rw [hsplit, mapM_cons] at hhigh
    obtain ⟨g, hg, hhigh⟩ := bind_eq_some_iff.mp hhigh
    obtain ⟨tail, -, hhigh⟩ := bind_eq_some_iff.mp hhigh
    cases hhigh
    split at hlen
    · cases hlen
      exact ⟨g, _, rfl, hfirst ▸ hg⟩
    · cases hlen

/-- There are colons in every literal. -/
theorem colon_of_parse (h : parse s = some gs) : ':' ∈ s := by
  by_contra hcolon
  unfold parse at h
  split at h
  case h_1 =>
    obtain ⟨gs', hgrps, hlen⟩ := bind_eq_some_iff.mp h
    rw [splitOn_eq_singleton hcolon] at hgrps
    have hle := length_groups_single hgrps
    split at hlen
    · omega
    · cases hlen
  case h_2 before after hcut =>
    rw [cutZeros_eq hcut] at hcolon
    simp at hcolon

end

/-! ## Bounds on a group -/

theorem hexValue_lt {c : Char} {d : Nat} (h : hexValue c = some d) : d < 16 := by
  unfold hexValue at h
  simp only [Char.le_def, UInt32.le_iff_toNat_le] at h
  have hc : c.toNat = c.val.toNat := rfl
  split at h
  · cases h
    simp_all
    omega
  split at h
  · cases h
    simp_all
    omega
  split at h
  · cases h
    simp_all
    omega
  · cases h

theorem readHex_append {acc : Nat} {s t : List Char} :
    readHex acc (s ++ t) = (readHex acc s).bind fun v => readHex v t := by
  induction s generalizing acc with
  | nil => rfl
  | cons c s ih =>
    show ((hexValue c).bind fun d => readHex (16 * acc + d) (s ++ t)) =
      ((hexValue c).bind fun d => readHex (16 * acc + d) s).bind _
    rw [bind_assoc]
    simp only [ih]

/-- The digits that were read first decide the value up to the digits that follow. -/
theorem readHex_bounds {acc v : Nat} {s : List Char} (h : readHex acc s = some v) :
    acc * 16 ^ s.length ≤ v ∧ v < (acc + 1) * 16 ^ s.length := by
  induction s generalizing acc with
  | nil =>
    cases h
    simp
  | cons c s ih =>
    obtain ⟨d, hd, hrest⟩ := bind_eq_some_iff.mp h
    obtain ⟨hlow, hhigh⟩ := ih hrest
    have hlt := hexValue_lt hd
    rw [length_cons, Nat.pow_succ']
    constructor
    · calc acc * (16 * 16 ^ s.length) = 16 * acc * 16 ^ s.length := by ring
        _ ≤ (16 * acc + d) * 16 ^ s.length := Nat.mul_le_mul_right _ (by omega)
        _ ≤ v := hlow
    · calc v < (16 * acc + d + 1) * 16 ^ s.length := hhigh
        _ ≤ (16 * acc + 16) * 16 ^ s.length := Nat.mul_le_mul_right _ (by omega)
        _ = (acc + 1) * (16 * 16 ^ s.length) := by ring

end NexusVPN.IPv6
