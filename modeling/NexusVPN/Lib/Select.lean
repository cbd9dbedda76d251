import Mathlib.Data.List.Basic

/-! # Selection loops

    The loop that walks a list, skips what does not qualify and keeps the best so far:

    `for x in xs { if !p(x) { continue }; if best == nil || better(x, best) { best = x } }` -/

variable {α : Type}

/-- One round of the loop. -/
def keepBetter (p : α → Bool) (better : α → α → Bool) (best : Option α) (x : α) : Option α :=
  if p x then
    match best with
    | none => some x
    | some b => if better x b then some x else some b
  else best

/-- The whole loop. -/
def selectBest (p : α → Bool) (better : α → α → Bool) (xs : List α) : Option α :=
  xs.foldl (keepBetter p better) none

variable {p : α → Bool} {better : α → α → Bool}

variable {best : Option α}

theorem keepBetter_eq_some {x y : α} (h : keepBetter p better best x = some y) :
    best = some y ∨ (y = x ∧ p x = true) := by
  revert h
  fun_cases keepBetter p better best x with
  | case1 hp => intro h; exact .inr ⟨(Option.some.inj h).symm, hp⟩
  | case2 hp b hb => intro h; exact .inr ⟨(Option.some.inj h).symm, hp⟩
  | case3 => intro h; exact .inl h
  | case4 => intro h; exact .inl h

theorem keepBetter_eq_none {x : α} :
    keepBetter p better best x = none ↔ best = none ∧ p x = false := by
  fun_cases keepBetter p better best x with
  | case1 hp => simp [hp]
  | case2 => simp
  | case3 => simp
  | case4 _ hp => simp [hp]

variable {xs : List α}

theorem foldl_keepBetter_eq_some {y : α}
    (h : xs.foldl (keepBetter p better) best = some y) : best = some y ∨ (y ∈ xs ∧ p y = true) := by
  induction xs generalizing best with
  | nil => exact .inl h
  | cons x xs ih =>
    rcases ih h with hbest | ⟨hmem, hp⟩
    · rcases keepBetter_eq_some hbest with hold | ⟨rfl, hp⟩
      · exact .inl hold
      · exact .inr ⟨List.mem_cons_self, hp⟩
    · exact .inr ⟨List.mem_cons_of_mem _ hmem, hp⟩

theorem foldl_keepBetter_eq_none :
    xs.foldl (keepBetter p better) best = none ↔ best = none ∧ ∀ x ∈ xs, p x = false := by
  induction xs generalizing best with
  | nil => simp
  | cons x xs ih =>
    rw [List.foldl_cons, ih, keepBetter_eq_none, List.forall_mem_cons, and_assoc]

theorem mem_of_selectBest {y : α} (h : selectBest p better xs = some y) :
    y ∈ xs ∧ p y = true := by
  rcases foldl_keepBetter_eq_some h with hnone | hmem
  · cases hnone
  · exact hmem

theorem selectBest_eq_none :
    selectBest p better xs = none ↔ ∀ x ∈ xs, p x = false := by
  unfold selectBest
  rw [foldl_keepBetter_eq_none]
  exact ⟨fun h => h.2, fun h => ⟨rfl, h⟩⟩

section

variable (hasymm : ∀ a b, better a b = true → better b a = false)
  (htrans : ∀ a b c, better a b = false → better b c = false → better a c = false)
include hasymm htrans

theorem foldl_keepBetter_least {y : α}
    (h : xs.foldl (keepBetter p better) best = some y) :
    (∀ b, best = some b → better b y = false) ∧ ∀ x ∈ xs, p x = true → better x y = false := by
  induction xs generalizing best with
  | nil =>
    refine ⟨fun b hb => ?_, nofun⟩
    cases hb.symm.trans h
    cases hself : better y y with
    | false => rfl
    | true => exact hself.symm.trans (hasymm y y hself)
  | cons x xs ih =>
    -- What is kept after this round is not better than `y`, so neither is what it beats.
    obtain ⟨hkept, hrest⟩ := ih h
    rw [List.forall_mem_cons, ← and_assoc]
    refine ⟨?_, hrest⟩
    unfold keepBetter at hkept
    split at hkept
    · split at hkept
      · exact ⟨nofun, fun _ => hkept x rfl⟩
      · next b =>
        simp only [Option.some.injEq, forall_eq']
        split at hkept
        · next hx => exact ⟨htrans b x y (hasymm x b hx) (hkept x rfl), fun _ => hkept x rfl⟩
        · next hx =>
          exact ⟨hkept b rfl, fun _ => htrans x b y (Bool.eq_false_iff.mpr hx) (hkept b rfl)⟩
    · next hp => exact ⟨hkept, fun hp' => absurd hp' hp⟩

/-- Nothing that qualifies is better than what was selected. -/
theorem selectBest_least {x y : α} (h : selectBest p better xs = some y)
    (hx : x ∈ xs) (hp : p x = true) : better x y = false :=
  (foldl_keepBetter_least hasymm htrans h).2 x hx hp

end
