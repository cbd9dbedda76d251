import Mathlib.Data.List.Basic

/-! # Mirrors

    A mirror keeps a copy of a set that it cannot see.  It learns of the set from notices,
    which reach it in the order in which they were sent: that something is there, that
    something is gone, or neither.

    * `outlook`: the belief once every notice under way has arrived.  A mirror is in order if
      the outlook for everything outside the set is that it is not there. -/

inductive Notice (κ : Type) where
  | there (k : κ)
  | gone (k : κ)
  | silent

namespace Notice

variable {κ : Type} [DecidableEq κ]

/-- The belief that `k` is there, after the notice. -/
def after (k : κ) (believed : Bool) : Notice κ → Bool
  | .there j => believed || j = k
  | .gone j => believed && j ≠ k
  | .silent => believed

/-- The belief that `k` is there, after the notices. -/
def outlook (k : κ) (believed : Bool) (ns : List (Notice κ)) : Bool := ns.foldl (after k) believed

@[simp] theorem outlook_nil (k : κ) (b : Bool) : outlook k b [] = b := rfl

@[simp] theorem outlook_cons (k : κ) (b : Bool) (n : Notice κ) (ns : List (Notice κ)) :
    outlook k b (n :: ns) = outlook k (n.after k b) ns := rfl

theorem outlook_append (k : κ) (b : Bool) (ns ms : List (Notice κ)) :
    outlook k b (ns ++ ms) = outlook k (outlook k b ns) ms := List.foldl_append

theorem after_mono {k : κ} {b b' : Bool} (h : b = true → b' = true) (n : Notice κ)
    (hb : n.after k b = true) : n.after k b' = true := by
  cases b <;> cases b' <;> cases n <;> simp_all [after]

/-- Who believes less now will not believe more in the end. -/
theorem outlook_mono {k : κ} {b b' : Bool} (h : b = true → b' = true) (ns : List (Notice κ))
    (hb : outlook k b ns = true) : outlook k b' ns = true := by
  induction ns generalizing b b' with
  | nil => exact h hb
  | cons n ns ih => exact ih (after_mono h n) hb

/-- The last notice is that it is gone. -/
theorem outlook_gone (k : κ) (b : Bool) (ns : List (Notice κ)) :
    outlook k b (ns ++ [.gone k]) = false := by
  rw [outlook_append]
  simp [after]

/-- What is not believed to be there comes to be believed on its own notice only. -/
theorem after_unmentioned {k : κ} {n : Notice κ} (h : n ≠ .there k) : n.after k false = false := by
  cases n with
  | there j =>
    have hj : j ≠ k := fun heq => h (heq ▸ rfl)
    simp [after, hj]
  | gone | silent => rfl

/-- Nobody says that it is there. -/
theorem outlook_unmentioned {k : κ} {ns : List (Notice κ)} (h : ∀ n ∈ ns, n ≠ .there k) :
    outlook k false ns = false := by
  induction ns with
  | nil => rfl
  | cons n ns ih =>
    rw [outlook_cons, after_unmentioned (h n List.mem_cons_self)]
    exact ih fun m hm => h m (List.mem_cons_of_mem _ hm)

end Notice
