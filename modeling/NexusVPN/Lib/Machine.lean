import Mathlib.Data.List.Induction
import Mathlib.Tactic.Choose

/-! # Machines and their runs

    A machine is a partial step function.  A system whose next state depends on a scheduler, a
    clock or an adversary puts what they decide into the action, so that its runs are exactly
    the lists of actions.

    * `Reachable.invariant`: the induction over runs, done once.
    * `Along`, `Throughout`: a condition on every step that a run takes, and one on every state
      it goes through; `Visits`: one on some state that it goes through.
    * `RunsForever`: runs without end of a step relation. -/

namespace Machine

open Option

variable {σ α : Type} {step : σ → α → Option σ}

/-- Take the actions one after the other; `none` if one of them is not possible. -/
def run (step : σ → α → Option σ) : σ → List α → Option σ
  | s, [] => some s
  | s, a :: as => (step s a).bind fun s' => run step s' as

theorem run_cons (s : σ) (a : α) (as : List α) :
    run step s (a :: as) = (step s a).bind fun s' => run step s' as := rfl

variable {s s' : σ} {a : α} {as : List α} {P : σ → Prop} {C D : σ → α → Prop}

theorem run_cons_of_step (h : step s a = some s') (as : List α) :
    run step s (a :: as) = run step s' as := by
  rw [run_cons, h]; rfl

theorem run_append (s : σ) (as bs : List α) :
    run step s (as ++ bs) = (run step s as).bind fun s' => run step s' bs := by
  induction as generalizing s with
  | nil => rfl
  | cons a as ih =>
    rw [List.cons_append, run_cons, run_cons]
    cases hstep : step s a with
    | none => rfl
    | some s' => exact ih s'

theorem run_snoc {s₁ s₂ : σ} (hrun : run step s as = some s₁) (hstep : step s₁ a = some s₂) :
    run step s (as ++ [a]) = some s₂ := by
  rw [run_append, hrun]
  show run step s₁ [a] = some s₂
  rw [run_cons_of_step hstep]
  rfl

/-- A function that commutes with every step commutes with runs. -/
theorem run_map {σ' : Type} {step' : σ' → α → Option σ'} {f : σ → σ'}
    (hf : ∀ s a, (step s a).map f = step' (f s) a) (s : σ) (as : List α) :
    (run step s as).map f = run step' (f s) as := by
  induction as generalizing s with
  | nil => rfl
  | cons a as ih =>
    rw [run_cons, run_cons, ← hf s a]
    cases step s a with
    | none => rfl
    | some s' => exact ih s'

/-- Some run leads from `s₀` to `s`. -/
def Reachable (step : σ → α → Option σ) (s₀ s : σ) : Prop := ∃ as, run step s₀ as = some s

theorem Reachable.refl (s : σ) : Reachable step s s := ⟨[], rfl⟩

theorem Reachable.tail {s₀ : σ} (h : Reachable step s₀ s) (hstep : step s a = some s') :
    Reachable step s₀ s' := by
  obtain ⟨as, has⟩ := h
  exact ⟨as ++ [a], run_snoc has hstep⟩

theorem run_invariant (hstep : ∀ s a s', P s → step s a = some s' → P s') (h : P s)
    (hrun : run step s as = some s') : P s' := by
  induction as generalizing s with
  | nil => exact some.inj hrun ▸ h
  | cons a as ih =>
    obtain ⟨s₁, hs₁, hrest⟩ := bind_eq_some_iff.mp hrun
    exact ih (hstep s a s₁ h hs₁) hrest

/-- What holds at the start and is kept by every step holds wherever a run leads. -/
theorem Reachable.invariant {s₀ : σ} (hreach : Reachable step s₀ s) (hinit : P s₀)
    (hstep : ∀ s a s', P s → step s a = some s' → P s') : P s := by
  obtain ⟨as, hrun⟩ := hreach
  exact run_invariant hstep hinit hrun

/-! ## Runs under a condition -/

/-- Every step that the run takes meets `C` in the state it is taken in. -/
def Along (step : σ → α → Option σ) (C : σ → α → Prop) : σ → List α → Prop
  | _, [] => True
  | s, a :: as => ∀ s', step s a = some s' → C s a ∧ Along step C s' as

/-- Every state that the run goes through meets `P`. -/
def Throughout (step : σ → α → Option σ) (P : σ → Prop) : σ → List α → Prop
  | s, [] => P s
  | s, a :: as => P s ∧ ∀ s', step s a = some s' → Throughout step P s' as

theorem along_cons (hstep : step s a = some s') (hC : C s a) (hrest : Along step C s' as) :
    Along step C s (a :: as) := by
  intro s₁ hs₁
  cases hstep.symm.trans hs₁
  exact ⟨hC, hrest⟩

instance decidableAlong {C : σ → α → Prop} [∀ s a, Decidable (C s a)] :
    (s : σ) → (as : List α) → Decidable (Along step C s as)
  | _, [] => isTrue trivial
  | s, a :: as =>
    match hs : step s a with
    | none => isTrue fun s' hs' => absurd (hs.symm.trans hs') (by simp)
    | some s' =>
      have : Decidable (Along step C s' as) := decidableAlong s' as
      decidable_of_iff (C s a ∧ Along step C s' as)
        ⟨fun h => along_cons hs h.1 h.2, fun h => h s' hs⟩

theorem along_of_forall_mem (h : ∀ a ∈ as, ∀ s, C s a) (s : σ) : Along step C s as := by
  induction as generalizing s with
  | nil => trivial
  | cons a as ih =>
    intro s' _
    exact ⟨h a List.mem_cons_self s, ih (fun b hb => h b (List.mem_cons_of_mem _ hb)) s'⟩

theorem Along.split {bs : List α} (h : Along step C s (as ++ bs)) (hrun : run step s as = some s') :
    Along step C s as ∧ Along step C s' bs := by
  induction as generalizing s with
  | nil =>
    cases hrun
    exact ⟨trivial, h⟩
  | cons a as ih =>
    obtain ⟨s₁, hs₁, hrest⟩ := bind_eq_some_iff.mp hrun
    obtain ⟨hc, halong⟩ := h s₁ hs₁
    obtain ⟨hfirst, hlast⟩ := ih halong hrest
    exact ⟨along_cons hs₁ hc hfirst, hlast⟩

/-- Where a run leads that meets `C` all along. -/
theorem Along.invariant (hstep : ∀ s a s', P s → C s a → step s a = some s' → P s') (h : P s)
    (halong : Along step C s as) (hrun : run step s as = some s') : P s' := by
  induction as generalizing s with
  | nil => exact some.inj hrun ▸ h
  | cons a as ih =>
    obtain ⟨s₁, hs₁, hrest⟩ := bind_eq_some_iff.mp hrun
    obtain ⟨hc, hlater⟩ := halong s₁ hs₁
    exact ih (hstep s a s₁ h hc hs₁) hlater hrest

/-- What a run has brought about, one of its steps has. -/
theorem exists_step_of_run (h : ¬ P s) (hrun : run step s as = some s') (h' : P s') :
    ∃ as₁ a as₂ s₁ s₂, as = as₁ ++ a :: as₂ ∧ run step s as₁ = some s₁ ∧ ¬ P s₁ ∧
      step s₁ a = some s₂ ∧ P s₂ ∧ run step s₂ as₂ = some s' := by
  induction as generalizing s with
  | nil => exact absurd (some.inj hrun ▸ h') h
  | cons a as ih =>
    obtain ⟨s₁, hs₁, hrest⟩ := bind_eq_some_iff.mp hrun
    by_cases hP : P s₁
    · exact ⟨[], a, as, s, s₁, rfl, rfl, h, hs₁, hP, hrest⟩
    · obtain ⟨as₁, b, as₂, s₂, s₃, rfl, hs₂, hpre, hstep, hafter, hlast⟩ := ih hP hrest
      exact ⟨a :: as₁, b, as₂, s₂, s₃, rfl, by rw [run_cons_of_step hs₁, hs₂], hpre, hstep,
        hafter, hlast⟩

/-- Two conditions that come to the same wherever a run can be come to the same for runs.
    `J` is whatever the runs keep in any case. -/
theorem along_iff {J : σ → Prop} (hJ : ∀ s a s', J s → step s a = some s' → J s')
    (hiff : ∀ s a s', J s → step s a = some s' → (C s a ↔ D s a)) (hj : J s) (as : List α) :
    Along step C s as ↔ Along step D s as := by
  induction as generalizing s with
  | nil => exact Iff.rfl
  | cons a as ih =>
    refine forall_congr' fun s' => forall_congr' fun hs' => ?_
    exact and_congr (hiff s a s' hj hs') (ih (hJ s a s' hj hs'))

theorem Throughout.mono {Q : σ → Prop} (hPQ : ∀ s, P s → Q s) (h : Throughout step P s as) :
    Throughout step Q s as := by
  induction as generalizing s with
  | nil => exact hPQ s h
  | cons a as ih => exact ⟨hPQ s h.1, fun s' hs' => ih (h.2 s' hs')⟩

/-- What holds at the start and is kept by every step that meets `C` holds
    throughout the runs all of whose steps meet `C`. -/
theorem Along.throughout (hstep : ∀ s a s', P s → C s a → step s a = some s' → P s') (h : P s)
    (halong : Along step C s as) : Throughout step P s as := by
  induction as generalizing s with
  | nil => exact h
  | cons a as ih =>
    refine ⟨h, ?_⟩
    intro s' hs'
    obtain ⟨hc, hrest⟩ := halong s' hs'
    exact ih (hstep s a s' h hc hs') hrest

/-- What holds of every step where the run goes holds of the steps of the run. -/
theorem Throughout.along (h : Throughout step (fun s => ∀ a, D s a) s as) : Along step D s as := by
  induction as generalizing s with
  | nil => trivial
  | cons a as ih => exact fun s' hs' => ⟨h.1 a, ih (h.2 s' hs')⟩

/-- In such runs, every step is one that can be taken where `P` holds and `C` is met. -/
theorem Along.imp (hstep : ∀ s a s', P s → C s a → step s a = some s' → P s' ∧ D s a) (h : P s)
    (halong : Along step C s as) : Along step D s as := by
  induction as generalizing s with
  | nil => trivial
  | cons a as ih =>
    intro s' hs'
    obtain ⟨hc, hrest⟩ := halong s' hs'
    obtain ⟨hs, hd⟩ := hstep s a s' h hc hs'
    exact ⟨hd, ih hs hrest⟩

/-- If a step keeps `P` exactly when it meets `C`, a run keeps `P` throughout exactly
    when all of its steps meet `C`.  `J` is whatever the runs keep in any case. -/
theorem throughout_iff_along {J : σ → Prop} (hJ : ∀ s a s', J s → step s a = some s' → J s')
    (hiff : ∀ s a s', J s → P s → step s a = some s' → (P s' ↔ C s a)) (hj : J s) (hp : P s)
    (as : List α) : Throughout step P s as ↔ Along step C s as := by
  induction as generalizing s with
  | nil => exact ⟨fun _ => trivial, fun _ => hp⟩
  | cons a as ih =>
    constructor
    · intro h s' hs'
      have hp' : P s' := by
        have hrest := h.2 s' hs'
        cases as with
        | nil => exact hrest
        | cons b bs => exact hrest.1
      exact ⟨(hiff s a s' hj hp hs').mp hp', (ih (hJ s a s' hj hs') hp').mp (h.2 s' hs')⟩
    · intro h
      refine ⟨hp, ?_⟩
      intro s' hs'
      obtain ⟨hc, hrest⟩ := h s' hs'
      exact (ih (hJ s a s' hj hs') ((hiff s a s' hj hp hs').mpr hc)).mpr hrest

instance decidableThroughout {P : σ → Prop} [∀ s, Decidable (P s)] :
    (s : σ) → (as : List α) → Decidable (Throughout step P s as)
  | s, [] => inferInstanceAs (Decidable (P s))
  | s, a :: as =>
    match hs : step s a with
    | none =>
      decidable_of_iff (P s) ⟨fun h => ⟨h, fun s' hs' => by simp [hs] at hs'⟩, fun h => h.1⟩
    | some s' =>
      have : Decidable (Throughout step P s' as) := decidableThroughout s' as
      decidable_of_iff (P s ∧ Throughout step P s' as)
        ⟨fun h => ⟨h.1, fun s₁ hs₁ => some.inj (hs.symm.trans hs₁) ▸ h.2⟩,
          fun h => ⟨h.1, h.2 s' hs⟩⟩

/-! ## Instants of a run -/

/-- Some state that the run goes through meets `P`. -/
def Visits (step : σ → α → Option σ) (P : σ → Prop) : σ → List α → Prop
  | s, [] => P s
  | s, a :: as => P s ∨ ∃ s', step s a = some s' ∧ Visits step P s' as

theorem Visits.append (h : Visits step P s as) (bs : List α) : Visits step P s (as ++ bs) := by
  induction as generalizing s with
  | nil =>
    cases bs with
    | nil => exact h
    | cons b bs => exact .inl h
  | cons a as ih =>
    rcases h with hs | ⟨s', hs', hrest⟩
    · exact .inl hs
    · exact .inr ⟨s', hs', ih hrest⟩

theorem Visits.mono {Q : σ → Prop} (hPQ : ∀ s, P s → Q s) (h : Visits step P s as) :
    Visits step Q s as := by
  induction as generalizing s with
  | nil => exact hPQ s h
  | cons a as ih =>
    rcases h with hs | ⟨s', hs', hrest⟩
    · exact .inl (hPQ s hs)
    · exact .inr ⟨s', hs', ih hrest⟩

theorem visits_last (hrun : run step s as = some s') (h : P s') : Visits step P s as := by
  induction as generalizing s with
  | nil => exact some.inj hrun ▸ h
  | cons a as ih =>
    obtain ⟨s₁, hs₁, hrest⟩ := bind_eq_some_iff.mp hrun
    exact .inr ⟨s₁, hs₁, ih hrest⟩

theorem Throughout.not_visits (h : Throughout step (fun s => ¬ P s) s as) :
    ¬ Visits step P s as := by
  induction as generalizing s with
  | nil => exact h
  | cons a as ih =>
    rintro (hs | ⟨s', hs', hrest⟩)
    · exact h.1 hs
    · exact ih (h.2 s' hs') hrest

/-- Induction over a run that meets `C` all along, with what it has done so far. -/
theorem Along.induction {P : List α → σ → Prop} (hnil : P [] s)
    (hsnoc : ∀ as a s₁ s₂, run step s as = some s₁ → P as s₁ → C s₁ a → step s₁ a = some s₂ →
      P (as ++ [a]) s₂)
    (halong : Along step C s as) (hrun : run step s as = some s') : P as s' := by
  induction as using List.reverseRecOn generalizing s' with
  | nil => exact some.inj hrun ▸ hnil
  | append_singleton as a ih =>
    rw [run_append] at hrun
    obtain ⟨s₁, hs₁, hlast⟩ := bind_eq_some_iff.mp hrun
    obtain ⟨s₂, hs₂, hend⟩ := bind_eq_some_iff.mp hlast
    obtain rfl := some.inj hend
    obtain ⟨hpre, hstep⟩ := halong.split hs₁
    exact hsnoc as a s₁ s₂ hs₁ (ih hpre hs₁) (hstep s₂ hs₂).1 hs₂

/-! ## Infinite runs -/

section

variable {R : σ → σ → Prop}

/-- Some run from `s` goes on for ever. -/
def RunsForever (R : σ → σ → Prop) (s : σ) : Prop :=
  ∃ f : Nat → σ, f 0 = s ∧ ∀ i, R (f i) (f (i + 1))

theorem RunsForever.cons (hstep : R s s') (h : RunsForever R s') : RunsForever R s := by
  obtain ⟨f, rfl, hrun⟩ := h
  refine ⟨fun i => Nat.casesOn i s f, rfl, ?_⟩
  intro i
  cases i with
  | zero => exact hstep
  | succ i => exact hrun i

end

end Machine
