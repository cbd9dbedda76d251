import Mathlib.Logic.Function.Basic
import NexusVPN.Lib.GoMap

/-! # Maps of pointers

    A Go `map[K]*V`: a key leads to a cell, and the cell holds a value.  Whoever has copied
    the pointer out of the map sees what is written to the cell later on, but not what is
    stored under the key in a new cell.

    * `put` stores a value in a new cell, `modify` and `modifyAll` write to the cells that
      are there, `del` and `deleteLoop` forget pointers.
    * `Extends`: nothing has been written to a cell that was there. -/

structure Cells (K V : Type) [DecidableEq K] (key : V → K) where
  refs : GoMap K Nat
  heap : List V
  /-- Every pointer leads to a value that carries the key. -/
  valid : ∀ {k a}, refs.lookup k = some a → ∃ v, heap[a]? = some v ∧ key v = k

namespace Cells

open List Option GoMap Function

variable {K V : Type} [DecidableEq K] {key : V → K}

def empty : Cells K V key := ⟨∅, [], by simp⟩

/-- `m[k]`, and what the pointer leads to. -/
def get (c : Cells K V key) (k : K) : Option V := (c.refs.lookup k).bind (c.heap[·]?)

/-- `m[v.key] = clone(v)`. -/
def put (c : Cells K V key) (v : V) : Cells K V key where
  refs := c.refs.insert (key v) c.heap.length
  heap := c.heap ++ [v]
  valid := by
    intro k a h
    rw [lookup_insert_if] at h
    split at h
    · next hk =>
      cases h
      exact ⟨v, by simp, hk.symm⟩
    · obtain ⟨w, hw, hkey⟩ := c.valid h
      refine ⟨w, ?_, hkey⟩
      rw [getElem?_append_left (List.getElem?_eq_some_iff.mp hw).1, hw]

/-- `p := m[k]; *p = f(*p)`, where `f` changes no key. -/
def modify (c : Cells K V key) (k : K) (f : V → V) (hf : ∀ v, key (f v) = key v) :
    Cells K V key where
  refs := c.refs
  heap :=
    match c.refs.lookup k with
    | none => c.heap
    | some a => c.heap.modify a f
  valid := by
    intro k' a' h
    obtain ⟨v, hv, hkey⟩ := c.valid h
    split
    · exact ⟨v, hv, hkey⟩
    · next a _ =>
      rw [getElem?_modify, hv]
      refine ⟨if a = a' then f v else v, rfl, ?_⟩
      split
      · exact (hf v).trans hkey
      · exact hkey

/-- `for _, p := range m { *p = f(*p) }`. -/
def modifyAll (c : Cells K V key) (ord : MapOrder K) (f : V → V) (hf : ∀ v, key (f v) = key v) :
    Cells K V key :=
  (ord.list c.refs.keys).foldl (fun c k => c.modify k f hf) c

/-- `delete(m, k)`. -/
def del (c : Cells K V key) (k : K) : Cells K V key where
  refs := c.refs.erase k
  heap := c.heap
  valid := by
    intro k' a h
    rw [lookup_erase_if] at h
    split at h
    · cases h
    · exact c.valid h

/-- `for k, p := range m { if cond(*p) { delete(m, k) } }`. -/
def deleteLoop (c : Cells K V key) (ord : MapOrder K) (cond : V → Bool) : Cells K V key where
  refs := GoMap.deleteLoop ord (fun _ a => (c.heap[a]?).any cond) c.refs
  heap := c.heap
  valid := by
    intro k a h
    rw [lookup_deleteLoop] at h
    exact c.valid (filter_eq_some_iff.mp h).1

/-! ## Copies of the pointers -/

/-- The pointers that a `range` loop visits, in its order. -/
def pointers (c : Cells K V key) (ord : MapOrder K) : List Nat :=
  (GoMap.range ord c.refs).map Prod.snd

/-- What pointers lead to. -/
def image (heap : List V) (as : List Nat) : List V := as.filterMap (heap[·]?)

theorem image_cons (heap : List V) (a : Nat) (as : List Nat) :
    image heap (a :: as) = (heap[a]?).toList ++ image heap as := by
  unfold image
  cases h : heap[a]? with
  | none | some => simp [h]

/-- The values that a `range` loop visits, in its order. -/
def values (c : Cells K V key) (ord : MapOrder K) : List V := image c.heap (c.pointers ord)

theorem mem_values {c : Cells K V key} {ord : MapOrder K} {v : V} :
    v ∈ c.values ord ↔ c.get (key v) = some v := by
  rw [values, image, mem_filterMap]
  constructor
  · rintro ⟨a, ha, hv⟩
    obtain ⟨⟨k, a⟩, hrange, rfl⟩ := mem_map.mp ha
    have hlook := mem_range.mp hrange
    obtain ⟨w, hw, hkey⟩ := c.valid hlook
    cases hw.symm.trans hv
    rw [get, hkey, hlook]
    exact hv
  · intro h
    obtain ⟨a, hlook, hv⟩ := bind_eq_some_iff.mp h
    exact ⟨a, mem_map.mpr ⟨(key v, a), mem_range.mpr hlook, rfl⟩, hv⟩

theorem lt_of_mem_pointers {c : Cells K V key} {ord : MapOrder K} {a : Nat}
    (h : a ∈ c.pointers ord) : a < c.heap.length := by
  obtain ⟨⟨k, a⟩, hrange, rfl⟩ := mem_map.mp h
  obtain ⟨v, hv, -⟩ := c.valid (mem_range.mp hrange)
  exact (List.getElem?_eq_some_iff.mp hv).1

/-! ## Filling a map -/

/-- `for _, v := range rows { m[v.key] = v }`. -/
def collect (key : V → K) (rows : List V) : K → Option V :=
  rows.foldl (fun m v => update m (key v) (some v)) fun _ => none

theorem foldl_update (rows : List V) (m : K → Option V) (k : K) :
    (∃ v ∈ rows, key v = k ∧ rows.foldl (fun m v => update m (key v) (some v)) m k = some v) ∨
    (∀ v ∈ rows, key v ≠ k) ∧ rows.foldl (fun m v => update m (key v) (some v)) m k = m k := by
  induction rows generalizing m with
  | nil => exact .inr ⟨nofun, rfl⟩
  | cons v rows ih =>
    rw [foldl_cons]
    rcases ih (update m (key v) (some v)) with ⟨w, hw, hkey, heq⟩ | ⟨hnone, heq⟩
    · exact .inl ⟨w, mem_cons_of_mem v hw, hkey, heq⟩
    · by_cases hkey : key v = k
      · refine .inl ⟨v, mem_cons_self, hkey, ?_⟩
        rw [heq, hkey, update_self]
      · refine .inr ⟨?_, ?_⟩
        · exact forall_mem_cons.mpr ⟨hkey, hnone⟩
        · rw [heq, update_of_ne (Ne.symm hkey)]

/-- The values of a map fill another one with the same entries. -/
theorem collect_values (c : Cells K V key) (ord : MapOrder K) :
    collect key (c.values ord) = c.get := by
  funext k
  rcases foldl_update (c.values ord) (fun _ => none) k with ⟨v, hv, hkey, heq⟩ | ⟨hnone, heq⟩
  · rw [collect, heq, ← hkey]
    exact (mem_values.mp hv).symm
  · rw [collect, heq]
    cases hget : c.get k with
    | none => rfl
    | some v =>
      obtain ⟨a, hlook, hv⟩ := bind_eq_some_iff.mp hget
      obtain ⟨w, hw, hkey⟩ := c.valid hlook
      obtain rfl := some.inj (hw.symm.trans hv)
      exact absurd hkey (hnone w (mem_values.mpr (hkey ▸ hget)))

/-! ## What is not written to -/

/-- All cells that there were hold what they held. -/
def Extends (c c' : Cells K V key) : Prop := ∃ more, c'.heap = c.heap ++ more

section

variable (c : Cells K V key)
include c

theorem Extends.refl : c.Extends c := ⟨[], by simp⟩

theorem extends_put (v : V) : c.Extends (c.put v) := ⟨[v], rfl⟩

theorem extends_del (k : K) : c.Extends (c.del k) := .refl c

theorem extends_deleteLoop (ord : MapOrder K) (cond : V → Bool) :
    c.Extends (c.deleteLoop ord cond) :=
  .refl c

end

theorem Extends.getElem? {c c' : Cells K V key} (h : c.Extends c') {a : Nat}
    (ha : a < c.heap.length) : c'.heap[a]? = c.heap[a]? := by
  obtain ⟨more, hmore⟩ := h
  rw [hmore, getElem?_append_left ha]

theorem Extends.length_le {c c' : Cells K V key} (h : c.Extends c') :
    c.heap.length ≤ c'.heap.length := by
  obtain ⟨more, hmore⟩ := h
  rw [hmore, length_append]
  exact Nat.le_add_right _ _

end Cells
