import Mathlib.Data.List.AList
import Mathlib.Data.List.Perm.Basic

/-! # Unordered maps with an explicit iteration order

    A Go `map` is an association list without duplicate keys (`AList`).  The language leaves
    the order of a `range` loop open, so every loop over a map takes a `MapOrder`; a result
    stated for every `MapOrder` holds for every iteration order.

    * `MapOrder`, `range`: the entries a `range` loop visits, in its order.
    * `deleteLoop`: the loop that deletes the entries matching a condition.
    * `Table`: a map whose values carry their own key. -/

/-- A Go `map[K]V`. -/
abbrev GoMap (K V : Type) := AList fun _ : K => V

/-- The order in which a `range` loop visits the keys of a map. -/
structure MapOrder (K : Type) where
  list : List K → List K
  perm : ∀ ks, (list ks).Perm ks

/-- The order in which the entries happen to be stored. -/
def MapOrder.asStored {K : Type} : MapOrder K := ⟨id, fun _ => .refl _⟩

/-- That key first, if it is there. -/
def MapOrder.first {K : Type} [DecidableEq K] (k : K) : MapOrder K where
  list ks := if k ∈ ks then k :: ks.erase k else ks
  perm ks := by
    split
    · next h => exact (List.perm_cons_erase h).symm
    · exact .refl _

namespace GoMap

open List Option GoMap

variable {K V : Type} [DecidableEq K]

/-! ## Lookup after an update -/

theorem lookup_insert_if (m : GoMap K V) (a k : K) (v : V) :
    (m.insert a v).lookup k = if k = a then some v else m.lookup k := by
  by_cases h : k = a
  · subst h; simp
  · simp [AList.lookup_insert_ne h, h]

theorem lookup_erase_if (m : GoMap K V) (a k : K) :
    (m.erase a).lookup k = if k = a then none else m.lookup k := by
  by_cases h : k = a
  · subst h; simp
  · simp [AList.lookup_erase_ne h, h]

/-! ## `range` loops -/

/-- The entries a `range` loop over `m` visits, in the order it visits them. -/
def range (ord : MapOrder K) (m : GoMap K V) : List (K × V) :=
  (ord.list m.keys).filterMap fun k => (m.lookup k).map fun v => (k, v)

variable {m : GoMap K V}

theorem mem_range {ord : MapOrder K} {k : K} {v : V} :
    (k, v) ∈ range ord m ↔ m.lookup k = some v := by
  unfold range
  rw [mem_filterMap]
  constructor
  · rintro ⟨k', -, h⟩
    obtain ⟨v', hv', heq⟩ := map_eq_some_iff.mp h
    cases heq
    exact hv'
  · intro h
    have hk : k ∈ m.keys := by
      rw [← AList.mem_keys, ← AList.lookup_isSome, h]; rfl
    exact ⟨k, (ord.perm _).mem_iff.mpr hk, by simp [h]⟩

/-- One round of `deleteLoop`. -/
def deleteStep (p : K → V → Bool) (m : GoMap K V) (e : K × V) : GoMap K V :=
  if p e.1 e.2 then m.erase e.1 else m

/-- `for k, v := range m { if p(k, v) { delete(m, k) } }`. -/
def deleteLoop (ord : MapOrder K) (p : K → V → Bool) (m : GoMap K V) : GoMap K V :=
  (range ord m).foldl (deleteStep p) m

open Classical in
theorem lookup_foldl_deleteStep (p : K → V → Bool) (es : List (K × V)) (m : GoMap K V) (k : K) :
    (es.foldl (deleteStep p) m).lookup k =
      if ∃ v, (k, v) ∈ es ∧ p k v = true then none else m.lookup k := by
  induction es generalizing m with
  | nil => simp
  | cons e es ih =>
    obtain ⟨k', v'⟩ := e
    rw [foldl_cons, ih]
    -- Keys are distinct in a map, but not assumed to be so in the list.
    by_cases hlater : ∃ v, (k, v) ∈ es ∧ p k v = true
    · obtain ⟨v, hv, hp⟩ := hlater
      rw [if_pos ⟨v, hv, hp⟩, if_pos ⟨v, mem_cons_of_mem _ hv, hp⟩]
    · rw [if_neg hlater]
      by_cases hnow : k = k' ∧ p k' v' = true
      · obtain ⟨rfl, hp⟩ := hnow
        rw [if_pos ⟨v', mem_cons_self, hp⟩]
        simp [deleteStep, hp]
      · have hnone : ¬ ∃ v, (k, v) ∈ (k', v') :: es ∧ p k v = true := by
          rintro ⟨v, hmem, hp⟩
          rcases mem_cons.mp hmem with heq | htail
          · cases heq
            exact hnow ⟨rfl, hp⟩
          · exact hlater ⟨v, htail, hp⟩
        rw [if_neg hnone]
        unfold deleteStep
        split
        · next hp =>
          have hne : k ≠ k' := fun heq => hnow ⟨heq, hp⟩
          exact AList.lookup_erase_ne hne
        · rfl

/-- The loop leaves exactly the entries that do not match, in every order. -/
theorem lookup_deleteLoop (ord : MapOrder K) (p : K → V → Bool) (m : GoMap K V) (k : K) :
    (deleteLoop ord p m).lookup k = (m.lookup k).filter fun v => !p k v := by
  unfold deleteLoop
  rw [lookup_foldl_deleteStep]
  cases h : m.lookup k with
  | none => simp
  | some v =>
    have hiff : (∃ v', (k, v') ∈ range ord m ∧ p k v' = true) ↔ p k v = true := by
      constructor
      · rintro ⟨v', hv', hp⟩
        rw [mem_range, h] at hv'
        exact some.inj hv' ▸ hp
      · exact fun hp => ⟨v, mem_range.mpr h, hp⟩
    by_cases hp : p k v = true
    · rw [if_pos (hiff.mpr hp), filter_some, hp]; rfl
    · rw [if_neg (fun hex => hp (hiff.mp hex)), filter_some, Bool.eq_false_iff.mpr hp]; rfl

/-! ## Changing every entry -/

/-- `for k, v := range m { m[k] = f(k, v) }`. -/
def mapValues (f : K → V → V) (m : GoMap K V) : GoMap K V where
  entries := m.entries.map fun e => ⟨e.1, f e.1 e.2⟩
  nodupKeys := m.nodupKeys.map₂ f _

theorem lookup_mapValues (f : K → V → V) (m : GoMap K V) (k : K) :
    (mapValues f m).lookup k = (m.lookup k).map (f k) :=
  dlookup_map₂ k

/-! ## Size -/

/-- `len(m)`. -/
def len (m : GoMap K V) : Nat := m.keys.length

theorem lookup_of_len_eq_zero (h : len m = 0) (k : K) : m.lookup k = none := by
  rw [AList.lookup_eq_none, AList.mem_keys, length_eq_zero_iff.mp h]
  exact not_mem_nil

theorem len_insert_mem {k : K} {v : V} (h : k ∈ m) : len (m.insert k v) = len m := by
  have hk : k ∈ m.keys := AList.mem_keys.mp h
  have hpos : 0 < m.keys.length := length_pos_of_mem hk
  simp only [len, AList.keys_insert, length_cons, length_erase_of_mem hk]
  omega

end GoMap

/-! ## Maps whose values carry their key -/

/-- A map in which every value sits under its own key. -/
structure Table (K V : Type) [DecidableEq K] (key : V → K) where
  map : GoMap K V
  keyed : ∀ {k v}, map.lookup k = some v → key v = k

namespace Table

variable {K V : Type} [DecidableEq K] {key : V → K}

/-- The table without entries. -/
def empty : Table K V key := ⟨∅, by simp⟩

/-- `m[k]`. -/
def get (t : Table K V key) (k : K) : Option V := t.map.lookup k

/-- `m[v.key] = v`. -/
def put (t : Table K V key) (v : V) : Table K V key where
  map := t.map.insert (key v) v
  keyed := by
    intro k w h
    rw [GoMap.lookup_insert_if] at h
    split at h
    · next hk => rw [← Option.some.inj h, hk]
    · exact t.keyed h

/-- `delete(m, k)`. -/
def del (t : Table K V key) (k : K) : Table K V key where
  map := t.map.erase k
  keyed := by
    intro k' w h
    rw [GoMap.lookup_erase_if] at h
    split at h
    · cases h
    · exact t.keyed h

/-- `for k, v := range m { if p(v) { delete(m, k) } }`. -/
def deleteLoop (t : Table K V key) (ord : MapOrder K) (p : V → Bool) : Table K V key where
  map := GoMap.deleteLoop ord (fun _ v => p v) t.map
  keyed := by
    intro k w h
    rw [GoMap.lookup_deleteLoop] at h
    exact t.keyed (Option.filter_eq_some_iff.mp h).1

/-- `for k, v := range m { m[k] = f(v) }`, where `f` changes no key. -/
def mapValues (t : Table K V key) (f : V → V) (hf : ∀ v, key (f v) = key v) : Table K V key where
  map := GoMap.mapValues (fun _ v => f v) t.map
  keyed := by
    intro k w h
    rw [GoMap.lookup_mapValues] at h
    obtain ⟨v, hv, rfl⟩ := Option.map_eq_some_iff.mp h
    rw [hf, t.keyed hv]

/-- The values a `range` loop visits, in its order. -/
def values (t : Table K V key) (ord : MapOrder K) : List V := (GoMap.range ord t.map).map Prod.snd

/-- `len(m)`. -/
def len (t : Table K V key) : Nat := GoMap.len t.map

@[simp] theorem get_empty (k : K) : (empty : Table K V key).get k = none := rfl

section

variable (t : Table K V key)
include t

theorem get_put (v : V) (k : K) : (t.put v).get k = if k = key v then some v else t.get k :=
  GoMap.lookup_insert_if _ _ _ _

theorem get_del (a k : K) : (t.del a).get k = if k = a then none else t.get k :=
  GoMap.lookup_erase_if _ _ _

theorem get_deleteLoop (ord : MapOrder K) (p : V → Bool) (k : K) :
    (t.deleteLoop ord p).get k = (t.get k).filter fun v => !p v :=
  GoMap.lookup_deleteLoop _ _ _ _

theorem get_mapValues (f : V → V) (hf : ∀ v, key (f v) = key v) (k : K) :
    (t.mapValues f hf).get k = (t.get k).map f :=
  GoMap.lookup_mapValues _ _ _

end

variable {t : Table K V key}

theorem key_of_get {k : K} {v : V} (h : t.get k = some v) : key v = k := t.keyed h

theorem mem_values {ord : MapOrder K} {v : V} : v ∈ t.values ord ↔ t.get (key v) = some v := by
  unfold values
  rw [List.mem_map]
  constructor
  · rintro ⟨⟨k, w⟩, hmem, rfl⟩
    have hget : t.get k = some w := GoMap.mem_range.mp hmem
    rw [key_of_get hget]; exact hget
  · intro h
    exact ⟨(key v, v), GoMap.mem_range.mpr h, rfl⟩

theorem mem_keys {k : K} : k ∈ t.map.keys ↔ (t.get k).isSome := by
  rw [← AList.mem_keys, ← AList.lookup_isSome]; rfl

/-- What a search comes across is in the table, and matches. -/
theorem found {p : V → Bool} {ord : MapOrder K} {v : V} (h : (t.values ord).find? p = some v) :
    t.get (key v) = some v ∧ p v = true :=
  ⟨mem_values.mp (List.mem_of_find?_eq_some h), List.find?_some h⟩

/-- Any value that matches may be the one that a search comes across first. -/
theorem find_values_first {p : V → Bool} {v : V} (hget : t.get (key v) = some v) (hp : p v = true) :
    (t.values (.first (key v))).find? p = some v := by
  have hkey : key v ∈ t.map.keys := mem_keys.mpr (by rw [hget]; rfl)
  have hlook : t.map.lookup (key v) = some v := hget
  simp only [values, GoMap.range, MapOrder.first, if_pos hkey, List.filterMap_cons, hlook,
    Option.map_some, List.map_cons, List.find?_cons, hp]

theorem get_of_len_eq_zero (h : t.len = 0) (k : K) : t.get k = none :=
  GoMap.lookup_of_len_eq_zero h k

theorem exists_get_of_len (h : ¬ t.len = 0) : ∃ k v, t.get k = some v := by
  obtain ⟨k, hk⟩ := List.exists_mem_of_length_pos (Nat.pos_of_ne_zero h)
  obtain ⟨v, hv⟩ := Option.isSome_iff_exists.mp (mem_keys.mp hk)
  exact ⟨k, v, hv⟩

theorem len_del_present {k : K} {v : V} (h : t.get k = some v) : (t.del k).len + 1 = t.len := by
  have hk : k ∈ t.map.keys := mem_keys.mpr (by rw [h]; rfl)
  have hpos := List.length_pos_of_mem hk
  show (t.map.erase k).keys.length + 1 = t.map.keys.length
  rw [AList.keys_erase, List.length_erase_of_mem hk]
  omega

theorem len_put_present {v w : V} (h : t.get (key v) = some w) : (t.put v).len = t.len := by
  apply GoMap.len_insert_mem
  rw [← AList.lookup_isSome]
  show (t.get (key v)).isSome
  rw [h]; rfl

end Table
