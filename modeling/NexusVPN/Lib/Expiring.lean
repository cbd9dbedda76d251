import NexusVPN.Lib.GoMap

/-! # Maps whose entries expire

    An entry carries the time up to which it counts.  Whoever reads the map looks at the
    clock, and a sweep removes what is out of date from time to time.

    * `Alike`: two maps in which, at a given time, the same entries count.  They stay alike as
      time goes on, under every update, and when one of them is swept. -/

namespace GoMap

open Option

variable {K V : Type} [DecidableEq K]

theorem nodup_range (ord : MapOrder K) (m : GoMap K V) : (range ord m).Nodup := by
  refine List.Nodup.filterMap ?_ ((ord.perm _).nodup_iff.mpr m.keys_nodup)
  intro k k' e he he'
  obtain ⟨v, -, rfl⟩ := map_eq_some_iff.mp he
  obtain ⟨v', -, heq⟩ := map_eq_some_iff.mp he'
  exact (congrArg Prod.fst heq).symm

section

variable {expires : V → Int} {now now' : Int} {m m' : GoMap K V}

/-- The entry under the key, unless it is out of date. -/
def live (expires : V → Int) (now : Int) (m : GoMap K V) (k : K) : Option V :=
  (m.lookup k).filter fun v => now ≤ expires v

theorem live_eq_some {k : K} {v : V} :
    live expires now m k = some v ↔ m.lookup k = some v ∧ now ≤ expires v := by
  rw [live, filter_eq_some_iff, decide_eq_true_iff]

/-- The test that a reader makes. -/
theorem live_eq (expires : V → Int) (now : Int) (m : GoMap K V) (k : K) :
    live expires now m k = (m.lookup k).bind fun v => if expires v < now then none else some v := by
  unfold live
  cases m.lookup k with
  | none => rfl
  | some v =>
    by_cases hv : now ≤ expires v
    · simp [Option.filter, hv, Int.not_lt.mpr hv]
    · simp [Option.filter, hv, Int.not_le.mp hv]

/-- At that time the same entries count. -/
def Alike (expires : V → Int) (now : Int) (m m' : GoMap K V) : Prop :=
  ∀ k, live expires now m k = live expires now m' k

theorem Alike.refl (m : GoMap K V) : Alike expires now m m := fun _ => rfl

theorem Alike.insert (h : Alike expires now m m') (a : K) (v : V) :
    Alike expires now (m.insert a v) (m'.insert a v) := by
  intro k
  unfold live
  rw [lookup_insert_if, lookup_insert_if]
  split
  · rfl
  · exact h k

theorem Alike.erase (h : Alike expires now m m') (a : K) :
    Alike expires now (m.erase a) (m'.erase a) := by
  intro k
  unfold live
  rw [lookup_erase_if, lookup_erase_if]
  split
  · rfl
  · exact h k

/-- A sweep removes nothing that counts when it looks at the clock, or later. -/
theorem live_sweep (ord : MapOrder K) {p : K → V → Bool}
    (hp : ∀ k v, p k v = true → expires v < now) (m : GoMap K V) (k : K) :
    live expires now (deleteLoop ord p m) k = live expires now m k := by
  refine Option.ext fun v => ?_
  rw [live_eq_some, live_eq_some, lookup_deleteLoop, filter_eq_some_iff]
  refine ⟨fun hv => ⟨hv.1.1, hv.2⟩, fun hv => ⟨⟨hv.1, ?_⟩, hv.2⟩⟩
  cases hpv : p k v with
  | false => rfl
  | true => exact absurd (hp k v hpv) (Int.not_lt.mpr hv.2)

/-- Both loops visit the same entries, if all that they take still count. -/
theorem Alike.perm_range (h : Alike expires now m m') (ord ord' : MapOrder K) {p : K × V → Bool}
    (hp : ∀ e, p e = true → now ≤ expires e.2) :
    ((range ord m).filter p).Perm ((range ord' m').filter p) := by
  refine (List.perm_ext_iff_of_nodup ((nodup_range ord m).filter p)
    ((nodup_range ord' m').filter p)).mpr ?_
  rintro ⟨k, v⟩
  rw [List.mem_filter, List.mem_filter, mem_range, mem_range]
  refine and_congr_left fun hpv => ?_
  have hv : now ≤ expires v := hp (k, v) hpv
  have hlive : m.lookup k = some v ∧ now ≤ expires v ↔ m'.lookup k = some v ∧ now ≤ expires v := by
    rw [← live_eq_some, ← live_eq_some, h k]
  exact ⟨fun hm => (hlive.mp ⟨hm, hv⟩).1, fun hm => (hlive.mpr ⟨hm, hv⟩).1⟩

end

end GoMap
