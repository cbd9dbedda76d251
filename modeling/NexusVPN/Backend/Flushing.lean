import NexusVPN.Backend.Persistence
import NexusVPN.Lib.Machine

/-! # Writing the embedded store to disk

    `Flush` copies the pointers to all rows while it holds the lock.  Then it encodes them,
    writes the text to a temporary file, and renames that.  It is called by the snapshot loop
    every second, and once more by `Close`. -/

namespace NexusVPN.Backend.Persistence

open Machine Option List

/-! ## Flush -/

inductive FlushError where
  | encode
  | write
  | rename

/-- How far a call of `Flush` has come. -/
inductive Flusher where
  | idle
  /-- It is about to take the lock. -/
  | called
  | encoding (todo : List Ref) (out : File)
  | writing (out : File)
  | written
  | returned (result : Except FlushError Unit)

structure Disk where
  memory : Memory
  tmp : Option Blob
  file : Option Blob
  /-- What was in memory at the latest snapshot.  Nothing reads it. -/
  snapped : Persist

/-- In which order the maps are copied, and what fails. -/
structure FlushInput where
  order : (c : Collection) → MapOrder c.Key
  encodes : Bool
  writes : Bool
  renames : Bool
  /-- What a write that fails leaves behind. -/
  left : Option Blob

namespace Flusher

/-- The part of `Flush` under the lock. -/
def snapshot (i : FlushInput) (d : Disk) : Flusher × Disk :=
  if d.memory.dirty then
    (.encoding (snapshotLocked i.order d.memory) (File.begin d.memory.logs),
      { d with memory := { d.memory with dirty := false }, snapped := d.memory.view })
  else (.returned (.ok ()), d)

def rename (i : FlushInput) (d : Disk) : Flusher × Disk :=
  match d.tmp with
  | none => (.returned (.error .rename), d)
  | some blob =>
    if i.renames then (.returned (.ok ()), { d with tmp := none, file := some blob })
    else (.returned (.error .rename), d)

def step (i : FlushInput) (d : Disk) : Flusher → Option (Flusher × Disk)
  | .idle | .returned _ => none
  | .called => some (snapshot i d)
  | .encoding (r :: todo) out => some (.encoding todo (out.push d.memory r), d)
  | .encoding [] out =>
    if i.encodes then some (.writing out, d) else some (.returned (.error .encode), d)
  | .writing out =>
    if i.writes then some (.written, { d with tmp := some (.whole out) })
    else some (.returned (.error .write), { d with tmp := i.left })
  | .written => some (rename i d)

def Called : Flusher → Prop
  | .called => True
  | _ => False

def Encoding : Flusher → Prop
  | .encoding _ _ => True
  | _ => False

/-- Between the snapshot and the renaming. -/
def Busy : Flusher → Prop
  | .encoding _ _ | .writing _ | .written => True
  | _ => False

/-- From the call to the return. -/
def Active : Flusher → Prop
  | .called | .encoding _ _ | .writing _ | .written => True
  | _ => False

section

variable (t : Flusher)

instance : Decidable t.Called := by
  cases t <;> unfold Called <;> infer_instance

instance : Decidable t.Encoding := by
  cases t <;> unfold Encoding <;> infer_instance

instance : Decidable t.Busy := by
  cases t <;> unfold Busy <;> infer_instance

instance : Decidable t.Active := by
  cases t <;> unfold Active <;> infer_instance

end

end Flusher

/-! ## The loop and `Close` -/

structure State where
  disk : Disk
  loop : Flusher
  close : Flusher

inductive Act where
  | mutate (m : Mutation) (i : MutationInput)
  /-- The ticker fires, and the loop calls `Flush`. -/
  | tick
  | loop (i : FlushInput)
  | close
  | closing (i : FlushInput)

section

variable (lib : StdLib)

def step (s : State) : Act → Option State
  | .mutate m i =>
    some { s with disk := { s.disk with memory := (mutate lib i m s.disk.memory).2 } }
  | .tick =>
    match s.loop with
    | .idle | .returned _ => some { s with loop := .called }
    | _ => none
  | .loop i => (s.loop.step i s.disk).map fun (f, d) => { s with disk := d, loop := f }
  -- A second `Close` does nothing.
  | .close =>
    match s.close with
    | .idle => some { s with close := .called }
    | _ => none
  | .closing i => (s.close.step i s.disk).map fun (f, d) => { s with disk := d, close := f }

end

/-- The store has been opened, and holds what is on disk. -/
structure Opened (s : State) : Prop where
  loaded : load s.disk.file = some s.disk.memory.view
  snapped : s.disk.snapped = s.disk.memory.view
  clean : s.disk.memory.dirty = false
  loop : s.loop = .idle
  close : s.close = .idle

/-! ## Conditions -/

/-- A snapshot is taken while the other call is not between its own and its renaming. -/
def Apart (s : State) : Act → Prop
  | .loop _ => s.loop.Called → s.disk.memory.dirty = true → ¬s.close.Busy
  | .closing _ => s.close.Called → s.disk.memory.dirty = true → ¬s.loop.Busy
  | .mutate _ _ | .tick | .close => True

/-- Rows are changed where they are only while none is being encoded. -/
def Undisturbed (s : State) : Act → Prop
  | .mutate m _ => m.inPlace = true → ¬s.loop.Encoding ∧ ¬s.close.Encoding
  | .tick | .loop _ | .close | .closing _ => True

/-- Encoding, writing and renaming succeed. -/
def Succeeds : Act → Prop
  | .loop i | .closing i => i.encodes = true ∧ i.writes = true ∧ i.renames = true
  | .mutate _ _ | .tick | .close => True

/-- Nothing happens between the call of `Flush` and its return. -/
def Sequential (s : State) : Act → Prop
  | .mutate _ _ | .tick | .close => ¬s.loop.Active ∧ ¬s.close.Active
  | .loop _ | .closing _ => True

/-- There is only the snapshot loop. -/
def Unclosed : Act → Prop
  | .close => False
  | .mutate _ _ | .tick | .loop _ | .closing _ => True

section

variable (s : State) (a : Act)

instance : Decidable (Apart s a) := by
  cases a <;> unfold Apart <;> infer_instance

instance : Decidable (Undisturbed s a) := by
  cases a <;> unfold Undisturbed <;> infer_instance

instance : Decidable (Succeeds a) := by
  cases a <;> unfold Succeeds <;> infer_instance

instance : Decidable (Sequential s a) := by
  cases a <;> unfold Sequential <;> infer_instance

instance : Decidable (Unclosed a) := by
  cases a <;> unfold Unclosed <;> infer_instance

end

/-! ## What is on its way -/

/-- What a call of `Flush` is about to put on disk was in memory at the latest snapshot. -/
def Carries (d : Disk) : Flusher → Prop
  | .encoding todo out =>
    (∀ r ∈ todo, r.address < (d.memory.rows r.collection).heap.length) ∧
      load (some (.whole (out.complete d.memory todo))) = some d.snapped
  | .writing out => load (some (.whole out)) = some d.snapped
  | .written => d.tmp ≠ none ∧ load d.tmp = some d.snapped
  | _ => True

/-- Two calls that do not get in each other's way. -/
structure Sound (d : Disk) (f g : Flusher) : Prop where
  /-- Without the flag, nothing has changed since the latest snapshot. -/
  clean : d.memory.dirty = false → d.memory.view = d.snapped
  first : Carries d f
  second : Carries d g
  alone : ¬(f.Busy ∧ g.Busy)

/-- When no call is under way, the latest snapshot is on disk. -/
def Saved (d : Disk) (f g : Flusher) : Prop := ¬f.Busy → ¬g.Busy → load d.file = some d.snapped

open Flusher

section

variable {d d' : Disk} {f f' g : Flusher} {i : FlushInput}

/-- What a call of `Flush` can do next. -/
inductive Flusher.Move (i : FlushInput) (d : Disk) : Flusher → Flusher → Disk → Prop where
  | snapshot (h : d.memory.dirty = true) : Move i d .called
      (.encoding (snapshotLocked i.order d.memory) (File.begin d.memory.logs))
      { d with memory := { d.memory with dirty := false }, snapped := d.memory.view }
  | clean (h : d.memory.dirty = false) : Move i d .called (.returned (.ok ())) d
  | push (r : Ref) (todo : List Ref) (out : File) :
      Move i d (.encoding (r :: todo) out) (.encoding todo (out.push d.memory r)) d
  | encoded (out : File) : Move i d (.encoding [] out) (.writing out) d
  | write (out : File) : Move i d (.writing out) .written { d with tmp := some (.whole out) }
  | rename (blob : Blob) (h : d.tmp = some blob) :
      Move i d .written (.returned (.ok ())) { d with tmp := none, file := some blob }
  /-- Something does not succeed, or there is no temporary file. -/
  | fail {f : Flusher} (e : FlushError) (tmp : Option Blob) (hbusy : f.Busy)
      (h : Carries d f → ¬(i.encodes = true ∧ i.writes = true ∧ i.renames = true)) :
      Move i d f (.returned (.error e)) { d with tmp := tmp }

theorem Flusher.move_of_step (h : f.step i d = some (f', d')) : Move i d f f' d' := by
  unfold step at h
  split at h
  · cases h
  · cases h
  · unfold snapshot at h
    split at h
    · next hdirty =>
      cases h
      exact .snapshot hdirty
    · next hclean =>
      cases h
      exact .clean (Bool.eq_false_iff.mpr hclean)
  · cases h
    exact .push _ _ _
  · split at h
    · cases h
      exact .encoded _
    · next hfails =>
      cases h
      exact .fail .encode d.tmp trivial fun _ hok => hfails hok.1
  · split at h
    · cases h
      exact .write _
    · next hfails =>
      cases h
      exact .fail .write i.left trivial fun _ hok => hfails hok.2.1
  · unfold rename at h
    split at h
    · next hnone =>
      cases h
      exact .fail .rename d.tmp trivial fun hcarry _ => hcarry.1 hnone
    · next blob hblob =>
      split at h
      · cases h
        exact .rename blob hblob
      · next hfails =>
        cases h
        exact .fail .rename d.tmp trivial fun _ hok => hfails hok.2.2

theorem Sound.symm (h : Sound d f g) : Sound d g f :=
  ⟨h.clean, h.second, h.first, fun hbusy => h.alone hbusy.symm⟩

theorem carries_of_not_busy (h : ¬f.Busy) : Carries d f := by
  cases f with
  | encoding | writing | written => exact (h trivial).elim
  | idle | called | returned result => trivial

theorem address_lt_of_mem_snapshotLocked {order : (c : Collection) → MapOrder c.Key} {s : Memory}
    {r : Ref} (hr : r ∈ snapshotLocked order s) :
    r.address < (s.rows r.collection).heap.length := by
  obtain ⟨c, -, hc⟩ := mem_flatMap.mp hr
  obtain ⟨a, ha, rfl⟩ := mem_map.mp hc
  exact Cells.lt_of_mem_pointers ha

theorem sound_flusher (h : Sound d f g) (hapart : f.Called → d.memory.dirty = true → ¬g.Busy)
    (hstep : f.step i d = some (f', d')) : Sound d' f' g := by
  have hother : f.Busy → ¬g.Busy := fun hbusy hbusy' => h.alone ⟨hbusy, hbusy'⟩
  cases move_of_step hstep with
  | snapshot hdirty =>
    refine ⟨fun _ => rfl, ⟨?_, load_snapshot i.order d.memory⟩, ?_, fun hbusy => ?_⟩
    · exact fun r hr => address_lt_of_mem_snapshotLocked hr
    · exact carries_of_not_busy (hapart trivial hdirty)
    · exact hapart trivial hdirty hbusy.2
  | clean => exact ⟨h.clean, trivial, h.second, fun hbusy => hbusy.1⟩
  | push r todo out =>
    obtain ⟨hrefs, hload⟩ := h.first
    refine ⟨h.clean, ⟨fun r' hr' => hrefs r' (mem_cons_of_mem r hr'), hload⟩, h.second, ?_⟩
    exact fun hbusy => hother trivial hbusy.2
  | encoded => exact ⟨h.clean, h.first.2, h.second, fun hbusy => hother trivial hbusy.2⟩
  | write =>
    refine ⟨h.clean, ⟨nofun, h.first⟩, carries_of_not_busy (hother trivial), ?_⟩
    exact fun hbusy => hother trivial hbusy.2
  | rename =>
    exact ⟨h.clean, trivial, carries_of_not_busy (hother trivial), fun hbusy => hbusy.1⟩
  | fail e tmp hbusy =>
    exact ⟨h.clean, trivial, carries_of_not_busy (hother hbusy), fun hbusy => hbusy.1⟩

theorem sound_mutate (h : Sound d f g) {lib : StdLib} {m : Mutation} {i : MutationInput}
    (hquiet : m.inPlace = true → ¬f.Encoding ∧ ¬g.Encoding) :
    Sound { d with memory := (mutate lib i m d.memory).2 } f g := by
  rcases effect_mutate lib i m d.memory with hsame | ⟨hdirty, hextends⟩
  · rw [hsame]
    exact h
  have hcarry : ∀ x : Flusher, Carries d x → (m.inPlace = true → ¬x.Encoding) →
      Carries { d with memory := (mutate lib i m d.memory).2 } x := by
    intro x hx hquiet
    cases x with
    | encoding todo out =>
      have hout : m.inPlace = false := by
        cases hm : m.inPlace with
        | false => rfl
        | true => exact (hquiet hm trivial).elim
      have hgrown := hextends hout
      refine ⟨fun r hr => Nat.lt_of_lt_of_le (hx.1 r hr) (hgrown r.collection).length_le, ?_⟩
      rw [complete_extends hgrown hx.1]
      exact hx.2
    | idle | called | writing out | written | returned result => exact hx
  refine ⟨fun hclean => ?_, hcarry f h.first fun hm => (hquiet hm).1,
    hcarry g h.second fun hm => (hquiet hm).2, h.alone⟩
  exact absurd hclean (by rw [hdirty]; exact Bool.noConfusion)

theorem saved_flusher (h : Sound d f g) (hsaved : Saved d f g)
    (hok : i.encodes = true ∧ i.writes = true ∧ i.renames = true)
    (hstep : f.step i d = some (f', d')) : Saved d' f' g := by
  cases move_of_step hstep with
  | clean => exact fun _ hother => hsaved id hother
  | rename blob hblob =>
    obtain ⟨-, hload⟩ := h.first
    intro _ _
    rw [← hblob]
    exact hload
  | fail e tmp hbusy hfails => exact absurd hok (hfails h.first)
  | snapshot | push | encoded | write => exact fun hbusy => (hbusy trivial).elim

end

/-! ## A small store -/

def plainStd : StdLib := ⟨fun _ => none, fun _ => "", fun _ _ => false, id⟩

def plainInput : MutationInput := ⟨0, .nil, fun _ => .asStored⟩

/-- Nothing fails. -/
def smooth : FlushInput := ⟨fun _ => .asStored, true, true, true, none⟩

/-- A store that has been opened for the first time. -/
def emptyState : State where
  disk := ⟨⟨fun _ => .empty, ⟨[], [], []⟩, false⟩, none, none, .empty⟩
  loop := .idle
  close := .idle

theorem opened_emptyState : Opened emptyState := ⟨rfl, rfl, rfl, rfl, rfl⟩

def plainError (message : String) : Act :=
  .mutate (.logError ⟨.nil, "api", "error", message, "", 0⟩) plainInput

/-! ## Whole runs -/

section

variable {lib : StdLib} {s s' : State} {a : Act}

theorem Opened.sound (h : Opened s) : Sound s.disk s.loop s.close := by
  rw [h.loop, h.close]
  exact ⟨fun _ => h.snapped.symm, trivial, trivial, fun hbusy => hbusy.1⟩

theorem Opened.saved (h : Opened s) : Saved s.disk s.loop s.close := by
  intro _ _
  rw [h.snapped]
  exact h.loaded

theorem Flusher.Busy.active {f : Flusher} (h : f.Busy) : f.Active := by
  cases f with
  | encoding todo out | writing out | written => trivial
  | _ => exact h.elim

theorem Flusher.Called.active {f : Flusher} (h : f.Called) : f.Active := by
  cases f with
  | called => trivial
  | _ => exact h.elim

theorem Flusher.Encoding.active {f : Flusher} (h : f.Encoding) : f.Active := by
  cases f with
  | encoding todo out => trivial
  | _ => exact h.elim

theorem Flusher.active_of_step {f f' : Flusher} {d d' : Disk} {i : FlushInput}
    (hstep : f.step i d = some (f', d')) : f.Active := by
  cases f with
  | idle | returned => cases hstep
  | called | encoding todo out | writing out | written => trivial

theorem step_cases (hstep : step lib s a = some s') :
    (∃ m i, a = .mutate m i ∧
      s' = { s with disk := { s.disk with memory := (mutate lib i m s.disk.memory).2 } }) ∨
    (a = .tick ∧ ¬s.loop.Active ∧ s' = { s with loop := .called }) ∨
    (∃ i f d, a = .loop i ∧ s.loop.step i s.disk = some (f, d) ∧
      s' = { s with disk := d, loop := f }) ∨
    (a = .close ∧ s.close = .idle ∧ s' = { s with close := .called }) ∨
    ∃ i f d, a = .closing i ∧ s.close.step i s.disk = some (f, d) ∧
      s' = { s with disk := d, close := f } := by
  cases a with
  | mutate m i => exact .inl ⟨m, i, rfl, (some.inj hstep).symm⟩
  | tick =>
    refine .inr (.inl ⟨rfl, ?_⟩)
    simp only [step] at hstep
    split at hstep
    · next hloop => exact ⟨by rw [hloop]; exact id, (some.inj hstep).symm⟩
    · next result hloop => exact ⟨by rw [hloop]; exact id, (some.inj hstep).symm⟩
    · cases hstep
  | loop i =>
    obtain ⟨⟨f, d⟩, hf, rfl⟩ := map_eq_some_iff.mp hstep
    exact .inr (.inr (.inl ⟨i, f, d, rfl, hf, rfl⟩))
  | close =>
    refine .inr (.inr (.inr (.inl ⟨rfl, ?_⟩)))
    simp only [step] at hstep
    split at hstep
    · next hclose => exact ⟨hclose, (some.inj hstep).symm⟩
    · cases hstep
  | closing i =>
    obtain ⟨⟨f, d⟩, hf, rfl⟩ := map_eq_some_iff.mp hstep
    exact .inr (.inr (.inr (.inr ⟨i, f, d, rfl, hf, rfl⟩)))

theorem sound_step (h : Sound s.disk s.loop s.close) (hapart : Apart s a)
    (hquiet : Undisturbed s a) (hstep : step lib s a = some s') :
    Sound s'.disk s'.loop s'.close := by
  rcases step_cases hstep with ⟨m, i, rfl, rfl⟩ | ⟨rfl, -, rfl⟩ | ⟨i, f, d, rfl, hf, rfl⟩ |
    ⟨rfl, -, rfl⟩ | ⟨i, f, d, rfl, hf, rfl⟩
  · exact sound_mutate h hquiet
  · exact ⟨h.clean, trivial, h.second, fun hbusy => hbusy.1⟩
  · exact sound_flusher h hapart hf
  · exact ⟨h.clean, h.first, trivial, fun hbusy => hbusy.2⟩
  · exact (sound_flusher h.symm hapart hf).symm

theorem saved_step (h : Sound s.disk s.loop s.close) (hsaved : Saved s.disk s.loop s.close)
    (hok : Succeeds a) (hstep : step lib s a = some s') : Saved s'.disk s'.loop s'.close := by
  rcases step_cases hstep with ⟨m, i, rfl, rfl⟩ | ⟨rfl, hloop, rfl⟩ | ⟨i, f, d, rfl, hf, rfl⟩ |
    ⟨rfl, hclose, rfl⟩ | ⟨i, f, d, rfl, hf, rfl⟩
  · exact hsaved
  · exact fun _ hother => hsaved (fun hbusy => hloop hbusy.active) hother
  · exact saved_flusher h hsaved hok hf
  · exact fun hother _ => hsaved hother (by rw [hclose]; exact id)
  · have hother : Saved s.disk s.close s.loop := fun hclose hloop => hsaved hloop hclose
    exact fun hloop hclose => saved_flusher h.symm hother hok hf hclose hloop

/-! ### One after the other -/

theorem alone_step (h : ¬(s.loop.Active ∧ s.close.Active)) (hseq : Sequential s a)
    (hstep : step lib s a = some s') : ¬(s'.loop.Active ∧ s'.close.Active) := by
  rcases step_cases hstep with ⟨m, i, rfl, rfl⟩ | ⟨rfl, -, rfl⟩ | ⟨i, f, d, rfl, hf, rfl⟩ |
    ⟨rfl, -, rfl⟩ | ⟨i, f, d, rfl, hf, rfl⟩
  · exact h
  · exact fun hact => hseq.2 hact.2
  · exact fun hact => h ⟨active_of_step hf, hact.2⟩
  · exact fun hact => hseq.1 hact.1
  · exact fun hact => h ⟨hact.1, active_of_step hf⟩

theorem apart_of_alone (h : ¬(s.loop.Active ∧ s.close.Active)) : Apart s a := by
  cases a with
  | loop i => exact fun hcall _ hbusy => h ⟨hcall.active, hbusy.active⟩
  | closing i => exact fun hcall _ hbusy => h ⟨hbusy.active, hcall.active⟩
  | mutate | tick | close => trivial

theorem Sequential.undisturbed (h : Sequential s a) : Undisturbed s a := by
  cases a with
  | mutate m i => exact fun _ => ⟨fun he => h.1 he.active, fun he => h.2 he.active⟩
  | tick | loop | close | closing => trivial

/-- Mutations and calls of `Flush` one after the other, all of which succeed: whenever no call
    is under way and the flag is not set, what is on disk is what is in memory. -/
theorem clean_on_disk {acts : List Act} (hs : Opened s)
    (halong : Along (step lib) (fun s a => Sequential s a ∧ Succeeds a) s acts)
    (hrun : run (step lib) s acts = some s') (hloop : ¬s'.loop.Active) (hclose : ¬s'.close.Active)
    (hclean : s'.disk.memory.dirty = false) : load s'.disk.file = some s'.disk.memory.view := by
  have hkept := halong.invariant
    (P := fun s => Sound s.disk s.loop s.close ∧ Saved s.disk s.loop s.close ∧
      ¬(s.loop.Active ∧ s.close.Active))
    (fun s a s' h hc hstep => by
      obtain ⟨hsound, hsaved, halone⟩ := h
      exact ⟨sound_step hsound (apart_of_alone halone) hc.1.undisturbed hstep,
        saved_step hsound hsaved hc.2 hstep, alone_step halone hc.1 hstep⟩)
    ⟨hs.sound, hs.saved, fun hact => by rw [hs.loop] at hact; exact hact.1⟩ hrun
  obtain ⟨hsound, hsaved, -⟩ := hkept
  rw [hsound.clean hclean]
  exact hsaved (fun hbusy => hloop hbusy.active) fun hbusy => hclose hbusy.active

/-- An error is logged, and `Flush` succeeds. -/
theorem clean_on_disk_smooth :
    ∃ s, run (step plainStd) emptyState
        (plainError "first" :: .tick :: replicate 4 (.loop smooth)) = some s ∧
      load s.disk.file = some s.disk.memory.view := by
  have halong : Along (step plainStd) (fun s a => Sequential s a ∧ Succeeds a) emptyState
      (plainError "first" :: .tick :: replicate 4 (.loop smooth)) := by decide +kernel
  exact ⟨_, rfl, clean_on_disk opened_emptyState halong rfl id id rfl⟩

/-- An error is logged, and `Flush` cannot write the temporary file.  The flag is not set any
    more, and the error is not on disk. -/
theorem failed_flush_is_clean :
    let as := [plainError "first", .tick, .loop smooth, .loop smooth,
      .loop { smooth with writes := false }]
    ∃ s, run (step plainStd) emptyState as = some s ∧
      Along (step plainStd) Sequential emptyState as ∧
      s.loop = .returned (.error .write) ∧ s.disk.memory.dirty = false ∧
      load s.disk.file ≠ some s.disk.memory.view := by
  refine ⟨_, rfl, by decide +kernel, rfl, rfl, ?_⟩
  intro heq
  have hlogs := congrArg (Option.map fun p : Persist => p.logs.errLogs.length) heq
  exact absurd hlogs (by decide +kernel)

/-! ### Instants -/

theorem snapped_flusher {f f' : Flusher} {d d' : Disk} {i : FlushInput}
    (hstep : f.step i d = some (f', d')) :
    (d'.snapped = d.snapped ∧ d'.memory = d.memory) ∨
      f = .called ∧ d'.memory.view = d'.snapped := by
  cases move_of_step hstep with
  | snapshot => exact .inr ⟨rfl, rfl⟩
  | _ => exact .inl ⟨rfl, rfl⟩

theorem snapped_step (hstep : step lib s a = some s') :
    s'.disk.snapped = s.disk.snapped ∨ s'.disk.memory.view = s'.disk.snapped := by
  rcases step_cases hstep with ⟨m, i, -, rfl⟩ | ⟨-, -, rfl⟩ | ⟨i, f, d, -, hf, rfl⟩ |
    ⟨-, -, rfl⟩ | ⟨i, f, d, -, hf, rfl⟩
  · exact .inl rfl
  · exact .inl rfl
  · exact (snapped_flusher hf).imp And.left And.right
  · exact .inl rfl
  · exact (snapped_flusher hf).imp And.left And.right

theorem called_step (h : Sound s.disk s.loop s.close) (hcall : s.close = .called)
    (hstep : step lib s a = some s') :
    s'.close = .called ∨ s'.disk.memory.view = s'.disk.snapped := by
  rcases step_cases hstep with ⟨m, i, -, rfl⟩ | ⟨-, -, rfl⟩ | ⟨i, f, d, -, hf, rfl⟩ |
    ⟨-, -, rfl⟩ | ⟨i, f, d, -, hf, rfl⟩
  · exact .inl hcall
  · exact .inl hcall
  · exact .inl hcall
  · exact .inl rfl
  · rw [hcall] at hf
    cases move_of_step hf with
    | snapshot => exact .inr rfl
    | clean hclean => exact .inr (h.clean hclean)
    | fail e tmp hbusy => exact hbusy.elim

theorem visits_snapped_step {start : State} {acts : List Act}
    (hrun : run (step lib) start acts = some s)
    (h : Visits (step lib) (fun t => t.disk.memory.view = s.disk.snapped) start acts)
    (hstep : step lib s a = some s') :
    Visits (step lib) (fun t => t.disk.memory.view = s'.disk.snapped) start (acts ++ [a]) := by
  rcases snapped_step hstep with hsame | hnew
  · rw [hsame]
    exact h.append [a]
  · exact visits_last (run_snoc hrun hstep) hnew

theorem visits_snapped {start : State} (hs : Opened start) {acts : List Act}
    (hrun : run (step lib) start acts = some s) :
    Visits (step lib) (fun t => t.disk.memory.view = s.disk.snapped) start acts := by
  refine Along.induction (C := fun _ _ => True)
    (P := fun acts s => Visits (step lib) (fun t => t.disk.memory.view = s.disk.snapped) start acts)
    ?_ ?_ (along_of_forall_mem (fun _ _ _ => trivial) start) hrun
  · exact hs.snapped.symm
  · intro acts a s s' hrun h _ hstep
    exact visits_snapped_step hrun h hstep

/-! ### Shutting down -/

/-- Snapshots do not overlap, no row is changed while it is to be encoded, and nothing fails. -/
def Orderly (s : State) (a : Act) : Prop := Apart s a ∧ Undisturbed s a ∧ Succeeds a

instance (s : State) (a : Act) : Decidable (Orderly s a) :=
  inferInstanceAs (Decidable (Apart s a ∧ Undisturbed s a ∧ Succeeds a))

/-- `Close` has returned, and no `Flush` of the loop is under way.  Then the latest snapshot
    is on disk, and it was in memory when `Close` was called or later. -/
theorem close_saves {s₁ s₂ s₃ : State} {before after : List Act} (hs : Opened s)
    (hpre : run (step lib) s before = some s₁) (hclose : step lib s₁ .close = some s₂)
    (hafter : run (step lib) s₂ after = some s₃)
    (halong : Along (step lib) Orderly s (before ++ .close :: after))
    (hret : ∃ result, s₃.close = .returned result) (hloop : ¬s₃.loop.Active) :
    load s₃.disk.file = some s₃.disk.snapped ∧
      Visits (step lib) (fun t => t.disk.memory.view = s₃.disk.snapped) s₂ after := by
  have hkeeps : ∀ s a s', Sound s.disk s.loop s.close ∧ Saved s.disk s.loop s.close →
      Orderly s a → step lib s a = some s' →
      Sound s'.disk s'.loop s'.close ∧ Saved s'.disk s'.loop s'.close := by
    intro s a s' h hc hstep
    exact ⟨sound_step h.1 hc.1 hc.2.1 hstep, saved_step h.1 h.2 hc.2.2 hstep⟩
  obtain ⟨halong₁, hrest⟩ := halong.split hpre
  obtain ⟨hc, halong₂⟩ := hrest s₂ hclose
  have hs₁ := halong₁.invariant hkeeps ⟨hs.sound, hs.saved⟩ hpre
  have hs₂ := hkeeps s₁ .close s₂ hs₁ hc hclose
  have hcall : s₂.close = .called := by
    simp only [step] at hclose
    split at hclose
    · cases hclose
      rfl
    · cases hclose
  -- From here on either `Close` has still to take the lock, or the snapshot is recent enough.
  have hlast := halong₂.induction
    (P := fun acts s => (Sound s.disk s.loop s.close ∧ Saved s.disk s.loop s.close) ∧
      (s.close = .called ∨
        Visits (step lib) (fun t => t.disk.memory.view = s.disk.snapped) s₂ acts))
    ⟨hs₂, .inl hcall⟩
    (fun acts a s s' hrun h hc hstep => by
      refine ⟨hkeeps s a s' h.1 hc hstep, ?_⟩
      rcases h.2 with hcall | hvisits
      · refine (called_step h.1.1 hcall hstep).imp_right fun hnew => ?_
        exact visits_last (run_snoc hrun hstep) hnew
      · exact .inr (visits_snapped_step hrun hvisits hstep))
    hafter
  obtain ⟨⟨-, hsaved⟩, hvisits⟩ := hlast
  obtain ⟨result, hresult⟩ := hret
  refine ⟨hsaved (fun hbusy => hloop hbusy.active) ?_, hvisits.resolve_left ?_⟩
  · rw [hresult]
    exact id
  · rw [hresult]
    exact nofun

/-- `Close` finds a second error that is not yet on disk. -/
theorem close_saves_smooth :
    ∃ s₁ s₂ s₃, run (step plainStd) emptyState
        (plainError "first" :: .tick :: replicate 4 (.loop smooth) ++ [plainError "second"]) =
          some s₁ ∧
      step plainStd s₁ .close = some s₂ ∧
      run (step plainStd) s₂ (replicate 4 (.closing smooth)) = some s₃ ∧
      load s₃.disk.file = some s₃.disk.snapped := by
  have halong : Along (step plainStd) Orderly emptyState
      ((plainError "first" :: .tick :: replicate 4 (.loop smooth) ++ [plainError "second"]) ++
        .close :: replicate 4 (.closing smooth)) := by decide +kernel
  exact ⟨_, _, _, rfl, rfl, rfl, (close_saves opened_emptyState rfl rfl rfl halong ⟨_, rfl⟩ id).1⟩

/-- The loop has encoded its snapshot when a second error is logged and `Close` is called.
    `Close` puts both on disk, and then the loop puts its own file in the place. -/
theorem newest_state_lost :
    ∃ s₁ s₂ s₃, run (step plainStd) emptyState
        [plainError "first", .tick, .loop smooth, .loop smooth, plainError "second"] = some s₁ ∧
      step plainStd s₁ .close = some s₂ ∧
      run (step plainStd) s₂
        (replicate 4 (.closing smooth) ++ [.loop smooth, .loop smooth]) = some s₃ ∧
      s₃.close = .returned (.ok ()) ∧ s₃.loop = .returned (.ok ()) ∧
      s₂.disk.memory.logs.errLogs.map ErrorLog.message = ["first", "second"] ∧
      (load s₃.disk.file).map (fun p => p.logs.errLogs.map ErrorLog.message) = some ["first"] :=
  ⟨_, _, _, rfl, rfl, rfl, rfl, rfl, by decide +kernel, by decide +kernel⟩

/-! ### One snapshot -/

theorem close_idle_step (h : s.close = .idle) (ha : Unclosed a)
    (hstep : step lib s a = some s') : s'.close = .idle := by
  rcases step_cases hstep with ⟨m, i, -, rfl⟩ | ⟨-, -, rfl⟩ | ⟨i, f, d, -, hf, rfl⟩ |
    ⟨rfl, -, rfl⟩ | ⟨i, f, d, -, hf, rfl⟩
  · exact h
  · exact h
  · exact h
  · exact ha.elim
  · rw [h] at hf
    cases hf

/-- `Flush` among mutations, none of which changes a row where it is while rows are encoded.
    Whatever it writes was in memory, all of it, at one instant. -/
theorem snapshot_existed {acts : List Act} (hs : Opened s)
    (halong : Along (step lib) (fun s a => Unclosed a ∧ Undisturbed s a) s acts)
    (hrun : run (step lib) s acts = some s') {out : File} (hout : s'.loop = .writing out) :
    Visits (step lib) (fun t => load (some (.whole out)) = some t.disk.memory.view) s acts := by
  have hkept := halong.invariant
    (P := fun s => Sound s.disk s.loop s.close ∧ s.close = .idle)
    (fun s a s' h hc hstep => by
      refine ⟨sound_step h.1 (apart_of_alone ?_) hc.2 hstep, close_idle_step h.2 hc.1 hstep⟩
      rw [h.2]
      exact fun hact => hact.2)
    ⟨hs.sound, hs.close⟩ hrun
  have hload : load (some (.whole out)) = some s'.disk.snapped := by
    have hcarry := hkept.1.first
    rw [hout] at hcarry
    exact hcarry
  rw [hload]
  exact (visits_snapped hs hrun).mono fun t ht => congrArg some ht.symm

end

def plainNetwork : Network where
  id := ⟨1 :: replicate 15 0, rfl⟩
  name := "home"
  description := ""
  cidr := "10.0.0.0/24"
  dnsServers := []
  ownerID := .nil
  inviteCode := "old"
  inviteCodeExpiresAt := none
  inviteEnabled := true
  allowBroadcast := false
  createdAt := 0
  updatedAt := 0
  memberCount := 0
  deviceCount := 0
  callerRole := .owner

def plainMember : NetworkMember := ⟨⟨2 :: replicate 15 0, rfl⟩, plainNetwork.id, .nil, .member, 0⟩

/-- A network with a member, and the network has been encoded. -/
def encodingActs : List Act :=
  [.mutate (.createNetwork plainNetwork) plainInput, .mutate (.createMember plainMember) plainInput,
    .tick, .loop smooth, .loop smooth]

/-- An error is logged in the meantime. -/
def errorMeanwhile : List Act :=
  encodingActs ++ [plainError "first", .loop smooth, .loop smooth]

theorem snapshot_existed_smooth :
    ∃ s out, run (step plainStd) emptyState errorMeanwhile = some s ∧ s.loop = .writing out ∧
      Visits (step plainStd) (fun t => load (some (.whole out)) = some t.disk.memory.view)
        emptyState errorMeanwhile := by
  have halong : Along (step plainStd) (fun s a => Unclosed a ∧ Undisturbed s a) emptyState
      errorMeanwhile := by decide +kernel
  exact ⟨_, _, rfl, rfl, snapshot_existed opened_emptyState halong rfl rfl⟩

/-- The invite code of the network and the role of the member. -/
def probe (p : Persist) : Option String × Option NetworkRole :=
  ((p.rows .networks plainNetwork.id).map Network.inviteCode,
    (p.rows .members plainMember.key).map NetworkMember.role)

/-- The code is rotated, and then the role is changed, both after the network and before the
    member is encoded. -/
def mixingActs : List Act :=
  encodingActs ++ [.mutate (.rotateInviteCode plainNetwork.id "new" none) plainInput,
    .mutate (.updateRole plainNetwork.id .nil .admin) plainInput, .loop smooth, .loop smooth]

theorem not_visits_mixed {out : File}
    (hmixed : (load (some (.whole out))).map probe = some (some "old", some .admin)) :
    ¬Visits (step plainStd) (fun t => load (some (.whole out)) = some t.disk.memory.view)
      emptyState mixingActs := by
  have hnever : Throughout (step plainStd)
      (fun t => probe t.disk.memory.view ≠ (some "old", some .admin)) emptyState mixingActs := by
    decide +kernel
  refine (hnever.mono ?_).not_visits
  intro t ht heq
  rw [heq] at hmixed
  exact ht (some.inj hmixed)

/-- Yet they are in the file. -/
theorem snapshot_mixes_states :
    ∃ s out, run (step plainStd) emptyState mixingActs = some s ∧ s.loop = .writing out ∧
      (load (some (.whole out))).map probe = some (some "old", some .admin) ∧
      ¬Visits (step plainStd) (fun t => load (some (.whole out)) = some t.disk.memory.view)
        emptyState mixingActs :=
  ⟨_, _, rfl, rfl, by decide +kernel, not_visits_mixed (by decide +kernel)⟩

end NexusVPN.Backend.Persistence
