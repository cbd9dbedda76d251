import NexusVPN.Backend.Persistence

/-! # Pages of the logs

    `page` of `repository/embedded/infra.go` lists a log from its newest row on.  It is compared
    with the rows that the `Create` methods of the log have stored. -/

namespace NexusVPN.Backend.Persistence

open List

variable {α : Type}

/-- The loop of `page`, over the rows from the last one on. -/
def pageLoop (wanted : α → Bool) (limit offset : Int) : List α → Int → List α → List α
  | [], _, out => out
  | row :: rows, skipped, out =>
    if out.length < limit then
      if !wanted row then pageLoop wanted limit offset rows skipped out
      else if skipped < offset then pageLoop wanted limit offset rows (skipped + 1) out
      else pageLoop wanted limit offset rows skipped (out ++ [row])
    else out

def page (rows : List α) (limit offset : Int) (wanted : α → Bool) : List α :=
  let limit := if limit ≤ 0 ∨ limit > maxLogRows then 100 else limit
  let offset := if offset < 0 then 0 else offset
  pageLoop wanted limit offset rows.reverse 0 []

/-- The repositories of logs. -/
inductive Log where
  | connections | audit | errors

namespace Log

def Row : Log → Type
  | connections => ConnectionLog
  | audit => AuditLog
  | errors => ErrorLog

def rows : (k : Log) → Memory → List k.Row
  | connections, s => s.logs.connLogs
  | audit, s => s.logs.auditLogs
  | errors, s => s.logs.errLogs

/-- `Create`. -/
def create : (k : Log) → k.Row → Mutation
  | connections, l => .logConnection l
  | audit, l => .logAudit l
  | errors, l => .logError l

/-- The row that `Create` stores. -/
def stored (i : MutationInput) : (k : Log) → k.Row → k.Row
  | connections, l => { l with id := orFresh l.id i.fresh, createdAt := i.now : ConnectionLog }
  | audit, l => { l with id := orFresh l.id i.fresh, createdAt := i.now : AuditLog }
  | errors, l => { l with id := orFresh l.id i.fresh, createdAt := i.now : ErrorLog }

/-- The entries are created one after the other. -/
def createAll (lib : StdLib) (k : Log) (entries : List (k.Row × MutationInput)) (s : Memory) :
    Memory :=
  entries.foldl (fun s e => (mutate lib e.2 (k.create e.1) s).2) s

end Log

theorem pageLoop_eq (wanted : α → Bool) (limit offset : Nat) (rows out : List α) (skipped : Nat) :
    pageLoop wanted limit offset rows skipped out =
      out ++ ((rows.filter wanted).drop (offset - skipped)).take (limit - out.length) := by
  induction rows generalizing skipped out with
  | nil => simp [pageLoop]
  | cons row rows ih =>
    simp only [pageLoop, Int.ofNat_lt]
    by_cases hroom : out.length < limit
    · rw [if_pos hroom]
      cases hrow : wanted row with
      | false => simp [hrow, ih]
      | true =>
        rw [filter_cons_of_pos hrow]
        -- The row is skipped, or it is the next of the page.
        by_cases hskip : skipped < offset
        · have hdrop : offset - skipped = offset - (skipped + 1) + 1 := by omega
          rw [hdrop, drop_succ_cons, ← ih]
          simp [hskip]
        · have htake : limit - out.length = limit - (out ++ [row]).length + 1 := by simp; omega
          have hdrop : offset - skipped = 0 := by omega
          rw [if_neg (by simp), if_neg hskip, ih, hdrop, htake]
          simp
    · have htake : limit - out.length = 0 := by omega
      rw [if_neg hroom, htake]
      simp

theorem page_eq (rows : List α) {limit : Int} (h₁ : 1 ≤ limit) (h₂ : limit ≤ 2000) (offset : Int)
    (wanted : α → Bool) :
    page rows limit offset wanted =
      ((rows.filter wanted).reverse.drop offset.toNat).take limit.toNat := by
  have hlimit : (if limit ≤ 0 ∨ limit > maxLogRows then 100 else limit) = (limit.toNat : Int) := by
    rw [if_neg, Int.toNat_of_nonneg (by omega)]
    simp [maxLogRows]
    omega
  have hoffset : (if offset < 0 then 0 else offset) = (offset.toNat : Int) := by
    split <;> omega
  have hloop := pageLoop_eq wanted limit.toNat offset.toNat rows.reverse [] 0
  rw [page, hlimit, hoffset]
  simpa using hloop

theorem pages_eq (rows : List α) (limit m : Nat) :
    (range m).flatMap (fun j => (rows.drop (j * limit)).take limit) = rows.take (m * limit) := by
  induction m with
  | zero => simp
  | succ m ih =>
    rw [range_succ, flatMap_append, ih, Nat.succ_mul, take_add]
    simp

theorem capLog_append (rows : List α) (row : α) :
    capLog (capLog rows ++ [row]) = capLog (rows ++ [row]) := by
  unfold capLog
  generalize maxLogRows = cap
  rw [← drop_append_of_le_length (Nat.sub_le _ _), drop_drop]
  refine congrArg (drop · _) ?_
  simp only [length_append, length_drop, length_singleton]
  omega

theorem Log.rows_createAll (lib : StdLib) (k : Log) (entries : List (k.Row × MutationInput))
    {s : Memory} {before : List k.Row} (hs : k.rows s = capLog before) :
    k.rows (createAll lib k entries s) =
      capLog (before ++ entries.map fun e => k.stored e.2 e.1) := by
  induction entries generalizing s before with
  | nil => simpa [createAll] using hs
  | cons e entries ih =>
    have hcreated : k.rows (mutate lib e.2 (k.create e.1) s).2 =
        capLog (k.rows s ++ [k.stored e.2 e.1]) := by
      cases k <;> simp only [create, mutate, rows, stored, Memory.touch] <;> exact rfl
    rw [hs, capLog_append before] at hcreated
    rw [map_cons, append_cons]
    exact ih hcreated

/-- A log keeps its last rows, and its pages are the parts of what is looked for, from the
    newest row on. -/
theorem log_pages_exact (lib : StdLib) (k : Log) (entries : List (k.Row × MutationInput))
    (s : Memory) :
    let made := entries.map fun e => k.stored e.2 e.1
    let log := k.rows (k.createAll lib entries { s with logs := ⟨[], [], []⟩ })
    log <:+ made ∧ log.length = min made.length 2000 ∧
    ∀ (wanted : k.Row → Bool) (limit : Int), 1 ≤ limit → limit ≤ 2000 →
      (∀ offset : Int, page log limit offset wanted =
        ((log.filter wanted).reverse.drop offset.toNat).take limit.toNat) ∧
      ∀ m : Nat, (range m).flatMap (fun j : Nat => page log limit (j * limit) wanted) =
        (log.filter wanted).reverse.take (m * limit.toNat) := by
  intro made log
  have hlog : log = capLog made := by
    have hnil : k.rows { s with logs := ⟨[], [], []⟩ } = capLog [] := by
      rw [capLog, drop_nil]
      cases k <;> rfl
    rw [← nil_append made]
    exact Log.rows_createAll lib k entries hnil
  refine ⟨?_, ?_, ?_⟩
  · rw [hlog, capLog]
    exact drop_suffix _ _
  · rw [hlog, capLog, length_drop, maxLogRows]
    omega
  · intro wanted limit h₁ h₂
    refine ⟨fun offset => page_eq log h₁ h₂ offset wanted, fun m => ?_⟩
    rw [← pages_eq]
    refine congrArg (flatMap · _) (funext fun j => ?_)
    rw [page_eq log h₁ h₂, Int.toNat_mul (Int.natCast_nonneg j) (by omega), Int.toNat_natCast]

end NexusVPN.Backend.Persistence
