import NexusVPN.Backend.AuthRequests

/-! # Rows of tokens

    Refresh tokens and reset tokens are kept alike: a row has the hash of the token and its
    user, and a mark that says whether the token is spent.  A row is never deleted, and the
    mark is never taken back.

    * `TokenKind`, `TokenRow`: the two kinds, and what a row comes to. -/

namespace NexusVPN.Backend.Auth

open List Prog Option Table Tracked AuthState RefreshRepo

/-! ## Rows -/

inductive TokenKind where
  | refresh
  | reset

structure TokenRow where
  hash : String
  user : UUID
  spent : Bool

/-- The hash and the user stay, and what is spent stays spent. -/
structure TokenRow.Becomes (r r' : TokenRow) : Prop where
  hash : r'.hash = r.hash
  user : r'.user = r.user
  spent : r.spent = true → r'.spent = true

theorem TokenRow.Becomes.refl (r : TokenRow) : r.Becomes r := ⟨rfl, rfl, id⟩

variable {x : UUID} {r : TokenRow}

theorem TokenRow.Becomes.trans {r' r'' : TokenRow} (h : r.Becomes r') (h' : r'.Becomes r'') :
    r.Becomes r'' :=
  ⟨h'.hash.trans h.hash, h'.user.trans h.user, fun hr => h'.spent (h.spent hr)⟩

/-- A row, or the lack of one, that is what it was apart from the mark. -/
def TokenRow.Kept (o o' : Option TokenRow) : Prop :=
  (o = none ∧ o' = none) ∨ ∃ r r', o = some r ∧ o' = some r' ∧ r.Becomes r'

namespace TokenRow

theorem Kept.refl (o : Option TokenRow) : Kept o o := by
  cases o with
  | none => exact .inl ⟨rfl, rfl⟩
  | some r => exact .inr ⟨r, r, rfl, rfl, .refl r⟩

theorem Kept.some {o o' : Option TokenRow} (h : Kept o o') (ho : o = some r) :
    ∃ r', o' = Option.some r' ∧ r.Becomes r' := by
  rcases h with ⟨hnone, -⟩ | ⟨r₁, r', h₁, h', hbec⟩
  · rw [hnone] at ho
    cases ho
  · cases h₁.symm.trans ho
    exact ⟨r', h', hbec⟩

section

variable {V : Type} {key : V → UUID} {f : V → TokenRow}

variable (f) in
theorem put_cases (t : Table UUID V key) (v : V) (x : UUID) :
    (x = key v ∧ ((t.put v).get x).map f = Option.some (f v)) ∨
      Kept ((t.get x).map f) (((t.put v).get x).map f) := by
  rw [get_put]
  by_cases hx : x = key v
  · rw [if_pos hx]
    exact .inl ⟨hx, rfl⟩
  · rw [if_neg hx]
    exact .inr (.refl _)

theorem kept_put {t : Table UUID V key} {w v : V} (hget : t.get (key v) = Option.some w)
    (h : (f w).Becomes (f v)) (x : UUID) : Kept ((t.get x).map f) (((t.put v).get x).map f) := by
  rcases put_cases f t v x with ⟨rfl, hput⟩ | hkept
  · exact .inr ⟨f w, f v, by rw [hget]; rfl, hput, h⟩
  · exact hkept

theorem kept_mapValues (t : Table UUID V key) {g : V → V} {hg : ∀ v, key (g v) = key v}
    (h : ∀ v, (f v).Becomes (f (g v))) (x : UUID) :
    Kept ((t.get x).map f) (((t.mapValues g hg).get x).map f) := by
  rw [get_mapValues]
  cases t.get x with
  | none => exact .inl ⟨rfl, rfl⟩
  | some v => exact .inr ⟨f v, f (g v), rfl, rfl, h v⟩

end

end TokenRow

def RefreshToken.row (rt : RefreshToken) : TokenRow :=
  ⟨rt.tokenHash, rt.userID, rt.revokedAt.isSome⟩

def PasswordReset.row (pr : PasswordReset) : TokenRow := ⟨pr.tokenHash, pr.userID, pr.usedAt.isSome⟩

/-- The hash that a call looks up. -/
def AuthCall.looksUp : AuthCall → Option (TokenKind × String)
  | .refresh (.getByHash hash) => some (.refresh, hash)
  | .resets (.getByHash hash) => some (.reset, hash)
  | _ => none

open TokenKind

open TokenRow

namespace TokenKind

/-- The row that is stored under an id. -/
def row : TokenKind → AuthState → UUID → Option TokenRow
  | .refresh, s, x => (s.refresh.get x).map RefreshToken.row
  | .reset, s, x => (s.resets.get x).map PasswordReset.row

/-- The row that a call stores. -/
def creates : TokenKind → AuthCall → Option (UUID × TokenRow)
  | .refresh, .refresh (.create rt) => some (rt.id, rt.row)
  | .reset, .resets (.create pr) => some (pr.id, pr.row)
  | _, _ => none

/-- The row that a request was told of. -/
def reads : TokenKind → AuthEntry → Option (UUID × TokenRow)
  | .refresh, ⟨.refresh (.getByHash _), .ok rt⟩ => some (rt.id, rt.row)
  | .reset, ⟨.resets (.getByHash _), .ok pr⟩ => some (pr.id, pr.row)
  | _, _ => none

/-- The row that a request has marked as spent. -/
def spends : TokenKind → AuthEntry → Option UUID
  | .refresh, ⟨.refresh (.revoke x), .ok _⟩ => some x
  | .reset, ⟨.resets (.markUsed x), .ok _⟩ => some x
  | _, _ => none

/-- A row with that hash was found unspent, and has not been marked since. -/
def HeldIn (k : TokenKind) (hash : String) (log : Journal authIface) : Prop :=
  ∃ e ∈ log, ∃ y ∈ k.reads e, y.2.hash = hash ∧ y.2.spent = false ∧
    ∀ e' ∈ log, k.spends e' ≠ some y.1

instance (k : TokenKind) (hash : String) (log : Journal authIface) :
    Decidable (k.HeldIn hash log) :=
  inferInstanceAs (Decidable (∃ e ∈ log, ∃ y ∈ k.reads e, _ ∧ _ ∧ ∀ e' ∈ log, _))

variable {lib : AuthLib} {k : TokenKind} {s : AuthState} {c : AuthCall} {i : AuthInput}

theorem issues_of_creates (h : k.creates c = some (x, r)) : c.issues = true := by
  unfold creates at h
  split at h
  · rfl
  · rfl
  · cases h

theorem refresh_row_of_get {rt : RefreshToken} (h : s.refresh.get x = some rt) :
    refresh.row s x = some rt.row := by
  rw [row, h]
  rfl

theorem reset_row_of_get {pr : PasswordReset} (h : s.resets.get x = some pr) :
    reset.row s x = some pr.row := by
  rw [row, h]
  rfl

theorem revokeIf_becomes (x : UUID) (now : Time) (rt : RefreshToken) :
    rt.row.Becomes (revokeIf x now rt).row := by
  unfold revokeIf
  split
  · exact ⟨rfl, rfl, fun _ => rfl⟩
  · exact .refl _

/-- A row that a call leaves is what it was, apart from the mark, or the call has stored it. -/
theorem row_method (lib : AuthLib) (k : TokenKind) (s : AuthState) {c : AuthCall} (i : AuthInput)
    (hnil : ∀ x r, k.creates c = some (x, r) → x ≠ .nil) (x : UUID) :
    (∃ r, k.creates c = some (x, r) ∧ k.row (method lib c i s).2 x = some r) ∨
      TokenRow.Kept (k.row s x) (k.row (method lib c i s).2 x) := by
  cases k with
  | refresh =>
    simp only [row]
    rcases refresh_method lib c i s with h | ⟨rt, rfl, hput⟩ | ⟨id, rt, rfl, hget, hput⟩ |
      ⟨u, rfl, hmap⟩
    · rw [h]
      exact .inr (.refl _)
    · rw [hput, orFresh, if_neg (hnil rt.id rt.row rfl)]
      rcases put_cases RefreshToken.row s.refresh { rt with createdAt := i.now } x with
        ⟨rfl, h⟩ | h
      · exact .inl ⟨rt.row, rfl, h⟩
      · exact .inr h
    · rw [hput]
      rw [← key_of_get hget] at hget
      exact .inr (kept_put (w := rt) (v := { rt with revokedAt := some i.now }) hget
        ⟨rfl, rfl, fun _ => rfl⟩ x)
    · rw [hmap]
      exact .inr (kept_mapValues s.refresh (revokeIf_becomes u i.now) x)
  | reset =>
    simp only [row]
    rcases resets_method lib c i s with h | ⟨pr, rfl, hput⟩ | ⟨id, pr, rfl, hget, hput⟩
    · rw [h]
      exact .inr (.refl _)
    · rw [hput, orFresh, if_neg (hnil pr.id pr.row rfl)]
      rcases put_cases PasswordReset.row s.resets { pr with createdAt := i.now } x with
        ⟨rfl, h⟩ | h
      · exact .inl ⟨pr.row, rfl, h⟩
      · exact .inr h
    · rw [hput]
      rw [← key_of_get hget] at hget
      exact .inr (kept_put (w := pr) (v := { pr with usedAt := some i.now }) hget
        ⟨rfl, rfl, fun _ => rfl⟩ x)

theorem row_of_creates (h : k.creates c = some (x, r)) (hx : x ≠ .nil) :
    k.row (method lib c i s).2 x = some r := by
  unfold creates at h
  split at h
  · next rt =>
    cases h
    simp only [row, method, refreshMethod, create, orFresh, if_neg hx, get_put, if_true]
    rfl
  · next pr =>
    cases h
    simp only [row, method, resetMethod, ResetRepo.create, orFresh, if_neg hx, get_put, if_true]
    rfl
  · cases h

theorem row_of_reads (h : k.reads ⟨c, (method lib c i s).1⟩ = some (x, r)) :
    k.row (method lib c i s).2 x = some r := by
  unfold reads at h
  split at h
  · next hash rt heq =>
    obtain ⟨rfl, hr⟩ := Sigma.mk.inj heq
    cases h
    rw [method_of_reads rfl]
    exact refresh_row_of_get (token_of_getByHash (eq_of_heq hr)).1
  · next hash pr heq =>
    obtain ⟨rfl, hr⟩ := Sigma.mk.inj heq
    cases h
    rw [method_of_reads rfl]
    exact reset_row_of_get (reset_of_getByHash (eq_of_heq hr)).1
  · cases h

theorem row_of_spends (h : k.spends ⟨c, (method lib c i s).1⟩ = some x) :
    ∃ r, k.row (method lib c i s).2 x = some r ∧ r.spent = true := by
  unfold spends at h
  split at h
  · next id _ heq =>
    obtain ⟨rfl, hr⟩ := Sigma.mk.inj heq
    obtain rfl := some.inj h
    have hok := eq_of_heq hr
    simp only [method, refreshMethod, revoke] at hok ⊢
    split at hok
    · cases hok
    · next rt hget =>
      have hid : id = rt.id := (key_of_get hget).symm
      exact ⟨_, by rw [row, get_put, if_pos hid]; rfl, rfl⟩
  · next id _ heq =>
    obtain ⟨rfl, hr⟩ := Sigma.mk.inj heq
    obtain rfl := some.inj h
    have hok := eq_of_heq hr
    simp only [method, resetMethod, ResetRepo.markUsed] at hok ⊢
    split at hok
    · cases hok
    · next pr hget =>
      have hid : id = pr.id := (key_of_get hget).symm
      exact ⟨_, by rw [row, get_put, if_pos hid]; rfl, rfl⟩
  · cases h

theorem creates_of_bears {t : Incoming} {log : Journal authIface} (hc : Bears lib t log c)
    (h : k.creates c = some (x, r)) : t.draws.rowID = x ∧ t.tokenHash lib = some r.hash := by
  unfold creates at h
  split at h
  · cases h
    exact ⟨hc.1.symm, hc.2.1⟩
  · cases h
    exact ⟨hc.1.symm, hc.2.1⟩
  · cases h

end TokenKind

/-! ## All runs -/

open AuthRequests

/-- Every row was stored by a request, and what a request knows of a row goes on being true. -/
structure Filed (k : TokenKind) (p : AuthRequests) : Prop where
  origin : ∀ x r, k.row p.shared x = some r →
    ∃ th ∈ p.threads, ∃ e ∈ th.2.1, ∃ r₀, k.creates e.1 = some (x, r₀) ∧ r₀.Becomes r
  created : ∀ th ∈ p.threads, ∀ e ∈ th.2.1, ∀ x r, k.creates e.1 = some (x, r) →
    ∃ r', k.row p.shared x = some r' ∧ r.Becomes r'
  read : ∀ th ∈ p.threads, ∀ e ∈ th.2.1, ∀ x r, k.reads e = some (x, r) →
    ∃ r', k.row p.shared x = some r' ∧ r.Becomes r'
  spent : ∀ th ∈ p.threads, ∀ e ∈ th.2.1, ∀ x, k.spends e = some x →
    ∃ r', k.row p.shared x = some r' ∧ r'.spent = true

section

variable {lib : AuthLib} {cfg : AuthConfig} {k : TokenKind} {p p' : AuthRequests}
  {a : AuthStep} {n : Nat} {t : Incoming} {log : Journal authIface}
  {c : AuthCall} {q : Except DomainError c.Result → Prog authIface AuthOutcome}

theorem filed_idle (k : TokenKind) : Filed k idle where
  origin x r h := by cases k <;> cases h
  created _ hth := nomatch hth
  read _ hth := nomatch hth
  spent _ hth := nomatch hth

theorem Filed.creates_new (h : Filed k p) (hp : Regular lib p)
    (hn : p.threads[n]? = some (t, log, .call c q)) (hc : k.creates c = some (x, r)) :
    k.row p.shared x = none := by
  have hfits := hp.served.fits hn
  cases hx : k.row p.shared x with
  | none => rfl
  | some r' =>
    -- The request that has stored the row there drew the same id, so that it is this one.
    obtain ⟨th, hth, e, he, r₀, he₀, -⟩ := h.origin x r' hx
    obtain ⟨m, hm⟩ := getElem?_of_mem hth
    have hid := (creates_of_bears (hp.bears th hth e he) he₀).1
    have hid' := (creates_of_bears hfits.1 hc).1
    obtain rfl := hp.apart.rowID x m n th _ hm hn hid hid'
    cases hm.symm.trans hn
    have hissued := hfits.2 (issues_of_creates hc) e he
    rw [issues_of_creates he₀] at hissued
    cases hissued

theorem Filed.creates_nonnil (hp : Regular lib p)
    (hn : p.threads[n]? = some (t, log, .call c q)) (x : UUID) (r : TokenRow)
    (hc : k.creates c = some (x, r)) : x ≠ .nil := by
  rw [← (creates_of_bears (hp.served.fits hn).1 hc).1]
  exact hp.apart.nonnil _ (mem_of_getElem? hn)

section

variable (h : Filed k p) (hp : Regular lib p)
include h hp

section

variable (hn : p.threads[n]? = some (t, log, .call c q)) (i : AuthInput)
include hn i

theorem Filed.row_method (hx : k.row p.shared x = some r) :
    ∃ r', k.row (method lib c i p.shared).2 x = some r' ∧ r.Becomes r' := by
  rcases TokenKind.row_method lib k p.shared i (creates_nonnil hp hn) x with ⟨r', hc, -⟩ | hkept
  · rw [h.creates_new hp hn hc] at hx
    cases hx
  · exact hkept.some hx

theorem Filed.known_method (hx : ∃ r', k.row p.shared x = some r' ∧ r.Becomes r') :
    ∃ r', k.row (method lib c i p.shared).2 x = some r' ∧ r.Becomes r' := by
  obtain ⟨r₁, hr₁, hbec⟩ := hx
  obtain ⟨r', hr', hbecomes'⟩ := h.row_method hp hn i hr₁
  exact ⟨r', hr', hbec.trans hbecomes'⟩

end

section

variable (hstep : step lib cfg p a = some p')
include hstep

/-- A row never goes away, and what is spent stays spent. -/
theorem Filed.row_step
    (hx : k.row p.shared x = some r) : ∃ r', k.row p'.shared x = some r' ∧ r.Becomes r' := by
  rcases step_cases hstep with ⟨t, -, -, rfl⟩ | ⟨n, i, t, log, c, q, -, hn, rfl⟩
  · exact ⟨r, hx, .refl r⟩
  · exact h.row_method hp hn i hx

theorem Filed.origin_step (x : UUID) (r : TokenRow)
    (hx : k.row p'.shared x = some r) :
    ∃ th ∈ p'.threads, ∃ e ∈ th.2.1, ∃ r₀, k.creates e.1 = some (x, r₀) ∧ r₀.Becomes r := by
  have hold : ∀ r₁, k.row p.shared x = some r₁ → r₁.Becomes r →
      ∃ th ∈ p'.threads, ∃ e ∈ th.2.1, ∃ r₀, k.creates e.1 = some (x, r₀) ∧ r₀.Becomes r := by
    intro r₁ hr₁ hbec
    obtain ⟨th, hth, e, he, r₀, hcreates, hr₀⟩ := h.origin x r₁ hr₁
    obtain ⟨m, hm⟩ := getElem?_of_mem hth
    obtain ⟨th', hm', -, hlog, -⟩ := goOn_step (tracked_step hstep) m th hm
    exact ⟨th', mem_of_getElem? hm', e, hlog he, r₀, hcreates, hr₀.trans hbec⟩
  rcases step_cases hstep with ⟨t, -, -, rfl⟩ | ⟨n, i, t, log, c, q, -, hn, rfl⟩
  · exact hold r hx (.refl r)
  · rcases TokenKind.row_method lib k p.shared i (creates_nonnil hp hn) x with
      ⟨r', hc, hr'⟩ | hkept
    · obtain rfl := some.inj (hr'.symm.trans hx)
      refine ⟨_, mem_set (List.getElem?_eq_some_iff.mp hn).1 _, _, mem_cons_self, r', hc, .refl r'⟩
    · rcases hkept with ⟨-, hnone⟩ | ⟨r₁, r', hr₁, hr', hbec⟩
      · rw [hnone] at hx
        cases hx
      · cases hr'.symm.trans hx
        exact hold r₁ hr₁ hbec

theorem Filed.step : Filed k p' := by
  refine ⟨h.origin_step hp hstep, ?_, ?_, ?_⟩
  · refine forall_entries_step (K := fun e s => ∀ x r, k.creates e.1 = some (x, r) →
      ∃ r', k.row s x = some r' ∧ r.Becomes r') (tracked_step hstep) h.created ?_ ?_
    · intro n i t log c q hn x r hc
      exact ⟨r, row_of_creates hc (creates_nonnil hp hn x r hc), .refl r⟩
    · exact fun n i t log c q hn e he x r hc => h.known_method hp hn i (he x r hc)
  · refine forall_entries_step (K := fun e s => ∀ x r, k.reads e = some (x, r) →
      ∃ r', k.row s x = some r' ∧ r.Becomes r') (tracked_step hstep) h.read ?_ ?_
    · exact fun n i t log c q _ x r hr => ⟨r, row_of_reads hr, .refl r⟩
    · exact fun n i t log c q hn e he x r hr => h.known_method hp hn i (he x r hr)
  · refine forall_entries_step (K := fun e s => ∀ x, k.spends e = some x →
      ∃ r', k.row s x = some r' ∧ r'.spent = true) (tracked_step hstep) h.spent ?_ ?_
    · exact fun n i t log c q _ x hx => row_of_spends hx
    · intro n i t log c q hn e he x hx
      obtain ⟨r₁, hr₁, hspent⟩ := he x hx
      obtain ⟨r', hr', hbec⟩ := h.row_method hp hn i hr₁
      exact ⟨r', hr', hbec.spent hspent⟩

end

theorem Filed.unique {x' : UUID} {r' : TokenRow}
    (hx : k.row p.shared x = some r) (hx' : k.row p.shared x' = some r')
    (hhash : r.hash = r'.hash) : x = x' := by
  obtain ⟨th, hth, e, he, r₀, he₀, hr₀⟩ := h.origin x r hx
  obtain ⟨th', hth', e', he', r₀', he₀', hr₀'⟩ := h.origin x' r' hx'
  obtain ⟨hid, htoken⟩ := creates_of_bears (hp.bears th hth e he) he₀
  obtain ⟨hid', htoken'⟩ := creates_of_bears (hp.bears th' hth' e' he') he₀'
  obtain ⟨m, hm⟩ := getElem?_of_mem hth
  obtain ⟨m', hm'⟩ := getElem?_of_mem hth'
  have hsame : r₀'.hash = r₀.hash := by rw [← hr₀'.hash, ← hhash, hr₀.hash]
  obtain rfl := hp.apart.tokenHash r₀.hash m m' th th' hm hm' htoken (hsame ▸ htoken')
  cases hm.symm.trans hm'
  exact hid.symm.trans hid'

end

end

end NexusVPN.Backend.Auth
