import NexusVPN.Backend.AccountChanges

/-! # No update is lost

    The order in which the records are stored is one in which the requests could have been
    served one after the other.  When a request stores its record, its journal is replayed
    after the requests that have stored theirs before, and what remains of it is added at
    once. -/

namespace NexusVPN.Backend.Auth

open List Prog Machine AuthState ChangeRequest UserRepo AuthEntry Table Prod
open Option (some some_ne_none)

/-! ## The same answers again -/

theorem AuthEntry.favourable_cases {e : AuthEntry} (h : Favourable e) :
    (∃ id u, e = ⟨.users (.getByID id), .ok u⟩) ∨
    (∃ email u, e = ⟨.users (.getByEmail email), .ok u⟩) ∨
    (∃ provider subject, e = ⟨.users (.getByOAuthSubject provider subject), .error .notFound⟩) ∨
    (∃ hash pr, e = ⟨.resets (.getByHash hash), .ok pr⟩ ∧ pr.usedAt = none) ∨
    (∃ now, e = ⟨.now, .ok now⟩) ∨ ∃ secret code valid, e = ⟨.validate secret code, .ok valid⟩ := by
  unfold Favourable at h
  split at h
  · exact .inl ⟨_, _, rfl⟩
  · exact .inr (.inl ⟨_, _, rfl⟩)
  · exact .inr (.inr (.inl ⟨_, _, by rw [h]⟩))
  · exact .inr (.inr (.inr (.inl ⟨_, _, rfl, h⟩)))
  · exact .inr (.inr (.inr (.inr (.inl ⟨_, rfl⟩))))
  · exact .inr (.inr (.inr (.inr (.inr ⟨_, _, _, rfl⟩))))
  · exact h.elim

variable {c : AuthCall} {s s' : AuthState} {log : Journal authIface}

theorem AuthEntry.Favourable.replays {lib : AuthLib} {e : AuthEntry}
    (hfavourable : Favourable e) (hcur : Current s e)
    (hsound : ∃ i s₁, (method lib e.1 i s₁).1 = e.2) (husers : s'.users = s.users)
    (hres : ∀ hash pr, e = ⟨.resets (.getByHash hash), .ok pr⟩ →
      s'.resets.get pr.id = some pr) : ∃ i, handler lib e.1 i s' = (e.2, s') := by
  obtain ⟨i₁, s₁, hans⟩ := hsound
  rcases favourable_cases hfavourable with ⟨id, u, rfl⟩ | ⟨email, u, rfl⟩ |
    ⟨provider, subject, rfl⟩ | ⟨hash, pr, rfl, -⟩ | ⟨now, rfl⟩ | ⟨secret, code, valid, rfl⟩
  · have hget : s'.users.get u.id = some u := by rw [husers]; exact hcur
    have hid : u.id = id := key_of_get (user_of_getByID hans)
    rw [hid] at hget
    refine ⟨i₁, ?_⟩
    simp only [handler, method, userMethod, getByID, hget]
  · have hget : s'.users.get u.id = some u := by rw [husers]; exact hcur
    have hfold := (user_of_getByEmail hans).2
    -- The same row is found if it is visited first.
    refine ⟨{ i₁ with order := .first u.id }, ?_⟩
    simp only [handler, method, userMethod, getByEmail,
      find_values_first (p := (lib.std.equalFold ·.email email)) hget hfold]
  · have hnone : (s'.users.values .asStored).find? (fun u =>
        u.oauthProvider == some provider && u.oauthSubject == some subject) = none := by
      rw [husers, find?_eq_none]
      intro u hu
      simpa using hcur u hu
    refine ⟨{ i₁ with order := .asStored }, ?_⟩
    simp only [handler, method, userMethod, getByOAuthSubject, hnone]
  · have hget := hres hash pr rfl
    have hhash : (pr.tokenHash == hash) = true := beq_iff_eq.mpr (reset_of_getByHash hans).2
    refine ⟨{ i₁ with order := .first pr.id }, ?_⟩
    simp only [handler, method, resetMethod, ResetRepo.getByHash,
      find_values_first (p := (·.tokenHash == hash)) hget hhash]
  · exact ⟨{ i₁ with now := now }, rfl⟩
  · exact ⟨i₁, Prod.ext hans rfl⟩

theorem not_updated_of_favourable (h : ∀ e ∈ log, Favourable e) : ¬ Updated log := by
  rintro ⟨u, u', htold⟩
  exact h _ htold

/-! ## What remains to be done -/

namespace Changes

/-- The journal says that the token was looked up and found unused. -/
def LookedUp (log : Journal authIface) (x : UUID) : Prop :=
  ∃ hash pr, Told log (.resets (.getByHash hash)) (.ok pr) ∧ pr.usedAt = none ∧ pr.id = x

theorem changeFits_of_updated (h : ChangeFits log c) (hupd : Updated log) :
    (∃ x, c = .resets (.markUsed x) ∧ LookedUp log x) ∨
    ∃ y, c = .refresh (.revokeAllForUser y) := by
  unfold ChangeFits at h
  split at h
  · exact absurd hupd (not_updated_of_favourable h)
  · next x => exact .inl ⟨x, rfl, h.2.2⟩
  · next y => exact .inr ⟨y, rfl⟩
  · exact absurd hupd h.2

/-- A request that has stored its record in `s₀` goes on alone, and has come to `s`. -/
structure Closing (s₀ : AuthState) (log₀ : Journal authIface) (s : AuthState)
    (log : Journal authIface) : Prop where
  users : s.users = s₀.users
  updated : Updated log
  ok : ∀ e ∈ log, e.1.closes = true → e.2.isOk = true
  looked : ∀ x, LookedUp log x ↔ LookedUp log₀ x
  stored : ∀ x, LookedUp log₀ x → s.resets.get x ≠ none
  rows : ∀ x, s.resets.get x = s₀.resets.get x ∨ Spent s x ∧ LookedUp log₀ x
  marked : ∀ x, Told log (.resets (.markUsed x)) (.ok ()) → Spent s x

theorem lookedUp_cons (r : Except DomainError c.Result) (hc : c.closes = true ∨ c.storesUser = true)
    (x : UUID) : LookedUp (⟨c, r⟩ :: log) x ↔ LookedUp log x := by
  constructor
  · rintro ⟨hash, pr, htold, hrest⟩
    rcases mem_cons.mp htold with heq | hold
    · obtain ⟨rfl, -⟩ := Sigma.mk.inj heq
      rcases hc with hc | hc <;> cases hc
    · exact ⟨hash, pr, hold, hrest⟩
  · rintro ⟨hash, pr, htold, hrest⟩
    exact ⟨hash, pr, htold.cons r, hrest⟩

variable {lib : AuthLib} {s₀ : AuthState} {log₀ : Journal authIface}

theorem Closing.call (h : Closing s₀ log₀ s log) (hc : ChangeFits log c) (i : AuthInput) :
    Closing s₀ log₀ (method lib c i s).2 (⟨c, (method lib c i s).1⟩ :: log) := by
  rcases changeFits_of_updated hc h.updated with ⟨x, rfl, hlook⟩ | ⟨y, rfl⟩
  · have hlooked₀ := (h.looked x).mp hlook
    obtain ⟨s', hmethod, husers, hspent, hother⟩ := markUsed_stored lib (h.stored x hlooked₀) i
    have hkept : ∀ y, Spent s y → Spent s' y := by
      rintro y ⟨pr, hget, hused⟩
      by_cases hyx : y = x
      · rw [hyx]
        exact hspent
      · exact ⟨pr, (hother y hyx).trans hget, hused⟩
    rw [hmethod]
    refine ⟨husers.trans h.users, h.updated.cons _, ?_, ?_, ?_, ?_, ?_⟩
    · exact forall_mem_cons.mpr ⟨fun _ => rfl, h.ok⟩
    · exact fun y => (lookedUp_cons _ (.inl rfl) y).trans (h.looked y)
    · intro y hy
      by_cases hyx : y = x
      · obtain ⟨pr', hget', -⟩ := hspent
        rw [hyx, hget']
        exact some_ne_none _
      · rw [hother y hyx]
        exact h.stored y hy
    · intro y
      by_cases hyx : y = x
      · subst hyx
        exact .inr ⟨hspent, hlooked₀⟩
      · exact (h.rows y).imp (hother y hyx).trans fun hy => ⟨hkept y hy.1, hy.2⟩
    · intro y hy
      rcases mem_cons.mp hy with heq | hold
      · obtain ⟨heq, -⟩ := Sigma.mk.inj heq
        cases heq
        exact hspent
      · exact hkept y (h.marked y hold)
  · refine ⟨h.users, h.updated.cons _, ?_, ?_, h.stored, h.rows, ?_⟩
    · exact forall_mem_cons.mpr ⟨fun _ => rfl, h.ok⟩
    · exact fun y => (lookedUp_cons _ (.inl rfl) y).trans (h.looked y)
    · intro y hy
      rcases mem_cons.mp hy with heq | hold
      · cases (Sigma.mk.inj heq).1
      · exact h.marked y hold

variable (lib) in
theorem Closing.run {change : AccountChange} {q : Prog authIface (Except DomainError Unit)}
    (h : Closing s log s log)
    (hq : q.Obeys (Journal.protocol ChangeFits)
      (outcome (fun _ => Completes change) (fun _ => Fails)) log) (w : Nat → AuthInput) :
    ∃ s', q.exec (handler lib) w s = (.ok (), s') ∧ s'.users = s.users ∧
      (∀ x, LookedUp log x → Spent s' x) ∧
      ∀ x, s'.resets.get x = s.resets.get x ∨ Spent s' x ∧ LookedUp log x := by
  obtain ⟨hclose, hend⟩ := Obeys.exec_journaled (h := handler lib)
    (J := Closing s log) w (fun _ _ _ _ hJ hfits => hJ.call hfits _) hq h
  have hexec := Prog.exec_journaled (handler lib) q w s log
  generalize q.exec (journaled (handler lib)) w (s, log) = out at hclose hend hexec
  obtain ⟨r, s', log'⟩ := out
  cases r with
  | error e =>
    rcases hend with hnone | ⟨c, e', hcloses, htold⟩
    · exact absurd hclose.updated hnone
    · exact absurd (hclose.ok _ htold hcloses) Bool.false_ne_true
  | ok _ =>
    refine ⟨s', hexec.symm, hclose.users, ?_, hclose.rows⟩
    intro x hx
    obtain ⟨hash, pr, htold, -, rfl⟩ := (hclose.looked x).mpr hx
    exact hclose.marked _ (hend.1 hash pr htold)

/-! ## A link that changes nothing -/

theorem alone_link {info : GoogleUserInfo} {d : Draws} {i : AuthInput}
    (h : (∃ u, (method lib (.users (.getByOAuthSubject "google" info.sub)) i s).1 = .ok u) ∨
      (method lib (.users (.getByEmail info.email)) i s).1 = .error .notFound) :
    alone lib s (⟨.link info, d⟩, fun _ => i) = some s := by
  have hexec : (body lib ⟨.link info, d⟩).exec (handler lib) (fun _ => i) s = (.ok (), s) := by
    simp only [body, AccountChange.serve, linkedAccount, bind_assoc, Auth.tryCall]
    rw [exec_tryCall_bind]
    simp only [handler, method, userMethod, getByOAuthSubject, getByEmail] at h ⊢
    split at h
    · simp only [bind_assoc]
      rw [exec_tryCall_bind]
      simp only [handler, method, userMethod, getByEmail]
      split at h
      · rfl
      · simp at h
    · rfl
  simp only [alone, hexec]

/-! ## The order -/

/-- The request has stored its record, or has succeeded without storing one. -/
def Done (th : ChangeThread) : Prop := Updated th.2.1 ∨ th.2.2 = .ret (.ok ())

/-- Some request has looked the token up, and has stored its record since. -/
def Claimed (p : Changes) (x : UUID) : Prop :=
  ∃ m : Nat, ∃ th, p.threads[m]? = some th ∧ Updated th.2.1 ∧ LookedUp th.2.1 x

/-- The requests that are done could have been served in this order, and have led to `s`.
    There the tokens are used up that will be. -/
structure Serial (lib : AuthLib) (s₀ : AuthState) (p : Changes)
    (order : List (Nat × ChangeRequest × (Nat → AuthInput))) (s : AuthState) : Prop where
  nodup : (order.map (·.1)).Nodup
  members : ∀ n t, (∃ w, (n, t, w) ∈ order) ↔ ∃ th, p.threads[n]? = some th ∧ th.1 = t ∧ Done th
  run : run (alone lib) s₀ (order.map (·.2)) = some s
  users : s.users = p.shared.users
  claimed : ∀ x, p.Claimed x → Spent s x
  unclaimed : ∀ x, ¬ p.Claimed x → s.resets.get x = p.shared.resets.get x

theorem serial_start (s : AuthState) : Serial lib s (start s) [] s where
  nodup := nodup_nil
  members _ _ := ⟨(fun ⟨_, h⟩ => nomatch h), fun ⟨_, h, _⟩ => nomatch h⟩
  run := rfl
  users := rfl
  claimed _ := fun ⟨_, _, h, _⟩ => nomatch h
  unclaimed _ _ := rfl

section

variable {p p' : Changes} {order : List (Nat × ChangeRequest × (Nat → AuthInput))} {n : Nat}
  {t : ChangeRequest} {i : AuthInput} {r : Except DomainError c.Result} {s₁ : AuthState}
  {k : Except DomainError c.Result → Prog authIface (Except DomainError Unit)}

theorem Serial.keep (h : Serial lib s₀ p order s)
    (hdone : ∀ (n : Nat) t, (∃ th, p'.threads[n]? = some th ∧ th.1 = t ∧ Done th) ↔
      ∃ th, p.threads[n]? = some th ∧ th.1 = t ∧ Done th)
    (husers : p'.shared.users = p.shared.users) (hclaim : ∀ x, p'.Claimed x ↔ p.Claimed x)
    (hres : ∀ x, ¬ p.Claimed x → p'.shared.resets.get x = p.shared.resets.get x) :
    Serial lib s₀ p' order s where
  nodup := h.nodup
  members n t := (h.members n t).trans (hdone n t).symm
  run := h.run
  users := h.users.trans husers.symm
  claimed x hx := h.claimed x ((hclaim x).mp hx)
  unclaimed x hx := by
    have hx' : ¬ p.Claimed x := fun hx' => hx ((hclaim x).mpr hx')
    rw [h.unclaimed x hx', hres x hx']

theorem exists_set_iff {α : Type} {l : List α} {y y' : α} (hn : l[n]? = some y) {R : α → Prop}
    (hR : R y' ↔ R y) (m : Nat) :
    (∃ th, (l.set n y')[m]? = some th ∧ R th) ↔ ∃ th, l[m]? = some th ∧ R th := by
  have hlt := (List.getElem?_eq_some_iff.mp hn).1
  by_cases hmn : n = m
  · subst hmn
    rw [getElem?_set_self hlt, hn]
    simp [hR]
  · rw [getElem?_set_ne hmn]

theorem exists_set_or {α : Type} {l : List α} {y : α} (hn : l[n]? = some y) {R : α → Prop}
    (hR : ¬ R y) (y' : α) (m : Nat) : (∃ th, (l.set n y')[m]? = some th ∧ R th) ↔
      (m = n ∧ R y') ∨ ∃ th, l[m]? = some th ∧ R th := by
  have hlt := (List.getElem?_eq_some_iff.mp hn).1
  by_cases hmn : n = m
  · subst hmn
    rw [getElem?_set_self hlt, hn]
    simp [hR]
  · rw [getElem?_set_ne hmn]
    simp [Ne.symm hmn]

/-- The request is done with this call, and comes last in the order. -/
theorem Serial.add {w : Nat → AuthInput} (h : Serial lib s₀ p order s)
    (hn : p.threads[n]? = some (t, log, .call c k)) (hlog : ¬ Updated log)
    (hdone : Done (t, ⟨c, r⟩ :: log, k r)) (halone : alone lib s (t, w) = some s')
    (husers : s'.users = s₁.users)
    (hclaim : ∀ x, Claimed ⟨s₁, p.threads.set n (t, ⟨c, r⟩ :: log, k r)⟩ x → Spent s' x)
    (hunc : ∀ x, ¬ Claimed ⟨s₁, p.threads.set n (t, ⟨c, r⟩ :: log, k r)⟩ x →
      s'.resets.get x = s₁.resets.get x) :
    Serial lib s₀ ⟨s₁, p.threads.set n (t, ⟨c, r⟩ :: log, k r)⟩ (order ++ [(n, t, w)]) s' where
  nodup := by
    rw [map_append, map_singleton]
    refine nodup_append.mpr ⟨h.nodup, nodup_singleton _, ?_⟩
    intro m hm m' hm' heq
    obtain ⟨⟨m₁, t', w'⟩, hmem, rfl⟩ := mem_map.mp hm
    obtain rfl := mem_singleton.mp hm'
    obtain ⟨th, hth, -, hpre⟩ := (h.members m₁ t').mp ⟨w', hmem⟩
    subst heq
    cases hn.symm.trans hth
    exact hpre.elim hlog nofun
  members m t' := by
    rw [exists_set_or hn fun hR => hR.2.elim hlog nofun, ← h.members]
    simp only [mem_append, mem_singleton, Prod.mk.injEq, exists_or]
    rw [or_comm]
    simp [hdone, eq_comm]
  run := by
    rw [map_append, run_append, h.run]
    exact run_cons_of_step halone []
  users := husers
  claimed := hclaim
  unclaimed := hunc

theorem method_of_not_updated (hfits : ChangeFits log c)
    (hcall : method lib c i s = (r, s₁)) (h : ¬ Updated (⟨c, r⟩ :: log)) : s = s₁ := by
  have hlog : ¬ Updated log := fun hlog => h (hlog.cons _)
  unfold ChangeFits at hfits
  split at hfits
  · next u =>
    cases hget : s.users.get u.id with
    | none =>
      simp only [method, userMethod, update, hget] at hcall
      exact congrArg snd hcall
    | some u₀ =>
      refine absurd (updated_cons_iff.mpr (.inr ⟨rfl, ?_⟩)) h
      simp only [method, userMethod, update, hget] at hcall
      cases hcall
      rfl
  · exact absurd hfits.1 hlog
  · exact absurd hfits hlog
  · exact (method_of_reads hfits.1 i).symm.trans (congrArg snd hcall)

/-- A request that has stored its record does not fail any more. -/
theorem Steady.not_updated_of_error {e : DomainError} (h : Steady lib p)
    (hmem : (t, log, .ret (.error e)) ∈ p.threads) : ¬ Updated log := by
  intro hupd
  rcases h.served _ hmem with hnone | ⟨c, e', hclose, hfail⟩
  · exact hnone hupd
  · exact absurd (h.closed _ hmem _ hfail hclose) Bool.false_ne_true

theorem Steady.spent_or_holds {m : Nat} {th : ChangeThread} {x : UUID} (h : Steady lib p)
    (hm : p.threads[m]? = some th) (hupd : Updated th.2.1) (hlook : LookedUp th.2.1 x) :
    Spent p.shared x ∨ ∃ pr, HoldsReset pr th ∧ pr.id = x := by
  obtain ⟨t, log, q⟩ := th
  have hmem := mem_of_getElem? hm
  obtain ⟨hash, pr, htold, hunused, rfl⟩ := hlook
  by_cases hmark : Told log (.resets (.markUsed pr.id)) (.ok ())
  · exact .inl (h.marked _ hmem _ hmark _ rfl)
  · refine .inr ⟨pr, ⟨?_, ⟨hash, htold⟩, hunused, hmark⟩, rfl⟩
    -- It has not returned: then it would have marked the token.
    cases q with
    | call c k => rfl
    | ret r =>
      cases r with
      | ok _ => exact absurd ((h.served _ hmem).1 hash pr htold) hmark
      | error e => exact absurd hupd (h.not_updated_of_error hmem)

theorem Steady.reset_unclaimed (h : Steady lib p)
    (hn : p.threads[n]? = some (t, log, .call c k)) (hlog : ∀ e ∈ log, Favourable e)
    {hash : String} {pr : PasswordReset} (htold : Told log (.resets (.getByHash hash)) (.ok pr)) :
    p.shared.resets.get pr.id = some pr ∧ ¬ p.Claimed pr.id := by
  have hunused : pr.usedAt = none := hlog _ htold
  have hholds : HoldsReset pr (t, log, .call c k) :=
    ⟨rfl, ⟨hash, htold⟩, hunused, fun hmark => hlog _ hmark⟩
  have hget := h.current _ (mem_of_getElem? hn) pr hholds
  refine ⟨hget, ?_⟩
  rintro ⟨m, th, hm, hupd, hlook⟩
  rcases h.spent_or_holds hm hupd hlook with ⟨pr', hget', hused⟩ | hholds'
  · cases hget.symm.trans hget'
    exact hused hunused
  · obtain rfl := h.alone pr.id n m _ _ hn hm ⟨pr, hholds, rfl⟩ hholds'
    cases hn.symm.trans hm
    exact not_updated_of_favourable hlog hupd

/-- A request that stores its record could have done so alone, and all the rest with it. -/
theorem Serial.alone_store {u u' : User} {k : _ → Prog authIface (Except DomainError Unit)}
    (h : Serial lib s₀ p order s) (hst : Steady lib p)
    (hn : p.threads[n]? = some (t, log, .call (.users (.update u)) k))
    (hcur : ∀ e ∈ log, Current p.shared e)
    (hcall : method lib (.users (.update u)) i p.shared = (.ok u', s₁)) :
    ∃ w s', alone lib s (t, w) = some s' ∧ s'.users = s₁.users ∧
      (∀ x, LookedUp log x → Spent s' x) ∧
      ∀ x, s'.resets.get x = s.resets.get x ∨ Spent s' x ∧ LookedUp log x := by
  have hlog : ∀ e ∈ log, Favourable e := hst.fits hn
  have hmem := mem_of_getElem? hn
  have hrow : ∀ hash pr, Told log (.resets (.getByHash hash)) (.ok pr) →
      s.resets.get pr.id = some pr := by
    intro hash pr htold
    obtain ⟨hget, hunc⟩ := hst.reset_unclaimed hn hlog htold
    rw [h.unclaimed _ hunc, hget]
  -- What was answered would be answered again, after the requests that are done.
  have hanswers : ∀ e ∈ log, ∃ i, handler lib e.1 i s = (e.2, s) := by
    intro e he
    refine (hlog e he).replays (hcur e he) (hst.sound _ hmem _ _ he) h.users ?_
    rintro hash pr rfl
    exact hrow hash pr he
  obtain ⟨w, hw⟩ := (hst.follows _ hmem).replay hanswers fun _ => i
  -- The record is stored in the same table.
  have hstore : method lib (.users (.update u)) i s = (.ok u', { s with users := s₁.users }) := by
    simp only [method, userMethod, update, h.users] at hcall ⊢
    split at hcall <;> cases hcall
    rfl
  have hclose : Closing { s with users := s₁.users } (⟨.users (.update u), .ok u'⟩ :: log)
      { s with users := s₁.users } (⟨.users (.update u), .ok u'⟩ :: log) := by
    refine ⟨rfl, updated_self u u', ?_, fun _ => Iff.rfl, ?_, fun _ => .inl rfl, ?_⟩
    · intro e he hcloses
      rcases mem_cons.mp he with rfl | hold
      · cases hcloses
      · rcases favourable_cases (hlog e hold) with ⟨_, _, rfl⟩ | ⟨_, _, rfl⟩ |
          ⟨_, _, rfl⟩ | ⟨_, _, rfl, -⟩ | ⟨_, rfl⟩ | ⟨_, _, _, rfl⟩ <;> cases hcloses
    · intro x hx
      obtain ⟨hash, pr, htold, -, rfl⟩ := (lookedUp_cons _ (.inr rfl) x).mp hx
      rw [hrow hash pr htold]
      exact some_ne_none _
    · intro x hx
      rcases mem_cons.mp hx with heq | hold
      · cases (Sigma.mk.inj heq).1
      · exact (hlog _ hold).elim
  have hrest := (hst.served _ hmem).2 (.ok u') trivial
  obtain ⟨s', hexec, husers, hspent, hrows⟩ := hclose.run lib hrest fun _ => i
  refine ⟨w, s', ?_, husers, ?_, ?_⟩
  · have hbody : (t.body lib).exec (handler lib) w s = (.ok (), s') := by
      rw [hw]
      show (k (method lib (.users (.update u)) i s).1).exec _ _
        (method lib (.users (.update u)) i s).2 = _
      rw [hstore]
      exact hexec
    simp only [alone, hbody]
  · exact fun x hx => hspent x ((lookedUp_cons _ (.inr rfl) x).mpr hx)
  · intro x
    rw [← lookedUp_cons (c := .users (.update u)) (.ok u') (.inr rfl) x]
    exact hrows x

theorem not_done_body (t : ChangeRequest) : ¬ Done (t, [], t.body lib) := by
  rintro (hupd | hret)
  · exact not_updated_nil hupd
  · have hmeets : (t.body lib).Obeys _ _ [] := serve_meets lib t
    have hret : t.body lib = .ret (.ok ()) := hret
    rw [hret] at hmeets
    rcases hmeets.2 with hupd | ⟨info, rest, -, ⟨u, hlog⟩ | hlog⟩
    · exact not_updated_nil hupd
    · cases hlog
    · cases hlog

theorem Serial.spawn (h : Serial lib s₀ p order s) (t : ChangeRequest) :
    Serial lib s₀ { p with threads := p.threads ++ [(t, [], t.body lib)] } order s := by
  have hths : ∀ (m : Nat) (R : ChangeThread → Prop), ¬ R (t, [], t.body lib) →
      ((∃ th, (p.threads ++ [(t, [], t.body lib)])[m]? = some th ∧ R th) ↔
        ∃ th, p.threads[m]? = some th ∧ R th) := by
    intro m R hR
    by_cases hlt : m < p.threads.length
    · rw [getElem?_append_left hlt]
    · rw [getElem?_append_right (by omega), List.getElem?_eq_none (by omega : _ ≤ m)]
      constructor
      · rintro ⟨th, hth, hR'⟩
        rw [mem_singleton.mp (mem_of_getElem? hth)] at hR'
        exact absurd hR' hR
      · rintro ⟨th, hth, -⟩
        cases hth
  refine h.keep ?_ rfl ?_ fun _ _ => rfl
  · exact fun m t' => hths m _ fun hR => not_done_body t hR.2
  · exact fun x => exists_congr fun m => hths m _ fun hR => not_updated_nil hR.1

section

variable (h : Serial lib s₀ p order s) (hst : Steady lib p)
  (hn : p.threads[n]? = some (t, log, .call c k))
include h hst hn

/-- The request stores its record. -/
theorem Serial.store (hc : c.storesUser = true)
    (hcur : ∀ e ∈ log, Current p.shared e)
    (hcall : method lib c i p.shared = (r, s₁)) (hok : r.isOk = true) :
    ∃ order' s', Serial lib s₀ ⟨s₁, p.threads.set n (t, ⟨c, r⟩ :: log, k r)⟩ order' s' := by
  unfold AuthCall.storesUser at hc
  split at hc
  · next u =>
    have hlog : ¬ Updated log := not_updated_of_favourable (hst.fits hn)
    have hres := (method_frame lib (.users (.update u)) i p.shared).2.2
    rw [hcall] at hres
    rcases hres with ⟨c', hc'⟩ | hres
    · cases hc'
    cases r with
    | error e => cases hok
    | ok u' =>
      obtain ⟨w, s', halone, husers, hspent, hrows⟩ := h.alone_store hst hn hcur hcall
      have hclaim : ∀ x, Claimed ⟨s₁, p.threads.set n
          (t, ⟨.users (.update u), .ok u'⟩ :: log, k (.ok u'))⟩ x ↔
          LookedUp log x ∨ p.Claimed x := by
        intro x
        have hset := exists_set_or hn (R := fun th => Updated th.2.1 ∧ LookedUp th.2.1 x)
          (fun hR => hlog hR.1) (t, ⟨.users (.update u), .ok u'⟩ :: log, k (.ok u'))
        refine (exists_congr hset).trans ?_
        rw [exists_or, exists_eq_left]
        refine or_congr ?_ Iff.rfl
        exact (and_iff_right (updated_self u u')).trans (lookedUp_cons _ (.inr rfl) x)
      refine ⟨order ++ [(n, t, w)], s',
        h.add hn hlog (.inl (updated_self u u')) halone husers ?_ ?_⟩
      · intro x hx
        rcases (hclaim x).mp hx with hlook | hpre
        · exact hspent x hlook
        · rcases hrows x with hsame | ⟨hspent', -⟩
          · obtain ⟨pr, hget, hused⟩ := h.claimed x hpre
            exact ⟨pr, hsame.trans hget, hused⟩
          · exact hspent'
      · intro x hx
        have hx := fun hx' => hx ((hclaim x).mpr hx')
        rcases hrows x with hsame | ⟨-, hlook⟩
        · rw [hsame, h.unclaimed x fun hx' => hx (.inr hx')]
          rw [hres]
        · exact absurd (.inl hlook) hx
  · cases hc

theorem Serial.close (hlog : Updated log)
    (hcall : method lib c i p.shared = (r, s₁)) :
    Serial lib s₀ ⟨s₁, p.threads.set n (t, ⟨c, r⟩ :: log, k r)⟩ order s := by
  have hcases := changeFits_of_updated (hst.fits hn) hlog
  have hclose : c.closes = true := by
    rcases hcases with ⟨x, rfl, -⟩ | ⟨y, rfl⟩ <;> rfl
  have husers : s₁.users = p.shared.users := by
    have hframe := (method_frame lib c i p.shared).1
    rw [hcall] at hframe
    rcases hframe with ⟨c', rfl⟩ | hsame
    · cases hclose
    · exact hsame
  refine h.keep ?_ husers ?_ ?_
  · intro m t'
    refine exists_set_iff hn (and_congr_right fun _ => ?_) m
    exact iff_of_true (.inl (hlog.cons _)) (.inl hlog)
  · intro x
    refine exists_congr fun m => exists_set_iff hn (R := fun th =>
      Updated th.2.1 ∧ LookedUp th.2.1 x) (and_congr ?_ (lookedUp_cons _ (.inl hclose) x)) m
    exact iff_of_true (hlog.cons _) hlog
  · -- Only a token that the request has claimed is marked.
    intro x hx
    have hcases := hst.resets_method hn i
    rw [hcall] at hcases
    rcases hcases with hsame | ⟨pr, -, hholds, hput⟩
    · rw [hsame]
    · rw [hput, get_put, if_neg]
      rintro rfl
      obtain ⟨hash, htold⟩ := hholds.found
      exact hx ⟨n, _, hn, hlog, hash, pr, htold, hholds.unused, rfl⟩

/-- The request makes a call, and has not stored its record yet. -/
theorem Serial.read (hcall : method lib c i p.shared = (r, s₁)) (hlog : ¬ Updated (⟨c, r⟩ :: log)) :
    ∃ order' s', Serial lib s₀ ⟨s₁, p.threads.set n (t, ⟨c, r⟩ :: log, k r)⟩ order' s' := by
  have hpre : ¬ Updated log := fun hpre => hlog (hpre.cons _)
  obtain rfl := method_of_not_updated (hst.fits hn) hcall hlog
  have hclaim : ∀ x, Claimed ⟨p.shared, p.threads.set n (t, ⟨c, r⟩ :: log, k r)⟩ x ↔
      p.Claimed x := by
    intro x
    refine exists_congr fun m => exists_set_iff hn (R := fun th =>
      Updated th.2.1 ∧ LookedUp th.2.1 x) ?_ m
    exact iff_of_false (fun hR => hlog hR.1) fun hR => hpre hR.1
  have hserv : (k r).Obeys (Journal.protocol ChangeFits)
      (outcome (fun _ => Completes t.change) (fun _ => Fails)) (⟨c, r⟩ :: log) :=
    (hst.served _ (mem_of_getElem? hn)).2 r trivial
  by_cases hret : k r = .ret (.ok ())
  · -- There was nothing to link.
    rw [hret] at hserv
    rcases hserv.2 with hupd | ⟨info, rest, hchange, hlast⟩
    · exact absurd hupd hlog
    have halone : alone lib s (t, fun _ => i) = some s := by
      obtain ⟨change, d⟩ := t
      obtain rfl : change = .link info := hchange
      apply alone_link
      rcases hlast with ⟨u, hlast⟩ | hlast
      · obtain ⟨rfl, hr, -⟩ := Journal.latest_inj (I := authIface) hlast
        refine .inl ⟨u, .trans ?_ ((congrArg fst hcall).trans (eq_of_heq hr))⟩
        simp only [method, userMethod, getByOAuthSubject, h.users]
        split <;> rfl
      · obtain ⟨rfl, hr, -⟩ := Journal.latest_inj (I := authIface) hlast
        refine .inr (.trans ?_ ((congrArg fst hcall).trans (eq_of_heq hr)))
        simp only [method, userMethod, getByEmail, h.users]
        split <;> rfl
    refine ⟨order ++ [(n, t, fun _ => i)], s, h.add hn hpre (.inr hret) halone h.users ?_ ?_⟩
    · exact fun x hx => h.claimed x ((hclaim x).mp hx)
    · exact fun x hx => h.unclaimed x fun hx' => hx ((hclaim x).mpr hx')
  · refine ⟨order, s, h.keep ?_ rfl hclaim fun _ _ => rfl⟩
    intro m t'
    refine exists_set_iff hn (and_congr_right fun _ => ?_) m
    refine iff_of_false (fun hdone => hdone.elim hlog hret) ?_
    rintro (hupd | hend)
    · exact hpre hupd
    · cases hend

end

theorem Serial.step {a : ChangeStep} (h : Serial lib s₀ p order s)
    (hst : Steady lib p) (hc : p.Undisturbed a) (hstep : Changes.step lib p a = some p') :
    ∃ order' s', Serial lib s₀ p' order' s' := by
  rcases Tracked.step_cases_unforked hstep with ⟨t, rfl, rfl⟩ | ⟨n, i, t, log, c, k, rfl, hn, rfl⟩
  · exact ⟨order, s, h.spawn t⟩
  · by_cases hsto : c.storesUser = true ∧ (method lib c i p.shared).1.isOk = true
    · exact h.store hst hn hsto.1 ((hc _ hn _ rfl).1 hsto.1) rfl hsto.2
    · by_cases hlog : Updated log
      · exact ⟨order, s, h.close hst hn hlog rfl⟩
      · refine h.read hst hn rfl fun hupd => ?_
        exact (updated_cons_iff.mp hupd).elim hlog hsto

end

theorem Serial.serializable {p : Changes}
    {order : List (Nat × ChangeRequest × (Nat → AuthInput))} (h : Serial lib s₀ p order s)
    (hst : Steady lib p) (hquiet : p.Quiet) : Serializable lib s₀ p := by
  refine ⟨order, s, h.nodup, ?_, h.run, fun x => by rw [h.users]⟩
  intro n t
  rw [h.members]
  constructor
  · rintro ⟨⟨t', log, q⟩, hth, rfl, hdone⟩
    have hmem := mem_of_getElem? hth
    cases q with
    | call c k => exact absurd (hquiet _ hmem) (some_ne_none _)
    | ret r =>
      cases r with
      | ok _ => exact ⟨log, hth⟩
      | error e => exact (hdone.elim (hst.not_updated_of_error hmem) nofun).elim
  · rintro ⟨log, hth⟩
    exact ⟨_, hth, rfl, .inr rfl⟩

end Changes

/-- If records are stored only while what was read is current, and reset tokens are looked up
    only while nobody holds them, then no update is lost. -/
theorem no_lost_updates (lib : AuthLib) (s : AuthState) (as : List ChangeStep) (p : Changes)
    (halong : Along (Changes.step lib) Changes.Undisturbed (Changes.start s) as)
    (hrun : run (Changes.step lib) (Changes.start s) as = some p) (hquiet : p.Quiet) :
    Changes.Serializable lib s p := by
  have hinv : Changes.Steady lib p ∧ ∃ order s', Changes.Serial lib s p order s' := by
    refine halong.invariant (P := fun p => Changes.Steady lib p ∧
      ∃ order s', Changes.Serial lib s p order s') ?_ ?_ hrun
    · rintro p a p' ⟨hst, order, s', hserial⟩ hc hstep
      exact ⟨hst.step hc hstep, hserial.step hst hc hstep⟩
    · exact ⟨Changes.steady_start s, [], s, Changes.serial_start s⟩
  obtain ⟨hst, order, s', hserial⟩ := hinv
  exact hserial.serializable hst hquiet

section

open Changes

/-- The owner sets a new password with the token that was sent out, -/
def ownerResets : ChangeRequest := ⟨.resetPassword "reset" "new", plainDraws⟩

/-- and asks for a second factor. -/
def ownerEnables : ChangeRequest := ⟨.enableMFA plainUser.id, plainDraws⟩

/-- Both come in, and go on as they are scheduled. -/
def resetAndEnable (schedule : List Nat) : List ChangeStep :=
  [.spawn ownerResets, .spawn ownerEnables] ++ schedule.map fun n => .advance n default

theorem no_lost_updates_owner :
    ∃ p, run (Changes.step plainLib) (start (plainState plainUser))
        (resetAndEnable [0, 0, 0, 0, 1, 0, 1, 0]) = some p ∧
      Serializable plainLib (plainState plainUser) p :=
  ⟨_, rfl, no_lost_updates plainLib (plainState plainUser)
    (resetAndEnable [0, 0, 0, 0, 1, 0, 1, 0]) _ (by decide +kernel) rfl (by
      unfold Quiet
      decide +kernel)⟩

/-- All reset tokens are the owner's; and, if `renewed`, the owner has the new password. -/
def OwnerState (renewed : Prop) (s : AuthState) : Prop :=
  (∀ x pr, s.resets.get x = some pr → pr.userID = plainUser.id) ∧
  (renewed → ∀ u, s.users.get plainUser.id = some u → u.passwordHash = "hash of new")

variable {renewed : Prop} {lib : AuthLib}

theorem wpe_call_bind {α : Type} {f : c.Result → AuthSvc α} {Q : α → AuthState → Prop}
    {E : DomainError → AuthState → Prop} (h : ∀ i, outcome (fun a => wpe (handler lib)
      (f a) Q E) E (method lib c i s).1 (method lib c i s).2) :
    wpe (handler lib) (call c >>= f) Q E s := (wpe_bind _ _ _ _ _).mpr h

theorem ownerState_enables (hs : OwnerState renewed s) :
    wpe (handler plainLib) (enableMFA plainDraws plainUser.id)
      (fun _ => OwnerState renewed) (fun _ _ => True) s := by
  refine wpe_call_bind fun i => ?_
  rw [method_of_reads rfl]
  cases hu : (method plainLib (.users (.getByID plainUser.id)) i s).1 with
  | error e => trivial
  | ok u =>
    have hget := user_of_getByID hu
    refine wpe_then (wpe_call_bind fun i => ?_)
    have hkey : u.id = plainUser.id := key_of_get hget
    simp only [method, userMethod, update, hkey, hget]
    refine ⟨hs.1, fun hren u' hu' => ?_⟩
    rw [get_put, if_pos rfl] at hu'
    rw [← some.inj hu']
    exact hs.2 hren u hget

theorem ownerState_resets (hs : OwnerState renewed s) :
    wpe (handler plainLib) (resetPassword plainLib plainDraws "reset" "new")
      (fun _ => OwnerState True) (fun _ _ => True) s := by
  refine wpe_then ((wpe_tryCall _ _ _ _).mpr fun i => ?_)
  have hsame : (handler plainLib
      (.resets (.getByHash (plainLib.hashToken "reset"))) i s).2 = s := method_of_reads rfl i
  rw [hsame]
  split
  · trivial
  · trivial
  · next pr hpr =>
    obtain ⟨hrow, -⟩ := reset_of_getByHash hpr
    have howner := hs.1 _ pr hrow
    refine wpe_then ((wpe_require _ _ _ _).mpr ⟨fun _ => ?_, fun _ => trivial⟩)
    refine wpe_then fun now => ?_
    refine wpe_then ((wpe_require _ _ _ _).mpr ⟨fun _ => ?_, fun _ => trivial⟩)
    refine wpe_call_bind (s := s) fun i => ?_
    rw [method_of_reads rfl]
    cases hu : (method plainLib (.users (.getByID pr.userID)) i s).1 with
    | error e => trivial
    | ok u =>
      have hget := user_of_getByID hu
      have hkey : u.id = pr.userID := key_of_get hget
      refine wpe_then (wpe_call_bind fun i => ?_)
      simp only [method, userMethod, update, hkey, hget]
      refine wpe_call_bind fun i => ?_
      simp only [method, resetMethod, ResetRepo.markUsed, hrow]
      intro i
      refine ⟨fun x pr' hx => ?_, fun _ u' hu' => ?_⟩
      · change (s.resets.put _).get x = some pr' at hx
        rw [get_put] at hx
        split at hx
        · rw [← some.inj hx]
          exact howner
        · exact hs.1 x pr' hx
      · change (s.users.put _).get plainUser.id = some u' at hu'
        rw [get_put, if_pos howner.symm] at hu'
        rw [← some.inj hu']
        rfl

theorem of_alone {t : ChangeRequest × (Nat → AuthInput)} {Q : AuthState → Prop}
    (h : alone lib s t = some s')
    (hwpe : wpe (handler lib) (t.1.change.serve lib t.1.draws) (fun _ => Q)
      (fun _ _ => True) s) : Q s' := by
  have hend := wp_exec hwpe t.2
  unfold alone body at h
  generalize (t.1.change.serve lib t.1.draws).run.exec (handler lib) t.2 s = out at h hend
  obtain ⟨r, s₁⟩ := out
  cases r with
  | ok _ =>
    cases h
    exact hend
  | error e => cases h

theorem ownerState_run {ts : List (ChangeRequest × (Nat → AuthInput))}
    (hts : ∀ t ∈ ts, t.1 = ownerResets ∨ t.1 = ownerEnables) (hs : OwnerState renewed s)
    (hrun : run (alone plainLib) s ts = some s') :
    OwnerState (renewed ∨ ∃ t ∈ ts, t.1 = ownerResets) s' := by
  induction ts generalizing s renewed with
  | nil =>
    cases hrun
    exact ⟨hs.1, fun h => hs.2 (h.resolve_right fun ⟨_, ht, _⟩ => not_mem_nil ht)⟩
  | cons t ts ih =>
    obtain ⟨s₁, hs₁, hrest⟩ := Option.bind_eq_some_iff.mp hrun
    have hfirst : OwnerState (renewed ∨ t.1 = ownerResets) s₁ := by
      rcases hts t mem_cons_self with ht | ht
      · have hreset := of_alone hs₁ (by rw [ht]; exact ownerState_resets hs)
        exact ⟨hreset.1, fun _ => hreset.2 trivial⟩
      · have hen := of_alone (Q := OwnerState renewed) hs₁ (by
          rw [ht]
          exact wpe_then (ownerState_enables hs))
        refine ⟨hen.1, fun h => hen.2 (h.resolve_right ?_)⟩
        rw [ht]
        exact fun heq => nomatch congrArg change heq
    have hlater := ih (fun t ht => hts t (mem_cons_of_mem _ ht)) hfirst hrest
    refine ⟨hlater.1, fun h => hlater.2 ?_⟩
    simpa [or_assoc] using h

/-- The second factor is stored with the old password. -/
theorem reset_undone :
    ∃ p, run (Changes.step plainLib) (start (plainState plainUser))
        (resetAndEnable [1, 0, 0, 0, 0, 0, 0, 1]) = some p ∧ p.Quiet ∧
      ¬ Serializable plainLib (plainState plainUser) p := by
  refine ⟨_, rfl, ?_, ?_⟩
  · unfold Quiet
    decide +kernel
  · rintro ⟨order, s', -, hmems, hrun, hcred⟩
    have hts : ∀ t ∈ order.map (·.2), t.1 = ownerResets ∨ t.1 = ownerEnables := by
      intro t ht
      obtain ⟨⟨n, t, w⟩, hmem, rfl⟩ := mem_map.mp ht
      obtain ⟨log, hlog⟩ := (hmems n t).mp ⟨w, hmem⟩
      match n with
      | 0 => exact .inl (congrArg fst (some.inj hlog)).symm
      | 1 => exact .inr (congrArg fst (some.inj hlog)).symm
      | n + 2 => cases hlog
    have hstart : OwnerState False (plainState plainUser) := by
      refine ⟨?_, False.elim⟩
      intro x pr hx
      change (empty.put plainReset).get x = some pr at hx
      rw [get_put] at hx
      split at hx
      · rw [← some.inj hx]
        rfl
      · cases hx
    obtain ⟨-, hnew⟩ := ownerState_run hts hstart hrun
    obtain ⟨w, hreset⟩ := (hmems 0 ownerResets).mpr ⟨_, rfl⟩
    have hren := hnew (.inr ⟨_, mem_map_of_mem hreset, rfl⟩)
    -- The password is still the old one.
    have howner : (s'.users.get plainUser.id).map User.credentials =
        some ⟨"hash of old", "secret", false, none, none⟩ :=
      (hcred plainUser.id).trans (by decide +kernel)
    obtain ⟨u, hu, hcredentials⟩ := Option.map_eq_some_iff.mp howner
    have hhash : u.passwordHash = "hash of old" := congrArg Credentials.passwordHash hcredentials
    rw [hren u hu] at hhash
    exact absurd hhash (by decide)

end

end NexusVPN.Backend.Auth
