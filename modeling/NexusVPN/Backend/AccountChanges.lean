import NexusVPN.Backend.TokenRows
import NexusVPN.Lib.Replay

/-! # Changes to accounts side by side

    `ResetPassword`, `EnableMFA`, `VerifyMFA` and the linking of an account to a profile each
    read a whole record, change a part of it and store the whole record.  What another of
    them has stored in between is lost. -/

namespace NexusVPN.Backend.Auth

open List Prog Option Table Tracked AuthState TokenKind

/-! ## The machine -/

inductive AccountChange where
  | resetPassword (rawToken newPassword : String)
  | enableMFA (userID : UUID)
  | verifyMFA (userID : UUID) (code : String)
  | link (info : GoogleUserInfo)

def AccountChange.serve (lib : AuthLib) (d : Draws) : AccountChange → AuthSvc Unit
  | .resetPassword raw password => Auth.resetPassword lib d raw password
  | .enableMFA userID => do
    let _ ← Auth.enableMFA d userID
  | .verifyMFA userID code => Auth.verifyMFA userID code
  | .link info => do
    let _ ← linkedAccount info

/-- A change that somebody has asked for, with what is drawn for it. -/
structure ChangeRequest where
  change : AccountChange
  draws : Draws

def ChangeRequest.body (lib : AuthLib) (t : ChangeRequest) :
    Prog authIface (Except DomainError Unit) :=
  (t.change.serve lib t.draws).run

/-- The request served alone, if it succeeds. -/
def ChangeRequest.alone (lib : AuthLib) (s : AuthState) (t : ChangeRequest × (Nat → AuthInput)) :
    Option AuthState :=
  match (t.1.body lib).exec (handler lib) t.2 s with
  | (.ok _, s') => some s'
  | (.error _, _) => none

abbrev ChangeThread := ChangeRequest × Journal authIface × Prog authIface (Except DomainError Unit)

abbrev Changes :=
  Tracked authIface AuthState ChangeRequest (Journal authIface) (Except DomainError Unit)

abbrev ChangeStep := Pool.Action ChangeRequest AuthInput

/-- What a user proves to be themselves with. -/
structure Credentials where
  passwordHash : String
  mfaSecret : String
  mfaEnabled : Bool
  oauthProvider : Option String
  oauthSubject : Option String
deriving DecidableEq

def User.credentials (u : User) : Credentials :=
  ⟨u.passwordHash, u.mfaSecret, u.mfaEnabled, u.oauthProvider, u.oauthSubject⟩

/-- The call stores a record. -/
def AuthCall.storesUser : AuthCall → Bool
  | .users (.update _) => true
  | _ => false

/-- The record that was read is the one that is stored now, and nobody has been linked to the
    profile if nobody was. -/
def AuthEntry.Current (s : AuthState) : AuthEntry → Prop
  | ⟨.users (.getByID _), .ok u⟩ => s.users.get u.id = some u
  | ⟨.users (.getByEmail _), .ok u⟩ => s.users.get u.id = some u
  | ⟨.users (.getByOAuthSubject provider subject), .error _⟩ =>
    ∀ u ∈ s.users.values .asStored,
      ¬ (u.oauthProvider = some provider ∧ u.oauthSubject = some subject)
  | _ => True

instance (s : AuthState) (e : AuthEntry) : Decidable (e.Current s) := by
  unfold AuthEntry.Current
  split <;> infer_instance

namespace Changes

def start (s : AuthState) : Changes := ⟨s, []⟩

def step (lib : AuthLib) : Changes → ChangeStep → Option Changes :=
  Tracked.step (handler lib) (fun _ => Journal.protocol fun _ _ => True) []
    (ChangeRequest.body lib) fun _ => none

/-- A record is stored while what the request has read of it is current, and a reset token is
    looked up while no other request holds it. -/
def Undisturbed (p : Changes) : ChangeStep → Prop
  | .spawn _ => True
  | .advance n _ => ∀ th ∈ p.threads[n]?, ∀ c ∈ th.2.2.nextCall,
      (c.storesUser = true → ∀ e ∈ th.2.1, AuthEntry.Current p.shared e) ∧
      ∀ y ∈ c.looksUp, ∀ th' ∈ p.threads, th'.2.2.nextCall.isSome = true → ¬ y.1.HeldIn y.2 th'.2.1

instance (p : Changes) (a : ChangeStep) : Decidable (p.Undisturbed a) := by
  unfold Undisturbed
  split <;> infer_instance

/-- All requests have returned. -/
def Quiet (p : Changes) : Prop := ∀ th ∈ p.threads, th.2.2.nextCall = none

/-- Request `n` was this one, and has succeeded. -/
def Succeeded (p : Changes) (n : Nat) (t : ChangeRequest) : Prop :=
  ∃ log, p.threads[n]? = some (t, log, .ret (.ok ()))

/-- The successful requests can be put in an order in which each of them succeeds alone, one
    after the other, and they leave the credentials that are stored. -/
def Serializable (lib : AuthLib) (s : AuthState) (p : Changes) : Prop :=
  ∃ (order : List (Nat × ChangeRequest × (Nat → AuthInput))) (s' : AuthState),
    (order.map (·.1)).Nodup ∧ (∀ n t, (∃ w, (n, t, w) ∈ order) ↔ p.Succeeded n t) ∧
    Machine.run (ChangeRequest.alone lib) s (order.map (·.2)) = some s' ∧
    ∀ x, (s'.users.get x).map User.credentials = (p.shared.users.get x).map User.credentials

end Changes

/-! ## What a request has read when it writes -/

/-- A record has been stored. -/
def Updated (log : Journal authIface) : Prop := ∃ u u', Told log (.users (.update u)) (.ok u')

/-- The answers on which a request goes on to store a record. -/
def AuthEntry.Favourable : AuthEntry → Prop
  | ⟨.users (.getByID _), .ok _⟩ | ⟨.users (.getByEmail _), .ok _⟩ => True
  | ⟨.users (.getByOAuthSubject _ _), .error e⟩ => e = .notFound
  | ⟨.resets (.getByHash _), .ok pr⟩ => pr.usedAt = none
  | ⟨.now, .ok _⟩ | ⟨.validate _ _, .ok _⟩ => True
  | _ => False

/-- Nothing is done but reading until a record is stored, and then what remains of
    `ResetPassword`. -/
def ChangeFits (log : Journal authIface) : AuthCall → Prop
  | .users (.update _) => ∀ e ∈ log, AuthEntry.Favourable e
  | .resets (.markUsed x) => Updated log ∧ (∀ y r, ¬ Told log (.resets (.markUsed y)) r) ∧
      ∃ hash pr, Told log (.resets (.getByHash hash)) (.ok pr) ∧ pr.usedAt = none ∧ pr.id = x
  | .refresh (.revokeAllForUser _) => Updated log
  | c => c.reads = true ∧ ¬ Updated log

/-- A call that remains to be made once a record is stored. -/
def AuthCall.closes : AuthCall → Bool
  | .resets (.markUsed _) | .refresh (.revokeAllForUser _) => true
  | _ => false

/-- A request that succeeds has stored a record and marked its token, or has found that there
    is nothing to link. -/
def Completes (change : AccountChange) (log : Journal authIface) : Prop :=
  (∀ hash pr, Told log (.resets (.getByHash hash)) (.ok pr) →
    Told log (.resets (.markUsed pr.id)) (.ok ())) ∧
  (Updated log ∨ ∃ info rest, change = .link info ∧
    ((∃ u, log = ⟨.users (.getByOAuthSubject "google" info.sub), .ok u⟩ :: rest) ∨
      log = ⟨.users (.getByEmail info.email), .error .notFound⟩ :: rest))

/-- A request that fails has stored no record, or one of the calls that remain has failed. -/
def Fails (log : Journal authIface) : Prop :=
  ¬ Updated log ∨ ∃ c e, c.closes = true ∧ Told log c (.error e)

open AccountChange

section

variable {α : Type} {log : Journal authIface} {fits : Journal authIface → AuthCall → Prop}
  {Q : α → Journal authIface → Prop} {E : DomainError → Journal authIface → Prop}

theorem meets_require {b : Bool} {err : DomainError} {f : Unit → AuthSvc α}
    (hf : b = true → Meets fits (f ()) Q E log) (he : E err log) :
    Meets fits (require b err >>= f) Q E log := by
  cases b with
  | true => exact Meets.bind (meets_pure (hf rfl))
  | false => exact Meets.bind (meets_throw he)

theorem meets_drawn {β : Type} {r : Except DomainError β} {f : β → AuthSvc α}
    (hf : ∀ b, Meets fits (f b) Q E log) (he : ∀ e, E e log) :
    Meets fits (drawn r >>= f) Q E log := by
  cases r with
  | ok b => exact Meets.bind (meets_pure (hf b))
  | error e => exact Meets.bind (meets_throw (he e))

theorem not_updated_nil : ¬ Updated [] := by
  rintro ⟨u, u', htold⟩
  cases htold

theorem updated_cons_iff {c : AuthCall} {r : Except DomainError c.Result} :
    Updated (⟨c, r⟩ :: log) ↔ Updated log ∨ (c.storesUser = true ∧ r.isOk = true) := by
  constructor
  · rintro ⟨u, u', htold⟩
    rcases mem_cons.mp htold with heq | hold
    · obtain ⟨rfl, hr⟩ := Sigma.mk.inj heq
      rw [← eq_of_heq hr]
      exact .inr ⟨rfl, rfl⟩
    · exact .inl ⟨u, u', hold⟩
  · rintro (hold | ⟨hc, hr⟩)
    · obtain ⟨u, u', htold⟩ := hold
      exact ⟨u, u', htold.cons r⟩
    · unfold AuthCall.storesUser at hc
      split at hc
      · cases r with
        | ok u' => exact ⟨_, u', told_self _⟩
        | error e => cases hr
      · cases hc

theorem not_updated_read {c : AuthCall} (h : ¬ Updated log) (hc : c.reads = true)
    (r : Except DomainError c.Result) : ¬ Updated (⟨c, r⟩ :: log) := by
  rw [updated_cons_iff]
  rintro (hold | ⟨hsto, -⟩)
  · exact h hold
  · unfold AuthCall.storesUser at hsto
    split at hsto
    · cases hc
    · cases hsto

theorem not_updated_failed {u : User} {e : DomainError} (h : ¬ Updated log) :
    ¬ Updated (⟨.users (.update u), .error e⟩ :: log) := by
  rw [updated_cons_iff]
  exact fun hcases => hcases.elim h fun hsto => nomatch hsto.2

theorem updated_self (u u' : User) : Updated (⟨.users (.update u), .ok u'⟩ :: log) :=
  ⟨u, u', told_self _⟩

theorem Updated.cons {c : AuthCall} (h : Updated log) (r : Except DomainError c.Result) :
    Updated (⟨c, r⟩ :: log) := updated_cons_iff.mpr (.inl h)

/-- Until a record is stored, anything may be read. -/
theorem meets_tryRead {c : AuthCall} {f : Except DomainError c.Result → AuthSvc α}
    (hc : c.reads = true) (hlog : ¬ Updated log)
    (hf : ∀ r, ¬ Updated (⟨c, r⟩ :: log) → Meets ChangeFits (f r) Q E (⟨c, r⟩ :: log)) :
    Meets ChangeFits (tryCall c >>= f) Q E log := by
  refine meets_tryCall ?_ fun r => hf r (not_updated_read hlog hc r)
  unfold ChangeFits
  split
  · cases hc
  · cases hc
  · cases hc
  · exact ⟨hc, hlog⟩

theorem meets_read {c : AuthCall} {f : c.Result → AuthSvc α} (hc : c.reads = true)
    (hlog : ¬ Updated log) (hf : ∀ a, ¬ Updated (⟨c, .ok a⟩ :: log) →
      Meets ChangeFits (f a) Q (fun _ => Fails) (⟨c, .ok a⟩ :: log)) :
    Meets ChangeFits (call c >>= f) Q (fun _ => Fails) log := by
  refine meets_tryRead hc hlog fun r hread => ?_
  cases r with
  | ok a => exact hf a hread
  | error e => exact .inl hread

variable (lib : AuthLib) (d : Draws)

theorem meets_enableMFA (userID : UUID) :
    Meets ChangeFits (serve lib d (.enableMFA userID))
      (fun _ => Completes (.enableMFA userID)) (fun _ => Fails) [] := by
  apply Meets.bind
  refine meets_read rfl not_updated_nil fun u hread => ?_
  apply meets_drawn
  · intro secret
    apply meets_attempt
    · exact forall_mem_singleton.mpr trivial
    · intro u'
      exact meets_pure (meets_pure ⟨by simp [Told], .inl (updated_self _ u')⟩)
    · exact fun e => .inl (not_updated_failed hread)
  · exact fun e => .inl hread

theorem meets_verifyMFA (userID : UUID) (code : String) :
    Meets ChangeFits (serve lib d (.verifyMFA userID code))
      (fun _ => Completes (.verifyMFA userID code)) (fun _ => Fails) [] := by
  refine meets_read rfl not_updated_nil fun u hread => ?_
  refine meets_require (fun _ => ?_) (.inl hread)
  refine meets_read rfl hread fun valid hchk => ?_
  refine meets_require (fun _ => ?_) (.inl hchk)
  apply meets_attempt
  · exact forall_mem_cons.mpr ⟨trivial, forall_mem_singleton.mpr trivial⟩
  · intro u'
    exact meets_pure ⟨by simp [Told], .inl (updated_self _ u')⟩
  · exact fun e => .inl (not_updated_failed hchk)

theorem meets_resetPassword (raw password : String) :
    Meets ChangeFits (serve lib d (.resetPassword raw password))
      (fun _ => Completes (.resetPassword raw password)) (fun _ => Fails) [] := by
  refine meets_tryRead rfl not_updated_nil fun r hlook => ?_
  split
  · exact meets_throw (.inl hlook)
  · exact meets_throw (.inl hlook)
  · next pr =>
    refine meets_require (fun hunused => ?_) (.inl hlook)
    have hunused : pr.usedAt = none := of_decide_eq_true hunused
    refine meets_read rfl hlook fun now htimed => ?_
    refine meets_require (fun _ => ?_) (.inl htimed)
    refine meets_read rfl htimed fun u hread => ?_
    apply meets_drawn
    · intro hash
      apply meets_attempt
      · exact forall_mem_cons.mpr ⟨trivial, forall_mem_cons.mpr ⟨trivial,
          forall_mem_singleton.mpr hunused⟩⟩
      · intro u'
        apply meets_attempt
        · refine ⟨updated_self _ u', by simp [Told], _, pr, ?_, hunused, rfl⟩
          exact (((told_self _).cons _).cons _).cons _
        · intro _
          apply meets_last
          · exact (updated_self _ u').cons _
          · intro _
            refine ⟨?_, .inl (((updated_self _ u').cons _).cons _)⟩
            -- The journal has one lookup of a reset token.
            intro hash' pr' htold
            simp only [Told, mem_cons, Sigma.mk.injEq, reduceCtorEq, false_and,
              AuthCall.resets.injEq, ResetCall.getByHash.injEq, not_mem_nil,
              or_false, false_or] at htold
            obtain ⟨rfl, hpr⟩ := htold
            obtain rfl := Except.ok.inj (eq_of_heq hpr)
            exact (told_self _).cons _
          · exact fun e => .inr ⟨_, e, rfl, told_self _⟩
        · exact fun e => .inr ⟨_, e, rfl, told_self _⟩
      · exact fun e => .inl (not_updated_failed hread)
    · exact fun e => .inl hread

theorem meets_link (info : GoogleUserInfo) :
    Meets ChangeFits (serve lib d (.link info))
      (fun _ => Completes (.link info)) (fun _ => Fails) [] := by
  apply Meets.bind
  refine meets_tryRead rfl not_updated_nil fun r hlook => ?_
  split
  · next u =>
    exact meets_pure (meets_pure ⟨by simp [Told], .inr ⟨info, [], rfl, .inl ⟨u, rfl⟩⟩⟩)
  · refine meets_tryRead rfl hlook fun r hsearched => ?_
    split
    · next existing =>
      apply meets_attempt
      · exact forall_mem_cons.mpr ⟨trivial, forall_mem_singleton.mpr rfl⟩
      · intro u'
        exact meets_pure (meets_pure ⟨by simp [Told], .inl (updated_self _ u')⟩)
      · exact fun e => .inl (not_updated_failed hsearched)
    · exact meets_pure (meets_pure ⟨by simp [Told], .inr ⟨info, _, rfl, .inr rfl⟩⟩)
    · exact meets_throw (.inl hsearched)
  · exact meets_throw (.inl hlook)

/-- Every change ends as `Completes` or `Fails` says. -/
theorem serve_meets (t : ChangeRequest) :
    Meets ChangeFits (t.change.serve lib t.draws) (fun _ => Completes t.change) (fun _ => Fails)
      [] := by
  obtain ⟨change, draws⟩ := t
  cases change with
  | resetPassword => exact meets_resetPassword lib draws ..
  | enableMFA => exact meets_enableMFA lib draws ..
  | verifyMFA => exact meets_verifyMFA lib draws ..
  | link => exact meets_link lib draws ..

end

/-! ## Tokens in hand -/

/-- The request is to mark this reset token, which it has found unused. -/
structure HoldsReset (pr : PasswordReset) (th : ChangeThread) : Prop where
  busy : th.2.2.nextCall.isSome = true
  found : ∃ hash, Told th.2.1 (.resets (.getByHash hash)) (.ok pr)
  unused : pr.usedAt = none
  unmarked : ¬ Told th.2.1 (.resets (.markUsed pr.id)) (.ok ())

variable {pr : PasswordReset}

theorem HoldsReset.heldIn {th : ChangeThread} (h : HoldsReset pr th) :
    reset.HeldIn pr.tokenHash th.2.1 := by
  obtain ⟨hash, htold⟩ := h.found
  refine ⟨_, htold, (pr.id, pr.row), rfl, rfl, ?_, ?_⟩
  · show pr.usedAt.isSome = false
    rw [h.unused]
    rfl
  · intro e he hspend
    unfold spends at hspend
    split at hspend
    · next heq => cases heq
    · next x _ _ =>
      cases hspend
      exact h.unmarked he
    · cases hspend

namespace Changes

variable {lib : AuthLib} {p p' : Changes} {a : ChangeStep}

/-- The reset token is used up. -/
def Spent (s : AuthState) (x : UUID) : Prop := ∃ pr, s.resets.get x = some pr ∧ pr.usedAt ≠ none

variable (lib) in
theorem markUsed_stored {s : AuthState} {x : UUID} (h : s.resets.get x ≠ none) (i : AuthInput) :
    ∃ s', method lib (.resets (.markUsed x)) i s = (.ok (), s') ∧ s'.users = s.users ∧
      Spent s' x ∧ ∀ y, y ≠ x → s'.resets.get y = s.resets.get y := by
  obtain ⟨pr, hget⟩ := ne_none_iff_exists'.mp h
  have hkey : pr.id = x := key_of_get hget
  refine ⟨{ s with resets := s.resets.put { pr with usedAt := some i.now } }, ?_, rfl,
    ⟨{ pr with usedAt := some i.now }, ?_, some_ne_none _⟩, fun y hy => ?_⟩
  · simp only [method, resetMethod, ResetRepo.markUsed, hget]
  · simp [get_put, hkey]
  · rw [get_put, if_neg (by rw [hkey]; exact hy)]

/-- What holds of the requests in undisturbed runs. -/
structure Steady (lib : AuthLib) (p : Changes) : Prop where
  served : p.Conforming (fun _ => Journal.protocol ChangeFits) fun t r log =>
    outcome (fun _ => Completes t.change) (fun _ => Fails) r log
  sound : ∀ th ∈ p.threads, Sound lib th.2.1
  follows : ∀ th ∈ p.threads, (th.1.body lib).Follows th.2.1 th.2.2
  current : ∀ th ∈ p.threads, ∀ pr, HoldsReset pr th → p.shared.resets.get pr.id = some pr
  closed : ∀ th ∈ p.threads, ∀ e ∈ th.2.1, e.1.closes = true → e.2.isOk = true
  marked : ∀ th ∈ p.threads, ∀ e ∈ th.2.1, ∀ x ∈ reset.spends e, Spent p.shared x
  alone : ∀ x, p.AtMostOne fun th => ∃ pr, HoldsReset pr th ∧ pr.id = x

theorem steady_start (s : AuthState) : Steady lib (start s) where
  served _ hth := nomatch hth
  sound _ hth := nomatch hth
  follows _ hth := nomatch hth
  current _ hth := nomatch hth
  closed _ hth := nomatch hth
  marked _ hth := nomatch hth
  alone _ _ _ _ _ hm := nomatch hm

section

variable {n : Nat} {t : ChangeRequest} {log : Journal authIface} {c : AuthCall}
  {k : Except DomainError c.Result → Prog authIface (Except DomainError Unit)}

theorem Steady.fits (h : Steady lib p) (hn : p.threads[n]? = some (t, log, .call c k)) :
    ChangeFits log c := (h.served _ (mem_of_getElem? hn)).1

variable {x : UUID}

theorem Steady.holds_of_marks {k : _ → Prog authIface (Except DomainError Unit)} (h : Steady lib p)
    (hn : p.threads[n]? = some (t, log, .call (.resets (.markUsed x)) k)) :
    ∃ pr, HoldsReset pr (t, log, .call (.resets (.markUsed x)) k) ∧ pr.id = x := by
  obtain ⟨-, hunmarked, hash, pr, htold, hunused, hid⟩ := h.fits hn
  exact ⟨pr, ⟨rfl, ⟨hash, htold⟩, hunused, hunmarked _ _⟩, hid⟩

section

variable (h : Steady lib p) (hn : p.threads[n]? = some (t, log, .call c k))
include h hn

theorem Steady.closes_ok (hc : c.closes = true) (i : AuthInput) :
    (method lib c i p.shared).1.isOk = true := by
  unfold AuthCall.closes at hc
  split at hc
  · next x =>
    obtain ⟨pr, hholds, rfl⟩ := h.holds_of_marks hn
    have hget := h.current _ (mem_of_getElem? hn) pr hholds
    obtain ⟨s', hmethod, -⟩ := markUsed_stored lib (hget ▸ some_ne_none _) i
    rw [hmethod]
    rfl
  · rfl
  · cases hc

theorem Steady.resets_method (i : AuthInput) :
    (method lib c i p.shared).2.resets = p.shared.resets ∨
      ∃ pr, c = .resets (.markUsed pr.id) ∧ HoldsReset pr (t, log, .call c k) ∧
        (method lib c i p.shared).2.resets =
          p.shared.resets.put { pr with usedAt := some i.now } := by
  rcases Auth.resets_method lib c i p.shared with hsame | ⟨pr, rfl, -⟩ | ⟨x, pr, rfl, hget, hput⟩
  · exact .inl hsame
  · exact absurd (h.fits hn).1 Bool.false_ne_true
  · obtain ⟨pr', hholds, rfl⟩ := h.holds_of_marks hn
    have hget' := h.current _ (mem_of_getElem? hn) pr' hholds
    cases hget.symm.trans hget'
    exact .inr ⟨pr, rfl, hholds, hput⟩

end

theorem holdsReset_cases {i : AuthInput} {s : AuthState}
    {q : Prog authIface (Except DomainError Unit)}
    (h : HoldsReset pr (t, ⟨c, (method lib c i s).1⟩ :: log, q)) :
    HoldsReset pr (t, log, .call c k) ∨ ∃ hash, c = .resets (.getByHash hash) ∧
      s.resets.get pr.id = some pr ∧ pr.tokenHash = hash := by
  obtain ⟨hash, htold⟩ := h.found
  rcases mem_cons.mp htold with heq | hold
  · obtain ⟨rfl, hr⟩ := Sigma.mk.inj heq
    exact .inr ⟨hash, rfl, reset_of_getByHash (eq_of_heq hr).symm⟩
  · exact .inl ⟨rfl, ⟨hash, hold⟩, h.unused, fun hmark => h.unmarked (hmark.cons _)⟩

section

variable (h : Steady lib p) (hn : p.threads[n]? = some (t, log, .call c k)) (i : AuthInput)
include h hn i

theorem Steady.current_self {q : Prog authIface (Except DomainError Unit)}
    (hholds : HoldsReset pr (t, ⟨c, (method lib c i p.shared).1⟩ :: log, q)) :
    (method lib c i p.shared).2.resets.get pr.id = some pr := by
  rcases holdsReset_cases (k := k) hholds with hpre | ⟨hash, rfl, hget, -⟩
  · have hget := h.current _ (mem_of_getElem? hn) pr hpre
    rcases h.resets_method hn i with hsame | ⟨pr', rfl, hholds', hput⟩
    · rw [hsame, hget]
    · rw [hput, get_put]
      by_cases hid : pr.id = pr'.id
      · -- It would have been marked just now.
        have hok := h.closes_ok hn rfl i
        refine absurd ?_ hholds.unmarked
        rw [hid]
        generalize (method lib (.resets (.markUsed pr'.id)) i p.shared).1 = r at hok ⊢
        cases r with
        | ok _ => exact told_self _
        | error e => cases hok
      · rw [if_neg hid, hget]
  · rw [method_of_reads rfl, hget]

theorem Steady.spent_method (hx : Spent p.shared x) : Spent (method lib c i p.shared).2 x := by
  obtain ⟨pr, hget, hused⟩ := hx
  rcases h.resets_method hn i with hsame | ⟨pr', -, -, hput⟩
  · exact ⟨pr, by rw [hsame, hget], hused⟩
  · unfold Spent
    rw [hput, get_put]
    by_cases hid : x = pr'.id
    · rw [if_pos hid]
      exact ⟨_, rfl, some_ne_none _⟩
    · rw [if_neg hid]
      exact ⟨pr, hget, hused⟩

end

theorem spent_of_marks {i : AuthInput} {s : AuthState}
    (hx : x ∈ reset.spends ⟨c, (method lib c i s).1⟩) :
    Spent (method lib c i s).2 x := by
  obtain ⟨r, hrow, hspent⟩ := row_of_spends hx
  obtain ⟨pr, hget, rfl⟩ := map_eq_some_iff.mp hrow
  exact ⟨pr, hget, isSome_iff_ne_none.mp hspent⟩

end

/-- Undisturbed steps keep the requests steady. -/
theorem Steady.step (h : Steady lib p) (hc : p.Undisturbed a)
    (hstep : Changes.step lib p a = some p') : Steady lib p' where
  served := h.served.step (serve_meets lib) (fun _ _ _ => trivial) hstep
  sound := by
    refine each_thread_step hstep h.sound (fun _ _ => sound_nil) ?_
    exact fun n i t log c k _ _ hth => hth.cons c i p.shared
  follows := follows_step hstep h.follows
  current := by
    refine forall_threads_step
      (A := fun th s => ∀ pr, HoldsReset pr th → s.resets.get pr.id = some pr) hstep h.current
      ?_ ?_ ?_
    · intro t _ pr hholds
      obtain ⟨hash, htold⟩ := hholds.found
      cases htold
    · intro n i t log c k _ hn pr hholds
      exact h.current_self hn i hholds
    · intro n i t log c k _ hn m th hmn hm hth pr hholds
      rcases h.resets_method hn i with hsame | ⟨pr', rfl, hholds', hput⟩
      · show (method lib c i p.shared).2.resets.get pr.id = _
        rw [hsame, hth pr hholds]
      · -- No other request marks a token that this one holds.
        show (method lib _ i p.shared).2.resets.get pr.id = _
        rw [hput, get_put]
        by_cases hid : pr.id = pr'.id
        · exact absurd (h.alone pr.id m n _ _ hm hn ⟨pr, hholds, rfl⟩ ⟨pr', hholds', hid.symm⟩) hmn
        · rw [if_neg hid, hth pr hholds]
  closed := by
    refine each_thread_step hstep h.closed (fun _ _ _ he => nomatch he) ?_
    exact fun n i t log c k _ hn hth =>
      forall_mem_cons.mpr ⟨fun hclose => h.closes_ok hn hclose i, hth⟩
  marked := by
    refine forall_entries_step
      (K := fun e s => ∀ x ∈ reset.spends e, Spent s x) hstep h.marked ?_ ?_
    · exact fun n i t log c k _ x hx => spent_of_marks hx
    · exact fun n i t log c k hn e he x hx => h.spent_method hn i (he x hx)
  alone x := by
    refine Tracked.AtMostOne.step (h.alone x) hstep ?_ ?_
    · rintro t - ⟨pr, hholds, -⟩
      obtain ⟨hash, htold⟩ := hholds.found
      cases htold
    · rintro n i t log c k rfl hn ⟨pr, hholds, rfl⟩
      rcases holdsReset_cases (k := k) hholds with hpre | ⟨hash, rfl, hget, hhash⟩
      · exact .inl ⟨pr, hpre, rfl⟩
      · -- It was looked up just now, so nobody held it.
        refine .inr ?_
        rintro m th - hm ⟨pr', hholds', hid⟩
        have hget' := h.current th (mem_of_getElem? hm) pr' hholds'
        rw [hid, hget] at hget'
        cases hget'
        subst hhash
        exact (hc _ hn _ rfl).2 _ rfl th (mem_of_getElem? hm) hholds'.busy hholds'.heldIn

end Changes

end NexusVPN.Backend.Auth
