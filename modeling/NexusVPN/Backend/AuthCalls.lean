import NexusVPN.Backend.AuthService
import NexusVPN.Lib.Journal

/-! # One call after the other

    Calls of `AuthService` and `PairingService` that do not overlap.  What a call has asked
    and been told stands in its journal.

    * `Asked`, `AuthState.step`: the calls, and the machine that makes them.
    * The rules for a call that keeps its journal, and what each answer says of the state. -/

namespace NexusVPN.Backend.Auth

open List Prog Table Except AuthState UserRepo PairingManager
open RefreshRepo (getByHash revoke)

/-! ## The machine -/

/-- A request with all that it draws and reads from outside. -/
structure Asked where
  request : AuthRequest
  draws : Draws
  inputs : Nat → AuthInput

/-- What the call returns, the state that it leaves and its journal. -/
def Asked.exec (lib : AuthLib) (cfg : AuthConfig) (a : Asked) (s : AuthState) :
    Except DomainError a.request.Result × AuthState × Journal authIface :=
  (a.request.serve lib cfg a.draws).run.exec (journaled (handler lib)) a.inputs (s, [])

def AuthState.step (lib : AuthLib) (cfg : AuthConfig) (s : AuthState) (a : Asked) :
    Option AuthState :=
  some (a.exec lib cfg s).2.1

/-- A call with its answer. -/
abbrev AuthEntry := (c : AuthCall) × Except DomainError c.Result

/-- The call was made, and this was the answer. -/
def Told (log : Journal authIface) (c : AuthCall) (r : Except DomainError c.Result) : Prop :=
  (⟨c, r⟩ : AuthEntry) ∈ log

/-! ## Calls and their journals -/

section

variable {lib : AuthLib} {cfg : AuthConfig} {d : Draws} {s : AuthState} {log : Journal authIface}
  {α β : Type}

/-- The handler of a call that keeps its journal. -/
abbrev kept (lib : AuthLib) : Handler authIface (AuthState × Journal authIface) AuthInput :=
  journaled (handler lib)

theorem wpe_call (c : AuthCall) (Q : c.Result → AuthState × Journal authIface → Prop)
    (E : DomainError → AuthState × Journal authIface → Prop) :
    wpe (kept lib) (call c) Q E (s, log) ↔ ∀ i, outcome Q E (method lib c i s).1
      ((method lib c i s).2, ⟨c, (method lib c i s).1⟩ :: log) := Iff.rfl

variable {u u' : User} {ι σ : Type} {hash : String} {J : σ → Prop} {c : AuthCall} {i : AuthInput}
  {h : Handler authIface σ ι}

theorem wpe_require {s : σ} (b : Bool) (err : DomainError) (Q : Unit → σ → Prop)
    (E : DomainError → σ → Prop) :
    wpe h (require b err) Q E s ↔ (b = true → Q () s) ∧ (b = false → E err s) := by
  unfold require
  cases b <;> simp

theorem preserves_call (hc : ∀ i s, J s → J (h c i s).2) : Preserves h J (call c) :=
  preserves_attempt hc

theorem preserves_require (b : Bool) (err : DomainError) : Preserves h J (require b err) :=
  fun _ hs => (wpe_require b err _ _).mpr ⟨fun _ => hs, fun _ => hs⟩

theorem preserves_drawn (r : Except DomainError α) : Preserves h J (drawn r) := by
  cases r with
  | ok a => exact preserves_pure a
  | error e => exact preserves_throw e

theorem user_of_getByID {id : UUID}
    (h : (method lib (.users (.getByID id)) i s).1 = .ok u) :
    s.users.get id = some u := by
  simp only [method, userMethod, getByID] at h
  split at h
  · cases h
  · next hget => rw [hget, ok.inj h]

theorem user_of_getByEmail {email : String}
    (h : (method lib (.users (.getByEmail email)) i s).1 = .ok u) :
    s.users.get u.id = some u ∧ lib.std.equalFold u.email email = true := by
  simp only [method, userMethod, getByEmail] at h
  split at h
  · cases h
  · next hfound =>
    cases h
    exact found hfound

theorem user_of_getByOAuthSubject {provider subject : String}
    (h : (method lib (.users (.getByOAuthSubject provider subject)) i s).1 = .ok u) :
    s.users.get u.id = some u ∧ u.oauthProvider = some provider ∧
      u.oauthSubject = some subject := by
  simp only [method, userMethod, getByOAuthSubject] at h
  split at h
  · cases h
  · next hfound =>
    cases h
    exact (found hfound).imp_right fun hp => by simpa using hp

theorem token_of_getByHash {rt : RefreshToken}
    (h : (method lib (.refresh (.getByHash hash)) i s).1 = .ok rt) :
    s.refresh.get rt.id = some rt ∧ rt.tokenHash = hash := by
  simp only [method, refreshMethod, getByHash] at h
  split at h
  · cases h
  · next hfound =>
    cases h
    exact (found hfound).imp_right eq_of_beq

theorem reset_of_getByHash {pr : PasswordReset}
    (h : (method lib (.resets (.getByHash hash)) i s).1 = .ok pr) :
    s.resets.get pr.id = some pr ∧ pr.tokenHash = hash := by
  simp only [method, resetMethod, ResetRepo.getByHash] at h
  split at h
  · cases h
  · next hfound =>
    cases h
    exact (found hfound).imp_right eq_of_beq

theorem status_of_create (h : (method lib (.users (.create u)) i s).1 = .ok u') :
    u'.status = u.status := by
  simp only [method, userMethod, create] at h
  split at h
  · cases h
  · rw [← ok.inj h]

theorem user_of_update (h : (method lib (.users (.update u)) i s).1 = .ok u') :
    u' = { u with updatedAt := i.now } := by
  simp only [method, userMethod, update] at h
  split at h
  · cases h
  · exact (ok.inj h).symm

theorem claims_of_parsePairing {token : String} {claims : PairingClaims}
    (h : (method lib (.parsePairing token) i s).1 = .ok claims) :
    lib.parsePairing token = .ok claims := by
  simp only [method, parse] at h
  split at h
  · cases h
  · next hparse =>
    split at h
    · rw [hparse, ok.inj h]
    · cases h

/-- Calls that only look something up. -/
def AuthCall.reads : AuthCall → Bool
  | .users (.getByID _) | .users (.getByEmail _) | .users (.getByOAuthSubject _ _)
  | .refresh (.getByHash _) | .resets (.getByHash _) | .verify _ _ | .validate _ _
  | .parsePairing _ | .now => true
  | _ => false

theorem method_of_reads (hc : c.reads = true) (i : AuthInput) : (method lib c i s).2 = s := by
  unfold AuthCall.reads at hc
  split at hc
  · simp only [method, userMethod, getByID]
    split <;> rfl
  · simp only [method, userMethod, getByEmail]
    split <;> rfl
  · simp only [method, userMethod, getByOAuthSubject]
    split <;> rfl
  · simp only [method, refreshMethod, getByHash]
    split <;> rfl
  · simp only [method, resetMethod, ResetRepo.getByHash]
    split <;> rfl
  · rfl
  · rfl
  · simp only [method, parse]
    split
    · rfl
    · split <;> rfl
  · rfl
  · cases hc

/-- Each method writes to its own table only. -/
theorem method_frame (lib : AuthLib) (c : AuthCall) (i : AuthInput) (s : AuthState) :
    ((∃ c', c = .users c') ∨ (method lib c i s).2.users = s.users) ∧
    ((∃ c', c = .refresh c') ∨ (method lib c i s).2.refresh = s.refresh) ∧
    ((∃ c', c = .resets c') ∨ (method lib c i s).2.resets = s.resets) := by
  cases c with
  | users c =>
    refine ⟨.inl ⟨c, rfl⟩, .inr ?_, .inr ?_⟩ <;>
      cases c <;> simp only [method, userMethod, create,
        update, getByID, getByEmail, getByOAuthSubject] <;>
      split <;> rfl
  | refresh c =>
    refine ⟨.inr ?_, .inl ⟨c, rfl⟩, .inr ?_⟩ <;> cases c <;> try rfl
    all_goals
      simp only [method, refreshMethod, getByHash, revoke]
      split <;> rfl
  | resets c =>
    refine ⟨.inr ?_, .inr ?_, .inl ⟨c, rfl⟩⟩ <;> cases c <;> try rfl
    all_goals
      simp only [method, resetMethod, ResetRepo.getByHash, ResetRepo.markUsed]
      split <;> rfl
  | allow | verify | validate | now => exact ⟨.inr rfl, .inr rfl, .inr rfl⟩
  | parsePairing =>
    rw [method_of_reads rfl]
    exact ⟨.inr rfl, .inr rfl, .inr rfl⟩
  | spendPairing id expires =>
    simp only [method, spend]
    split <;> exact ⟨.inr rfl, .inr rfl, .inr rfl⟩

theorem users_method (lib : AuthLib) (c : AuthCall) (i : AuthInput) (s : AuthState) :
    (method lib c i s).2.users = s.users ∨
    (∃ u, c = .users (.create u) ∧ (method lib c i s).2.users = s.users.put
      { u with id := orFresh u.id i.fresh, createdAt := i.now, updatedAt := i.now }) ∨
    (∃ u u₀, c = .users (.update u) ∧ s.users.get u.id = some u₀ ∧
      (method lib c i s).2.users = s.users.put { u with updatedAt := i.now }) := by
  rcases (method_frame lib c i s).1 with ⟨c, rfl⟩ | hsame
  · cases c with
    | create u =>
      simp only [method, userMethod, create]
      split
      · exact .inl rfl
      · exact .inr (.inl ⟨u, rfl, rfl⟩)
    | update u =>
      simp only [method, userMethod, update]
      split
      · exact .inl rfl
      · next u₀ hu₀ => exact .inr (.inr ⟨u, u₀, rfl, hu₀, rfl⟩)
    | getByID | getByEmail | getByOAuthSubject => exact .inl (by rw [method_of_reads rfl])
  · exact .inl hsame

theorem refresh_method (lib : AuthLib) (c : AuthCall) (i : AuthInput) (s : AuthState) :
    (method lib c i s).2.refresh = s.refresh ∨
    (∃ rt, c = .refresh (.create rt) ∧ (method lib c i s).2.refresh = s.refresh.put
      { rt with id := orFresh rt.id i.fresh, createdAt := i.now }) ∨
    (∃ id rt, c = .refresh (.revoke id) ∧ s.refresh.get id = some rt ∧
      (method lib c i s).2.refresh = s.refresh.put { rt with revokedAt := some i.now }) ∨
    (∃ x, c = .refresh (.revokeAllForUser x) ∧ (method lib c i s).2.refresh =
      s.refresh.mapValues (RefreshRepo.revokeIf x i.now) (RefreshRepo.revokeIf_id x i.now)) := by
  rcases (method_frame lib c i s).2.1 with ⟨c, rfl⟩ | hsame
  · cases c with
    | create rt => exact .inr (.inl ⟨rt, rfl, rfl⟩)
    | getByHash hash => exact .inl (by rw [method_of_reads rfl])
    | revoke id =>
      simp only [method, refreshMethod, revoke]
      split
      · exact .inl rfl
      · next rt hrt => exact .inr (.inr (.inl ⟨id, rt, rfl, hrt, rfl⟩))
    | revokeAllForUser x => exact .inr (.inr (.inr ⟨x, rfl, rfl⟩))
  · exact .inl hsame

theorem resets_method (lib : AuthLib) (c : AuthCall) (i : AuthInput) (s : AuthState) :
    (method lib c i s).2.resets = s.resets ∨
    (∃ pr, c = .resets (.create pr) ∧ (method lib c i s).2.resets = s.resets.put
      { pr with id := orFresh pr.id i.fresh, createdAt := i.now }) ∨
    (∃ id pr, c = .resets (.markUsed id) ∧ s.resets.get id = some pr ∧
      (method lib c i s).2.resets = s.resets.put { pr with usedAt := some i.now }) := by
  rcases (method_frame lib c i s).2.2 with ⟨c, rfl⟩ | hsame
  · cases c with
    | create pr => exact .inr (.inl ⟨pr, rfl, rfl⟩)
    | getByHash hash => exact .inl (by rw [method_of_reads rfl])
    | markUsed id =>
      simp only [method, resetMethod, ResetRepo.markUsed]
      split
      · exact .inl rfl
      · next pr hpr => exact .inr (.inr ⟨id, pr, rfl, hpr, rfl⟩)
  · exact .inl hsame

theorem users_of_told {c : UserCall} (h : (method lib (.users c) i s).1 = .ok u) :
    (method lib (.users c) i s).2.users.get u.id = some u := by
  cases c with
  | create v =>
    simp only [method, userMethod, create] at h ⊢
    split at h
    · cases h
    · next hnew =>
      rw [if_neg hnew, ← ok.inj h]
      simp [get_put]
  | update v =>
    simp only [method, userMethod, update] at h ⊢
    split at h
    · cases h
    · rw [← ok.inj h]
      simp [get_put]
  | getByID id =>
    rw [method_of_reads rfl]
    have hget := user_of_getByID h
    rw [key_of_get hget, hget]
  | getByEmail email =>
    rw [method_of_reads rfl]
    exact (user_of_getByEmail h).1
  | getByOAuthSubject provider subject =>
    rw [method_of_reads rfl]
    exact (user_of_getByOAuthSubject h).1

/-- Each answer in the journal is one that the call can have. -/
def Sound (lib : AuthLib) (log : Journal authIface) : Prop :=
  ∀ c r, Told log c r → ∃ i s, (method lib c i s).1 = r

theorem sound_nil : Sound lib [] := fun _ _ h => nomatch h

theorem Sound.cons (h : Sound lib log) (c : AuthCall) (i : AuthInput) (s : AuthState) :
    Sound lib (⟨c, (method lib c i s).1⟩ :: log) := by
  intro c' r' htold
  rcases mem_cons.mp htold with heq | hold
  · obtain ⟨rfl, hr⟩ := Sigma.mk.inj heq
    exact ⟨i, s, (eq_of_heq hr).symm⟩
  · exact h c' r' hold

theorem Sound.getByID {id : UUID} (h : Sound lib log)
    (htold : Told log (.users (.getByID id)) (.ok u)) : u.id = id := by
  obtain ⟨i, s, hans⟩ := h _ _ htold
  exact key_of_get (user_of_getByID hans)

theorem Sound.update (h : Sound lib log) (htold : Told log (.users (.update u)) (.ok u')) :
    ∃ now, u' = { u with updatedAt := now } := by
  obtain ⟨i, s, hans⟩ := h _ _ htold
  exact ⟨i.now, user_of_update hans⟩

theorem Sound.refreshHash {rt : RefreshToken} (h : Sound lib log)
    (htold : Told log (.refresh (.getByHash hash)) (.ok rt)) : rt.tokenHash = hash := by
  obtain ⟨i, s, hans⟩ := h _ _ htold
  exact (token_of_getByHash hans).2

theorem Sound.resetHash {pr : PasswordReset} (h : Sound lib log)
    (htold : Told log (.resets (.getByHash hash)) (.ok pr)) : pr.tokenHash = hash := by
  obtain ⟨i, s, hans⟩ := h _ _ htold
  exact (reset_of_getByHash hans).2

end

end NexusVPN.Backend.Auth
