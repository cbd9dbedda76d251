import NexusVPN.Backend.AuthRequests

/-! # Disabled accounts

    Sessions are issued by one helper that four services end up in.  Only `Login` looks at
    the status of the account. -/

namespace NexusVPN.Backend.Auth

open List Prog Machine AuthState

/-! ## What is asked -/

/-- If the call has stored a token, then for a user who was not disabled when the call read
    their record. -/
def OnlyToEnabled (log : Journal authIface) : Prop :=
  ∀ rt r, Told log (.refresh (.create rt)) r → ∀ c u, Told log (.users c) (.ok u) →
    u.id = rt.userID → u.status ≠ .disabled

/-- The accounts that the token, the code or the profile of the request stand for.  A token
    that is revoked or has expired stands for none.  A `Login` names its account itself. -/
def AuthState.Behind (lib : AuthLib) (s : AuthState) (a : Asked) (u : User) : Prop :=
  match a.request with
  | .refresh raw _ _ => ∃ rt n, s.refresh.get rt.id = some rt ∧ rt.tokenHash = lib.hashToken raw ∧
      rt.revokedAt = none ∧ (a.inputs n).now.after rt.expiresAt = false ∧
      s.users.get rt.userID = some u
  | .googleCallback code _ _ => ∃ info, a.draws.exchange code = .ok info ∧
      s.users.get u.id = some u ∧
      ((u.oauthProvider = some "google" ∧ u.oauthSubject = some info.sub) ∨
        lib.std.equalFold u.email info.email = true)
  | .claim token _ _ => ∃ claims userID, lib.parsePairing token = .ok claims ∧
      UUID.parse claims.userID = some userID ∧ s.users.get userID = some u
  | _ => False

/-- No account behind the request is disabled. -/
def EnabledBehind (lib : AuthLib) (s : AuthState) (a : Asked) : Prop :=
  ∀ u, s.Behind lib a u → u.status ≠ .disabled

section

variable {lib : AuthLib} {cfg : AuthConfig} {s s₀ : AuthState} {log : Journal authIface}
  {c : AuthCall} {i : AuthInput} {a : Asked}

def NoToken (log : Journal authIface) : Prop := ∀ rt r, ¬ Told log (.refresh (.create rt)) r

theorem noToken_nil : NoToken [] := nofun

theorem NoToken.cons (h : NoToken log) (hc : ∀ rt, c ≠ .refresh (.create rt))
    (r : Except DomainError c.Result) : NoToken (⟨c, r⟩ :: log) := by
  intro rt r' htold
  rcases mem_cons.mp htold with heq | hold
  · exact hc rt (Sigma.mk.inj heq).1.symm
  · exact h rt r' hold

theorem NoToken.onlyToEnabled (h : NoToken log) : OnlyToEnabled log :=
  fun rt r htold => absurd htold (h rt r)

theorem AllEnabled.onlyToEnabled (h : AllEnabled log) : OnlyToEnabled log :=
  fun _ _ _ c u htold _ => h c u htold

theorem Spared.noToken (h : Spared log) : NoToken log := fun _ _ htold => nomatch h _ htold

/-! ## A call that nothing overlaps -/

/-- Does the request stand for an account that it does not name? -/
def AuthRequest.standsFor : AuthRequest → Bool
  | .refresh _ _ _ | .googleCallback _ _ _ | .claim _ _ _ => true
  | _ => false

/-- What holds while a call that began in `s₀` is served.  Until it writes it reads what was
    stored then. -/
structure Served (lib : AuthLib) (a : Asked) (s₀ s : AuthState) (log : Journal authIface) :
    Prop where
  kept : Spared log → s.users = s₀.users ∧ s.refresh = s₀.refresh
  found : ∀ hash rt, Told log (.refresh (.getByHash hash)) (.ok rt) → Spared log →
    s₀.refresh.get rt.id = some rt ∧ rt.tokenHash = hash
  clock : ∀ now, Told log .now (.ok now) → ∃ n, (a.inputs n).now = now
  sound : Sound lib log
  enabled : NoToken log ∨ AllEnabled log
  behind : a.request.standsFor = true → AllEnabled log

theorem enabled_of_stored {c : UserCall} {u : User} (hall : AllEnabled log)
    (hc : Vouched lib ⟨a.request, a.draws⟩ log (.users c))
    (hsto : (AuthCall.users c).spares = false)
    (hu : (method lib (.users c) i s).1 = .ok u) : u.status ≠ .disabled := by
  cases c with
  | create v =>
    rw [status_of_create hu]
    exact hc.2
  | update v =>
    rw [user_of_update hu]
    have hrew : a.request.Rewrites log v := hc.1.1
    unfold AuthRequest.Rewrites at hrew
    split at hrew
    · obtain ⟨u₀, _, htold, rfl⟩ := hrew
      exact hall _ u₀ htold
    · obtain ⟨u₀, htold, _, rfl⟩ := hrew
      exact hall _ u₀ htold
    · obtain ⟨_, u₀, _, htold, rfl⟩ := hrew
      exact hall _ u₀ htold
    · obtain ⟨_, u₀, _, _, htold, rfl⟩ := hrew
      exact hall _ u₀ htold
    · exact hrew.elim
  | getByID | getByEmail | getByOAuthSubject => cases hsto

/-- What a request looks up is the account behind it. -/
theorem Served.lookup (h : Served lib a s₀ s log) (hen : EnabledBehind lib s₀ a)
    (hstands : a.request.standsFor = true) {c : UserCall} {u : User}
    (hc : Vouched lib ⟨a.request, a.draws⟩ log (.users c))
    (hreads : (AuthCall.users c).spares = true)
    (hu : (method lib (.users c) i s).1 = .ok u) : u.status ≠ .disabled := by
  obtain ⟨request, draws, inputs⟩ := a
  apply hen
  cases c with
  | create | update => cases hreads
  | getByID x =>
    obtain ⟨hspare, hwhy⟩ := hc.2
    have hsto := user_of_getByID hu
    rw [(h.kept hspare).1] at hsto
    cases request with
    | refresh raw ip agent =>
      obtain ⟨rt, now, htold, hgood, hnow, hlive, rfl⟩ := hwhy
      obtain ⟨hrow, hhash⟩ := h.found _ rt htold hspare
      obtain ⟨n, rfl⟩ := h.clock now hnow
      exact ⟨rt, n, hrow, hhash, hgood, hlive, hsto⟩
    | claim token ip agent =>
      obtain ⟨claims, htold, hid⟩ := hwhy
      obtain ⟨_, _, hparse⟩ := h.sound _ _ htold
      exact ⟨claims, x, claims_of_parsePairing hparse, hid, hsto⟩
    | googleCallback => exact hwhy.elim
    | _ => cases hstands
  | getByEmail email =>
    obtain ⟨hspare, hwhy⟩ := hc.2
    obtain ⟨hsto, hemail⟩ := user_of_getByEmail hu
    rw [(h.kept hspare).1] at hsto
    cases request with
    | googleCallback code ip agent =>
      obtain ⟨info, hinfo, rfl⟩ := hwhy
      exact ⟨info, hinfo, hsto, .inr hemail⟩
    | refresh | claim => exact hwhy.elim
    | _ => cases hstands
  | getByOAuthSubject provider subject =>
    obtain ⟨hspare, hwhy⟩ := hc.2
    obtain ⟨hsto, hlinked⟩ := user_of_getByOAuthSubject hu
    rw [(h.kept hspare).1] at hsto
    cases request with
    | googleCallback code ip agent =>
      obtain ⟨info, hinfo, rfl, rfl⟩ := hwhy
      exact ⟨info, hinfo, hsto, .inl hlinked⟩
    | _ => exact hwhy.elim

theorem AllEnabled.step (h : AllEnabled log) (hc : Vouched lib ⟨a.request, a.draws⟩ log c)
    (hreads : ∀ c' u, c = .users c' → c.spares = true →
      (method lib (.users c') i s).1 = .ok u → u.status ≠ .disabled) :
    AllEnabled (⟨c, (method lib c i s).1⟩ :: log) := by
  cases c with
  | users c =>
    apply h.user
    intro u hu
    cases hspare : (AuthCall.users c).spares with
    | true => exact hreads c u rfl hspare hu
    | false => exact enabled_of_stored h hc hspare hu
  | _ => exact h.cons (by simp) _

theorem Served.step (h : Served lib a s₀ s log) (hen : EnabledBehind lib s₀ a)
    (hc : Vouched lib ⟨a.request, a.draws⟩ log c) {n : Nat} (hi : a.inputs n = i) :
    Served lib a s₀ (method lib c i s).2 (⟨c, (method lib c i s).1⟩ :: log) where
  kept hspared := by
    obtain ⟨husers, hrefr⟩ := h.kept fun e he => hspared e (mem_cons_of_mem _ he)
    have hspare : c.spares = true := hspared _ mem_cons_self
    rw [← husers, ← hrefr]
    constructor
    · rcases users_method lib c i s with hsame | ⟨u, rfl, -⟩ | ⟨u, u₀, rfl, -⟩
      · exact hsame
      · cases hspare
      · cases hspare
    · rcases refresh_method lib c i s with hsame | ⟨_, rfl, -⟩ | ⟨_, _, rfl, -⟩ | ⟨_, rfl, -⟩
      · exact hsame
      · cases hspare
      · cases hspare
      · cases hspare
  found hash rt htold hspared := by
    have hpre : Spared log := fun e he => hspared e (mem_cons_of_mem _ he)
    rcases mem_cons.mp htold with heq | hold
    · obtain ⟨rfl, hr⟩ := Sigma.mk.inj heq
      rw [← (h.kept hpre).2]
      exact token_of_getByHash (eq_of_heq hr).symm
    · exact h.found hash rt hold hpre
  clock now htold := by
    rcases mem_cons.mp htold with heq | hold
    · obtain ⟨rfl, hr⟩ := Sigma.mk.inj heq
      cases hr
      exact ⟨n, congrArg AuthInput.now hi⟩
    · exact h.clock now hold
  sound := h.sound.cons c i s
  behind hstands := by
    refine (h.behind hstands).step hc ?_
    rintro c' u rfl hspare hu
    exact h.lookup hen hstands hc hspare hu
  enabled := by
    by_cases hcr : ∃ rt, c = .refresh (.create rt)
    · -- only `Login` opens a session for an account that the request names
      obtain ⟨rt, rfl⟩ := hcr
      refine .inr (AllEnabled.cons ?_ (by simp) _)
      obtain ⟨request, draws, inputs⟩ := a
      cases request with
      | login => exact hc.2
      | refresh | googleCallback | claim => exact h.behind rfl
      | _ => exact hc.1.1.2.2.2.elim
    · have hother : ∀ rt, c ≠ .refresh (.create rt) := fun rt hrt => hcr ⟨rt, hrt⟩
      rcases h.enabled with hnone | hall
      · exact .inl (hnone.cons hother _)
      · by_cases hspared : Spared log
        · exact .inl (hspared.noToken.cons hother _)
        · refine .inr (hall.step hc ?_)
          rintro c' u rfl hspare -
          cases c' with
          | create | update => cases hspare
          | _ => exact absurd hc.2.1 hspared

variable (lib cfg) in
theorem onlyToEnabled_of_enabledBehind (a : Asked) (s : AuthState)
    (hen : EnabledBehind lib s a) : OnlyToEnabled (a.exec lib cfg s).2.2 := by
  have hstart : Served lib a s s [] :=
    ⟨fun _ => ⟨rfl, rfl⟩, nofun, nofun, sound_nil, .inl noToken_nil, fun _ => allEnabled_nil⟩
  have hend := (Obeys.exec_journaled (h := handler lib) (J := Served lib a s) a.inputs
    (fun _ _ _ _ hserv hc => hserv.step hen hc rfl)
    (serve_vouched lib cfg a.draws a.request) hstart).1
  rcases hend.enabled with hnone | hall
  · exact hnone.onlyToEnabled
  · exact hall.onlyToEnabled

end

/-- In a run of calls that do not overlap, none of which stands for a disabled account without
    being a `Login`, every call that stores a token found its account enabled. -/
theorem sessions_of_enabled (lib : AuthLib) (cfg : AuthConfig) (s : AuthState) (as : List Asked)
    (hbehind : Along (step lib cfg) (EnabledBehind lib) s as) :
    Along (step lib cfg) (fun s a => OnlyToEnabled (a.exec lib cfg s).2.2) s as :=
  hbehind.imp (P := fun _ => True)
    (fun s a _ _ hen _ => ⟨trivial, onlyToEnabled_of_enabledBehind lib cfg a s hen⟩)
    trivial

section

def renewal : Asked := ⟨.refresh "session" "" "", plainDraws, fun _ => default⟩

theorem renewal_enabledBehind : EnabledBehind plainLib (plainState plainUser) renewal := by
  intro u hu
  obtain ⟨rt, _, hrt, _, _, _, hget⟩ := hu
  have hsession : rt = plainSession := by
    rw [plainState, Table.get_put] at hrt
    split at hrt
    · exact (Option.some.inj hrt).symm
    · cases hrt
  subst hsession
  cases hget
  decide

theorem sessions_of_enabled_renewal :
    Along (step plainLib plainConfig)
      (fun s a => OnlyToEnabled (a.exec plainLib plainConfig s).2.2) (plainState plainUser)
      [renewal] :=
  sessions_of_enabled plainLib plainConfig (plainState plainUser) [renewal]
    (along_cons rfl renewal_enabledBehind trivial)

/-- A session outlives its account: `Refresh` renews it after the account was disabled. -/
theorem disabled_renewed :
    ¬ Along (step plainLib plainConfig)
      (fun s a => OnlyToEnabled (a.exec plainLib plainConfig s).2.2)
      (plainState { plainUser with status := .disabled }) [renewal] := by
  intro halong
  have htokens := (halong _ rfl).1
  exact htokens _ (.ok ()) mem_cons_self (.getByID plainUser.id)
    { plainUser with status := .disabled }
    (mem_cons_of_mem _ (mem_cons_of_mem _ (mem_cons_of_mem _ mem_cons_self)))
    rfl rfl

end

end NexusVPN.Backend.Auth
