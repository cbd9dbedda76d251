import NexusVPN.Backend.AuthCalls

/-! # Requests to AuthService side by side

    Any number of requests are in progress at once, and between two calls of one request
    the others may make theirs.  Each request carries its journal. -/

namespace NexusVPN.Backend.Auth

open List Prog Option Tracked AuthState Pool

/-! ## The machine -/

/-- A request, with what it will draw. -/
structure Incoming where
  request : AuthRequest
  draws : Draws

/-- The hash of the token that the request hands out, if it comes to that. -/
def Incoming.tokenHash (lib : AuthLib) (t : Incoming) : Option String :=
  t.draws.token.toOption.map lib.hashToken

/-- A request with what it came to. -/
abbrev AuthOutcome := (r : AuthRequest) × Except DomainError r.Result

def Incoming.body (lib : AuthLib) (cfg : AuthConfig) (t : Incoming) : Prog authIface AuthOutcome :=
  (t.request.serve lib cfg t.draws).run >>= fun r => .ret ⟨t.request, r⟩

/-- A request with its journal and with what it has left to do. -/
abbrev AuthThread := Incoming × Journal authIface × Prog authIface AuthOutcome

/-- The requests that came in. -/
abbrev AuthRequests := Tracked authIface AuthState Incoming (Journal authIface) AuthOutcome

/-- A request comes in, or one of those in progress makes its next call. -/
abbrev AuthStep := Pool.Action Incoming AuthInput

namespace AuthRequests

def idle : AuthRequests := ⟨.empty, []⟩

/-- Two requests draw different ids and different tokens. -/
def Unlike (lib : AuthLib) (t t' : Incoming) : Prop :=
  t.draws.userID ≠ t'.draws.userID ∧ t.draws.rowID ≠ t'.draws.rowID ∧
    ∀ hash ∈ t.tokenHash lib, t'.tokenHash lib ≠ some hash

instance (lib : AuthLib) (t t' : Incoming) : Decidable (Unlike lib t t') :=
  inferInstanceAs (Decidable (_ ∧ _ ∧ ∀ hash ∈ t.tokenHash lib, _))

/-- What the request draws is new. -/
def DrawsNew (lib : AuthLib) (p : AuthRequests) : AuthStep → Prop
  | .spawn t => t.draws.userID ≠ .nil ∧ t.draws.rowID ≠ .nil ∧ ∀ th ∈ p.threads, Unlike lib th.1 t
  | .advance _ _ => True

instance (lib : AuthLib) (p : AuthRequests) (a : AuthStep) : Decidable (p.DrawsNew lib a) := by
  unfold DrawsNew
  split <;> infer_instance

def step (lib : AuthLib) (cfg : AuthConfig) (p : AuthRequests) (a : AuthStep) :
    Option AuthRequests :=
  if p.DrawsNew lib a then
    Tracked.step (handler lib) (fun _ => Journal.protocol fun _ _ => True) []
      (Incoming.body lib cfg) (fun _ => none) p a
  else none

/-- Thread `n` makes its next `count` calls. -/
def goesOn (n count : Nat) : List AuthStep :=
  List.replicate count (.advance n default)

/-- The `n`-th request comes in, and will draw that token. -/
def comesIn (n : UInt8) (r : AuthRequest) (token : String) : AuthStep :=
  .spawn ⟨r, { plainDraws with
    token := .ok token, userID := .ofBytes [n, 1], rowID := .ofBytes [n, 2] }⟩

/-- An account is made with the password "old". -/
def registered : List AuthStep :=
  comesIn 0 (.register "owner@home" "old" "Owner" "") "unused" :: goesOn 0 3

/-- Its owner logs in, and is handed the token "first". -/
def loggedIn : List AuthStep :=
  registered ++ comesIn 1 (.login "owner@home" "old" "" "" "") "first" :: goesOn 1 6

end AuthRequests

/-! ## What a request has read when it writes -/

/-- The record that a request may store, given what it has read. -/
def AuthRequest.Rewrites (log : Journal authIface) (u : User) : AuthRequest → Prop
  | .enableMFA userID => ∃ u₀ secret, Told log (.users (.getByID userID)) (.ok u₀) ∧
      u = { u₀ with mfaSecret := secret, mfaEnabled := false }
  | .verifyMFA userID code => ∃ u₀, Told log (.users (.getByID userID)) (.ok u₀) ∧
      Told log (.validate u₀.mfaSecret code) (.ok true) ∧ u = { u₀ with mfaEnabled := true }
  | .resetPassword _ _ => ∃ c u₀ hash, Told log (.users c) (.ok u₀) ∧
      u = { u₀ with passwordHash := hash }
  | .googleCallback _ _ _ => ∃ c u₀ provider subject, Told log (.users c) (.ok u₀) ∧
      u = { u₀ with oauthProvider := provider, oauthSubject := subject }
  | _ => False

/-- What a request has been told when it opens a session for a user. -/
def AuthRequest.Entitled (lib : AuthLib) (log : Journal authIface) (x : UUID) : AuthRequest → Prop
  | .login email password code _ _ => ∃ u, Told log (.users (.getByEmail email)) (.ok u) ∧
      u.id = x ∧ Told log (.verify u.passwordHash password) (.ok true) ∧
      (u.mfaEnabled = true → Told log (.validate u.mfaSecret code) (.ok true))
  | .refresh raw _ _ => ∃ rt u, Told log (.refresh (.getByHash (lib.hashToken raw))) (.ok rt) ∧
      rt.revokedAt = none ∧ Told log (.refresh (.revoke rt.id)) (.ok ()) ∧
      Told log (.users (.getByID rt.userID)) (.ok u) ∧ u.id = x
  | .googleCallback _ _ _ | .claim _ _ _ => True
  | _ => False

/-- What stands in the journal when a call is made, and goes on standing there. -/
def Bears (lib : AuthLib) (t : Incoming) (log : Journal authIface) : AuthCall → Prop
  | .users (.create u) => u.id = t.draws.userID
  | .users (.update u) => t.request.Rewrites log u
  | .refresh (.create rt) => rt.id = t.draws.rowID ∧ t.tokenHash lib = some rt.tokenHash ∧
      rt.revokedAt = none ∧ t.request.Entitled lib log rt.userID
  | .resets (.create pr) => pr.id = t.draws.rowID ∧ t.tokenHash lib = some pr.tokenHash ∧
      pr.usedAt = none
  | _ => True

/-- Calls that store a token. -/
def AuthCall.issues : AuthCall → Bool
  | .refresh (.create _) | .resets (.create _) => true
  | _ => false

/-- No token has been stored yet. -/
def Unissued (log : Journal authIface) : Prop := ∀ e ∈ log, e.1.issues = false

/-- A request stores one token at most, and writes what its journal bears out. -/
def AuthFits (lib : AuthLib) (t : Incoming) (log : Journal authIface) (c : AuthCall) : Prop :=
  Bears lib t log c ∧ (c.issues = true → Unissued log)

/-- Calls that store and revoke nothing. -/
def AuthCall.spares : AuthCall → Bool
  | .users (.create _) | .users (.update _) | .refresh (.create _) | .refresh (.revoke _)
  | .refresh (.revokeAllForUser _) | .resets (.create _) => false
  | _ => true

/-- Nothing has been stored or revoked yet. -/
def Spared (log : Journal authIface) : Prop := ∀ e ∈ log, e.1.spares = true

def AllEnabled (log : Journal authIface) : Prop :=
  ∀ c u, Told log (.users c) (.ok u) → u.status ≠ .disabled

/-- Which accounts a request looks up, and what `Login` has seen of them when it opens a
    session. -/
def Warranted (lib : AuthLib) (t : Incoming) (log : Journal authIface) : AuthCall → Prop
  | .users (.getByID x) => Spared log ∧ match t.request with
    | .refresh raw _ _ => ∃ rt now, Told log (.refresh (.getByHash (lib.hashToken raw))) (.ok rt) ∧
        rt.revokedAt = none ∧ Told log .now (.ok now) ∧ now.after rt.expiresAt = false ∧
        rt.userID = x
    | .claim token _ _ => ∃ claims, Told log (.parsePairing token) (.ok claims) ∧
        UUID.parse claims.userID = some x
    | .googleCallback _ _ _ => False
    | _ => True
  | .users (.getByEmail email) => Spared log ∧ match t.request with
    | .googleCallback code _ _ => ∃ info, t.draws.exchange code = .ok info ∧ info.email = email
    | .refresh _ _ _ | .claim _ _ _ => False
    | _ => True
  | .users (.getByOAuthSubject provider subject) => Spared log ∧ match t.request with
    | .googleCallback code _ _ => ∃ info, t.draws.exchange code = .ok info ∧
        provider = "google" ∧ info.sub = subject
    | _ => False
  | .users (.create u) => u.status ≠ .disabled
  | .refresh (.create _) => match t.request with
    | .login _ _ _ _ _ => AllEnabled log
    | _ => True
  | _ => True

/-- A request writes what its journal bears out, and looks up what it has reason to. -/
def Vouched (lib : AuthLib) (t : Incoming) (log : Journal authIface) (c : AuthCall) : Prop :=
  AuthFits lib t log c ∧ Warranted lib t log c

/-- What a request that has succeeded was told on the way. -/
def Concludes (lib : AuthLib) (log : Journal authIface) : AuthOutcome → Prop
  | ⟨.refresh raw _ _, .ok _⟩ => ∃ rt,
      Told log (.refresh (.getByHash (lib.hashToken raw))) (.ok rt) ∧ rt.revokedAt = none ∧
      Told log (.refresh (.revoke rt.id)) (.ok ())
  | ⟨.resetPassword raw _, .ok _⟩ => ∃ pr u hash u',
      Told log (.resets (.getByHash (lib.hashToken raw))) (.ok pr) ∧ pr.usedAt = none ∧
      Told log (.users (.getByID pr.userID)) (.ok u) ∧
      Told log (.users (.update { u with passwordHash := hash })) (.ok u') ∧
      Told log (.resets (.markUsed pr.id)) (.ok ()) ∧
      Told log (.refresh (.revokeAllForUser u'.id)) (.ok ())
  | _ => True

/-! ## The services -/

variable {c : AuthCall}

section

variable {lib : AuthLib} {cfg : AuthConfig} {t : Incoming} {log log' : Journal authIface} {α : Type}
  {Q : α → Journal authIface → Prop} {fits : Journal authIface → AuthCall → Prop}

theorem fits_drawn {β : Type} {r : Except DomainError β} {f : β → AuthSvc α}
    (hf : ∀ b, r = .ok b → Fits fits (f b) Q log) : Fits fits (drawn r >>= f) Q log := by
  cases r with
  | ok b => exact Fits.bind (fits_pure (hf b rfl))
  | error e => exact Fits.bind (fits_throw e)

/-- Calls that anybody may make at any time. -/
def AuthCall.plain : AuthCall → Bool
  | .users (.create _) | .users (.update _) | .refresh (.create _) | .resets (.create _) => false
  | _ => true

theorem bears_plain (hc : c.plain = true) : Bears lib t log c := by
  unfold Bears
  split <;> first | cases hc | trivial

theorem authFits_plain (hc : c.plain = true) : AuthFits lib t log c := by
  refine ⟨bears_plain hc, fun hissues => ?_⟩
  unfold AuthCall.issues at hissues
  split at hissues
  · cases hc
  · cases hc
  · cases hissues

theorem vouched_plain (hc : c.plain = true) (hw : Warranted lib t log c) : Vouched lib t log c :=
  ⟨authFits_plain hc, hw⟩

theorem vouched_users {c : UserCall} (hbears : Bears lib t log (.users c))
    (hw : Warranted lib t log (.users c)) : Vouched lib t log (.users c) :=
  ⟨⟨hbears, fun h => nomatch h⟩, hw⟩

theorem Unissued.cons (h : Unissued log) (hc : c.issues = false) (r : Except DomainError c.Result) :
    Unissued (⟨c, r⟩ :: log) := forall_mem_cons.mpr ⟨hc, h⟩

theorem spared_nil : Spared [] := fun _ he => nomatch he

theorem Spared.cons (h : Spared log) (hc : c.spares = true) (r : Except DomainError c.Result) :
    Spared (⟨c, r⟩ :: log) := forall_mem_cons.mpr ⟨hc, h⟩

theorem Spared.unissued (h : Spared log) : Unissued log := by
  intro e he
  have hspare := h e he
  unfold AuthCall.issues
  split <;> simp_all [AuthCall.spares]

theorem allEnabled_nil : AllEnabled [] := fun _ _ h => nomatch h

theorem AllEnabled.cons (h : AllEnabled log) (hc : ∀ c', c ≠ .users c')
    (r : Except DomainError c.Result) : AllEnabled (⟨c, r⟩ :: log) := by
  intro c' u htold
  rcases mem_cons.mp htold with heq | hold
  · exact absurd (Sigma.mk.inj heq).1.symm (hc c')
  · exact h c' u hold

theorem AllEnabled.user {c : UserCall} (h : AllEnabled log) {r : Except DomainError User}
    (hr : ∀ u, r = .ok u → u.status ≠ .disabled) : AllEnabled (⟨.users c, r⟩ :: log) := by
  intro c' u htold
  rcases mem_cons.mp htold with heq | hold
  · obtain ⟨hc, hr'⟩ := Sigma.mk.inj heq
    cases hc
    exact hr u (eq_of_heq hr').symm
  · exact h c' u hold

theorem fits_allow (key : String) (limit : Nat) (hlog : Spared log ∧ AllEnabled log) :
    Fits (Vouched lib t) (allow cfg key limit) (fun _ log => Spared log ∧ AllEnabled log) log := by
  unfold allow
  split
  · refine fits_try (vouched_plain rfl trivial) fun r => ?_
    split <;> exact fits_pure ⟨hlog.1.cons rfl _, hlog.2.cons (by simp) _⟩
  · exact fits_pure hlog

theorem fits_allowBoth (key : String) (limit : Nat) (key' : String) (limit' : Nat) :
    Fits (Vouched lib t) (allowBoth cfg key limit key' limit')
      (fun _ log => Spared log ∧ AllEnabled log) [] := by
  apply Fits.bind
  refine (fits_allow key limit ⟨spared_nil, allEnabled_nil⟩).mono ?_
  intro allowed log' hlog'
  split
  · exact fits_allow key' limit' hlog'
  · exact fits_pure hlog'

theorem Told.cons {c' : AuthCall} {r : Except DomainError c.Result} (h : Told log c r)
    (r' : Except DomainError c'.Result) : Told (⟨c', r'⟩ :: log) c r := mem_cons_of_mem _ h

theorem told_self (r : Except DomainError c.Result) : Told (⟨c, r⟩ :: log) c r := mem_cons_self

theorem AuthRequest.Rewrites.mono {r : AuthRequest} {u : User} (h : r.Rewrites log u)
    (hlog : log ⊆ log') : r.Rewrites log' u := by
  cases r with
  | enableMFA userID =>
    obtain ⟨u₀, secret, htold, rfl⟩ := h
    exact ⟨u₀, secret, hlog htold, rfl⟩
  | verifyMFA userID code =>
    obtain ⟨u₀, htold, hvalid, rfl⟩ := h
    exact ⟨u₀, hlog htold, hlog hvalid, rfl⟩
  | resetPassword raw password =>
    obtain ⟨c, u₀, hash, htold, rfl⟩ := h
    exact ⟨c, u₀, hash, hlog htold, rfl⟩
  | googleCallback code ip agent =>
    obtain ⟨c, u₀, provider, subject, htold, rfl⟩ := h
    exact ⟨c, u₀, provider, subject, hlog htold, rfl⟩
  | _ => exact h.elim

theorem AuthRequest.Entitled.mono {r : AuthRequest} {x : UUID} (h : r.Entitled lib log x)
    (hlog : log ⊆ log') : r.Entitled lib log' x := by
  cases r with
  | login email password code ip agent =>
    obtain ⟨u, htold, hid, hver, hvalid⟩ := h
    exact ⟨u, hlog htold, hid, hlog hver, fun hmfa => hlog (hvalid hmfa)⟩
  | refresh raw ip agent =>
    obtain ⟨rt, u, hfound, hgood, hrev, htold, hid⟩ := h
    exact ⟨rt, u, hlog hfound, hgood, hlog hrev, hlog htold, hid⟩
  | googleCallback | claim => trivial
  | _ => exact h.elim

theorem Bears.mono (h : Bears lib t log c) (hlog : log ⊆ log') : Bears lib t log' c := by
  unfold Bears at h ⊢
  split at h
  · exact h
  · exact h.mono hlog
  · exact ⟨h.1, h.2.1, h.2.2.1, h.2.2.2.mono hlog⟩
  · exact h
  · trivial

theorem fits_issueTokenPair {u : User} {ip agent : String}
    {Q : AuthResult → Journal authIface → Prop}
    (hlog : Unissued log) (hent : t.request.Entitled lib log u.id)
    (hw : ∀ now rt, Warranted lib t (⟨.now, .ok now⟩ :: log) (.refresh (.create rt)))
    (hQ : ∀ result log', log ⊆ log' → Q result log') :
    Fits (Vouched lib t) (issueTokenPair lib cfg t.draws u ip agent) Q log := by
  apply fits_drawn
  intro access _
  apply fits_drawn
  intro raw hraw
  refine fits_call (vouched_plain rfl trivial) fun now => ?_
  apply fits_call
  · refine ⟨⟨⟨rfl, ?_, rfl, hent.mono (subset_cons_self _ _)⟩, fun _ => hlog.cons rfl _⟩, hw now _⟩
    simp [Incoming.tokenHash, hraw, Except.toOption]
  intro _
  refine fits_pure (hQ _ _ ?_)
  exact subset_cons_of_subset _ (subset_cons_self _ _)

variable (lib cfg) (d : Draws)

theorem vouched_register (email password name ip : String) :
    Fits (Vouched lib ⟨.register email password name ip, d⟩)
      (register cfg d email password name ip) (fun _ _ => True) [] := by
  apply Fits.bind
  refine (fits_allow _ _ ⟨spared_nil, allEnabled_nil⟩).mono ?_
  intro allowed log hlog
  apply fits_require
  intro _
  refine fits_try (vouched_plain rfl ⟨hlog.1, trivial⟩) fun r => ?_
  split
  · exact fits_throw _
  · split
    · exact fits_throw _
    · exact fits_attempt (vouched_users rfl nofun) fun _ => trivial
  · exact fits_throw _

theorem vouched_login (email password code ip agent : String) :
    Fits (Vouched lib ⟨.login email password code ip agent, d⟩)
      (login lib cfg d email password code ip agent) (fun _ _ => True) [] := by
  apply Fits.bind
  refine (fits_allowBoth _ _ _ _).mono ?_
  intro allowed log hlog
  apply fits_require
  intro _
  refine fits_try (vouched_plain rfl ⟨hlog.1, trivial⟩) fun r => ?_
  split
  · exact fits_throw _
  · exact fits_throw _
  · next u =>
    apply fits_require
    intro hstat
    have hen : AllEnabled (⟨.users (.getByEmail email), .ok u⟩ :: log) :=
      hlog.2.user fun u' hu' => Except.ok.inj hu' ▸ of_decide_eq_true hstat
    refine fits_call (vouched_plain rfl trivial) fun verified => ?_
    apply fits_require
    intro hver
    obtain rfl : verified = true := hver
    -- From here on the password has been verified.
    have hchk := (hlog.1.cons (c := .users (.getByEmail email)) rfl (.ok u)).cons
      (c := .verify u.passwordHash password) rfl (.ok true)
    split
    · next hmfa =>
      split
      · exact fits_pure trivial
      · refine fits_call (vouched_plain rfl trivial) fun valid => ?_
        apply fits_require
        intro hvalid
        obtain rfl : valid = true := hvalid
        refine fits_issueTokenPair (hchk.cons rfl _).unissued ?_ (fun _ _ => ?_)
          fun _ _ _ => trivial
        · exact ⟨u, ((told_self _).cons _).cons _, rfl, (told_self _).cons _, fun _ => told_self _⟩
        · exact ((hen.cons (by simp) _).cons (by simp) _).cons (by simp) _
    · next hmfa =>
      refine fits_issueTokenPair hchk.unissued ?_ (fun _ _ => ?_) fun _ _ _ => trivial
      · exact ⟨u, (told_self _).cons _, rfl, told_self _, fun h => absurd h hmfa⟩
      · exact (hen.cons (by simp) _).cons (by simp) _

theorem vouched_refresh (raw ip agent : String) :
    Fits (Vouched lib ⟨.refresh raw ip agent, d⟩) (refresh lib cfg d raw ip agent)
      (fun result log => Concludes lib log ⟨.refresh raw ip agent, .ok result⟩) [] := by
  refine fits_try (vouched_plain rfl trivial) fun r => ?_
  split
  · exact fits_throw _
  · exact fits_throw _
  · next rt =>
    apply fits_require
    intro hgood
    have hgood : rt.revokedAt = none := of_decide_eq_true hgood
    refine fits_call (vouched_plain rfl trivial) fun now => ?_
    apply fits_require
    intro hlive
    have hspare : Spared [⟨.now, .ok now⟩, ⟨.refresh (.getByHash (lib.hashToken raw)), .ok rt⟩] :=
      (spared_nil.cons rfl _).cons rfl _
    refine fits_call (vouched_plain rfl ⟨hspare, rt, now, (told_self _).cons _, hgood,
      told_self _, by simpa using hlive, rfl⟩) fun u => ?_
    refine fits_call (vouched_plain rfl trivial) fun _ => ?_
    have hfound : Told ([⟨.users (.getByID rt.userID), .ok u⟩, ⟨.now, .ok now⟩,
        ⟨.refresh (.getByHash (lib.hashToken raw)), .ok rt⟩] : Journal authIface)
        (.refresh (.getByHash (lib.hashToken raw))) (.ok rt) := ((told_self _).cons _).cons _
    apply fits_issueTokenPair
    · exact (hspare.cons rfl _).unissued.cons rfl _
    · exact ⟨rt, u, hfound.cons _, hgood, told_self _, (told_self _).cons _, rfl⟩
    · exact fun _ _ => trivial
    · intro result log' hlog'
      exact ⟨rt, hlog' (hfound.cons _), hgood, hlog' (told_self _)⟩

theorem vouched_logout (raw : String) :
    Fits (Vouched lib ⟨.logout raw, d⟩) (logout lib raw) (fun _ _ => True) [] := by
  unfold logout
  split
  · exact fits_pure trivial
  · refine fits_try (vouched_plain rfl trivial) fun r => ?_
    split
    · exact fits_pure trivial
    · exact fits_throw _
    · exact fits_attempt (vouched_plain rfl trivial) fun _ => trivial

theorem vouched_enableMFA (userID : UUID) :
    Fits (Vouched lib ⟨.enableMFA userID, d⟩) (enableMFA d userID) (fun _ _ => True) [] := by
  refine fits_call (vouched_plain rfl ⟨spared_nil, trivial⟩) fun u => ?_
  apply fits_drawn
  intro secret _
  refine fits_call (vouched_users ?_ trivial) fun _ => fits_pure trivial
  exact ⟨u, secret.1, told_self _, rfl⟩

theorem vouched_verifyMFA (userID : UUID) (code : String) :
    Fits (Vouched lib ⟨.verifyMFA userID code, d⟩) (verifyMFA userID code)
      (fun _ _ => True) [] := by
  refine fits_call (vouched_plain rfl ⟨spared_nil, trivial⟩) fun u => ?_
  apply fits_require
  intro _
  refine fits_call (vouched_plain rfl trivial) fun valid => ?_
  apply fits_require
  intro hvalid
  obtain rfl : valid = true := hvalid
  refine fits_call (vouched_users ?_ trivial) fun _ => fits_pure trivial
  exact ⟨u, (told_self _).cons _, told_self _, rfl⟩

theorem vouched_forgotPassword (email ip : String) :
    Fits (Vouched lib ⟨.forgotPassword email ip, d⟩) (forgotPassword lib cfg d email ip)
      (fun _ _ => True) [] := by
  apply Fits.bind
  refine (fits_allowBoth _ _ _ _).mono ?_
  intro allowed log hlog
  split
  · refine fits_try (vouched_plain rfl ⟨hlog.1, trivial⟩) fun r => ?_
    split
    · exact fits_pure trivial
    · exact fits_throw _
    · apply fits_drawn
      intro raw hraw
      refine fits_call (vouched_plain rfl trivial) fun now => ?_
      refine fits_call ⟨⟨⟨rfl, ?_, rfl⟩, fun _ => ((hlog.1.cons rfl _).cons rfl _).unissued⟩,
        trivial⟩ fun _ => fits_pure trivial
      simp [Incoming.tokenHash, hraw, Except.toOption]
  · exact fits_pure trivial

theorem vouched_resetPassword (raw password : String) :
    Fits (Vouched lib ⟨.resetPassword raw password, d⟩) (resetPassword lib d raw password)
      (fun result log => Concludes lib log ⟨.resetPassword raw password, .ok result⟩) [] := by
  refine fits_try (vouched_plain rfl trivial) fun r => ?_
  split
  · exact fits_throw _
  · exact fits_throw _
  · next pr =>
    apply fits_require
    intro hunused
    have hunused : pr.usedAt = none := of_decide_eq_true hunused
    refine fits_call (vouched_plain rfl trivial) fun now => ?_
    apply fits_require
    intro _
    refine fits_call (vouched_plain rfl ⟨(spared_nil.cons rfl _).cons rfl _, trivial⟩) fun u => ?_
    apply fits_drawn
    intro hash _
    apply fits_call
    · exact vouched_users ⟨_, u, hash, told_self _, rfl⟩ trivial
    intro u'
    refine fits_call (vouched_plain rfl trivial) fun _ => ?_
    refine fits_attempt (vouched_plain rfl trivial) fun _ => ?_
    refine ⟨pr, u, hash, u', ?_, hunused, ?_, ?_, ?_, told_self _⟩
    · exact (((((told_self _).cons _).cons _).cons _).cons _).cons _
    · exact (((told_self _).cons _).cons _).cons _
    · exact ((told_self _).cons _).cons _
    · exact (told_self _).cons _

theorem vouched_linkedAccount {code ip agent : String} {info : GoogleUserInfo}
    (hinfo : d.exchange code = .ok info) :
    Fits (Vouched lib ⟨.googleCallback code ip agent, d⟩) (linkedAccount info)
      (fun _ => Unissued) [] := by
  refine fits_try (vouched_plain rfl ⟨spared_nil, info, hinfo, rfl, rfl⟩) fun r => ?_
  have hspare := spared_nil.cons (c := .users (.getByOAuthSubject "google" info.sub)) rfl r
  split
  · exact fits_pure hspare.unissued
  · refine fits_try (vouched_plain rfl ⟨hspare, info, hinfo, rfl⟩) fun r => ?_
    split
    · refine fits_call (vouched_users ⟨_, _, _, _, told_self _, rfl⟩ trivial) ?_
      intro u
      exact fits_pure ((hspare.cons rfl _).unissued.cons rfl _)
    · exact fits_pure (hspare.cons rfl _).unissued
    · exact fits_throw _
  · exact fits_throw _

theorem vouched_googleCallback (code ip agent : String) :
    Fits (Vouched lib ⟨.googleCallback code ip agent, d⟩)
      (googleCallback lib cfg d code ip agent) (fun _ _ => True) [] := by
  apply fits_require
  intro _
  split
  · exact fits_throw _
  · next info hinfo =>
    apply Fits.bind
    refine (vouched_linkedAccount lib d hinfo).mono ?_
    intro found log hlog
    split
    · exact fits_issueTokenPair hlog trivial (fun _ _ => trivial) fun _ _ _ => trivial
    · apply Fits.bind
      apply fits_drawn
      intro password _
      apply fits_drawn
      intro hash _
      refine fits_call (vouched_plain rfl trivial) fun now => ?_
      apply fits_attempt
      · exact vouched_users rfl nofun
      intro u
      exact fits_issueTokenPair ((hlog.cons rfl _).cons rfl _) trivial (fun _ _ => trivial)
        fun _ _ _ => trivial

theorem vouched_claim (token ip agent : String) :
    Fits (Vouched lib ⟨.claim token ip agent, d⟩) (claim lib cfg d token ip agent)
      (fun _ _ => True) [] := by
  apply Fits.bind
  apply fits_adapt
  refine fits_call (vouched_plain rfl trivial) fun claims => ?_
  apply fits_require
  intro _
  refine fits_call (vouched_plain rfl trivial) fun now => ?_
  refine fits_call (vouched_plain rfl trivial) fun spent => ?_
  apply fits_pure
  have hspare : Spared [⟨.spendPairing claims.id _, .ok spent⟩, ⟨.now, .ok now⟩,
      ⟨.parsePairing token, .ok claims⟩] := ((spared_nil.cons rfl _).cons rfl _).cons rfl _
  split
  · exact fits_throw _
  · next userID hid =>
    refine fits_try (vouched_plain rfl ⟨hspare, claims, ?_, hid⟩) fun r => ?_
    · exact ((told_self _).cons _).cons _
    split
    · exact fits_throw _
    · apply Fits.bind
      exact fits_issueTokenPair (hspare.cons rfl _).unissued trivial (fun _ _ => trivial)
        fun _ _ _ => fits_pure trivial

/-- Every request makes only calls that its journal bears out. -/
theorem serve_vouched (r : AuthRequest) :
    Fits (Vouched lib ⟨r, d⟩) (r.serve lib cfg d)
      (fun result log => Concludes lib log ⟨r, .ok result⟩) [] := by
  cases r with
  | register => exact vouched_register lib cfg d ..
  | login => exact vouched_login lib cfg d ..
  | refresh => exact vouched_refresh lib cfg d ..
  | logout => exact vouched_logout lib d ..
  | enableMFA => exact vouched_enableMFA lib d ..
  | verifyMFA => exact vouched_verifyMFA lib d ..
  | forgotPassword => exact vouched_forgotPassword lib cfg d ..
  | resetPassword => exact vouched_resetPassword lib d ..
  | googleCallback => exact vouched_googleCallback lib cfg d ..
  | claim => exact vouched_claim lib cfg d ..

end

/-! ## Runs -/

namespace AuthRequests

variable {lib : AuthLib} {cfg : AuthConfig} {p p' : AuthRequests} {a : AuthStep}

/-- Every request goes on as its service does, and ends with what the service returns. -/
def AsServed (lib : AuthLib) (p : AuthRequests) : Prop :=
  p.Conforming (fun t => Journal.protocol (AuthFits lib t)) fun t a log =>
    a.1 = t.request ∧ Concludes lib log a

theorem asServed_idle : AsServed lib idle := fun _ hth => nomatch hth

variable (lib cfg) in
theorem body_obeys (t : Incoming) :
    (t.body lib cfg).Obeys (Journal.protocol (AuthFits lib t))
      (fun a log => a.1 = t.request ∧ Concludes lib log a) [] := by
  apply Obeys.bind
  refine Obeys.mono ?_ (Obeys.weaken (fun _ _ h => h.1) (serve_vouched lib cfg t.draws t.request))
  intro r log hr
  refine ⟨rfl, ?_⟩
  obtain ⟨request, draws⟩ := t
  cases r with
  | ok a => exact hr a rfl
  | error e => cases request <;> trivial

theorem step_cases (hstep : step lib cfg p a = some p') :
    (∃ t, a = .spawn t ∧ (t.draws.userID ≠ .nil ∧ t.draws.rowID ≠ .nil ∧
        ∀ th ∈ p.threads, Unlike lib th.1 t) ∧
      p' = { p with threads := p.threads ++ [(t, [], t.body lib cfg)] }) ∨
    ∃ n i t log c k, a = .advance n i ∧ p.threads[n]? = some (t, log, .call c k) ∧
      p' = ⟨(method lib c i p.shared).2, p.threads.set n
        (t, ⟨c, (method lib c i p.shared).1⟩ :: log, k (method lib c i p.shared).1)⟩ := by
  obtain ⟨hnew, hstep⟩ := ite_none_right_eq_some.mp hstep
  rcases step_cases_unforked hstep with ⟨t, rfl, rfl⟩ | ⟨n, i, t, log, c, k, rfl, hn, rfl⟩
  · exact .inl ⟨t, rfl, hnew, rfl⟩
  · exact .inr ⟨n, i, t, log, c, k, rfl, hn, rfl⟩

variable {t : Incoming} {log : Journal authIface}

theorem step_advance {n : Nat} {i : AuthInput}
    {k : Except DomainError c.Result → Prog authIface AuthOutcome}
    (hn : p.threads[n]? = some (t, log, .call c k))
    (hstep : step lib cfg p (.advance n i) = some p') :
    p' = ⟨(method lib c i p.shared).2, p.threads.set n
      (t, ⟨c, (method lib c i p.shared).1⟩ :: log, k (method lib c i p.shared).1)⟩ := by
  rcases step_cases hstep with ⟨t, ha, -⟩ | ⟨n, i, t, log, c, k, ha, hn', rfl⟩
  · cases ha
  · cases ha
    cases hn.symm.trans hn'
    rfl

theorem tracked_step (hstep : step lib cfg p a = some p') :
    Tracked.step (handler lib) (fun t => Journal.protocol (AuthFits lib t)) []
      (Incoming.body lib cfg) (fun _ => none) p a = some p' :=
  (ite_none_right_eq_some.mp hstep).2

theorem AsServed.step (h : AsServed lib p) (hstep : step lib cfg p a = some p') : AsServed lib p' :=
  Tracked.Conforming.step h (body_obeys lib cfg) (fun _ _ _ => trivial) (tracked_step hstep)

theorem AsServed.fits {n : Nat} {k : Except DomainError c.Result → Prog authIface AuthOutcome}
    (h : AsServed lib p) (hn : p.threads[n]? = some (t, log, .call c k)) : AuthFits lib t log c :=
  (h _ (mem_of_getElem? hn)).1

theorem AsServed.returned {o : AuthOutcome} (h : AsServed lib p)
    (hth : (t, log, .ret o) ∈ p.threads) : o.1 = t.request ∧ Concludes lib log o :=
  h _ hth

/-- No two requests draw the same, and none draws the id that stands for none. -/
structure Apart (lib : AuthLib) (p : AuthRequests) : Prop where
  rowID : ∀ x, p.AtMostOne fun th => th.1.draws.rowID = x
  tokenHash : ∀ hash, p.AtMostOne fun th => th.1.tokenHash lib = some hash
  nonnil : ∀ th ∈ p.threads, th.1.draws.rowID ≠ .nil

theorem apart_idle : Apart lib idle where
  rowID _ _ _ _ _ hm := nomatch hm
  tokenHash _ _ _ _ _ hm := nomatch hm
  nonnil _ hth := nomatch hth

theorem Apart.step (h : Apart lib p) (hstep : step lib cfg p a = some p') : Apart lib p' := by
  have hspawned : ∀ t, a = .spawn t → t.draws.rowID ≠ .nil ∧
      ∀ th ∈ p.threads, Unlike lib th.1 t := by
    rintro t rfl
    exact (ite_none_right_eq_some.mp hstep).1.2
  constructor
  · intro x
    refine (h.rowID x).step (tracked_step hstep) ?_ fun _ _ _ _ _ _ _ _ hx => .inl hx
    intro t ht hx m th hm hth
    exact ((hspawned t ht).2 th (mem_of_getElem? hm)).2.1 (hth.trans hx.symm)
  · intro hash
    refine (h.tokenHash hash).step (tracked_step hstep) ?_ fun _ _ _ _ _ _ _ _ hx => .inl hx
    intro t ht hx m th hm hth
    exact ((hspawned t ht).2 th (mem_of_getElem? hm)).2.2 hash hth hx
  · exact each_thread_step (tracked_step hstep) h.nonnil (fun t ht => (hspawned t ht).1)
      fun _ _ _ _ _ _ _ _ hth => hth

/-- What holds of the requests in every run. -/
structure Regular (lib : AuthLib) (p : AuthRequests) : Prop where
  served : AsServed lib p
  apart : Apart lib p
  sound : ∀ th ∈ p.threads, Sound lib th.2.1
  bears : ∀ th ∈ p.threads, ∀ e ∈ th.2.1, Bears lib th.1 th.2.1 e.1

theorem regular_idle : Regular lib idle where
  served := asServed_idle
  apart := apart_idle
  sound _ hth := nomatch hth
  bears _ hth := nomatch hth

theorem Regular.step (h : Regular lib p) (hstep : step lib cfg p a = some p') : Regular lib p' := by
  refine ⟨h.served.step hstep, h.apart.step hstep, ?_, ?_⟩
  · refine each_thread_step (tracked_step hstep) h.sound (fun _ _ => sound_nil) ?_
    exact fun n i t log c k _ _ hth => hth.cons c i p.shared
  · refine each_thread_step (tracked_step hstep) h.bears (fun _ _ _ he => nomatch he) ?_
    exact fun n i t log c k _ hn hth => forall_mem_cons.mpr
      ⟨(h.served.fits hn).1.mono (subset_cons_self _ _),
        fun e he => (hth e he).mono (subset_cons_self _ _)⟩

end AuthRequests

end NexusVPN.Backend.Auth
