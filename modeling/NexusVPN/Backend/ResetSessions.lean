import NexusVPN.Backend.TokenRows

/-! # Password resets and sessions

    `ResetPassword` stores the new password and then revokes the sessions that are stored at
    that moment.  A `Refresh` or a `Login` that has made its checks by then may still store
    another. -/

namespace NexusVPN.Backend.Auth

open List Prog Option Tracked Machine AuthRequests

/-! ## What is asked -/

/-- The user whose sessions the call ends. -/
def AuthCall.ends : AuthCall → Option UUID
  | .refresh (.revokeAllForUser x) => some x
  | _ => none

/-- The password hash that a request has stored. -/
def storedHash (log : Journal authIface) : Option String :=
  log.findSome? fun
    | ⟨.users (.update _), .ok u⟩ => some u.passwordHash
    | _ => none

/-- What the request has read lets it open a session for the user: a token that was not
    revoked, or the user's record with a password hash other than that one. -/
def AuthEntry.opens (x : UUID) (hash : Option String) : AuthRequest → AuthEntry → Bool
  | .refresh _ _ _, ⟨.refresh (.getByHash _), .ok rt⟩ => rt.userID = x ∧ rt.revokedAt = none
  | .login _ _ _ _ _, ⟨.users (.getByEmail _), .ok u⟩ => u.id = x ∧ hash ≠ some u.passwordHash
  | _, _ => false

namespace AuthRequests

/-- Sessions are revoked while no request in progress is about to open one on the strength of
    what it read before. -/
def RevokesAlone (p : AuthRequests) : AuthStep → Prop
  | .spawn _ => True
  | .advance n _ => ∀ th ∈ p.threads[n]?, ∀ c ∈ th.2.2.nextCall, ∀ x ∈ c.ends,
      ∀ th' ∈ p.threads, th'.2.2.nextCall.isSome = true → ∀ e ∈ th'.2.1,
        AuthEntry.opens x (storedHash th.2.1) th'.1.request e = false

instance (p : AuthRequests) : (a : AuthStep) → Decidable (p.RevokesAlone a)
  | .spawn _ => .isTrue trivial
  | .advance n _ => inferInstanceAs (Decidable (∀ th ∈ p.threads[n]?, _))

/-- Request `m` renews a session that is stored in `p`, or is a `Login` that has read there the
    user's record with a password hash other than that one. -/
def Earlier (lib : AuthLib) (p : AuthRequests) (x : UUID) (hash : Option String) (m : Nat)
    (r : AuthRequest) : Prop :=
  (∃ raw ip agent y rt, r = .refresh raw ip agent ∧ p.shared.refresh.get y = some rt ∧
    rt.tokenHash = lib.hashToken raw) ∨
  (∃ email password code ip agent th u, r = .login email password code ip agent ∧
    p.threads[m]? = some th ∧ Told th.2.1 (.users (.getByEmail email)) (.ok u) ∧ u.id = x ∧
    hash ≠ some u.passwordHash)

/-- Every session of the user that such a request has stored by now is revoked. -/
def SessionsEnded (lib : AuthLib) (p : AuthRequests) (x : UUID) (hash : Option String)
    (p' : AuthRequests) : Prop :=
  ∀ (m : Nat) th, p'.threads[m]? = some th → p.Earlier lib x hash m th.1.request →
    ∀ rt r, Told th.2.1 (.refresh (.create rt)) r → rt.userID = x →
    ∀ rt' ∈ p'.shared.refresh.get rt.id, rt'.revokedAt ≠ none

end AuthRequests

/-! ## After the revocation -/

section

variable {lib : AuthLib} {cfg : AuthConfig} {x : UUID} {p p' p'' : AuthRequests}
  {a : AuthStep}

/-- Since `p`, the sessions of the user that were stored there are revoked.  A request that
    has read one of them unrevoked had done so by then. -/
structure Ended (x : UUID) (p p' : AuthRequests) : Prop where
  goOn : p.GoOn p'
  kept : ∀ y r, TokenKind.refresh.row p.shared y = some r →
    ∃ r', TokenKind.refresh.row p'.shared y = some r' ∧ r.Becomes r'
  revoked : ∀ y r, TokenKind.refresh.row p.shared y = some r → r.user = x →
    ∃ r', TokenKind.refresh.row p'.shared y = some r' ∧ r'.spent = true
  read : ∀ th ∈ p'.threads, ∀ e ∈ th.2.1, ∀ y r r₀, TokenKind.refresh.reads e = some (y, r) →
    TokenKind.refresh.row p.shared y = some r₀ → r₀.user = x →
    r.spent = true ∨ ∃ th₀ ∈ p.threads, th₀.1 = th.1 ∧ e ∈ th₀.2.1

theorem row_revokeAllForUser (lib : AuthLib) {s : AuthState} (i : AuthInput) {y : UUID}
    {r : TokenRow} (hy : TokenKind.refresh.row s y = some r) (hr : r.user = x) :
    ∃ r', TokenKind.refresh.row
      (AuthState.method lib (.refresh (.revokeAllForUser x)) i s).2 y = some r' ∧
      r'.spent = true := by
  obtain ⟨rt, hget, rfl⟩ := map_eq_some_iff.mp hy
  have huser : rt.userID = x := hr
  refine ⟨(RefreshRepo.revokeIf x i.now rt).row, ?_, ?_⟩
  · simp only [TokenKind.row, AuthState.method, AuthState.refreshMethod,
      RefreshRepo.revokeAllForUser, Table.get_mapValues, hget]
    rfl
  · unfold RefreshRepo.revokeIf
    split
    · rfl
    · next hnot =>
      have hrev : rt.revokedAt ≠ none := fun h => hnot ⟨huser, h⟩
      exact isSome_iff_ne_none.mpr hrev

variable {n : Nat} {t : Incoming} {i : AuthInput} {log : Journal authIface}

theorem ended_of_revokes {k : _ → Prog authIface AuthOutcome} (hp : Regular lib p)
    (hfiled : Filed .refresh p)
    (hn : p.threads[n]? = some (t, log, .call (.refresh (.revokeAllForUser x)) k))
    (hstep : step lib cfg p (.advance n i) = some p') : Ended x p p' := by
  refine ⟨goOn_step (tracked_step hstep), fun y r hy => hfiled.row_step hp hstep hy, ?_, ?_⟩
    <;> rw [step_advance hn hstep]
  · exact fun y r hy hr => row_revokeAllForUser lib i hy hr
  · intro th hth e he y r r₀ hr _ _
    rcases mem_or_eq_of_mem_set hth with hold | rfl
    · exact .inr ⟨th, hold, rfl, he⟩
    · rcases mem_cons.mp he with rfl | hold
      · cases hr
      · exact .inr ⟨_, mem_of_getElem? hn, rfl, hold⟩

theorem Ended.step (h : Ended x p p') (hp : Regular lib p') (hfiled : Filed .refresh p')
    (hstep : step lib cfg p' a = some p'') : Ended x p p'' := by
  have hrev : ∀ y r, TokenKind.refresh.row p.shared y = some r → r.user = x →
      ∃ r', TokenKind.refresh.row p''.shared y = some r' ∧ r'.spent = true := by
    intro y r hy hr
    obtain ⟨r', hr', hspent⟩ := h.revoked y r hy hr
    obtain ⟨r'', hr'', hbec⟩ := hfiled.row_step hp hstep hr'
    exact ⟨r'', hr'', hbec.spent hspent⟩
  refine ⟨h.goOn.trans (goOn_step (tracked_step hstep)), ?_, hrev, ?_⟩
  · intro y r hy
    obtain ⟨r', hr', hbec⟩ := h.kept y r hy
    obtain ⟨r'', hr'', hbecomes'⟩ := hfiled.row_step hp hstep hr'
    exact ⟨r'', hr'', hbec.trans hbecomes'⟩
  refine each_thread_step (tracked_step hstep) h.read (fun _ _ _ he => nomatch he) ?_
  rintro n i t log c k rfl hn hth e he y r r₀ hr hr₀ hx
  rcases mem_cons.mp he with rfl | hold
  · -- What is read now of an earlier session is that it is revoked.
    obtain ⟨r', hr', hspent⟩ := hrev y r₀ hr₀ hx
    rw [step_advance hn hstep] at hr'
    cases (TokenKind.row_of_reads hr).symm.trans hr'
    exact .inl hspent
  · exact hth e hold y r r₀ hr hr₀ hx

theorem Ended.stored (h : Ended x p p') (hfiled : Filed .refresh p) {th : AuthThread}
    (hth : th ∈ p.threads) {rt : RefreshToken} {r : Except DomainError Unit}
    (hcr : Told th.2.1 (.refresh (.create rt)) r) (hx : rt.userID = x) {rt' : RefreshToken}
    (hrt' : p'.shared.refresh.get rt.id = some rt') : rt'.revokedAt ≠ none := by
  obtain ⟨r₁, hr₁, hbec⟩ := hfiled.created th hth _ hcr rt.id rt.row rfl
  obtain ⟨r', hr', hspent⟩ := h.revoked rt.id r₁ hr₁ (hbec.user.trans hx)
  rw [TokenKind.refresh_row_of_get hrt'] at hr'
  cases hr'
  exact isSome_iff_ne_none.mp hspent

theorem Ended.settled {k : _ → Prog authIface AuthOutcome} {th th' : AuthThread} {m : Nat}
    {e : AuthEntry} (h : Ended x p p') (halone : p.RevokesAlone (.advance n i))
    (hn : p.threads[n]? = some (t, log, .call (.refresh (.revokeAllForUser x)) k))
    (hm : p.threads[m]? = some th) (hm' : p'.threads[m]? = some th') (he : e ∈ th.2.1)
    (hopens : AuthEntry.opens x (storedHash log) th.1.request e = true) : th' = th := by
  obtain ⟨th'', hm'', -, -, hret⟩ := h.goOn m th hm
  cases hm''.symm.trans hm'
  cases hq : th.2.2 with
  | ret o => exact hret o hq
  | call c k' =>
    have hclose := halone _ hn _ rfl x rfl th (mem_of_getElem? hm) (by rw [hq]; rfl) e he
    rw [hopens] at hclose
    cases hclose

theorem Ended.sessionsEnded {k : _ → Prog authIface AuthOutcome} (h : Ended x p p')
    (hfiled : Filed .refresh p) (hp' : Regular lib p') (hfiled' : Filed .refresh p')
    (halone : p.RevokesAlone (.advance n i))
    (hn : p.threads[n]? = some (t, log, .call (.refresh (.revokeAllForUser x)) k)) :
    SessionsEnded lib p x (storedHash log) p' := by
  intro m th' hm' hearlier rt r hcr hx rt' hrt'
  have hth' := mem_of_getElem? hm'
  -- It is enough that the request has not gone on since `p`.
  suffices hthen : ∃ th ∈ p.threads, th' = th by
    obtain ⟨th, hth, rfl⟩ := hthen
    exact h.stored hfiled hth hcr hx hrt'
  rcases hearlier with ⟨raw, ip, agent, y, rt₀, hr, hy, hhash⟩ |
    ⟨email, password, code, ip, agent, th, u, hr, hm, htold, hid, hhash⟩
  · have hbears : Bears lib th'.1 th'.2.1 (.refresh (.create rt)) := hp'.bears th' hth' _ hcr
    have hent := hbears.2.2.2
    rw [hr] at hent
    obtain ⟨rt₁, u, hfound, hgood, -, hread, huser⟩ := hent
    -- The token that it was told of is the one that `p` has stored.
    have howner : rt₁.userID = x := by
      rw [← (hp'.sound th' hth').getByID hread, huser, hx]
    obtain ⟨r₁, hr₁, hbecomes₁⟩ := hfiled'.read th' hth' _ hfound rt₁.id rt₁.row rfl
    obtain ⟨r₀, hr₀, hbecomes₀⟩ := h.kept y rt₀.row (TokenKind.refresh_row_of_get hy)
    have hsame : y = rt₁.id := by
      refine hfiled'.unique hp' hr₀ hr₁ ?_
      rw [hbecomes₀.hash, hbecomes₁.hash]
      exact hhash.trans ((hp'.sound th' hth').refreshHash hfound).symm
    subst hsame
    cases hr₀.symm.trans hr₁
    have hold : rt₀.userID = x := hbecomes₀.user.symm.trans (hbecomes₁.user.trans howner)
    rcases h.read th' hth' _ hfound rt₁.id rt₁.row rt₀.row rfl
      (TokenKind.refresh_row_of_get hy) hold with hspent | ⟨th, hth, htag, he⟩
    · rw [RefreshToken.row, hgood] at hspent
      cases hspent
    · obtain ⟨m₀, hm⟩ := getElem?_of_mem hth
      obtain ⟨th'', hm'', htag', -⟩ := h.goOn m₀ th hm
      obtain rfl := hp'.apart.rowID _ m₀ m th'' th' hm'' hm' 
        (congrArg (·.draws.rowID) (htag'.trans htag)) rfl
      refine ⟨th, hth, h.settled halone hn hm hm' he ?_⟩
      rw [htag, hr]
      exact decide_eq_true ⟨howner, hgood⟩
  · have hth : th.1 = th'.1 := by
      obtain ⟨th'', hm'', htag, -⟩ := h.goOn m th hm
      rw [some.inj (hm'.symm.trans hm''), htag]
    refine ⟨th, mem_of_getElem? hm, h.settled halone hn hm hm' htold ?_⟩
    rw [hth, hr]
    exact decide_eq_true ⟨hid, hhash⟩

end

/-- A `ResetPassword` that has returned had revoked the sessions of the user whose token it
    was made with.  If, whenever sessions are revoked, no request in progress is about to open
    one on the strength of what it read before, then those of the user that were there are
    ended for good, together with all that were opened with them or with the old password. -/
theorem reset_ends_sessions (lib : AuthLib) (cfg : AuthConfig)
    (as : List AuthStep) (p' : AuthRequests)
    (halone : Along (step lib cfg) RevokesAlone .idle as)
    (hrun : run (step lib cfg) .idle as = some p') (n : Nat) (t : Incoming)
    (log : Journal authIface) (raw password : String)
    (hn : p'.threads[n]? = some (t, log, .ret ⟨.resetPassword raw password, .ok ()⟩)) :
    ∃ pr as₁ i as₂ p t' log' k,
      Told log (.resets (.getByHash (lib.hashToken raw))) (.ok pr) ∧
      as = as₁ ++ .advance n i :: as₂ ∧
      run (step lib cfg) .idle as₁ = some p ∧
      p.threads[n]? = some (t', log', .call (.refresh (.revokeAllForUser pr.userID)) k) ∧
      SessionsEnded lib p pr.userID (storedHash log') p' := by
  have hinv : ∀ (p p' : AuthRequests) as, p.Regular lib ∧ Filed .refresh p →
      run (step lib cfg) p as = some p' →
      p'.Regular lib ∧ Filed .refresh p' := by
    intro p p' as hp hrun
    refine run_invariant (P := fun p => p.Regular lib ∧ Filed .refresh p) ?_ hp hrun
    exact fun p a p' hp hstep => ⟨hp.1.step hstep, hp.2.step hp.1 hstep⟩
  have hidle : idle.Regular lib ∧ Filed .refresh .idle :=
    ⟨regular_idle, filed_idle _⟩
  have hp' := hinv _ _ _ hidle hrun
  have hth := mem_of_getElem? hn
  obtain ⟨-, pr, u, hash, u', hfound, -, hread, hsto, -, hended⟩ := hp'.1.served.returned hth
  have hsound := hp'.1.sound _ hth
  have hid : u'.id = pr.userID := by
    obtain ⟨now, hu'⟩ := hsound.update hsto
    rw [hu']
    exact hsound.getByID (u := u) hread
  rw [hid] at hended
  -- The step at which it made that call.
  obtain ⟨as₁, a, as₂, p, p₁, rfl, hrun₁, hpre, hstep, ⟨th, hm, hmade⟩, hrun₂⟩ :=
    exists_step_of_run (P := fun p : AuthRequests => ∃ th, p.threads[n]? = some th ∧
      Told th.2.1 (.refresh (.revokeAllForUser pr.userID)) (.ok ()))
      (fun ⟨_, hnone, _⟩ => nomatch hnone) hrun ⟨_, hn, hended⟩
  rcases entry_cases (tracked_step hstep) hm hmade with
    hold | ⟨i, t', log', c, k, rfl, hcall, hentry⟩
  · exact absurd hold hpre
  obtain ⟨rfl, -⟩ := Sigma.mk.inj hentry
  have hp := hinv _ _ _ hidle hrun₁
  have hp₁ : p₁.Regular lib ∧ Filed .refresh p₁ := ⟨hp.1.step hstep, hp.2.step hp.1 hstep⟩
  have halone₁ : p.RevokesAlone (.advance n i) := ((halone.split hrun₁).2 p₁ hstep).1
  have hafter : (p'.Regular lib ∧ Filed .refresh p') ∧ Ended pr.userID p p' := by
    refine run_invariant
      (P := fun p' => (p'.Regular lib ∧ Filed .refresh p') ∧ Ended pr.userID p p') ?_
      ⟨hp₁, ended_of_revokes hp.1 hp.2 hcall hstep⟩ hrun₂
    exact fun p' a p'' h hstep => ⟨⟨h.1.1.step hstep, h.1.2.step h.1.1 hstep⟩,
      h.2.step h.1.1 h.1.2 hstep⟩
  exact ⟨pr, as₁, i, as₂, p, t', log', k, hfound, rfl, hrun₁, hcall,
    hafter.2.sessionsEnded hp.2 hp'.1 hp'.2 halone₁ hcall⟩

section

/-- The owner has a session, has asked for a reset, and is about to renew the session. -/
def resetAsked : List AuthStep :=
  loggedIn ++ comesIn 2 (.forgotPassword "owner@home" "") "reset" :: goesOn 2 5 ++
    [comesIn 3 (.refresh "first" "" "") "second"]

/-- The password is reset, up to the call that revokes the sessions. -/
def resetBegun : List AuthStep :=
  comesIn 4 (.resetPassword "reset" "new") "unused too" :: goesOn 4 5

/-- The session is looked up when the reset has returned. -/
def resetBetween : List AuthStep :=
  resetAsked ++ resetBegun ++ goesOn 4 1 ++ goesOn 3 1

theorem reset_ends_sessions_owner :
    ∃ as₁ i as₂ p p' x hash, resetBetween = as₁ ++ .advance 4 i :: as₂ ∧
      run (step plainLib plainConfig) .idle as₁ = some p ∧
      run (step plainLib plainConfig) .idle resetBetween = some p' ∧
      SessionsEnded plainLib p x hash p' := by
  obtain ⟨_, as₁, i, as₂, p, _, _, _, -, has, hrun, -, hended⟩ :=
    reset_ends_sessions plainLib plainConfig resetBetween _ (by decide +kernel) rfl 4 _ _
      "reset" "new" rfl
  exact ⟨as₁, i, as₂, p, _, _, _, has, hrun, rfl, hended⟩

/-- The session is looked up before, and renewed after the reset. -/
theorem session_survives :
    ∃ p p' t log k,
      run (step plainLib plainConfig) .idle
        (resetAsked ++ goesOn 3 1 ++ resetBegun) = some p ∧
      p.threads[4]? = some (t, log, .call (.refresh (.revokeAllForUser (.ofBytes [0, 1]))) k) ∧
      run (step plainLib plainConfig) p (goesOn 4 1 ++ goesOn 3 5) = some p' ∧
      (∃ th ∈ p'.threads[4]?, th.2.2 = .ret ⟨.resetPassword "reset" "new", .ok ()⟩) ∧
      ¬ SessionsEnded plainLib p (.ofBytes [0, 1]) (storedHash log) p' := by
  refine ⟨_, _, _, _, _, rfl, rfl, rfl, ⟨_, rfl, rfl⟩, ?_⟩
  intro hended
  exact hended 3 _ rfl (.inl ⟨"first", "", "", .ofBytes [1, 2], _, rfl, rfl, rfl⟩) _ (.ok ())
    mem_cons_self rfl _ rfl rfl

end

end NexusVPN.Backend.Auth
