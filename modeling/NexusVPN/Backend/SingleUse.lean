import NexusVPN.Backend.TokenRows

/-! # Tokens that are good for one use

    `Refresh` looks a token up, finds it good and takes it back some calls later, and
    `ResetPassword` does the same with a reset token.  Between the two calls another request
    may find the same token good. -/

namespace NexusVPN.Backend.Auth

open List Prog Option Machine AuthRequests

/-! ## What is asked -/

/-- The token that a request is made with. -/
def AuthRequest.presents : TokenKind → AuthRequest → Option String
  | .refresh, .refresh raw _ _ => some raw
  | .reset, .resetPassword raw _ => some raw
  | _, _ => none

namespace AuthThread

/-- The request has returned, and not with an error. -/
def Succeeded (th : AuthThread) : Prop := ∃ o, th.2.2 = .ret o ∧ o.2.isOk = true

/-- The row was unspent when the request looked the hash up. -/
def FoundGood (k : TokenKind) (hash : String) (x : UUID) (th : AuthThread) : Prop :=
  ∃ e ∈ th.2.1, ∃ y ∈ k.reads e, y.1 = x ∧ y.2.hash = hash ∧ y.2.spent = false

/-- A request in progress has found the token good, and has not taken it back yet. -/
def Holds (k : TokenKind) (hash : String) (th : AuthThread) : Prop :=
  th.2.2.nextCall.isSome = true ∧ k.HeldIn hash th.2.1

instance (k : TokenKind) (hash : String) (th : AuthThread) : Decidable (th.Holds k hash) :=
  inferInstanceAs (Decidable (_ ∧ k.HeldIn hash th.2.1))

end AuthThread

namespace AuthRequests

/-- At most one of the requests that present the token succeeds. -/
def SingleUse (p : AuthRequests) : Prop :=
  ∀ (k : TokenKind) (raw : String),
    p.AtMostOne fun th => th.1.request.presents k = some raw ∧ AuthThread.Succeeded th

/-- A `Refresh` looks its token up while no other `Refresh` holds it, and a `ResetPassword`
    while no other `ResetPassword` does. -/
def TakenAlone (p : AuthRequests) : AuthStep → Prop
  | .spawn _ => True
  | .advance n _ => ∀ th ∈ p.threads[n]?, ∀ c ∈ th.2.2.nextCall, ∀ y ∈ c.looksUp,
      (th.1.request.presents y.1).isSome = true → ∀ th' ∈ p.threads,
        (th'.1.request.presents y.1).isSome = true → ¬ AuthThread.Holds y.1 y.2 th'

instance (p : AuthRequests) : (a : AuthStep) → Decidable (p.TakenAlone a)
  | .spawn _ => .isTrue trivial
  | .advance n _ => inferInstanceAs (Decidable (∀ th ∈ p.threads[n]?, _))

end AuthRequests

/-! ## Runs -/

section

variable {lib : AuthLib} {cfg : AuthConfig} {k : TokenKind} {raw : String} {p p' : AuthRequests}
  {a : AuthStep} {th : AuthThread}

theorem looksUp_of_reads {c : AuthCall} {i : AuthInput} {s : AuthState} {x : UUID} {r : TokenRow}
    (h : k.reads ⟨c, (AuthState.method lib c i s).1⟩ = some (x, r)) :
    c.looksUp = some (k, r.hash) := by
  unfold TokenKind.reads at h
  split at h
  · next hash rt heq =>
    obtain ⟨rfl, hr⟩ := Sigma.mk.inj heq
    cases h
    rw [AuthCall.looksUp, RefreshToken.row, (token_of_getByHash (eq_of_heq hr)).2]
  · next hash pr heq =>
    obtain ⟨rfl, hr⟩ := Sigma.mk.inj heq
    cases h
    rw [AuthCall.looksUp, PasswordReset.row, (reset_of_getByHash (eq_of_heq hr)).2]
  · cases h

theorem AuthRequest.presents_cases {r : AuthRequest} (h : r.presents k = some raw) :
    (k = .refresh ∧ ∃ ip agent, r = .refresh raw ip agent) ∨
      (k = .reset ∧ ∃ password, r = .resetPassword raw password) := by
  unfold AuthRequest.presents at h
  split at h
  · exact .inl ⟨rfl, _, _, by rw [some.inj h]⟩
  · exact .inr ⟨rfl, _, by rw [some.inj h]⟩
  · cases h

/-- The request has found its token good, and has not failed since. -/
def InUse (lib : AuthLib) (k : TokenKind) (raw : String) (th : AuthThread) : Prop :=
  th.1.request.presents k = some raw ∧ (∃ x, th.FoundGood k (lib.hashToken raw) x) ∧
    (th.2.2.nextCall.isSome = true ∨ th.Succeeded)

section

variable (hp : p.Regular lib)
include hp

theorem spent_of_succeeded (hth : th ∈ p.threads)
    (hpres : th.1.request.presents k = some raw) (hok : th.Succeeded) :
    ∃ x, th.FoundGood k (lib.hashToken raw) x ∧ ∃ e ∈ th.2.1, k.spends e = some x := by
  obtain ⟨⟨request, draws⟩, log, q⟩ := th
  obtain ⟨⟨r, result⟩, hret, hok⟩ := hok
  obtain rfl : q = _ := hret
  obtain ⟨hr, hends⟩ := hp.served.returned hth
  obtain rfl : r = request := hr
  have hsound := hp.sound _ hth
  cases result with
  | error e => cases hok
  | ok result =>
    rcases AuthRequest.presents_cases hpres with ⟨rfl, ip, agent, rfl⟩ | ⟨rfl, password, rfl⟩
    · obtain ⟨rt, hfound, hgood, hrev⟩ := hends
      refine ⟨rt.id, ⟨_, hfound, _, rfl, rfl, hsound.refreshHash hfound, ?_⟩, _, hrev, rfl⟩
      rw [RefreshToken.row, hgood]
      rfl
    · obtain ⟨pr, _, _, _, hfound, hunused, _, _, hmark, _⟩ := hends
      refine ⟨pr.id, ⟨_, hfound, _, rfl, rfl, hsound.resetHash hfound, ?_⟩, _, hmark, rfl⟩
      rw [PasswordReset.row, hunused]
      rfl

theorem InUse.spent_or_holds (hth : th ∈ p.threads)
    (h : InUse lib k raw th) :
    (∃ x, th.FoundGood k (lib.hashToken raw) x ∧ ∃ e ∈ th.2.1, k.spends e = some x) ∨
      th.Holds k (lib.hashToken raw) := by
  obtain ⟨hpres, ⟨x, e, he, y, hy, rfl, hhash, hgood⟩, hbusy | hok⟩ := h
  · by_cases hspent : ∃ e' ∈ th.2.1, k.spends e' = some y.1
    · exact .inl ⟨y.1, ⟨e, he, y, hy, rfl, hhash, hgood⟩, hspent⟩
    · refine .inr ⟨hbusy, e, he, y, hy, hhash, hgood, ?_⟩
      exact fun e' he' hx => hspent ⟨e', he', hx⟩
  · exact .inl (spent_of_succeeded hp hth hpres hok)

theorem not_taken_back (hfiled : Filed k p) (hth : th ∈ p.threads)
    {x x' : UUID} {r : TokenRow} (hx : k.row p.shared x = some r) (hunspent : r.spent = false)
    (hfound : th.FoundGood k r.hash x') : ∀ e ∈ th.2.1, k.spends e ≠ some x' := by
  intro e he hspend
  obtain ⟨e', he', y, hy, rfl, hhash, -⟩ := hfound
  obtain ⟨r', hr', hbec⟩ := hfiled.read th hth e' he' y.1 y.2 hy
  have hsame : y.1 = x := hfiled.unique hp hr' hx (hbec.hash.trans hhash)
  obtain ⟨r'', hr'', hspent⟩ := hfiled.spent th hth e he y.1 hspend
  rw [hsame, hx] at hr''
  rw [← some.inj hr'', hunspent] at hspent
  cases hspent

theorem inUse_step (hfiled : Filed k p) (halone : p.TakenAlone a)
    (h : p.AtMostOne (InUse lib k raw)) (hstep : step lib cfg p a = some p') :
    p'.AtMostOne (InUse lib k raw) := by
  refine h.step (tracked_step hstep) ?_ ?_
  · rintro t - ⟨-, ⟨x, e, he, -⟩, -⟩
    cases he
  · rintro n i t log c q rfl hn ⟨hpres, ⟨x, e, he, y, hy, rfl, hhash, hgood⟩, -⟩
    rcases mem_cons.mp he with rfl | hold
    · -- The token has just been found good, so that nobody has taken it back yet.
      right
      intro m th' _ hm huse
      have hth' := mem_of_getElem? hm
      have hlooks := looksUp_of_reads hy
      have hrow := TokenKind.row_of_reads hy
      rw [method_of_reads (by
        unfold AuthCall.looksUp at hlooks
        split at hlooks <;> first | rfl | cases hlooks)] at hrow
      rw [hhash] at hlooks
      rcases huse.spent_or_holds hp hth' with ⟨x', hfound, e', he', hspend⟩ | hholds
      · rw [← hhash] at hfound
        exact not_taken_back hp hfiled hth' hrow hgood hfound e' he' hspend
      · refine halone _ hn c rfl _ hlooks (by rw [hpres]; rfl) th' hth' ?_ hholds
        rw [huse.1]
        rfl
    · exact .inl ⟨hpres, ⟨y.1, e, hold, y, hy, rfl, hhash, hgood⟩, .inl rfl⟩

end

end

/-- In a run in which every token is looked up while no other request holds it, each token is
    good for one use. -/
theorem tokens_single_use (lib : AuthLib) (cfg : AuthConfig) (as : List AuthStep)
    (halone : Along (step lib cfg) AuthRequests.TakenAlone .idle as) :
    Throughout (step lib cfg) AuthRequests.SingleUse .idle as := by
  have hinv : Throughout (step lib cfg)
      (fun p => p.Regular lib ∧ ∀ k, Filed k p ∧ ∀ raw, p.AtMostOne (InUse lib k raw))
      .idle as := by
    apply halone.throughout
    · intro p a p' hp halone hstep
      refine ⟨hp.1.step hstep, ?_⟩
      intro k
      refine ⟨(hp.2 k).1.step hp.1 hstep, ?_⟩
      intro raw
      exact inUse_step hp.1 (hp.2 k).1 halone ((hp.2 k).2 raw) hstep
    · refine ⟨regular_idle, fun k => ⟨filed_idle k, ?_⟩⟩
      exact fun _ _ _ _ _ hm => nomatch hm
  refine hinv.mono ?_
  intro p hp k raw m m' th th' hm hm' hth hth'
  have huse : ∀ th ∈ p.threads, th.1.request.presents k = some raw ∧ AuthThread.Succeeded th →
      InUse lib k raw th := by
    rintro th hmem ⟨hpres, hok⟩
    obtain ⟨x, hfound, -⟩ := spent_of_succeeded hp.1 hmem hpres hok
    exact ⟨hpres, ⟨x, hfound⟩, .inr hok⟩
  exact (hp.2 k).2 raw m m' th th' hm hm' (huse th (mem_of_getElem? hm) hth)
    (huse th' (mem_of_getElem? hm') hth')

/-- Whatever comes in later, a token's row stays, and stays that token's and that user's; what is
    spent stays spent, and no other row ever has the same hash. -/
theorem token_rows_kept (lib : AuthLib) (cfg : AuthConfig)
    (as bs : List AuthStep) {p p' : AuthRequests} {k : TokenKind} {x : UUID}
    {r : TokenRow}
    (hrun : run (step lib cfg) .idle as = some p)
    (hlater : run (step lib cfg) p bs = some p') (hx : k.row p.shared x = some r) :
    ∃ r', k.row p'.shared x = some r' ∧ r.Becomes r' ∧
      ∀ y s, k.row p'.shared y = some s → s.hash = r.hash → y = x := by
  obtain ⟨hp, hfiled⟩ := run_invariant (P := fun q => q.Regular lib ∧ Filed k q)
    (fun _ _ _ h hstep => ⟨h.1.step hstep, h.2.step h.1 hstep⟩)
    ⟨regular_idle, filed_idle k⟩ hrun
  obtain ⟨hp', hfiled', r', hr', hbec⟩ := run_invariant
    (P := fun q => q.Regular lib ∧ Filed k q ∧ ∃ r', k.row q.shared x = some r' ∧ r.Becomes r')
    (by
      rintro q a q' ⟨hq, hfiled, r₁, hr₁, hbec⟩ hstep
      obtain ⟨r', hr', hbec'⟩ := hfiled.row_step hq hstep hr₁
      exact ⟨hq.step hstep, hfiled.step hq hstep, r', hr', hbec.trans hbec'⟩)
    ⟨hp, hfiled, r, hx, .refl r⟩ hlater
  refine ⟨r', hr', hbec, ?_⟩
  intro y s hy hhash
  exact hfiled'.unique hp' hy hr' (hhash.trans hbec.hash.symm)

section

/-- Two requests renew the session "first". -/
def renewedTwice (schedule : List AuthStep) : List AuthStep :=
  loggedIn ++ [comesIn 2 (.refresh "first" "" "") "second",
    comesIn 3 (.refresh "first" "" "") "third"] ++ schedule

theorem tokens_single_use_owner :
    Throughout (step plainLib plainConfig) SingleUse .idle
      (renewedTwice (goesOn 2 6 ++ goesOn 3 1)) :=
  tokens_single_use plainLib plainConfig (renewedTwice (goesOn 2 6 ++ goesOn 3 1))
    (by decide +kernel)

/-- Both find the token good before either takes it back. -/
theorem renewed_twice :
    ∃ p, run (step plainLib plainConfig) .idle
      (renewedTwice (goesOn 2 1 ++ goesOn 3 6 ++ goesOn 2 5)) = some p ∧ ¬ p.SingleUse := by
  refine ⟨_, rfl, ?_⟩
  intro hsingle
  have hsame := hsingle .refresh "first" 2 3 _ _ rfl rfl ⟨rfl, _, rfl, rfl⟩ ⟨rfl, _, rfl, rfl⟩
  cases hsame

theorem renewed_row_kept : ∃ p p' r r', TokenRow.spent r = false ∧ r'.spent = true ∧
    run (step plainLib plainConfig) .idle loggedIn = some p ∧
    run (step plainLib plainConfig) p
      (comesIn 2 (.refresh "first" "" "") "second" :: goesOn 2 6) = some p' ∧
    TokenKind.refresh.row p'.shared (.ofBytes [1, 2]) = some r' ∧ r.Becomes r' := by
  obtain ⟨r', hr', hbec, -⟩ := token_rows_kept plainLib plainConfig loggedIn
    (comesIn 2 (.refresh "first" "" "") "second" :: goesOn 2 6)
    (k := .refresh) (x := .ofBytes [1, 2]) rfl rfl rfl
  cases hr'
  exact ⟨_, _, _, _, rfl, rfl, rfl, rfl, rfl, hbec⟩

end

end NexusVPN.Backend.Auth
