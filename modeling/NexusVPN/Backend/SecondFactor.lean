import NexusVPN.Backend.AuthRequests

/-! # Second factors

    `VerifyMFA` confirms a secret and puts it in force.  `EnableMFA` draws the next secret
    and stores it in the same place, with the flag cleared, so that whoever can call it
    takes the factor out of force. -/

namespace NexusVPN.Backend.Auth

open List Prog Machine AuthState

/-! ## The machine -/

/-- The server, and a record that nothing ever reads. -/
structure Enrolments where
  state : AuthState
  /-- The secret that a user's last successful `VerifyMFA` was about. -/
  confirmed : UUID → Option String

namespace Enrolments

variable (lib : AuthLib) (cfg : AuthConfig)

/-- Nothing has been confirmed yet, whatever is stored. -/
def start (s : AuthState) : Enrolments := ⟨s, fun _ => none⟩

def confirmedAfter (m : Enrolments) (a : Asked) : UUID → Option String :=
  match a.request with
  | .verifyMFA userID _ =>
    if (a.exec lib cfg m.state).1.isOk then
      Function.update m.confirmed userID ((m.state.users.get userID).map (·.mfaSecret))
    else m.confirmed
  | _ => m.confirmed

/-- `uuid.New` returns no id that is in use. -/
def step (m : Enrolments) (a : Asked) : Option Enrolments :=
  if a.draws.userID = .nil ∨ (m.state.users.get a.draws.userID).isSome then none
  else some ⟨(a.exec lib cfg m.state).2.1, m.confirmedAfter lib cfg a⟩

/-- `EnableMFA` is called only for a user without a second factor in force. -/
def EnrolsAnew (m : Enrolments) (a : Asked) : Prop :=
  ∀ userID, a.request = .enableMFA userID → ∀ u ∈ m.state.users.get userID, u.mfaEnabled = false

/-- A `Login` that opens a session for a user with a confirmed secret has presented a code
    that is valid for it. -/
def Demanded (m : Enrolments) (a : Asked) : Prop :=
  ∀ email password code ip agent, a.request = .login email password code ip agent →
    ∀ rt r, Told (a.exec lib cfg m.state).2.2 (.refresh (.create rt)) r →
    ∀ secret, m.confirmed rt.userID = some secret →
      Told (a.exec lib cfg m.state).2.2 (.validate secret code) (.ok true)

end Enrolments

/-! ## One call -/

/-- The secret is in force for the user. -/
def InForce (x : UUID) (secret : String) (s : AuthState) : Prop :=
  ∃ u, s.users.get x = some u ∧ u.mfaEnabled = true ∧ u.mfaSecret = secret

/-- It is, and it was whenever the request has looked. -/
structure SeenInForce (lib : AuthLib) (x : UUID) (secret : String) (t : Incoming) (s : AuthState)
    (log : Journal authIface) : Prop where
  inForce : InForce x secret s
  told : ∀ c u, Told log (.users c) (.ok u) → u.id = x → u.mfaEnabled = true ∧ u.mfaSecret = secret
  sound : Sound lib log
  bears : ∀ c r, Told log c r → Bears lib t log c

section

variable {lib : AuthLib} {cfg : AuthConfig} {x : UUID} {secret : String} {t : Incoming}
  {s : AuthState} {log : Journal authIface}

theorem InForce.not_enrolled {m : Enrolments} {a : Asked} (h : InForce x secret m.state)
    (ha : m.EnrolsAnew a) : a.request ≠ .enableMFA x := by
  intro hr
  obtain ⟨u, hget, hen, _⟩ := h
  rw [ha x hr u hget] at hen
  cases hen

theorem InForce.ne_of_new {y : UUID} (h : InForce x secret s) (hy : s.users.get y = none) :
    y ≠ x := by
  rintro rfl
  obtain ⟨u, hget, _⟩ := h
  rw [hy] at hget
  cases hget

theorem seenInForce_nil (h : InForce x secret s) : SeenInForce lib x secret t s [] :=
  ⟨h, (fun _ _ htold => nomatch htold), sound_nil,
    fun _ _ htold => nomatch htold⟩

theorem SeenInForce.rewrites {u : User} (h : SeenInForce lib x secret t s log)
    (ht : t.request ≠ .enableMFA x) (hu : t.request.Rewrites log u) (hid : u.id = x) :
    u.mfaEnabled = true ∧ u.mfaSecret = secret := by
  unfold AuthRequest.Rewrites at hu
  split at hu
  · next userID hr =>
    obtain ⟨u₀, secret', htold, rfl⟩ := hu
    have hx : userID = x := (h.sound.getByID htold).symm.trans hid
    exact absurd (hx ▸ hr) ht
  · obtain ⟨u₀, htold, _, rfl⟩ := hu
    exact ⟨rfl, (h.told _ u₀ htold hid).2⟩
  · obtain ⟨c, u₀, hash, htold, rfl⟩ := hu
    exact h.told c u₀ htold hid
  · obtain ⟨c, u₀, provider, subject, htold, rfl⟩ := hu
    exact h.told c u₀ htold hid
  · exact hu.elim

section

variable {c : AuthCall} (h : SeenInForce lib x secret t s log) (ht : t.request ≠ .enableMFA x)
  (hnew : t.draws.userID ≠ .nil ∧ t.draws.userID ≠ x) (hc : AuthFits lib t log c) (i : AuthInput)
include h ht hnew hc i

theorem SeenInForce.inForce_method : InForce x secret (method lib c i s).2 := by
  obtain ⟨u, hget, hfactor⟩ := h.inForce
  rcases users_method lib c i s with hsame | ⟨v, rfl, hput⟩ | ⟨v, v₀, rfl, _, hput⟩
  · exact ⟨u, hsame ▸ hget, hfactor⟩
  · -- The account that is created is another one.
    have hid : v.id = t.draws.userID := hc.1
    have hne : x ≠ orFresh v.id i.fresh := by
      rw [hid, orFresh, if_neg hnew.1]
      exact hnew.2.symm
    refine ⟨u, ?_, hfactor⟩
    rw [hput, Table.get_put, if_neg hne, hget]
  · by_cases hid : v.id = x
    · have hwr := h.rewrites ht hc.1 hid
      refine ⟨{ v with updatedAt := i.now }, ?_, hwr⟩
      rw [hput, Table.get_put, if_pos hid.symm]
    · refine ⟨u, ?_, hfactor⟩
      rw [hput, Table.get_put, if_neg (Ne.symm hid), hget]

theorem SeenInForce.method :
    SeenInForce lib x secret t (method lib c i s).2 (⟨c, (method lib c i s).1⟩ :: log) := by
  have hforce := h.inForce_method ht hnew hc i
  refine ⟨hforce, ?_, h.sound.cons c i s, ?_⟩
  · intro c' u htold hid
    rcases mem_cons.mp htold with heq | hold
    · -- What the call has just been told stands in the store, where the factor is in force.
      obtain ⟨rfl, hr⟩ := Sigma.mk.inj heq
      have hsto := users_of_told (eq_of_heq hr).symm
      obtain ⟨v, hget, hfactor⟩ := hforce
      rw [hid, hget] at hsto
      exact Option.some.inj hsto ▸ hfactor
    · exact h.told c' u hold hid
  · intro c' r' htold
    rcases mem_cons.mp htold with heq | hold
    · obtain ⟨rfl, _⟩ := Sigma.mk.inj heq
      exact hc.1.mono (subset_cons_self _ _)
    · exact (h.bears c' r' hold).mono (subset_cons_self _ _)

end

variable (lib cfg) in
theorem SeenInForce.exec (a : Asked) (hforce : InForce x secret s)
    (ha : a.request ≠ .enableMFA x) (hnew : a.draws.userID ≠ .nil ∧ a.draws.userID ≠ x) :
    SeenInForce lib x secret ⟨a.request, a.draws⟩ (a.exec lib cfg s).2.1
      (a.exec lib cfg s).2.2 := by
  have hserv := Obeys.weaken (fun _ _ h => h.1) (serve_vouched lib cfg a.draws a.request)
  exact (Obeys.exec_journaled (h := handler lib)
    (J := SeenInForce lib x secret ⟨a.request, a.draws⟩) a.inputs
    (fun _ _ _ _ hJ hc => hJ.method ha hnew hc _) hserv (seenInForce_nil hforce)).1

theorem verifyMFA_confirms (userID : UUID) (code : String) :
    wpe (kept lib) (verifyMFA userID code)
      (fun _ p => ∃ u, s.users.get userID = some u ∧ InForce userID u.mfaSecret p.1)
      (fun _ _ => True) (s, log) := by
  unfold verifyMFA
  rw [wpe_bind, wpe_call]
  intro i
  rw [method_of_reads rfl]
  cases hread : (method lib (.users (.getByID userID)) i s).1 with
  | error e => trivial
  | ok u =>
    have hget := user_of_getByID hread
    rw [outcome_ok, wpe_bind, wpe_require]
    refine ⟨fun _ => ?_, fun _ => trivial⟩
    rw [wpe_bind, wpe_call]
    intro i₁
    show wpe (kept lib) _ _ _ (s, _)
    rw [wpe_bind, wpe_require]
    refine ⟨fun _ => ?_, fun _ => trivial⟩
    rw [wpe_bind, wpe_call]
    intro i₂
    cases hwrite : (method lib (.users (.update { u with mfaEnabled := true })) i₂ s).1 with
    | error e => trivial
    | ok u' =>
      -- The secret is the one that was read, for only the flag was changed.
      have hsto := users_of_told hwrite
      obtain rfl := user_of_update hwrite
      refine ⟨u, hget, { u with mfaEnabled := true, updatedAt := i₂.now }, ?_, rfl, rfl⟩
      rw [← Table.key_of_get hget]
      exact hsto

end

/-! ## All calls -/

namespace Enrolments

variable {lib : AuthLib} {cfg : AuthConfig} {m m' : Enrolments} {a : Asked}

/-- What was confirmed is in force. -/
def Confirmed (m : Enrolments) : Prop :=
  ∀ x secret, m.confirmed x = some secret → InForce x secret m.state

theorem step_cases (hstep : step lib cfg m a = some m') :
    (a.draws.userID ≠ .nil ∧ m.state.users.get a.draws.userID = none) ∧
      m' = ⟨(a.exec lib cfg m.state).2.1, m.confirmedAfter lib cfg a⟩ := by
  obtain ⟨hnew, hm'⟩ := Option.ite_none_left_eq_some.mp hstep
  rw [not_or, Option.not_isSome_iff_eq_none] at hnew
  exact ⟨hnew, (Option.some.inj hm').symm⟩

theorem confirmedAfter_cases {x : UUID} {secret : String}
    (h : m.confirmedAfter lib cfg a x = some secret) :
    m.confirmed x = some secret ∨ ∃ code, a.request = .verifyMFA x code ∧
      (a.exec lib cfg m.state).1.isOk = true ∧
      (m.state.users.get x).map (·.mfaSecret) = some secret := by
  obtain ⟨request, draws, inputs⟩ := a
  cases request with
  | verifyMFA userID code =>
    simp only [confirmedAfter] at h
    split at h
    · next hok =>
      by_cases hx : x = userID
      · subst hx
        rw [Function.update_self] at h
        exact .inr ⟨code, rfl, hok, h⟩
      · rw [Function.update_of_ne hx] at h
        exact .inl h
    · exact .inl h
  | _ => exact .inl h

section

variable (h : m.Confirmed) (ha : m.EnrolsAnew a) (hstep : Enrolments.step lib cfg m a = some m')
include h ha hstep

theorem Confirmed.step : m'.Confirmed := by
  obtain ⟨⟨hnil, hnew⟩, rfl⟩ := step_cases hstep
  intro x secret hx
  rcases confirmedAfter_cases hx with hold | ⟨code, hr, hok, hsecret⟩
  · have hforce := h x secret hold
    exact (SeenInForce.exec lib cfg a hforce (hforce.not_enrolled ha)
      ⟨hnil, hforce.ne_of_new hnew⟩).inForce
  · obtain ⟨request, draws, inputs⟩ := a
    subst hr
    cases hres : (Asked.exec lib cfg ⟨.verifyMFA x code, draws, inputs⟩ m.state).1 with
    | error e =>
      rw [hres] at hok
      cases hok
    | ok _ =>
      obtain ⟨u, hget, hforce⟩ := of_exec_ok (verifyMFA_confirms x code) hres
      rw [hget] at hsecret
      cases hsecret
      exact hforce

theorem Confirmed.demanded : m.Demanded lib cfg a := by
  obtain ⟨⟨hnil, hnew⟩, -⟩ := step_cases hstep
  intro email password code ip agent hr rt r htold secret hsecret
  obtain ⟨request, draws, inputs⟩ := a
  subst hr
  have hforce := h rt.userID secret hsecret
  have hseen := SeenInForce.exec lib cfg _ hforce (hforce.not_enrolled ha)
    ⟨hnil, hforce.ne_of_new hnew⟩
  have hbears : Bears lib _ _ (.refresh (.create rt)) := hseen.bears _ r htold
  obtain ⟨u, hfound, hid, _, hvalid⟩ := hbears.2.2.2
  obtain ⟨hen, rfl⟩ := hseen.told _ u hfound hid
  exact hvalid hen

end

end Enrolments

/-- In a run of calls that do not overlap, from any state, in which nobody enrols a user whose
    second factor is in force, every `Login` that opens a session has presented a code that is
    valid for the secret confirmed last. -/
theorem second_factor_in_force (lib : AuthLib) (cfg : AuthConfig) (s : AuthState) (as : List Asked)
    (hanew : Along (Enrolments.step lib cfg) Enrolments.EnrolsAnew (.start s) as) :
    Along (Enrolments.step lib cfg) (Enrolments.Demanded lib cfg) (.start s) as := by
  refine hanew.imp (P := Enrolments.Confirmed) ?_ fun x secret hx => nomatch hx
  intro m a m' hm ha hstep
  exact ⟨hm.step ha hstep, hm.demanded ha hstep⟩

section

def enrols : Asked := ⟨.enableMFA plainUser.id, plainDraws, fun _ => default⟩

def verifies (code : String) : Asked :=
  ⟨.verifyMFA plainUser.id code, plainDraws, fun _ => default⟩

def logsIn (code : String) : Asked :=
  ⟨.login "owner@home" "old" code "" "", plainDraws, fun _ => default⟩

/-- The owner enrols, confirms the secret and logs in with it. -/
theorem second_factor_in_force_owner :
    Along (Enrolments.step plainLib plainConfig) (Enrolments.Demanded plainLib plainConfig)
      (.start (plainState plainUser))
      [enrols, verifies "code for secret", logsIn "code for secret"] := by
  refine second_factor_in_force plainLib plainConfig _ _
    (along_cons rfl ?_ (along_cons rfl nofun (along_cons rfl nofun trivial)))
  rintro userID ⟨⟩ u ⟨⟩
  rfl

/-- The call checks a code. -/
def AuthCall.checksCode : AuthCall → Bool
  | .validate _ _ => true
  | _ => false

/-- The user has drawn a secret, and not confirmed it yet. -/
def enrolling : AuthState := plainState { plainUser with mfaSecret := "first" }

/-- Whoever holds an access token enrols the user again, and the password is enough. -/
theorem factor_removed :
    ¬ Along (Enrolments.step plainLib plainConfig)
      (Enrolments.Demanded plainLib plainConfig) (.start enrolling)
      [verifies "code for first", enrols, logsIn ""] := by
  intro halong
  have hdemanded := ((((halong _ rfl).2 _ rfl).2 _ rfl).1)
  have hvalid := hdemanded _ _ _ _ _ rfl _ (.ok ()) mem_cons_self "first" rfl
  have hchk := any_eq_true (p := fun e => e.1.checksCode).mpr ⟨_, hvalid, rfl⟩
  exact absurd hchk (by decide +kernel)

end

end NexusVPN.Backend.Auth
