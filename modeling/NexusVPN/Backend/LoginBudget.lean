import NexusVPN.Backend.AuthCalls
import NexusVPN.Backend.HttpRequests

/-! # How often a password can be tried

    Login requests one after the other, within one window of a limiter that has counted
    nothing yet.  Each is charged to its e-mail address and to its client address; only if
    both budgets allow it is a password checked. -/

namespace NexusVPN.Backend.Auth

open List Prog HttpRequest AuthState Nat

/-! ## The requests -/

/-- A request with all that it draws and reads from outside. -/
structure HttpLogin where
  request : HttpRequest LoginBody
  draws : Draws
  inputs : Nat → AuthInput

/-- The account that was found under the e-mail address. -/
def AuthEntry.foundByEmail : AuthEntry → Option UUID
  | ⟨.users (.getByEmail _), .ok u⟩ => some u.id
  | _ => none

def AuthEntry.checksPassword : AuthEntry → Bool
  | ⟨.verify _ _, _⟩ => true
  | _ => false

open AuthEntry

/-- The account whose password was checked. -/
def checkedAccount (log : Journal authIface) : Option UUID :=
  if log.any checksPassword then log.findSome? foundByEmail else none

section

variable (t : CaseTable) (lib : AuthLib) (cfg : AuthConfig)

/-- The state that the request leaves, and its journal. -/
def HttpLogin.exec (a : HttpLogin) (s : AuthState) : AuthState × Journal authIface :=
  match a.request.login t with
  | none => (s, [])
  | some r => ((⟨r, a.draws, a.inputs⟩ : Asked).exec (lib.withCase t) cfg s).2

/-- The accounts whose passwords are checked by requests one after the other. -/
def checked : AuthState → List HttpLogin → List UUID
  | _, [] => []
  | s, a :: as =>
    (checkedAccount (a.exec t lib cfg s).2).toList ++ checked (a.exec t lib cfg s).1 as

end

/-- All calls of the request read the clock within that time. -/
def HttpLogin.Within (start : Time) (a : HttpLogin) : Prop :=
  ∀ n, start ≤ (a.inputs n).now ∧ (a.inputs n).now ≤ start + authRateWindow

/-! ## Budgets -/

/-- How much is charged to a key. -/
def AuthState.charge (s : AuthState) (key : String) : Nat :=
  match s.limits.lookup key with
  | none => 0
  | some e => e.count

/-- No entry is reset before the window is over. -/
def AuthState.InWindow (start : Time) (s : AuthState) : Prop :=
  ∀ key e, s.limits.lookup key = some e → start + authRateWindow ≤ e.resets

section

variable {start : Time} {s : AuthState} {i : AuthInput}

theorem entryAt_inWindow (key : String) (hs : s.InWindow start) (hi : start ≤ i.now)
    (hi' : i.now ≤ start + authRateWindow) :
    (Limiter.entryAt s key i.now authRateWindow).count = s.charge key ∧
      start + authRateWindow ≤ (Limiter.entryAt s key i.now authRateWindow).resets := by
  unfold Limiter.entryAt charge
  cases hget : s.limits.lookup key with
  | none => exact ⟨rfl, Int.add_le_add_right hi _⟩
  | some e =>
    have hres := hs key e hget
    have hafter : i.now.after e.resets = false :=
      decide_eq_false (Int.not_lt.mpr (Int.le_trans hi' hres))
    simp only [hafter, Bool.false_eq_true, if_false, hres, and_self]

theorem allow_inWindow (key : String) (limit : Nat) (hs : s.InWindow start) (hi : start ≤ i.now)
    (hi' : i.now ≤ start + authRateWindow) :
    (Limiter.allow key limit authRateWindow i s).1 = .ok (decide (s.charge key < limit)) ∧
      (Limiter.allow key limit authRateWindow i s).2.InWindow start ∧
      ∀ key', (Limiter.allow key limit authRateWindow i s).2.charge key' =
        if key' = key then s.charge key + 1 else s.charge key' := by
  obtain ⟨hcount, hres⟩ := entryAt_inWindow key hs hi hi'
  refine ⟨?_, ?_, ?_⟩
  · simp only [Limiter.allow, hcount, succ_le_iff]
  · intro key' e he
    simp only [Limiter.allow, GoMap.lookup_insert_if] at he
    split at he
    · rw [← Option.some.inj he]
      exact hres
    · exact hs key' e he
  · intro key'
    simp only [Limiter.allow, charge, GoMap.lookup_insert_if]
    by_cases hkey : key' = key
    · simp only [hkey, if_true, hcount]
      rfl
    · simp only [hkey, if_false]

end

/-! ## One request -/

/-- What a login has done that was made in `s` with these keys. -/
structure Charged (lib : AuthLib) (start : Time) (s : AuthState) (email ip : String)
    (out : AuthState × Journal authIface) : Prop where
  inWindow : out.1.InWindow start
  users : out.1.users = s.users
  more : ∀ key, s.charge key ≤ out.1.charge key
  account : ∀ x, checkedAccount out.2 = some x → s.charge ("login:" ++ email) < loginPerAccount ∧
    s.charge ("login:" ++ email) < out.1.charge ("login:" ++ email)
  address : ∀ x, checkedAccount out.2 = some x →
    s.charge ("login-ip:" ++ ip) < loginPerAddress ∧
    s.charge ("login-ip:" ++ ip) < out.1.charge ("login-ip:" ++ ip)
  found : ∀ x, checkedAccount out.2 = some x →
    ∃ u, s.users.get x = some u ∧ lib.std.equalFold u.email email = true

theorem login_key_ne (email ip : String) : "login:" ++ email ≠ "login-ip:" ++ ip := by
  intro h
  have hchars := congrArg (fun s => s.toList[5]?) h
  simp [String.toList_append] at hchars

section

variable {lib : AuthLib} {cfg : AuthConfig} {d : Draws} {start : Time} {s s₁ : AuthState}
  {log : Journal authIface} {email ip : String}

/-- The handler, for calls within the window. -/
def handlerWithin (lib : AuthLib) (start : Time) : Handler authIface
    (AuthState × Journal authIface)
    { i : AuthInput // start ≤ i.now ∧ i.now ≤ start + authRateWindow } :=
  fun c i p => kept lib c i.1 p

theorem Charged.of_unchecked (hwin : s₁.InWindow start) (husers : s₁.users = s.users)
    (hmore : ∀ key, s.charge key ≤ s₁.charge key)
    (hlog : log.any checksPassword = false) :
    Charged lib start s email ip (s₁, log) := by
  have hnone : checkedAccount log = none := by rw [checkedAccount, hlog]; rfl
  refine ⟨hwin, husers, hmore, ?_, ?_, ?_⟩ <;>
    exact fun x hx => absurd (hnone.symm.trans hx) (by simp)

/-- What is left alone once an account is found. -/
def Found (s₁ : AuthState) (x : UUID) (p : AuthState × Journal authIface) : Prop :=
  p.1.limits = s₁.limits ∧ p.1.users = s₁.users ∧ p.2.findSome? foundByEmail = some x

theorem found_call {x : UUID} {c : AuthCall} (husers : ∀ c', c ≠ .users c')
    (hlimits : ∀ i s, (method lib c i s).2.limits = s.limits) :
    Preserves (handlerWithin lib start) (Found s₁ x) (call c) := by
  refine preserves_call fun i p hp => ⟨(hlimits i.1 p.1).trans hp.1, ?_, ?_⟩
  · rcases (method_frame lib c i.1 p.1).1 with ⟨c', hc'⟩ | hsame
    · exact absurd hc' (husers c')
    · exact hsame.trans hp.2.1
  · show List.findSome? _ (⟨c, (method lib c i.1 p.1).1⟩ :: p.2) = some x
    have hnone : foundByEmail ⟨c, (method lib c i.1 p.1).1⟩ = none := by
      cases c with
      | users c' => exact absurd rfl (husers c')
      | _ => rfl
    rw [findSome?_cons, hnone]
    exact hp.2.2

theorem found_issue {x : UUID} (u : User) (agent : String) :
    Preserves (handlerWithin lib start) (Found s₁ x) (issueTokenPair lib cfg d u ip agent) := by
  refine (preserves_drawn _).bind fun _ => (preserves_drawn _).bind fun _ => ?_
  refine (found_call (by simp) fun _ _ => rfl).bind fun _ => ?_
  exact (found_call (by simp) fun _ _ => rfl).bind fun _ => preserves_pure _

theorem found_loginAs {x : UUID} (u : User) (password mfaCode agent : String) :
    Preserves (handlerWithin lib start) (Found s₁ x)
      (loginAs lib cfg d u password mfaCode ip agent) := by
  refine (found_call (by simp) fun _ _ => rfl).bind fun _ => ?_
  refine (preserves_require _ _).bind fun _ => ?_
  split
  · split
    · exact preserves_pure _
    · refine (found_call (by simp) fun _ _ => rfl).bind fun _ => ?_
      exact (preserves_require _ _).bind fun _ => found_issue u agent
  · exact found_issue u agent

theorem wpe_allow_within {key : String} {limit : Nat} (hcfg : cfg.limiter = true)
    {Q : Bool → AuthState × Journal authIface → Prop}
    {E : DomainError → AuthState × Journal authIface → Prop} (hwin : s₁.InWindow start)
    (h : ∀ s₂, s₂.InWindow start → s₂.users = s₁.users →
      (∀ key', s₂.charge key' = if key' = key then s₁.charge key + 1 else s₁.charge key') →
      Q (decide (s₁.charge key < limit)) (s₂,
        ⟨.allow key limit authRateWindow, .ok (decide (s₁.charge key < limit))⟩ :: log)) :
    wpe (handlerWithin lib start) (allow cfg key limit) Q E (s₁, log) := by
  unfold allow
  rw [if_pos hcfg, wpe_bind]
  refine (wpe_tryCall _ _ _ _).mpr fun i => ?_
  obtain ⟨hallow, hwindow', hcharge⟩ := allow_inWindow key limit hwin i.2.1 i.2.2
  have hmethod : method lib (.allow key limit authRateWindow) i.1 s₁ =
      (.ok (decide (s₁.charge key < limit)), (Limiter.allow key limit authRateWindow i.1 s₁).2) :=
    Prod.ext hallow rfl
  simp only [handlerWithin, kept, journaled, handler, hmethod]
  exact h _ hwindow' rfl hcharge

theorem Charged.of_found {s₂ : AuthState} {u : User} {out : AuthState × Journal authIface}
    (hwin : s₂.InWindow start) (husers : s₂.users = s.users)
    (hacct : s.charge ("login:" ++ email) < loginPerAccount ∧
      s₂.charge ("login:" ++ email) = s.charge ("login:" ++ email) + 1)
    (haddr : s.charge ("login-ip:" ++ ip) < loginPerAddress ∧
      s₂.charge ("login-ip:" ++ ip) = s.charge ("login-ip:" ++ ip) + 1)
    (hmore : ∀ key, s.charge key ≤ s₂.charge key)
    (hu : s.users.get u.id = some u ∧ lib.std.equalFold u.email email = true)
    (h : Found s₂ u.id out) : Charged lib start s email ip out := by
  obtain ⟨hlimits, husers', hfound⟩ := h
  have hcharge : ∀ key, out.1.charge key = s₂.charge key := by
    intro key
    rw [charge, hlimits]
    rfl
  refine ⟨?_, husers'.trans husers, fun key => by rw [hcharge]; exact hmore key, ?_, ?_, ?_⟩
  · intro key e he
    rw [hlimits] at he
    exact hwin key e he
  · intro x _
    rw [hcharge, hacct.2]
    exact ⟨hacct.1, lt_succ_self _⟩
  · intro x _
    rw [hcharge, haddr.2]
    exact ⟨haddr.1, lt_succ_self _⟩
  · intro x hx
    -- The only account that was checked is the one that was found.
    rw [checkedAccount, hfound] at hx
    split at hx
    · cases hx
      exact ⟨u, hu⟩
    · cases hx

variable (lib cfg d email ip) in
theorem charged_login (hcfg : cfg.limiter = true) (hs : s.InWindow start)
    (password mfaCode agent : String) :
    wpe (handlerWithin lib start) (login lib cfg d email password mfaCode ip agent)
      (fun _ => Charged lib start s email ip) (fun _ => Charged lib start s email ip) (s, []) := by
  unfold login allowBoth
  rw [wpe_bind, wpe_bind]
  refine wpe_allow_within hcfg hs ?_
  intro s₁ hwindow₁ husers₁ hcharge₁
  have hmore₁ : ∀ key, s.charge key ≤ s₁.charge key := by
    intro key
    rw [hcharge₁]
    split
    · next hkey => rw [hkey]; exact le_succ _
    · exact le_refl _
  -- The address is charged only if the account has some of its budget left.
  by_cases hallowed₁ : s.charge ("login:" ++ email) < loginPerAccount
  · simp only [hallowed₁, decide_true, if_true]
    refine wpe_allow_within hcfg hwindow₁ ?_
    intro s₂ hwindow₂ husers₂ hcharge₂
    have hmore₂ : ∀ key, s.charge key ≤ s₂.charge key := by
      intro key
      refine le_trans (hmore₁ key) ?_
      rw [hcharge₂]
      split
      · next hkey => rw [hkey]; exact le_succ _
      · exact le_refl _
    have hacct : s₂.charge ("login:" ++ email) = s.charge ("login:" ++ email) + 1 := by
      rw [hcharge₂, if_neg (login_key_ne email ip), hcharge₁, if_pos rfl]
    have hunspent : s₁.charge ("login-ip:" ++ ip) = s.charge ("login-ip:" ++ ip) := by
      rw [hcharge₁, if_neg (login_key_ne email ip).symm]
    have haddr : s₂.charge ("login-ip:" ++ ip) = s.charge ("login-ip:" ++ ip) + 1 := by
      rw [hcharge₂, if_pos rfl, hunspent]
    have husers : s₂.users = s.users := husers₂.trans husers₁
    rw [wpe_bind, wpe_require]
    refine ⟨fun hallowed₂ => ?_, fun _ => .of_unchecked hwindow₂ husers hmore₂ rfl⟩
    have hallowed₂ := of_decide_eq_true hallowed₂
    rw [hunspent] at hallowed₂
    rw [wpe_bind]
    refine (wpe_tryCall _ _ _ _).mpr fun i => ?_
    have hsame : (method lib (.users (.getByEmail email)) i.1 s₂).2 = s₂ := method_of_reads rfl i.1
    simp only [handlerWithin, kept, journaled, handler, hsame]
    split
    · exact .of_unchecked hwindow₂ husers hmore₂ rfl
    · exact .of_unchecked hwindow₂ husers hmore₂ rfl
    · next u hu =>
      obtain ⟨hget, hfold⟩ := user_of_getByEmail hu
      rw [husers] at hget
      rw [wpe_bind, wpe_require]
      refine ⟨fun _ => ?_, fun _ => .of_unchecked hwindow₂ husers hmore₂ rfl⟩
      have hend : ∀ out, Found s₂ u.id out → Charged lib start s email ip out := fun out =>
        .of_found hwindow₂ husers ⟨hallowed₁, hacct⟩ ⟨hallowed₂, haddr⟩ hmore₂ ⟨hget, hfold⟩
      refine wpe_mono (fun _ => hend) (fun _ => hend) (found_loginAs u password mfaCode agent _ ?_)
      exact ⟨rfl, rfl, by rw [hu]; rfl⟩
  · simp only [hallowed₁, decide_false, Bool.false_eq_true, if_false]
    rw [wpe_pure, wpe_bind, wpe_require]
    exact ⟨nofun, fun _ => .of_unchecked hwindow₁ husers₁ hmore₁ rfl⟩

variable (lib cfg d email ip) in
theorem charged_of_login (hcfg : cfg.limiter = true) (hs : s.InWindow start)
    (password mfaCode agent : String) {w : Nat → AuthInput}
    (hw : ∀ n, start ≤ (w n).now ∧ (w n).now ≤ start + authRateWindow) :
    Charged lib start s email ip ((login lib cfg d email password mfaCode ip agent).run.exec
      (kept lib) w (s, [])).2 := by
  have hend := wp_exec (charged_login lib cfg d email ip hcfg hs password mfaCode agent)
    fun n => ⟨w n, hw n⟩
  have hinputs := exec_comap (kept lib) Subtype.val
    (login lib cfg d email password mfaCode ip agent).run
    (fun n => (⟨w n, hw n⟩ :
      { i : AuthInput // start ≤ i.now ∧ i.now ≤ start + authRateWindow })) (s, [])
  unfold handlerWithin at hend
  rw [hinputs] at hend
  revert hend
  cases (exec (kept lib) (login lib cfg d email password mfaCode ip agent).run w (s, [])).1 with
  | ok | error => exact id

end

/-! ## Sequences of requests -/

section

variable {t : CaseTable} {lib : AuthLib} {cfg : AuthConfig} {start : Time} {s : AuthState}
  {a : HttpLogin} {as : List HttpLogin}

variable (t lib) in
theorem charged_exec (hcfg : cfg.limiter = true) (hs : s.InWindow start) (ha : a.Within start)
    {email : String} (hemail : ∀ b, a.request.body = some b → normalized t b = email) :
    Charged (lib.withCase t) start s email a.request.clientIP (a.exec t lib cfg s) := by
  unfold HttpLogin.exec
  cases hlogin : a.request.login t with
  | none => exact .of_unchecked hs rfl (fun _ => le_refl _) rfl
  | some r =>
    obtain ⟨b, hb, hr⟩ := Option.bind_eq_some_iff.mp hlogin
    split at hr
    · cases hr
    · cases hr
      rw [hemail b hb]
      exact charged_of_login (lib.withCase t) cfg a.draws email a.request.clientIP hcfg hs
        b.password b.mfaCode _ ha

variable (t lib) in
theorem charged_of_body (hcfg : cfg.limiter = true) (hs : s.InWindow start) (ha : a.Within start) :
    Charged (lib.withCase t) start s ((a.request.body.map (normalized t)).getD "")
      a.request.clientIP (a.exec t lib cfg s) := by
  refine charged_exec t lib hcfg hs ha fun b hb => ?_
  rw [hb]
  rfl

theorem countP_checked_le {key : String} {limit : Nat} {P : UUID → Bool}
    (hstep : ∀ a ∈ as, ∀ s', s'.InWindow start → s'.users = s.users →
      (a.exec t lib cfg s').1.InWindow start ∧ (a.exec t lib cfg s').1.users = s.users ∧
      s'.charge key ≤ (a.exec t lib cfg s').1.charge key ∧
      ∀ x, checkedAccount (a.exec t lib cfg s').2 = some x → P x = true →
        s'.charge key < limit ∧ s'.charge key < (a.exec t lib cfg s').1.charge key)
    {s' : AuthState} (hwin : s'.InWindow start) (husers : s'.users = s.users) :
    (checked t lib cfg s' as).countP P ≤ limit - s'.charge key := by
  induction as generalizing s' with
  | nil => exact zero_le _
  | cons a as ih =>
    obtain ⟨hwindow', husers', hmore, hchg⟩ := hstep a mem_cons_self s' hwin husers
    have hrest := ih (fun a' ha' => hstep a' (mem_cons_of_mem _ ha')) hwindow' husers'
    rw [checked, countP_append]
    cases hchk : checkedAccount (a.exec t lib cfg s').2 with
    | none =>
      simp only [Option.toList_none, countP_nil]
      omega
    | some x =>
      cases hP : P x with
      | false =>
        simp only [Option.toList_some, countP_singleton, hP, Bool.false_eq_true, if_false]
        omega
      | true =>
        -- A password that is checked uses up some of what is left.
        obtain ⟨hleft, hcharge⟩ := hchg x hchk hP
        simp only [Option.toList_some, countP_singleton, hP, if_true]
        omega

theorem inWindow_fresh (hfresh : s.limits = ∅) (start : Time) : s.InWindow start := by
  intro key e he
  rw [hfresh] at he
  cases he

/-! ## The budget of an account -/

/-- The letters of the normalized address are those that case folding, and then lower case,
    leads to. -/
def HttpRequest.Folded (t : CaseTable) (b : LoginBody) : Prop :=
  ∀ c ∈ (normalized t b).toList, t.lower (t.fold c) = c

theorem HttpRequest.Folded.eq {b : LoginBody} (h : Folded t b) {email : String}
    (hfold : t.equalFold email (normalized t b) = true) :
    normalized t b = String.ofList ((email.toList.map t.fold).map t.lower) := by
  rw [beq_iff_eq.mp hfold, map_map]
  have hid : (normalized t b).toList.map (t.lower ∘ t.fold) = (normalized t b).toList.map id :=
    map_congr_left h
  rw [hid, map_id, String.ofList_toList]

/-- The one folded spelling under which an account is found. -/
def foldedAddress (t : CaseTable) (s : AuthState) (x : UUID) : String :=
  match s.users.get x with
  | none => ""
  | some u => String.ofList ((u.email.toList.map t.fold).map t.lower)

theorem charged_account (hcfg : cfg.limiter = true) (ha : a.Within start)
    (hfolded : ∀ b ∈ a.request.body, Folded t b) {s' : AuthState}
    (hs' : s'.InWindow start) (husers : s'.users = s.users) {x : UUID}
    (hx : checkedAccount (a.exec t lib cfg s').2 = some x) :
    s'.charge ("login:" ++ foldedAddress t s x) < loginPerAccount ∧
      s'.charge ("login:" ++ foldedAddress t s x) <
        (a.exec t lib cfg s').1.charge ("login:" ++ foldedAddress t s x) := by
  cases hbody : a.request.body with
  | none =>
    -- A malformed request checks nothing.
    rw [HttpLogin.exec, HttpRequest.login, hbody] at hx
    cases hx
  | some b =>
    have hchg := charged_of_body t lib hcfg hs' ha
    rw [hbody] at hchg
    obtain ⟨u, hu, hfold⟩ := hchg.found x hx
    rw [husers] at hu
    have haddr : normalized t b = foldedAddress t s x := by
      rw [foldedAddress, hu]
      exact (hfolded b hbody).eq hfold
    rw [← haddr]
    exact hchg.account x hx

end

/-- If all requests spell their e-mail addresses in folded letters, then an account's password
    is checked no more often than its budget allows, and whatever finds the account is charged
    to one key. -/
theorem login_budget_per_account (t : CaseTable) (lib : AuthLib) (cfg : AuthConfig)
    (hlim : cfg.limiter = true) (s : AuthState) (hfresh : s.limits = ∅) (start : Time)
    (as : List HttpLogin) (hwithin : ∀ a ∈ as, a.Within start)
    (hfolded : ∀ a ∈ as, ∀ b ∈ a.request.body, Folded t b) :
    (∀ x, (checked t lib cfg s as).count x ≤ loginPerAccount) ∧
    ∀ a ∈ as, ∀ b ∈ a.request.body, ∀ a' ∈ as, ∀ b' ∈ a'.request.body, ∀ email,
      t.equalFold email (normalized t b) = true →
      t.equalFold email (normalized t b') = true →
      "login:" ++ normalized t b = "login:" ++ normalized t b' := by
  constructor
  · intro x
    have hle : (checked t lib cfg s as).countP (· == x) ≤
        loginPerAccount - s.charge ("login:" ++ foldedAddress t s x) := by
      refine countP_checked_le ?_ (inWindow_fresh hfresh start) rfl
      intro a ha s' hs' husers
      have hchg := charged_of_body t lib hlim hs' (hwithin a ha)
      refine ⟨hchg.inWindow, hchg.users.trans husers, hchg.more _, ?_⟩
      intro y hy hyx
      obtain rfl := beq_iff_eq.mp hyx
      exact charged_account hlim (hwithin a ha) (hfolded a ha) hs' husers hy
    exact le_trans hle (sub_le _ _)
  · intro a ha b hb a' ha' b' hb' email hfold hfold'
    rw [(hfolded a ha b hb).eq hfold, (hfolded a' ha' b' hb').eq hfold']

section

theorem default_within :
    0 ≤ (default : AuthInput).now ∧ (default : AuthInput).now ≤ 0 + authRateWindow := by decide

/-- Requests from one address, each for that spelling and with a wrong password. -/
def tries (emails : List String) : List HttpLogin :=
  emails.map fun email =>
    ⟨⟨"192.0.2.1:1000", fun _ => [], some ⟨email, "guess", ""⟩⟩, plainDraws, fun _ => default⟩

theorem tries_within (emails : List String) : ∀ a ∈ tries emails, a.Within 0 := by
  intro a ha
  obtain ⟨email, -, rfl⟩ := mem_map.mp ha
  exact fun _ => default_within

/-- An account that is found under two normalized spellings. -/
def samState : AuthState := plainState { plainUser with email := "sam@home" }

theorem login_budget_per_account_sam :
    (checked .latin plainLib plainConfig samState
      (tries (List.replicate 6 "sam@home" ++ List.replicate 6 " SAM@Home"))).count plainUser.id ≤
        loginPerAccount :=
  (login_budget_per_account .latin plainLib plainConfig rfl samState rfl 0 _ (tries_within _)
    (by
      intro a ha b hb
      obtain ⟨email, hemail, rfl⟩ := mem_map.mp ha
      cases hb
      rcases mem_append.mp hemail with h | h <;>
      · rw [eq_of_mem_replicate h]
        unfold Folded
        decide)).1 plainUser.id

/-- A long s makes a key of its own, and finds the same account. -/
theorem eleven_tries :
    (∀ a ∈ tries (List.replicate 10 "sam@home" ++ ["\u017fam@home"]), a.Within 0) ∧
    samState.limits = ∅ ∧
    (checked .latin plainLib plainConfig samState
      (tries (List.replicate 10 "sam@home" ++ ["\u017fam@home"]))).count plainUser.id =
        loginPerAccount + 1 :=
  ⟨tries_within _, rfl, by decide +kernel⟩

end

/-! ## The budget of an address -/

/-- If no request says where it was forwarded from, then requests of one peer check no more
    passwords than its budget allows, and all are charged to one key. -/
theorem login_budget_per_address (t : CaseTable) (lib : AuthLib) (cfg : AuthConfig)
    (hlim : cfg.limiter = true) (s : AuthState) (hfresh : s.limits = ∅) (start : Time)
    (host : String) (as : List HttpLogin) (hwithin : ∀ a ∈ as, a.Within start)
    (hpeer : ∀ a ∈ as, ∃ addr : TCPAddr, addr.host = host ∧ a.request.remoteAddr = addr.string)
    (hdirect : ∀ a ∈ as, a.request.get "X-Forwarded-For" = "") :
    (checked t lib cfg s as).length ≤ loginPerAddress ∧
    ∀ a ∈ as, "login-ip:" ++ a.request.clientIP = "login-ip:" ++ host := by
  have hcl : ∀ a ∈ as, a.request.clientIP = host := by
    intro a ha
    obtain ⟨addr, rfl, haddr⟩ := hpeer a ha
    exact clientIP_of_direct (hdirect a ha) haddr
  constructor
  · have hle : (checked t lib cfg s as).countP (fun _ => true) ≤
        loginPerAddress - s.charge ("login-ip:" ++ host) := by
      refine countP_checked_le ?_ (inWindow_fresh hfresh start) rfl
      intro a ha s' hs' husers
      have hchg := charged_of_body t lib hlim hs' (hwithin a ha)
      refine ⟨hchg.inWindow, hchg.users.trans husers, hchg.more _, ?_⟩
      intro y hy _
      have haddress := hchg.address y hy
      rwa [hcl a ha] at haddress
    rw [countP_true] at hle
    exact le_trans hle (sub_le _ _)
  · intro a ha
    rw [hcl a ha]

section

/-- Requests of one peer, through one port after the other, each for the next of four
    accounts. -/
def peerTries (count : Nat) (forwarded : Nat → List String) : List HttpLogin :=
  (List.range count).map fun n =>
    ⟨⟨String.ofList (joinHostPort "192.0.2.1".toList (toDigits 10 (5000 + n))),
      fun key => if key = "X-Forwarded-For" then forwarded n else [],
      some ⟨["ann", "bob", "joe", "kim"].getD (n % 4) "", "guess", ""⟩⟩,
      plainDraws, fun _ => default⟩

/-- Four accounts. -/
def fourAccounts : AuthState :=
  { empty with
    users := List.foldl (fun users (u : String × Nat) =>
      users.put { plainUser with id := .ofBytes [UInt8.ofNat u.2], email := u.1 })
      Table.empty ["ann", "bob", "joe", "kim"].zipIdx }

theorem peerTries_within (count : Nat) (forwarded : Nat → List String) :
    ∀ a ∈ peerTries count forwarded, a.Within 0 := by
  intro a ha
  obtain ⟨n, -, rfl⟩ := mem_map.mp ha
  exact fun _ => default_within

theorem peerTries_remoteAddr (count : Nat) (forwarded : Nat → List String) :
    ∀ a ∈ peerTries count forwarded,
      ∃ addr : TCPAddr, addr.host = "192.0.2.1" ∧ a.request.remoteAddr = addr.string := by
  intro a ha
  obtain ⟨n, -, rfl⟩ := mem_map.mp ha
  exact ⟨⟨"192.0.2.1", 5000 + n, by decide⟩, rfl, rfl⟩

theorem login_budget_per_address_peer :
    (checked .latin plainLib plainConfig fourAccounts (peerTries 40 fun _ => [])).length ≤
      loginPerAddress :=
  (login_budget_per_address .latin plainLib plainConfig rfl fourAccounts rfl 0 "192.0.2.1" _
    (peerTries_within 40 fun _ => []) (peerTries_remoteAddr 40 fun _ => []) (by
      intro a ha
      obtain ⟨n, -, rfl⟩ := mem_map.mp ha
      rfl)).1

/-- With a forged header every request has a budget of its own. -/
theorem forwarded_tries :
    (∀ a ∈ peerTries 31 fun n => [toString n], a.Within 0) ∧ fourAccounts.limits = ∅ ∧
    (∀ a ∈ peerTries 31 fun n => [toString n],
      ∃ addr : TCPAddr, addr.host = "192.0.2.1" ∧ a.request.remoteAddr = addr.string) ∧
    (checked .latin plainLib plainConfig fourAccounts (peerTries 31 fun n => [toString n])).length =
      loginPerAddress + 1 :=
  ⟨peerTries_within 31 _, rfl, peerTries_remoteAddr 31 _, by decide +kernel⟩

end

end NexusVPN.Backend.Auth
