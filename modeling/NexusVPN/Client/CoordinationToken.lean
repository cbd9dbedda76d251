import NexusVPN.Client.TokenServer
import NexusVPN.Lib.Track

/-! # The token of the coordination client

    `Agent.connect` hands its REST client to `coordination.Dial` as the source of tokens, and
    every gRPC call carries the access token which that client holds.  All other calls of the
    agent make clients of their own. -/

namespace NexusVPN.Client.Coordination

open List Api Machine Prog Option Nat Host

/-! ## REST calls -/

/-- The calls of the agent that make requests. -/
inductive AgentCall where
  /-- `ListNetworks`, `Devices`, `StartPairing` and the others on behalf of an account. -/
  | request (method path : String) (body : Option (List (String × String)))
  | register (email password displayName : String)
  | login (email password mfaCode : String)
  | claimPairing (token : String)
  | logout

/-- `Agent.Login`.  An answer without tokens asks for a TOTP code. -/
def agentLogin (email password mfaCode : String) : ApiM Unit := do
  let k ← ask (I := apiIface) (.create ⟨"", ""⟩)
  let code := if mfaCode = "" then [] else [("mfaCode", mfaCode)]
  let fields := [("email", email), ("password", password)] ++ code
  match ← doRequest k "POST" "/auth/login" (some fields) false with
  | .error _ => pure ()
  | .ok resp =>
    match resp.body with
    | .tokens t =>
      ask (I := apiIface) (.setTokens k t)
      ask (I := apiIface) (.update t)
    | _ => pure ()

/-- `Agent.ClaimPairing`, once the link has been read. -/
def agentClaimPairing (token : String) : ApiM Unit := do
  let t ← ask (I := apiIface) .load
  let k ← ask (I := apiIface) (.create t)
  match ← doRequest k "POST" "/auth/pair/claim" (some [("token", token)]) false with
  | .error _ => pure ()
  | .ok resp =>
    match resp.body.tokenPair with
    | none => pure ()
    | some t =>
      ask (I := apiIface) (.setTokens k t)
      ask (I := apiIface) (.update t)

def AgentCall.body : AgentCall → ApiM Unit
  | .request method path body => do
    match ← authed with
    | none => pure ()
    | some k =>
      let _ ← doRequest k method path body true
  | .register email password displayName => do
    let k ← ask (I := apiIface) (.create ⟨"", ""⟩)
    match ← doRequest k "POST" "/auth/register"
        (some [("email", email), ("password", password), ("displayName", displayName)]) false with
    | .error _ => pure ()
    | .ok _ => agentLogin email password ""
  | .login email password mfaCode => agentLogin email password mfaCode
  | .claimPairing token => agentClaimPairing token
  | .logout => agentLogout

/-! ## Clients of one's own -/

/-- A thread sets the tokens of clients that it has made itself. -/
def owning : Protocol apiIface (List Nat) where
  may _ _ := True
  legal mine c :=
    match c with
    | .setTokens k _ => k ∈ mine
    | _ => True
  next mine c a :=
    match c with
    | .create _ => a :: mine
    | _ => mine

section

variable {k : Nat} {mine : List Nat}

theorem obeys_exchange {α : Type} {Q : α → List Nat → Prop} {method path : String}
    {body : Option (List (String × String))} {authenticated : Bool}
    {f : Option ApiResponse → ApiM α} (hf : ∀ resp, (f resp).Obeys owning Q mine) :
    (exchange k method path body authenticated >>= f).Obeys owning Q mine := by
  cases authenticated with
  | false => exact ⟨trivial, fun resp _ => hf resp⟩
  | true => exact ⟨trivial, fun _ _ => ⟨trivial, fun resp _ => hf resp⟩⟩

theorem obeys_refreshToken (hk : k ∈ mine) :
    (refreshToken k).Obeys owning (fun _ mine' => mine' = mine) mine := by
  refine ⟨trivial, fun refresh _ => ?_⟩
  show Obeys owning _ (if refresh = "" then _ else _) mine
  split
  · rfl
  apply obeys_exchange
  intro resp
  cases finish resp with
  | error e => rfl
  | ok resp =>
    simp only
    cases resp.body.tokenPair with
    | none => rfl
    | some t => exact ⟨hk, fun _ _ => ⟨trivial, fun _ _ => rfl⟩⟩

theorem obeys_doRequest (hk : k ∈ mine) (method path : String)
    (body : Option (List (String × String))) (authenticated : Bool) :
    (doRequest k method path body authenticated).Obeys owning (fun _ mine' => mine' = mine)
      mine := by
  apply obeys_exchange
  intro resp
  split
  · refine ⟨trivial, fun refresh _ => ?_⟩
    show Obeys owning _ (if refresh ≠ "" then _ else _) mine
    split
    · apply Obeys.bind
      refine Obeys.mono ?_ (obeys_refreshToken hk)
      intro result mine' hmine
      subst hmine
      cases result with
      | ok t => exact obeys_exchange fun _ => rfl
      | error e => rfl
    · rfl
  · rfl

theorem obeys_authed : authed.Obeys owning (fun client mine' => ∀ k ∈ client, k ∈ mine') mine := by
  refine ⟨trivial, fun t _ => ?_⟩
  show Obeys owning _ (if t.access = "" then _ else _) mine
  split
  · exact fun k hk => nomatch hk
  · refine ⟨trivial, fun k _ => ?_⟩
    intro k' hk'
    cases hk'
    exact mem_cons_self

theorem obeys_doRequest_bind {α : Type} {Q : α → List Nat → Prop} (hk : k ∈ mine)
    {method path : String} {body : Option (List (String × String))} {authenticated : Bool}
    {f : Except ApiError ApiResponse → ApiM α} (hf : ∀ result, (f result).Obeys owning Q mine) :
    (doRequest k method path body authenticated >>= f).Obeys owning Q mine := by
  apply Obeys.bind
  refine Obeys.mono ?_ (obeys_doRequest hk method path body authenticated)
  intro result mine' hmine
  subst hmine
  exact hf result

theorem obeys_adopt (hk : k ∈ mine) (t : Tokens) :
    (do ask (I := apiIface) (.setTokens k t); ask (I := apiIface) (.update t)).Obeys owning
      (fun _ _ => True) mine :=
  ⟨hk, fun _ _ => ⟨trivial, fun _ _ => trivial⟩⟩

theorem obeys_agentLogin (email password mfaCode : String) :
    (agentLogin email password mfaCode).Obeys owning (fun _ _ => True) mine := by
  refine ⟨trivial, fun k _ => ?_⟩
  have hk : k ∈ k :: mine := mem_cons_self
  refine obeys_doRequest_bind hk fun result => ?_
  cases result with
  | error e => trivial
  | ok resp =>
    simp only
    cases resp.body with
    | tokens t => exact obeys_adopt hk t
    | empty | other | malformed => trivial

theorem obeys_agentClaimPairing (token : String) :
    (agentClaimPairing token).Obeys owning (fun _ _ => True) mine := by
  refine ⟨trivial, fun _ _ => ⟨trivial, fun k _ => ?_⟩⟩
  have hk : k ∈ k :: mine := mem_cons_self
  refine obeys_doRequest_bind hk fun result => ?_
  cases result with
  | error e => trivial
  | ok resp =>
    simp only
    cases resp.body.tokenPair with
    | none => trivial
    | some t => exact obeys_adopt hk t

theorem obeys_body (c : AgentCall) : c.body.Obeys owning (fun _ _ => True) [] := by
  cases c with
  | request method path body =>
    apply Obeys.bind
    refine Obeys.mono ?_ obeys_authed
    intro client mine hmine
    cases client with
    | none => trivial
    | some k => exact obeys_doRequest_bind (hmine k rfl) fun _ => trivial
  | register email password displayName =>
    refine ⟨trivial, fun k _ => ?_⟩
    refine obeys_doRequest_bind mem_cons_self fun result => ?_
    cases result with
    | error e => trivial
    | ok resp => exact obeys_agentLogin email password ""
  | login email password mfaCode => exact obeys_agentLogin email password mfaCode
  | claimPairing token => exact obeys_agentClaimPairing token
  | logout =>
    apply Obeys.bind
    refine Obeys.mono ?_ obeys_authed
    intro client mine hmine
    cases client with
    | none => exact ⟨trivial, fun _ _ => trivial⟩
    | some k =>
      refine Obeys.bind (obeys_doRequest_bind (hmine k rfl) fun result => ?_)
      exact ⟨hmine k rfl, fun _ _ => ⟨trivial, fun _ _ => trivial⟩⟩

end

/-! ## The agent over time -/

/-- The agent with the REST calls that are under way.  `conn` is the REST client that the
    coordination client was given. -/
structure Agent where
  calls : Tracked apiIface (Host Sessions) AgentCall (List Nat) Unit
  conn : Option Nat

inductive Act (ι : Type) where
  /-- Seconds pass. -/
  | wait (seconds : Nat)
  /-- A REST call is made, or goes on. -/
  | call (a : Pool.Action AgentCall ι)
  | connect (i : ι)
  | disconnect

namespace Agent

def host (s : Agent) : Host Sessions := s.calls.shared

def now (s : Agent) : Nat := s.host.server.now

/-- `coordination.Client.authContext`: the token that a gRPC call carries. -/
def carried (s : Agent) : Option String :=
  match s.conn with
  | none => none
  | some k => if (s.host.client k).access = "" then none else some (s.host.client k).access

end Agent

/-- What ends the connection; `Agent.Logout` starts with `Disconnect`. -/
def Act.disconnects {ι : Type} : Act ι → Bool
  | .disconnect | .call (.spawn .logout) => true
  | _ => false

section

variable {ι : Type} (serve : Plane Sessions ι)

def step (s : Agent) (a : Act ι) : Option Agent :=
  match a with
  | .wait seconds =>
    let server := { s.host.server with now := s.now + seconds }
    some { s with calls := { s.calls with shared := { s.host with server } } }
  | .call c =>
    (Tracked.step (handler serve) (fun _ => owning) [] AgentCall.body (fun _ => none)
      s.calls c).map fun calls => ⟨calls, if a.disconnects then none else s.conn⟩
  | .connect i =>
    if s.conn ≠ none then none
    else
      match authed.exec (handler serve) (fun _ => i) s.host with
      | (none, _) => none
      | (some k, h) => some ⟨{ s.calls with shared := h }, some k⟩
  | .disconnect => some { s with conn := none }

end

/-! ## Who sets which tokens -/

section

variable {ι : Type} {serve : Plane Sessions ι}

variable (serve) in
theorem length_clients_handler (c : ApiCall) (i : ι) (h : Host Sessions) :
    h.clients.length ≤ (handler serve c i h).2.clients.length := by
  cases c with
  | create | setTokens => simp [handler]
  | load | update t | accessToken k | refreshTokenValue k | send r => exact Nat.le_refl _

theorem client_handler {c : ApiCall} {k : Nat} {h : Host Sessions} (hk : k < h.clients.length)
    (hc : ∀ t, c ≠ .setTokens k t) (i : ι) :
    (handler serve c i h).2.client k = h.client k := by
  cases c with
  | create t =>
    show (h.clients ++ [t]).getD k _ = h.clients.getD k _
    simp only [getD_eq_getElem?_getD, getElem?_append_left hk]
  | setTokens j t =>
    have hne : j ≠ k := fun heq => hc t (heq ▸ rfl)
    show (h.clients.set j t).getD k _ = h.clients.getD k _
    simp only [getD_eq_getElem?_getD, getElem?_set_ne hne]
  | load | update t | accessToken k | refreshTokenValue k | send r => rfl

theorem exec_authed {k : Nat} {h h' : Host Sessions} {i : ι}
    (hexec : authed.exec (handler serve) (fun _ => i) h = (some k, h')) :
    h.config.access ≠ "" ∧ k = h.clients.length ∧
      h' = { h with clients := h.clients ++ [h.config] } := by
  have hunfold : authed.exec (handler serve) (fun _ => i) h =
      if h.config.access = "" then (none, h)
      else (some h.clients.length, { h with clients := h.clients ++ [h.config] }) := by
    show Prog.exec _ (if h.config.access = "" then _ else _) _ h = _
    split
    · rfl
    · rfl
  rw [hunfold] at hexec
  split at hexec
  · cases hexec
  · next hsign =>
    cases hexec
    exact ⟨hsign, rfl, rfl⟩

end

/-- Every client has one owner. -/
structure Sound (s : Agent) : Prop where
  conforming : s.calls.Conforming (fun _ => owning) (fun _ _ _ => True)
  /-- The clients of the REST calls exist, and are not that of the connection. -/
  own : ∀ th ∈ s.calls.threads, ∀ k ∈ th.2.1, k < s.host.clients.length ∧ s.conn ≠ some k
  connected : ∀ k, s.conn = some k → k < s.host.clients.length

section

variable {ι : Type} {serve : Plane Sessions ι} {s s' : Agent} {a : Act ι}
  {c : Pool.Action AgentCall ι}
  {calls : Tracked apiIface (Host Sessions) AgentCall (List Nat) Unit}

section

variable (hs : Sound s)
  (hstep : Tracked.step (handler serve) (fun _ => owning) [] AgentCall.body (fun _ => none)
    s.calls c = some calls)
include hs hstep

theorem host_call :
    s.host.clients.length ≤ calls.shared.clients.length ∧
      ∀ k, s.conn = some k → calls.shared.client k = s.host.client k := by
  rcases Tracked.step_cases hstep with ⟨t, -, rfl⟩ | ⟨n, i, t, mine, c, f, -, hn, rfl⟩
  · exact ⟨Nat.le_refl _, fun _ _ => rfl⟩
  · have hmem := mem_of_getElem? hn
    refine ⟨length_clients_handler serve c i _, ?_⟩
    intro k hk
    refine client_handler (hs.connected k hk) ?_ i
    -- Only the owner sets the tokens of a client.
    intro tokens hc
    subst hc
    have hlegal : k ∈ mine := (hs.conforming _ hmem).1
    exact (hs.own _ hmem k hlegal).2 hk

theorem sound_call : Sound ⟨calls, s.conn⟩ := by
  have hlen := (host_call hs hstep).1
  refine ⟨?_, ?_, fun k hk => Nat.lt_of_lt_of_le (hs.connected k hk) hlen⟩
  · exact hs.conforming.step obeys_body (fun _ _ _ => trivial) hstep
  · refine Tracked.forall_threads_step
      (A := fun th h => ∀ k ∈ th.2.1, k < h.clients.length ∧ s.conn ≠ some k) hstep hs.own ?_ ?_ ?_
    · exact fun _ _ k hk => nomatch hk
    · intro n i t mine c f _ hn k hk
      have hmem := mem_of_getElem? hn
      have hmore := length_clients_handler serve c i s.calls.shared
      have hold : ∀ k ∈ mine, k < (handler serve c i s.calls.shared).2.clients.length ∧
          s.conn ≠ some k := by
        intro k hk
        have hk := hs.own _ hmem k hk
        exact ⟨Nat.lt_of_lt_of_le hk.1 hmore, hk.2⟩
      cases c with
      | create tokens =>
        rcases mem_cons.mp hk with rfl | hk
        · -- The new client comes after all that there are.
          refine ⟨by simp [handler], fun hconn => ?_⟩
          exact Nat.lt_irrefl _ (hs.connected _ hconn)
        · exact hold k hk
      | load | update t | accessToken j | refreshTokenValue j | setTokens j t | send r =>
        exact hold k hk
    · intro n i t mine c f _ _ m th _ _ hth k hk
      have hmore := length_clients_handler serve c i s.calls.shared
      exact ⟨Nat.lt_of_lt_of_le (hth k hk).1 hmore, (hth k hk).2⟩

end

theorem Sound.disconnect (hs : Sound s) : Sound { s with conn := none } :=
  ⟨hs.conforming, fun th hth k hk => ⟨(hs.own th hth k hk).1, nofun⟩, nofun⟩

theorem step_connect {i : ι} (hstep : step serve s (.connect i) = some s') :
    s.host.config.access ≠ "" ∧
      s' = ⟨{ s.calls with shared := { s.host with clients := s.host.clients ++ [s.host.config] } },
        some s.host.clients.length⟩ := by
  simp only [step] at hstep
  split at hstep
  · cases hstep
  split at hstep
  · cases hstep
  · next k h hexec =>
    obtain ⟨hsign, rfl, rfl⟩ := exec_authed hexec
    exact ⟨hsign, (some.inj hstep).symm⟩

theorem sound_step (hs : Sound s) (hstep : step serve s a = some s') : Sound s' := by
  cases a with
  | wait seconds =>
    cases hstep
    exact ⟨hs.conforming, hs.own, hs.connected⟩
  | call c =>
    obtain ⟨calls, hcalls, rfl⟩ := map_eq_some_iff.mp hstep
    have hsound := sound_call hs hcalls
    split
    · exact hsound.disconnect
    · exact hsound
  | connect i =>
    obtain ⟨-, rfl⟩ := step_connect hstep
    -- The tunnel gets a client that no thread has yet.
    have hlen : (s.host.clients ++ [s.host.config]).length = s.host.clients.length + 1 := by simp
    refine ⟨hs.conforming, ?_, ?_⟩
    · intro th hth k hk
      have hlt := (hs.own th hth k hk).1
      refine ⟨?_, ?_⟩
      · show k < (s.host.clients ++ [s.host.config]).length
        omega
      · intro heq
        have hkey := some.inj heq
        omega
    · intro k hk
      cases hk
      show s.host.clients.length < (s.host.clients ++ [s.host.config]).length
      omega
  | disconnect =>
    cases hstep
    exact hs.disconnect

theorem client_step {k : Nat} (hs : Sound s) (hk : s.conn = some k)
    (hstay : a.disconnects = false) (hstep : step serve s a = some s') :
    s'.conn = some k ∧ s'.host.client k = s.host.client k := by
  cases a with
  | wait seconds =>
    cases hstep
    exact ⟨hk, rfl⟩
  | call c =>
    obtain ⟨calls, hcalls, rfl⟩ := map_eq_some_iff.mp hstep
    rw [hstay]
    exact ⟨hk, (host_call hs hcalls).2 k hk⟩
  | connect i =>
    -- An agent that is connected does not connect again.
    have href : step serve s (.connect i) = none := by
      simp only [step, hk]
      rfl
    rw [href] at hstep
    cases hstep
  | disconnect => cases hstay

theorem client_run {k : Nat} {acts : List (Act ι)} (hs : Sound s) (hk : s.conn = some k)
    (hstay : ∀ a ∈ acts, a.disconnects = false) (hrun : run (step serve) s acts = some s') :
    s'.conn = some k ∧ s'.host.client k = s.host.client k := by
  have hkept := Along.invariant (C := fun _ a => a.disconnects = false)
    (P := fun s₁ => Sound s₁ ∧ s₁.conn = some k ∧ s₁.host.client k = s.host.client k)
    (fun s₁ a s₂ h hc hstep => by
      obtain ⟨hsound, hconn, hcl⟩ := h
      have hnext := client_step hsound hconn hc hstep
      exact ⟨sound_step hsound hstep, hnext.1, hnext.2.trans hcl⟩)
    ⟨hs, hk, rfl⟩ (along_of_forall_mem (fun a ha _ => hstay a ha) s) hrun
  exact hkept.2

end

/-! ## What the gRPC calls carry -/

/-- The agent has connected, and has been connected since.  A gRPC call carries a token that
    has not expired exactly if the access token has not expired that was in the configuration
    when it connected. -/
theorem carried_live_iff {ι : Type} (A : Authority) (serve : Plane Sessions ι)
    {start s s₁ s₂ : Agent} {i : ι} {acts : List (Act ι)} (hstart : start.calls.threads = [])
    (hdown : start.conn = none) (hs : Reachable (step serve) start s)
    (hconnect : step serve s (.connect i) = some s₁) (hrun : run (step serve) s₁ acts = some s₂)
    (hstay : ∀ a ∈ acts, a.disconnects = false) :
    (∃ token, s₂.carried = some token ∧ A.Live token s₂.now) ↔
      ∃ e, A.expires s.host.config.access = some e ∧ s₂.now < e := by
  have hinit : Sound start := by
    refine ⟨?_, ?_, fun k hk => ?_⟩
    · intro th hth
      rw [hstart] at hth
      cases hth
    · intro th hth
      rw [hstart] at hth
      cases hth
    · rw [hdown] at hk
      cases hk
  have hsound : Sound s := hs.invariant hinit fun _ _ _ hs hstep => sound_step hs hstep
  obtain ⟨hsign, hs₁⟩ := step_connect hconnect
  have hconn : s₁.conn = some s.host.clients.length := by rw [hs₁]
  have hcl : s₁.host.client s.host.clients.length = s.host.config := by
    rw [hs₁]
    simp [Agent.host, client]
  have hlater := client_run (sound_step hsound hconnect) hconn hstay hrun
  have hcarry : s₂.carried = some s.host.config.access := by
    rw [Agent.carried, hlater.1]
    simp only [hlater.2, hcl]
    exact if_neg hsign
  rw [hcarry]
  constructor
  · rintro ⟨token, htoken, hlive⟩
    cases htoken
    exact hlive
  · intro hlive
    exact ⟨_, rfl, hlive⟩

/-- An agent that has just signed in. -/
def plainAgent : Agent where
  calls := ⟨⟨plainAuthority.pair 0 0, [], ⟨0, [⟨refreshTTL, false⟩]⟩⟩, []⟩
  conn := none

/-- The agent is connected for a while, and then the networks are listed. -/
def plainActs (seconds steps : Nat) : List (Act Unit) :=
  .wait seconds :: .call (.spawn (.request "GET" "/networks" none)) ::
    List.replicate steps (.call (.advance 0 ()))

/-- After ten minutes the token is the first one, and still good. -/
theorem carried_live_ten_minutes :
    ∃ s₁ s₂, step plainAuthority.serve plainAgent (.connect ()) = some s₁ ∧
      run (step plainAuthority.serve) s₁ (plainActs 600 4) = some s₂ ∧
      ∃ token, s₂.carried = some token ∧ plainAuthority.Live token s₂.now := by
  have hstay : ∀ a ∈ plainActs 600 4, a.disconnects = false := by decide
  refine ⟨_, _, rfl, rfl, ?_⟩
  refine (carried_live_iff plainAuthority plainAuthority.serve rfl rfl (.refl plainAgent)
    (i := ()) rfl rfl hstay).mpr ?_
  exact ⟨900, plainAuthority.expires_pair 0 0, by decide⟩

/-- A quarter of an hour after it was connected, the agent has a new pair of tokens.  Its
    gRPC calls carry the old one, which has expired. -/
theorem carries_expired_token :
    ∃ s₁ s₂ token, step plainAuthority.serve plainAgent (.connect ()) = some s₁ ∧
      run (step plainAuthority.serve) s₁ (plainActs 900 11) = some s₂ ∧
      plainAuthority.Renewable s₂.host.config.refresh s₂.host.server ∧
      plainAuthority.Live s₂.host.config.access s₂.now ∧
      s₂.carried = some token ∧ ¬plainAuthority.Live token s₂.now := by
  refine ⟨_, _, (plainAuthority.pair 0 0).access, rfl, rfl, ?_, ?_, rfl, ?_⟩
  · refine ⟨1, ⟨900 + refreshTTL, false⟩, plainAuthority.row_pair 1 900, rfl, rfl, ?_⟩
    exact le_add_right 900 _
  · exact Authority.live_pair 1 900
  · rintro ⟨e, he, hlt⟩
    cases (plainAuthority.expires_pair 0 0).symm.trans he
    exact Nat.lt_irrefl 900 hlt

end NexusVPN.Client.Coordination
