import NexusVPN.Backend.AuthCalls
import NexusVPN.Client.ApiClient
import NexusVPN.Mobile.Pairing

/-! # Signing out

    `Agent.Logout` and the app's `AuthProvider.logout` post to `/auth/logout` and forget their
    tokens.  The control plane revokes the refresh token that it is sent. -/

namespace NexusVPN.SignOut

open Backend Backend.Auth Client.Api Prog Host AuthState

/-! ## The control plane -/

/-- The status that `writeDomainError` answers with. -/
def statusOf : DomainError → Nat
  | .notFound => 404
  | .alreadyExists | .networkFull => 409
  | .invalidCredentials | .invalidMFACode | .unauthorized => 401
  | .forbidden | .lastOwner => 403
  | .invalidInput | .inviteInvalid => 400
  | .tokenExpired | .tokenRevoked | .tokenInvalid | .mfaRequired => 401
  | .noRelayAvailable | .other _ => 500

/-- What a request draws and reads from outside, and where it comes from. -/
structure Asking where
  draws : Draws
  inputs : Nat → AuthInput
  ipAddress : String
  userAgent : String

/-- `decodeJSON` into a `refreshRequest`: unknown fields are an error, and so is no body. -/
def decodeRefresh : Option (List (String × String)) → Option String
  | none => none
  | some fields =>
    if fields.all fun f => f.1 == "refreshToken" then
      some ((fields.getLast?.map Prod.snd).getD "")
    else none

section

variable (lib : AuthLib) (cfg : AuthConfig)

/-- `AuthHandler.logout`: a body is optional. -/
def logoutHandler (r : ApiRequest) (i : Asking) (s : AuthState) : ApiResponse × AuthState :=
  let token := (decodeRefresh r.body).getD ""
  match (Auth.logout lib token).run.exec (handler lib) i.inputs s with
  | (.ok (), s') => (⟨204, .empty⟩, s')
  | (.error e, s') => (⟨statusOf e, .other⟩, s')

/-- `AuthHandler.refresh`. -/
def refreshHandler (r : ApiRequest) (i : Asking) (s : AuthState) : ApiResponse × AuthState :=
  match decodeRefresh r.body with
  | none => (⟨400, .other⟩, s)
  | some "" => (⟨400, .other⟩, s)
  | some token =>
    match (Auth.refresh lib cfg i.draws token i.ipAddress i.userAgent).run.exec
        (handler lib) i.inputs s with
    | (.ok result, s') => (⟨200, .tokens ⟨result.accessToken, result.refreshToken⟩⟩, s')
    | (.error e, s') => (⟨statusOf e, .other⟩, s')

/-- A control plane that can be reached.  `rest` answers on all other routes. -/
def plane (rest : Plane AuthState Asking) : Plane AuthState Asking := fun r i s =>
  if r.method = "POST" ∧ r.path = "/auth/logout" then
    let (resp, s') := logoutHandler lib r i s
    (some resp, s')
  else if r.method = "POST" ∧ r.path = "/auth/refresh" then
    let (resp, s') := refreshHandler lib cfg r i s
    (some resp, s')
  else rest r i s

end

/-! ## The app -/

/-- `AuthProvider.logout` with `ApiClient.logout`: whatever is answered, the session is
    cleared on the phone. -/
def phoneLogout {σ ι : Type} (serve : Plane σ ι) (phone : Mobile.Phone) (i : ι) (s : σ) :
    Mobile.Phone × σ :=
  let bearer := String.ofList (phone.accessToken.getD [])
  ({ phone with accessToken := none, refreshToken := none, status := .unauthenticated },
    (serve ⟨"POST", "/auth/logout", bearer, none⟩ i s).2)

/-! ## The end of a session -/

section

variable (lib : AuthLib) (cfg : AuthConfig)

/-- Whatever rows there are of the token are revoked. -/
def Revoked (s : AuthState) (raw : String) : Prop :=
  ∀ id rt, s.refresh.get id = some rt → rt.tokenHash = lib.hashToken raw → rt.revokedAt ≠ none

/-- The token is revoked, and no `Refresh` with it succeeds. -/
def Ended (s : AuthState) (raw : String) : Prop :=
  Revoked lib s raw ∧ ∀ (i : Asking), ∃ e,
    ((Auth.refresh lib cfg i.draws raw i.ipAddress i.userAgent).run.exec
      (handler lib) i.inputs s).1 = .error e

end

section

variable (lib : AuthLib) (cfg : AuthConfig) (rest : Plane AuthState Asking)

theorem plane_logout (bearer : String) (i : Asking) (s : AuthState) :
    plane lib cfg rest ⟨"POST", "/auth/logout", bearer, none⟩ i s = (some ⟨204, .empty⟩, s) := rfl

theorem wp_logout (k : Nat) (h : Host AuthState) :
    wp (handler (plane lib cfg rest)) (Client.Api.logout k)
      (fun _ h' => h'.server = h.server) h := by
  have hexch : wp (handler (plane lib cfg rest))
      (exchange k "POST" "/auth/logout" none true)
      (fun resp h' => resp = some ⟨204, .empty⟩ ∧ h'.server = h.server) h := by
    intro _ _
    exact ⟨rfl, rfl⟩
  unfold Client.Api.logout doRequest
  rw [wp_bind, wp_bind]
  refine wp_mono ?_ hexch
  rintro resp h' ⟨rfl, hsrv⟩ i
  exact hsrv

theorem wp_agentLogout (h : Host AuthState) :
    wp (handler (plane lib cfg rest)) agentLogout (fun _ h' => h'.server = h.server) h := by
  have hauthed : wp (handler (plane lib cfg rest)) authed (fun _ h' => h'.server = h.server) h := by
    intro _
    show wp _ (if h.config.access = "" then .ret none else
      (ask (I := apiIface) (.create h.config) >>= fun k => .ret (some k))) _ h
    split
    · rfl
    · intro _
      rfl
  unfold agentLogout
  rw [wp_bind]
  refine wp_mono ?_ hauthed
  intro client h' hsrv
  cases client with
  | none =>
    intro _
    exact hsrv
  | some k =>
    rw [wp_bind]
    refine wp_mono ?_ (wp_logout lib cfg rest k h')
    intro _ h'' hserver' _
    exact hserver'.trans hsrv

/-- After `Agent.Logout`, and after `logout` in the app, a session has ended exactly if it had
    ended before: neither sends the token that is to be revoked. -/
theorem logout_ends_iff (lib : AuthLib) (cfg : AuthConfig) (rest : Plane AuthState Asking) :
    (∀ (h : Host AuthState) (w : Nat → Asking),
      Ended lib cfg (agentLogout.exec (handler (plane lib cfg rest)) w h).2.server
        h.config.refresh ↔ Ended lib cfg h.server h.config.refresh) ∧
    ∀ (phone : Mobile.Phone) (i : Asking) (s : AuthState),
      Ended lib cfg (phoneLogout (plane lib cfg rest) phone i s).2
        (String.ofList (phone.refreshToken.getD [])) ↔
      Ended lib cfg s (String.ofList (phone.refreshToken.getD [])) := by
  constructor
  · intro h w
    have hsrv := wp_exec (wp_agentLogout lib cfg rest h) w
    rw [hsrv]
  · intro phone i s
    simp only [phoneLogout, plane_logout]

end

/-! ## A token that goes on working -/

/-- A session of the owner's, on a machine that is signed in with it. -/
def plainHost : Host AuthState where
  config := ⟨"access", "session"⟩
  clients := []
  server := plainState plainUser

def plainAsking : Asking := ⟨plainDraws, fun _ => default, "", ""⟩

/-- The agent has signed out, and its refresh token still buys a session. -/
theorem session_outlives_logout :
    let h := (agentLogout.exec (handler (plane plainLib plainConfig fun _ _ s => (none, s)))
      (fun _ => plainAsking) plainHost).2
    h.config = ⟨"", ""⟩ ∧ ¬Revoked plainLib h.server "session" ∧
    ((Auth.refresh plainLib plainConfig plainDraws "session" "" "").run.exec
      (handler plainLib) (fun _ => default) h.server).1 = .ok ⟨"access", "token", 60, false⟩ := by
  refine ⟨by decide +kernel, ?_, by decide +kernel⟩
  intro hrev
  exact hrev plainSession.id plainSession (by decide +kernel) (by decide) rfl

end NexusVPN.SignOut
