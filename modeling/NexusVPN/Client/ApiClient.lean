import NexusVPN.Lib.Prog

/-! # The REST client of the agent

    `apiclient.Client` holds a pair of tokens.  A request that is answered with 401 makes it
    refresh the pair and try once more; a new pair also goes to the agent's configuration.
    The agent makes a client from its configuration for every call. -/

namespace NexusVPN.Client.Api

open Prog

/-! ## Requests and responses -/

structure Tokens where
  access : String
  refresh : String
deriving DecidableEq

structure ApiRequest where
  method : String
  path : String
  /-- The token after `Bearer`, or nothing if the header is not set. -/
  bearer : String
  /-- The fields of the JSON object, if there is a body. -/
  body : Option (List (String × String))

/-- The body of a response, as far as a token pair can be read from it. -/
inductive ResponseBody where
  | empty
  | tokens (t : Tokens)
  /-- Something else that is JSON. -/
  | other
  | malformed

/-- What `json.Unmarshal` makes of it; fields that are missing stay empty. -/
def ResponseBody.tokenPair : ResponseBody → Option Tokens
  | .empty => some ⟨"", ""⟩
  | .tokens t => some t
  | .other => some ⟨"", ""⟩
  | .malformed => none

structure ApiResponse where
  status : Nat
  body : ResponseBody

inductive ApiError where
  /-- The request was not answered. -/
  | transport
  /-- `APIError`. -/
  | status (code : Nat)
  | decode
  | noRefreshToken

/-! ## Calls -/

/-- A client is known by its number. -/
inductive ApiCall where
  /-- `store.Load`, of which only the tokens matter. -/
  | load
  /-- `apiclient.New` with `SetTokens`. -/
  | create (t : Tokens)
  /-- `store.Update` of the tokens. -/
  | update (t : Tokens)
  | accessToken (client : Nat)
  | refreshTokenValue (client : Nat)
  | setTokens (client : Nat) (t : Tokens)
  | send (r : ApiRequest)

@[reducible] def ApiCall.Result : ApiCall → Type
  | .load => Tokens
  | .create _ => Nat
  | .update _ | .setTokens _ _ => Unit
  | .accessToken _ | .refreshTokenValue _ => String
  | .send _ => Option ApiResponse

@[reducible] def apiIface : Iface := ⟨ApiCall, ApiCall.Result⟩

/-- The agent's machine, and a control plane in the state `server`. -/
structure Host (σ : Type) where
  config : Tokens
  clients : List Tokens
  server : σ

namespace Host

variable {σ ι : Type}

def client (h : Host σ) (k : Nat) : Tokens := h.clients.getD k ⟨"", ""⟩

/-- The control plane: what it answers, if it does, and what becomes of it. -/
abbrev Plane (σ ι : Type) := ApiRequest → ι → σ → Option ApiResponse × σ

def handler (serve : Plane σ ι) : Handler apiIface (Host σ) ι := fun c i h =>
  match c with
  | .load => (h.config, h)
  | .create t => (h.clients.length, { h with clients := h.clients ++ [t] })
  | .update t => ((), { h with config := t })
  | .accessToken k => ((h.client k).access, h)
  | .refreshTokenValue k => ((h.client k).refresh, h)
  | .setTokens k t => ((), { h with clients := h.clients.set k t })
  | .send r => ((serve r i h.server).1, { h with server := (serve r i h.server).2 })

end Host

/-! ## The client -/

abbrev ApiM := Prog apiIface

/-- The first half of `doAttempt`: the request is sent, with the token if it is to be
    authenticated. -/
def exchange (k : Nat) (method path : String) (body : Option (List (String × String)))
    (authenticated : Bool) : ApiM (Option ApiResponse) := do
  let bearer ← if authenticated then ask (I := apiIface) (.accessToken k) else pure ""
  ask (I := apiIface) (.send ⟨method, path, bearer, body⟩)

/-- What `doAttempt` makes of the response that it does not try again after. -/
def finish : Option ApiResponse → Except ApiError ApiResponse
  | none => .error .transport
  | some resp => if 400 ≤ resp.status then .error (.status resp.status) else .ok resp

/-- `Client.RefreshToken`, with the client's `OnTokenRefresh`. -/
def refreshToken (k : Nat) : ApiM (Except ApiError Tokens) := do
  let refresh ← ask (I := apiIface) (.refreshTokenValue k)
  if refresh = "" then return .error .noRefreshToken
  match finish (← exchange k "POST" "/auth/refresh" (some [("refreshToken", refresh)]) false) with
  | .error e => return .error e
  | .ok resp =>
    match resp.body.tokenPair with
    | none => return .error .decode
    | some t =>
      ask (I := apiIface) (.setTokens k t)
      ask (I := apiIface) (.update t)
      return .ok t

/-- `Client.do`: after one 401 the tokens are refreshed and the request is made again. -/
def doRequest (k : Nat) (method path : String) (body : Option (List (String × String)))
    (authenticated : Bool) : ApiM (Except ApiError ApiResponse) := do
  let resp ← exchange k method path body authenticated
  if resp.map ApiResponse.status = some 401 ∧ authenticated = true then
    if (← ask (I := apiIface) (.refreshTokenValue k)) ≠ "" then
      match ← refreshToken k with
      | .ok _ => return finish (← exchange k method path body authenticated)
      | .error _ => return finish resp
    else return finish resp
  else return finish resp

/-- `Client.Logout`. -/
def logout (k : Nat) : ApiM (Except ApiError ApiResponse) := do
  let result ← doRequest k "POST" "/auth/logout" none true
  ask (I := apiIface) (.setTokens k ⟨"", ""⟩)
  return result

/-! ## The agent -/

/-- `Agent.authed`: a client with the tokens of the configuration, if there are any. -/
def authed : ApiM (Option Nat) := do
  let t ← ask (I := apiIface) .load
  if t.access = "" then return none
  return some (← ask (I := apiIface) (.create t))

/-- `Agent.Logout`, once the tunnel is down. -/
def agentLogout : ApiM Unit := do
  match ← authed with
  | none => pure ()
  | some k =>
    let _ ← logout k
  ask (I := apiIface) (.update ⟨"", ""⟩)

end NexusVPN.Client.Api
