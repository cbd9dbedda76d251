import NexusVPN.Backend.Accounts

/-! # AuthService and PairingService

    `usecase/auth_service.go`, and the part of `usecase/pairing_service.go` and
    `auth/pairing.go` that redeems a pairing token, as programs over the interfaces of
    `Accounts`.

    What a request draws at random, or is told by another server, is fixed when it comes in:
    these are its `Draws`.  Audit records are left out. -/

namespace NexusVPN.Backend.Auth

/-! ## Surroundings -/

structure GoogleUserInfo where
  sub : String
  email : String
  name : String

/-- How the services are set up.  The limiter and the OAuth provider may be absent. -/
structure AuthConfig where
  limiter : Bool
  google : Bool
  refreshTTL : Int
  accessTTLSeconds : Int
  resetTTL : Int
  pairingTTL : Int

/-- What a request draws. -/
structure Draws where
  /-- `passwords.Hash`. -/
  hash : String → Except DomainError String
  /-- `mfa.GenerateSecret`, for an e-mail address. -/
  secret : String → Except DomainError (String × String)
  /-- `tokens.IssueAccessToken`. -/
  access : UUID → String → Except DomainError String
  /-- `auth.NewOpaqueRefreshToken`, for a token that is handed out. -/
  token : Except DomainError String
  /-- The same, for a password that nobody is told. -/
  password : Except DomainError String
  /-- `google.Exchange`. -/
  exchange : String → Except DomainError GoogleUserInfo
  /-- `uuid.New`, for an account and for a token. -/
  userID : UUID
  rowID : UUID

structure AuthResult where
  accessToken : String
  refreshToken : String
  expiresIn : Int
  mfaRequired : Bool
deriving DecidableEq

structure ClaimedPairing where
  auth : AuthResult
  networkID : String
  email : String

/-! ## Programs -/

abbrev AuthSvc := ExceptT DomainError (Prog authIface)

/-- Make a call, returning its error to the caller. -/
def call (c : AuthCall) : AuthSvc c.Result := Prog.attempt (R := AuthCall.Result) c

/-- Make a call and look at the error, if there is one. -/
def tryCall (c : AuthCall) : AuthSvc (Except DomainError c.Result) :=
  Prog.tryCall (R := AuthCall.Result) c

/-- `if !b { return err }`. -/
def require (b : Bool) (err : DomainError) : AuthSvc Unit := if b then pure () else throw err

/-- What was drawn, or the error in place of it. -/
def drawn {α : Type} : Except DomainError α → AuthSvc α
  | .ok a => pure a
  | .error e => throw e

def loginPerAccount : Nat := 10
def loginPerAddress : Nat := 30
def registerPerAddress : Nat := 5
def resetPerAccount : Nat := 3
def resetPerAddress : Nat := 10

/-- A minute. -/
def authRateWindow : Int := 60000000000

section

variable (lib : AuthLib) (cfg : AuthConfig) (d : Draws)

/-- `allow`: a limiter that fails allows everything. -/
def allow (key : String) (limit : Nat) : AuthSvc Bool := do
  if cfg.limiter then
    match ← tryCall (.allow key limit authRateWindow) with
    | .ok allowed => return allowed
    | .error _ => return true
  else return true

/-- `allow(key, limit) && allow(key', limit')`, where the second is asked only after the first. -/
def allowBoth (key : String) (limit : Nat) (key' : String) (limit' : Nat) : AuthSvc Bool := do
  if ← allow cfg key limit then allow cfg key' limit' else return false

def register (email password displayName ipAddress : String) : AuthSvc User := do
  require (← allow cfg ("register-ip:" ++ ipAddress) registerPerAddress) .forbidden
  match ← tryCall (.users (.getByEmail email)) with
  | .ok _ => throw .alreadyExists
  | .error .notFound =>
    match d.hash password with
    | .error e => throw (.other ("hash password: " ++ e.error))
    | .ok hash =>
      call (.users (.create {
        id := d.userID, email := email, passwordHash := hash, displayName := displayName
        status := .active, mfaSecret := "", mfaEnabled := false, oauthProvider := none
        oauthSubject := none, emailVerifiedAt := none, createdAt := 0, updatedAt := 0 }))
  | .error e => throw e

def issueTokenPair (u : User) (ipAddress userAgent : String) : AuthSvc AuthResult := do
  let access ← drawn (d.access u.id u.email)
  let raw ← drawn d.token
  let now ← call .now
  call (.refresh (.create {
    id := d.rowID, userID := u.id, tokenHash := lib.hashToken raw, userAgent := userAgent
    ipAddress := ipAddress, expiresAt := now + cfg.refreshTTL, revokedAt := none
    createdAt := 0 }))
  return ⟨access, raw, cfg.accessTTLSeconds, false⟩

/-- The part of `Login` that checks the credentials for an account. -/
def loginAs (u : User) (password mfaCode ipAddress userAgent : String) : AuthSvc AuthResult := do
  require (← call (.verify u.passwordHash password)) .invalidCredentials
  if u.mfaEnabled then
    if mfaCode = "" then return ⟨"", "", 0, true⟩
    require (← call (.validate u.mfaSecret mfaCode)) .invalidMFACode
  issueTokenPair lib cfg d u ipAddress userAgent

def login (email password mfaCode ipAddress userAgent : String) : AuthSvc AuthResult := do
  let allowed ← allowBoth cfg ("login:" ++ email) loginPerAccount
    ("login-ip:" ++ ipAddress) loginPerAddress
  require allowed .forbidden
  match ← tryCall (.users (.getByEmail email)) with
  | .error .notFound => throw .invalidCredentials
  | .error e => throw e
  | .ok u =>
    require (u.status ≠ .disabled) .forbidden
    loginAs lib cfg d u password mfaCode ipAddress userAgent

/-- `Refresh`: the token is revoked, and a new pair is issued. -/
def refresh (rawRefreshToken ipAddress userAgent : String) : AuthSvc AuthResult := do
  match ← tryCall (.refresh (.getByHash (lib.hashToken rawRefreshToken))) with
  | .error .notFound => throw .tokenInvalid
  | .error e => throw e
  | .ok rt =>
    require (rt.revokedAt = none) .tokenRevoked
    let now ← call .now
    require (!now.after rt.expiresAt) .tokenExpired
    let u ← call (.users (.getByID rt.userID))
    call (.refresh (.revoke rt.id))
    issueTokenPair lib cfg d u ipAddress userAgent

def logout (rawRefreshToken : String) : AuthSvc Unit := do
  if rawRefreshToken = "" then return ()
  match ← tryCall (.refresh (.getByHash (lib.hashToken rawRefreshToken))) with
  | .error .notFound => return ()
  | .error e => throw e
  | .ok rt => call (.refresh (.revoke rt.id))

/-- `EnableMFA`: whatever secret there was is replaced. -/
def enableMFA (userID : UUID) : AuthSvc (String × String) := do
  let u ← call (.users (.getByID userID))
  let (secret, url) ← drawn (d.secret u.email)
  let _ ← call (.users (.update { u with mfaSecret := secret, mfaEnabled := false }))
  return (secret, url)

def verifyMFA (userID : UUID) (code : String) : AuthSvc Unit := do
  let u ← call (.users (.getByID userID))
  require (u.mfaSecret ≠ "") .invalidInput
  require (← call (.validate u.mfaSecret code)) .invalidMFACode
  let _ ← call (.users (.update { u with mfaEnabled := true }))

/-- `ForgotPassword`: it succeeds silently over the budget, and without an account. -/
def forgotPassword (email ipAddress : String) : AuthSvc String := do
  if ← allowBoth cfg ("reset:" ++ email) resetPerAccount ("reset-ip:" ++ ipAddress)
      resetPerAddress then
    match ← tryCall (.users (.getByEmail email)) with
    | .error .notFound => return ""
    | .error e => throw e
    | .ok u =>
      let raw ← drawn d.token
      let now ← call .now
      call (.resets (.create {
        id := d.rowID, userID := u.id, tokenHash := lib.hashToken raw
        expiresAt := now + cfg.resetTTL, usedAt := none, createdAt := 0 }))
      return raw
  else return ""

def resetPassword (rawToken newPassword : String) : AuthSvc Unit := do
  match ← tryCall (.resets (.getByHash (lib.hashToken rawToken))) with
  | .error .notFound => throw .tokenInvalid
  | .error e => throw e
  | .ok pr =>
    require (pr.usedAt = none) .tokenInvalid
    let now ← call .now
    require (!now.after pr.expiresAt) .tokenExpired
    let u ← call (.users (.getByID pr.userID))
    let hash ← drawn (d.hash newPassword)
    let u ← call (.users (.update { u with passwordHash := hash }))
    call (.resets (.markUsed pr.id))
    call (.refresh (.revokeAllForUser u.id))

/-- The part of `GoogleCallback` that finds the account, and links it if only the e-mail
    address is known yet. -/
def linkedAccount (info : GoogleUserInfo) : AuthSvc (Option User) := do
  match ← tryCall (.users (.getByOAuthSubject "google" info.sub)) with
  | .ok u => return some u
  | .error .notFound =>
    match ← tryCall (.users (.getByEmail info.email)) with
    | .ok existing =>
      let u ← call (.users (.update { existing with
        oauthProvider := some "google", oauthSubject := some info.sub }))
      return some u
    | .error .notFound => return none
    | .error e => throw e
  | .error e => throw e

/-- The part of `GoogleCallback` that makes an account. -/
def createdAccount (info : GoogleUserInfo) : AuthSvc User := do
  let password ← drawn d.password
  let hash ← drawn (d.hash password)
  let now ← call .now
  call (.users (.create {
    id := d.userID, email := info.email, passwordHash := hash, displayName := info.name
    status := .active, mfaSecret := "", mfaEnabled := false, oauthProvider := some "google"
    oauthSubject := some info.sub, emailVerifiedAt := some now, createdAt := 0, updatedAt := 0 }))

def googleCallback (code ipAddress userAgent : String) : AuthSvc AuthResult := do
  require cfg.google .invalidInput
  match d.exchange code with
  | .error e => throw (.other ("google exchange: " ++ e.error))
  | .ok info =>
    match ← linkedAccount info with
    | some u => issueTokenPair lib cfg d u ipAddress userAgent
    | none =>
      let u ← createdAccount d info
      issueTokenPair lib cfg d u ipAddress userAgent

/-- `PairingManager.Consume`.  The clock is read when the token is parsed, and again under
    the lock. -/
def consume (token : String) : AuthSvc PairingClaims := do
  let claims ← call (.parsePairing token)
  require (claims.id ≠ "") (.other "auth: pairing token cannot be tracked")
  let now ← call .now
  call (.spendPairing claims.id (claims.expiresAt.getD (now + cfg.pairingTTL)))
  return claims

/-- `PairingService.Claim`. -/
def claim (token ipAddress userAgent : String) : AuthSvc ClaimedPairing := do
  let claims ← (consume cfg token).adapt fun _ => DomainError.unauthorized
  match UUID.parse claims.userID with
  | none => throw .unauthorized
  | some userID =>
    match ← tryCall (.users (.getByID userID)) with
    | .error _ => throw .unauthorized
    | .ok u =>
      let result ← issueTokenPair lib cfg d u ipAddress userAgent
      return ⟨result, claims.networkID, u.email⟩

end

/-! ## Requests -/

inductive AuthRequest where
  | register (email password displayName ipAddress : String)
  | login (email password mfaCode ipAddress userAgent : String)
  | refresh (rawRefreshToken ipAddress userAgent : String)
  | logout (rawRefreshToken : String)
  | enableMFA (userID : UUID)
  | verifyMFA (userID : UUID) (code : String)
  | forgotPassword (email ipAddress : String)
  | resetPassword (rawToken newPassword : String)
  | googleCallback (code ipAddress userAgent : String)
  | claim (token ipAddress userAgent : String)

@[reducible] def AuthRequest.Result : AuthRequest → Type
  | .register .. => User
  | .login .. | .refresh .. | .googleCallback .. => AuthResult
  | .logout _ | .verifyMFA .. | .resetPassword .. => Unit
  | .enableMFA _ => String × String
  | .forgotPassword .. => String
  | .claim .. => ClaimedPairing

def AuthRequest.serve (lib : AuthLib) (cfg : AuthConfig) (d : Draws) :
    (r : AuthRequest) → AuthSvc r.Result
  | .register email password displayName ip => Auth.register cfg d email password displayName ip
  | .login email password mfaCode ip agent => Auth.login lib cfg d email password mfaCode ip agent
  | .refresh raw ip agent => Auth.refresh lib cfg d raw ip agent
  | .logout raw => Auth.logout lib raw
  | .enableMFA userID => Auth.enableMFA d userID
  | .verifyMFA userID code => Auth.verifyMFA userID code
  | .forgotPassword email ip => Auth.forgotPassword lib cfg d email ip
  | .resetPassword raw password => Auth.resetPassword lib d raw password
  | .googleCallback code ip agent => Auth.googleCallback lib cfg d code ip agent
  | .claim token ip agent => Auth.claim lib cfg d token ip agent

/-! ## A server to try things on -/

def plainLib : AuthLib where
  std := ⟨fun _ => none, fun _ => "", (· == ·), id⟩
  verify hash password := hash == "hash of " ++ password
  validate secret code _ := code == "code for " ++ secret
  hashToken raw := "hash of " ++ raw
  parsePairing _ := .error .tokenInvalid

/-- Five minutes for a pairing token. -/
def plainConfig : AuthConfig := ⟨true, true, 1000000000, 60, 1000000000, 300000000000⟩

def plainDraws : Draws where
  hash password := .ok ("hash of " ++ password)
  secret _ := .ok ("secret", "otpauth://totp")
  access _ _ := .ok "access"
  token := .ok "token"
  password := .ok "random"
  exchange _ := .ok ⟨"sub", "owner@home", "Owner"⟩
  userID := .ofBytes [9]
  rowID := .ofBytes [2]

def plainUser : User where
  id := .ofBytes [1]
  email := "owner@home"
  passwordHash := "hash of old"
  displayName := "Owner"
  status := .active
  mfaSecret := ""
  mfaEnabled := false
  oauthProvider := none
  oauthSubject := none
  emailVerifiedAt := none
  createdAt := 0
  updatedAt := 0

/-- A session of that user. -/
def plainSession : RefreshToken where
  id := .ofBytes [3]
  userID := .ofBytes [1]
  tokenHash := "hash of session"
  userAgent := ""
  ipAddress := ""
  expiresAt := 1000
  revokedAt := none
  createdAt := 0

/-- A reset that the user has asked for. -/
def plainReset : PasswordReset where
  id := .ofBytes [4]
  userID := .ofBytes [1]
  tokenHash := "hash of reset"
  expiresAt := 1000
  usedAt := none
  createdAt := 0

def plainState (u : User) : AuthState :=
  { AuthState.empty with
    users := Table.empty.put u
    refresh := Table.empty.put plainSession
    resets := Table.empty.put plainReset }

end NexusVPN.Backend.Auth
