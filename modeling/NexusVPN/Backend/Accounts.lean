import NexusVPN.Backend.Store

/-! # Accounts and their tokens

    The part of `repository/embedded` that keeps accounts, refresh tokens, password reset
    tokens and rate limits, and the set of spent pairing tokens of `auth/pairing.go`.  A
    method holds its lock from beginning to end, and is one step.

    Passwords, one-time codes and hashes of tokens are computed by libraries; they reach the
    model as an `AuthLib`. -/

namespace NexusVPN.Backend.Auth

/-! ## Records -/

inductive UserStatus where
  | active
  | disabled
  | pendingVerification
deriving DecidableEq

structure User where
  id : UUID
  email : String
  passwordHash : String
  displayName : String
  status : UserStatus
  mfaSecret : String
  mfaEnabled : Bool
  oauthProvider : Option String
  oauthSubject : Option String
  emailVerifiedAt : Option Time
  createdAt : Time
  updatedAt : Time
deriving DecidableEq

structure RefreshToken where
  id : UUID
  userID : UUID
  tokenHash : String
  userAgent : String
  ipAddress : String
  expiresAt : Time
  revokedAt : Option Time
  createdAt : Time
deriving DecidableEq

structure PasswordReset where
  id : UUID
  userID : UUID
  tokenHash : String
  expiresAt : Time
  usedAt : Option Time
  createdAt : Time

structure LimitEntry where
  count : Nat
  resets : Time
  limitAt : Nat

/-- What a pairing token says.  One without an expiry is never issued. -/
structure PairingClaims where
  id : String
  userID : String
  networkID : String
  expiresAt : Option Time

/-- Functions of libraries that the services and repositories call. -/
structure AuthLib where
  std : StdLib
  /-- `bcrypt.CompareHashAndPassword`. -/
  verify : (hash password : String) → Bool
  /-- `totp.ValidateCustom` at that time. -/
  validate : (secret code : String) → Time → Bool
  /-- `auth.HashToken`. -/
  hashToken : String → String
  /-- The claims of a token that bears the right signature, or the error. -/
  parsePairing : String → Except DomainError PairingClaims

/-! ## The state -/

structure AuthState where
  users : Table UUID User User.id
  refresh : Table UUID RefreshToken RefreshToken.id
  resets : Table UUID PasswordReset PasswordReset.id
  limits : GoMap String LimitEntry
  /-- `PairingManager.used`. -/
  used : GoMap String Time

def AuthState.empty : AuthState := ⟨.empty, .empty, .empty, ∅, ∅⟩

/-- What a call may read from outside. -/
structure AuthInput where
  now : Time
  fresh : UUID
  order : MapOrder UUID
  idOrder : MapOrder String

instance : Inhabited AuthInput := ⟨⟨0, .nil, .asStored, .asStored⟩⟩

abbrev Method (α : Type) := AuthInput → AuthState → Except DomainError α × AuthState

/-! ## Users -/

namespace UserRepo

def create (lib : StdLib) (u : User) : Method User := fun i s =>
  if (s.users.values i.order).any (lib.equalFold ·.email u.email) then (.error .alreadyExists, s)
  else
    let u := { u with id := orFresh u.id i.fresh, createdAt := i.now, updatedAt := i.now }
    (.ok u, { s with users := s.users.put u })

def getByID (id : UUID) : Method User := fun _ s =>
  match s.users.get id with
  | none => (.error .notFound, s)
  | some u => (.ok u, s)

def getByEmail (lib : StdLib) (email : String) : Method User := fun i s =>
  match (s.users.values i.order).find? (lib.equalFold ·.email email) with
  | none => (.error .notFound, s)
  | some u => (.ok u, s)

def getByOAuthSubject (provider subject : String) : Method User := fun i s =>
  match (s.users.values i.order).find? fun u =>
      u.oauthProvider == some provider && u.oauthSubject == some subject with
  | none => (.error .notFound, s)
  | some u => (.ok u, s)

/-- The whole record is stored. -/
def update (u : User) : Method User := fun i s =>
  match s.users.get u.id with
  | none => (.error .notFound, s)
  | some _ =>
    let u := { u with updatedAt := i.now }
    (.ok u, { s with users := s.users.put u })

end UserRepo

/-! ## Refresh tokens -/

namespace RefreshRepo

def create (rt : RefreshToken) : Method Unit := fun i s =>
  let rt := { rt with id := orFresh rt.id i.fresh, createdAt := i.now }
  (.ok (), { s with refresh := s.refresh.put rt })

def getByHash (hash : String) : Method RefreshToken := fun i s =>
  match (s.refresh.values i.order).find? (·.tokenHash == hash) with
  | none => (.error .notFound, s)
  | some rt => (.ok rt, s)

def revoke (id : UUID) : Method Unit := fun i s =>
  match s.refresh.get id with
  | none => (.error .notFound, s)
  | some rt => (.ok (), { s with refresh := s.refresh.put { rt with revokedAt := some i.now } })

/-- One round of the loop of `RevokeAllForUser`. -/
def revokeIf (userID : UUID) (now : Time) (rt : RefreshToken) : RefreshToken :=
  if rt.userID = userID ∧ rt.revokedAt = none then { rt with revokedAt := some now } else rt

theorem revokeIf_id (userID : UUID) (now : Time) (rt : RefreshToken) :
    (revokeIf userID now rt).id = rt.id := by
  unfold revokeIf
  split <;> rfl

def revokeAllForUser (userID : UUID) : Method Unit := fun i s =>
  (.ok (), { s with
    refresh := s.refresh.mapValues (revokeIf userID i.now) (revokeIf_id userID i.now) })

end RefreshRepo

/-! ## Password resets -/

namespace ResetRepo

def create (pr : PasswordReset) : Method Unit := fun i s =>
  let pr := { pr with id := orFresh pr.id i.fresh, createdAt := i.now }
  (.ok (), { s with resets := s.resets.put pr })

def getByHash (hash : String) : Method PasswordReset := fun i s =>
  match (s.resets.values i.order).find? (·.tokenHash == hash) with
  | none => (.error .notFound, s)
  | some pr => (.ok pr, s)

def markUsed (id : UUID) : Method Unit := fun i s =>
  match s.resets.get id with
  | none => (.error .notFound, s)
  | some pr => (.ok (), { s with resets := s.resets.put { pr with usedAt := some i.now } })

end ResetRepo

/-! ## Limits -/

namespace Limiter

/-- The entry that counts a request made now. -/
def entryAt (s : AuthState) (key : String) (now : Time) (window : Int) : LimitEntry :=
  match s.limits.lookup key with
  | none => ⟨0, now + window, 0⟩
  | some e => if now.after e.resets then ⟨0, now + window, 0⟩ else e

def allow (key : String) (limit : Nat) (window : Int) : Method Bool := fun i s =>
  let e := entryAt s key i.now window
  (.ok (decide (e.count + 1 ≤ limit)),
    { s with limits := s.limits.insert key { e with count := e.count + 1, limitAt := limit } })

end Limiter

/-! ## Pairing tokens -/

namespace PairingManager

/-- `jwt.ParseWithClaims`: the signature, and then the expiry if there is one. -/
def parse (lib : AuthLib) (token : String) : Method PairingClaims := fun i s =>
  match lib.parsePairing token with
  | .error e => (.error e, s)
  | .ok claims =>
    if claims.expiresAt.all (i.now < ·) then (.ok claims, s)
    else (.error (.other "token has invalid claims: token is expired"), s)

def sweepLocked (ord : MapOrder String) (now : Time) (used : GoMap String Time) :
    GoMap String Time :=
  used.deleteLoop ord fun _ expires => now.after expires

/-- What `Consume` does while it holds the lock. -/
def spend (id : String) (expires : Time) : Method Unit := fun i s =>
  let used := sweepLocked i.idOrder i.now s.used
  match used.lookup id with
  | some _ => (.error (.other "auth: pairing token has already been used"), { s with used := used })
  | none => (.ok (), { s with used := used.insert id expires })

end PairingManager

/-! ## The interfaces -/

inductive UserCall where
  | create (u : User)
  | getByID (id : UUID)
  | getByEmail (email : String)
  | getByOAuthSubject (provider subject : String)
  | update (u : User)

inductive RefreshCall where
  | create (rt : RefreshToken)
  | getByHash (hash : String)
  | revoke (id : UUID)
  | revokeAllForUser (userID : UUID)

inductive ResetCall where
  | create (pr : PasswordReset)
  | getByHash (hash : String)
  | markUsed (id : UUID)

/-- Everything the services call.  From `verify` on these are not repositories, but what they
    answer is worth a step of its own: whether a password or a code was checked, and when. -/
inductive AuthCall where
  | users (c : UserCall)
  | refresh (c : RefreshCall)
  | resets (c : ResetCall)
  | allow (key : String) (limit : Nat) (window : Int)
  | verify (hash password : String)
  | validate (secret code : String)
  | parsePairing (token : String)
  | spendPairing (id : String) (expires : Time)
  | now

@[reducible] def RefreshCall.Result : RefreshCall → Type
  | .getByHash _ => RefreshToken
  | .create _ | .revoke _ | .revokeAllForUser _ => Unit

@[reducible] def ResetCall.Result : ResetCall → Type
  | .getByHash _ => PasswordReset
  | .create _ | .markUsed _ => Unit

@[reducible] def AuthCall.Result : AuthCall → Type
  | .users _ => User
  | .refresh c => c.Result
  | .resets c => c.Result
  | .allow _ _ _ | .verify _ _ | .validate _ _ => Bool
  | .parsePairing _ => PairingClaims
  | .spendPairing _ _ => Unit
  | .now => Time

@[reducible] def authIface : Iface := .failing AuthCall AuthCall.Result DomainError

open RefreshRepo UserRepo

namespace AuthState

variable (lib : AuthLib)

def userMethod : UserCall → Method User
  | .create u => create lib.std u
  | .getByID id => getByID id
  | .getByEmail email => getByEmail lib.std email
  | .getByOAuthSubject provider subject => getByOAuthSubject provider subject
  | .update u => update u

def refreshMethod : (c : RefreshCall) → Method c.Result
  | .create rt => create rt
  | .getByHash hash => getByHash hash
  | .revoke id => revoke id
  | .revokeAllForUser userID => revokeAllForUser userID

def resetMethod : (c : ResetCall) → Method c.Result
  | .create pr => ResetRepo.create pr
  | .getByHash hash => ResetRepo.getByHash hash
  | .markUsed id => ResetRepo.markUsed id

/-- What each call does. -/
def method : (c : AuthCall) → Method c.Result
  | .users c => userMethod lib c
  | .refresh c => refreshMethod c
  | .resets c => resetMethod c
  | .allow key limit window => Limiter.allow key limit window
  | .verify hash password => fun _ s => (.ok (lib.verify hash password), s)
  | .validate secret code => fun i s => (.ok (lib.validate secret code i.now), s)
  | .parsePairing token => PairingManager.parse lib token
  | .spendPairing id expires => PairingManager.spend id expires
  | .now => fun i s => (.ok i.now, s)

def handler : Handler authIface AuthState AuthInput := fun c i s => method lib c i s

end AuthState

end NexusVPN.Backend.Auth
