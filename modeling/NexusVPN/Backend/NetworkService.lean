import NexusVPN.Backend.Store

/-! # NetworkService

    `usecase/network_service.go`: networks, invites and membership.  The services
    are programs over the repository interface, one call of a repository method
    being one step.  Audit records are written in the background by a goroutine that
    nothing waits for, and are left out. -/

namespace NexusVPN.Backend

/-- Service programs: repository calls, and an error that ends the request. -/
abbrev Svc := ExceptT DomainError (Prog repoIface)

/-- Call a repository, returning its error to the caller. -/
def call (c : RepoCall) : Svc c.Result := Prog.attempt (R := RepoCall.Result) c

/-- Call a repository and look at the error, if there is one. -/
def tryCall (c : RepoCall) : Svc (Except DomainError c.Result) :=
  Prog.tryCall (R := RepoCall.Result) c

/-- `if !b { return err }`. -/
def require (b : Bool) (err : DomainError) : Svc Unit := if b then pure () else throw err

namespace NetworkService

/-- `requireMembership`: the caller's membership row, or `ErrForbidden`. -/
def requireMembership (networkID userID : UUID) : Svc NetworkMember := do
  match ← tryCall (.members (.get networkID userID)) with
  | .ok m => return m
  | .error .notFound => throw .forbidden
  | .error e => throw e

def requireRole (role : NetworkRole) (allowed : List NetworkRole) : Svc Unit :=
  require (allowed.contains role) .forbidden

/-- The member and device counts, each only if the repository can tell. -/
def withCounts (n : Network) : Svc Network := do
  let members ← tryCall (.networks (.countMembers n.id))
  let devices ← tryCall (.networks (.countDevices n.id))
  return { n with
    memberCount := members.toOption.getD n.memberCount
    deviceCount := devices.toOption.getD n.deviceCount }

variable (lib : StdLib)

/-- `Create`: the caller becomes the owner. -/
def create (ownerID : UUID) (name description cidr : String) (dnsServers : List String) :
    Svc Network := do
  require (!isBlank name) .invalidInput
  require (lib.parseCIDR cidr).isSome .invalidInput
  let code ← call .generateInviteCode
  let id ← call .newID
  let n ← call (.networks (.create {
    id := id, name := name, description := description, cidr := cidr, dnsServers := dnsServers
    ownerID := ownerID, inviteCode := code, inviteCodeExpiresAt := none, inviteEnabled := true
    allowBroadcast := true, createdAt := 0, updatedAt := 0, memberCount := 0, deviceCount := 0
    callerRole := .unset }))
  let memberID ← call .newID
  let _ ← call (.members (.create ⟨memberID, n.id, ownerID, .owner, 0⟩))
  return { n with callerRole := .owner, memberCount := 1, deviceCount := 0 }

def listForUser (userID : UUID) : Svc (List Network) := do
  let networks ← call (.networks (.listForUser userID))
  networks.mapM withCounts

def get (networkID userID : UUID) : Svc Network := do
  let member ← requireMembership networkID userID
  let n ← call (.networks (.getByID networkID))
  withCounts { n with callerRole := member.role }

/-- The new address range of `Update`, which has to parse. -/
def newCIDR (n : Network) : Option String → Svc Network
  | none => return n
  | some cidr => do
    require (lib.parseCIDR cidr).isSome .invalidInput
    return { n with cidr := cidr }

/-- `Update`: owners and admins only.  What is absent stays as it is. -/
def update (networkID userID : UUID) (name description cidr : Option String)
    (dnsServers : Option (List String)) : Svc Network := do
  let member ← requireMembership networkID userID
  requireRole member.role [.owner, .admin]
  let n ← call (.networks (.getByID networkID))
  let n := { n with name := name.getD n.name, description := description.getD n.description }
  let n ← newCIDR lib n cidr
  let n ← call (.networks (.update { n with dnsServers := dnsServers.getD n.dnsServers }))
  return { n with callerRole := member.role }

/-- `Delete`: the owner only. -/
def delete (networkID userID : UUID) : Svc Unit := do
  let member ← requireMembership networkID userID
  requireRole member.role [.owner]
  call (.networks (.delete networkID))

/-- `Join`: by invite code, and idempotent for those who are members already. -/
def join (userID : UUID) (inviteCode : String) : Svc Network := do
  match ← tryCall (.networks (.getByInviteCode inviteCode)) with
  | .error .notFound => throw .inviteInvalid
  | .error e => throw e
  | .ok n =>
    require n.inviteEnabled .inviteInvalid
    let now ← call .now
    require (!NetworkRepo.inviteExpired n now) .inviteInvalid
    match ← tryCall (.members (.get n.id userID)) with
    | .ok existing => withCounts { n with callerRole := existing.role }
    | .error _ =>
      let id ← call .newID
      let _ ← call (.members (.create ⟨id, n.id, userID, .member, 0⟩))
      withCounts { n with callerRole := .member }

/-- `RotateInvite`: owners and admins only.  The new code does not expire. -/
def rotateInvite (networkID userID : UUID) : Svc (String × Option Time) := do
  let member ← requireMembership networkID userID
  requireRole member.role [.owner, .admin]
  let code ← call .generateInviteCode
  call (.networks (.rotateInviteCode networkID code none))
  return (code, none)

def listMembers (networkID userID : UUID) : Svc (List NetworkMember) := do
  let _ ← requireMembership networkID userID
  call (.members (.list networkID))

/-- `UpdateMemberRole`: only the owner grants or revokes admin, and nobody touches
    the owner. -/
def updateMemberRole (networkID callerID targetUserID : UUID) (newRole : NetworkRole) :
    Svc Unit := do
  let caller ← requireMembership networkID callerID
  require (newRole = .admin ∨ newRole = .member) .invalidInput
  let target ← call (.members (.get networkID targetUserID))
  require (target.role ≠ .owner) .lastOwner
  if newRole = .admin ∨ target.role = .admin then requireRole caller.role [.owner]
  else requireRole caller.role [.owner, .admin]
  call (.members (.updateRole networkID targetUserID newRole))

/-- `RemoveMember`: everybody may leave but the owner; admins remove members, and
    the owner anybody. -/
def removeMember (networkID callerID targetUserID : UUID) : Svc Unit := do
  let caller ← requireMembership networkID callerID
  let target ← call (.members (.get networkID targetUserID))
  require (target.role ≠ .owner) .lastOwner
  if callerID ≠ targetUserID then
    requireRole caller.role [.owner, .admin]
    -- Admins cannot remove other admins, only the owner can.
    require (!(target.role = .admin ∧ caller.role ≠ .owner)) .forbidden
  call (.members (.delete networkID targetUserID))

end NetworkService

end NexusVPN.Backend
