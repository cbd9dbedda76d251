import Mathlib.Data.List.Sort
import NexusVPN.Backend.Address
import NexusVPN.Backend.RelayRepo

/-! # The embedded store

    `repository/embedded`: every collection in memory behind one lock, so that each
    repository method is one atomic operation on the `Store`.  What a method reads from
    outside (the clock, a fresh id, the order in which Go visits a map) comes with the call
    as a `RepoInput`.

    Left out: the flag that schedules the next snapshot, the log collections, and the
    accounts.  The event bus is kept as the list of what was published on it. -/

namespace NexusVPN.Backend

/-! ## State -/

structure MemberKey where
  network : UUID
  user : UUID
deriving DecidableEq

def NetworkMember.key (m : NetworkMember) : MemberKey := ⟨m.networkID, m.userID⟩

structure PresenceEntry where
  networkID : UUID
  endpoint : PresenceEndpoint
  expires : Time

structure IceKey where
  source : UUID
  target : UUID
deriving DecidableEq

structure IceEntry where
  candidates : List ICECandidate
  expires : Time

structure Store where
  networks : Table UUID Network Network.id
  members : Table MemberKey NetworkMember NetworkMember.key
  devices : Table UUID Device Device.id
  relays : Relays
  presence : GoMap UUID PresenceEntry
  ice : GoMap IceKey IceEntry
  /-- Everything published on the peer event bus, newest first. -/
  published : List PeerEvent

/-- `Open` of a file that does not exist. -/
def Store.empty : Store := ⟨.empty, .empty, .empty, .empty, ∅, ∅, []⟩

/-- What a call may read from outside the store. -/
structure RepoInput where
  now : Time
  fresh : UUID
  order : MapOrder UUID
  memberOrder : MapOrder MemberKey
  /-- What drawing an invite code comes to. -/
  inviteCode : Except DomainError String
  /-- What signing a relay session token comes to. -/
  signed : Except DomainError String

instance : Inhabited RepoInput := ⟨⟨0, .nil, .asStored, .asStored, .ok "", .ok ""⟩⟩

/-- A method of a repository: it answers, and may have changed the store. -/
abbrev Method (α : Type) := RepoInput → Store → Except DomainError α × Store

/-- `if id == uuid.Nil { id = uuid.New() }`. -/
def orFresh (id fresh : UUID) : UUID := if id = .nil then fresh else id

/-- `sort.Slice` by a time.  The sort is not stable, but what it starts from is in
    any order already. -/
def sortByTime {α : Type} (time : α → Time) (xs : List α) : List α :=
  xs.insertionSort fun a b => time a ≤ time b

/-! ## Networks -/

namespace NetworkRepo

def create (n : Network) : Method Network := fun i s =>
  if (s.networks.values i.order).any (·.inviteCode == n.inviteCode) then
    (.error .alreadyExists, s)
  else
    let n := { n with id := orFresh n.id i.fresh, createdAt := i.now, updatedAt := i.now }
    (.ok n, { s with networks := s.networks.put n })

def getByID (id : UUID) : Method Network := fun _ s =>
  match s.networks.get id with
  | none => (.error .notFound, s)
  | some n => (.ok n, s)

/-- The code has an expiry, and it has passed. -/
def inviteExpired (n : Network) (now : Time) : Bool := n.inviteCodeExpiresAt.any (now.after ·)

def getByInviteCode (lib : StdLib) (code : String) : Method Network := fun i s =>
  match (s.networks.values i.order).find? (fun n => lib.equalFold n.inviteCode code) with
  | none => (.error .notFound, s)
  -- An expired code is not a code.
  | some n => if inviteExpired n i.now then (.error .notFound, s) else (.ok n, s)

def listForUser (userID : UUID) : Method (List Network) := fun i s =>
  let memberships := (s.members.values i.memberOrder).filter (·.userID == userID)
  (.ok (sortByTime Network.createdAt
    (memberships.filterMap fun m => s.networks.get m.networkID)), s)

def update (n : Network) : Method Network := fun i s =>
  match s.networks.get n.id with
  | none => (.error .notFound, s)
  | some _ =>
    let n := { n with updatedAt := i.now }
    (.ok n, { s with networks := s.networks.put n })

/-- The cascade that Postgres does with `ON DELETE CASCADE` is explicit here. -/
def delete (id : UUID) : Method Unit := fun i s =>
  match s.networks.get id with
  | none => (.error .notFound, s)
  | some _ =>
    (.ok (), { s with
      networks := s.networks.del id
      members := s.members.deleteLoop i.memberOrder (·.networkID == id)
      devices := s.devices.deleteLoop i.order (·.networkID == id) })

def rotateInviteCode (id : UUID) (code : String) (expires : Option Time) : Method Unit := fun i s =>
  match s.networks.get id with
  | none => (.error .notFound, s)
  | some n =>
    let n := { n with inviteCode := code, inviteCodeExpiresAt := expires, updatedAt := i.now }
    (.ok (), { s with networks := s.networks.put n })

def countMembers (networkID : UUID) : Method Nat := fun i s =>
  (.ok ((s.members.values i.memberOrder).countP (·.networkID == networkID)), s)

def countDevices (networkID : UUID) : Method Nat := fun i s =>
  (.ok ((s.devices.values i.order).countP (·.networkID == networkID)), s)

end NetworkRepo

/-! ## Members -/

namespace MemberRepo

def create (m : NetworkMember) : Method NetworkMember := fun i s =>
  match s.members.get m.key with
  | some _ => (.error .alreadyExists, s)
  | none =>
    let m := { m with id := orFresh m.id i.fresh, joinedAt := i.now }
    (.ok m, { s with members := s.members.put m })

def get (networkID userID : UUID) : Method NetworkMember := fun _ s =>
  match s.members.get ⟨networkID, userID⟩ with
  | none => (.error .notFound, s)
  | some m => (.ok m, s)

def list (networkID : UUID) : Method (List NetworkMember) := fun i s =>
  (.ok (sortByTime NetworkMember.joinedAt
    ((s.members.values i.memberOrder).filter (·.networkID == networkID))), s)

def updateRole (networkID userID : UUID) (role : NetworkRole) : Method Unit := fun _ s =>
  match s.members.get ⟨networkID, userID⟩ with
  | none => (.error .notFound, s)
  | some m => (.ok (), { s with members := s.members.put { m with role := role } })

/-- A member who leaves takes their devices on that network with them. -/
def delete (networkID userID : UUID) : Method Unit := fun i s =>
  match s.members.get ⟨networkID, userID⟩ with
  | none => (.error .notFound, s)
  | some _ =>
    (.ok (), { s with
      members := s.members.del ⟨networkID, userID⟩
      devices := s.devices.deleteLoop i.order
        fun d => d.networkID == networkID && d.userID == userID })

end MemberRepo

/-! ## Devices -/

namespace DeviceRepo

def create (d : Device) : Method Device := fun i s =>
  if (s.devices.values i.order).any (·.publicKey == d.publicKey) then (.error .alreadyExists, s)
  else
    let d := { d with id := orFresh d.id i.fresh, createdAt := i.now, updatedAt := i.now }
    (.ok d, { s with devices := s.devices.put d })

def getByID (id : UUID) : Method Device := fun _ s =>
  match s.devices.get id with
  | none => (.error .notFound, s)
  | some d => (.ok d, s)

def getByPublicKey (key : String) : Method Device := fun i s =>
  match (s.devices.values i.order).find? (·.publicKey == key) with
  | none => (.error .notFound, s)
  | some d => (.ok d, s)

/-- `listDevicesLocked`. -/
def listDevices (p : Device → Bool) (i : RepoInput) (s : Store) : List Device :=
  sortByTime Device.createdAt ((s.devices.values i.order).filter p)

def listByNetwork (networkID : UUID) : Method (List Device) := fun i s =>
  (.ok (listDevices (·.networkID == networkID) i s), s)

def listPeers (deviceID : UUID) : Method (List Device) := fun i s =>
  match s.devices.get deviceID with
  | none => (.error .notFound, s)
  | some me =>
    (.ok (listDevices (fun d => d.networkID == me.networkID && d.id != deviceID) i s), s)

def update (d : Device) : Method Device := fun i s =>
  match s.devices.get d.id with
  | none => (.error .notFound, s)
  | some _ =>
    let d := { d with updatedAt := i.now }
    (.ok d, { s with devices := s.devices.put d })

/-- A nil or empty string carries no new information. -/
def orKnown (new known : Option String) : Option String :=
  match new with
  | none => known
  | some text => if text = "" then known else some text

def updateHeartbeat (id : UUID) (status : DeviceStatus) (publicIP privateIP natType : Option String)
    (sent received : Int) : Method Unit := fun i s =>
  match s.devices.get id with
  | none => (.error .notFound, s)
  | some d =>
    let d := { d with
      status := status
      lastSeenAt := some i.now
      lastPublicIP := orKnown publicIP d.lastPublicIP
      lastPrivateIP := orKnown privateIP d.lastPrivateIP
      natType := orKnown natType d.natType
      bytesSent := sent
      bytesReceived := received
      updatedAt := i.now }
    (.ok (), { s with devices := s.devices.put d })

def delete (id : UUID) : Method Unit := fun _ s =>
  match s.devices.get id with
  | none => (.error .notFound, s)
  | some _ => (.ok (), { s with devices := s.devices.del id })

def nextFreeVirtualIP (lib : StdLib) (networkID : UUID) (cidr : String) :
    Method String := fun i s =>
  match lib.parseCIDR cidr with
  | none => (.error .invalidInput, s)
  | some subnet =>
    let taken (ip : String) :=
      (s.devices.values i.order).any fun d => d.networkID == networkID && d.virtualIP == ip
    (firstFree lib subnet taken, s)

end DeviceRepo

/-! ## Presence, candidates and events -/

namespace PresenceStore

def setOnline (networkID deviceID : UUID) (ep : PresenceEndpoint) (ttl : Int) : Method Unit :=
  fun i s =>
    (.ok (), { s with presence := s.presence.insert deviceID ⟨networkID, ep, i.now + ttl⟩ })

def remove (deviceID : UUID) : Method Unit := fun _ s =>
  (.ok (), { s with presence := s.presence.erase deviceID })

def get (deviceID : UUID) : Method (Option PresenceEndpoint) := fun i s =>
  match s.presence.lookup deviceID with
  | none => (.ok none, s)
  | some e => if i.now.after e.expires then (.ok none, s) else (.ok (some e.endpoint), s)

end PresenceStore

namespace ICEStore

def put (source target : UUID) (candidates : List ICECandidate) (ttl : Int) : Method Unit :=
  fun i s => (.ok (), { s with ice := s.ice.insert ⟨source, target⟩ ⟨candidates, i.now + ttl⟩ })

def get (forDevice fromDevice : UUID) : Method (List ICECandidate) := fun i s =>
  match s.ice.lookup ⟨fromDevice, forDevice⟩ with
  | none => (.ok [], s)
  | some e => if i.now.after e.expires then (.ok [], s) else (.ok e.candidates, s)

end ICEStore

/-- `bus.Publish`, which never fails. -/
def publish (e : PeerEvent) : Method Unit := fun _ s =>
  (.ok (), { s with published := e :: s.published })

/-- `bus.Subscribe`, which never fails; what a subscriber then receives is not kept
    here. -/
def subscribe (_networkIDs : List UUID) : Method Unit := fun _ s => (.ok (), s)

/-- The relay repository within the store. -/
def allocMethod : (c : AllocCall) → Method c.Result
  | .pickLeastLoaded region => fun i s =>
    (Embedded.pickLeastLoaded s.relays i.now i.order region, s)
  | .incrementLoad id delta => fun _ s =>
    ((Embedded.incrementLoad s.relays id delta).1,
      { s with relays := (Embedded.incrementLoad s.relays id delta).2 })
  | .issue _ _ _ => fun i s => (i.signed, s)

/-! ## The repositories as one interface -/

inductive NetworkCall where
  | create (n : Network)
  | getByID (id : UUID)
  | getByInviteCode (code : String)
  | listForUser (userID : UUID)
  | update (n : Network)
  | delete (id : UUID)
  | rotateInviteCode (id : UUID) (code : String) (expires : Option Time)
  | countMembers (networkID : UUID)
  | countDevices (networkID : UUID)

inductive MemberCall where
  | create (m : NetworkMember)
  | get (networkID userID : UUID)
  | list (networkID : UUID)
  | updateRole (networkID userID : UUID) (role : NetworkRole)
  | delete (networkID userID : UUID)

inductive DeviceCall where
  | create (d : Device)
  | getByID (id : UUID)
  | getByPublicKey (key : String)
  | listByNetwork (networkID : UUID)
  | listPeers (deviceID : UUID)
  | update (d : Device)
  | updateHeartbeat (id : UUID) (status : DeviceStatus) (publicIP privateIP natType : Option String)
      (sent received : Int)
  | delete (id : UUID)
  | nextFreeVirtualIP (networkID : UUID) (cidr : String)

/-- Everything the services call.  The last three are not repositories but reach
    outside all the same: the clock, `uuid.New`, and `generateInviteCode`. -/
inductive RepoCall where
  | networks (c : NetworkCall)
  | members (c : MemberCall)
  | devices (c : DeviceCall)
  | setOnline (networkID deviceID : UUID) (ep : PresenceEndpoint) (ttl : Int)
  | setOffline (deviceID : UUID)
  | presence (deviceID : UUID)
  | putICE (source target : UUID) (candidates : List ICECandidate) (ttl : Int)
  | getICE (forDevice fromDevice : UUID)
  | publish (e : PeerEvent)
  | subscribe (networkIDs : List UUID)
  | alloc (c : AllocCall)
  | now
  | newID
  | generateInviteCode

@[reducible] def NetworkCall.Result : NetworkCall → Type
  | .create _ | .getByID _ | .getByInviteCode _ | .update _ => Network
  | .listForUser _ => List Network
  | .delete _ | .rotateInviteCode _ _ _ => Unit
  | .countMembers _ | .countDevices _ => Nat

@[reducible] def MemberCall.Result : MemberCall → Type
  | .create _ | .get _ _ => NetworkMember
  | .list _ => List NetworkMember
  | .updateRole _ _ _ | .delete _ _ => Unit

@[reducible] def DeviceCall.Result : DeviceCall → Type
  | .create _ | .getByID _ | .getByPublicKey _ | .update _ => Device
  | .listByNetwork _ | .listPeers _ => List Device
  | .updateHeartbeat .. | .delete _ => Unit
  | .nextFreeVirtualIP _ _ => String

@[reducible] def RepoCall.Result : RepoCall → Type
  | .networks c => c.Result
  | .members c => c.Result
  | .devices c => c.Result
  | .setOnline .. | .setOffline _ | .putICE .. | .publish _ | .subscribe _ => Unit
  | .presence _ => Option PresenceEndpoint
  | .getICE _ _ => List ICECandidate
  | .alloc c => c.Result
  | .now => Time
  | .newID => UUID
  | .generateInviteCode => String

@[reducible] def repoIface : Iface := .failing RepoCall RepoCall.Result DomainError

open NetworkRepo MemberRepo PresenceStore

namespace Store

variable (lib : StdLib)

def networkMethod : (c : NetworkCall) → Method c.Result
  | .create n => create n
  | .getByID id => getByID id
  | .getByInviteCode code => getByInviteCode lib code
  | .listForUser u => listForUser u
  | .update n => update n
  | .delete id => delete id
  | .rotateInviteCode id code expires => rotateInviteCode id code expires
  | .countMembers id => countMembers id
  | .countDevices id => countDevices id

def memberMethod : (c : MemberCall) → Method c.Result
  | .create m => create m
  | .get n u => get n u
  | .list n => list n
  | .updateRole n u role => updateRole n u role
  | .delete n u => delete n u

def deviceMethod : (c : DeviceCall) → Method c.Result
  | .create d => DeviceRepo.create d
  | .getByID id => DeviceRepo.getByID id
  | .getByPublicKey key => DeviceRepo.getByPublicKey key
  | .listByNetwork n => DeviceRepo.listByNetwork n
  | .listPeers id => DeviceRepo.listPeers id
  | .update d => DeviceRepo.update d
  | .updateHeartbeat id status pub priv nat sent received =>
    DeviceRepo.updateHeartbeat id status pub priv nat sent received
  | .delete id => DeviceRepo.delete id
  | .nextFreeVirtualIP n cidr => DeviceRepo.nextFreeVirtualIP lib n cidr

/-- What each call does to the store. -/
def method : (c : RepoCall) → Method c.Result
  | .networks c => networkMethod lib c
  | .members c => memberMethod c
  | .devices c => deviceMethod lib c
  | .setOnline n d ep ttl => setOnline n d ep ttl
  | .setOffline d => remove d
  | .presence d => get d
  | .putICE a b cs ttl => ICEStore.put a b cs ttl
  | .getICE a b => ICEStore.get a b
  | .publish e => Backend.publish e
  | .subscribe networkIDs => Backend.subscribe networkIDs
  | .alloc c => allocMethod c
  | .now => fun i s => (.ok i.now, s)
  | .newID => fun i s => (.ok i.fresh, s)
  | .generateInviteCode => fun i s => (i.inviteCode, s)

def handler : Handler repoIface Store RepoInput := fun c i s => method lib c i s

end Store

end NexusVPN.Backend
