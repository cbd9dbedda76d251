import NexusVPN.Backend.Accounts
import NexusVPN.Lib.Cells

/-! # The embedded store and its file

    `repository/embedded` once more, as far as it is kept on disk.  The maps hold pointers to
    rows, and a snapshot is a copy of the pointers; so it matters which methods store a row in
    a new place and which change it where it is. -/

namespace NexusVPN.Backend.Persistence

open List Auth Function Cells

/-! ## Collections -/

inductive Collection where
  | users
  | networks
  | members
  | devices
  | refresh
  | resets
  | relays
deriving DecidableEq

namespace Collection

@[reducible] def Key : Collection → Type
  | .members => MemberKey
  | .users | .networks | .devices | .refresh | .resets | .relays => UUID

@[reducible] def Row : Collection → Type
  | .users => User
  | .networks => Network
  | .members => NetworkMember
  | .devices => Device
  | .refresh => RefreshToken
  | .resets => PasswordReset
  | .relays => RelayServer

def key : (c : Collection) → c.Row → c.Key
  | .users => User.id
  | .networks => Network.id
  | .members => NetworkMember.key
  | .devices => Device.id
  | .refresh => RefreshToken.id
  | .resets => PasswordReset.id
  | .relays => RelayServer.id

instance : (c : Collection) → DecidableEq c.Key
  | .members => inferInstanceAs (DecidableEq MemberKey)
  | .users | .networks | .devices | .refresh | .resets | .relays =>
    inferInstanceAs (DecidableEq UUID)

/-- In the order of the fields of a snapshot. -/
def all : List Collection := [.users, .networks, .members, .devices, .refresh, .resets, .relays]

end Collection

structure ConnectionLog where
  id : UUID
  networkID : UUID
  deviceID : UUID
  peerDeviceID : Option UUID
  relayServerID : Option UUID
  eventType : String
  latencyMs : Option Int
  bytesSent : Int
  bytesReceived : Int
  metadata : String
  createdAt : Time

structure AuditLog where
  id : UUID
  actorUserID : Option UUID
  networkID : Option UUID
  action : String
  targetType : Option String
  targetID : Option String
  ipAddress : Option String
  metadata : String
  createdAt : Time

structure ErrorLog where
  id : UUID
  service : String
  level : String
  message : String
  metadata : String
  createdAt : Time

/-- Rows of a log are never changed, so that they need no pointers. -/
structure Logs where
  connLogs : List ConnectionLog
  auditLogs : List AuditLog
  errLogs : List ErrorLog

def maxLogRows : Nat := 2000

def capLog {α : Type} (rows : List α) : List α := rows.drop (rows.length - maxLogRows)

/-! ## Memory -/

abbrev Rows (c : Collection) := Cells c.Key c.Row c.key

structure Memory where
  rows : (c : Collection) → Rows c
  logs : Logs
  dirty : Bool

/-- What a method reads from outside. -/
structure MutationInput where
  now : Time
  fresh : UUID
  order : (c : Collection) → MapOrder c.Key

namespace Memory

def touch (s : Memory) : Memory := { s with dirty := true }

def setRows (s : Memory) (c : Collection) (r : Rows c) : Memory :=
  { s with rows := Function.update s.rows c r }

/-- A copy of the row is stored. -/
def put (s : Memory) (c : Collection) (v : c.Row) : Memory := (s.setRows c ((s.rows c).put v)).touch

end Memory

abbrev Result := Except DomainError Unit × Memory

/-- Store a row in the place of one that exists. -/
def replace (c : Collection) (v : c.Row) (s : Memory) : Result :=
  match (s.rows c).get (c.key v) with
  | none => (.error .notFound, s)
  | some _ => (.ok (), s.put c v)

/-- Change a row where it is. -/
def change (c : Collection) (k : c.Key) (f : c.Row → c.Row) (hf : ∀ v, c.key (f v) = c.key v)
    (s : Memory) : Result :=
  match (s.rows c).get k with
  | none => (.error .notFound, s)
  | some _ => (.ok (), (s.setRows c ((s.rows c).modify k f hf)).touch)

/-! ## Methods that change what is kept -/

inductive Mutation where
  | createUser (u : User)
  | updateUser (u : User)
  | createRefresh (rt : RefreshToken)
  | revoke (id : UUID)
  | revokeAllForUser (userID : UUID)
  | createReset (pr : PasswordReset)
  | markUsed (id : UUID)
  | createNetwork (n : Network)
  | updateNetwork (n : Network)
  | deleteNetwork (id : UUID)
  | rotateInviteCode (id : UUID) (code : String) (expires : Option Time)
  | createMember (m : NetworkMember)
  | updateRole (networkID userID : UUID) (role : NetworkRole)
  | deleteMember (networkID userID : UUID)
  | createDevice (d : Device)
  | updateDevice (d : Device)
  | updateHeartbeat (id : UUID) (status : DeviceStatus) (publicIP privateIP natType : Option String)
      (sent received : Int)
  | deleteDevice (id : UUID)
  | createRelay (rs : RelayServer)
  | upsertRelay (rs : RelayServer)
  | incrementLoad (id : UUID) (delta : Int)
  | relayHeartbeat (id : UUID) (load : Int)
  | logConnection (l : ConnectionLog)
  | logAudit (l : AuditLog)
  | logError (l : ErrorLog)

section

variable (lib : StdLib) (i : MutationInput)

/-- Store a new row, unless it clashes with one that exists. -/
def createUnless (c : Collection) (clash : c.Row → Bool) (v : c.Row) (s : Memory) : Result :=
  if ((s.rows c).values (i.order c)).any clash then (.error .alreadyExists, s)
  else (.ok (), s.put c v)

def createUser (u : User) : Memory → Result :=
  createUnless i .users (lib.equalFold ·.email u.email)
    { u with id := orFresh u.id i.fresh, createdAt := i.now, updatedAt := i.now }

def revokeAllForUser (userID : UUID) (s : Memory) : Result :=
  (.ok (), (s.setRows .refresh ((s.rows .refresh).modifyAll (i.order .refresh)
    (RefreshRepo.revokeIf userID i.now) (RefreshRepo.revokeIf_id userID i.now))).touch)

def createNetwork (n : Network) : Memory → Result :=
  createUnless i .networks (·.inviteCode == n.inviteCode)
    { n with id := orFresh n.id i.fresh, createdAt := i.now, updatedAt := i.now }

/-- With everything that depended on it. -/
def deleteNetwork (id : UUID) (s : Memory) : Result :=
  match (s.rows .networks).get id with
  | none => (.error .notFound, s)
  | some _ =>
    (.ok (), (((s.setRows .networks ((s.rows .networks).del id)).setRows .members
      ((s.rows .members).deleteLoop (i.order .members) (·.networkID == id))).setRows .devices
      ((s.rows .devices).deleteLoop (i.order .devices) (·.networkID == id))).touch)

def createMember (m : NetworkMember) (s : Memory) : Result :=
  match (s.rows .members).get m.key with
  | some _ => (.error .alreadyExists, s)
  | none => (.ok (), s.put .members { m with id := orFresh m.id i.fresh, joinedAt := i.now })

def deleteMember (networkID userID : UUID) (s : Memory) : Result :=
  match (s.rows .members).get ⟨networkID, userID⟩ with
  | none => (.error .notFound, s)
  | some _ =>
    (.ok (), ((s.setRows .members ((s.rows .members).del ⟨networkID, userID⟩)).setRows .devices
      ((s.rows .devices).deleteLoop (i.order .devices)
        fun d => d.networkID == networkID && d.userID == userID)).touch)

def createDevice (d : Device) : Memory → Result :=
  createUnless i .devices (·.publicKey == d.publicKey)
    { d with id := orFresh d.id i.fresh, createdAt := i.now, updatedAt := i.now }

def deleteDevice (id : UUID) (s : Memory) : Result :=
  match (s.rows .devices).get id with
  | none => (.error .notFound, s)
  | some _ => (.ok (), (s.setRows .devices ((s.rows .devices).del id)).touch)

/-- A relay that restarts gets its row back. -/
def upsertRelay (rs : RelayServer) (s : Memory) : Result :=
  match ((s.rows .relays).values (i.order .relays)).find? fun existing =>
      existing.hostname == rs.hostname && existing.relayPort == rs.relayPort with
  | some existing =>
    (.ok (), s.put .relays { rs with id := existing.id, createdAt := existing.createdAt })
  | none => (.ok (), s.put .relays { rs with id := orFresh rs.id i.fresh, createdAt := i.now })

def mutate : Mutation → Memory → Result
  | .createUser u => createUser lib i u
  | .updateUser u => replace .users { u with updatedAt := i.now }
  | .createRefresh rt => fun s =>
    (.ok (), s.put .refresh { rt with id := orFresh rt.id i.fresh, createdAt := i.now })
  | .revoke id => change .refresh id (fun rt => { rt with revokedAt := some i.now }) fun _ => rfl
  | .revokeAllForUser userID => revokeAllForUser i userID
  | .createReset pr => fun s =>
    (.ok (), s.put .resets { pr with id := orFresh pr.id i.fresh, createdAt := i.now })
  | .markUsed id => change .resets id (fun pr => { pr with usedAt := some i.now }) fun _ => rfl
  | .createNetwork n => createNetwork i n
  | .updateNetwork n => replace .networks { n with updatedAt := i.now }
  | .deleteNetwork id => deleteNetwork i id
  | .rotateInviteCode id code expires =>
    change .networks id (fun n => { n with
      inviteCode := code
      inviteCodeExpiresAt := expires
      updatedAt := i.now }) fun _ => rfl
  | .createMember m => createMember i m
  | .updateRole networkID userID role =>
    change .members ⟨networkID, userID⟩ (fun m => { m with role := role }) fun _ => rfl
  | .deleteMember networkID userID => deleteMember i networkID userID
  | .createDevice d => createDevice i d
  | .updateDevice d => replace .devices { d with updatedAt := i.now }
  | .updateHeartbeat id status publicIP privateIP natType sent received =>
    change .devices id (fun d => { d with
      status := status
      lastSeenAt := some i.now
      lastPublicIP := DeviceRepo.orKnown publicIP d.lastPublicIP
      lastPrivateIP := DeviceRepo.orKnown privateIP d.lastPrivateIP
      natType := DeviceRepo.orKnown natType d.natType
      bytesSent := sent
      bytesReceived := received
      updatedAt := i.now }) fun _ => rfl
  | .deleteDevice id => deleteDevice id
  | .createRelay rs => fun s =>
    (.ok (), s.put .relays { rs with id := orFresh rs.id i.fresh, createdAt := i.now })
  | .upsertRelay rs => upsertRelay i rs
  | .incrementLoad id delta => change .relays id (·.addLoad delta) fun _ => rfl
  | .relayHeartbeat id load =>
    change .relays id (fun rs => { rs with currentLoad := load, lastHeartbeatAt := some i.now })
      fun _ => rfl
  | .logConnection l => fun s =>
    let l := { l with id := orFresh l.id i.fresh, createdAt := i.now }
    (.ok (), { s with
      logs := { s.logs with connLogs := capLog (s.logs.connLogs ++ [l]) } }.touch)
  | .logAudit l => fun s =>
    let l := { l with id := orFresh l.id i.fresh, createdAt := i.now }
    (.ok (), { s with
      logs := { s.logs with auditLogs := capLog (s.logs.auditLogs ++ [l]) } }.touch)
  | .logError l => fun s =>
    let l := { l with id := orFresh l.id i.fresh, createdAt := i.now }
    (.ok (), { s with
      logs := { s.logs with errLogs := capLog (s.logs.errLogs ++ [l]) } }.touch)

end

/-- The methods that change rows where they are. -/
def Mutation.inPlace : Mutation → Bool
  | .revoke _ | .revokeAllForUser _ | .markUsed _ | .rotateInviteCode _ _ _ | .updateRole _ _ _
  | .updateHeartbeat _ _ _ _ _ _ _ | .incrementLoad _ _ | .relayHeartbeat _ _ => true
  | _ => false

/-! ## Snapshots and files -/

/-- What is kept on disk, whatever it is kept in. -/
structure Persist where
  rows : (c : Collection) → c.Key → Option c.Row
  logs : Logs

def Persist.empty : Persist := ⟨fun _ _ => none, ⟨[], [], []⟩⟩

def Memory.view (s : Memory) : Persist := ⟨fun c => (s.rows c).get, s.logs⟩

/-- A pointer to a row. -/
structure Ref where
  collection : Collection
  address : Nat

variable (order : (c : Collection) → MapOrder c.Key)

/-- The pointers of `snapshotLocked`, field by field. -/
def snapshotLocked (s : Memory) : List Ref :=
  Collection.all.flatMap fun c => ((s.rows c).pointers (order c)).map (Ref.mk c)

def snapshotVersion : Nat := 1

/-- A snapshot as it is encoded. -/
structure File where
  version : Nat
  rows : (c : Collection) → List c.Row
  logs : Logs

/-- What is at a path: a file that was written to its end, or part of one. -/
inductive Blob where
  | whole (f : File)
  | torn

/-- `load`: nothing at the path is an empty store, and what cannot be read is an error. -/
def load : Option Blob → Option Persist
  | none => some .empty
  | some .torn => none
  | some (.whole f) =>
    if snapshotVersion < f.version then none
    else some ⟨fun c => collect c.key (f.rows c), f.logs⟩

/-- Encode the row that a pointer leads to, after those that have been encoded. -/
def File.push (f : File) (s : Memory) (r : Ref) : File where
  version := f.version
  rows := Function.update f.rows r.collection
    (f.rows r.collection ++ ((s.rows r.collection).heap[r.address]?).toList)
  logs := f.logs

/-- A file in which no row has been encoded yet. -/
def File.begin (logs : Logs) : File := ⟨snapshotVersion, fun _ => [], logs⟩

/-- What comes of it if all the rest is encoded at once. -/
def File.complete (f : File) (s : Memory) (refs : List Ref) : File :=
  refs.foldl (fun f r => f.push s r) f

/-! ## What a method does -/

/-- No row has been changed where it is. -/
def Memory.Extends (s s' : Memory) : Prop := ∀ c, (s.rows c).Extends (s'.rows c)

/-- A method that fails changes nothing.  One that succeeds sets the flag, and changes rows
    where they are only if it is one of those that do. -/
def Effect (m : Mutation) (s s' : Memory) : Prop :=
  s' = s ∨ s'.dirty = true ∧ (m.inPlace = false → s.Extends s')

section

variable {lib : StdLib} {i : MutationInput} {m : Mutation} {s : Memory}

theorem Memory.Extends.refl (s : Memory) : s.Extends s := fun c => .refl (s.rows c)

theorem Memory.Extends.setRows {s' : Memory} (h : s.Extends s') {c : Collection} {r : Rows c}
    (hr : (s.rows c).Extends r) : s.Extends (s'.setRows c r) := by
  intro c'
  by_cases hc : c' = c
  · subst hc
    show (s.rows c').Extends (Function.update s'.rows c' r c')
    rw [update_self]
    exact hr
  · show (s.rows c').Extends (Function.update s'.rows c r c')
    rw [update_of_ne hc]
    exact h c'

theorem effect_put (c : Collection) (v : c.Row) : Effect m s (s.put c v) :=
  .inr ⟨rfl, fun _ => (Memory.Extends.refl s).setRows (extends_put _ v)⟩

theorem effect_replace (c : Collection) (v : c.Row) : Effect m s (replace c v s).2 := by
  unfold replace
  split
  · exact .inl rfl
  · exact effect_put c v

theorem effect_change (hm : m.inPlace = true) (c : Collection) (k : c.Key) (f : c.Row → c.Row)
    (hf : ∀ v, c.key (f v) = c.key v) : Effect m s (change c k f hf s).2 := by
  unfold change
  split
  · exact .inl rfl
  · refine .inr ⟨rfl, fun hout => ?_⟩
    rw [hm] at hout
    cases hout

theorem effect_deleteNetwork (id : UUID) : Effect m s (deleteNetwork i id s).2 := by
  unfold deleteNetwork
  split
  · exact .inl rfl
  · refine .inr ⟨rfl, fun _ => ?_⟩
    refine Memory.Extends.setRows ?_ (extends_deleteLoop _ _ _)
    refine Memory.Extends.setRows ?_ (extends_deleteLoop _ _ _)
    exact (Memory.Extends.refl s).setRows (extends_del _ id)

theorem effect_deleteMember (networkID userID : UUID) :
    Effect m s (deleteMember i networkID userID s).2 := by
  unfold deleteMember
  split
  · exact .inl rfl
  · refine .inr ⟨rfl, fun _ => ?_⟩
    refine Memory.Extends.setRows ?_ (extends_deleteLoop _ _ _)
    exact (Memory.Extends.refl s).setRows (extends_del _ _)

theorem effect_deleteDevice (id : UUID) : Effect m s (deleteDevice id s).2 := by
  unfold deleteDevice
  split
  · exact .inl rfl
  · exact .inr ⟨rfl, fun _ => (Memory.Extends.refl s).setRows (extends_del _ id)⟩

theorem effect_createUnless (c : Collection) (clash : c.Row → Bool) (v : c.Row) :
    Effect m s (createUnless i c clash v s).2 := by
  unfold createUnless
  split
  · exact .inl rfl
  · exact effect_put c v

theorem effect_createMember (n : NetworkMember) : Effect m s (createMember i n s).2 := by
  unfold createMember
  split
  · exact .inl rfl
  · exact effect_put _ _

theorem effect_upsertRelay (rs : RelayServer) : Effect m s (upsertRelay i rs s).2 := by
  unfold upsertRelay
  split
  · exact effect_put _ _
  · exact effect_put _ _

theorem effect_mutate (lib : StdLib) (i : MutationInput) (m : Mutation) (s : Memory) :
    Effect m s (mutate lib i m s).2 := by
  cases m with
  | createUser | createNetwork | createDevice => exact effect_createUnless _ _ _
  | createMember n => exact effect_createMember n
  | upsertRelay rs => exact effect_upsertRelay rs
  | createRefresh | createReset | createRelay => exact effect_put _ _
  | updateUser | updateNetwork | updateDevice => exact effect_replace _ _
  | deleteNetwork id => exact effect_deleteNetwork id
  | deleteMember networkID userID => exact effect_deleteMember networkID userID
  | deleteDevice id => exact effect_deleteDevice id
  | revoke | markUsed | rotateInviteCode | updateRole | updateHeartbeat | incrementLoad
  | relayHeartbeat => exact effect_change rfl _ _ _ _
  | revokeAllForUser userID => exact .inr ⟨rfl, nofun⟩
  | logConnection | logAudit | logError => exact .inr ⟨rfl, fun _ c => .refl (s.rows c)⟩

end

/-! ## Encoding -/

section

variable {f : File} {s s' : Memory} {refs : List Ref}

theorem rows_complete (f : File) (s : Memory) (refs : List Ref) (c : Collection) :
    (f.complete s refs).rows c = f.rows c ++
      image (s.rows c).heap ((refs.filter (·.collection = c)).map Ref.address) := by
  induction refs generalizing f with
  | nil => simp [File.complete, image]
  | cons r refs ih =>
    show ((f.push s r).complete s refs).rows c = _
    rw [ih]
    by_cases hc : r.collection = c
    · subst hc
      rw [filter_cons_of_pos (by simp), map_cons, image_cons, ← append_assoc]
      show Function.update f.rows r.collection _ r.collection ++ _ = _
      rw [update_self]
    · rw [filter_cons_of_neg (by simpa using hc)]
      show Function.update f.rows r.collection _ c ++ _ = _
      rw [update_of_ne (Ne.symm hc)]

theorem load_whole {f : File} (hf : f.version = snapshotVersion) :
    load (some (.whole f)) = some ⟨fun c => collect c.key (f.rows c), f.logs⟩ := by
  refine if_neg ?_
  rw [hf]
  exact Nat.lt_irrefl _

theorem logs_complete (f : File) (s : Memory) (refs : List Ref) :
    (f.complete s refs).logs = f.logs ∧ (f.complete s refs).version = f.version := by
  induction refs generalizing f with
  | nil => exact ⟨rfl, rfl⟩
  | cons r refs ih => exact ih (f.push s r)

theorem filter_snapshotLocked (s : Memory)
    (c : Collection) :
    ((snapshotLocked order s).filter (·.collection = c)).map Ref.address =
      (s.rows c).pointers (order c) := by
  have hpart : ∀ c' : Collection,
      ((((s.rows c').pointers (order c')).map (Ref.mk c')).filter (·.collection = c)).map
        Ref.address = if c' = c then (s.rows c').pointers (order c') else [] := by
    intro c'
    split
    · next hc =>
      rw [filter_eq_self.mpr (by simp [hc]), map_map]
      exact map_id _
    · next hc =>
      rw [filter_eq_nil_iff.mpr (by simp [hc])]
      rfl
  unfold snapshotLocked
  rw [filter_flatMap, map_flatMap]
  simp only [hpart]
  cases c <;> simp [Collection.all]

/-- A snapshot that is loaded gives back what was in memory. -/
theorem load_snapshot (s : Memory) :
    load (some (.whole ((File.begin s.logs).complete s (snapshotLocked order s)))) =
      some s.view := by
  obtain ⟨hlogs, hversion⟩ := logs_complete (File.begin s.logs) s (snapshotLocked order s)
  have hrows : ∀ c, collect c.key
      (((File.begin s.logs).complete s (snapshotLocked order s)).rows c) = (s.rows c).get := by
    intro c
    rw [rows_complete, filter_snapshotLocked]
    exact collect_values (s.rows c) (order c)
  rw [load_whole hversion]
  simp only [hrows, hlogs]
  rfl

theorem complete_extends (h : s.Extends s')
    (hrefs : ∀ r ∈ refs, r.address < (s.rows r.collection).heap.length) :
    f.complete s' refs = f.complete s refs := by
  induction refs generalizing f with
  | nil => rfl
  | cons r refs ih =>
    have hpush : f.push s' r = f.push s r := by
      unfold File.push
      rw [(h r.collection).getElem? (hrefs r mem_cons_self)]
    show (f.push s' r).complete s' refs = (f.push s r).complete s refs
    rw [hpush]
    exact ih fun r hr => hrefs r (mem_cons_of_mem _ hr)

end

/-! ## Reloading -/

def Memory.empty : Memory := ⟨fun _ => .empty, ⟨[], [], []⟩, false⟩

/-- The store after operations on an empty one. -/
def operate (lib : StdLib) (ops : List (Mutation × MutationInput)) : Memory :=
  ops.foldl (fun s op => (mutate lib op.2 op.1 s).2) .empty

/-- Whatever has been stored, and in whatever order the maps are copied: a snapshot is loaded
    as the same rows under the same keys and the same logs. -/
theorem reload_loses_nothing (lib : StdLib) (ops : List (Mutation × MutationInput))
    (order : (c : Collection) → MapOrder c.Key) :
    ∃ p, load (some (.whole ((File.begin (operate lib ops).logs).complete (operate lib ops)
        (snapshotLocked order (operate lib ops))))) = some p ∧
      (∀ c k, p.rows c k = ((operate lib ops).rows c).get k) ∧ p.logs = (operate lib ops).logs :=
  ⟨(operate lib ops).view, load_snapshot order (operate lib ops), fun _ _ => rfl, rfl⟩

end NexusVPN.Backend.Persistence
