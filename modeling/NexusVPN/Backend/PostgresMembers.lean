import NexusVPN.Backend.PostgresDevices

/-! # Removing a member, in memory and in Postgres

    `repository/postgres/network_member_repo.go` and the schema that it rests on.  The
    embedded store deletes the devices of a member together with the membership; in Postgres
    that is left to the foreign keys.

    What a `DELETE` takes along is computed from the foreign keys that the schema declares. -/

namespace NexusVPN.Backend

open Prog Option Table NetworkService Store

/-- The user has no device on the network. -/
def Store.Deviceless (s : Store) (n u : UUID) : Prop :=
  ∀ id d, s.devices.get id = some d → ¬ (d.networkID = n ∧ d.userID = u)

variable {n u : UUID}

theorem removeMember_ok {σ ι : Type} {h : Handler repoIface σ ι}
    (hread : ∀ n u i s, (h (.members (.get n u)) i s).2 = s) {caller : UUID} {w : Nat → ι} {s : σ}
    (hok : ((removeMember n caller u).run.exec h w s).1 = .ok ()) :
    ∃ i, h (.members (.delete n u)) i s =
      (.ok (), ((removeMember n caller u).run.exec h w s).2) := by
  have hdel : wpe h (call (.members (.delete n u)))
      (fun _ s' => ∃ i, h (.members (.delete n u)) i s = (.ok (), s')) (fun _ _ => True) s := by
    refine (wpe_attempt _ _ _ _).mpr fun i => ?_
    cases hans : (h (.members (.delete n u)) i s).1 with
    | error e => trivial
    | ok r => exact ⟨i, by rw [← hans]⟩
  -- Before the deletion there are only checks, and they read.
  have hremoval : wpe h (removeMember n caller u)
      (fun _ s' => ∃ i, h (.members (.delete n u)) i s = (.ok (), s')) (fun _ _ => True) s := by
    unfold removeMember requireMembership
    rw [wpe_bind, wpe_bind]
    refine (wpe_tryCall _ _ _ _).mpr fun i => ?_
    rw [hread]
    split
    · rw [wpe_pure, wpe_bind]
      refine (wpe_attempt _ _ _ _).mpr fun i' => ?_
      rw [hread]
      cases (h (.members (.get n u)) i' s).1 with
      | error e => trivial
      | ok target =>
        rw [outcome_ok, wpe_bind, wpe_require]
        refine ⟨fun _ => ?_, fun _ => trivial⟩
        split
        · rw [wpe_bind, requireRole, wpe_require]
          refine ⟨fun _ => ?_, fun _ => trivial⟩
          rw [wpe_bind, wpe_require]
          exact ⟨fun _ => hdel, fun _ => trivial⟩
        · exact hdel
    · trivial
    · trivial
  exact of_exec_ok hremoval hok

namespace Postgres

/-! ## The schema -/

inductive TableName where
  | users
  | refreshTokens
  | passwordResets
  | networks
  | networkMembers
  | devices
  | relayServers
  | connectionLogs
  | auditLogs
  | errorLogs
deriving DecidableEq

/-- The columns that refer to another table. -/
inductive Column where
  | userID
  | ownerID
  | networkID
  | deviceID
  | peerDeviceID
  | relayServerID
  | actorUserID

inductive OnDelete where
  | cascade
  | restrict
  | setNull

structure ForeignKey where
  table : TableName
  column : Column
  references : TableName
  onDelete : OnDelete

/-- Every `REFERENCES` clause of the schema. -/
def foreignKeys : List ForeignKey :=
  [⟨.refreshTokens, .userID, .users, .cascade⟩,
    ⟨.passwordResets, .userID, .users, .cascade⟩,
    ⟨.networks, .ownerID, .users, .restrict⟩,
    ⟨.networkMembers, .networkID, .networks, .cascade⟩,
    ⟨.networkMembers, .userID, .users, .cascade⟩,
    ⟨.devices, .userID, .users, .cascade⟩,
    ⟨.devices, .networkID, .networks, .cascade⟩,
    ⟨.connectionLogs, .networkID, .networks, .cascade⟩,
    ⟨.connectionLogs, .deviceID, .devices, .cascade⟩,
    ⟨.connectionLogs, .peerDeviceID, .devices, .setNull⟩,
    ⟨.connectionLogs, .relayServerID, .relayServers, .setNull⟩,
    ⟨.auditLogs, .actorUserID, .users, .setNull⟩,
    ⟨.auditLogs, .networkID, .networks, .cascade⟩]

/-! ## The tables -/

theorem DeviceRows.UniqueBy.mono {κ : Type} {rows rows' : DeviceRows} {column : DeviceRow → κ}
    (h : rows.UniqueBy column) (hsub : ∀ id r, rows'.get id = some r → rows.get id = some r) :
    DeviceRows.UniqueBy rows' column :=
  fun id id' r r' hr hr' => h id id' r r' (hsub id r hr) (hsub id' r' hr')

theorem get_of_deleteLoop {κ ν : Type} [DecidableEq κ] {key : ν → κ} {t : Table κ ν key}
    {ord : MapOrder κ} {p : ν → Bool} {k : κ} {v : ν} (h : (t.deleteLoop ord p).get k = some v) :
    t.get k = some v := by
  rw [get_deleteLoop] at h
  exact (filter_eq_some_iff.mp h).1

def Devices.remove (ids : List UUID) (t : Devices) : Devices where
  rows := t.rows.deleteLoop .asStored fun r => ids.contains r.id
  publicKey_unique := t.publicKey_unique.mono fun _ _ => get_of_deleteLoop
  place_unique := t.place_unique.mono fun _ _ => get_of_deleteLoop

/-- The table `network_members`. -/
structure Members where
  rows : Table UUID NetworkMember NetworkMember.id
  key_unique : ∀ id id' m m', rows.get id = some m → rows.get id' = some m' →
    m.key = m'.key → id = id'

def Members.remove (ids : List UUID) (t : Members) : Members where
  rows := t.rows.deleteLoop .asStored fun m => ids.contains m.id
  key_unique id id' m m' hm hm' :=
    t.key_unique id id' m m' (get_of_deleteLoop hm) (get_of_deleteLoop hm')

structure Database where
  users : List UUID
  /-- Every network with its owner. -/
  networks : List (UUID × UUID)
  members : Members
  devices : Devices

namespace Database

/-- The rows that refer to one of the ids. -/
def referring (db : Database) (k : ForeignKey) (ids : List UUID) : List UUID :=
  match k.table, k.column with
  | .networks, .ownerID => (db.networks.filter fun n => ids.contains n.2).map Prod.fst
  | .networkMembers, .networkID =>
    ((db.members.rows.values .asStored).filter fun m => ids.contains m.networkID).map (·.id)
  | .networkMembers, .userID =>
    ((db.members.rows.values .asStored).filter fun m => ids.contains m.userID).map (·.id)
  | .devices, .userID =>
    ((db.devices.rows.values .asStored).filter fun r => ids.contains r.userID).map (·.id)
  | .devices, .networkID =>
    ((db.devices.rows.values .asStored).filter fun r => ids.contains r.networkID).map (·.id)
  | _, _ => []

def remove (t : TableName) (ids : List UUID) (db : Database) : Database :=
  match t with
  | .users => { db with users := db.users.filter fun u => !ids.contains u }
  | .networks => { db with networks := db.networks.filter fun n => !ids.contains n.1 }
  | .networkMembers => { db with members := db.members.remove ids }
  | .devices => { db with devices := db.devices.remove ids }
  | _ => db

/-- `DELETE` of some rows of a table, with all that the foreign keys take along.  A chain of
    references has no more links than there are tables. -/
def deleteRows : Nat → TableName → List UUID → Database → Except DomainError Database
  | 0, _, _, db => .ok db
  | links + 1, t, ids, db =>
    (foreignKeys.filter (·.references = t)).foldlM (fun db k =>
      match k.onDelete with
      | .cascade => deleteRows links k.table (db.referring k ids) db
      | .restrict => if (db.referring k ids).isEmpty then .ok db else .error .invalidInput
      -- The columns that may be null are in tables that are not kept.
      | .setNull => .ok db) (db.remove t ids)

/-! ## The repository -/

/-- The rows of `WHERE network_id = $1 AND user_id = $2`. -/
def membershipRows (db : Database) (ord : MapOrder UUID) (n u : UUID) : List NetworkMember :=
  (db.members.rows.values ord).filter fun m => m.networkID == n && m.userID == u

/-- `NetworkMemberRepo.Get`, which joins the row with that of the user. -/
def getMember (i : StatementInput) (n u : UUID) (db : Database) :
    Except DomainError NetworkMember :=
  match i.fault with
  | some text => .error (.other text)
  | none =>
    match (db.membershipRows i.order n u).find? fun m => db.users.contains m.userID with
    | none => .error .notFound
    | some m => .ok m

/-- `NetworkMemberRepo.Delete`. -/
def deleteMember (i : StatementInput) (n u : UUID) (db : Database) :
    Except DomainError Unit × Database :=
  match i.fault with
  | some text => (.error (.other text), db)
  | none =>
    let ids := (db.membershipRows i.order n u).map (·.id)
    match db.deleteRows 10 .networkMembers ids with
    | .error e => (.error e, db)
    | .ok db' => if ids.isEmpty then (.error .notFound, db') else (.ok (), db')

/-- The methods that `RemoveMember` calls; `rest` are the others. -/
def handler (rest : Handler repoIface Database StatementInput) :
    Handler repoIface Database StatementInput
  | .members (.get n u), i, db => (db.getMember i n u, db)
  | .members (.delete n u), i, db => db.deleteMember i n u
  | c, i, db => rest c i db

end Database

/-! ## The property -/

/-- The row holds what the embedded store has of the device, which keeps the address as a
    plain text. -/
def DeviceRow.Holds (r : DeviceRow) (d : Device) : Prop :=
  { scanDevice r with virtualIP := d.virtualIP } = d ∧ Inet.ofText d.virtualIP = some r.virtualIP

/-- Both stores have the same memberships and the same devices. -/
structure Database.Matches (db : Database) (s : Store) : Prop where
  members : ∀ m : NetworkMember, db.members.rows.get m.id = some m ↔ s.members.get m.key = some m
  devices : ∀ id, Option.Rel DeviceRow.Holds (db.devices.rows.get id) (s.devices.get id)

def Database.Deviceless (db : Database) (n u : UUID) : Prop :=
  ∀ id r, db.devices.rows.get id = some r → ¬ (r.networkID = n ∧ r.userID = u)

/-- The user is gone from the network in both stores, which are still alike. -/
structure ExpelledAlike (n u : UUID) (db : Database) (s : Store) : Prop where
  alike : db.Matches s
  gone : s.Deviceless n u
  gone_row : db.Deviceless n u

/-! ## What the two repositories do -/

theorem Database.deleteRows_networkMembers (links : Nat) (ids : List UUID) (db : Database) :
    db.deleteRows (links + 1) .networkMembers ids =
      .ok { db with members := db.members.remove ids } := rfl

variable {s : Store} {db : Database}

theorem Database.mem_membershipRows {ord : MapOrder UUID} {m : NetworkMember} :
    m ∈ db.membershipRows ord n u ↔ db.members.rows.get m.id = some m ∧ m.key = ⟨n, u⟩ := by
  simp [membershipRows, mem_values, NetworkMember.key]

theorem Database.deleteMember_ok {db' : Database} {i : StatementInput}
    (h : db.deleteMember i n u = (.ok (), db')) :
    db'.devices = db.devices ∧ ∀ m : NetworkMember, db'.members.rows.get m.id = some m ↔
      db.members.rows.get m.id = some m ∧ m.key ≠ ⟨n, u⟩ := by
  unfold deleteMember at h
  split at h
  · cases h
  · simp only [deleteRows_networkMembers] at h
    split at h
    · cases h
    · obtain rfl := (Prod.mk.inj h).2
      refine ⟨rfl, ?_⟩
      intro m
      show ((db.members.rows.deleteLoop _ _).get m.id = some m) ↔ _
      rw [get_deleteLoop, filter_eq_some_iff]
      refine and_congr_right fun hm => ?_
      -- The row that is stored under the id is the one that was looked for.
      have hmem : m.id ∈ (db.membershipRows i.order n u).map (·.id) ↔ m.key = ⟨n, u⟩ := by
        rw [List.mem_map]
        constructor
        · rintro ⟨m', hm', hid⟩
          obtain ⟨hsto, hkey⟩ := mem_membershipRows.mp hm'
          rw [hid] at hsto
          cases hm.symm.trans hsto
          exact hkey
        · exact fun hkey => ⟨m, mem_membershipRows.mpr ⟨hm, hkey⟩, rfl⟩
      simp [← hmem]

theorem memberDelete_ok {s' : Store} {i : RepoInput}
    (h : MemberRepo.delete n u i s = (.ok (), s')) :
    s'.members = s.members.del ⟨n, u⟩ ∧ s'.devices = s.devices.deleteLoop i.order
      fun d => d.networkID == n && d.userID == u := by
  unfold MemberRepo.delete at h
  split at h
  · cases h
  · obtain rfl := (Prod.mk.inj h).2
    exact ⟨rfl, rfl⟩

theorem Database.Matches.deviceless_iff (h : db.Matches s) :
    db.Deviceless n u ↔ s.Deviceless n u := by
  constructor
  · intro hnone id d hd hplace
    have hrel := h.devices id
    rw [hd] at hrel
    cases hr : db.devices.rows.get id with
    | none => rw [hr] at hrel; cases hrel
    | some r =>
      rw [hr] at hrel
      cases hrel with
      | some hholds => exact hnone id r hr (by rw [← hholds.1] at hplace; exact hplace)
  · intro hnone id r hr hplace
    have hrel := h.devices id
    rw [hr] at hrel
    cases hd : s.devices.get id with
    | none => rw [hd] at hrel; cases hrel
    | some d =>
      rw [hd] at hrel
      cases hrel with
      | some hholds => exact hnone id d hd (by rw [← hholds.1]; exact hplace)

theorem Database.Matches.delete {db' : Database} {s' : Store} (h : db.Matches s)
    (hnone : s.Deviceless n u) {i : RepoInput} {i' : StatementInput}
    (hs : MemberRepo.delete n u i s = (.ok (), s')) (hdb : db.deleteMember i' n u = (.ok (), db')) :
    db'.Matches s' := by
  obtain ⟨hmems, hdevs⟩ := memberDelete_ok hs
  obtain ⟨hrows, hleft⟩ := deleteMember_ok hdb
  constructor
  · intro m
    rw [hleft, h.members, hmems, get_del]
    by_cases hkey : m.key = ⟨n, u⟩ <;> simp [hkey]
  · intro id
    have hkept : s'.devices.get id = s.devices.get id := by
      rw [hdevs, get_deleteLoop]
      cases hd : s.devices.get id with
      | none => rfl
      | some d =>
        rw [filter_eq_some_iff]
        refine ⟨rfl, ?_⟩
        simpa [imp_iff_not_or] using hnone id d hd
    rw [hrows, hkept]
    exact h.devices id

/-- A removal has the same effect in both stores exactly if the member has no device on the
    network: in Postgres devices do not refer to memberships, and stay. -/
theorem removal_agrees_iff {lib : StdLib} {rest : Handler repoIface Database StatementInput}
    {s : Store} {db : Database} (h : db.Matches s) {n caller u : UUID} {w : Nat → RepoInput}
    {w' : Nat → StatementInput}
    (hok : ((removeMember n caller u).run.exec (handler lib) w s).1 = .ok ())
    (hok' : ((removeMember n caller u).run.exec (Database.handler rest) w' db).1 = .ok ()) :
    ExpelledAlike n u
      ((removeMember n caller u).run.exec (Database.handler rest) w' db).2
      ((removeMember n caller u).run.exec (handler lib) w s).2 ↔
    s.Deviceless n u := by
  have hread : ∀ n u i (s : Store), (handler lib (.members (.get n u)) i s).2 = s := by
    intro n u i s
    show (MemberRepo.get n u i s).2 = s
    unfold MemberRepo.get
    split <;> rfl
  obtain ⟨i, hs⟩ := removeMember_ok hread hok
  obtain ⟨i', hdb⟩ := removeMember_ok (fun _ _ _ _ => rfl) hok'
  obtain ⟨hrows, -⟩ := Database.deleteMember_ok hdb
  constructor
  · intro hexpelled
    rw [← h.deviceless_iff]
    intro id r hr
    exact hexpelled.gone_row id r (by rw [hrows]; exact hr)
  · intro hnone
    have halike := h.delete hnone hs hdb
    have hgone : db.Deviceless n u := h.deviceless_iff.mpr hnone
    have hgone' : Database.Deviceless _ n u := fun id r hr => hgone id r (hrows ▸ hr)
    exact ⟨halike, halike.deviceless_iff.mp hgone', hgone'⟩

/-! ## A guest who leaves -/

section

/-- The user of the desktop, as a member of network 7. -/
def guest : NetworkMember := ⟨.ofBytes [9], .ofBytes [7], .ofBytes [1], .member, 0⟩

/-- Somebody else on it. -/
def lodger : NetworkMember := ⟨.ofBytes [10], .ofBytes [7], .ofBytes [2], .member, 0⟩

theorem get_pair {K V : Type} [DecidableEq K] {key : V → K} {a b v : V} (hne : key a ≠ key b) :
    ((empty.put a).put b : Table K V key).get (key v) = some v ↔ v = a ∨ v = b := by
  rw [get_put, get_put]
  constructor
  · intro h
    split at h
    · exact .inr (Option.some.inj h).symm
    · split at h
      · exact .inl (Option.some.inj h).symm
      · cases h
  · rintro (rfl | rfl)
    · rw [if_neg hne, if_pos rfl]
    · rw [if_pos rfl]

def guestRows : Members where
  rows := (Table.empty.put guest).put lodger
  key_unique id id' m m' hm hm' hkey := by
    obtain rfl := key_of_get hm
    obtain rfl := key_of_get hm'
    rcases (get_pair (by decide)).mp hm with rfl | rfl <;>
      rcases (get_pair (by decide)).mp hm' with rfl | rfl <;> first | rfl | cases hkey

def desktopOnly : Table UUID Device Device.id := Table.empty.put desktop

def guestStore : Store :=
  { empty with members := (Table.empty.put guest).put lodger, devices := desktopOnly }

def guestDatabase : Database := ⟨[.ofBytes [1], .ofBytes [2]], [], guestRows, withDesktop⟩

theorem desktop_holds (id : UUID) : Option.Rel DeviceRow.Holds (withDesktop.rows.get id)
    (desktopOnly.get id) := by
  show Option.Rel _ ((Table.empty.put
    (insertedRow quietStatement desktop ⟨[10, 77, 0, 1], 32, rfl⟩)).get id) _
  unfold desktopOnly
  have hid : (insertedRow quietStatement desktop ⟨[10, 77, 0, 1], 32, rfl⟩).id = desktop.id := rfl
  rw [get_put, get_put, hid]
  split
  · exact .some ⟨rfl, by decide +kernel⟩
  · exact .none

theorem guest_matches : guestDatabase.Matches guestStore :=
  ⟨fun _ => (get_pair (by decide)).trans (get_pair (by decide)).symm, desktop_holds⟩

/-- The statements other than those of a removal, none of which is made. -/
def noOthers : Handler repoIface Database StatementInput := fun _ _ db => (.error .notFound, db)

/-- The user leaves, in the embedded store -/
def storeLeft (u : UUID) : Except DomainError Unit × Store :=
  (removeMember (.ofBytes [7]) u u).run.exec (handler homeLib) (fun _ => default) guestStore

/-- and in the database. -/
def databaseLeft (u : UUID) : Except DomainError Unit × Database :=
  (removeMember (.ofBytes [7]) u u).run.exec (Database.handler noOthers) (fun _ => quietStatement)
    guestDatabase

/-- The desktop is the guest's, and somebody else leaves. -/
theorem removal_agrees_iff_lodger :
    guestStore.Deviceless (.ofBytes [7]) (.ofBytes [2]) ∧
    (ExpelledAlike (.ofBytes [7]) (.ofBytes [2]) (databaseLeft (.ofBytes [2])).2
      (storeLeft (.ofBytes [2])).2 ↔ guestStore.Deviceless (.ofBytes [7]) (.ofBytes [2])) := by
  refine ⟨?_, removal_agrees_iff guest_matches (by decide +kernel) (by decide +kernel)⟩
  intro id d hd
  change (Table.empty.put desktop).get id = some d at hd
  rw [get_put] at hd
  split at hd
  · cases hd
    decide
  · cases hd

/-- The guest leaves with a desktop on the network.  Both calls succeed, and in Postgres the
    desktop is still there. -/
theorem desktop_stays_on :
    guestDatabase.Matches guestStore ∧ (storeLeft (.ofBytes [1])).1 = .ok () ∧
    (databaseLeft (.ofBytes [1])).1 = .ok () ∧
    ¬ ExpelledAlike (.ofBytes [7]) (.ofBytes [1]) (databaseLeft (.ofBytes [1])).2
      (storeLeft (.ofBytes [1])).2 := by
  refine ⟨guest_matches, by decide +kernel, by decide +kernel, ?_⟩
  intro h
  exact h.gone_row (.ofBytes [8]) (insertedRow quietStatement desktop ⟨[10, 77, 0, 1], 32, rfl⟩)
    rfl ⟨rfl, rfl⟩

end

end Postgres

end NexusVPN.Backend
