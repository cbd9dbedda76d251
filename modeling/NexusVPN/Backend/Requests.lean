import NexusVPN.Backend.RestCalls
import NexusVPN.Lib.Journal

/-! # Requests side by side

    Any number of requests are in progress at once.  Each makes its repository calls one
    after the other, and whatever the others do may fall between two of them.  `uuid.New`
    never returns an id that is in use or was. -/

namespace NexusVPN.Backend

open List Prog Machine NetworkService Store CoordinationService RestCall Pool

/-! ## The machine -/

/-- The store, and a record of what has been in it that nothing ever reads. -/
structure Archive where
  store : Store
  /-- The ids under which networks and devices have been stored. -/
  issued : List UUID
  /-- The networks that have been created, each with its owner. -/
  founded : List (UUID × UUID)

namespace Archive

/-- The id that a call has stored something new under. -/
def issuedBy : (c : RepoCall) → Except DomainError c.Result → List UUID
  | .networks (.create _), .ok n => [n.id]
  | .devices (.create _), .ok d => [d.id]
  | _, _ => []

def foundedBy : (c : RepoCall) → Except DomainError c.Result → List (UUID × UUID)
  | .networks (.create _), .ok n => [(n.id, n.ownerID)]
  | _, _ => []

/-- The repositories, with the record kept. -/
def handler (lib : StdLib) : Handler repoIface Archive RepoInput := fun c i s =>
  ((method lib c i s.store).1,
    { store := (method lib c i s.store).2
      issued := issuedBy c (method lib c i s.store).1 ++ s.issued
      founded := foundedBy c (method lib c i s.store).1 ++ s.founded })

/-- The id that a network or a device is stored under, whether it was drawn by the service
    or by the repository, has not been in use before. -/
def Unused (s : Archive) (i : RepoInput) : RepoCall → Prop
  | .networks (.create n) => orFresh n.id i.fresh ∉ s.issued
  | .devices (.create d) => orFresh d.id i.fresh ∉ s.issued
  | _ => True

instance (s : Archive) (i : RepoInput) (c : RepoCall) : Decidable (s.Unused i c) := by
  unfold Unused
  split <;> infer_instance

end Archive

/-- A request with what it came to. -/
abbrev RestOutcome := (c : RestCall) × Except DomainError c.Result

abbrev RestProg := Prog repoIface RestOutcome

def RestCall.body (lib : StdLib) (c : RestCall) : RestProg :=
  (c.serve lib).run >>= fun r => .ret ⟨c, r⟩

abbrev Requests := Pool repoIface Archive RestCall RestOutcome

/-- A request comes in, or one of those in progress makes its next call. -/
abbrev RestStep := Pool.Action RestCall RepoInput

/-- The repository call that a thread makes next. -/
def nextCall {α : Type} : Prog repoIface α → Option RepoCall
  | .ret _ => none
  | .call c _ => some c

namespace Requests

/-- Nothing is stored, and nobody has asked for anything. -/
def idle : Requests := ⟨⟨.empty, [], []⟩, []⟩

/-- What thread `n` calls next. -/
def next (p : Requests) (n : Nat) : Option RepoCall := p.threads[n]?.bind fun th => nextCall th.2

/-- New rows get new ids. -/
def DrawsUnused (p : Requests) : RestStep → Prop
  | .spawn _ => True
  | .advance n i => ∀ c ∈ p.next n, p.shared.Unused i c

instance (p : Requests) (a : RestStep) : Decidable (p.DrawsUnused a) := by
  unfold DrawsUnused
  split <;> infer_instance

def step (lib : StdLib) (p : Requests) (a : RestStep) : Option Requests :=
  if p.DrawsUnused a then
    Pool.step (Archive.handler lib) (body lib) (fun _ => none) p a
  else none

/-- Thread `n` makes its next `count` calls. -/
def goesOn (n count : Nat) (i : RepoInput) : List RestStep :=
  List.replicate count (.advance n i)

/-- A request comes in as thread `n` and makes its first `count` calls. -/
def comesIn (n : Nat) (c : RestCall) (count : Nat) (i : RepoInput) : List RestStep :=
  .spawn c :: goesOn n count i

end Requests

/-- What is drawn for the home network. -/
def homeDraw : RepoInput :=
  { (default : RepoInput) with fresh := .ofBytes [7], inviteCode := .ok "invite" }

/-- User 1 creates the home network. -/
def homeCreated : List RestStep :=
  Requests.comesIn 0 (.createNetwork (.ofBytes [1]) "home" "" "10.77.0.0/24" []) 5 homeDraw

/-- User 1 renames the home network. -/
def homeRenamed : RestCall :=
  .updateNetwork (.ofBytes [7]) (.ofBytes [1]) (some "house") none none none

/-- User 2 joins the home network. -/
def guestJoins : RestCall := .joinNetwork (.ofBytes [2]) "invite"

/-! ## What a request has read when it writes -/

/-- Who becomes the owner of the network that the request creates. -/
def RestCall.founder : RestCall → Option UUID
  | .createNetwork u _ _ _ _ => some u
  | _ => none

/-- The call by which the request settles on the network that it adds a row to. -/
def RestCall.locates : RestCall → RepoCall → Bool
  | .createNetwork .., .networks (.create _) => true
  | .joinNetwork .., .networks (.getByInviteCode _) => true
  | .registerDevice .., .members (.get _ _) => true
  | .coordinate .., .members (.get _ _) => true
  | _, _ => false

/-- A call with its answer. -/
abbrev RepoEntry := (c : RepoCall) × Except DomainError c.Result

/-- The call was made, and this was the answer. -/
def Told (log : Journal repoIface) (c : RepoCall) (r : c.Result) : Prop :=
  (⟨c, .ok r⟩ : RepoEntry) ∈ log

/-- What stands in the journal of a request when it makes a call.  Where it says what the
    journal begins with, nothing but the other threads comes between that and the call. -/
def Backed (t : RestCall) (log : Journal repoIface) : RepoCall → Prop
  | .networks (.create net) => t.founder = some net.ownerID
  | .networks (.update net) => t.registers = none ∧ ∃ n known,
      Told log (.networks (.getByID n)) known ∧ net.id = known.id ∧ net.ownerID = known.ownerID
  | .networks (.rotateInviteCode _ _ _) => t.registers = none
  | .networks (.delete n) => ∃ u row, t = .deleteNetwork n u ∧
      Told log (.members (.get n u)) row ∧ row.role = .owner
  | .members (.create m) =>
    (m.role = .owner ∧ t.founder = some m.userID ∧ ∃ net stored,
      Told log (.networks (.create net)) stored ∧ stored.id = m.networkID ∧
        net.ownerID = m.userID) ∨
    (m.role = .member ∧ ∃ code net, t = .joinNetwork m.userID code ∧
      Told log (.networks (.getByInviteCode code)) net ∧ net.id = m.networkID)
  | .members (.updateRole n u role) => ∃ caller row target rest,
      t = .updateMemberRole n caller u role ∧
      log = ⟨.members (.get n u), .ok target⟩ :: rest ∧ Told rest (.members (.get n caller)) row ∧
      target.role ≠ .owner ∧ (role = .admin ∨ role = .member) ∧
      (role = .admin ∨ target.role = .admin → row.role = .owner)
  | .members (.delete n u) => ∃ caller row target rest, t = .removeMember n caller u ∧
      log = ⟨.members (.get n u), .ok target⟩ :: rest ∧ Told rest (.members (.get n caller)) row ∧
      target.role ≠ .owner ∧ (caller ≠ u → target.role = .admin → row.role = .owner)
  | .devices (.nextFreeVirtualIP n cidr) => (∃ u key, t.registers = some (u, n, key)) ∧
      ∃ net, Told log (.networks (.getByID n)) net ∧ net.cidr = cidr
  | .newID => ∀ u n key, t.registers = some (u, n, key) → ∃ cidr ip rest,
      log = ⟨.devices (.nextFreeVirtualIP n cidr), .ok ip⟩ :: rest
  | .devices (.create d) => t.registers = some d.owned ∧ ∃ cidr id row rest,
      log = ⟨.newID, .ok id⟩ ::
        ⟨.devices (.nextFreeVirtualIP d.networkID cidr), .ok d.virtualIP⟩ :: rest ∧
      Told rest (.members (.get d.networkID d.userID)) row
  | .devices (.update d) => ∃ key known, Told log (.devices (.getByPublicKey key)) known ∧
      d.id = known.id ∧ d.owned = known.owned ∧ d.virtualIP = known.virtualIP
  | _ => True

/-- A request settles on its network once, and each of its calls is backed. -/
def Fitting (t : RestCall) (log : Journal repoIface) (c : RepoCall) : Prop :=
  (t.locates c = true → ∀ e ∈ log, t.locates e.1 = false) ∧ Backed t log c

/-- `Create` succeeds only after it has stored the owner's row. -/
def Concluded (log : Journal repoIface) : RestOutcome → Prop
  | ⟨.createNetwork u _ _ _ _, .ok net⟩ => ∃ row stored,
      Told log (.members (.create row)) stored ∧ row.networkID = net.id ∧ row.userID = u ∧
        row.role = .owner
  | _ => True

/-- The call stores a code with a network that may have had another. -/
def RepoCall.storesCode : RepoCall → Bool
  | .networks (.create _) | .networks (.rotateInviteCode _ _ _) => true
  | _ => false

/-- The request has drawn the code, and has stored none yet. -/
def Holds (code : String) (log : Journal repoIface) : Prop :=
  Told log .generateInviteCode code ∧ ∀ e ∈ log, e.1.storesCode = false

def CodeFits (log : Journal repoIface) : RepoCall → Prop
  | .networks (.create net) => Holds net.inviteCode log
  | .networks (.rotateInviteCode _ code _) => Holds code log
  | .networks (.update net) => ∃ n known rest,
      log = ⟨.networks (.getByID n), .ok known⟩ :: rest ∧ net.id = known.id ∧
        net.inviteCode = known.inviteCode
  | _ => True

/-- A device is brought up to date if it is the one that is to be registered, and deleted if
    the request is to delete it. -/
def Rightful (t : RestCall) (log : Journal repoIface) : RepoCall → Prop
  | .devices (.update d) => ∃ key known row, t.registers = some (d.userID, d.networkID, key) ∧
      Told log (.devices (.getByPublicKey key)) known ∧ d.publicKey = known.publicKey ∧
      Told log (.members (.get d.networkID d.userID)) row
  | .devices (.delete d) => t.removes = some (.devices (.delete d))
  | _ => True

/-- The call is backed, and so are the code that it stores and what it does to a device. -/
def Sourced (t : RestCall) (log : Journal repoIface) (c : RepoCall) : Prop :=
  Fitting t log c ∧ CodeFits log c ∧ Rightful t log c

/-! ## The services -/

variable {c : RepoCall}

section

variable {lib : StdLib} {t : RestCall} {log : Journal repoIface} {α : Type}
  {Q : α → Journal repoIface → Prop} {fits : Journal repoIface → RepoCall → Prop}

theorem fits_last (hc : fits log c) : Fits fits (call c) (fun _ _ => True) log :=
  fits_attempt hc fun _ => trivial

variable {n u : UUID}

theorem fits_requireMembership {f : NetworkMember → Svc α} (hc : fits log (.members (.get n u)))
    (hf : ∀ m, Fits fits (f m) Q (⟨.members (.get n u), .ok m⟩ :: log)) :
    Fits fits (requireMembership n u >>= f) Q log := by
  apply Fits.bind
  apply fits_try hc
  intro r
  split
  · exact fits_pure (hf _)
  · exact fits_throw _
  · exact fits_throw _

/-- The call needs no backing, and no request settles on a network by it. -/
def RepoCall.plain : RepoCall → Bool
  | .networks (.create _) | .networks (.getByInviteCode _) | .networks (.update _)
  | .networks (.delete _) | .networks (.rotateInviteCode _ _ _) | .members (.create _)
  | .members (.get _ _) | .members (.updateRole _ _ _) | .members (.delete _ _)
  | .devices (.create _) | .devices (.update _) | .devices (.delete _)
  | .devices (.nextFreeVirtualIP _ _) | .newID => false
  | _ => true

theorem RestCall.locates_cases (h : t.locates c = true) :
    (∃ net, c = .networks (.create net)) ∨ (∃ code, c = .networks (.getByInviteCode code)) ∨
      t.registers.isSome ∧ ∃ n u, c = .members (.get n u) := by
  unfold locates at h
  split at h
  · exact .inl ⟨_, rfl⟩
  · exact .inr (.inl ⟨_, rfl⟩)
  · exact .inr (.inr ⟨rfl, _, _, rfl⟩)
  · exact .inr (.inr ⟨rfl, _, _, rfl⟩)
  · cases h

theorem sourced_write (hloc : t.locates c = false) (hback : Backed t log c)
    (hrest : CodeFits log c ∧ Rightful t log c) : Sourced t log c :=
  ⟨⟨fun h => absurd (hloc.symm.trans h) Bool.false_ne_true, hback⟩, hrest⟩

theorem sourced_plain (hc : c.plain = true) : Sourced t log c := by
  refine ⟨⟨?_, ?_⟩, ?_, ?_⟩
  · intro hloc
    rcases locates_cases hloc with ⟨_, rfl⟩ | ⟨_, rfl⟩ | ⟨_, _, _, rfl⟩ <;> cases hc
  · unfold Backed
    split <;> first | cases hc | trivial
  · unfold CodeFits
    split <;> first | cases hc | trivial
  · unfold Rightful
    split <;> first | cases hc | trivial

theorem sourced_getMember (ht : t.registers = none) (n u : UUID) :
    Sourced t log (.members (.get n u)) := by
  refine ⟨⟨fun hloc => ?_, trivial⟩, trivial, trivial⟩
  rcases locates_cases hloc with ⟨_, h⟩ | ⟨_, h⟩ | ⟨h, _⟩
  · cases h
  · cases h
  · rw [ht] at h
    cases h

theorem sourced_newID (hback : Backed t log .newID) : Sourced t log .newID := by
  refine ⟨⟨fun hloc => ?_, hback⟩, trivial, trivial⟩
  rcases locates_cases hloc with ⟨_, h⟩ | ⟨_, h⟩ | ⟨_, _, _, h⟩ <;> cases h

theorem sourced_drawn (ht : t.registers = none) : Sourced t log .newID :=
  sourced_newID fun _ _ _ h => nomatch ht.symm.trans h

theorem sourced_nil (hback : Backed t [] c) (hrest : CodeFits [] c ∧ Rightful t [] c) :
    Sourced t [] c :=
  ⟨⟨(fun _ _ he => nomatch he), hback⟩, hrest⟩

theorem fits_mergePresence (hplain : ∀ log' c, c.plain = true → fits log' c) (ds : List Device) :
    Fits fits (mergePresence ds) (fun _ _ => True) log := by
  apply fits_mapM (K := fun _ => True)
  · intro d log' _
    apply fits_try (hplain _ _ rfl)
    intro r
    split <;> exact fits_pure trivial
  · trivial

theorem fits_withCounts (hplain : ∀ log' c, c.plain = true → fits log' c) (n : Network) :
    Fits fits (withCounts n) (fun _ _ => True) log :=
  fits_try (hplain _ _ rfl) fun _ => fits_try (hplain _ _ rfl) fun _ => fits_pure trivial

theorem fits_authorizeDeviceAccess {d : UUID} {f : Device → Svc α}
    (hplain : ∀ log' c, c.plain = true → fits log' c)
    (hlook : ∀ n log', fits log' (.members (.get n u)))
    (hf : ∀ dev log', Fits fits (f dev) Q log') :
    Fits fits (DeviceService.authorizeDeviceAccess d u >>= f) Q log := by
  apply Fits.bind
  apply fits_call (hplain _ _ rfl)
  intro dev
  split
  · exact fits_pure (hf _ _)
  · apply fits_requireMembership (hlook _ _)
    intro row
    exact fits_require fun _ => fits_pure (hf _ _)

variable (lib) in
theorem fits_create (u : UUID) (name description cidr : String) (dns : List String) :
    Fits (Sourced (.createNetwork u name description cidr dns))
      (create lib u name description cidr dns)
      (fun net log => Concluded log ⟨.createNetwork u name description cidr dns, .ok net⟩) [] := by
  apply fits_require
  intro _
  apply fits_require
  intro _
  apply fits_call (sourced_plain rfl)
  intro code
  apply fits_call (sourced_drawn rfl)
  intro id
  apply fits_call
  · refine ⟨⟨fun _ e he => ?_, rfl⟩, ⟨by simp [Told], by simp [RepoCall.storesCode]⟩, trivial⟩
    rcases mem_pair.mp he with rfl | rfl <;> rfl
  intro net
  apply fits_call (sourced_drawn rfl)
  intro memberID
  apply fits_call
  · refine sourced_write rfl (.inl ⟨rfl, rfl, _, net, ?_, rfl, rfl⟩) ⟨trivial, trivial⟩
    exact mem_cons_of_mem _ mem_cons_self
  intro row
  exact fits_pure ⟨_, row, mem_cons_self, rfl, rfl, rfl⟩

theorem fits_join (u : UUID) (code : String) :
    Fits (Sourced (.joinNetwork u code)) (join u code) (fun _ _ => True) [] := by
  refine fits_try (sourced_nil trivial ⟨trivial, trivial⟩) ?_
  intro r
  split
  · exact fits_throw _
  · exact fits_throw _
  · next net =>
    apply fits_require
    intro _
    apply fits_call (sourced_plain rfl)
    intro now
    apply fits_require
    intro _
    apply fits_try (sourced_getMember rfl _ _)
    intro r
    split
    · exact fits_withCounts (fun _ _ => sourced_plain) _
    · apply fits_call (sourced_drawn rfl)
      intro id
      apply fits_call
      · -- The code that was presented is what the lookup was asked for.
        refine sourced_write rfl (.inr ⟨rfl, code, net, rfl, ?_, rfl⟩) ⟨trivial, trivial⟩
        simp [Told]
      intro row
      exact fits_withCounts (fun _ _ => sourced_plain) _

variable (lib) in
theorem fits_update (n u : UUID) (name description cidr : Option String)
    (dns : Option (List String)) :
    Fits (Sourced (.updateNetwork n u name description cidr dns))
      (update lib n u name description cidr dns) (fun _ _ => True) [] := by
  apply fits_requireMembership (sourced_getMember rfl _ _)
  intro row
  apply fits_require
  intro _
  apply fits_call (sourced_plain rfl)
  intro known
  -- Whatever the new range is, the id, the owner and the code are those that were read.
  have hstore : ∀ net : Network, net.id = known.id → net.ownerID = known.ownerID →
      net.inviteCode = known.inviteCode →
      Sourced (.updateNetwork n u name description cidr dns)
        [⟨.networks (.getByID n), .ok known⟩, ⟨.members (.get n u), .ok row⟩]
        (.networks (.update net)) := by
    intro net hid howner hcode
    exact sourced_write rfl ⟨rfl, n, known, mem_cons_self, hid, howner⟩
      ⟨⟨n, known, _, rfl, hid, hcode⟩, trivial⟩
  cases cidr with
  | none =>
    exact Fits.bind (fits_pure (fits_call (hstore _ rfl rfl rfl) fun _ => fits_pure trivial))
  | some cidr =>
    apply Fits.bind
    apply fits_require
    intro _
    exact fits_pure (fits_call (hstore _ rfl rfl rfl) fun _ => fits_pure trivial)

theorem fits_delete (n u : UUID) :
    Fits (Sourced (.deleteNetwork n u)) (delete n u) (fun _ _ => True) [] := by
  apply fits_requireMembership (sourced_getMember rfl _ _)
  intro row
  apply fits_require
  intro hrole
  refine fits_last (sourced_write rfl ⟨u, row, rfl, mem_cons_self, ?_⟩ ⟨trivial, trivial⟩)
  simpa using hrole

theorem fits_updateMemberRole (n caller u : UUID) (role : NetworkRole) :
    Fits (Sourced (.updateMemberRole n caller u role))
      (updateMemberRole n caller u role) (fun _ _ => True) [] := by
  apply fits_requireMembership (sourced_getMember rfl _ _)
  intro row
  apply fits_require
  intro hrole
  apply fits_call (sourced_getMember rfl _ _)
  intro target
  apply fits_require
  intro howner
  have hwrite : (role = .admin ∨ target.role = .admin → row.role = .owner) →
      Sourced (.updateMemberRole n caller u role)
        [⟨.members (.get n u), .ok target⟩, ⟨.members (.get n caller), .ok row⟩]
        (.members (.updateRole n u role)) := by
    intro hadmin
    refine sourced_write rfl ⟨caller, row, target, _, rfl, rfl, mem_cons_self, ?_,
      of_decide_eq_true hrole, hadmin⟩ ⟨trivial, trivial⟩
    exact of_decide_eq_true howner
  split
  · apply fits_require
    intro hcaller
    exact fits_last (hwrite fun _ => by simpa using hcaller)
  · next hplain =>
    apply fits_require
    intro _
    exact fits_last (hwrite fun h => absurd h hplain)

theorem fits_removeMember (n caller u : UUID) :
    Fits (Sourced (.removeMember n caller u)) (removeMember n caller u) (fun _ _ => True) [] := by
  apply fits_requireMembership (sourced_getMember rfl _ _)
  intro row
  apply fits_call (sourced_getMember rfl _ _)
  intro target
  apply fits_require
  intro howner
  have hwrite : (caller ≠ u → target.role = .admin → row.role = .owner) →
      Sourced (.removeMember n caller u)
        [⟨.members (.get n u), .ok target⟩, ⟨.members (.get n caller), .ok row⟩]
        (.members (.delete n u)) := by
    intro hadmin
    refine sourced_write rfl ⟨caller, row, target, _, rfl, rfl, mem_cons_self, ?_,
      hadmin⟩ ⟨trivial, trivial⟩
    exact of_decide_eq_true howner
  split
  · apply fits_require
    intro _
    apply fits_require
    intro hprotected
    -- Only the owner may remove an admin.
    refine fits_last (hwrite fun _ hadmin => ?_)
    simpa [hadmin] using hprotected
  · next hsame => exact fits_last (hwrite fun hne => absurd hne hsame)

theorem locates_devices (c : DeviceCall) : t.locates (.devices c) = false := by
  cases hloc : t.locates (.devices c) with
  | false => rfl
  | true =>
    rcases locates_cases hloc with ⟨_, h⟩ | ⟨_, h⟩ | ⟨_, _, _, h⟩ <;> cases h

theorem fits_createDevice {key : String} {row : NetworkMember} {net : Network}
    {make : String → UUID → Device} (ht : t.registers = some (u, n, key))
    (hmake : ∀ ip id, (make ip id).owned = (u, n, key)) (hip : ∀ ip id, (make ip id).virtualIP = ip)
    (hrow : Told log (.members (.get n u)) row) (hnet : Told log (.networks (.getByID n)) net) :
    Fits (Sourced t) (call (.devices (.nextFreeVirtualIP n net.cidr)) >>= fun ip =>
      call .newID >>= fun id => call (.devices (.create (make ip id)))) (fun _ _ => True) log := by
  refine fits_call (sourced_write (locates_devices _) ⟨⟨u, key, ht⟩, net, hnet, rfl⟩
    ⟨trivial, trivial⟩) ?_
  intro ip
  apply fits_call
  · apply sourced_newID
    intro u' n' key' ht'
    obtain ⟨rfl, rfl, rfl⟩ : u = u' ∧ n = n' ∧ key = key' := by simpa [ht] using ht'
    exact ⟨net.cidr, ip, log, rfl⟩
  intro id
  obtain ⟨hu, hn, -⟩ : (make ip id).userID = u ∧ (make ip id).networkID = n ∧
      (make ip id).publicKey = key := by simpa [Device.owned] using hmake ip id
  refine fits_last (sourced_write (locates_devices _)
    ⟨ht.trans (congrArg some (hmake ip id).symm), net.cidr, id, row, log, ?_, ?_⟩
    ⟨trivial, trivial⟩)
  · rw [hip, hn]
  · rw [hn, hu]
    exact hrow

theorem fits_register (u n : UUID) (name os osVersion key : String) :
    Fits (Sourced (.registerDevice u n name os osVersion key))
      (DeviceService.register u n name os osVersion key) (fun _ _ => True) [] := by
  apply fits_require
  intro _
  refine fits_requireMembership (sourced_nil trivial ⟨trivial, trivial⟩) ?_
  intro row
  apply fits_call (sourced_plain rfl)
  intro net
  apply fits_try (sourced_plain rfl)
  intro r
  split
  · exact fits_throw _
  · exact fits_createDevice rfl (fun _ _ => rfl) (fun _ _ => rfl)
      (mem_cons_of_mem _ (mem_cons_of_mem _ mem_cons_self))
      (mem_cons_of_mem _ mem_cons_self)
  · exact fits_throw _

theorem fits_findOrCreate {row : NetworkMember} {net : Network}
    {input : RegisterDeviceInput}
    (ht : t.registers = some (u, n, input.publicKey)) (hrow : Told log (.members (.get n u)) row)
    (hnet : Told log (.networks (.getByID n)) net) :
    Fits (Sourced t) (findOrCreate u n net.cidr input) (fun _ _ => True)
      log := by
  apply fits_try (sourced_plain rfl)
  intro r
  split
  · next known =>
    apply fits_require
    intro hown
    obtain ⟨rfl, rfl⟩ := of_decide_eq_true hown
    exact fits_last (sourced_write (locates_devices _)
      ⟨input.publicKey, known, mem_cons_self, rfl, rfl, rfl⟩ ⟨trivial, input.publicKey, known,
        row, ht, mem_cons_self, rfl, mem_cons_of_mem _ hrow⟩)
  · exact fits_createDevice ht (fun _ _ => rfl) (fun _ _ => rfl) (mem_cons_of_mem _ hrow)
      (mem_cons_of_mem _ hnet)
  · exact fits_throw _

theorem fits_coordinate (u n : UUID) (input : RegisterDeviceInput) :
    Fits (Sourced (.coordinate u n input)) (registerDevice u n input) (fun _ _ => True) [] := by
  refine fits_requireMembership (sourced_nil trivial ⟨trivial, trivial⟩) ?_
  intro row
  apply fits_call (sourced_plain rfl)
  intro net
  apply Fits.bind
  refine (fits_findOrCreate rfl (mem_cons_of_mem _ mem_cons_self) mem_cons_self).mono ?_
  intro d log' _
  apply fits_call (sourced_plain rfl)
  intro peers
  apply Fits.bind
  refine (fits_mergePresence (fun _ _ => sourced_plain) peers).mono ?_
  intro peers' log'' _
  exact fits_try (sourced_plain rfl) fun _ => fits_pure trivial

variable (lib) in
/-- Every request makes only calls that its own reads bear out, whatever they are answered. -/
theorem serve_sourced (t : RestCall) :
    Fits (Sourced t) (t.serve lib) (fun r log => Concluded log ⟨t, .ok r⟩) [] := by
  cases t with
  | createNetwork => exact fits_create lib ..
  | updateNetwork => exact fits_update lib ..
  | deleteNetwork => exact fits_delete ..
  | joinNetwork => exact fits_join ..
  | updateMemberRole => exact fits_updateMemberRole ..
  | removeMember => exact fits_removeMember ..
  | registerDevice => exact fits_register ..
  | coordinate => exact fits_coordinate ..
  -- The others only read, or write what needs no backing.
  | listNetworks u =>
    exact fits_call (sourced_plain rfl) fun _ =>
      fits_mapM (fun n _ _ => fits_withCounts (fun _ _ => sourced_plain) n) _ trivial
  | getNetwork n u =>
    exact fits_requireMembership (sourced_getMember rfl _ _) fun _ =>
      fits_call (sourced_plain rfl) fun _ => fits_withCounts (fun _ _ => sourced_plain) _
  | rotateInvite n u =>
    exact fits_requireMembership (sourced_getMember rfl _ _) fun _ => fits_require fun _ =>
      fits_call (sourced_plain rfl) fun _ =>
      fits_call (sourced_write rfl rfl
        ⟨⟨by simp [Told], by simp [RepoCall.storesCode]⟩, trivial⟩) fun _ => fits_pure trivial
  | listMembers n u =>
    exact fits_requireMembership (sourced_getMember rfl _ _) fun _ =>
      fits_last (sourced_plain rfl)
  | listDevices n u =>
    exact fits_requireMembership (sourced_getMember rfl _ _) fun _ =>
      fits_call (sourced_plain rfl) fun _ => fits_mergePresence (fun _ _ => sourced_plain) _
  | getDevice d u =>
    refine fits_authorizeDeviceAccess (fun _ _ => sourced_plain)
      (fun n _ => sourced_getMember rfl n u) ?_
    intro dev log
    apply fits_try (sourced_plain rfl)
    intro r
    split <;> exact fits_pure trivial
  | deleteDevice d u =>
    refine fits_authorizeDeviceAccess (fun _ _ => sourced_plain)
      (fun n _ => sourced_getMember rfl n u) ?_
    intro dev log
    exact fits_call (sourced_write rfl trivial ⟨trivial, rfl⟩) fun _ =>
      fits_try (sourced_plain rfl) fun _ => fits_try (sourced_plain rfl) fun _ => fits_pure trivial
  | heartbeat d u pub priv nat sent received =>
    exact fits_call (sourced_plain rfl) fun _ => fits_require fun _ =>
      fits_call (sourced_plain rfl) fun _ => fits_call (sourced_plain rfl) fun _ =>
      fits_try (sourced_plain rfl) fun _ => fits_try (sourced_plain rfl) fun _ =>
      fits_pure trivial
  | listPeers d u =>
    refine fits_authorizeDeviceAccess (fun _ _ => sourced_plain)
      (fun n _ => sourced_getMember rfl n u) ?_
    intro dev log
    exact fits_call (sourced_plain rfl) fun _ => fits_mergePresence (fun _ _ => sourced_plain) _

end

/-! ## A request alone -/

section

variable {lib : StdLib} {t : RestCall} {s : Store} {log : Journal repoIface}

theorem getMember_ok {n u : UUID} {m : NetworkMember} {i : RepoInput}
    (h : (method lib (.members (.get n u)) i s).1 = .ok m) : s.member n u = some m := by
  simp only [method, memberMethod, MemberRepo.get] at h
  split at h
  · cases h
  · next hrow => rw [Store.member, hrow, Except.ok.inj h]

theorem getByPublicKey_ok {key : String} {d : Device} {i : RepoInput}
    (h : (method lib (.devices (.getByPublicKey key)) i s).1 = .ok d) :
    s.devices.get d.id = some d ∧ d.publicKey = key := by
  simp only [method, deviceMethod, DeviceRepo.getByPublicKey] at h
  split at h
  · cases h
  · next hfound =>
    cases h
    exact (Table.found hfound).imp_right eq_of_beq

/-- What a request has read is still so. -/
structure StillSo (t : RestCall) (s : Store) (log : Journal repoIface) : Prop where
  member : t.registers ≠ none → ∀ n u row, Told log (.members (.get n u)) row → s.IsMember n u
  key : ∀ key d, Told log (.devices (.getByPublicKey key)) d → d.publicKey = key

theorem Sourced.cases (h : Sourced t log c) (hstill : StillSo t s log) :
    c.mild = true ∨ (∃ d, c.placed = some d ∧ t.registers = some d.owned ∧
      s.IsMember d.networkID d.userID) ∨ t.removes = some c := by
  rcases c.mild_cases with hmild | ⟨d, hd⟩ | ⟨d, rfl⟩ | ⟨n, u, rfl⟩ | ⟨n, rfl⟩
  · exact .inl hmild
  · refine .inr (.inl ⟨d, hd, ?_⟩)
    unfold RepoCall.placed at hd
    split at hd
    · cases hd
      obtain ⟨hreg, _, _, row, rest, rfl, hrow⟩ := h.1.2
      refine ⟨hreg, hstill.member (by simp [hreg]) _ _ row ?_⟩
      exact mem_cons_of_mem _ (mem_cons_of_mem _ hrow)
    · cases hd
      obtain ⟨key, known, row, hreg, hknown, hsame, hrow⟩ := h.2.2
      refine ⟨?_, hstill.member (by simp [hreg]) _ _ row hrow⟩
      rw [hreg, Device.owned, hsame, hstill.key key known hknown]
    · cases hd
  · exact .inr (.inr h.2.2)
  · obtain ⟨_, _, _, _, rfl, -⟩ := h.1.2
    exact .inr (.inr rfl)
  · obtain ⟨_, _, rfl, -⟩ := h.1.2
    exact .inr (.inr rfl)

theorem StillSo.call (h : StillSo t s log) (hc : Sourced t log c) (i : RepoInput) :
    StillSo t (method lib c i s).2 (⟨c, (method lib c i s).1⟩ :: log) where
  member hreg n u row htold := by
    have hmbr : s.IsMember n u := by
      rcases mem_cons.mp htold with heq | hold
      · obtain ⟨rfl, hr⟩ := Sigma.mk.inj heq
        exact ⟨row, getMember_ok (eq_of_heq hr).symm⟩
      · exact h.member hreg n u row hold
    rcases hc.cases h with hmild | ⟨d, hd, -⟩ | hremoves
    · exact (mild_method lib hmild i s).2 n u hmbr
    · rw [Store.IsMember, Store.member, (placed_method lib hd i s).1]
      exact hmbr
    · exact absurd (by cases t <;> first | rfl | cases hremoves) hreg
  key key d htold := by
    rcases mem_cons.mp htold with heq | hold
    · obtain ⟨rfl, hr⟩ := Sigma.mk.inj heq
      exact (getByPublicKey_ok (eq_of_heq hr).symm).2
    · exact h.key key d hold

variable (lib) in
theorem serve_keeps {J : Store → Prop} (hJ : Robust lib J) (t : RestCall)
    (hplace : ∀ u n key, t.registers = some (u, n, key) → Admits lib J u n key)
    (hremove : ∀ r, t.removes = some r → Kept lib J r) (hs : J s) (w : Nat → RepoInput) :
    J ((t.serve lib).run.exec (handler lib) w s).2 := by
  have hstart : StillSo t s [] :=
    ⟨(fun _ _ _ _ h => nomatch h), fun _ _ h => nomatch h⟩
  have hend := Obeys.exec_journaled (h := handler lib)
    (J := fun s log => J s ∧ StillSo t s log) w (fun c n s log hs hc => ⟨?_, hs.2.call hc _⟩)
    (serve_sourced lib t) ⟨hs, hstart⟩
  · rw [← exec_journaled _ _ _ _ []]
    exact hend.1.1
  · rcases hc.cases hs.2 with hmild | ⟨d, hd, hreg, hmbr⟩ | hremoves
    · exact hJ c hmild _ s hs.1
    · exact hplace _ _ _ hreg c d _ s hs.1 hmbr hd rfl
    · exact hremove c hremoves _ s hs.1

end

/-! ## Runs with journals -/

/-- The requests in progress, each with its journal. -/
abbrev JournaledRequests := Tracked repoIface Archive RestCall (Journal repoIface) RestOutcome

namespace JournaledRequests

variable {lib : StdLib}

def step (lib : StdLib) : JournaledRequests → RestStep → Option JournaledRequests :=
  Tracked.step (Archive.handler lib) (fun t => Journal.protocol (Fitting t)) []
    (body lib) fun _ => none

/-- Every request goes on as its service does, and ends with what the service returns. -/
def AsServed (p : JournaledRequests) : Prop :=
  p.Conforming (fun t => Journal.protocol (Fitting t)) fun t a log => a.1 = t ∧ Concluded log a

variable (lib) in
theorem body_obeys (t : RestCall) :
    (t.body lib).Obeys (Journal.protocol (Fitting t))
      (fun a log => a.1 = t ∧ Concluded log a) [] := by
  apply Obeys.bind
  refine Obeys.mono ?_ (Obeys.weaken (fun _ _ h => h.1) (serve_sourced lib t))
  intro r log hr
  refine ⟨rfl, ?_⟩
  cases r with
  | ok a => exact hr a rfl
  | error e => cases t <;> trivial

theorem fitting_next {t : RestCall} {Q : RestOutcome → Journal repoIface → Prop}
    {q : RestProg} {log : Journal repoIface}
    (h : q.Obeys (Journal.protocol (Fitting t)) Q log) (hc : c ∈ nextCall q) : Fitting t log c := by
  cases q with
  | ret a => cases hc
  | call c' k =>
    cases hc
    exact h.1

variable {p p' : JournaledRequests} {a : RestStep}

theorem AsServed.step (h : AsServed p) (hstep : step lib p a = some p') : AsServed p' :=
  Tracked.Conforming.step h (body_obeys lib) (fun _ _ _ => trivial) hstep

end JournaledRequests

namespace Requests

variable {lib : StdLib} {C : Requests → RestStep → Prop}
  {J : JournaledRequests → Prop}

/-- The requests can be given journals with `J`. -/
def Journaled (J : JournaledRequests → Prop) (p : Requests) : Prop :=
  ∃ q : JournaledRequests, q.erase = p ∧ q.AsServed ∧ J q

variable {as : List RestStep} (hidle : J ⟨⟨.empty, [], []⟩, []⟩)
  (hJ : ∀ (q : JournaledRequests) a q', J q → q.AsServed → DrawsUnused q.erase a → C q.erase a →
    JournaledRequests.step lib q a = some q' → J q') (h : Along (step lib) C idle as)

include hidle hJ h

theorem throughout {P : Requests → Prop} (hP : ∀ q, q.AsServed → J q → P q.erase) :
    Throughout (step lib) P idle as := by
  refine (h.throughout (P := Journaled J) ?_ ?_).mono ?_
  · rintro p a p' ⟨q, rfl, hserv, hq⟩ hc hstep
    obtain ⟨hunused, hstep⟩ := Option.ite_none_right_eq_some.mp hstep
    obtain ⟨q', hq', rfl⟩ : ∃ q', JournaledRequests.step lib q a = some q' ∧ q'.erase = p' :=
      Tracked.exists_step hstep
    exact ⟨q', rfl, hserv.step hq', hJ q a q' hq hserv hunused hc hq'⟩
  · exact ⟨⟨⟨.empty, [], []⟩, []⟩, rfl, (fun _ hth => nomatch hth), hidle⟩
  · rintro p ⟨q, rfl, hserv, hq⟩
    exact hP q hserv hq

theorem along {D : Requests → RestStep → Prop}
    (hD : ∀ q a, q.AsServed → J q → D q.erase a) : Along (step lib) D idle as :=
  Throughout.along (throughout hidle hJ h fun q hserv hq a => hD q a hserv hq)

end Requests

end NexusVPN.Backend
