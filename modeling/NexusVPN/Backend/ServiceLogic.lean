import NexusVPN.Backend.CoordinationService

/-! # Reasoning about service calls

    Rules of weakest preconditions for the steps that services are made of, over the
    embedded store: the lookups that authorization rests on, each with the row it
    finds, and the calls that only read. -/

namespace NexusVPN.Backend

open Prog Store NetworkService

variable {lib : StdLib} {s : Store} {α β : Type}

/-- The membership row of a user in a network. -/
abbrev Store.member (s : Store) (networkID userID : UUID) : Option NetworkMember :=
  s.members.get ⟨networkID, userID⟩

/-! ## Single calls -/

theorem wpe_call (c : RepoCall) (Q : c.Result → Store → Prop) (E : DomainError → Store → Prop) :
    wpe (handler lib) (call c) Q E s ↔
      ∀ i, outcome Q E (method lib c i s).1 (method lib c i s).2 := Iff.rfl

theorem wpe_try (c : RepoCall) (Q : Except DomainError c.Result → Store → Prop)
    (E : DomainError → Store → Prop) :
    wpe (handler lib) (tryCall c) Q E s ↔
      ∀ i, Q (method lib c i s).1 (method lib c i s).2 := Iff.rfl

theorem wpe_require {σ ι : Type} {h : Handler repoIface σ ι} {s : σ} (b : Bool)
    (err : DomainError) (Q : Unit → σ → Prop) (E : DomainError → σ → Prop) :
    wpe h (require b err) Q E s ↔ (b = true → Q () s) ∧ (b = false → E err s) := by
  unfold require
  cases b <;> simp

theorem wpe_now (Q : Time → Store → Prop) (E : DomainError → Store → Prop) :
    wpe (handler lib) (call .now) Q E s ↔ ∀ t, Q t s :=
  ⟨fun h t => h { (default : RepoInput) with now := t }, fun h i => h i.now⟩

theorem wpe_setOnline (networkID deviceID : UUID) (ep : PresenceEndpoint) (ttl : Int)
    (Q : Unit → Store → Prop) (E : DomainError → Store → Prop) :
    wpe (handler lib) (call (.setOnline networkID deviceID ep ttl)) Q E s ↔
      ∀ i, Q () (PresenceStore.setOnline networkID deviceID ep ttl i s).2 := Iff.rfl

theorem wpe_putICE (source target : UUID) (candidates : List ICECandidate) (ttl : Int)
    (Q : Unit → Store → Prop) (E : DomainError → Store → Prop) :
    wpe (handler lib) (call (.putICE source target candidates ttl)) Q E s ↔
      ∀ i, Q () (ICEStore.put source target candidates ttl i s).2 := Iff.rfl

/-! ## Lookups -/

theorem wpe_getDevice (id : UUID) (Q : Device → Store → Prop) (E : DomainError → Store → Prop) :
    wpe (handler lib) (call (.devices (.getByID id))) Q E s ↔
      (∀ d, s.devices.get id = some d → Q d s) ∧ (s.devices.get id = none → E .notFound s) := by
  rw [wpe_call]
  simp only [method, deviceMethod, DeviceRepo.getByID]
  cases s.devices.get id with
  | none | some => simp

theorem wpe_getMember (networkID userID : UUID) (Q : NetworkMember → Store → Prop)
    (E : DomainError → Store → Prop) :
    wpe (handler lib) (call (.members (.get networkID userID))) Q E s ↔
      (∀ m, s.member networkID userID = some m → Q m s) ∧
      (s.member networkID userID = none → E .notFound s) := by
  rw [wpe_call]
  simp only [method, memberMethod, MemberRepo.get, member]
  cases s.members.get ⟨networkID, userID⟩ with
  | none | some => simp

theorem wpe_tryMember (networkID userID : UUID)
    (Q : Except DomainError NetworkMember → Store → Prop) (E : DomainError → Store → Prop) :
    wpe (handler lib) (tryCall (.members (.get networkID userID))) Q E s ↔
      (∀ m, s.member networkID userID = some m → Q (.ok m) s) ∧
      (s.member networkID userID = none → Q (.error .notFound) s) := by
  rw [wpe_try]
  simp only [method, memberMethod, MemberRepo.get, member]
  cases s.members.get ⟨networkID, userID⟩ with
  | none | some => simp

theorem wpe_requireMembership (networkID userID : UUID) (Q : NetworkMember → Store → Prop)
    (E : DomainError → Store → Prop) :
    wpe (handler lib) (requireMembership networkID userID) Q E s ↔
      (∀ m, s.member networkID userID = some m → Q m s) ∧
      (s.member networkID userID = none → E .forbidden s) := by
  unfold requireMembership
  rw [wpe_bind, wpe_tryMember]
  exact Iff.rfl

/-! ## Calls that succeed -/

variable (lib) in
/-- Whenever the program succeeds, it does so with `Q`. -/
abbrev OnOk (p : Svc α) (Q : α → Store → Prop) (s : Store) : Prop :=
  wpe (handler lib) p Q (fun _ _ => True) s

variable {Q : α → Store → Prop} {n u : UUID}

theorem onOk_of_forall {p : Svc α} (h : ∀ a s', Q a s') : OnOk lib p Q s :=
  wpe_of_forall h (fun _ _ => trivial) s

theorem onOk_requireMembership {p : NetworkMember → Svc α}
    (h : ∀ m, s.member n u = some m → OnOk lib (p m) Q s) :
    OnOk lib (requireMembership n u >>= p) Q s := by
  rw [OnOk, wpe_bind, wpe_requireMembership]
  exact ⟨h, fun _ => trivial⟩

theorem onOk_require {b : Bool} {err : DomainError} {p : Unit → Svc α}
    (h : b = true → OnOk lib (p ()) Q s) : OnOk lib (require b err >>= p) Q s := by
  rw [OnOk, wpe_bind, wpe_require]
  exact ⟨h, fun _ => trivial⟩

theorem onOk_getMember {p : NetworkMember → Svc α}
    (h : ∀ m, s.member n u = some m → OnOk lib (p m) Q s) :
    OnOk lib (call (.members (.get n u)) >>= p) Q s := by
  rw [OnOk, wpe_bind, wpe_getMember]
  exact ⟨h, fun _ => trivial⟩

theorem onOk_getDevice {d : UUID} {p : Device → Svc α}
    (h : ∀ dev, s.devices.get d = some dev → OnOk lib (p dev) Q s) :
    OnOk lib (call (.devices (.getByID d)) >>= p) Q s := by
  rw [OnOk, wpe_bind, wpe_getDevice]
  exact ⟨h, fun _ => trivial⟩

end NexusVPN.Backend
