import NexusVPN.Backend.AccessControl

/-! # Removals and the peer event bus

    Devices disappear in three places: when they are deleted, when their owner is
    removed from the network, and when the network is deleted.  The last two are
    cascades inside the repository, below `NetworkService`, which knows no event bus.
    Connected peers drop a device when they are told that it left. -/

namespace NexusVPN.Backend

open Prog Table Store DeviceService

/-! ## Removals -/

/-- The calls that can make devices disappear. -/
inductive Removal where
  | device (d u : UUID)
  | member (n u target : UUID)
  | network (n u : UUID)

def Removal.call : Removal → RestCall
  | .device d u => .deleteDevice d u
  | .member n u target => .removeMember n u target
  | .network n u => .deleteNetwork n u

/-- Every device that is there before and not after is named by a LEFT event that was
    published in between. -/
def Announced (before after : Store) : Prop :=
  ∀ id d, before.devices.get id = some d → after.devices.get id = none →
    ∃ new, after.published = new ++ before.published ∧ ⟨.left, d.networkID, id⟩ ∈ new

/-- No device goes with the member or the network. -/
def Removal.TakesNoDevice (s : Store) : Removal → Prop
  | .device .. => True
  | .member n _ target =>
    ∀ id d, s.devices.get id = some d → ¬ (d.networkID = n ∧ d.userID = target)
  | .network n _ => ∀ id d, s.devices.get id = some d → d.networkID ≠ n

/-- Nothing is published, and the devices in question are gone. -/
def SilentlyGone (s s' : Store) (gone : Device → Bool) : Prop :=
  s'.published = s.published ∧ ∀ id, s'.devices.get id = (s.devices.get id).filter fun d => !gone d

variable {lib : StdLib} {s s' : Store}

theorem SilentlyGone.announced_iff {gone : Device → Bool} (h : SilentlyGone s s' gone) :
    Announced s s' ↔ ∀ id d, s.devices.get id = some d → gone d = false := by
  obtain ⟨hpub, hdev⟩ := h
  constructor
  · intro hann id d hd
    cases hgone : gone d with
    | false => rfl
    | true =>
      have hnone : s'.devices.get id = none := by
        rw [hdev, hd]
        simp [hgone]
      obtain ⟨new, hnew, hmem⟩ := hann id d hd hnone
      -- Nothing can have been published in front of what was there.
      rw [hpub, List.self_eq_append_left] at hnew
      rw [hnew] at hmem
      cases hmem
  · intro hstay id d hd hnone
    rw [hdev, hd] at hnone
    simp [hstay id d hd] at hnone

/-! ## What the three calls do when they succeed -/

theorem onOk_removeMember (n u target : UUID) :
    OnOk lib (NetworkService.removeMember n u target)
      (fun _ s' => SilentlyGone s s' fun d => d.networkID == n && d.userID == target) s := by
  have hdel : OnOk lib (call (.members (.delete n target)))
      (fun _ s' => SilentlyGone s s' fun d => d.networkID == n && d.userID == target) s := by
    rw [OnOk, wpe_call]
    intro i
    simp only [method, memberMethod, MemberRepo.delete]
    split
    · trivial
    · exact ⟨rfl, fun id => get_deleteLoop _ _ _ _⟩
  apply onOk_requireMembership
  intro m _
  apply onOk_getMember
  intro t _
  apply onOk_require
  intro _
  split
  · exact onOk_require fun _ => onOk_require fun _ => hdel
  · exact hdel

theorem onOk_deleteNetwork (n u : UUID) :
    OnOk lib (NetworkService.delete n u)
      (fun _ s' => SilentlyGone s s' fun d => d.networkID == n) s := by
  apply onOk_requireMembership
  intro m _
  apply onOk_require
  intro _
  rw [OnOk, wpe_call]
  intro i
  simp only [method, networkMethod, NetworkRepo.delete]
  split
  · trivial
  · exact ⟨rfl, fun id => get_deleteLoop _ _ _ _⟩

theorem wpe_authorizeDeviceAccess {d u : UUID} {Q : Device → Store → Prop}
    {E : DomainError → Store → Prop} (hQ : ∀ dev, s.devices.get d = some dev → Q dev s)
    (hE : ∀ e, E e s) :
    wpe (handler lib) (authorizeDeviceAccess d u) Q E s := by
  unfold authorizeDeviceAccess
  rw [wpe_bind, wpe_getDevice]
  refine ⟨?_, fun _ => hE _⟩
  intro dev hdev
  split
  · exact hQ dev hdev
  · rw [wpe_bind, wpe_requireMembership]
    refine ⟨?_, fun _ => hE _⟩
    intro m _
    rw [wpe_bind, wpe_require]
    exact ⟨fun _ => hQ dev hdev, fun _ => hE _⟩

variable (lib) in
theorem wpe_deleteDevice (d u : UUID) :
    wpe (handler lib) (delete d u)
      (fun _ s' => ∃ dev, s.devices.get d = some dev ∧ s'.devices = s.devices.del d ∧
        s'.published = ⟨.left, dev.networkID, d⟩ :: s.published)
      (fun _ s' => s' = s) s := by
  unfold delete
  rw [wpe_bind]
  refine wpe_authorizeDeviceAccess ?_ fun _ => rfl
  intro dev hdev
  rw [wpe_bind, wpe_call]
  intro i
  simp only [method, deviceMethod, DeviceRepo.delete, hdev]
  intro i' i''
  have hid : dev.id = d := key_of_get hdev
  refine ⟨dev, rfl, rfl, ?_⟩
  rw [← hid]
  rfl

theorem onOk_deleteDevice (d u : UUID) : OnOk lib (delete d u) (fun _ s' => Announced s s') s := by
  refine wpe_mono ?_ (fun _ _ _ => trivial) (wpe_deleteDevice lib d u)
  rintro _ s' ⟨dev, hdev, hdevs, hpub⟩ id d' hd' hgone
  refine ⟨[⟨.left, dev.networkID, d⟩], hpub, ?_⟩
  -- Only the device that was named is gone.
  rw [hdevs, get_del] at hgone
  split at hgone
  · next heq =>
    subst heq
    cases hdev.symm.trans hd'
    exact List.mem_singleton_self _
  · rw [hd'] at hgone
    cases hgone

/-! ## Which removals are announced -/

/-- Deleting a device is always announced.  Removing a member or deleting a network is
    announced only if there is nothing to announce. -/
theorem removal_announced_iff (c : Removal) (w : Nat → RepoInput) {r : c.call.Result}
    (hok : ((c.call.serve lib).run.exec (handler lib) w s).1 = .ok r) :
    Announced s ((c.call.serve lib).run.exec (handler lib) w s).2 ↔ c.TakesNoDevice s := by
  cases c with
  | device d u => exact ⟨fun _ => trivial, fun _ => of_exec_ok (onOk_deleteDevice d u) hok⟩
  | member n u target =>
    have hgone := of_exec_ok (onOk_removeMember n u target) hok
    refine hgone.announced_iff.trans ?_
    refine forall_congr' fun id => forall_congr' fun d => imp_congr_right fun _ => ?_
    simp [Bool.and_eq_false_imp]
  | network n u =>
    have hgone := of_exec_ok (onOk_deleteNetwork n u) hok
    refine hgone.announced_iff.trans ?_
    refine forall_congr' fun id => forall_congr' fun d => imp_congr_right fun _ => ?_
    simp

/-- A network with its owner, one guest, and the guest's phone. -/
def guestStore : Store :=
  { empty with
    members := (Table.empty.put ⟨.nil, .ofBytes [7], .ofBytes [1], .owner, 0⟩).put
      ⟨.nil, .ofBytes [7], .ofBytes [2], .member, 0⟩
    devices := Table.empty.put (newDevice (.ofBytes [9]) (.ofBytes [2]) (.ofBytes [7]) "phone"
      "android" "" "key" "10.77.0.2" false) }

theorem removal_announced_iff_guest :
    Announced guestStore (((Removal.member (.ofBytes [7]) (.ofBytes [1]) (.ofBytes [2])).call.serve
      lenientLib).run.exec (handler lenientLib) (fun _ => default) guestStore).2 ↔
    (Removal.member (.ofBytes [7]) (.ofBytes [1]) (.ofBytes [2])).TakesNoDevice guestStore :=
  removal_announced_iff (.member (.ofBytes [7]) (.ofBytes [1]) (.ofBytes [2])) _ (r := ()) rfl

/-- The owner removes the guest: the phone is gone, and nobody is told. -/
theorem removed_guest_not_announced :
    let out := (NetworkService.removeMember (.ofBytes [7]) (.ofBytes [1]) (.ofBytes [2])).run.exec
      (handler lenientLib) (fun _ => default) guestStore
    out.1 = .ok () ∧ ¬ Announced guestStore out.2 := by
  refine ⟨rfl, ?_⟩
  intro hann
  obtain ⟨new, hnew, hmem⟩ := hann (.ofBytes [9]) _ rfl rfl
  have hsil : [] = new ++ [] := hnew
  rw [List.append_nil] at hsil
  rw [← hsil] at hmem
  cases hmem

end NexusVPN.Backend
