import NexusVPN.Backend.Allocation

/-! # Invite codes

    `RotateInvite` replaces the code of a network, and `Update` writes back the whole row
    that it has read, the code with it.  Between the two calls of `Update` the code may have
    been replaced.

    Codes are drawn at random.  No two of them are alike, not even for `EqualFold`. -/

namespace NexusVPN.Backend

open List Prog Option Table Machine RepoCall Archive JournaledRequests NetworkRepo Journal

/-! ## The machine -/

/-- The network whose code the call replaces. -/
def RepoCall.rotates : RepoCall → Option UUID
  | .networks (.rotateInviteCode id _ _) => some id
  | _ => none

/-- The network whose row the call writes back. -/
def RepoCall.updates : RepoCall → Option UUID
  | .networks (.update net) => some net.id
  | _ => none

/-- The requests, and a record of the codes that nothing ever reads. -/
structure Invites where
  requests : Requests
  drawn : List String
  /-- Every code that was replaced, with the one it was replaced by. -/
  replaced : List (String × String)

namespace Invites

def idle : Invites := ⟨.idle, [], []⟩

/-- The code that the action draws. -/
def drawnBy (s : Invites) : RestStep → List String
  | .spawn _ => []
  | .advance n i =>
    match s.requests.next n with
    | some .generateInviteCode => i.inviteCode.toOption.toList
    | _ => []

def replacedBy (s : Invites) : RestStep → List (String × String)
  | .spawn _ => []
  | .advance n _ =>
    match s.requests.next n with
    | some (.networks (.rotateInviteCode id code _)) =>
      (s.requests.shared.store.networks.get id).toList.map fun net => (net.inviteCode, code)
    | _ => []

/-- A code that is drawn is like none that was drawn before. -/
def DrawsNew (lib : StdLib) (s : Invites) (a : RestStep) : Prop :=
  ∀ code ∈ s.drawnBy a, ∀ old ∈ s.drawn,
    code ≠ old ∧ lib.equalFold code old = false ∧ lib.equalFold old code = false

instance (lib : StdLib) (s : Invites) (a : RestStep) : Decidable (s.DrawsNew lib a) :=
  inferInstanceAs (Decidable (∀ code ∈ s.drawnBy a, _))

def step (lib : StdLib) (s : Invites) (a : RestStep) : Option Invites :=
  if s.DrawsNew lib a then
    (Requests.step lib s.requests a).map fun p =>
      ⟨p, s.drawnBy a ++ s.drawn, s.replacedBy a ++ s.replaced⟩
  else none

/-- The code of a network is replaced while nobody is about to write the row back. -/
def Undisturbed (s : Invites) : RestStep → Prop
  | .spawn _ => True
  | .advance n _ => ∀ c ∈ s.requests.next n, ∀ id ∈ c.rotates,
      ∀ th ∈ s.requests.threads, ∀ c' ∈ nextCall th.2, c'.updates ≠ some id

instance (s : Invites) : (a : RestStep) → Decidable (s.Undisturbed a)
  | .spawn _ => .isTrue trivial
  | .advance n _ => inferInstanceAs (Decidable (∀ c ∈ s.requests.next n, _))

/-- A `RotateInvite` that has returned `new` replaced `old`. -/
def Rotated (s : Invites) (old new : String) : Prop :=
  (old, new) ∈ s.replaced ∧ ∃ n u expires,
    s.requests.Returned (.rotateInvite n u) ⟨.rotateInvite n u, .ok (new, expires)⟩

end Invites

theorem body_codeFits (lib : StdLib) (t : RestCall) :
    (t.body lib).Obeys (protocol CodeFits) (fun _ _ => True) [] := by
  apply Obeys.bind
  exact Obeys.mono (fun _ _ _ => trivial) (Obeys.weaken (fun _ _ h => h.2.1) (serve_sourced lib t))

/-! ## Where a code is -/

/-- A code is with the request that has drawn it, then with a network, and then nowhere. -/
inductive CodePlace where
  | held (thread : Nat)
  | network (id : UUID)
  | retired
deriving DecidableEq

/-- Each code is in one place at most, and was drawn at some time. -/
structure OnePlace (drawn : List String) (At : String → CodePlace → Prop) : Prop where
  mem_drawn : ∀ code p, At code p → code ∈ drawn
  unique : ∀ code p p', At code p → At code p' → p = p'

/-- A code that moves is still in one place only. -/
theorem OnePlace.move {drawn fresh : List String} {At At' : String → CodePlace → Prop}
    (h : OnePlace drawn At) (f : CodePlace → CodePlace) (n : Nat)
    (hmove : ∀ code p', At' code p' → (∃ p, At code p ∧ p' = f p) ∨ (code ∈ fresh ∧ p' = .held n))
    (hfresh : ∀ code ∈ fresh, code ∉ drawn) : OnePlace (fresh ++ drawn) At' := by
  constructor
  · intro code p' hp'
    rcases hmove code p' hp' with ⟨p, hp, -⟩ | ⟨hnew, -⟩
    · exact mem_append_right _ (h.mem_drawn code p hp)
    · exact mem_append_left _ hnew
  · intro code p' q' hp' hq'
    rcases hmove code p' hp' with ⟨p, hp, rfl⟩ | ⟨hnew, rfl⟩
    · rcases hmove code q' hq' with ⟨q, hq, rfl⟩ | ⟨hnew, -⟩
      · rw [h.unique code p q hp hq]
      · exact absurd (h.mem_drawn code p hp) (hfresh code hnew)
    · rcases hmove code q' hq' with ⟨q, hq, -⟩ | ⟨-, rfl⟩
      · exact absurd (h.mem_drawn code q hq) (hfresh code hnew)
      · rfl

/-- Where a call of thread `n` takes a code. -/
def RepoCall.takes (n : Nat) (i : RepoInput) : RepoCall → CodePlace → CodePlace
  | .networks (.create net), p => if p = .held n then .network (orFresh net.id i.fresh) else p
  | .networks (.rotateInviteCode id _ _), p =>
    if p = .held n then .network id else if p = .network id then .retired else p
  | _, p => p

variable {m : Nat} {id : UUID}

open CodePlace

namespace RepoCall

variable {c : RepoCall} {n : Nat} {i : RepoInput}

theorem takes_held (h : m = n → c.storesCode = false) : c.takes n i (.held m) = .held m := by
  unfold takes
  split
  · exact if_neg fun hheld => absurd (h (held.inj hheld)) Bool.true_eq_false.mp
  · rw [if_neg fun hheld => absurd (h (held.inj hheld)) Bool.true_eq_false.mp]
    rfl
  · rfl

theorem takes_network (h : c.rotates ≠ some id) : c.takes n i (.network id) = .network id := by
  unfold takes
  split
  · rfl
  · next id' _ _ =>
    have hne : network id ≠ .network id' := by
      intro heq
      rw [network.inj heq] at h
      exact h rfl
    rw [if_neg (by simp), if_neg hne]
  · rfl

theorem takes_retired : c.takes n i .retired = .retired := by
  unfold takes
  split <;> rfl

theorem rotates_eq (h : c.rotates = some id) :
    ∃ code expires, c = .networks (.rotateInviteCode id code expires) := by
  unfold rotates at h
  split at h
  · cases h
    exact ⟨_, _, rfl⟩
  · cases h

end RepoCall

namespace JournaledRequests

/-- Some request is about to write the row. -/
def Pending (q : JournaledRequests) (net : Network) : Prop :=
  ∃ th ∈ q.threads, nextCall th.2.2 = some (.networks (.update net))

def CodeAt (q : JournaledRequests) (retired : List String) (code : String) : CodePlace → Prop
  | .held n => ∃ th, q.threads[n]? = some th ∧ Holds code th.2.1
  | .network id => ∃ net : Network, (q.shared.store.networks.get id = some net ∨ q.Pending net) ∧
      net.id = id ∧ net.inviteCode = code
  | .retired => code ∈ retired

/-- Every request goes on as its service does. -/
def StoresOwn (q : JournaledRequests) : Prop :=
  q.Conforming (fun _ => protocol CodeFits) fun _ _ _ => True

variable {lib : StdLib} {q : JournaledRequests} {n : Nat} {i : RepoInput} {t : RestCall}
  {log : Journal repoIface} {c : RepoCall}
  {k : Except DomainError c.Result → RestProg} {code : String}

/-- The requests after a call of one of them. -/
def after (lib : StdLib) (q : JournaledRequests) (n : Nat) (i : RepoInput) (t : RestCall)
    (log : Journal repoIface) (c : RepoCall)
    (k : Except DomainError c.Result → RestProg) : JournaledRequests :=
  ⟨(handler lib c i q.shared).2,
    q.threads.set n (t, ⟨c, (handler lib c i q.shared).1⟩ :: log, k (handler lib c i q.shared).1)⟩

theorem not_pending_nil {th : RestCall × Journal repoIface × RestProg}
    (h : th.2.2.Obeys (protocol CodeFits) (fun _ _ => True) []) (net : Network) :
    nextCall th.2.2 ≠ some (.networks (.update net)) := by
  intro hnext
  obtain ⟨t, log, p⟩ := th
  cases p with
  | ret a => cases hnext
  | call c k =>
    cases hnext
    obtain ⟨_, _, _, hlog, -⟩ := h.1
    cases hlog

variable {retired : List String}

theorem held_after (hn : q.threads[n]? = some (t, log, .call c k))
    (h : (after lib q n i t log c k).CodeAt retired code (.held m)) :
    (q.CodeAt retired code (.held m) ∧ (m = n → c.storesCode = false)) ∨
      (c = .generateInviteCode ∧ i.inviteCode = .ok code ∧ m = n) := by
  obtain ⟨th, hm, htold, hnone⟩ := h
  rcases getElem?_set_cases hm with ⟨rfl, rfl⟩ | ⟨hmn, hold⟩
  · rcases mem_cons.mp htold with heq | hold
    · obtain ⟨hc, ha⟩ := Sigma.mk.inj heq
      subst hc
      exact .inr ⟨rfl, (eq_of_heq ha).symm, rfl⟩
    · refine .inl ⟨⟨_, hn, hold, ?_⟩, fun _ => hnone _ mem_cons_self⟩
      exact fun e he => hnone e (mem_cons_of_mem _ he)
  · exact .inl ⟨⟨th, hold, htold, hnone⟩, fun heq => absurd heq hmn⟩

theorem pending_after
    (hk : (k (handler lib c i q.shared).1).Obeys (protocol CodeFits)
      (fun _ _ => True) (⟨c, (handler lib c i q.shared).1⟩ :: log))
    {net : Network} (h : (after lib q n i t log c k).Pending net) :
    q.Pending net ∨ ∃ id known, c = .networks (.getByID id) ∧
      q.shared.store.networks.get id = some known ∧ net.id = known.id ∧
      net.inviteCode = known.inviteCode := by
  obtain ⟨th, hth, hnext⟩ := h
  rcases mem_or_eq_of_mem_set hth with hold | rfl
  · exact .inl ⟨th, hold, hnext⟩
  · right
    cases hq : k (handler lib c i q.shared).1 with
    | ret a =>
      rw [hq] at hnext
      cases hnext
    | call c' k' =>
      rw [hq] at hnext hk
      cases hnext
      -- A network is written back right after it was read.
      obtain ⟨id, known, rest, hlog, hid, hcode⟩ := hk.1
      obtain ⟨rfl, hans, -⟩ := latest_inj (I := repoIface) hlog
      refine ⟨id, known, rfl, ?_, hid, hcode⟩
      have hread : (getByID id i q.shared.store).1 = .ok known := eq_of_heq hans
      unfold getByID at hread
      split at hread
      · cases hread
      · next hget =>
        rw [hget]
        exact congrArg some (Except.ok.inj hread)

theorem rotated_row {new : String} {expires : Option Time} {s : Store} {net : Network}
    (h : (Store.method lib (.networks (.rotateInviteCode id new expires)) i s).2.networks.get id =
      some net) : net.inviteCode = new := by
  simp only [Store.method, Store.networkMethod, rotateInviteCode] at h
  split at h
  · next hnone =>
    rw [hnone] at h
    cases h
  · next old hold =>
    rw [get_put, if_pos (key_of_get hold).symm] at h
    rw [← some.inj h]

/-- A call takes codes from one place to another, and draws new ones. -/
theorem codeAt_after (hn : q.threads[n]? = some (t, log, .call c k)) (hfits : CodeFits log c)
    (hk : (k (handler lib c i q.shared).1).Obeys (protocol CodeFits)
      (fun _ _ => True) (⟨c, (handler lib c i q.shared).1⟩ :: log))
    (hquiet : ∀ id ∈ c.rotates, ∀ net, q.Pending net → net.id ≠ id) {retired' : List String}
    (hretd : ∀ code ∈ retired', code ∈ retired ∨ ∃ id net, c.rotates = some id ∧
      q.shared.store.networks.get id = some net ∧ net.inviteCode = code)
    {p' : CodePlace} (h : (after lib q n i t log c k).CodeAt retired' code p') :
    (∃ p, q.CodeAt retired code p ∧ p' = c.takes n i p) ∨
      (c = .generateInviteCode ∧ i.inviteCode = .ok code ∧ p' = .held n) := by
  cases p' with
  | held m =>
    rcases held_after hn h with ⟨hheld, hsto⟩ | ⟨hc, hcode, rfl⟩
    · exact .inl ⟨.held m, hheld, (takes_held hsto).symm⟩
    · exact .inr ⟨hc, hcode, rfl⟩
  | retired =>
    left
    rcases hretd code h with hold | ⟨id, net, hrot, hnet, hcode⟩
    · exact ⟨.retired, hold, takes_retired.symm⟩
    · obtain ⟨new, expires, rfl⟩ := rotates_eq hrot
      refine ⟨.network id, ⟨net, .inl hnet, key_of_get hnet, hcode⟩, ?_⟩
      simp [takes]
  | network id =>
    left
    obtain ⟨net, hstored | hpend, hid, hcode⟩ := h
    · by_cases hrot : c.rotates = some id
      · obtain ⟨new, expires, rfl⟩ := rotates_eq hrot
        have hnew : net.inviteCode = new := rotated_row hstored
        refine ⟨.held n, ⟨_, hn, ?_⟩, by simp [takes]⟩
        rw [← hcode, hnew]
        exact hfits
      · rcases network_rows hstored with hold | ⟨known, rfl, hid', -, rfl⟩ |
          ⟨_, _, _, rfl, -⟩ | ⟨known, rfl, hid', hcode', -⟩
        · exact ⟨.network id, ⟨net, .inl hold, hid, hcode⟩, (takes_network hrot).symm⟩
        · have hpend : q.Pending known := ⟨_, mem_of_getElem? hn, rfl⟩
          exact ⟨.network id, ⟨known, .inr hpend, hid', hcode⟩, rfl⟩
        · exact absurd rfl hrot
        · refine ⟨.held n, ⟨_, hn, ?_⟩, by simp [takes, hid']⟩
          rw [← hcode, hcode']
          exact hfits
    · rcases pending_after hk hpend with hold | ⟨id', known, rfl, hknown, hid', hcode'⟩
      · have hrot : c.rotates ≠ some id := fun hr => hquiet id hr net hold hid
        exact ⟨.network id, ⟨net, .inr hold, hid, hcode⟩, (takes_network hrot).symm⟩
      · obtain rfl : id' = id := (key_of_get hknown).symm.trans (hid'.symm.trans hid)
        exact ⟨.network id',
          ⟨known, .inl hknown, hid'.symm.trans hid, hcode'.symm.trans hcode⟩, rfl⟩

theorem codeAt_spawn {p : CodePlace}
    (h : CodeAt { q with threads := q.threads ++ [(t, [], t.body lib)] } retired code p) :
    q.CodeAt retired code p := by
  cases p with
  | held m =>
    obtain ⟨th, hm, hheld⟩ := h
    by_cases hlt : m < q.threads.length
    · rw [getElem?_append_left hlt] at hm
      exact ⟨th, hm, hheld⟩
    · rw [getElem?_append_right (by omega)] at hm
      rw [mem_singleton.mp (mem_of_getElem? hm)] at hheld
      exact absurd hheld.1 not_mem_nil
  | network id =>
    obtain ⟨net, hsto | ⟨th, hth, hnext⟩, hid, hcode⟩ := h
    · exact ⟨net, .inl hsto, hid, hcode⟩
    · rcases mem_append.mp hth with hold | hnew
      · exact ⟨net, .inr ⟨th, hold, hnext⟩, hid, hcode⟩
      · rw [mem_singleton.mp hnew] at hnext
        exact absurd hnext (not_pending_nil (body_codeFits lib t) net)
  | retired => exact h

end JournaledRequests

/-! ## Runs -/

namespace Invites

variable {lib : StdLib} {s s' : Invites} {q : JournaledRequests} {n : Nat} {i : RepoInput}
  {c : RepoCall}

theorem mem_drawnBy (hnext : s.requests.next n = some c) {code : String} :
    code ∈ s.drawnBy (.advance n i) ↔ c = .generateInviteCode ∧ i.inviteCode = .ok code := by
  simp only [drawnBy, hnext]
  split
  · next hc =>
    cases hc
    cases i.inviteCode <;> simp [Except.toOption, eq_comm]
  · next hc => simp [show c ≠ .generateInviteCode from fun h => hc (congrArg some h)]

variable {old : String} {a : RestStep}

theorem mem_replacedBy (hnext : s.requests.next n = some c) {new : String}
    (h : (old, new) ∈ s.replacedBy (.advance n i)) : ∃ id net, c.rotates = some id ∧
      s.requests.shared.store.networks.get id = some net ∧ net.inviteCode = old := by
  simp only [replacedBy, hnext] at h
  split at h
  · next id code expires hc =>
    cases hc
    obtain ⟨net, hnet, heq⟩ := mem_map.mp h
    exact ⟨id, net, rfl, mem_toList.mp hnet, (Prod.mk.inj heq).1⟩
  · cases h

/-- The codes that are no longer those of a network. -/
def retired (s : Invites) : List String := s.replaced.map Prod.fst

/-- The requests with their journals; each code is in one place, and none is like another. -/
structure Traced (lib : StdLib) (s : Invites) (q : JournaledRequests) : Prop where
  erase : q.erase = s.requests
  storesOwn : q.StoresOwn
  onePlace : OnePlace s.drawn (q.CodeAt s.retired)
  unlike : ∀ a ∈ s.drawn, ∀ b ∈ s.drawn, lib.equalFold a b = true → a = b

theorem unlike_step (h : ∀ a ∈ s.drawn, ∀ b ∈ s.drawn, lib.equalFold a b = true → a = b)
    {act : RestStep} (hnew : s.DrawsNew lib act) :
    ∀ a ∈ s.drawnBy act ++ s.drawn, ∀ b ∈ s.drawnBy act ++ s.drawn,
      lib.equalFold a b = true → a = b := by
  -- At most one code is drawn at a time.
  have hone : ∀ a ∈ s.drawnBy act, ∀ b ∈ s.drawnBy act, a = b := by
    intro a ha b hb
    unfold drawnBy at ha hb
    split at ha
    · cases ha
    · split at ha
      · next hnext =>
        simp only [hnext, mem_toList] at ha hb
        exact some.inj (ha.symm.trans hb)
      · cases ha
  intro a ha b hb halike
  rcases mem_append.mp ha with ha | ha
  · rcases mem_append.mp hb with hb | hb
    · exact hone a ha b hb
    · rw [(hnew a ha b hb).2.1] at halike
      cases halike
  · rcases mem_append.mp hb with hb | hb
    · rw [(hnew b hb a ha).2.2] at halike
      cases halike
    · exact h a ha b hb halike

theorem Traced.step (h : Traced lib s q) (hquiet : s.Undisturbed a)
    (hstep : Invites.step lib s a = some s') : ∃ q', Traced lib s' q' := by
  obtain ⟨hnew, hstep⟩ := ite_none_right_eq_some.mp hstep
  obtain ⟨p, hp, rfl⟩ := map_eq_some_iff.mp hstep
  obtain ⟨-, hp⟩ := ite_none_right_eq_some.mp hp
  rw [← h.erase] at hp
  obtain ⟨q', hq', herase⟩ : ∃ q', Tracked.step (handler lib)
      (fun _ => protocol CodeFits) [] (RestCall.body lib) (fun _ => none) q a = some q' ∧
      q'.erase = p := Tracked.exists_step hp
  have hown : StoresOwn q' :=
    Tracked.Conforming.step h.storesOwn (body_codeFits lib) (fun _ _ _ => trivial) hq'
  refine ⟨q', herase, hown, ?_, unlike_step h.unlike hnew⟩
  rcases Tracked.step_cases_unforked hq' with ⟨t, rfl, rfl⟩ | ⟨n, i, t, log, c, k, rfl, hn, rfl⟩
  · exact h.onePlace.move id 0 (fun code p hp => .inl ⟨p, codeAt_spawn hp, rfl⟩) (by simp [drawnBy])
  · have hnext : s.requests.next n = some c := by
      simp [← h.erase, Requests.next, Tracked.erase, hn, nextCall]
    obtain ⟨hfits, hk⟩ := h.storesOwn _ (mem_of_getElem? hn)
    -- Nobody is about to write back the network whose code is being replaced.
    have hpend : ∀ id ∈ c.rotates, ∀ net, q.Pending net → net.id ≠ id := by
      rintro id hid net ⟨th, hth, hcall⟩ heq
      refine hquiet c hnext id hid (th.1, th.2.2) ?_ _ hcall (congrArg some heq)
      rw [← h.erase]
      exact mem_map_of_mem hth
    -- A code is retired by the call that overwrites it.
    have hretd : ∀ code ∈ (s.replacedBy (.advance n i) ++ s.replaced).map Prod.fst,
        code ∈ s.retired ∨ ∃ id net, c.rotates = some id ∧
          q.shared.store.networks.get id = some net ∧ net.inviteCode = code := by
      intro code hcode
      rw [map_append] at hcode
      rcases mem_append.mp hcode with hcode | hold
      · obtain ⟨⟨old, new⟩, hmem, rfl⟩ := mem_map.mp hcode
        obtain ⟨id, net, hrot, hnet, hold⟩ := mem_replacedBy hnext hmem
        rw [← h.erase] at hnet
        exact .inr ⟨id, net, hrot, hnet, hold⟩
      · exact .inl hold
    refine h.onePlace.move (c.takes n i) n ?_ ?_
    · intro code p' hp'
      rcases codeAt_after hn hfits (hk _ trivial) hpend hretd hp' with
        hmoved | ⟨hc, hcode, hplace⟩
      · exact .inl hmoved
      · exact .inr ⟨(mem_drawnBy hnext).mpr ⟨hc, hcode⟩, hplace⟩
    · intro code hcode hdrawn
      exact (hnew code hcode code hdrawn).1 rfl

theorem traced_idle : Traced lib idle ⟨⟨.empty, [], []⟩, []⟩ := by
  have hnowhere : ∀ code p, ¬ CodeAt ⟨⟨.empty, [], []⟩, []⟩ [] code p := by
    rintro code (_ | _ | _) h
    · obtain ⟨th, hth, -⟩ := h
      cases hth
    · obtain ⟨net, hnet | ⟨th, hth, -⟩, -⟩ := h
      · cases hnet
      · cases hth
    · cases h
  exact ⟨rfl, nofun,
    ⟨fun code p hp => absurd hp (hnowhere code p),
      fun code p _ hp => absurd hp (hnowhere code p)⟩, nofun⟩

theorem Traced.notFound (h : Traced lib s q) (hold : old ∈ s.retired) (i : RepoInput) :
    Store.method lib (.networks (.getByInviteCode old)) i s.requests.shared.store =
      (.error .notFound, s.requests.shared.store) := by
  show getByInviteCode lib old i _ = _
  unfold getByInviteCode
  split
  · rfl
  · next net hfound =>
    obtain ⟨hnet, halike⟩ := found hfound
    rw [← h.erase] at hnet
    have hat : q.CodeAt s.retired net.inviteCode (.network net.id) := ⟨net, .inl hnet, rfl, rfl⟩
    have hretd : q.CodeAt s.retired old .retired := hold
    have hsame : net.inviteCode = old := h.unlike _ (h.onePlace.mem_drawn _ _ hat) _
      (h.onePlace.mem_drawn _ _ hretd) halike
    rw [hsame] at hat
    exact nomatch h.onePlace.unique _ _ _ hat hretd

/-- A `Join` with the code has found nothing yet, or has been told so. -/
def Rejected (m : Nat) (t : RestCall) (lib : StdLib) (s : Invites) : Prop :=
  s.requests.threads[m]? = some (t, t.body lib) ∨
    ∃ e, s.requests.threads[m]? = some (t, .ret ⟨t, .error e⟩)

theorem body_join (lib : StdLib) (u : UUID) (code : String) :
    ∃ k, (RestCall.joinNetwork u code).body lib = .call (.networks (.getByInviteCode code)) k ∧
      k (.error .notFound) = .ret ⟨.joinNetwork u code, .error .inviteInvalid⟩ :=
  ⟨_, rfl, rfl⟩

theorem Rejected.step {u : UUID} (h : Traced lib s q) (hold : old ∈ s.retired)
    (hrej : Rejected m (.joinNetwork u old) lib s) (hstep : Invites.step lib s a = some s') :
    Rejected m (.joinNetwork u old) lib s' := by
  obtain ⟨-, hstep⟩ := ite_none_right_eq_some.mp hstep
  obtain ⟨p, hp, rfl⟩ := map_eq_some_iff.mp hstep
  obtain ⟨-, hp⟩ := ite_none_right_eq_some.mp hp
  -- The other threads leave it alone.
  have hkept : ∀ th, s.requests.threads[m]? = some th → (∀ i, a ≠ .advance m i) →
      p.threads[m]? = some th := by
    intro th hth hother
    have hlt := (List.getElem?_eq_some_iff.mp hth).1
    rcases Pool.step_cases hp with ⟨t, rfl, rfl⟩ | ⟨n, i, t, c, k, rfl, hn, rfl⟩
    · exact (getElem?_append_left hlt).trans hth
    · have hne : n ≠ m := fun heq => hother i (by rw [heq])
      rw [Pool.forked, toList_none, map_nil, append_nil]
      exact (getElem?_set_ne hne).trans hth
  by_cases hown : ∃ i, a = .advance m i
  · obtain ⟨i, rfl⟩ := hown
    rcases hrej with hth | ⟨e, hth⟩
    · have hlt := (List.getElem?_eq_some_iff.mp hth).1
      obtain ⟨k, hbody, hk⟩ := body_join lib u old
      rw [hbody] at hth
      simp only [Pool.step, hth, Pool.forked, toList_none, map_nil, append_nil] at hp
      refine .inr ⟨.inviteInvalid, ?_⟩
      rw [← some.inj hp, getElem?_set_self hlt]
      show some (_, k (Store.method lib _ i s.requests.shared.store).1) = _
      rw [h.notFound hold, hk]
    · simp only [Pool.step, hth] at hp
      cases hp
  · have hother : ∀ i, a ≠ .advance m i := fun i heq => hown ⟨i, heq⟩
    rcases hrej with hth | ⟨e, hth⟩
    · exact .inl (hkept _ hth hother)
    · exact .inr ⟨e, hkept _ hth hother⟩

theorem retired_step (hold : old ∈ s.retired) (hstep : Invites.step lib s a = some s') :
    old ∈ s'.retired := by
  obtain ⟨-, hstep⟩ := ite_none_right_eq_some.mp hstep
  obtain ⟨p, -, rfl⟩ := map_eq_some_iff.mp hstep
  rw [retired, map_append]
  exact mem_append_right _ hold

end Invites

open Invites

/-- If codes are replaced only while nobody is about to write the row back, then nobody who
    asks with a replaced code after `RotateInvite` has returned gets in by it. -/
theorem replaced_code_dead {lib : StdLib} {as bs : List RestStep}
    {s s' : Invites} {old new : String} {u : UUID}
    (hrun : run (Invites.step lib) .idle as = some s) (hrotated : s.Rotated old new)
    (hjoin : run (Invites.step lib) s (.spawn (.joinNetwork u old) :: bs) = some s')
    (hquiet : Along (Invites.step lib) Invites.Undisturbed .idle
      (as ++ .spawn (.joinNetwork u old) :: bs)) (net : Network) :
    s'.requests.threads[s.requests.threads.length]? ≠
      some (.joinNetwork u old, .ret ⟨.joinNetwork u old, .ok net⟩) := by
  obtain ⟨hpre, hafter⟩ := hquiet.split hrun
  have htraced : ∃ q, Invites.Traced lib s q :=
    hpre.invariant (P := fun s => ∃ q, Invites.Traced lib s q)
      (fun s a s' ⟨q, hq⟩ hc hs => hq.step hc hs) ⟨_, traced_idle⟩ hrun
  have hold : old ∈ s.retired := mem_map_of_mem hrotated.1
  obtain ⟨s₁, hs₁, hrest⟩ := bind_eq_some_iff.mp hjoin
  obtain ⟨hc, hlater⟩ := hafter s₁ hs₁
  -- From here on the code is retired, and the request is not let in.
  have hend : (∃ q, Invites.Traced lib s' q) ∧ old ∈ s'.retired ∧
      Rejected s.requests.threads.length (.joinNetwork u old) lib s' := by
    refine hlater.invariant (P := fun s₂ => (∃ q, Invites.Traced lib s₂ q) ∧ old ∈ s₂.retired ∧
      Rejected s.requests.threads.length (.joinNetwork u old) lib s₂) ?_ ?_ hrest
    · rintro s₂ a s₃ ⟨⟨q, hq⟩, hold₂, hrej⟩ hc₂ hs₃
      exact ⟨hq.step hc₂ hs₃, retired_step hold₂ hs₃, hrej.step hq hold₂ hs₃⟩
    · obtain ⟨q, hq⟩ := htraced
      refine ⟨hq.step hc hs₁, retired_step hold hs₁, .inl ?_⟩
      obtain ⟨-, hs₁⟩ := ite_none_right_eq_some.mp hs₁
      obtain ⟨p, hp, rfl⟩ := map_eq_some_iff.mp hs₁
      obtain ⟨-, hp⟩ := ite_none_right_eq_some.mp hp
      rw [← some.inj hp]
      exact getElem?_concat_length
  intro hin
  rcases hend.2.2 with hth | ⟨e, hth⟩
  · obtain ⟨k, hbody, -⟩ := body_join lib u old
    rw [hbody, hin] at hth
    cases hth
  · rw [hin] at hth
    cases hth

section

open Requests (comesIn goesOn)

def codeRotated : RestCall := .rotateInvite (.ofBytes [7]) (.ofBytes [1])

def rotationDraw : RepoInput := { (default : RepoInput) with inviteCode := .ok "second" }

/-- The home network is renamed, and then its code is replaced. -/
def renamedBefore : List RestStep :=
  homeCreated ++ comesIn 1 homeRenamed 3 default ++
    comesIn 2 codeRotated 3 rotationDraw

theorem replaced_code_dead_home :
    ∃ s s', run (Invites.step homeLib) .idle renamedBefore = some s ∧
      s.Rotated "invite" "second" ∧
      run (Invites.step homeLib) s (comesIn 3 guestJoins 1 default) = some s' ∧
      ∀ net, s'.requests.threads[s.requests.threads.length]? ≠
        some (guestJoins, .ret ⟨guestJoins, .ok net⟩) := by
  refine ⟨_, _, rfl, ?rotated, rfl,
    @replaced_code_dead homeLib renamedBefore (goesOn 3 1 default) _ _ _ _ _ rfl ?rotated rfl ?_⟩
  case rotated =>
    exact ⟨mem_cons_self, .ofBytes [7], .ofBytes [1], none, .tail _ (.tail _ (.head _))⟩
  · decide +kernel

/-- The code is replaced after the renaming has read the row, and before it writes it. -/
def renamedMeanwhile : List RestStep :=
  homeCreated ++ comesIn 1 homeRenamed 2 default ++
    comesIn 2 codeRotated 3 rotationDraw ++ goesOn 1 1 default

/-- The guest then gets in by the code that was replaced. -/
theorem replaced_code_revived :
    ∃ s s' net, run (Invites.step homeLib) .idle renamedMeanwhile = some s ∧
      s.Rotated "invite" "second" ∧
      run (Invites.step homeLib) s (comesIn 3 guestJoins 7 default) = some s' ∧
      s'.requests.threads[s.requests.threads.length]? =
        some (guestJoins, .ret ⟨guestJoins, .ok net⟩) := by
  refine ⟨_, _, _, rfl, ?_, rfl, rfl⟩
  exact ⟨mem_cons_self, .ofBytes [7], .ofBytes [1], none, .tail _ (.tail _ (.head _))⟩

end

end NexusVPN.Backend
