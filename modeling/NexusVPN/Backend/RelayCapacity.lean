import NexusVPN.Backend.Rendezvous
import NexusVPN.Lib.Track

/-! # Room at a relay

    `RequestRelay` looks for a relay with room in one call of the repository and counts the
    new session in another.  The control plane never takes back what it has counted: a load
    comes down when the relay itself reports it. -/

namespace NexusVPN.Backend

open List Prog Option Tracked Machine Embedded Rendezvous Pool

/-! ## Calls side by side -/

/-- One call of the repository, or the signing of a token, as a whole. -/
def RelayRepo.handler (repo : RelayRepo) : Handler allocIface Relays AllocInput := fun c i s =>
  (repo.methods c).exec allocHandler (fun _ => i) s

/-- Calls of `RequestRelay` that have been made, as far as they have come. -/
abbrev RelayCalls := Pool allocIface Relays RelayRequest (Except DomainError RelayAllocation)

def RelayRepo.step (repo : RelayRepo) :
    RelayCalls → Action RelayRequest AllocInput → Option RelayCalls :=
  Pool.step repo.handler (fun q => (Backend.requestRelay q).run) fun _ => none

/-- No relay has more load than its capacity. -/
def Relays.NotOverbooked (relays : Relays) : Prop :=
  ∀ id rs, relays.get id = some rs → rs.currentLoad ≤ rs.capacity

def AllocCall.picks : AllocCall → Bool
  | .pickLeastLoaded _ => true
  | _ => false

def AllocCall.counts : AllocCall → Bool
  | .incrementLoad _ _ => true
  | _ => false

/-- Nobody looks for a relay while somebody else has found one and is not counted yet. -/
def Unrushed (p : RelayCalls) : Action RelayRequest AllocInput → Prop
  | .spawn _ => True
  | .advance n _ => (p.threads[n]?.bind (nextCall ·.2)).any AllocCall.picks = true →
      ∀ m < p.threads.length, m ≠ n →
        (p.threads[m]?.bind (nextCall ·.2)).any AllocCall.counts = false

instance (p : RelayCalls) (a : Action RelayRequest AllocInput) : Decidable (Unrushed p a) := by
  unfold Unrushed
  split <;> infer_instance

/-! ## Found, and not yet counted -/

/-- What is found has room. -/
theorem RelayRepo.pick_room (repo : RelayRepo) (region : String) (i : AllocInput) (s : Relays) :
    (repo.handler (.pickLeastLoaded region) i s).2 = s ∧
      ∀ rs, (repo.handler (.pickLeastLoaded region) i s).1 = .ok (some rs) →
        s.get rs.id = some rs ∧ rs.currentLoad < rs.capacity := by
  cases repo with
  | embedded =>
    refine ⟨rfl, fun rs hrs => ?_⟩
    have hpick := chosen_of_pickLeastLoaded hrs
    exact ⟨hpick.1, of_decide_eq_true (Bool.and_eq_true_iff.mp hpick.2).2⟩
  | postgres =>
    have hselect : ∀ region rs, (allocHandler (.select region) i s).1 = .ok rs →
        s.get rs.id = some rs ∧ rs.currentLoad < rs.capacity := by
      intro region rs hrs
      have hpick := chosen_of_select hrs
      exact ⟨hpick.1, of_decide_eq_true (Bool.and_eq_true_iff.mp hpick.2).2⟩
    have hany : (Postgres.pickAnyRegion.exec allocHandler (fun _ => i) s).2 = s ∧
        ∀ rs, (Postgres.pickAnyRegion.exec allocHandler (fun _ => i) s).1 = .ok (some rs) →
          s.get rs.id = some rs ∧ rs.currentLoad < rs.capacity := by
      simp only [Postgres.pickAnyRegion, exec]
      split <;> simp_all [exec, select_snd]
    show ((Postgres.pickLeastLoaded region).exec allocHandler (fun _ => i) s).2 = s ∧
      ∀ rs, ((Postgres.pickLeastLoaded region).exec allocHandler (fun _ => i) s).1 = _ → _
    unfold Postgres.pickLeastLoaded
    split
    · simp only [exec]
      split <;> simp_all [exec, select_snd]
    · exact hany

/-- A call has found a relay, and the next thing that it does is to be counted there. -/
def booking : Protocol allocIface (Option UUID) where
  may _ _ := True
  legal
    | ph, .incrementLoad id delta => ph = some id ∧ delta = 1
    | ph, _ => ph = none
  next
    | _, .pickLeastLoaded _, .ok rs => rs.map RelayServer.id
    | _, _, _ => none

theorem books_requestRelay (q : RelayRequest) :
    (requestRelay q).run.Obeys booking (fun _ ph => ph = none) none := by
  refine ⟨rfl, ?_⟩
  rintro (e | _ | relay) _
  · rfl
  · rfl
  · refine ⟨⟨rfl, rfl⟩, ?_⟩
    rintro (e | _) _
    · rfl
    · refine ⟨rfl, ?_⟩
      rintro (e | token) _ <;> rfl

theorem booking_cases (repo : RelayRepo) {ph : Option UUID} {c : AllocCall}
    (hlegal : booking.legal ph c) (i : AllocInput) (s : Relays) :
    ((repo.handler c i s).2 = s ∧ ∀ id ∈ booking.next ph c (repo.handler c i s).1,
      c.picks = true ∧ ∀ rs, s.get id = some rs → rs.currentLoad < rs.capacity) ∨
    ∃ id, ph = some id ∧ booking.next ph c (repo.handler c i s).1 = none ∧
      (repo.handler c i s).2 = s.addLoad id 1 := by
  cases c with
  | pickLeastLoaded region =>
    obtain ⟨hsame, hroom⟩ := repo.pick_room region i s
    refine .inl ⟨hsame, ?_⟩
    cases hfound : (repo.handler (.pickLeastLoaded region) i s).1 with
    | error e => rintro id ⟨⟩
    | ok found =>
      intro id hid
      obtain ⟨rs, rfl, rfl⟩ := map_eq_some_iff.mp hid
      obtain ⟨hget, hlt⟩ := hroom rs hfound
      refine ⟨rfl, ?_⟩
      intro rs' hrs'
      cases hget.symm.trans hrs'
      exact hlt
  | incrementLoad id delta =>
    -- A relay that was picked is booked once, with a load of one.
    obtain ⟨rfl, rfl⟩ := hlegal
    cases repo with
    | embedded => exact .inr ⟨id, rfl, rfl, incrementLoad_snd s id 1⟩
    | postgres =>
      cases hfault : i.fault with
      | some e =>
        refine .inl ⟨?_, by rintro _ ⟨⟩⟩
        simp [RelayRepo.handler, RelayRepo.methods, ask, exec, allocHandler, hfault]
      | none =>
        refine .inr ⟨id, rfl, rfl, ?_⟩
        simp [RelayRepo.handler, RelayRepo.methods, ask, exec, allocHandler, hfault]
  | issue d r n =>
    refine .inl ⟨?_, by rintro _ ⟨⟩⟩
    cases repo <;> rfl

/-! ## All interleavings -/

/-- The calls, each with the relay that it has found and is not counted at yet. -/
abbrev Bookings :=
  Tracked allocIface Relays RelayRequest (Option UUID) (Except DomainError RelayAllocation)

namespace Bookings

def step (repo : RelayRepo) : Bookings → Action RelayRequest AllocInput → Option Bookings :=
  Tracked.step repo.handler (fun _ => booking) none (fun q => (requestRelay q).run) fun _ => none

/-- The thread is a call of `RequestRelay`, and where it is about to be counted is room. -/
def Booked (th : RelayRequest × Option UUID × Prog allocIface (Except DomainError RelayAllocation))
    (s : Relays) : Prop :=
  th.2.2.Obeys booking (fun _ ph => ph = none) th.2.1 ∧
    ∀ id ∈ th.2.1, ∀ rs, s.get id = some rs → rs.currentLoad < rs.capacity

structure Level (p : Bookings) : Prop where
  loads : p.shared.NotOverbooked
  sizes : ∀ id rs, p.shared.get id = some rs → 0 ≤ rs.capacity
  booked : ∀ th ∈ p.threads, Booked th p.shared
  single : p.AtMostOne fun th => th.2.1 ≠ none

variable {repo : RelayRepo} {p p' : Bookings} {a : Action RelayRequest AllocInput}

theorem Booked.counts
    {th : RelayRequest × Option UUID × Prog allocIface (Except DomainError RelayAllocation)}
    {s : Relays} (h : Booked th s) (hne : th.2.1 ≠ none) :
    (nextCall th.2.2).any AllocCall.counts = true := by
  obtain ⟨t, ph, q⟩ := th
  cases q with
  | ret a => exact absurd h.1 hne
  | call c k =>
    cases c with
    | incrementLoad id delta => rfl
    | _ => exact absurd h.1.1 hne

theorem Level.single_step (h : p.Level) (hcond : Unrushed p.erase a)
    (hstep : step repo p a = some p') : p'.AtMostOne fun th => th.2.1 ≠ none := by
  refine h.single.step hstep (fun _ _ hne => absurd rfl hne) ?_
  intro n i t ph c k ha hn hne
  subst ha
  obtain ⟨id, hid⟩ := ne_none_iff_exists'.mp hne
  rcases booking_cases repo (h.booked _ (mem_of_getElem? hn)).1.1 i p.shared with
    ⟨-, hfinds⟩ | ⟨_, -, hnone, -⟩
  · -- The others have found none, or they would be counted next.
    refine .inr ?_
    intro m th hmn hm hne'
    have hquiet := hcond (by simp [Tracked.erase, hn, nextCall, (hfinds id hid).1]) m
      (by simpa [Tracked.erase] using (List.getElem?_eq_some_iff.mp hm).1) hmn
    simp [Tracked.erase, hm, (h.booked th (mem_of_getElem? hm)).counts hne'] at hquiet
  · exact absurd hnone hne

theorem Level.booked_step (h : p.Level)
    (hstep : step repo p a = some p') : ∀ th ∈ p'.threads, Booked th p'.shared := by
  refine forall_threads_step hstep h.booked ?_ ?_ ?_
  · exact fun q _ => ⟨books_requestRelay q, nofun⟩
  · intro n i t ph c k _ hn
    obtain ⟨hlegal, hrest⟩ := (h.booked _ (mem_of_getElem? hn)).1
    refine ⟨hrest _ trivial, ?_⟩
    intro id hid
    rcases booking_cases repo hlegal i p.shared with ⟨hsame, hfinds⟩ | ⟨_, -, hnone, -⟩
    · rw [hsame]
      exact (hfinds id hid).2
    · exact absurd hid (by rw [hnone]; exact nofun)
  · intro n i t ph c k _ hn m th hmn hm hth
    refine ⟨hth.1, ?_⟩
    rcases booking_cases repo (h.booked _ (mem_of_getElem? hn)).1.1 i p.shared with
      ⟨hsame, -⟩ | ⟨_, rfl, -, -⟩
    · rw [hsame]
      exact hth.2
    · -- The one who is counted was the only one to have found a relay.
      intro id hid
      exact absurd (h.single m n th _ hm hn (ne_none_iff_exists'.mpr ⟨id, hid⟩) nofun) hmn

theorem Level.step (h : p.Level) (hcond : Unrushed p.erase a)
    (hstep : step repo p a = some p') : p'.Level := by
  have hbooked := h.booked_step hstep
  have hsingle := h.single_step hcond hstep
  rcases step_cases hstep with ⟨t, -, rfl⟩ | ⟨n, i, t, ph, c, k, -, hn, rfl⟩
  · exact ⟨h.loads, h.sizes, hbooked, hsingle⟩
  · obtain ⟨⟨hlegal, -⟩, hroom⟩ := h.booked _ (mem_of_getElem? hn)
    have hkept : ∀ id' rs', (repo.handler c i p.shared).2.get id' = some rs' →
        rs'.currentLoad ≤ rs'.capacity ∧ 0 ≤ rs'.capacity := by
      intro id' rs' hrs'
      rcases booking_cases repo hlegal i p.shared with ⟨hsame, -⟩ | ⟨id, rfl, -, hadd⟩
      · rw [hsame] at hrs'
        exact ⟨h.loads id' rs' hrs', h.sizes id' rs' hrs'⟩
      · rw [hadd, Relays.get_addLoad] at hrs'
        split at hrs'
        · -- There was room for one more.
          next heq =>
          obtain ⟨rs, hrs, rfl⟩ := map_eq_some_iff.mp hrs'
          have hlt := hroom id rfl rs (heq ▸ hrs)
          have hsize := h.sizes id' rs hrs
          simp only [RelayServer.addLoad]
          omega
        · exact ⟨h.loads id' rs' hrs', h.sizes id' rs' hrs'⟩
    exact ⟨fun id' rs' hrs' => (hkept id' rs' hrs').1, fun id' rs' hrs' => (hkept id' rs' hrs').2,
      hbooked, hsingle⟩

end Bookings

/-- No relay is ever overbooked, if none is at first or has a negative capacity, and nobody
    looks for a relay while somebody else has found one and is not counted yet. -/
theorem relays_not_overbooked (repo : RelayRepo) {relays : Relays} (hloads : relays.NotOverbooked)
    (hsizes : ∀ id rs, relays.get id = some rs → 0 ≤ rs.capacity)
    {as : List (Action RelayRequest AllocInput)}
    (h : Along repo.step Unrushed ⟨relays, []⟩ as) :
    Throughout repo.step (fun p => p.shared.NotOverbooked) ⟨relays, []⟩ as := by
  refine (h.throughout (P := fun p => ∃ q : Bookings, q.erase = p ∧ q.Level) ?_ ?_).mono ?_
  · rintro p a p' ⟨q, rfl, hq⟩ hcond hstep
    obtain ⟨q', hq', herase⟩ : ∃ q', Bookings.step repo q a = some q' ∧ q'.erase = p' :=
      exists_step hstep
    exact ⟨q', herase, hq.step hcond hq'⟩
  · exact ⟨⟨relays, []⟩, rfl, hloads, hsizes, nofun, nofun⟩
  · rintro p ⟨q, rfl, hq⟩
    exact hq.loads

section

/-- A relay with one place left. -/
def lastPlace : Relays :=
  Table.empty.put ⟨.ofBytes [1], "", "relay", "", 0, 3478, 1, 0, "active", some 0, 0⟩

theorem lastPlace_level {id : UUID} {rs : RelayServer} (h : lastPlace.get id = some rs) :
    rs.currentLoad ≤ rs.capacity ∧ 0 ≤ rs.capacity := by
  rw [lastPlace, Table.get_put] at h
  split at h
  · cases h
    decide
  · cases h

/-- Two devices ask at time 0, and their calls take the given turns. -/
def twoAsk (turns : List Nat) : List (Action RelayRequest AllocInput) :=
  .spawn firstRequest :: .spawn secondRequest ::
    turns.map fun n => .advance n ⟨0, .asStored, none, .ok ""⟩

theorem relays_not_overbooked_lastPlace :
    Throughout RelayRepo.embedded.step (fun p => p.shared.NotOverbooked)
      ⟨lastPlace, []⟩ (twoAsk [0, 0, 1, 0]) :=
  relays_not_overbooked .embedded (fun _ _ h => (lastPlace_level h).1)
    (fun _ _ h => (lastPlace_level h).2) (by decide +kernel)

/-- Both find the relay before either is counted. -/
theorem last_place_taken_twice :
    lastPlace.NotOverbooked ∧
      ∃ p, run RelayRepo.embedded.step ⟨lastPlace, []⟩ (twoAsk [0, 1, 0, 1, 0, 1]) =
        some p ∧ ¬ p.shared.NotOverbooked := by
  refine ⟨fun _ _ h => (lastPlace_level h).1, _, rfl, ?_⟩
  intro h
  have hload := h (.ofBytes [1]) _ rfl
  revert hload
  decide +kernel

end

/-! ## The machine's own relay -/

/-- What `Upsert` reads from outside: the clock, what `uuid.New` would return, and the order
    of the loop over the map. -/
structure UpsertInput where
  now : Time
  fresh : UUID
  order : MapOrder UUID

/-- The row that `relayRepo.Upsert` stores.  A relay that restarts reclaims its row. -/
def Embedded.upserted (relays : Relays) (i : UpsertInput) (rs : RelayServer) : RelayServer :=
  match (relays.values i.order).find? fun existing =>
      existing.hostname == rs.hostname && existing.relayPort == rs.relayPort with
  | some existing => { rs with id := existing.id, createdAt := existing.createdAt }
  | none => { rs with id := if rs.id = .nil then i.fresh else rs.id, createdAt := i.now }

/-- `relayRepo.Upsert`, with the row as the caller then has it. -/
def Embedded.upsert (relays : Relays) (i : UpsertInput) (rs : RelayServer) : RelayServer × Relays :=
  (upserted relays i rs, relays.put (upserted relays i rs))

/-- The machine that the control plane runs on. -/
structure OwnMachine where
  /-- `ports.ExternalAddress`, if ports are managed. -/
  externalAddress : Option String
  firstPrivateAddress : String
  /-- `uuid.NewSHA1` of the endpoint. -/
  relayIDFor : String → Int → UUID

def OwnMachine.host (m : OwnMachine) : String :=
  if m.externalAddress.getD "" = "" then m.firstPrivateAddress else m.externalAddress.getD ""

/-- `Server.registerRelay`. -/
def registerRelay (m : OwnMachine) (port : Int) (i : UpsertInput) (relays : Relays) :
    Option (RelayServer × Relays) :=
  if m.host = "" then none
  else some (upsert relays i
    { id := m.relayIDFor m.host port, region := "this machine", hostname := m.host
      publicKey := "", controlPort := 0, relayPort := port, capacity := 256, currentLoad := 0
      status := "healthy", lastHeartbeatAt := some i.now, createdAt := i.now })

/-- `Server.startOwnRelay`, where `started` says whether the relay itself came up.  Nothing
    else ever reports for this relay. -/
def startOwnRelay (m : OwnMachine) (started : Bool) (port : Int) (i : UpsertInput)
    (relays : Relays) : Option (RelayServer × Relays) :=
  if m.host = "" then none else if started then registerRelay m port i relays else none

/-- `RequestRelay`, with what its operations read. -/
abbrev RelayAsk := RelayRequest × (Nat → AllocInput)

def RelayAsk.served (c : RelayAsk) (relays : Relays) :
    Except DomainError RelayAllocation × Relays :=
  (requestRelay c.1).run.exec RelayRepo.embedded.handler c.2 relays

/-- The relays after some calls. -/
def Relays.asked (relays : Relays) (calls : List RelayAsk) : Relays :=
  calls.foldl (fun s c => (c.served s).2) relays

/-- The call is made while a heartbeat of `t₀` is not stale. -/
def RelayAsk.InTime (t₀ : Time) (c : RelayAsk) : Prop := Time.sub (c.2 0).now t₀ < relayStaleAfter

open RelayAsk

instance (t₀ : Time) : DecidablePred (InTime t₀) :=
  fun c => inferInstanceAs (Decidable (Time.sub (c.2 0).now t₀ < _))

/-- `row` is the only relay. -/
def Relays.Sole (relays : Relays) (row : RelayServer) : Prop :=
  ∀ id, relays.get id = if id = row.id then some row else none

section

variable {relays : Relays} {row : RelayServer} (h : relays.Sole row)
include h

theorem Relays.Sole.addLoad : (relays.addLoad row.id 1).Sole (row.addLoad 1) := by
  intro id
  rw [get_addLoad, h id]
  by_cases hid : id = row.id
  · simp [hid, RelayServer.addLoad]
  · simp [hid, RelayServer.addLoad]

theorem RelayAsk.served_sole (c : RelayAsk) :
    c.served relays = if offers (c.2 0).now row then
        ((c.2 2).signed.map fun token => ⟨row, token⟩, relays.addLoad row.id 1)
      else (.error .noRelayAvailable, relays) := by
  have hrow : relays.get row.id = some row := (h row.id).trans (if_pos rfl)
  have hcount : RelayRepo.embedded.handler (.incrementLoad row.id 1) (c.2 1) relays =
      (.ok (), relays.addLoad row.id 1) := by
    show incrementLoad relays row.id 1 = _
    rw [incrementLoad, hrow]
  rw [served, requestRelay, exec_attempt_bind]
  rcases pickLeastLoaded_spec relays (c.2 0).now (c.2 0).order c.1.preferredRegion with
    ⟨rs, hok, hget, hoffer⟩ | ⟨herr, hno⟩
  · -- There is only the one relay to pick.
    obtain rfl : rs = row := by
      rw [h rs.id] at hget
      split at hget
      · exact (some.inj hget).symm
      · cases hget
    rw [if_pos hoffer,
      show (RelayRepo.embedded.handler (.pickLeastLoaded _) (c.2 0) relays).1 = _ from hok]
    show exec _ (attempt _ >>= _).run _ relays = _
    rw [exec_attempt_bind, hcount]
    rw [exec_attempt_bind]
    rw [show RelayRepo.embedded.handler (.issue _ _ _) (c.2 2) (relays.addLoad rs.id 1) =
      ((c.2 2).signed, relays.addLoad rs.id 1) from rfl]
    cases (c.2 2).signed <;> rfl
  · rw [if_neg fun hoffer => hno row ⟨hrow, hoffer⟩,
      show (RelayRepo.embedded.handler (.pickLeastLoaded _) (c.2 0) relays).1 = _ from herr]
    rfl

end

section

variable {row : RelayServer} {t₀ : Time} (hrow : row.capacity = 256 ∧ row.status = "healthy" ∧
  row.lastHeartbeatAt = some t₀)

include hrow

theorem offers_registered (now : Time) (n : Nat) :
    offers now { row with currentLoad := n } = true ↔
      Time.sub now t₀ < relayStaleAfter ∧ n < 256 := by
  obtain ⟨hcapacity, hstat, hbeat⟩ := hrow
  have hload : (n : Int) < 256 ↔ n < 256 := by omega
  simp [offers, isRelayHealthy, hstat, hbeat, hcapacity, hload]

theorem Relays.Sole.asked (calls : List RelayAsk) {relays : Relays} {n : Nat}
    (h : relays.Sole { row with currentLoad := n }) (hn : n ≤ 256) :
    (relays.asked calls).Sole { row with
      currentLoad := (min 256 (n + calls.countP (InTime t₀)) : Nat) } := by
  induction calls generalizing relays n with
  | nil => simpa [Relays.asked, Nat.min_eq_right hn] using h
  | cons c calls ih =>
    rw [Relays.asked, foldl_cons, c.served_sole h]
    by_cases hoffer : offers (c.2 0).now { row with currentLoad := n } = true
    · obtain ⟨htime, hlt⟩ := (offers_registered hrow _ n).mp hoffer
      replace htime : c.InTime t₀ := htime
      rw [if_pos hoffer, countP_cons_of_pos (by simpa using htime), ← Nat.add_assoc,
        Nat.add_right_comm]
      refine ih ?_ hlt
      have hadd := h.addLoad
      exact hadd
    · rw [if_neg hoffer]
      -- The call came too late, or the relay was full already.
      have hsame : min 256 (n + (c :: calls).countP (InTime t₀)) =
          min 256 (n + calls.countP (InTime t₀)) := by
        by_cases htime : c.InTime t₀
        · have hfull : ¬ n < 256 := fun hlt =>
            hoffer ((offers_registered hrow _ n).mpr ⟨htime, hlt⟩)
          omega
        · rw [countP_cons_of_neg (by simpa using htime)]
      rw [hsame]
      exact ih h hn

end

/-- The machine's own relay is offered, when no other is registered, for ninety seconds after
    it was started, and 256 times in all. -/
theorem own_relay_offered_iff {m : OwnMachine} {started : Bool} {port : Int} {i : UpsertInput}
    {relays relays' : Relays} {row : RelayServer}
    (hstart : startOwnRelay m started port i relays = some (row, relays'))
    (hsole : ∀ id rs, relays.get id = some rs → id = row.id) (earlier : List RelayAsk)
    (c : RelayAsk) {token : String} (hsign : (c.2 2).signed = .ok token) :
    (∃ a, (c.served (relays'.asked earlier)).1 = .ok a ∧ a.relay.id = row.id) ↔
      c.InTime i.now ∧ earlier.countP (InTime i.now) < 256 := by
  obtain ⟨hrow, hzero, hsto⟩ : (row.capacity = 256 ∧ row.status = "healthy" ∧
      row.lastHeartbeatAt = some i.now) ∧ row.currentLoad = 0 ∧ relays' = relays.put row := by
    unfold startOwnRelay registerRelay at hstart
    split at hstart
    · cases hstart
    · split at hstart
      · cases hstart
        refine ⟨?_, ?_, rfl⟩ <;> unfold upserted <;> split <;> simp
      · cases hstart
  have hfirst : relays'.Sole { row with currentLoad := (0 : Nat) } := by
    intro id
    rw [show ({ row with currentLoad := ((0 : Nat) : Int) } : RelayServer) = row by
      rw [← show row.currentLoad = ((0 : Nat) : Int) from hzero]]
    rw [hsto, Table.get_put]
    by_cases hid : id = row.id
    · rw [if_pos hid, if_pos hid]
    · rw [if_neg hid, if_neg hid]
      exact eq_none_iff_forall_ne_some.mpr fun rs hrs => hid (hsole id rs hrs)
  have hnow := hfirst.asked hrow earlier (by omega)
  have hoffers := offers_registered hrow (c.2 0).now (min 256 (0 + earlier.countP (InTime i.now)))
  rw [served_sole hnow, hsign]
  constructor
  · intro hoffer
    split at hoffer
    · next hyes =>
      obtain ⟨htime, hlt⟩ := hoffers.mp hyes
      exact ⟨htime, by omega⟩
    · obtain ⟨a, ha, -⟩ := hoffer
      cases ha
  · intro hcond
    rw [if_pos (hoffers.mpr ⟨hcond.1, by omega⟩)]
    exact ⟨_, rfl, rfl⟩

/-- A relay started at time 0 by a machine that is alone on its network. -/
def ownStart : Option (RelayServer × Relays) :=
  startOwnRelay ⟨none, "10.0.0.2", fun _ _ => .ofBytes [1]⟩ true 3478 ⟨0, .nil, .asStored⟩ .empty

/-- A call at the given time. -/
def askAt (now : Time) : RelayAsk := (firstRequest, fun _ => ⟨now, .asStored, none, .ok ""⟩)

theorem own_relay_offered_atOnce :
    ∃ row relays', ownStart = some (row, relays') ∧
      ∃ a, ((askAt 1).served relays').1 = .ok a ∧ a.relay.id = row.id := by
  have hstart : ∃ row relays', ownStart = some (row, relays') := ⟨_, _, rfl⟩
  obtain ⟨row, relays', hstart⟩ := hstart
  refine ⟨row, relays', hstart, ?_⟩
  exact (own_relay_offered_iff hstart nofun [] (askAt 1) rfl).mpr (by decide)

/-- Ninety seconds later nobody is given it any more. -/
theorem own_relay_lapsed :
    ∃ row relays', ownStart = some (row, relays') ∧
      ((askAt 90000000000).served relays').1 = .error .noRelayAvailable :=
  ⟨_, _, rfl, rfl⟩

end NexusVPN.Backend
