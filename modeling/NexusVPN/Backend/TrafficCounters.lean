import NexusVPN.Backend.PostgresDevices
import NexusVPN.Client.KeyStrings

/-! # Traffic counters

    With every heartbeat the client reports how many bytes it has sent and received since its
    WireGuard device came up.  The embedded repository stores what is reported; the statement of
    the Postgres repository adds it to what is stored.

    * `Beat`, `step`: the same heartbeats, served with either repository. -/

namespace NexusVPN

open Prog Option Table Machine Client

/-- What `sendHeartbeat` sums up over `t.dev.Stats()`, or zeros if that fails. -/
def Client.totals : Option (List Client.UAPI.PeerStats) → UInt64 × UInt64
  | none => (0, 0)
  | some stats => stats.foldl (fun n s => (n.1 + s.txBytes, n.2 + s.rxBytes)) (0, 0)

namespace Backend

def Device.counters (d : Device) : Int × Int := (d.bytesSent, d.bytesReceived)

/-! ## The statement -/

variable {t : Devices} {r : DeviceRow}

namespace Postgres

def DeviceRow.counters (r : DeviceRow) : Int × Int := (r.bytesSent, r.bytesReceived)

/-- `COALESCE(NULLIF($n, ''), column)`, where the argument is `derefOrEmpty(new)`. -/
def coalesce (new known : Option String) : Option String :=
  if new.getD "" = "" then known else new

/-- What a column of type `bigint` can hold. -/
def IsBigint (n : Int) : Prop := -(2 ^ 63) ≤ n ∧ n < 2 ^ 63

instance (n : Int) : Decidable (IsBigint n) := inferInstanceAs (Decidable (_ ∧ _))

/-- The text is empty or can be cast to `inet`. -/
def Castable (isInet : String → Bool) (text : Option String) : Prop :=
  text.getD "" = "" ∨ isInet (text.getD "") = true

instance (isInet : String → Bool) (text : Option String) : Decidable (Castable isInet text) :=
  inferInstanceAs (Decidable (_ ∨ _))

/-- A row of `devices` after the `UPDATE`; a trigger sets `updated_at`. -/
def heartbeatRow (now : Time) (status : DeviceStatus) (publicIP privateIP natType : Option String)
    (sent received : Int) (r : DeviceRow) : DeviceRow :=
  { r with
    status := status
    lastPublicIP := coalesce publicIP r.lastPublicIP
    lastPrivateIP := coalesce privateIP r.lastPrivateIP
    natType := coalesce natType r.natType
    lastSeenAt := some now
    bytesSent := r.bytesSent + sent
    bytesReceived := r.bytesReceived + received
    updatedAt := now }

theorem DeviceRows.UniqueBy.replace {κ : Type} {rows : DeviceRows} {column : DeviceRow → κ}
    (h : rows.UniqueBy column) {row : DeviceRow} (hr : rows.get row.id = some r)
    (hsame : column row = column r) : DeviceRows.UniqueBy (rows.put row) column := by
  -- Whatever is in the new table was there, with the same value in the column.
  have hold : ∀ id r₁, (rows.put row).get id = some r₁ →
      ∃ r₂, rows.get id = some r₂ ∧ column r₁ = column r₂ := by
    intro id r₁ hr₁
    rw [get_put] at hr₁
    split at hr₁
    · next hid =>
      cases hr₁
      exact ⟨r, hid ▸ hr, hsame⟩
    · exact ⟨r₁, hr₁, rfl⟩
  intro id id' r₁ r₂ hr₁ hr₂ heq
  obtain ⟨r₁', h₁, heq₁⟩ := hold id r₁ hr₁
  obtain ⟨r₂', h₂, heq₂⟩ := hold id' r₂ hr₂
  exact h id id' r₁' r₂' h₁ h₂ (heq₁.symm.trans (heq.trans heq₂))

/-- A row is replaced by one with the same key at the same place. -/
def Devices.replace (t : Devices) (r row : DeviceRow) (hr : t.rows.get row.id = some r)
    (hkey : row.publicKey = r.publicKey) (hplace : row.place = r.place) : Devices where
  rows := t.rows.put row
  publicKey_unique := t.publicKey_unique.replace hr hkey
  place_unique := t.place_unique.replace hr hplace

def notInet (text : Option String) : DomainError :=
  .other ("ERROR: invalid input syntax for type inet: \"" ++ text.getD "" ++ "\" (SQLSTATE 22P02)")

/-- `DeviceRepo.UpdateHeartbeat`.  Which texts are addresses to Postgres is a parameter. -/
def updateHeartbeat (isInet : String → Bool) (i : StatementInput) (id : UUID)
    (status : DeviceStatus) (publicIP privateIP natType : Option String) (sent received : Int)
    (t : Devices) : Except DomainError Unit × Devices :=
  match i.fault with
  | some text => (.error (.other text), t)
  | none =>
    if ¬ Castable isInet publicIP then (.error (notInet publicIP), t)
    else if ¬ Castable isInet privateIP then (.error (notInet privateIP), t)
    else
      match hr : t.rows.get id with
      | none => (.ok (), t)
      | some r =>
        if IsBigint (r.bytesSent + sent) ∧ IsBigint (r.bytesReceived + received) then
          (.ok (), t.replace r
            (heartbeatRow i.now status publicIP privateIP natType sent received r)
            ((congrArg t.rows.get (key_of_get hr)).trans hr) rfl rfl)
        else (.error (.other "ERROR: bigint out of range (SQLSTATE 22003)"), t)

theorem updateHeartbeat_counters {isInet : String → Bool} {id : UUID} (hr : t.rows.get id = some r)
    (i : StatementInput) (status : DeviceStatus) (publicIP privateIP natType : Option String)
    (sent received : Int) :
    ((updateHeartbeat isInet i id status publicIP privateIP natType sent received t).2.rows.get
      id).map DeviceRow.counters =
    some (if i.fault = none ∧ Castable isInet publicIP ∧ Castable isInet privateIP ∧
      IsBigint (r.bytesSent + sent) ∧ IsBigint (r.bytesReceived + received)
      then r.counters + (sent, received) else r.counters) := by
  have hsame : (t.rows.get id).map DeviceRow.counters = some r.counters := by rw [hr]; rfl
  unfold updateHeartbeat
  split
  · next hfault => simp [hfault, hsame]
  · next hfault =>
    split
    · next hpublic => simp [hpublic, hsame]
    · next hpublic =>
      split
      · next hpriv => simp [hpriv, hsame]
      · next hpriv =>
        -- The statement gets as far as the row.
        rw [not_not] at hpublic hpriv
        split
        · next hnone => cases hr.symm.trans hnone
        · next r' hr' =>
          cases hr.symm.trans hr'
          simp only [hfault, hpublic, hpriv, true_and]
          split
          · show ((t.rows.put _).get id).map DeviceRow.counters = _
            rw [get_put, heartbeatRow, if_pos (key_of_get hr).symm]
            rfl
          · exact hsame

/-- What a call may depend on besides the table. -/
structure CallInput extends StatementInput where
  /-- What the presence store and the event bus answer, which are not in Postgres. -/
  answer : (c : RepoCall) → Except DomainError c.Result

/-- What the service calls for a heartbeat. -/
def handler (isInet : String → Bool) : Handler repoIface Devices CallInput := fun c i t =>
  match c with
  | .devices (.getByID id) => (getByID i.toStatementInput id t, t)
  | .devices (.updateHeartbeat id status publicIP privateIP natType sent received) =>
    updateHeartbeat isInet i.toStatementInput id status publicIP privateIP natType sent received t
  | .now => (.ok i.now, t)
  | c => (i.answer c, t)

end Postgres

/-! ## Heartbeats -/

namespace TrafficCounters

open Postgres CoordinationService

/-- A heartbeat, with what either deployment reads from outside while it serves it. -/
structure Beat where
  /-- What `t.dev.Stats()` returns. -/
  stats : Option (List Client.UAPI.PeerStats)
  publicEP : PresenceEndpoint
  privateEP : PresenceEndpoint
  natType : String
  embedded : Nat → RepoInput
  postgres : Nat → CallInput

namespace Beat

/-- The counters that are reported. -/
def reported (b : Beat) : Int × Int := ((totals b.stats).1.toNat, (totals b.stats).2.toNat)

/-- `int64(bytesSent)` and `int64(bytesReceived)`. -/
def passed (b : Beat) : Int × Int :=
  ((totals b.stats).1.toInt64.toInt, (totals b.stats).2.toInt64.toInt)

def serve (presenceTTL : Int) (d : UUID) (b : Beat) : Svc Int :=
  heartbeat presenceTTL d b.publicEP b.privateEP b.natType
    (totals b.stats).1 (totals b.stats).2

end Beat

variable (lib : StdLib) (isInet : String → Bool) (presenceTTL : Int) (d : UUID)

variable (w : Store × Devices)

/-- The heartbeat of device `d` is served with either repository. -/
def after (b : Beat) : Store × Devices :=
  (((b.serve presenceTTL d).run.exec (Store.handler lib) b.embedded w.1).2,
    ((b.serve presenceTTL d).run.exec (Postgres.handler isInet) b.postgres w.2).2)

def step (b : Beat) : Option (Store × Devices) :=
  some (after lib isInet presenceTTL d w b)

/-- The device's counters are, with either repository, those that the heartbeat reported. -/
def Recorded (b : Beat) (w : Store × Devices) : Prop :=
  (w.1.devices.get d).map Device.counters = some b.reported ∧
    (w.2.rows.get d).map DeviceRow.counters = some b.reported

/-- Nothing keeps the statement from changing the row: neither database nor presence store
    fails, the endpoints are addresses, and the sums can be stored. -/
def Passes (b : Beat) (r : DeviceRow) : Prop :=
  (b.postgres 0).fault = none ∧
  ((b.postgres 2).answer (.setOnline r.networkID d (reported b.publicEP
    b.privateEP b.natType (b.postgres 1).now) presenceTTL)).isOk = true ∧
  (b.postgres 3).fault = none ∧
  Castable isInet (nonEmpty b.publicEP.publicIP) ∧
  Castable isInet (nonEmpty b.privateEP.privateIP) ∧
  IsBigint (r.bytesSent + b.passed.1) ∧ IsBigint (r.bytesReceived + b.passed.2)

/-- What is reported are numbers below `2^63`, and is added to zeros.  If it cannot be added to
    what is stored, it is no more than that. -/
def Fits (b : Beat) : Prop :=
  ∀ r ∈ w.2.rows.get d, b.reported.1 < 2 ^ 63 ∧ b.reported.2 < 2 ^ 63 ∧
    (Passes isInet presenceTTL d b r ∧ r.counters = (0, 0) ∨
      ¬ Passes isInet presenceTTL d b r ∧ r.counters = b.reported)

instance (b : Beat) (w : Store × Devices) : Decidable (Recorded d b w) :=
  inferInstanceAs (Decidable (_ ∧ _))

instance (b : Beat) (r : DeviceRow) : Decidable (Passes isInet presenceTTL d b r) :=
  inferInstanceAs (Decidable (_ ∧ _))

instance (b : Beat) : Decidable (Fits isInet presenceTTL d w b) :=
  inferInstanceAs (Decidable (∀ r ∈ w.2.rows.get d, _))

/-! ## What a heartbeat leaves -/

variable {lib isInet presenceTTL d}

theorem toInt64_eq_iff (n : UInt64) : n.toInt64.toInt = n.toNat ↔ (n.toNat : Int) < 2 ^ 63 := by
  have hlt : n.toBitVec.toNat < 2 ^ 64 := n.toBitVec.isLt
  show n.toBitVec.toInt = n.toBitVec.toNat ↔ (n.toBitVec.toNat : Int) < 2 ^ 63
  rw [BitVec.toInt_eq_toNat_bmod, Int.bmod_def]
  split <;> omega

theorem passed_eq_iff (b : Beat) :
    b.passed = b.reported ↔ b.reported.1 < 2 ^ 63 ∧ b.reported.2 < 2 ^ 63 := by
  rw [Prod.ext_iff]
  exact and_congr (toInt64_eq_iff _) (toInt64_eq_iff _)

theorem embedded_after {s : Store} {dev : Device} (hdev : s.devices.get d = some dev) (b : Beat) :
    (((b.serve presenceTTL d).run.exec (Store.handler lib) b.embedded s).2.devices.get d).map
      Device.counters = some b.passed := by
  have hserve : wpe (Store.handler lib) (b.serve presenceTTL d)
      (fun _ s' => (s'.devices.get d).map Device.counters = some b.passed)
      (fun _ s' => (s'.devices.get d).map Device.counters = some b.passed) s := by
    unfold Beat.serve heartbeat
    rw [wpe_bind, wpe_getDevice, hdev]
    refine ⟨fun dev' hdev' => ?_, fun hnone => by cases hnone⟩
    rw [wpe_bind, wpe_now]
    intro now
    rw [wpe_bind, wpe_setOnline]
    intro i
    rw [wpe_bind, wpe_call]
    intro j
    simp only [Store.method, Store.deviceMethod, DeviceRepo.updateHeartbeat,
      PresenceStore.setOnline, hdev, outcome_ok]
    intro k
    show ((s.devices.put _).get d).map Device.counters = some b.passed
    rw [get_put, if_pos (key_of_get hdev).symm]
    rfl
  have hwp := wp_exec hserve b.embedded
  revert hwp
  generalize (b.serve presenceTTL d).run.exec (Store.handler lib) b.embedded s = out
  rcases out with ⟨_ | _, s'⟩ <;> exact id

theorem postgres_serve (hr : t.rows.get d = some r) (b : Beat) :
    ((b.serve presenceTTL d).run.exec (Postgres.handler isInet) b.postgres t).2 =
      if (b.postgres 0).fault = none ∧ ((b.postgres 2).answer (.setOnline r.networkID d
        (reported b.publicEP b.privateEP b.natType (b.postgres 1).now)
          presenceTTL)).isOk = true
      then (updateHeartbeat isInet (b.postgres 3).toStatementInput d .online
        (nonEmpty b.publicEP.publicIP)
        (nonEmpty b.privateEP.privateIP)
        (nonEmpty b.natType) b.passed.1 b.passed.2 t).2
      else t := by
  unfold Beat.serve heartbeat
  rw [show call _ = attempt _ from rfl, exec_attempt_bind]
  cases h₀ : (b.postgres 0).fault with
  | some text => simp [Postgres.handler, getByID, h₀]
  | none =>
    simp only [Postgres.handler, getByID, h₀, hr, true_and]
    rw [show call _ = attempt _ from rfl, exec_attempt_bind]
    dsimp only [Postgres.handler]
    rw [show call _ = attempt _ from rfl, exec_attempt_bind]
    simp only [Postgres.handler, Nat.zero_add, Nat.reduceAdd, scanDevice]
    cases (b.postgres 2).answer (.setOnline r.networkID d (reported b.publicEP
      b.privateEP b.natType (b.postgres 1).now) presenceTTL) with
    | error e => rfl
    | ok u =>
      rw [show call _ = attempt _ from rfl, exec_attempt_bind]
      simp only [Postgres.handler, Nat.zero_add, Beat.passed, Except.isOk, Except.toBool]
      split <;> rfl

theorem postgres_after (hr : t.rows.get d = some r) (b : Beat) :
    (((b.serve presenceTTL d).run.exec (Postgres.handler isInet) b.postgres t).2.rows.get d).map
      DeviceRow.counters = some (if Passes isInet presenceTTL d b r then r.counters + b.passed
        else r.counters) := by
  rw [postgres_serve hr]
  split
  · next hserv =>
    rw [updateHeartbeat_counters hr]
    simp only [Passes, hserv, true_and]
  · next hserv =>
    rw [hr, if_neg fun h => hserv ⟨h.1, h.2.1⟩]
    rfl

theorem recorded_iff {w : Store × Devices} (hdev : (w.1.devices.get d).isSome)
    (hrow : (w.2.rows.get d).isSome) (b : Beat) :
    Recorded d b (after lib isInet presenceTTL d w b) ↔ Fits isInet presenceTTL d w b := by
  obtain ⟨dev, hdev⟩ := isSome_iff_exists.mp hdev
  obtain ⟨r, hr⟩ := isSome_iff_exists.mp hrow
  have hfits : Fits isInet presenceTTL d w b ↔ b.passed = b.reported ∧
      (Passes isInet presenceTTL d b r ∧ r.counters = (0, 0) ∨
        ¬ Passes isInet presenceTTL d b r ∧ r.counters = b.reported) := by
    rw [passed_eq_iff, and_assoc]
    simp [Fits, hr]
  rw [Recorded, after, embedded_after hdev, postgres_after hr, Option.some.injEq,
    Option.some.injEq, hfits]
  refine and_congr_right fun hpassed => ?_
  rw [hpassed]
  split
  · next hpasses =>
    simp only [hpasses, true_and, not_true, false_and, or_false]
    simp only [Prod.ext_iff, Prod.fst_add, Prod.snd_add]
    omega
  · next hpasses => simp only [hpasses, false_and, not_false_eq_true, true_and, false_or]

/-- After each of a series of heartbeats both repositories have the counters that were reported
    last, if and only if no heartbeat finds counters other than zero that it can be added to. -/
theorem counters_agree_iff {w : Store × Devices} (hdev : (w.1.devices.get d).isSome)
    (hrow : (w.2.rows.get d).isSome) (bs : List Beat) :
    Along (step lib isInet presenceTTL d)
        (fun w b => Recorded d b (after lib isInet presenceTTL d w b)) w bs ↔
      Along (step lib isInet presenceTTL d) (Fits isInet presenceTTL d) w bs := by
  refine along_iff (J := fun w => (w.1.devices.get d).isSome ∧ (w.2.rows.get d).isSome)
    ?_ (fun w b _ hj _ => recorded_iff hj.1 hj.2 b) ⟨hdev, hrow⟩ bs
  intro w b w' hj hstep
  cases hstep
  obtain ⟨dev, hdev⟩ := isSome_iff_exists.mp hj.1
  obtain ⟨r, hr⟩ := isSome_iff_exists.mp hj.2
  have h₁ : ((after lib isInet presenceTTL d w b).1.devices.get d).map Device.counters =
    some b.passed := embedded_after hdev b
  have h₂ : ((after lib isInet presenceTTL d w b).2.rows.get d).map DeviceRow.counters =
    some _ := postgres_after hr b
  exact ⟨by simpa using congrArg Option.isSome h₁, by simpa using congrArg Option.isSome h₂⟩

/-! ## A desktop that sends and receives -/

/-- The desktop has been registered with either repository. -/
def registered : Store × Devices :=
  ((DeviceRepo.create desktop default .empty).2, (create quietStatement desktop .empty).2)

/-- A heartbeat that nothing keeps from being served. -/
def beat (sent received : UInt64) : Beat where
  stats := some [⟨"key", "", 0, sent, received, []⟩]
  publicEP := ⟨"", 0, "", 0, "", 0⟩
  privateEP := ⟨"", 0, "", 0, "", 0⟩
  natType := ""
  embedded _ := default
  postgres _ := { quietStatement with
    answer := fun
      | .setOnline .. | .publish _ => .ok ()
      | _ => .error .notFound }

/-- The same heartbeat, which the database does not get to see. -/
def Beat.missed (b : Beat) : Beat :=
  { b with postgres := fun n => { b.postgres n with fault := some "down" } }

/-- Nothing has passed at first, and what has is reported twice but seen once. -/
theorem counters_agree_beats :
    Along (step homeLib (fun _ => false) 0 desktop.id)
      (fun w b => Recorded desktop.id b (after homeLib (fun _ => false) 0 desktop.id w b))
      registered [beat 0 0, beat 100 50, (beat 100 50).missed] :=
  (counters_agree_iff (by decide) (by decide) _).mpr (by decide)

/-- After the second report, Postgres has the sum of the two. -/
theorem second_beat_added :
    ¬ Along (step homeLib (fun _ => false) 0 desktop.id)
      (fun w b => Recorded desktop.id b (after homeLib (fun _ => false) 0 desktop.id w b))
      registered [beat 100 50, beat 150 80] := by
  decide

end TrafficCounters

end Backend

end NexusVPN
