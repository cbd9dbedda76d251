import NexusVPN.Backend.RestCalls
import NexusVPN.Backend.RpcOwnership
import NexusVPN.Client.Connect

/-! # Connecting to a network one is not a member of

    `Agent.Connect` against the control plane's `RegisterDevice`.  A membership that is
    missing and a key that is somebody else's are refused with the same status, and `Connect`
    answers that status with a fresh key. -/

namespace NexusVPN

open Backend Client Prog Option Except CoordinationServer

/-! ## The control plane's side -/

/-- The code of a status as the client sees it. -/
def Backend.StatusCode.received : StatusCode → GrpcCode
  | .unauthenticated => .unauthenticated
  | .invalidArgument => .invalidArgument
  | .notFound => .notFound
  | .permissionDenied => .permissionDenied
  | .alreadyExists => .alreadyExists
  | .resourceExhausted => .resourceExhausted
  | .internal => .internal

/-- What the control plane says to a registration: the interceptor, and then the handler. -/
def serverAnswer (lib : StdLib) (g : GrpcLib) (metadata : Option (List String))
    (req : Proto.RegisterDeviceRequest) (w : Nat → RepoInput) (store : Store) : Answer :=
  let r : Except Status Proto.RegisterDeviceResponse :=
    match authenticate g metadata with
    | .error status => .error status
    | .ok u =>
      ((registerDevice lib g (some u) req).run.exec (Store.handler lib) w store).1
  match r with
  | .ok resp => .accepted resp
  | .error status => .failed ⟨status.code.received, false⟩

/-- The registration of the attempt, whatever its details, is answered by the control plane in
    the state `store`. -/
def AnsweredBy (lib : StdLib) (g : GrpcLib) (metadata : Option (List String)) (n : String)
    (store : Store) (t : Attempt) : Prop :=
  ∃ (details : Proto.RegisterDeviceRequest) (w : Nat → RepoInput), ∀ key,
    t.answer key = serverAnswer lib g metadata
      { details with devicePublicKey := key, networkId := n } w store

/-- Whoever calls is not a member of the network. -/
def Outsider (g : GrpcLib) (metadata : Option (List String)) (n : String) (store : Store) : Prop :=
  ∀ u id, authenticate g metadata = .ok u → g.parseUUID n = some id → ¬ store.IsMember id u

/-! ## The property, and when it holds -/

/-- Key pair, device id and address of the network, as far as the file has them. -/
def identity (n : String) (file : Option Config) : Option (Keypair × String × String) :=
  (file.bind fun c => c.networks.lookup n).map fun st => (st.keypair, st.deviceID, st.virtualIP)

/-- The network has a key in the file. -/
def Keyed (n : String) (file : Option Config) : Prop := ∃ id ∈ identity n file, id.1.isZero = false

/-- A key that is drawn is not zero, and not the one that the network has. -/
def Renews (n : String) (file : Option Config) (draws : Draws) : Prop :=
  ∀ kp ∈ draws.key, kp.isZero = false ∧ ∀ id ∈ identity n file, kp ≠ id.1

/-- The attempt ends before it has a key for the network; or the network had one, and the attempt
    does not get to the membership check or the key cannot be reset after it. -/
def Shielded (g : GrpcLib) (metadata : Option (List String)) (n : String) (t : Attempt)
    (reset : Draws) (a : Agent) : Prop :=
  ¬ t.GetsKey n a ∨
    (Keyed n a.config ∧ (t.opens = false ∨ (authenticate g metadata).isOk = false ∨
      g.parseUUID n = none ∨
      (Client.resetDeviceKey n reset (Client.deviceKey n t.draws a.config).2).1.isOk = false))

/-! ## Answers to an outsider -/

section

variable {lib : StdLib} {g : GrpcLib} {metadata : Option (List String)} {n : String} {store : Store}

theorem authenticate_error {status : Status} (h : authenticate g metadata = .error status) :
    status.code = .unauthenticated := by
  unfold authenticate at h
  split at h
  · rw [← error.inj h]
  · rw [← error.inj h]
  · dsimp only at h
    split at h
    · rw [← error.inj h]
    · split at h
      · rw [← error.inj h]
      · split at h
        · rw [← error.inj h]
        · cases h

variable (lib) in
theorem wpe_registerDevice_outsider {u : UUID} (req : Proto.RegisterDeviceRequest)
    (hout : ∀ id, g.parseUUID req.networkId = some id → ¬ store.IsMember id u) :
    wpe (Store.handler lib) (registerDevice lib g (some u) req)
      (fun _ _ => False)
      (fun status _ =>
        (status.code = .invalidArgument ∧
          (g.parseUUID req.networkId = none ∨ req.devicePublicKey = "")) ∨
        (status.code = .permissionDenied ∧ (g.parseUUID req.networkId).isSome = true ∧
          req.devicePublicKey ≠ "")) store := by
  show wpe _ (parseField g req.networkId "malformed network_id" >>= _) _ _ store
  rw [wpe_bind, wpe_parseField]
  refine ⟨?_, fun hnone => .inl ⟨rfl, .inl hnone⟩⟩
  intro id hid
  split
  · next hempty => exact .inl ⟨rfl, .inr hempty⟩
  · next hkey =>
    rw [wpe_bind, wpe_service]
    unfold CoordinationService.registerDevice
    rw [wpe_bind, wpe_requireMembership]
    refine ⟨fun m hm => absurd ⟨m, hm⟩ (hout id hid), fun _ => .inr ⟨rfl, ?_, hkey⟩⟩
    rw [hid]
    rfl

/-- Whatever key it offers, the attempt is refused, and told that the key may be to blame if `P`
    holds of it. -/
def Client.Attempt.Refused (t : Attempt) (P : String → Prop) : Prop :=
  ∀ key, ∃ err, t.answer key = .failed err ∧ controlPlaneUnreachable err = false ∧
    (isStaleKeyRejection err = true ↔ P key)

/-- The request gets to the membership check. -/
def Checked (g : GrpcLib) (metadata : Option (List String)) (n key : String) : Prop :=
  (authenticate g metadata).isOk = true ∧ (g.parseUUID n).isSome = true ∧ key ≠ ""

theorem AnsweredBy.refused {t : Attempt} (h : AnsweredBy lib g metadata n store t)
    (hout : Outsider g metadata n store) : t.Refused (Checked g metadata n) := by
  obtain ⟨details, w, hanswer⟩ := h
  intro key
  rw [hanswer]
  unfold serverAnswer Checked
  cases hauth : authenticate g metadata with
  | error status =>
    dsimp only
    rw [authenticate_error hauth]
    exact ⟨_, rfl, rfl, iff_of_false (by decide) fun h => nomatch h.1⟩
  | ok u =>
    have hend := wp_exec (wpe_registerDevice_outsider lib
      { details with devicePublicKey := key, networkId := n } fun id => hout u id hauth) w
    dsimp only
    generalize (exec _ _ w store).1 = r at hend ⊢
    cases r with
    | ok resp => exact hend.elim
    | error status =>
      dsimp only
      -- Either the request was malformed, or the caller was found not to be a member.
      rcases hend with ⟨hcode, hbad⟩ | ⟨hcode, hgood⟩
      · rw [hcode]
        refine ⟨_, rfl, rfl, iff_of_false (by decide) ?_⟩
        rintro ⟨-, hsome, hkey⟩
        rcases hbad with hnone | hempty
        · cases hnone ▸ hsome
        · exact hkey hempty
      · rw [hcode]
        exact ⟨_, rfl, rfl, iff_of_true rfl ⟨rfl, hgood⟩⟩

end

/-! ## The client's side -/

section

variable {n : String} {t : Attempt} {a : Agent}

/-- An attempt that is refused leaves the file as it found it, or with a key for the network. -/
theorem connectOnce_refused {P : String → Prop} (hrefused : t.Refused P) :
    (¬ t.GetsKey n a ∧ ∃ e, e ≠ .staleDeviceKey ∧ connectOnce n t a = ⟨.error e, a, []⟩) ∨
    ∃ kp file e asked, t.GetsKey n a ∧ Client.deviceKey n t.draws a.config = (.ok kp, file) ∧
      connectOnce n t a = ⟨.error e, ⟨file, none⟩, asked⟩ ∧
      (e = .staleDeviceKey ↔ t.opens = true ∧ P kp.publicKey) := by
  rcases connectOnce_cases n t a with
    hearly | ⟨cfg, kp, file, hgets, -, hkey, ⟨hopens, hres⟩ | ⟨hopens, hres⟩⟩
  · exact .inl hearly
  · refine .inr ⟨kp, file, _, _, hgets, hkey, hres, iff_of_false (by simp) ?_⟩
    simp [hopens]
  · obtain ⟨err, herr, hsil, hblame⟩ := hrefused kp.publicKey
    rcases answered_cases n t cfg kp file with
      ⟨resp, hans, -⟩ | ⟨err', hans, ⟨hstale, hres'⟩ | ⟨cached, hsaid, -⟩ | ⟨hstale, hres'⟩⟩
    · cases herr.symm.trans hans
    · cases herr.symm.trans hans
      rw [hres'] at hres
      exact .inr ⟨kp, file, _, _, hgets, hkey, hres, iff_of_true rfl ⟨hopens, hblame.mp hstale⟩⟩
    · -- What was remembered is used only if nothing answered.
      rw [herr] at hsaid
      simp [Answer.refused, hsil] at hsaid
    · cases herr.symm.trans hans
      rw [hres'] at hres
      refine .inr ⟨kp, file, _, _, hgets, hkey, hres, iff_of_false (by simp) ?_⟩
      simp [← hblame, hstale]

variable {draws : Draws} {file file' : Option Config} {kp : Keypair}

theorem identity_deviceKey (hkeyed : Keyed n file)
    (hkey : Client.deviceKey n draws file = (.ok kp, file')) :
    kp.isZero = false ∧ identity n file' = identity n file := by
  obtain ⟨id, hid, hzero⟩ := hkeyed
  obtain ⟨st, hst, rfl⟩ := map_eq_some_iff.mp hid
  obtain ⟨c₀, rfl, hlookup₀⟩ := bind_eq_some_iff.mp hst
  obtain ⟨c, c', hload, rfl, hlook, hsame, -⟩ := deviceKey_entry hkey
  have hentry : c.entry n = st := by
    rcases loadConfig_cases hload with ⟨hnone, -⟩ | ⟨c₁, hc₁, hnets, -⟩
    · cases hnone
    · cases hc₁
      rw [Config.entry, hnets, hlookup₀, getD_some]
  rw [hentry] at hlook hsame
  obtain rfl := hsame hzero
  exact ⟨hzero, by simp only [identity, bind_some, hlook, hlookup₀, if_pos]⟩

/-- An attempt that is refused does not touch what the file has for a network with a key. -/
theorem connectOnce_keeps_identity {P : String → Prop} (hrefused : t.Refused P) :
    ∃ e, (connectOnce n t a).result = .error e ∧ (Keyed n a.config →
      identity n (connectOnce n t a).agent.config = identity n a.config) := by
  rcases connectOnce_refused (n := n) (a := a) hrefused with
    ⟨-, e, -, hres⟩ | ⟨_, _, e, _, -, hkey, hres, -⟩
  · rw [hres]
    exact ⟨e, rfl, fun _ => rfl⟩
  · rw [hres]
    exact ⟨e, rfl, fun hkeyed => (identity_deviceKey hkeyed hkey).2⟩

/-- The network has another key than before. -/
def Rekeyed (n : String) (file file' : Option Config) : Prop :=
  ∃ id' ∈ identity n file', ∀ id ∈ identity n file, id'.1 ≠ id.1

theorem Rekeyed.ne (h : Rekeyed n file file') : identity n file' ≠ identity n file := by
  obtain ⟨id', hid', hne⟩ := h
  intro heq
  exact hne id' (heq ▸ hid') rfl

theorem rekeyed_deviceKey (hkeyed : ¬ Keyed n file) (hdraws : Renews n file draws)
    (hkey : Client.deviceKey n draws file = (.ok kp, file')) : Rekeyed n file file' := by
  obtain ⟨c, c', -, rfl, hlook, -, hsrc⟩ := deviceKey_entry hkey
  refine ⟨_, by simp only [identity, bind_some, hlook, if_pos]; rfl, ?_⟩
  rintro id hid rfl
  rcases hsrc with hown | hdrawn
  · exact hkeyed ⟨id, hid, hown⟩
  · exact (hdraws _ hdrawn).2 id hid rfl

end

/-! ## The result -/

/-- An outsider's connection fails.  The file keeps the key pair, the device id and the address
    of the network if the attempt is shielded and, when keys are drawn afresh, only then. -/
theorem refused_connection_keeps_identity (lib : StdLib) (g : GrpcLib)
    (metadata : Option (List String)) (n : String) (store store' : Store) (first second : Attempt)
    (reset : Draws) (a : Agent) (hout : Outsider g metadata n store)
    (hout' : Outsider g metadata n store') (hfirst : AnsweredBy lib g metadata n store first)
    (hsnd : AnsweredBy lib g metadata n store' second) :
    (∃ e, (connect n first reset second a).result = .error e) ∧
    (Shielded g metadata n first reset a →
      identity n (connect n first reset second a).agent.config = identity n a.config) ∧
    (Renews n a.config first.draws → Renews n a.config reset →
      identity n (connect n first reset second a).agent.config = identity n a.config →
        Shielded g metadata n first reset a) := by
  rcases connectOnce_refused (n := n) (a := a) (hfirst.refused hout) with
    ⟨hnot, e, hne, hres⟩ | ⟨kp, file, e, asked, hgets, hkey, hres, hstale⟩
  · have hend : connect n first reset second a = ⟨.error e, a, []⟩ := by
      rw [connect, hres]
      exact if_neg fun heq => hne (Except.error.inj heq)
    rw [hend]
    exact ⟨⟨e, rfl⟩, fun _ => rfl, fun _ _ _ => .inl hnot⟩
  -- The attempt has a key, so that it is shielded only if the network had it before.
  have hshield : Shielded g metadata n first reset a ↔ Keyed n a.config ∧
      (e ≠ .staleDeviceKey ∨ (Client.resetDeviceKey n reset file).1.isOk = false) := by
    rw [Shielded, or_iff_right (not_not.mpr hgets), hkey]
    refine and_congr_right fun hkeyed => ?_
    have hnonempty : kp.publicKey ≠ "" := fun hempty => by
      have hzero := (identity_deviceKey hkeyed hkey).1
      simp [Keypair.isZero, hempty] at hzero
    rw [Ne, hstale, Checked]
    cases g.parseUUID n <;> simp [hnonempty, imp_iff_not_or]
    tauto
  have hkeeps : Keyed n a.config → identity n file = identity n a.config :=
    fun hkeyed => (identity_deviceKey hkeyed hkey).2
  have hkept : Renews n a.config first.draws → identity n file = identity n a.config →
      Keyed n a.config := by
    intro hdraws hsame
    by_contra hkeyed
    exact (rekeyed_deviceKey hkeyed hdraws hkey).ne hsame
  rw [hshield, connect, hres]
  dsimp only
  by_cases hbad : e = .staleDeviceKey
  · subst hbad
    rw [if_pos rfl]
    rcases resetDeviceKey_cases n reset file with ⟨e, hfails⟩ | ⟨kp', c, hdrawn, -, hdone⟩
    · rw [hfails]
      exact ⟨⟨_, rfl⟩, fun h => hkeeps h.1, fun hdraws _ hsame => ⟨hkept hdraws hsame, .inr rfl⟩⟩
    · rw [hdone]
      -- The fresh key stays through the second attempt.
      have hfresh : identity n (some (c.resetDeviceKey n kp')) = some (kp', "", "") := by
        simp [identity, Config.resetDeviceKey, Config.setEntry]
      obtain ⟨e', hres', hid⟩ := connectOnce_keeps_identity (n := n)
        (a := ⟨some (c.resetDeviceKey n kp'), none⟩) (hsnd.refused hout')
      refine ⟨⟨e', hres'⟩, ?_, fun _ hreset hsame => ?_⟩
      · rintro ⟨-, hne | hfails⟩
        · exact absurd rfl hne
        · cases hfails
      · obtain ⟨hzero, hother⟩ := hreset kp' hdrawn
        have hstays := (hid ⟨_, hfresh, hzero⟩).trans hfresh
        exact absurd hsame (Rekeyed.ne ⟨_, hstays, hother⟩)
  · rw [if_neg fun heq => hbad (Except.error.inj heq)]
    exact ⟨⟨e, rfl⟩, fun h => hkeeps h.1, fun hdraws _ hsame => ⟨hkept hdraws hsame, .inl hbad⟩⟩

/-- A machine that has been on `home` before, as a device and with an address. -/
def settled : Agent where
  config := some ⟨⟨"installation secret", "installation key"⟩,
    (∅ : GoMap String NetworkState).insert "home"
      ⟨"home", "device", "10.0.0.7", ⟨"secret", "key"⟩, "10.0.0.0/24", [], none⟩⟩
  tun := none

/-- An attempt on which everything depends on the control plane. -/
def asking (g : GrpcLib) (metadata : Option (List String)) : Attempt where
  authed := none
  ready := true
  draws := .only none
  opens := true
  answer := fun key => serverAnswer sampleLib g metadata
    ⟨key, "home", "laptop", "linux", "", "", false⟩ (fun _ => default) homeStore
  now := 1
  remember := ⟨none, true⟩
  configures := fun _ => true
  persist := ⟨none, true⟩

theorem outsider_stranger : Outsider sampleGrpc strangerMetadata "home" homeStore := by
  intro u id hu hid hmbr
  obtain rfl := ok.inj (hu.symm.trans (show _ = ok stranger by decide))
  cases hid.symm.trans (show _ = some (UUID.ofBytes [2]) by decide)
  revert hmbr
  decide

/-- Somebody tries to connect to `home`. -/
def connecting (md : Option (List String)) : Outcome :=
  connect "home" (asking sampleGrpc md) (.only (some ⟨"new secret", "new key"⟩))
    (asking sampleGrpc md) settled

/-- Without a session the machine is turned away before the membership check. -/
theorem refused_connection_keeps_identity_expired :
    (∃ e, (connecting none).result = .error e) ∧
    identity "home" (connecting none).agent.config =
      some (⟨"secret", "key"⟩, "device", "10.0.0.7") ∧
    Shielded sampleGrpc none "home" (asking sampleGrpc none)
      (.only (some ⟨"new secret", "new key"⟩)) settled := by
  have hout : Outsider sampleGrpc none "home" homeStore := fun u id hu => by cases hu
  have hasks : AnsweredBy sampleLib sampleGrpc none "home" homeStore (asking sampleGrpc none) :=
    ⟨⟨"", "home", "laptop", "linux", "", "", false⟩, fun _ => default, fun key => rfl⟩
  have hnew : Renews "home" settled.config (.only (some ⟨"new secret", "new key"⟩)) := by
    rintro kp ⟨⟩
    exact ⟨rfl, by rintro id ⟨⟩; decide⟩
  have h := refused_connection_keeps_identity sampleLib sampleGrpc none "home" homeStore homeStore
    (asking sampleGrpc none) (asking sampleGrpc none) (.only (some ⟨"new secret", "new key"⟩))
    settled hout hout hasks hasks
  have hkept := h.2.1 (.inr ⟨⟨_, rfl, rfl⟩, .inr (.inl rfl)⟩)
  exact ⟨h.1, hkept, h.2.2 nofun hnew hkept⟩

/-- A stranger to `home` tries to connect: the connection is refused, and the machine has lost
    the key, the device id and the address that it had there. -/
theorem refused_connection_gives_up_identity :
    Outsider sampleGrpc strangerMetadata "home" homeStore ∧
    AnsweredBy sampleLib sampleGrpc strangerMetadata "home" homeStore
      (asking sampleGrpc strangerMetadata) ∧
    (connecting strangerMetadata).result = .error .staleDeviceKey ∧
    identity "home" settled.config = some (⟨"secret", "key"⟩, "device", "10.0.0.7") ∧
    identity "home" (connecting strangerMetadata).agent.config =
      some (⟨"new secret", "new key"⟩, "", "") := by
  refine ⟨outsider_stranger, ⟨⟨"", "home", "laptop", "linux", "", "", false⟩, fun _ => default,
    fun key => rfl⟩, ?_, rfl, ?_⟩
  · decide +kernel
  · decide +kernel

end NexusVPN
