import NexusVPN.Client.DeviceKey

/-! # Connecting

    `Agent.Connect` in `client/agent/agent.go`, with the registrations that `offline.go`
    remembers so that the tunnel can come up without the control plane.  What the control
    plane, the host and the clock contribute to an attempt comes with it as an `Attempt`. -/

namespace NexusVPN.Client

/-! ## Registrations -/

/-- `codes.Code`. -/
inductive GrpcCode where
  | ok
  | canceled
  | unknown
  | invalidArgument
  | deadlineExceeded
  | notFound
  | alreadyExists
  | permissionDenied
  | resourceExhausted
  | failedPrecondition
  | aborted
  | outOfRange
  | unimplemented
  | internal
  | unavailable
  | dataLoss
  | unauthenticated
deriving DecidableEq

/-- An error of `Register`: its `status.Code`, and whether there is a timeout of the network
    stack in it. -/
structure RegisterError where
  code : GrpcCode
  timeout : Bool
deriving DecidableEq

/-- What `Register` comes to. -/
inductive Answer where
  | accepted (resp : Proto.RegisterDeviceResponse)
  | failed (err : RegisterError)
deriving DecidableEq

def isStaleKeyRejection (err : RegisterError) : Bool := err.code = .permissionDenied

/-- `controlPlaneUnreachable`: nothing answered, as opposed to answering and saying no. -/
def controlPlaneUnreachable (err : RegisterError) : Bool :=
  match err.code with
  | .unavailable | .deadlineExceeded => true
  -- A dial that never reached a gRPC server at all surfaces here.
  | .unknown => true
  | _ => err.timeout

/-- The control plane answered and said no. -/
def Answer.refused : Answer → Bool
  | .accepted _ => false
  | .failed err => isStaleKeyRejection err || !controlPlaneUnreachable err

def rememberRegistration (networkID : String) (resp : Proto.RegisterDeviceResponse) (now : Time)
    (access : Access) (file : Option Config) : Option Config :=
  (updateConfig access (fun c => return ((), c.setEntry networkID
    { c.entry networkID with cached := some ⟨resp, now⟩ })) file).2

/-- `cachedRegistration`: an address is the one thing that cannot be worked around. -/
def cachedRegistration (cfg : Config) (networkID : String) : Option CachedRegistration :=
  ((cfg.networks.lookup networkID).bind (·.cached)).filter fun c =>
    c.response.assignedVirtualIp ≠ "" ∧ c.response.networkCidr ≠ ""

def persistNetworkState (networkID : String) (resp : Proto.RegisterDeviceResponse)
    (access : Access) (file : Option Config) : Option Config :=
  (updateConfig access (fun c => return ((), c.setEntry networkID
    { c.entry networkID with
      deviceID := resp.deviceId, virtualIP := resp.assignedVirtualIp
      cidr := resp.networkCidr, dnsServers := resp.dnsServers })) file).2

/-! ## One attempt -/

/-- A tunnel that is up: the key it uses, the registration it was configured from, and
    whether that was remembered. -/
structure Connection where
  networkID : String
  keypair : Keypair
  response : Proto.RegisterDeviceResponse
  fromCache : Bool

/-- `Agent`: the configuration file, and the tunnel if there is one. -/
structure Agent where
  config : Option Config
  tun : Option Connection

inductive ConnectError where
  | alreadyConnected
  /-- Not signed in, no network selected, no privileges, or no exit node on this platform. -/
  | notReady
  | key (err : KeyError)
  /-- The interface, the coordination client, the discovery socket or the tunnel cannot be
      made. -/
  | setup
  /-- `errStaleDeviceKey`. -/
  | staleDeviceKey
  | register (err : RegisterError)
  /-- The address, the routes or the exit node cannot be set up. -/
  | configure
deriving DecidableEq

/-- What an attempt meets with. -/
structure Attempt where
  /-- The key that is drawn if the file has none when `authed` reads it. -/
  authed : Option Keypair
  ready : Bool
  draws : Draws
  opens : Bool
  /-- What the control plane says to a registration with this public key. -/
  answer : String → Answer
  now : Time
  remember : Access
  /-- Whether the interface can be configured from this registration. -/
  configures : Proto.RegisterDeviceResponse → Bool
  persist : Access

/-- A registration that was attempted. -/
structure Asked where
  networkID : String
  keypair : Keypair
  answer : Answer
deriving DecidableEq

/-- What a connection attempt comes to, with the registrations it attempted, newest first. -/
structure Outcome where
  result : Except ConnectError Unit
  agent : Agent
  asked : List Asked

/-- Bring the tunnel up on a registration. -/
def comeUp (t : Attempt) (conn : Connection) (file : Option Config) :
    Except ConnectError Unit × Agent :=
  if t.configures conn.response then
    (.ok (), ⟨persistNetworkState conn.networkID conn.response t.persist file, some conn⟩)
  else (.error .configure, ⟨file, none⟩)

/-- What is made of the answer to the registration.  `cfg` is the configuration as it was
    read at the beginning. -/
def answered (networkID : String) (t : Attempt) (cfg : Config) (kp : Keypair)
    (file : Option Config) : Except ConnectError Unit × Agent :=
  match t.answer kp.publicKey with
  | .accepted resp =>
    comeUp t ⟨networkID, kp, resp, false⟩
      (rememberRegistration networkID resp t.now t.remember file)
  | .failed err =>
    if isStaleKeyRejection err then (.error .staleDeviceKey, ⟨file, none⟩)
    else
      match cachedRegistration cfg networkID with
      | none => (.error (.register err), ⟨file, none⟩)
      | some cached =>
        -- Only when nothing answered.
        if controlPlaneUnreachable err then comeUp t ⟨networkID, kp, cached.response, true⟩ file
        else (.error (.register err), ⟨file, none⟩)

/-- `connect`. -/
def connectOnce (networkID : String) (t : Attempt) (a : Agent) : Outcome :=
  if a.tun.isSome then ⟨.error .alreadyConnected, a, []⟩
  else
    match loadConfig t.authed a.config with
    | .error e => ⟨.error (.key e), a, []⟩
    | .ok cfg =>
      if !t.ready || networkID = "" then ⟨.error .notReady, a, []⟩
      else
        match deviceKey networkID t.draws a.config with
        | (.error e, file) => ⟨.error (.key e), ⟨file, none⟩, []⟩
        | (.ok kp, file) =>
          if !t.opens then ⟨.error .setup, ⟨file, none⟩, []⟩
          else
            let r := answered networkID t cfg kp file
            ⟨r.1, r.2, [⟨networkID, kp, t.answer kp.publicKey⟩]⟩

/-- `Connect`: a registration that the server refuses is retried once with a fresh key. -/
def connect (networkID : String) (first : Attempt) (reset : Draws) (second : Attempt)
    (a : Agent) : Outcome :=
  let o := connectOnce networkID first a
  if o.result = .error .staleDeviceKey then
    match resetDeviceKey networkID reset o.agent.config with
    | (.error e, file) => ⟨.error (.key e), { o.agent with config := file }, o.asked⟩
    | (.ok _, file) =>
      let o' := connectOnce networkID second { o.agent with config := file }
      { o' with asked := o'.asked ++ o.asked }
  else o

/-! ## What it can come to -/

theorem comeUp_cases (t : Attempt) (conn : Connection) (file : Option Config) :
    comeUp t conn file = (.ok (),
      ⟨persistNetworkState conn.networkID conn.response t.persist file, some conn⟩) ∨
    comeUp t conn file = (.error .configure, ⟨file, none⟩) := by
  unfold comeUp
  split
  · exact .inl rfl
  · exact .inr rfl

/-- What becomes of an answer: the tunnel comes up with it, or with an earlier one, or not. -/
theorem answered_cases (n : String) (t : Attempt) (cfg : Config) (kp : Keypair)
    (file : Option Config) :
    (∃ resp, t.answer kp.publicKey = .accepted resp ∧
      answered n t cfg kp file = comeUp t ⟨n, kp, resp, false⟩
        (rememberRegistration n resp t.now t.remember file)) ∨
    ∃ err, t.answer kp.publicKey = .failed err ∧
      ((isStaleKeyRejection err = true ∧
        answered n t cfg kp file = (.error .staleDeviceKey, ⟨file, none⟩)) ∨
      (∃ cached, (t.answer kp.publicKey).refused = false ∧
        cachedRegistration cfg n = some cached ∧
        answered n t cfg kp file = comeUp t ⟨n, kp, cached.response, true⟩ file) ∨
      (isStaleKeyRejection err = false ∧
        answered n t cfg kp file = (.error (.register err), ⟨file, none⟩))) := by
  unfold answered
  cases hans : t.answer kp.publicKey with
  | accepted resp => exact .inl ⟨resp, rfl, rfl⟩
  | failed err =>
    refine .inr ⟨err, rfl, ?_⟩
    by_cases hstale : isStaleKeyRejection err = true
    · exact .inl ⟨hstale, by simp [hstale]⟩
    · rw [Bool.not_eq_true] at hstale
      cases hcach : cachedRegistration cfg n with
      | none => exact .inr (.inr ⟨hstale, by simp [hstale]⟩)
      | some cached =>
        by_cases hsil : controlPlaneUnreachable err = true
        · refine .inr (.inl ⟨cached, ?_, rfl, by simp [hstale, hsil]⟩)
          simp [Answer.refused, hstale, hsil]
        · exact .inr (.inr ⟨hstale, by simp [hstale, hsil]⟩)

/-- The attempt comes to have a key for the network. -/
def Attempt.GetsKey (t : Attempt) (n : String) (a : Agent) : Prop :=
  a.tun.isSome = false ∧ (loadConfig t.authed a.config).isOk = true ∧ t.ready = true ∧ n ≠ "" ∧
    (deviceKey n t.draws a.config).1.isOk = true

/-- Either there is no key and nothing changes, or the key goes into one registration. -/
theorem connectOnce_cases (n : String) (t : Attempt) (a : Agent) :
    (¬ t.GetsKey n a ∧ ∃ e, e ≠ .staleDeviceKey ∧ connectOnce n t a = ⟨.error e, a, []⟩) ∨
    ∃ cfg kp file, t.GetsKey n a ∧ loadConfig t.authed a.config = .ok cfg ∧
      deviceKey n t.draws a.config = (.ok kp, file) ∧
      (t.opens = false ∧ connectOnce n t a = ⟨.error .setup, ⟨file, none⟩, []⟩ ∨
        t.opens = true ∧ connectOnce n t a = ⟨(answered n t cfg kp file).1,
          (answered n t cfg kp file).2, [⟨n, kp, t.answer kp.publicKey⟩]⟩) := by
  unfold connectOnce
  by_cases hup : a.tun.isSome = true
  · exact .inl ⟨by simp [Attempt.GetsKey, hup], .alreadyConnected, by simp, by rw [if_pos hup]⟩
  · rw [if_neg hup]
    have hdown : a = ⟨a.config, none⟩ := by
      obtain ⟨config, tun⟩ := a
      cases tun with
      | none => rfl
      | some conn => exact absurd rfl hup
    cases hload : loadConfig t.authed a.config with
    | error e =>
      refine .inl ⟨fun hgets => ?_, .key e, by simp, rfl⟩
      have hok := hgets.2.1
      rw [hload] at hok
      cases hok
    | ok cfg =>
      dsimp only
      by_cases hready : (!t.ready || decide (n = "")) = true
      · rw [if_pos hready]
        exact .inl ⟨fun hgets => by simp [hgets.2.2.1, hgets.2.2.2.1] at hready, .notReady,
          by simp, rfl⟩
      · rw [if_neg hready]
        rcases deviceKey_cases n t.draws a.config with ⟨e, hfails⟩ | ⟨c, kp, c', -, -, hdone⟩
        · refine .inl ⟨fun hgets => ?_, .key e, by simp, ?_⟩
          · have hok := hgets.2.2.2.2
            rw [hfails] at hok
            cases hok
          · rw [hfails]
            dsimp only
            rw [← hdown]
        · obtain ⟨hr, hn⟩ : t.ready = true ∧ n ≠ "" := by simpa using hready
          refine .inr ⟨cfg, kp, some c', ?_, rfl, hdone, ?_⟩
          · exact ⟨by simpa using hup, by rw [hload]; rfl, hr, hn, by rw [hdone]; rfl⟩
          rw [hdone]
          dsimp only
          cases t.opens with
          | false => exact .inl ⟨rfl, rfl⟩
          | true => exact .inr ⟨rfl, rfl⟩

end NexusVPN.Client
