import NexusVPN.Lib.Machine
import NexusVPN.Mobile.ServerUrl

/-! # Pairing a phone with a server

    A pairing link tells the phone a server's address and the fingerprint of its certificate.
    The app stores the two in separate steps, any of which may fail, and other screens store
    an address alone. -/

namespace NexusVPN.Mobile

open List Machine
open Prod (fst snd)
open ExceptT (mk)

open Dart (LowerCase)

abbrev Text := List Char

/-! ## What is stored -/

inductive AuthStatus where
  | unknown
  | authenticated
  | unauthenticated
  | mfaRequired
deriving DecidableEq

structure PairingLink where
  serverUrl : Text
  token : Text
  fingerprint : Text
deriving DecidableEq

/-- An announcement on the network. -/
structure DiscoveredServer where
  url : Text
  fingerprint : Text

structure TokenPair where
  accessToken : Option Text
  refreshToken : Option Text

structure ClaimedPairing where
  tokens : TokenPair
  email : Text
  networkId : Text

/-- What the user is told. -/
inductive Notice where
  | inviteCode
  | notPairingCode
  | insecure (message : String)
  | moved (url : Text)
  | unreachable (why : Text)
  | codeRefused
  | refused (statusCode : Nat) (message : Text)

/-- The secure storage, and what `ApiClient` and `AuthProvider` hold in memory. -/
structure Phone where
  serverUrl : Option Text
  serverFingerprint : Option Text
  accessToken : Option Text
  refreshToken : Option Text
  lastUserEmail : Option Text
  /-- `ApiClient._baseUrl`. -/
  baseUrl : Option Text
  /-- The fingerprint that `ApiClient._http` was made with, if any. -/
  pin : Option Text
  status : AuthStatus
  errorMessage : Option Notice

/-- What the app throws: an `ApiException`, whose status is 0 if the server was not reached,
    an address that is not usable, or any other error. -/
inductive Failure where
  | api (statusCode : Nat) (message : Text)
  | url (e : UrlError)
  | other
deriving DecidableEq

/-- A `Uri` with the query parameters of a pairing link. -/
structure LinkUri extends Uri where
  path : Text
  server : Option Text
  token : Option Text
  fingerprint : Option Text

/-- What the app takes from Dart's library. -/
structure Platform where
  lower : LowerCase
  /-- `Uri.tryParse`. -/
  tryParse : Text → Option LinkUri

/-- What storage, server and network answer to one call of `pairWithLink`. -/
structure Answers where
  /-- `parseInviteCode` finds an invite code in the link. -/
  isInvite : Bool
  pinSaved : Bool
  urlSaved : Bool
  claim : Except Failure ClaimedPairing
  tokensSaved : Bool
  emailSaved : Bool
  /-- What `Discovery.find` returns, and whether the new address is saved. -/
  found : List DiscoveredServer
  movedSaved : Bool
  /-- What `Reachability` has to say. -/
  why : Text

/-! ## The source -/

/-- Functions of the app: they change the phone, also if they throw. -/
abbrev App := ExceptT Failure (StateM Phone)

/-- Write to the storage. -/
def save (saved : Bool) (f : Phone → Phone) : App Unit :=
  if saved then modify f else throw .other

section

variable (P : Platform)

/-- `validateServerUrl` with the app's `Uri.tryParse`. -/
def validate (url : Text) : Except UrlError Text :=
  validateServerUrl P.lower (fun s => (P.tryParse s).map LinkUri.toUri) url

/-- `ApiClient.baseUrl`. -/
def readBaseUrl : App Text := do
  let phone ← get
  match phone.baseUrl with
  | some (c :: url) => pure (c :: url)
  | _ =>
    let url := phone.serverUrl.getD []
    modify fun phone => { phone with baseUrl := some url }
    pure url

def setServerFingerprint (saved : Bool) (fingerprint : Text) : App Unit := do
  modify fun phone => { phone with pin := some fingerprint }
  save saved fun phone => { phone with serverFingerprint := some fingerprint }

def setBaseUrl (saved : Bool) (url : Text) : App Unit :=
  match validate P url with
  | .error e => throw (.url e)
  | .ok normalized => do
    modify fun phone => { phone with baseUrl := some normalized }
    save saved fun phone => { phone with serverUrl := some normalized }

/-- The announcement is made under this fingerprint. -/
def announces (pinned : Text) (server : DiscoveredServer) : Bool :=
  P.lower.toLowerCase server.fingerprint == P.lower.toLowerCase pinned

def followMovedServer (found : List DiscoveredServer) (saved : Bool) : App (Option Text) := do
  let phone ← get
  match phone.serverFingerprint with
  | none => pure none
  | some [] => pure none
  | some pinned =>
    let current ← readBaseUrl
    match found.find? (announces P pinned) with
    | none => pure none
    | some server =>
      if server.url = current then pure none
      else do
        setBaseUrl P saved server.url
        pure (some server.url)

/-- `bootstrap` in a new process. -/
def bootstrap (phone : Phone) : Phone :=
  { phone with
    baseUrl := none
    pin := match phone.serverFingerprint with
      | none => none
      | some [] => none
      | some pinned => some pinned
    status := match phone.refreshToken with
      | none => .unauthenticated
      | some [] => .unauthenticated
      | some _ => .authenticated
    errorMessage := none }

def parsePairingLink (input : Text) : Option PairingLink :=
  let s := Dart.trim input
  if s = [] then none
  else match P.tryParse s with
    | none => none
    | some uri =>
      if P.lower.toLowerCase uri.scheme ≠ "nexusvpn".toList then none
      else
        let place := if uri.host ≠ [] then uri.host else uri.path
        if P.lower.toLowerCase (place.filter (· != '/')) ≠ "pair".toList then none
        else
          let server := Dart.trim (uri.server.getD [])
          let token := Dart.trim (uri.token.getD [])
          let fingerprint := Dart.trim (uri.fingerprint.getD [])
          if server = [] ∨ token = [] then none else some ⟨server, token, fingerprint⟩

/-- `_persistTokens`: a pair without both tokens is a failed null check. -/
def persistTokens (a : Answers) (pair : TokenPair) (email : Text) : App Unit :=
  match pair.accessToken, pair.refreshToken with
  | some access, some refresh => do
    save a.tokensSaved fun phone =>
      { phone with accessToken := some access, refreshToken := some refresh }
    save a.emailSaved fun phone => { phone with lastUserEmail := some email }
  | _, _ => throw .other

/-- `_explainNetworkFailure`. -/
def explainNetworkFailure (a : Answers) : App Notice := do
  match ← followMovedServer P a.found a.movedSaved with
  | some url => pure (.moved url)
  | none => pure (.unreachable a.why)

/-- The second half of what `pairWithLink` tries: claim the code and sign in. -/
def redeem (a : Answers) : App Text := do
  let claimed ← mk (pure a.claim)
  persistTokens a claimed.tokens claimed.email
  modify fun phone => { phone with status := .authenticated }
  pure claimed.networkId

/-- What `pairWithLink` tries.  The pin goes in before the address is used. -/
def pair (a : Answers) (link : PairingLink) : App Text := do
  setServerFingerprint a.pinSaved link.fingerprint
  setBaseUrl P a.urlSaved link.serverUrl
  redeem a

/-- What `pairWithLink` does about an error.  Not every error is caught. -/
def pairingFailed (a : Answers) : Failure → App (Option Text)
  | .url (.insecureServerUrl message) => do
    modify fun phone =>
      { phone with errorMessage := some (.insecure message), status := .unauthenticated }
    pure none
  | .api statusCode message => do
    let notice ←
      if statusCode = 0 then explainNetworkFailure P a
      else if statusCode = 401 then pure .codeRefused
      else pure (.refused statusCode message)
    modify fun phone =>
      { phone with errorMessage := some notice, status := .unauthenticated }
    pure none
  | e => throw e

/-- The network that the link names, or `none` if pairing failed. -/
def pairWithLink (a : Answers) (input : Text) : App (Option Text) :=
  match parsePairingLink P input with
  | none => do
    modify fun phone =>
      { phone with errorMessage := some (if a.isInvite then .inviteCode else .notPairingCode) }
    pure none
  | some link => do
    modify fun phone => { phone with errorMessage := none }
    tryCatch (do pure (some (← pair P a link))) (pairingFailed P a)

end

/-! ## Running a function -/

namespace App

variable {α β : Type}

/-- What `p` returns or throws, and the phone afterwards. -/
def exec (p : App α) (phone : Phone) : Except Failure α × Phone := StateT.run p.run phone

theorem exec_bind (p : App α) (f : α → App β) (phone : Phone) :
    exec (p >>= f) phone = match exec p phone with
      | (.ok x, phone') => exec (f x) phone'
      | (.error e, phone') => (.error e, phone') := by
  simp only [exec, ExceptT.bind, ExceptT.run, mk, StateT.run, bind, StateT.bind, ExceptT.bindCont]
  generalize p phone = r
  obtain ⟨e | x, phone'⟩ := r <;> rfl

theorem exec_tryCatch (p : App α) (handle : Failure → App α) (phone : Phone) :
    exec (tryCatch p handle) phone = match exec p phone with
      | (.ok x, phone') => (.ok x, phone')
      | (.error e, phone') => exec (handle e) phone' := by
  show exec (ExceptT.tryCatch p handle) phone = _
  simp only [exec, ExceptT.tryCatch, ExceptT.run, mk, StateT.run, bind, StateT.bind]
  generalize p phone = r
  obtain ⟨e | x, phone'⟩ := r <;> rfl

@[simp] theorem exec_pure (x : α) (phone : Phone) : exec (pure x) phone = (.ok x, phone) := rfl

@[simp] theorem exec_modify (f : Phone → Phone) (phone : Phone) :
    exec (modify f) phone = (.ok (), f phone) := rfl

@[simp] theorem exec_get (phone : Phone) : exec get phone = (.ok phone, phone) := rfl

end App

/-! ## Calls one after the other -/

/-- The phone, with every link it was given and every announcement there has been. -/
structure Device where
  phone : Phone
  links : List PairingLink
  announced : List DiscoveredServer

inductive Op where
  | pairWithLink (input : Text) (a : Answers)
  /-- An address that is typed on one of the screens. -/
  | setBaseUrl (typed : Text) (saved : Bool)
  | followMovedServer (found : List DiscoveredServer) (saved : Bool)
  | relaunch

/-- What is stored of the server. -/
def Phone.stored (phone : Phone) : Option Text × Option Text :=
  (phone.serverUrl, phone.serverFingerprint)

section

variable (P : Platform)

def step (d : Device) : Op → Option Device
  | .pairWithLink input a => some
    { phone := (App.exec (pairWithLink P a input) d.phone).2
      links := (parsePairingLink P input).toList ++ d.links
      announced := a.found ++ d.announced }
  | .setBaseUrl typed saved => some
    { d with phone := (App.exec (setBaseUrl P saved typed) d.phone).2 }
  | .followMovedServer found saved => some
    { d with
      phone := (App.exec (followMovedServer P found saved) d.phone).2
      announced := found ++ d.announced }
  | .relaunch => some { d with phone := bootstrap d.phone }

/-- The fingerprint was learned together with the address, or the address was announced with
    that fingerprint. -/
def Belongs (d : Device) (fingerprint url : Text) : Prop :=
  (∃ link ∈ d.links, link.fingerprint = fingerprint ∧ validate P link.serverUrl = .ok url) ∨
  ∃ server ∈ d.announced, announces P fingerprint server = true ∧ validate P server.url = .ok url

/-- The stored pin, if there is one, belongs to the stored address. -/
def Coherent (d : Device) : Prop :=
  ∀ pinned, d.phone.serverFingerprint = some pinned → pinned ≠ [] →
    ∃ url, d.phone.serverUrl = some url ∧ Belongs P d pinned url

/-- A pairing that fails leaves the stored server alone. -/
def KeptOnFailure (d : Device) : Op → Prop
  | .pairWithLink input a =>
    (∀ network, (App.exec (pairWithLink P a input) d.phone).1 ≠ .ok (some network)) →
      (App.exec (pairWithLink P a input) d.phone).2.stored = d.phone.stored
  | _ => True

/-- Nothing goes wrong on the way. -/
structure Completes (a : Answers) (link : PairingLink) : Prop where
  pinSaved : a.pinSaved = true
  valid : ∃ url, validate P link.serverUrl = .ok url
  urlSaved : a.urlSaved = true
  claimed : ∃ email network access refresh,
    a.claim = .ok ⟨⟨some access, some refresh⟩, email, network⟩
  tokensSaved : a.tokensSaved = true
  emailSaved : a.emailSaved = true

/-- The link tells what is stored already, and the server is not found elsewhere. -/
structure Repeats (phone : Phone) (a : Answers) (link : PairingLink) : Prop where
  pinned : phone.serverFingerprint = some link.fingerprint
  valid : ∃ url, validate P link.serverUrl = .ok url ∧ phone.serverUrl = some url
  unmoved : ∀ message, a.claim = .error (.api 0 message) → ∀ server ∈ a.found,
    announces P link.fingerprint server = true →
    ∀ url, validate P server.url = .ok url → phone.serverUrl = some url

/-- A pairing completes, or repeats what is stored.  No address is typed over that of a
    paired server. -/
def Favourable (d : Device) : Op → Prop
  | .pairWithLink input a => ∀ link, parsePairingLink P input = some link →
    Completes P a link ∨ Repeats P d.phone a link
  | .setBaseUrl typed saved => ∀ pinned url, d.phone.serverFingerprint = some pinned →
    pinned ≠ [] → validate P typed = .ok url → saved = true → d.phone.serverUrl = some url
  | _ => True

end

/-! ## What each function stores -/

variable {input : Text}

section

variable {P : Platform} {phone : Phone} {saved : Bool} {a : Answers}

open App

theorem exec_setServerFingerprint (fingerprint : Text) :
    exec (setServerFingerprint saved fingerprint) phone =
      if saved then
        (.ok (), { phone with pin := some fingerprint, serverFingerprint := some fingerprint })
      else (.error .other, { phone with pin := some fingerprint }) := by
  cases saved <;> rfl

theorem exec_setBaseUrl (url : Text) :
    exec (setBaseUrl P saved url) phone = match validate P url with
      | .error e => (.error (.url e), phone)
      | .ok normalized =>
        if saved then
          (.ok (), { phone with baseUrl := some normalized, serverUrl := some normalized })
        else (.error .other, { phone with baseUrl := some normalized }) := by
  unfold setBaseUrl
  cases validate P url with
  | error e => rfl
  | ok normalized => cases saved <;> rfl

theorem exec_readBaseUrl (phone : Phone) :
    ∃ url phone', exec readBaseUrl phone = (.ok url, phone') ∧ phone'.stored = phone.stored := by
  unfold readBaseUrl
  rw [exec_bind, exec_get]
  simp only
  split
  · exact ⟨_, _, rfl, rfl⟩
  · exact ⟨_, _, rfl, rfl⟩

theorem followMovedServer_stored (phone : Phone) (found : List DiscoveredServer) (saved : Bool) :
    (exec (followMovedServer P found saved) phone).2.stored = phone.stored ∨
    ∃ pinned, phone.serverFingerprint = some pinned ∧ ∃ server ∈ found,
      announces P pinned server = true ∧ ∃ url, validate P server.url = .ok url ∧
      (exec (followMovedServer P found saved) phone).2.stored = (some url, some pinned) := by
  unfold followMovedServer
  rw [exec_bind, exec_get]
  simp only
  split
  case h_1 => exact .inl rfl
  case h_2 => exact .inl rfl
  case h_3 pinned _ hpin =>
    obtain ⟨current, phone', hread, hsto⟩ := exec_readBaseUrl phone
    rw [exec_bind, hread]
    simp only
    split
    case h_1 => exact .inl hsto
    case h_2 server hfind =>
      split
      case isTrue => exact .inl hsto
      case isFalse =>
        have hmem := mem_of_find?_eq_some hfind
        have hann := find?_some hfind
        rw [exec_bind, exec_setBaseUrl]
        cases hvalid : validate P server.url with
        | error e => exact .inl hsto
        | ok url =>
          cases saved with
          | false => exact .inl hsto
          | true =>
            -- Only the address is written; the pin stays as it was.
            refine .inr ⟨pinned, hpin, server, hmem, hann, url, hvalid, ?_⟩
            have hfp : phone'.serverFingerprint = some pinned := (congrArg snd hsto).trans hpin
            exact congrArg (Prod.mk (some url)) hfp

theorem exec_save (f : Phone → Phone) :
    exec (save saved f) phone = if saved then (.ok (), f phone) else (.error .other, phone) := by
  cases saved <;> rfl

theorem exec_persistTokens (phone : Phone) (pair : TokenPair) (email : Text) :
    ∃ r phone', exec (persistTokens a pair email) phone = (r, phone') ∧
      (r = .ok () ∨ r = .error .other) ∧ phone'.stored = phone.stored := by
  unfold persistTokens
  split
  case h_1 access refresh _ _ =>
    cases a.tokensSaved with
    | false => exact ⟨_, _, rfl, .inr rfl, rfl⟩
    | true =>
      cases a.emailSaved with
      | false => exact ⟨_, _, rfl, .inr rfl, rfl⟩
      | true => exact ⟨_, _, rfl, .inl rfl, rfl⟩
  case h_2 => exact ⟨_, _, rfl, .inr rfl, rfl⟩

theorem exec_redeem (phone : Phone) :
    ∃ r phone', exec (redeem a) phone = (r, phone') ∧ phone'.stored = phone.stored ∧
      ∀ e, r = .error e → e = .other ∨ a.claim = .error e := by
  have hclaim : exec (mk (pure a.claim)) phone = (a.claim, phone) := rfl
  unfold redeem
  rw [exec_bind, hclaim]
  cases a.claim with
  | error e =>
    refine ⟨_, _, rfl, rfl, ?_⟩
    rintro e' ⟨rfl⟩
    exact .inr rfl
  | ok claimed =>
    obtain ⟨r, phone', hexec, hr, hsto⟩ := exec_persistTokens (a := a) phone claimed.tokens
      claimed.email
    simp only [exec_bind, hexec]
    rcases hr with rfl | rfl
    · refine ⟨_, _, rfl, hsto, ?_⟩
      rintro e ⟨⟩
    · refine ⟨_, _, rfl, hsto, ?_⟩
      rintro e ⟨rfl⟩
      exact .inl rfl

theorem exec_redeem_ok (phone : Phone) {email network access refresh : Text}
    (hclaim : a.claim = .ok ⟨⟨some access, some refresh⟩, email, network⟩)
    (htokens : a.tokensSaved = true) (hemail : a.emailSaved = true) :
    ∃ phone', exec (redeem a) phone = (.ok network, phone') ∧ phone'.stored = phone.stored := by
  have hexec : exec (mk (pure a.claim)) phone = (a.claim, phone) := rfl
  unfold redeem
  rw [exec_bind, hexec, hclaim]
  simp only [exec_bind, persistTokens, exec_save, htokens, hemail, if_true, exec_modify, exec_pure]
  exact ⟨_, rfl, rfl⟩

variable {link : PairingLink}

theorem pairWithLink_completes (phone : Phone) (hparse : parsePairingLink P input = some link)
    (h : Completes P a link) :
    ∃ url network phone', validate P link.serverUrl = .ok url ∧
      exec (pairWithLink P a input) phone = (.ok (some network), phone') ∧
      phone'.stored = (some url, some link.fingerprint) := by
  obtain ⟨hpin, ⟨url, hvalid⟩, hurl, hclaimed, htokens, hemail⟩ := h
  obtain ⟨email, network, access, refresh, hclaim⟩ := hclaimed
  obtain ⟨phone', hredeem, hsto⟩ := exec_redeem_ok
    { phone with
      errorMessage := none
      pin := some link.fingerprint
      serverFingerprint := some link.fingerprint
      baseUrl := some url
      serverUrl := some url } hclaim htokens hemail
  refine ⟨url, network, phone', hvalid, ?_, hsto⟩
  simp only [pairWithLink, hparse, pair, exec_bind, exec_modify, exec_tryCatch,
    exec_setServerFingerprint, hpin, if_true, exec_setBaseUrl, hvalid, hurl, hredeem, exec_pure]

theorem exec_pair_repeats (phone : Phone) {url : Text}
    (hpin : phone.serverFingerprint = some link.fingerprint)
    (hvalid : validate P link.serverUrl = .ok url) (hurl : phone.serverUrl = some url) :
    ∃ r phone', exec (pair P a link) phone = (r, phone') ∧ phone'.stored = phone.stored ∧
      ∀ e, r = .error e → e = .other ∨ a.claim = .error e := by
  have hother : ∀ e, (Except.error .other : Except Failure Text) = .error e →
      e = .other ∨ a.claim = .error e := by
    rintro e ⟨rfl⟩
    exact .inl rfl
  simp only [pair, exec_bind, exec_setServerFingerprint]
  cases a.pinSaved with
  | false => exact ⟨_, _, rfl, rfl, hother⟩
  | true =>
    simp only [if_true, exec_setBaseUrl, hvalid]
    cases a.urlSaved with
    | false =>
      refine ⟨_, _, rfl, ?_, hother⟩
      exact congrArg (Prod.mk phone.serverUrl) hpin.symm
    | true =>
      obtain ⟨r, phone', hexec, hsto, hr⟩ := exec_redeem (a := a)
        { phone with
          pin := some link.fingerprint
          serverFingerprint := some link.fingerprint
          baseUrl := some url
          serverUrl := some url }
      refine ⟨r, phone', hexec, ?_, hr⟩
      rw [hsto]
      -- Address and pin are written again, and are the same.
      exact Prod.ext hurl.symm hpin.symm

theorem pairingFailed_stored (phone : Phone) (e : Failure) :
    (exec (pairingFailed P a e) phone).2.stored = phone.stored ∨
    (exec (pairingFailed P a e) phone).2.stored =
      (exec (followMovedServer P a.found a.movedSaved) phone).2.stored ∧
    ∃ message, e = .api 0 message := by
  unfold pairingFailed
  split
  case h_1 => exact .inl rfl
  case h_2 statusCode message =>
    by_cases hzero : statusCode = 0
    · refine .inr ⟨?_, message, by rw [hzero]⟩
      rw [if_pos hzero, exec_bind, explainNetworkFailure, exec_bind]
      obtain ⟨r, phone'⟩ := exec (followMovedServer P a.found a.movedSaved) phone
      cases r with
      | error e => rfl
      | ok moved => cases moved <;> rfl
    · rw [if_neg hzero]
      left
      split <;> rfl
  case h_3 => exact .inl rfl

theorem pairWithLink_repeats (phone : Phone) (hparse : parsePairingLink P input = some link)
    (h : Repeats P phone a link) :
    (exec (pairWithLink P a input) phone).2.stored = phone.stored := by
  obtain ⟨hpinned, ⟨url, hvalid, hurl⟩, hunmoved⟩ := h
  obtain ⟨r, phone', hpair, hsto, hr⟩ := exec_pair_repeats (P := P) (a := a)
    { phone with errorMessage := none } hpinned hvalid hurl
  replace hsto : phone'.stored = phone.stored := hsto
  simp only [pairWithLink, hparse, exec_bind, exec_modify, exec_tryCatch, hpair]
  cases r with
  | ok network => exact hsto
  | error e =>
    rcases pairingFailed_stored (P := P) (a := a) phone' e with
      hkept | ⟨hmoved, message, rfl⟩
    · rw [hkept, hsto]
    · have hclaim : a.claim = .error (.api 0 message) := (hr _ rfl).resolve_left (by simp)
      rw [hmoved]
      rcases followMovedServer_stored (P := P) phone' a.found a.movedSaved with
        hkept | ⟨pinned, hpinned', server, hmem, hann, url', hvalid', hurl'⟩
      · rw [hkept, hsto]
      · -- The server was looked for under the pin that was stored all along.
        have hpin : phone'.serverFingerprint = phone.serverFingerprint := congrArg snd hsto
        rw [hpin, hpinned] at hpinned'
        cases hpinned'
        rw [hurl', ← hunmoved message hclaim server hmem hann url' hvalid']
        exact congrArg (Prod.mk phone.serverUrl) hpinned.symm

end

/-! ## The pin belongs to the server -/

section

variable {P : Platform} {d d' : Device}

open App

theorem Belongs.mono {fingerprint url : Text} (h : Belongs P d fingerprint url)
    (hlinks : d.links ⊆ d'.links) (hann : d.announced ⊆ d'.announced) :
    Belongs P d' fingerprint url := by
  rcases h with ⟨link, hmem, hlink⟩ | ⟨server, hmem, hsrv⟩
  · exact .inl ⟨link, hlinks hmem, hlink⟩
  · exact .inr ⟨server, hann hmem, hsrv⟩

theorem Coherent.of_stored (h : Coherent P d) (hsto : d'.phone.stored = d.phone.stored)
    (hlinks : d.links ⊆ d'.links) (hann : d.announced ⊆ d'.announced) : Coherent P d' := by
  intro pinned hpinned hne
  have hurl : d'.phone.serverUrl = d.phone.serverUrl := congrArg fst hsto
  have hpin : d'.phone.serverFingerprint = d.phone.serverFingerprint := congrArg snd hsto
  obtain ⟨url, hsome, hbel⟩ := h pinned (hpin ▸ hpinned) hne
  exact ⟨url, hurl ▸ hsome, hbel.mono hlinks hann⟩

theorem Coherent.of_belongs (pinned url : Text)
    (hsto : d'.phone.stored = (some url, some pinned)) (h : Belongs P d' pinned url) :
    Coherent P d' := by
  have hpin : d'.phone.serverFingerprint = some pinned := congrArg snd hsto
  intro pinned' hpinned' _
  cases hpin.symm.trans hpinned'
  exact ⟨url, congrArg fst hsto, h⟩

theorem Coherent.step {op : Op} (h : Coherent P d) (hop : Favourable P d op)
    (hstep : step P d op = some d') : Coherent P d' ∧ KeptOnFailure P d op := by
  cases op with
  | relaunch =>
    cases hstep
    exact ⟨h.of_stored rfl (fun _ hx => hx) fun _ hx => hx, trivial⟩
  | followMovedServer found saved =>
    cases hstep
    refine ⟨?_, trivial⟩
    rcases followMovedServer_stored (P := P) d.phone found saved with
      hkept | ⟨pinned, -, server, hmem, hann, url, hvalid, hsto⟩
    · exact h.of_stored hkept (fun _ hx => hx) (subset_append_right found d.announced)
    · refine Coherent.of_belongs pinned url hsto (.inr ⟨server, ?_, hann, hvalid⟩)
      exact mem_append_left _ hmem
  | setBaseUrl typed saved =>
    cases hstep
    refine ⟨?_, trivial⟩
    simp only [exec_setBaseUrl]
    cases hvalid : validate P typed with
    | error e => exact h
    | ok url =>
      cases saved with
      | false => exact h.of_stored rfl (fun _ hx => hx) fun _ hx => hx
      | true =>
        intro pinned hpin hne
        -- With a pin, the address is the one that was stored before.
        have hsame : d.phone.serverUrl = some url := hop pinned url hpin hne hvalid rfl
        obtain ⟨url', hurl', hbel⟩ := h pinned hpin hne
        cases hsame.symm.trans hurl'
        exact ⟨url, rfl, hbel⟩
  | pairWithLink input a =>
    cases hstep
    cases hparse : parsePairingLink P input with
    | none =>
      have hsto : (exec (pairWithLink P a input) d.phone).2.stored = d.phone.stored := by
        simp only [pairWithLink, hparse]
        rfl
      refine ⟨h.of_stored hsto ?_ ?_, fun _ => hsto⟩
      · exact subset_append_right _ d.links
      · exact subset_append_right a.found d.announced
    | some link =>
      rcases hop link hparse with hcompletes | hrepeats
      · obtain ⟨url, network, phone', hvalid, hexec, hsto⟩ :=
          pairWithLink_completes d.phone hparse hcompletes
        constructor
        · refine Coherent.of_belongs link.fingerprint url ?_ ?_
          · rw [hexec, hsto]
          · exact .inl ⟨link, mem_cons_self, rfl, hvalid⟩
        · intro hfail
          rw [hexec] at hfail
          exact (hfail network rfl).elim
      · have hsto := pairWithLink_repeats d.phone hparse hrepeats
        refine ⟨h.of_stored hsto ?_ ?_, fun _ => hsto⟩
        · exact subset_append_right _ d.links
        · exact subset_append_right a.found d.announced

end

/-- As long as every pairing completes, or repeats what is stored, and no address is typed
    over that of a paired server: the stored pin belongs to the stored address all along, and
    a pairing that fails leaves both as they were. -/
theorem pin_belongs_to_server (P : Platform) (d : Device) (ops : List Op) (h : Coherent P d)
    (halong : Along (step P) (Favourable P) d ops) :
    Throughout (step P) (Coherent P) d ops ∧ Along (step P) (KeptOnFailure P) d ops := by
  constructor
  · refine Along.throughout ?_ h halong
    intro d op d' hd hop hstep
    exact (hd.step hop hstep).1
  · refine Along.imp ?_ h halong
    intro d op d' hd hop hstep
    exact hd.step hop hstep

/-! ## Pairings that are broken off -/

/-- A phone that is new to all this. -/
def Device.fresh : Device where
  phone := {
    serverUrl := none
    serverFingerprint := none
    accessToken := none
    refreshToken := none
    lastUserEmail := none
    baseUrl := none
    pin := none
    status := .unauthenticated
    errorMessage := none }
  links := []
  announced := []

/-- The value of a parameter in a query that needs no unescaping. -/
def plainParameter (query : Text) (key : Char) : Option Text :=
  (query.splitOn '&').findSome? fun
    | k :: '=' :: value => if k = key then some value else none
    | _ => none

/-- Addresses and links are what they seem to be. -/
def plainPlatform : Platform where
  lower := .plain
  tryParse s :=
    if "nexusvpn://pair?".toList <+: s then
      let query := plainParameter (s.drop 16)
      some ⟨⟨"nexusvpn".toList, "pair".toList⟩, [], query 's', query 't', query 'f'⟩
    else if "https://".toList <+: s then
      some ⟨⟨"https".toList, s.drop 8⟩, [], none, none, none⟩
    else if "http://".toList <+: s then some ⟨⟨"http".toList, s.drop 7⟩, [], none, none, none⟩
    else none

/-- Nothing goes wrong. -/
def plainAnswers : Answers where
  isInvite := false
  pinSaved := true
  urlSaved := true
  claim := .ok ⟨⟨some "access".toList, some "refresh".toList⟩, "sam".toList, "home".toList⟩
  tokensSaved := true
  emailSaved := true
  found := []
  movedSaved := true
  why := []

def pairingLink (server fingerprint : String) : Text :=
  ("nexusvpn://pair?s=" ++ server ++ "&t=token&f=" ++ fingerprint).toList

/-- The phone is paired with the server at `https://10.0.0.1`. -/
def pairHome : Op := .pairWithLink (pairingLink "https://10.0.0.1" "1a:2b") plainAnswers

theorem pin_belongs_to_home :
    Throughout (step plainPlatform) (Coherent plainPlatform) Device.fresh
      [pairHome, .relaunch] := by
  refine (pin_belongs_to_server plainPlatform Device.fresh [pairHome, .relaunch] ?_ ?_).1
  · rintro pinned ⟨⟩
  · intro d _
    refine ⟨?_, fun d' _ => ⟨trivial, trivial⟩⟩
    intro link hparse
    have hlink : parsePairingLink plainPlatform (pairingLink "https://10.0.0.1" "1a:2b") =
        some ⟨"https://10.0.0.1".toList, "token".toList, "1a:2b".toList⟩ := by
      decide +kernel
    cases hlink.symm.trans hparse
    have hvalid : validate plainPlatform "https://10.0.0.1".toList =
        .ok "https://10.0.0.1".toList := by
      decide +kernel
    exact .inl ⟨rfl, ⟨_, hvalid⟩, rfl, ⟨_, _, _, _, rfl⟩, rfl, rfl⟩

theorem not_coherent {P : Platform} {d : Device} (pinned url : Text) (hne : pinned ≠ [])
    (hsto : d.phone.stored = (some url, some pinned))
    (hlinks : ∀ link ∈ d.links, link.fingerprint ≠ pinned ∨ validate P link.serverUrl ≠ .ok url)
    (hann : d.announced = []) : ¬Coherent P d := by
  intro h
  obtain ⟨url', hurl', hbel⟩ := h pinned (congrArg snd hsto) hne
  have hurl : d.phone.serverUrl = some url := congrArg fst hsto
  cases hurl.symm.trans hurl'
  rcases hbel with ⟨link, hmem, hpin, hvalid⟩ | ⟨server, hmem, -⟩
  · rcases hlinks link hmem with hne | hne
    · exact hne hpin
    · exact hne hvalid
  · rw [hann] at hmem
    cases hmem

theorem not_keptOnFailure {P : Platform} {d : Device} {a : Answers}
    (hfail : (App.exec (pairWithLink P a input) d.phone).1 = .ok none)
    (hsto : (App.exec (pairWithLink P a input) d.phone).2.stored ≠ d.phone.stored) :
    ¬KeptOnFailure P d (.pairWithLink input a) := by
  intro hkept
  apply hsto
  apply hkept
  intro network hok
  rw [hfail] at hok
  cases hok

/-- A link to a server that would need TLS, a code that is refused, and an address that is
    typed: each leaves something stored that does not belong together, or forgets the server
    that the phone was paired with. -/
theorem pin_strays :
    (∃ d, run (step plainPlatform) Device.fresh
        [pairHome, .pairWithLink (pairingLink "http://example.com" "3c:4d") plainAnswers] =
          some d ∧
      d.phone.stored = (some "https://10.0.0.1".toList, some "3c:4d".toList) ∧
      ¬Coherent plainPlatform d) ∧
    (∃ d, run (step plainPlatform) Device.fresh [pairHome] = some d ∧
      ¬KeptOnFailure plainPlatform d (.pairWithLink (pairingLink "https://10.0.0.2" "5e:6f")
        { plainAnswers with claim := .error (.api 401 []) })) ∧
    (∃ d, run (step plainPlatform) Device.fresh
        [pairHome, .setBaseUrl "https://example.com".toList true] = some d ∧
      d.phone.stored = (some "https://example.com".toList, some "1a:2b".toList) ∧
      ¬Coherent plainPlatform d) := by
  refine ⟨⟨_, rfl, by decide +kernel, ?_⟩, ⟨_, rfl, ?_⟩, ⟨_, rfl, by decide +kernel, ?_⟩⟩
  · exact not_coherent "3c:4d".toList "https://10.0.0.1".toList (by decide)
      (by decide +kernel) (by decide +kernel) (by decide +kernel)
  · exact not_keptOnFailure (by decide +kernel) (by decide +kernel)
  · exact not_coherent "1a:2b".toList "https://example.com".toList (by decide)
      (by decide +kernel) (by decide +kernel) (by decide +kernel)

end NexusVPN.Mobile
