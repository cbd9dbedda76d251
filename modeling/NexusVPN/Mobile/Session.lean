import NexusVPN.Mobile.Pairing

/-! # When the phone gives up a session

    A request of `ApiClient` that is answered with 401 tries to refresh the tokens.  Requests
    that come to this point at the same time share one refresh.  If there is no new access
    token in the end, the request calls `onSessionExpired`.  The requests and the refresh take
    turns wherever the source awaits something. -/

namespace NexusVPN.Mobile.Session

open List Option Machine

/-! ## Requests and the refresh -/

/-- How an HTTP exchange ends. -/
inductive Exchange where
  /-- A response, with the token pair that its body decodes to, if it does. -/
  | response (statusCode : Nat) (pair : Option TokenPair)
  | timeout
  | networkError

/-- The server turns the request down. -/
def Exchange.unauthorized : Exchange → Bool
  | .response 401 _ => true
  | _ => false

/-- The server answers with a new access token. -/
def Exchange.renews : Exchange → Bool
  | .response 200 (some pair) => pair.accessToken.isSome
  | _ => false

/-- Where a call of `_request` is. -/
inductive Request where
  | called (auth retryOn401 : Bool)
  | sent (auth retryOn401 : Bool) (bearer : Option Text)
  /-- It was answered with 401, and awaits the refresh. -/
  | waiting (resp : Exchange)
  | resumed (resp : Exchange) (refreshed : Option TokenPair)
  | renewed
  | resent (bearer : Option Text)
  | done (resp : Exchange)

/-- Where `_doRefresh` is. -/
inductive Refresh where
  | reading
  | posting (refreshToken : Text)
  | clearing
  | saving (accessToken refreshToken : Text)

structure Client where
  /-- The tokens in the storage. -/
  accessToken : Option Text
  refreshToken : Option Text
  /-- `AuthProvider.status`. -/
  status : AuthStatus
  /-- How often `onSessionExpired` was called. -/
  expiries : Nat
  refreshInFlight : Option Refresh
  requests : List Request
  /-- All answers to refresh attempts, the last one first. -/
  answers : List Exchange

namespace Client

/-- What `_headers` sends along. -/
def bearer (c : Client) (auth : Bool) : Option Text :=
  if auth then
    match c.accessToken with
    | some (x :: token) => some (x :: token)
    | _ => none
  else none

def setRequest (c : Client) (n : Nat) (r : Request) : Client :=
  { c with requests := c.requests.set n r }

/-- The refresh is over: `_refreshInFlight` is reset, and whoever awaits it goes on. -/
def complete (c : Client) (refreshed : Option TokenPair) : Client :=
  { c with
    refreshInFlight := none
    requests := c.requests.map fun
      | .waiting resp => .resumed resp refreshed
      | r => r }

/-- `AuthProvider._handleSessionExpired`. -/
def handleSessionExpired (c : Client) : Client :=
  { c with status := .unauthenticated, expiries := c.expiries + 1 }

end Client

inductive Action where
  | call (auth retryOn401 : Bool)
  /-- Request `n` has read its headers and is sent. -/
  | send (n : Nat)
  | answer (n : Nat) (resp : Exchange)
  /-- Request `n` goes on after the refresh. -/
  | resume (n : Nat)
  | readRefreshToken
  | refreshAnswer (resp : Exchange)
  /-- `clearTokens` or `saveTokens` of the refresh. -/
  | store

/-- What `_doRefresh` does about an answer. -/
def refreshAnswered (c : Client) : Exchange → Client
  | .response 200 (some pair) =>
    match pair.accessToken, pair.refreshToken with
    | some access, some refresh => { c with refreshInFlight := some (.saving access refresh) }
    | _, _ => c.complete (some pair)
  | .response 200 none => c.complete none
  | .response _ _ => { c with refreshInFlight := some .clearing }
  | .timeout => c.complete none
  | .networkError => c.complete none

def step (c : Client) : Action → Option Client
  | .call auth retryOn401 => some { c with requests := c.requests ++ [.called auth retryOn401] }
  | .send n =>
    match c.requests[n]? with
    | some (.called auth retryOn401) =>
      some (c.setRequest n (.sent auth retryOn401 (c.bearer auth)))
    | some .renewed => some (c.setRequest n (.resent (c.bearer true)))
    | _ => none
  | .answer n resp =>
    match c.requests[n]? with
    | some (.sent auth retryOn401 _) =>
      if resp.unauthorized && auth && retryOn401 then
        -- `_tryRefresh`: a refresh that is under way is shared.
        some { c.setRequest n (.waiting resp) with
          refreshInFlight := some (c.refreshInFlight.getD .reading) }
      else some (c.setRequest n (.done resp))
    | some (.resent _) => some (c.setRequest n (.done resp))
    | _ => none
  | .resume n =>
    match c.requests[n]? with
    | some (.resumed resp refreshed) =>
      if (refreshed.bind TokenPair.accessToken).isSome then some (c.setRequest n .renewed)
      else some (c.setRequest n (.done resp)).handleSessionExpired
    | _ => none
  | .readRefreshToken =>
    match c.refreshInFlight with
    | some .reading =>
      match c.refreshToken with
      | none => some (c.complete none)
      | some [] => some (c.complete none)
      | some token => some { c with refreshInFlight := some (.posting token) }
    | _ => none
  | .refreshAnswer resp =>
    match c.refreshInFlight with
    | some (.posting _) => some (refreshAnswered { c with answers := resp :: c.answers } resp)
    | _ => none
  | .store =>
    match c.refreshInFlight with
    | some .clearing => some ({ c with accessToken := none, refreshToken := none }.complete none)
    | some (.saving access refresh) =>
      some ({ c with accessToken := some access, refreshToken := some refresh }.complete
        (some ⟨some access, some refresh⟩))
    | _ => none

/-! ## Giving up -/

/-- Since `c₀`, tokens have been removed, the status has changed or `onSessionExpired` was
    called. -/
def GivenUp (c₀ c : Client) : Prop :=
  (c₀.accessToken ≠ none ∧ c.accessToken = none) ∨
  (c₀.refreshToken ≠ none ∧ c.refreshToken = none) ∨
  c.status ≠ c₀.status ∨ c.expiries ≠ c₀.expiries

instance (c₀ c : Client) : Decidable (GivenUp c₀ c) := inferInstanceAs (Decidable (_ ∨ _))

/-- The server has rejected a refresh token. -/
def Refused (c : Client) : Prop := ∃ resp ∈ c.answers, resp.unauthorized = true

instance (c : Client) : Decidable (Refused c) :=
  inferInstanceAs (Decidable (∃ resp ∈ c.answers, resp.unauthorized = true))

/-- Each refresh attempt is answered with 401 or with a new access token.  There is a refresh
    token to try it with, unless one was rejected before. -/
def Favourable (c : Client) : Action → Prop
  | .readRefreshToken => c.refreshToken.getD [] ≠ [] ∨ Refused c
  | .refreshAnswer resp => resp.unauthorized = true ∨ resp.renews = true
  | _ => True

instance (c : Client) (a : Action) : Decidable (Favourable c a) := by
  cases a <;> unfold Favourable <;> infer_instance

/-- Nothing is under way, and no refresh has been tried. -/
structure Idle (c : Client) : Prop where
  requests : c.requests = []
  refresh : c.refreshInFlight = none
  answers : c.answers = []

/-- As long as no refresh token is rejected: nothing is given up, no tokens are about to be
    removed, and whoever awaited a refresh has a new access token. -/
structure Calm (c₀ c : Client) : Prop where
  kept : ¬GivenUp c₀ c
  refresh : c.refreshInFlight ≠ some .clearing
  resumed : ∀ resp refreshed, .resumed resp refreshed ∈ c.requests →
    (refreshed.bind TokenPair.accessToken).isSome = true

section

variable {c₀ c c' : Client} {n : Nat} {r : Request}

theorem Calm.setRequest (h : Calm c₀ c)
    (hr : ∀ resp refreshed, r ≠ .resumed resp refreshed) : Calm c₀ (c.setRequest n r) where
  kept := h.kept
  refresh := h.refresh
  resumed resp refreshed hmem := by
    rcases mem_or_eq_of_mem_set hmem with hmem | heq
    · exact h.resumed resp refreshed hmem
    · exact (hr resp refreshed heq.symm).elim

theorem Calm.complete (h : Calm c₀ c) {refreshed : Option TokenPair}
    (hnew : (refreshed.bind TokenPair.accessToken).isSome = true) :
    Calm c₀ (c.complete refreshed) where
  kept := h.kept
  refresh := by simp [Client.complete]
  resumed resp refreshed' hmem := by
    obtain ⟨r, hr, heq⟩ := mem_map.mp hmem
    split at heq
    · cases heq
      exact hnew
    · rw [heq] at hr
      exact h.resumed resp refreshed' hr

theorem Calm.refreshing (h : Calm c₀ c) {refresh : Refresh} (hne : refresh ≠ .clearing)
    {answers : List Exchange} :
    Calm c₀ { c with refreshInFlight := some refresh, answers := answers } where
  kept := h.kept
  refresh heq := hne (some.inj heq)
  resumed := h.resumed

variable {a : Action} {resp : Exchange}

theorem unauthorized_cases (h : resp.unauthorized = true) : ∃ pair, resp = .response 401 pair := by
  unfold Exchange.unauthorized at h
  split at h
  · exact ⟨_, rfl⟩
  · cases h

theorem renews_cases (h : resp.renews = true) :
    ∃ pair, resp = .response 200 (some pair) ∧ pair.accessToken.isSome = true := by
  unfold Exchange.renews at h
  split at h
  · exact ⟨_, rfl, h⟩
  · cases h

theorem calm_refreshAnswered (h : Calm c₀ c)
    (hresp : resp.unauthorized = true ∨ resp.renews = true) :
    Refused (refreshAnswered { c with answers := resp :: c.answers } resp) ∨
      Calm c₀ (refreshAnswered { c with answers := resp :: c.answers } resp) := by
  rcases hresp with hresp | hresp
  · obtain ⟨pair, rfl⟩ := unauthorized_cases hresp
    exact .inl ⟨_, mem_cons_self, rfl⟩
  · obtain ⟨pair, rfl, hnew⟩ := renews_cases hresp
    right
    simp only [refreshAnswered]
    split
    · exact h.refreshing (by simp)
    · -- A pair without a refresh token is not stored, but its access token is there.
      have hanswered : Calm c₀ { c with answers := .response 200 (some pair) :: c.answers } :=
        ⟨h.kept, h.refresh, h.resumed⟩
      exact hanswered.complete hnew

theorem answers_refreshAnswered (resp : Exchange) :
    (refreshAnswered c resp).answers = c.answers := by
  unfold refreshAnswered
  split
  · split <;> rfl
  all_goals rfl

theorem answers_step (hstep : step c a = some c') : c.answers ⊆ c'.answers := by
  have hsame : ∀ {d}, some d = some c' → d.answers = c.answers → c.answers ⊆ c'.answers := by
    intro d hd hanswers
    cases hd
    exact hanswers ▸ List.Subset.refl _
  cases a with
  | refreshAnswer resp =>
    simp only [step] at hstep
    split at hstep
    · cases hstep
      rw [answers_refreshAnswered]
      exact subset_cons_self resp c.answers
    · cases hstep
  | call auth retryOn401 => exact hsame hstep rfl
  | send n | answer n resp | resume n | readRefreshToken | store =>
    simp only [step] at hstep
    repeat' split at hstep
    all_goals first | exact hsame hstep rfl | cases hstep

theorem Refused.step (h : Refused c) (hstep : step c a = some c') : Refused c' := by
  obtain ⟨resp, hmem, hresp⟩ := h
  exact ⟨resp, answers_step hstep hmem, hresp⟩

theorem calm_step (h : Calm c₀ c) (href : ¬Refused c) (ha : Favourable c a)
    (hstep : step c a = some c') : Refused c' ∨ Calm c₀ c' := by
  cases a with
  | call auth retryOn401 =>
    cases hstep
    refine .inr ⟨h.kept, h.refresh, ?_⟩
    intro resp refreshed hmem
    rcases mem_append.mp hmem with hmem | hmem
    · exact h.resumed resp refreshed hmem
    · simp at hmem
  | send n =>
    simp only [step] at hstep
    split at hstep
    · cases hstep
      exact .inr (h.setRequest (by simp))
    · cases hstep
      exact .inr (h.setRequest (by simp))
    · cases hstep
  | answer n resp =>
    simp only [step] at hstep
    split at hstep
    · split at hstep
      · cases hstep
        have hwaiting : Calm c₀ (c.setRequest n (.waiting resp)) := h.setRequest (by simp)
        refine .inr ⟨hwaiting.kept, ?_, hwaiting.resumed⟩
        intro heq
        have hclear : c.refreshInFlight.getD .reading = .clearing := some.inj heq
        cases hflight : c.refreshInFlight with
        | none => simp [hflight] at hclear
        | some refresh =>
          rw [hflight, getD_some] at hclear
          exact h.refresh (hclear ▸ hflight)
      · cases hstep
        exact .inr (h.setRequest (by simp))
    · cases hstep
      exact .inr (h.setRequest (by simp))
    · cases hstep
  | resume n =>
    simp only [step] at hstep
    split at hstep
    case h_1 resp refreshed hn =>
      -- The refresh has brought a token, so the call is repeated and not refused.
      have hnew := h.resumed resp refreshed (mem_of_getElem? hn)
      rw [if_pos hnew] at hstep
      cases hstep
      exact .inr (h.setRequest (by simp))
    case h_2 => cases hstep
  | readRefreshToken =>
    have htoken : c.refreshToken.getD [] ≠ [] := ha.resolve_right href
    simp only [step] at hstep
    split at hstep
    · split at hstep
      case h_1 hnone => simp [hnone] at htoken
      case h_2 hempty => simp [hempty] at htoken
      case h_3 token _ _ =>
        cases hstep
        exact .inr (h.refreshing (by simp))
    · cases hstep
  | refreshAnswer resp =>
    simp only [step] at hstep
    split at hstep
    · cases hstep
      exact calm_refreshAnswered h ha
    · cases hstep
  | store =>
    simp only [step] at hstep
    split at hstep
    case h_1 hclear => exact (h.refresh hclear).elim
    case h_2 access refresh _ =>
      cases hstep
      have hsaved : Calm c₀
          { c with accessToken := some access, refreshToken := some refresh } := by
        refine ⟨?_, h.refresh, h.resumed⟩
        have hkept := h.kept
        simp only [GivenUp, not_or] at hkept ⊢
        exact ⟨by simp, by simp, hkept.2.2⟩
      exact .inr (hsaved.complete rfl)
    case h_3 => cases hstep

end

/-- Where each refresh attempt is answered with 401 or a new access token, and there is a
    refresh token to begin with: the session is given up only if the server has rejected the
    refresh token. -/
theorem given_up_only_if_refused (c₀ : Client) (as : List Action) (hidle : Idle c₀)
    (halong : Along step Favourable c₀ as) :
    Throughout step (fun c => GivenUp c₀ c → Refused c) c₀ as := by
  have hstart : Refused c₀ ∨ Calm c₀ c₀ := by
    refine .inr ⟨?_, ?_, ?_⟩
    · simp [GivenUp]
    · simp [hidle.refresh]
    · simp [hidle.requests]
  have hcalm : Throughout step (fun c => Refused c ∨ Calm c₀ c) c₀ as := by
    refine Along.throughout ?_ hstart halong
    intro c a c' hc ha hstep
    by_cases href : Refused c
    · exact .inl (href.step hstep)
    · exact calm_step (hc.resolve_left href) href ha hstep
  refine hcalm.mono ?_
  intro c hc hgiven
  exact hc.resolve_right fun hcalm => hcalm.kept hgiven

/-! ## A server that cannot be reached -/

/-- The user is signed in, and nothing is going on. -/
def signedIn : Client where
  accessToken := some "old".toList
  refreshToken := some "refresh".toList
  status := .authenticated
  expiries := 0
  refreshInFlight := none
  requests := []
  answers := []

/-- One request meets 401, and `resp` is the answer to the refresh. -/
def expiredRequest (resp : Exchange) : List Action :=
  [.call true true, .send 0, .answer 0 (.response 401 none), .readRefreshToken, .refreshAnswer resp]

theorem given_up_only_if_refused_renewed :
    Throughout step (fun c => GivenUp signedIn c → Refused c) signedIn
      (expiredRequest (.response 200 (some ⟨some "new".toList, some "next".toList⟩)) ++
        [.store, .resume 0, .send 0, .answer 0 (.response 200 none)]) :=
  given_up_only_if_refused signedIn _ ⟨rfl, rfl, rfl⟩ (by decide +kernel)

/-- A refresh that times out ends the session; one that meets a server in trouble removes the
    tokens as well. -/
theorem given_up_unrefused :
    (∃ c, run step signedIn (expiredRequest .timeout ++ [.resume 0]) = some c ∧
      c.status = .unauthenticated ∧ c.expiries = 1 ∧ GivenUp signedIn c ∧ ¬Refused c) ∧
    (∃ c, run step signedIn (expiredRequest (.response 503 none) ++ [.store, .resume 0]) = some c ∧
      c.accessToken = none ∧ c.refreshToken = none ∧ GivenUp signedIn c ∧ ¬Refused c) := by
  refine ⟨⟨_, rfl, ?_⟩, ⟨_, rfl, ?_⟩⟩
  all_goals decide +kernel

end NexusVPN.Mobile.Session
