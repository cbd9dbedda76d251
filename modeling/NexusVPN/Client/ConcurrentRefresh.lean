import NexusVPN.Client.TokenServer
import NexusVPN.Lib.Track

/-! # Requests that refresh at the same time

    Any number of requests meet an access token that has expired, through one
    `apiclient.Client` or through clients that were made from the same configuration.  Each of
    them refreshes on its own, and the control plane accepts a refresh token once. -/

namespace NexusVPN.Client.Refreshing

open List Api Machine Prog Host

/-! ## Requests -/

/-- An authenticated request, through a client that is there or through one of its own. -/
structure Job where
  client : Option Nat
  method : String
  path : String
  fields : Option (List (String × String))
  guarded : ¬(method = "POST" ∧ path = "/auth/refresh")

namespace Job

def request (j : Job) (token : String) : ApiRequest := ⟨j.method, j.path, token, j.fields⟩

/-- Nothing is requested if the agent is not signed in. -/
def body (j : Job) : ApiM (Option (Except ApiError ApiResponse)) :=
  match j.client with
  | some k => do return some (← doRequest k j.method j.path j.fields true)
  | none => do
    match ← authed with
    | none => return none
    | some k => return some (← doRequest k j.method j.path j.fields true)

end Job

/-- How far a request has come. -/
inductive Phase where
  | start
  | loaded (t : Tokens)
  | ready (k : Nat)
  /-- It is about to be sent with that token. -/
  | bearing (k : Nat) (token : String)
  /-- It was answered with 401. -/
  | refused (k : Nat)
  /-- In `RefreshToken`. -/
  | renewing (k : Nat)
  | holding (k : Nat) (refresh : String)
  | granted (k : Nat) (t : Tokens)
  | installed (k : Nat) (t : Tokens)
  | retry (k : Nat)
  | retrying (k : Nat) (token : String)
  | done (resp : ApiResponse)
  | failed

namespace Phase

/-- From reading the refresh token until the new pair is in the configuration. -/
def Critical : Phase → Prop
  | .holding _ _ | .granted _ _ | .installed _ _ => True
  | _ => False

instance (ph : Phase) : Decidable ph.Critical := by
  cases ph <;> unfold Critical <;> infer_instance

/-- After the first answer. -/
def first (k : Nat) : Option ApiResponse → Phase
  | none => .failed
  | some resp => if resp.status = 401 then .refused k else .done resp

/-- After the answer to `/auth/refresh`. -/
def renewed (k : Nat) (resp : Option ApiResponse) : Phase :=
  match finish resp with
  | .error _ => .failed
  | .ok resp =>
    match resp.body.tokenPair with
    | none => .failed
    | some t => .granted k t

/-- After the second answer. -/
def second : Option ApiResponse → Phase
  | none => .failed
  | some resp => .done resp

end Phase

/-- The request for a new pair. -/
def refreshRequest (refresh : String) : ApiRequest :=
  ⟨"POST", "/auth/refresh", "", some [("refreshToken", refresh)]⟩

/-- The calls of a request, one after the other. -/
def following (j : Job) : Protocol apiIface Phase where
  may _ _ := True
  legal ph c :=
    match ph with
    | .start =>
      match j.client with
      | none => c = .load
      | some k => c = .accessToken k
    | .loaded t => c = .create t
    | .ready k | .retry k => c = .accessToken k
    | .bearing _ token | .retrying _ token => c = .send (j.request token)
    | .refused k | .renewing k => c = .refreshTokenValue k
    | .holding _ refresh => c = .send (refreshRequest refresh)
    | .granted k t => c = .setTokens k t
    | .installed _ t => c = .update t
    | .done _ | .failed => False
  next ph c a :=
    match ph, c, a with
    | .start, .load, t => if t.access = "" then .failed else .loaded t
    | .start, .accessToken k, token => .bearing k token
    | .loaded _, .create _, k => .ready k
    | .ready k, .accessToken _, token => .bearing k token
    | .bearing k _, .send _, resp => .first k resp
    | .refused k, .refreshTokenValue _, refresh => if refresh = "" then .failed else .renewing k
    | .renewing k, .refreshTokenValue _, refresh =>
      if refresh = "" then .failed else .holding k refresh
    | .holding k _, .send _, resp => .renewed k resp
    | .granted k t, _, _ => .installed k t
    | .installed k _, _, _ => .retry k
    | .retry k, .accessToken _, token => .retrying k token
    | .retrying _ _, .send _, resp => .second resp
    | _, _, _ => .failed

/-- What a request that has come to its end returns. -/
def Outcome (result : Option (Except ApiError ApiResponse)) : Phase → Prop
  | .done resp => result = some (finish (some resp))
  | .failed => True
  | _ => False

/-! ### Requests follow the protocol -/

variable {k : Nat} {h : Host Sessions} {ph : Phase}

section

variable (j : Job)

theorem following_retry (k : Nat) :
    Obeys (following j) (fun result ph => Outcome (some result) ph)
      (exchange k j.method j.path j.fields true >>= fun resp => .ret (finish resp))
      (.retry k) := by
  refine ⟨rfl, fun token _ => ⟨rfl, fun resp _ => ?_⟩⟩
  cases resp with
  | none => trivial
  | some resp => rfl

theorem following_refreshToken (k : Nat) :
    (refreshToken k).Obeys (following j)
      (fun result ph =>
        match result with
        | .ok _ => ph = .retry k
        | .error _ => ph = .failed) (.renewing k) := by
  refine ⟨rfl, fun refresh _ => ?_⟩
  by_cases hempty : refresh = ""
  · subst hempty
    rfl
  · show Obeys (following j) _ (if refresh = "" then _ else _)
      (if refresh = "" then .failed else .holding k refresh)
    rw [if_neg hempty, if_neg hempty]
    refine ⟨rfl, fun resp _ => ?_⟩
    show Obeys (following j) _ (match finish resp with | .error e => _ | .ok resp => _)
      (.renewed k resp)
    rw [Phase.renewed]
    cases finish resp with
    | error e => rfl
    | ok resp =>
      simp only
      cases resp.body.tokenPair with
      | none => rfl
      | some t => exact ⟨rfl, fun _ _ => ⟨rfl, fun _ _ => rfl⟩⟩

theorem following_doRequest (hlegal : (following j).legal ph (.accessToken k))
    (hnext : ∀ token, (following j).next ph (.accessToken k) token = .bearing k token) :
    (doRequest k j.method j.path j.fields true).Obeys (following j)
      (fun result ph' => Outcome (some result) ph') ph := by
  refine ⟨hlegal, fun token _ => ?_⟩
  rw [hnext]
  refine ⟨rfl, fun resp _ => ?_⟩
  show Obeys (following j) _ (if resp.map ApiResponse.status = some 401 ∧ true = true then _ else _)
    (.first k resp)
  cases resp with
  | none => trivial
  | some resp =>
    -- Only a 401 leads to a refresh, and only once.
    by_cases hstat : resp.status = 401
    · rw [if_pos ⟨congrArg some hstat, rfl⟩, Phase.first, if_pos hstat]
      refine ⟨rfl, fun refresh _ => ?_⟩
      by_cases hempty : refresh = ""
      · subst hempty
        trivial
      · show Obeys (following j) _ (if refresh ≠ "" then _ else _)
          (if refresh = "" then .failed else .renewing k)
        rw [if_pos hempty, if_neg hempty]
        apply Obeys.bind
        refine Obeys.mono ?_ (following_refreshToken j k)
        intro result ph hph
        cases result with
        | ok t =>
          subst hph
          exact following_retry j k
        | error e =>
          subst hph
          trivial
    · rw [if_neg fun h => hstat (Option.some.inj h.1), Phase.first, if_neg hstat]
      rfl

theorem following_body : j.body.Obeys (following j) Outcome .start := by
  unfold Job.body
  cases hcl : j.client with
  | some k =>
    apply Obeys.bind
    refine following_doRequest j ?_ fun _ => rfl
    show match j.client with
      | none => _
      | some k' => _
    rw [hcl]
  | none =>
    refine ⟨?_, fun t _ => ?_⟩
    · show match j.client with
        | none => _
        | some k' => _
      rw [hcl]
    · show Obeys (following j) Outcome ((if t.access = "" then .ret none else
        ask (I := apiIface) (.create t) >>= fun k => .ret (some k)) >>= _)
        (if t.access = "" then .failed else .loaded t)
      split
      · trivial
      · refine ⟨rfl, fun k _ => ?_⟩
        have hready : (doRequest k j.method j.path j.fields true).Obeys (following j)
            (fun result ph => Outcome (some result) ph) (.ready k) :=
          following_doRequest j rfl fun _ => rfl
        show Obeys (following j) Outcome (doRequest k j.method j.path j.fields true >>=
          fun result => .ret (some result)) (.ready k)
        exact Obeys.bind hready

end

/-! ## The pool -/

/-- The requests that have been made, on one machine. -/
abbrev Requests := Tracked apiIface (Host Sessions) Job Phase (Option (Except ApiError ApiResponse))

def step (A : Authority) : Requests → Pool.Action Job Unit → Option Requests :=
  Tracked.step (handler A.serve) following .start Job.body fun _ => none

/-- The client for which a request is about to read the refresh token in `RefreshToken`. -/
def renews (p : Requests) (n : Nat) : Option Nat :=
  match p.threads[n]? with
  | some (_, .renewing k, _) => some k
  | _ => none

/-- A request is made by a client that exists.  The refresh token is read for a new pair while
    no other request is about to exchange one, and it is that of the configuration. -/
def Turn (p : Requests) : Pool.Action Job Unit → Prop
  | .spawn j => ∀ k ∈ j.client, k < p.shared.clients.length
  | .advance n _ => ∀ k ∈ renews p n, (∀ th ∈ p.threads.eraseIdx n, ¬th.2.1.Critical) ∧
    (p.shared.client k).refresh = p.shared.config.refresh

instance (p : Requests) (a : Pool.Action Job Unit) : Decidable (Turn p a) := by
  unfold Turn
  split <;> infer_instance

/-- All clients have been made from the configuration.  Its access token has expired, and its
    refresh token has not been used. -/
structure Expired (A : Authority) (h : Host Sessions) : Prop where
  clients : ∀ t ∈ h.clients, t = h.config
  access_ne_empty : h.config.access ≠ ""
  refresh_ne_empty : h.config.refresh ≠ ""
  not_live : ¬A.Live h.config.access h.server.now
  renewable : A.Renewable h.config.refresh h.server

/-! ## What one step does -/

section

variable (A : Authority) (j : Job)

/-- A pair that was issued and has not been used. -/
structure Good (h : Host Sessions) (t : Tokens) : Prop where
  live : A.Live t.access h.server.now
  renewable : A.Renewable t.refresh h.server
  access : t.access ≠ ""
  refresh : t.refresh ≠ ""

/-- The steps of a request that does not fail. -/
inductive Move : Phase → Host Sessions → Phase → Host Sessions → Prop where
  | load : ∀ {h}, Move .start h (.loaded h.config) h
  | begin : ∀ {h k}, j.client = some k → Move .start h (.bearing k (h.client k).access) h
  | create : ∀ {h t},
      Move (.loaded t) h (.ready h.clients.length) { h with clients := h.clients ++ [t] }
  | read : ∀ {h k}, Move (.ready k) h (.bearing k (h.client k).access) h
  | answered : ∀ {h : Host Sessions} {k token}, A.Live token h.server.now →
      Move (.bearing k token) h (.done (A.answer (j.request token))) h
  | refused : ∀ {h : Host Sessions} {k token}, ¬A.Live token h.server.now →
      Move (.bearing k token) h (.refused k) h
  | renew : ∀ {h k}, Move (.refused k) h (.renewing k) h
  | hold : ∀ {h k}, Move (.renewing k) h (.holding k (h.client k).refresh) h
  | grant : ∀ {h : Host Sessions} {k refresh t} {server : Sessions},
      server.now = h.server.now → Good A { h with server } t →
      Move (.holding k refresh) h (.granted k t) { h with server }
  | install : ∀ {h k t},
      Move (.granted k t) h (.installed k t) { h with clients := h.clients.set k t }
  | update : ∀ {h k t}, Move (.installed k t) h (.retry k) { h with config := t }
  | reread : ∀ {h k}, Move (.retry k) h (.retrying k (h.client k).access) h
  | finish : ∀ {h : Host Sessions} {k token}, A.Live token h.server.now →
      Move (.retrying k token) h (.done (A.answer (j.request token))) h

/-- What a request counts on. -/
def Holds (h : Host Sessions) : Phase → Prop
  | .start => ∀ k, j.client = some k → k < h.clients.length
  | .loaded t => t.refresh ≠ ""
  | .ready k | .bearing k _ | .refused k | .renewing k => k < h.clients.length
  | .holding k refresh =>
    k < h.clients.length ∧ refresh = h.config.refresh ∧ A.Renewable refresh h.server
  | .granted k t => k < h.clients.length ∧ Good A h t
  | .installed k t =>
    k < h.clients.length ∧ Good A h t ∧ A.Live (h.client k).access h.server.now
  | .retry k => k < h.clients.length ∧ A.Live (h.client k).access h.server.now
  | .retrying _ token => A.Live token h.server.now
  | .done resp => ∃ token, A.Live token h.server.now ∧ resp = A.answer (j.request token)
  | .failed => False

/-- All clients can be used, and so can the configuration. -/
structure Usable (h : Host Sessions) : Prop where
  clients : ∀ t ∈ h.clients, t.refresh ≠ ""
  access : h.config.access ≠ ""
  refresh : h.config.refresh ≠ ""

variable {A j}

theorem serve_guarded (token : String) (s : Sessions) :
    A.serve (j.request token) () s =
      (some (if A.Live token s.now then A.answer (j.request token) else ⟨401, .other⟩), s) := by
  have hguarded : ¬((j.request token).method = "POST" ∧ (j.request token).path = "/auth/refresh") :=
    j.guarded
  rw [Authority.serve, if_neg hguarded]
  show (if A.Live token s.now then _ else _) = _
  split
  · rfl
  · rfl

theorem serve_refresh {refresh : String} {t : Tokens} {s s' : Sessions}
    (hrenew : A.renew refresh s = some (t, s')) :
    A.serve (refreshRequest refresh) () s = (some ⟨200, .tokens t⟩, s') := by
  have htoken : ((refreshRequest refresh).body.bind (List.lookup "refreshToken")).getD "" =
    refresh := rfl
  rw [Authority.serve, if_pos ⟨rfl, rfl⟩, htoken, hrenew]

theorem client_mem (hk : k < h.clients.length) : h.client k ∈ h.clients := by
  rw [client, getD_eq_getElem?_getD, getElem?_eq_getElem hk]
  exact getElem_mem hk

/-- Whatever a request does next is one of these steps. -/
theorem move_of_legal {c : ApiCall} (hh : Usable h) (hph : Holds A j h ph)
    (hlegal : (following j).legal ph c) :
    Move A j ph h ((following j).next ph c (handler A.serve c () h).1)
      (handler A.serve c () h).2 := by
  cases ph with
  | start =>
    change match j.client with
      | none => c = .load
      | some k => c = .accessToken k at hlegal
    cases hcl : j.client with
    | none =>
      rw [hcl] at hlegal
      subst hlegal
      show Move A j .start h (if h.config.access = "" then .failed else .loaded h.config) h
      rw [if_neg hh.access]
      exact .load
    | some k =>
      rw [hcl] at hlegal
      subst hlegal
      exact .begin hcl
  | loaded | ready | granted | installed | retry =>
    obtain rfl := hlegal
    constructor
  | bearing k token =>
    obtain rfl := hlegal
    show Move A j (.bearing k token) h (.first k (A.serve (j.request token) () h.server).1)
      { h with server := (A.serve (j.request token) () h.server).2 }
    rw [serve_guarded]
    by_cases hlive : A.Live token h.server.now
    · rw [if_pos hlive, Phase.first, if_neg (A.answer_status _)]
      exact .answered hlive
    · rw [if_neg hlive]
      exact .refused hlive
  | refused k =>
    obtain rfl := hlegal
    show Move A j (.refused k) h (if (h.client k).refresh = "" then .failed else .renewing k) h
    rw [if_neg (hh.clients _ (client_mem hph))]
    exact .renew
  | renewing k =>
    obtain rfl := hlegal
    show Move A j (.renewing k) h
      (if (h.client k).refresh = "" then .failed else .holding k (h.client k).refresh) h
    rw [if_neg (hh.clients _ (client_mem hph))]
    exact .hold
  | holding k refresh =>
    obtain rfl := hlegal
    obtain ⟨t, server, hrenew, hnow, hlive, hren, haccess, hrefr⟩ :=
      Authority.renew_of_renewable hph.2.2
    show Move A j (.holding k refresh) h
      (.renewed k (A.serve (refreshRequest refresh) () h.server).1)
      { h with server := (A.serve (refreshRequest refresh) () h.server).2 }
    rw [serve_refresh hrenew]
    exact .grant hnow ⟨hlive, hren, haccess, hrefr⟩
  | retrying k token =>
    obtain rfl := hlegal
    show Move A j (.retrying k token) h (.second (A.serve (j.request token) () h.server).1)
      { h with server := (A.serve (j.request token) () h.server).2 }
    have hlive : A.Live token h.server.now := hph
    rw [serve_guarded, if_pos hlive]
    exact .finish hlive
  | done | failed => exact hlegal.elim

theorem client_set (hk : k < h.clients.length) (t : Tokens) :
    client { h with clients := h.clients.set k t } k = t := by
  simp [client, getD_eq_getElem?_getD, hk]

variable {ph' : Phase} {h' : Host Sessions}

/-- No client disappears, and none gets worse.  Outside of the critical section neither the
    configuration nor the control plane changes. -/
theorem move_frame (hmove : Move A j ph h ph' h') (hph : Holds A j h ph) :
    h.clients.length ≤ h'.clients.length ∧ h'.server.now = h.server.now ∧
      (∀ k, k < h.clients.length → A.Live (h.client k).access h.server.now →
        A.Live (h'.client k).access h.server.now) ∧
      (¬ph.Critical → h'.config = h.config ∧ h'.server = h.server) := by
  cases hmove with
  | load | begin | read | answered | refused | renew | hold | reread | finish =>
    exact ⟨Nat.le_refl _, rfl, fun _ _ hlive => hlive, fun _ => ⟨rfl, rfl⟩⟩
  | @create _ t =>
    refine ⟨by simp, rfl, ?_, fun _ => ⟨rfl, rfl⟩⟩
    intro k hk hlive
    have hsame : client { h with clients := h.clients ++ [t] } k = h.client k := by
      simp only [client, getD_eq_getElem?_getD, getElem?_append_left hk]
    rw [hsame]
    exact hlive
  | grant hnow =>
    exact ⟨Nat.le_refl _, hnow, fun _ _ hlive => hlive, fun hout => (hout trivial).elim⟩
  | @install _ k' t =>
    refine ⟨by simp, rfl, ?_, fun hout => (hout trivial).elim⟩
    intro k hk hlive
    by_cases heq : k' = k
    · subst heq
      rw [client_set hk]
      exact hph.2.live
    · have hsame : client { h with clients := h.clients.set k' t } k = h.client k := by
        simp only [client, getD_eq_getElem?_getD, getElem?_set_ne heq]
      rw [hsame]
      exact hlive
  | update => exact ⟨Nat.le_refl _, rfl, fun _ _ hlive => hlive, fun hout => (hout trivial).elim⟩

theorem Good.frame {t : Tokens} (hgood : Good A h t) (hsrv : h'.server = h.server) : Good A h' t :=
  ⟨hsrv ▸ hgood.live, hsrv ▸ hgood.renewable, hgood.access, hgood.refresh⟩

/-- What a request counts on is not touched by another one, unless both are in the critical
    section. -/
theorem Holds.frame {x : Phase} {j' : Job} (hmove : Move A j ph h ph' h') (hph : Holds A j h ph)
    (hx : Holds A j' h x) (halone : ph.Critical → ¬x.Critical) : Holds A j' h' x := by
  obtain ⟨hlen, hnow, hcl, hsame⟩ := move_frame hmove hph
  have hcrit : x.Critical → h'.config = h.config ∧ h'.server = h.server :=
    fun hx => hsame fun hph => halone hph hx
  cases x with
  | start => exact fun k hk => Nat.lt_of_lt_of_le (hx k hk) hlen
  | loaded t => exact hx
  | ready k | bearing k token | refused k | renewing k => exact Nat.lt_of_lt_of_le hx hlen
  | holding k refresh =>
    obtain ⟨hk, hrefr, hren⟩ := hx
    obtain ⟨hcfg, hsrv⟩ := hcrit trivial
    exact ⟨Nat.lt_of_lt_of_le hk hlen, hcfg ▸ hrefr, hsrv ▸ hren⟩
  | granted k t =>
    exact ⟨Nat.lt_of_lt_of_le hx.1 hlen, hx.2.frame (hcrit trivial).2⟩
  | installed k t =>
    obtain ⟨hk, hgood, hlive⟩ := hx
    refine ⟨Nat.lt_of_lt_of_le hk hlen, hgood.frame (hcrit trivial).2, ?_⟩
    rw [hnow]
    exact hcl k hk hlive
  | retry k =>
    refine ⟨Nat.lt_of_lt_of_le hx.1 hlen, ?_⟩
    rw [hnow]
    exact hcl k hx.1 hx.2
  | retrying k token =>
    show A.Live token h'.server.now
    rw [hnow]
    exact hx
  | done resp =>
    show ∃ token, A.Live token h'.server.now ∧ _
    rw [hnow]
    exact hx
  | failed => exact hx

section

variable (hmove : Move A j ph h ph' h') (hh : Usable h) (hph : Holds A j h ph)
include hmove hh hph

/-- A request may count on the same after its own step, if it has read the refresh token that
    is in the configuration. -/
theorem Holds.move (hturn : ∀ k, ph = .renewing k →
      (h.client k).refresh = h.config.refresh ∧ A.Renewable h.config.refresh h.server) :
    Holds A j h' ph' := by
  cases hmove with
  | load => exact hh.refresh
  | begin hk => exact hph _ hk
  | create => simp [Holds]
  | read | refused hdead | renew => exact hph
  | answered hlive | finish hlive => exact ⟨_, hlive, rfl⟩
  | @hold _ k =>
    obtain ⟨hsame, hren⟩ := hturn k rfl
    exact ⟨hph, hsame, hsame ▸ hren⟩
  | grant hnow hgood => exact ⟨hph.1, hgood⟩
  | @install _ k t =>
    obtain ⟨hk, hgood⟩ := hph
    refine ⟨by simpa using hk, hgood.frame rfl, ?_⟩
    rw [client_set hk]
    exact hgood.live
  | update => exact ⟨hph.1, hph.2.2⟩
  | reread => exact hph.2

theorem Usable.move : Usable h' := by
  cases hmove with
  | load | begin | read | answered | refused | renew | hold | reread | finish =>
    exact hh
  | create =>
    refine ⟨?_, hh.access, hh.refresh⟩
    exact forall_mem_append.mpr ⟨hh.clients, forall_mem_singleton.mpr hph⟩
  | grant => exact ⟨hh.clients, hh.access, hh.refresh⟩
  | install =>
    exact ⟨forall_mem_set hh.clients hph.2.refresh, hh.access, hh.refresh⟩
  | update => exact ⟨hh.clients, hph.2.1.access, hph.2.1.refresh⟩

end

end

/-! ## What is left in the configuration -/

/-- The old pair has been exchanged, and the new one is not yet in the configuration. -/
def Phase.Spent : Phase → Prop
  | .granted _ _ | .installed _ _ => True
  | _ => False

theorem Phase.Spent.critical (h : ph.Spent) : ph.Critical := by
  cases ph with
  | granted k t | installed k t => trivial
  | _ => exact h.elim

section

variable (A : Authority)

/-- The request has seen an access token that is good. -/
def Seen (now : Nat) : Phase → Prop
  | .loaded t => A.Live t.access now
  | .bearing _ token => A.Live token now
  | .retry _ | .retrying _ _ | .done _ => True
  | _ => False

/-- There has been a new pair. -/
def Renewed (p : Requests) : Prop :=
  (∃ t ∈ p.shared.clients, A.Live t.access p.shared.server.now) ∨
    ∃ th ∈ p.threads, Seen A p.shared.server.now th.2.1

/-- The configuration holds the newest pair, unless that is on its way. -/
def Kept (p : Requests) : Prop :=
  (∃ th ∈ p.threads, th.2.1.Spent) ∨
    A.Renewable p.shared.config.refresh p.shared.server ∧
      (Renewed A p → A.Live p.shared.config.access p.shared.server.now)

variable {A} {p : Requests} {n : Nat} {j : Job} {ph' : Phase}
  {f f' : ApiM (Option (Except ApiError ApiResponse))} {h' : Host Sessions}

theorem kept_quiet (hn : p.threads[n]? = some (j, ph, f)) (hspent : ¬ph.Spent)
    (hcfg : h'.config = p.shared.config) (hsrv : h'.server = p.shared.server)
    (hclients : ∀ t ∈ h'.clients, A.Live t.access p.shared.server.now → Renewed A p)
    (hseen : Seen A p.shared.server.now ph' →
      Renewed A p ∨ A.Live p.shared.config.access p.shared.server.now)
    (hkept : Kept A p) : Kept A ⟨h', p.threads.set n (j, ph', f')⟩ := by
  rcases hkept with ⟨th, hth, hphase⟩ | ⟨hren, hlive⟩
  · -- The one that has a new pair is another one.
    obtain ⟨m, hm⟩ := getElem?_of_mem hth
    have hne : n ≠ m := by
      rintro rfl
      cases hn.symm.trans hm
      exact hspent hphase
    refine .inl ⟨th, mem_of_getElem? (i := m) ?_, hphase⟩
    rw [getElem?_set_ne hne, hm]
  · unfold Kept Renewed
    simp only [hcfg, hsrv]
    refine .inr ⟨hren, fun hrenewed => ?_⟩
    · rcases hrenewed with ⟨t, ht, htlive⟩ | ⟨th, hth, hthseen⟩
      · exact hlive (hclients t ht htlive)
      · rcases mem_or_eq_of_mem_set hth with hold | rfl
        · exact hlive (.inr ⟨th, hold, hthseen⟩)
        · exact (hseen hthseen).elim hlive id

theorem kept_spawn (hkept : Kept A p) :
    Kept A { p with threads := p.threads ++ [(j, .start, f)] } := by
  rcases hkept with ⟨th, hth, hspent⟩ | ⟨hren, hlive⟩
  · exact .inl ⟨th, mem_append_left _ hth, hspent⟩
  · refine .inr ⟨hren, fun hrenewed => hlive ?_⟩
    rcases hrenewed with hclients | ⟨th, hth, hseen⟩
    · exact .inl hclients
    · rcases mem_append.mp hth with hold | hnew
      · exact .inr ⟨th, hold, hseen⟩
      · obtain rfl := mem_singleton.mp hnew
        exact hseen.elim

theorem kept_move (hn : p.threads[n]? = some (j, ph, f)) (hmove : Move A j ph p.shared ph' h')
    (hph : Holds A j p.shared ph) (hkept : Kept A p) :
    Kept A ⟨h', p.threads.set n (j, ph', f')⟩ := by
  have hmem := mem_of_getElem? hn
  have hlen := (List.getElem?_eq_some_iff.mp hn).1
  have hsame : ∀ t ∈ p.shared.clients, A.Live t.access p.shared.server.now → Renewed A p :=
    fun t ht hlive => .inl ⟨t, ht, hlive⟩
  cases hmove with
  | load => exact kept_quiet hn id rfl rfl hsame .inr hkept
  | @begin _ k hk =>
    exact kept_quiet hn id rfl rfl hsame (fun hlive => .inl (hsame _ (client_mem (hph k hk)) hlive))
      hkept
  | @read _ k =>
    exact kept_quiet hn id rfl rfl hsame (fun hlive => .inl (hsame _ (client_mem hph) hlive)) hkept
  | create =>
    refine kept_quiet hn id rfl rfl ?_ False.elim hkept
    intro t ht hlive
    rcases mem_append.mp ht with hold | hnew
    · exact hsame t hold hlive
    · obtain rfl := mem_singleton.mp hnew
      exact .inr ⟨_, hmem, hlive⟩
  | answered hlive =>
    exact kept_quiet hn id rfl rfl hsame (fun _ => .inl (.inr ⟨_, hmem, hlive⟩)) hkept
  | refused hdead | renew | hold => exact kept_quiet hn id rfl rfl hsame False.elim hkept
  | reread | finish hlive =>
    exact kept_quiet hn id rfl rfl hsame (fun _ => .inl (.inr ⟨_, hmem, trivial⟩)) hkept
  -- From the grant to the update this thread holds the new pair.
  | grant | install => exact .inl ⟨_, mem_set hlen _, trivial⟩
  | update => exact .inr ⟨hph.2.1.renewable, fun _ => hph.2.1.live⟩

end

/-! ## Whole runs -/

/-- What holds as long as requests take turns. -/
structure Invariant (A : Authority) (p : Requests) : Prop where
  conforming : p.Conforming following fun _ => Outcome
  usable : Usable p.shared
  holds : ∀ th ∈ p.threads, Holds A th.1 p.shared th.2.1
  alone : p.AtMostOne fun th => th.2.1.Critical
  kept : Kept A p

section

variable {A : Authority} {p p' : Requests} {a : Pool.Action Job Unit} {j : Job} {n : Nat}

theorem Invariant.move (hp : Invariant A p) {c : ApiCall}
    {f : apiIface.Ans c → ApiM (Option (Except ApiError ApiResponse))}
    (hn : p.threads[n]? = some (j, ph, .call c f)) :
    Move A j ph p.shared ((following j).next ph c (handler A.serve c () p.shared).1)
      (handler A.serve c () p.shared).2 := by
  have hmem := mem_of_getElem? hn
  exact move_of_legal hp.usable (hp.holds _ hmem) (hp.conforming _ hmem).1

theorem turn_renewing (hturn : Turn p (.advance n ()))
    {f : ApiM (Option (Except ApiError ApiResponse))}
    (hn : p.threads[n]? = some (j, .renewing k, f)) :
    (∀ m th, m ≠ n → p.threads[m]? = some th → ¬th.2.1.Critical) ∧
      (p.shared.client k).refresh = p.shared.config.refresh := by
  have hrenews : k ∈ renews p n := by
    rw [renews, hn]
    rfl
  obtain ⟨halone, hsame⟩ := hturn k hrenews
  refine ⟨fun m th hmn hm => halone th ?_, hsame⟩
  exact mem_eraseIdx_iff_getElem?.mpr ⟨m, hmn, hm⟩

theorem Invariant.renewable (hp : Invariant A p) (hturn : Turn p (.advance n ()))
    {f : ApiM (Option (Except ApiError ApiResponse))}
    (hn : p.threads[n]? = some (j, .renewing k, f)) :
    (p.shared.client k).refresh = p.shared.config.refresh ∧
      A.Renewable p.shared.config.refresh p.shared.server := by
  obtain ⟨halone, hsame⟩ := turn_renewing hturn hn
  refine ⟨hsame, ?_⟩
  rcases hp.kept with ⟨th, hth, hspent⟩ | ⟨hren, -⟩
  · obtain ⟨m, hm⟩ := getElem?_of_mem hth
    have hne : m ≠ n := by
      rintro rfl
      cases hn.symm.trans hm
      exact hspent
    exact absurd hspent.critical (halone m th hne hm)
  · exact hren

section

variable (hp : Invariant A p) (hturn : Turn p a) (hstep : step A p a = some p')
include hp hturn hstep

theorem Invariant.alone_step : p'.AtMostOne fun th => th.2.1.Critical := by
  refine hp.alone.step hstep (fun _ _ hstart => hstart.elim) ?_
  rintro n _ j ph c f rfl hn hcrit
  have hmove := hp.move hn
  generalize (following j).next ph c _ = ph', (handler A.serve c () p.shared).2 = h' at hmove hcrit
  cases hmove with
  | hold => exact .inr (turn_renewing hturn hn).1
  | grant | install => exact .inl trivial
  | _ => exact hcrit.elim

theorem Invariant.holds_step : ∀ th ∈ p'.threads, Holds A th.1 p'.shared th.2.1 := by
  refine Tracked.forall_threads_step (A := fun th h => Holds A th.1 h th.2.1) hstep hp.holds
    ?_ ?_ ?_
  · rintro j rfl
    exact hturn
  · rintro n _ j ph c f rfl hn
    refine Holds.move (hp.move hn) hp.usable (hp.holds _ (mem_of_getElem? hn)) ?_
    rintro k rfl
    exact hp.renewable hturn hn
  · intro n _ j ph c f _ hn m th hmn hm hth
    refine Holds.frame (hp.move hn) (hp.holds _ (mem_of_getElem? hn)) hth ?_
    intro hph hx
    exact hmn (hp.alone m n th _ hm hn hx hph)

theorem Invariant.step : Invariant A p' := by
  have hconf : p'.Conforming following fun _ => Outcome :=
    hp.conforming.step following_body (fun _ _ _ => trivial) hstep
  have hholds := hp.holds_step hturn hstep
  have halone := hp.alone_step hturn hstep
  rcases Tracked.step_cases_unforked hstep with ⟨j, -, rfl⟩ | ⟨n, _, j, ph, c, f, -, hn, rfl⟩
  · exact ⟨hconf, hp.usable, hholds, halone, kept_spawn hp.kept⟩
  · have hph := hp.holds _ (mem_of_getElem? hn)
    exact ⟨hconf, hp.usable.move (hp.move hn) hph, hholds, halone,
      kept_move hn (hp.move hn) hph hp.kept⟩

end

theorem Expired.invariant (hh : Expired A h) : Invariant A ⟨h, []⟩ where
  conforming th hth := by cases hth
  usable := by
    refine ⟨?_, hh.access_ne_empty, hh.refresh_ne_empty⟩
    intro t ht
    rw [hh.clients t ht]
    exact hh.refresh_ne_empty
  holds th hth := by cases hth
  alone m _ _ _ hm := by cases hm
  kept := by
    refine .inr ⟨hh.renewable, ?_⟩
    rintro (⟨t, ht, hlive⟩ | ⟨th, hth, -⟩)
    · rw [hh.clients t ht] at hlive
      exact absurd hlive hh.not_live
    · cases hth

theorem Invariant.answered (hp : Invariant A p) {result : Option (Except ApiError ApiResponse)}
    (hth : (j, ph, .ret result) ∈ p.threads) :
    ∃ token, A.Live token p.shared.server.now ∧ ph = .done (A.answer (j.request token)) ∧
      result = some (finish (some (A.answer (j.request token)))) := by
  have hout : Outcome result ph := hp.conforming _ hth
  have hholds : Holds A j p.shared ph := hp.holds _ hth
  cases ph with
  | done resp =>
    obtain ⟨token, hlive, rfl⟩ := hholds
    exact ⟨token, hlive, rfl, hout⟩
  | failed => exact hholds.elim
  | _ => exact hout.elim

end

/-! ## Two requests with one refresh token -/

/-- A machine with one client, a quarter of an hour after it has signed in. -/
def plainHost : Host Sessions :=
  ⟨plainAuthority.pair 0 0, [plainAuthority.pair 0 0], ⟨900, [⟨refreshTTL, false⟩]⟩⟩

def listNetworks : Job := ⟨some 0, "GET", "/networks", none, by decide⟩

end NexusVPN.Client.Refreshing
