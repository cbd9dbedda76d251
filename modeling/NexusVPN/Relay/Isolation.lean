import NexusVPN.Relay.Server
import NexusVPN.Relay.SessionSpec

/-! # Authentication and network isolation

    The relay forwards a packet only between two addresses that both
    authenticated, with unexpired tokens, for the same network. -/

namespace NexusVPN.Relay

open Machine ServerState

variable {Addr : Type}

/-! ## Accepted BIND frames -/

/-- The event is a `Bind` of device `d` in network `n` that succeeded. -/
def isBindOf (n : String) (d : UUID) : Event Addr → Bool
  | ⟨_, .bind n' d' _ _, _, .ok _⟩ => decide (n' = n ∧ d' = d)
  | _ => false

/-- The most recent accepted BIND for `(n, d)`. -/
def lastBind (log : List (Event Addr)) (n : String) (d : UUID) : Option (Event Addr) :=
  log.find? (isBindOf n d)

/-- The most recent accepted BIND for `(n, d)` asked for address `a` and expiry `x`. -/
def BoundAs (log : List (Event Addr)) (n : String) (d : UUID) (a : Addr) (x : Time) : Prop :=
  ∃ ev, lastBind log n d = some ev ∧ ev.call = .bind n d a x

variable {d : UUID} {a src : Addr} {x : Time} {frame : Bytes} {n : String} {e : Event Addr}
  {verify : Verify} {log : List (Event Addr)}

theorem BoundAs.cons (h : BoundAs log n d a x) (he : isBindOf n d e = false) :
    BoundAs (e :: log) n d a x := by
  obtain ⟨ev, hlast, hcall⟩ := h
  refine ⟨ev, ?_, hcall⟩
  rw [lastBind, List.find?_cons, he]
  exact hlast

theorem BoundAs.unique {a' : Addr} {x' : Time} (h : BoundAs log n d a x)
    (h' : BoundAs log n d a' x') : a = a' ∧ x = x' := by
  obtain ⟨ev, hlast, hcall⟩ := h
  obtain ⟨ev', hlast', hcall'⟩ := h'
  rw [Option.some.inj (hlast.symm.trans hlast'), hcall'] at hcall
  cases hcall
  exact ⟨rfl, rfl⟩

/-! ## What the reader asks for -/

/-- The calls that the handling of `frame` from `src` may make, given the log.
    A BIND is attempted only with verified claims that name the device in the
    frame; a DATA frame leaves only for an address that the `Route` just before
    answered, on behalf of the device that the `Lookup` before that answered. -/
def Allowed (verify : Verify) (src : Addr) (frame : Bytes)
    (log : List (Event Addr)) : RelayCall Addr → Prop
  | .bind n d a x =>
    a = src ∧ ∃ tok claims, decodeBind frame = .ok (d, tok) ∧ verify tok = some claims ∧
      claims.deviceID = d.string ∧ claims.networkID = n ∧ claims.expiresAt = x
  | .lookup a => a = src
  | .writeToUDP out dest =>
    out.head? = some frameData →
      ∃ n senderID peerID payload i i' older,
        decodeData frame = .ok (peerID, payload) ∧ out = rewriteDataPeer frame senderID ∧
        log = ⟨(src, frame), .route n senderID peerID, i, some dest⟩ ::
          ⟨(src, frame), .lookup src, i', some ⟨n, senderID⟩⟩ :: older
  | _ => True

theorem recordDropped_conforms (log : List (Event Addr)) :
    Prog.Conforms (src, frame) (Allowed verify src frame) recordDropped log :=
  ⟨trivial, fun _ _ => trivial⟩

theorem reply_conforms {out : Bytes} (hout : out.head? ≠ some frameData) (log : List (Event Addr)) :
    Prog.Conforms (src, frame) (Allowed verify src frame) (reply src out) log :=
  ⟨fun h => absurd h hout, fun _ _ => trivial⟩

theorem refuse_conforms (reason : String) (log : List (Event Addr)) :
    Prog.Conforms (src, frame) (Allowed verify src frame)
      (do recordDropped; reply src (encodeError reason)) log :=
  ⟨trivial, fun _ _ => reply_conforms (by simp [encodeError, frameError, frameData]) _⟩

theorem handleBind_conforms (verify : Verify) (frame : Bytes) (src : Addr)
    (log : List (Event Addr)) :
    Prog.Conforms (src, frame) (Allowed verify src frame) (handleBind verify frame src) log := by
  unfold handleBind
  split
  · -- The frame does not decode.
    exact recordDropped_conforms log
  · next d tok hdec =>
    split
    · -- The token does not verify.
      exact refuse_conforms _ log
    · next claims hver =>
      split
      · -- The token is another device's.
        exact refuse_conforms _ log
      · next hdev =>
        refine ⟨⟨rfl, tok, claims, hdec, hver, not_not.mp hdev, rfl, rfl⟩, ?_⟩
        intro i answer
        cases answer with
        | error err => exact refuse_conforms _ _
        | ok _ => exact reply_conforms (by simp [encodeBindAck, frameBindAck, frameData]) _

theorem handleData_conforms (verify : Verify) (frame : Bytes) (src : Addr)
    (log : List (Event Addr)) :
    Prog.Conforms (src, frame) (Allowed verify src frame) (handleData frame src) log := by
  refine ⟨rfl, ?_⟩
  intro i found
  cases found with
  | none =>
    -- The sender has to bind first.
    exact refuse_conforms _ _
  | some ab =>
    obtain ⟨n, senderID⟩ := ab
    split
    · exact recordDropped_conforms _
    · next peerID payload hdec =>
      refine ⟨trivial, ?_⟩
      intro i' routed
      cases routed with
      | none => exact recordDropped_conforms _
      | some dest =>
        -- The two newest log entries are the `Route` and the `Lookup` above.
        refine ⟨fun _ => ⟨n, senderID, peerID, payload, i', i, log, hdec, rfl, rfl⟩, ?_⟩
        intro i'' sent
        cases sent with
        | false => exact recordDropped_conforms _
        | true => exact ⟨trivial, fun _ _ => trivial⟩

/-- Whatever the table answers, a packet leads only to calls that are allowed. -/
theorem handlePacket_conforms (verify : Verify) (frame : Bytes) (src : Addr)
    (log : List (Event Addr)) :
    Prog.Conforms (src, frame) (Allowed verify src frame) (handlePacket verify frame src) log := by
  unfold handlePacket
  split
  · exact handleBind_conforms verify frame src log
  · split
    · exact handleData_conforms verify frame src log
    · split
      · -- A keepalive looks its sender up, and touches what it finds.
        refine ⟨rfl, ?_⟩
        intro i found
        cases found with
        | none => exact recordDropped_conforms _
        | some ab => exact ⟨trivial, fun _ _ => trivial⟩
      · exact recordDropped_conforms log

/-! ## What the table answers -/

/-- An address or a destination is answered only on the strength of the most
    recent accepted BIND frames of the devices involved. -/
def Answered (older : List (Event Addr)) : Event Addr → Prop
  | ⟨_, .lookup a, _, some ⟨n, d⟩⟩ => ∃ x, BoundAs older n d a x
  | ⟨_, .route n senderID peerID, i, some dest⟩ =>
    ∃ a x x', BoundAs older n senderID a x ∧ lapsed x i.now = false ∧
      BoundAs older n peerID dest x' ∧ lapsed x' i.now = false
  | _ => True

/-- The table agrees with the log: whatever is bound was bound by the most recent
    accepted BIND, and whatever is indexed is bound. -/
structure Recorded [DecidableEq Addr] (log : List (Event Addr)) (t : SessionTable Addr) :
    Prop where
  bound : ∀ {n d a x}, t.holds n d = some (a, x) → BoundAs log n d a x
  indexed : t.Indexed

section

open SessionTable

variable [DecidableEq Addr] {t t' : SessionTable Addr}

section

variable (h : Recorded log t)
include h

theorem Recorded.lookup_boundAs (hl : t.lookup a = some ⟨n, d⟩) : ∃ x, BoundAs log n d a x := by
  obtain ⟨x, hx⟩ := h.indexed a _ hl
  exact ⟨x, h.bound hx⟩

theorem Recorded.removes {D : String → UUID → Prop} (hrem : Removes D t t') : Recorded log t' where
  bound hb := h.bound ((hrem.holds _ _ _).mp hb).1
  indexed := h.indexed.removes hrem

theorem Recorded.cons (he : ∀ n d, isBindOf n d e = false) : Recorded (e :: log) t where
  bound hb := (h.bound hb).cons (he _ _)
  indexed := h.indexed

theorem Recorded.attach {s : Session Addr}
    (hs : ∀ d', s.bindings.get d' = t.bindingOf s.networkID d') (now : Time) (d : UUID) (a : Addr)
    (x : Time) (hcall : e.call = .bind s.networkID d a x)
    (hok : ∀ n' d', isBindOf n' d' e = decide (s.networkID = n' ∧ d = d')) :
    Recorded (e :: log) (t.attach s now d a x) := by
  refine ⟨?_, h.indexed.attach hs now d a x⟩
  intro n' d' a' x' hb
  rw [holds_attach hs] at hb
  split at hb
  · next hkey =>
    -- The device that has just bound: this event is its most recent BIND.
    obtain ⟨rfl, rfl⟩ := hkey
    cases hb
    exact ⟨e, by simp [lastBind, hok], hcall⟩
  · next hkey =>
    refine (h.bound hb).cons ?_
    rw [hok]
    exact decide_eq_false fun ⟨hn, hd⟩ => hkey ⟨hn.symm, hd.symm⟩

theorem Recorded.call (tag : Addr × Bytes) (c : RelayCall Addr)
    (i : RelayInput) :
    Recorded (⟨tag, c, i, (relayHandler c i t).1⟩ :: log) (relayHandler c i t).2 ∧
      Answered log ⟨tag, c, i, (relayHandler c i t).1⟩ := by
  cases c with
  | bind n d a x =>
    refine ⟨?_, trivial⟩
    rcases bind_cases t i.now n d a x with ⟨-, hbind⟩ | ⟨s, rfl, hs, hbind⟩
    · simp only [relayHandler, hbind]
      exact h.cons fun _ _ => rfl
    · simp only [relayHandler, hbind]
      exact h.attach hs i.now d a x rfl fun _ _ => rfl
  | lookup a =>
    refine ⟨h.cons fun _ _ => rfl, ?_⟩
    show Answered log ⟨tag, .lookup a, i, t.lookup a⟩
    cases hl : t.lookup a with
    | none => trivial
    | some ab => exact h.lookup_boundAs hl
  | route n senderID peerID =>
    obtain ⟨hrem, hsome⟩ := route_spec t i.now n senderID peerID
    refine ⟨(h.removes hrem).cons fun _ _ => rfl, ?_⟩
    show Answered log ⟨tag, .route n senderID peerID, i, (t.route i.now n senderID peerID).1⟩
    cases hdest : (t.route i.now n senderID peerID).1 with
    | none => trivial
    | some dest =>
      -- Both ends have bindings, and each of them was made by an earlier event.
      obtain ⟨a, x, x', hs, hx, hp, hx'⟩ := hsome dest hdest
      exact ⟨a, x, x', h.bound hs, hx, h.bound hp, hx'⟩
  | touch n d =>
    exact ⟨(h.removes (touch_sameViews t i.now n d)).cons fun _ _ => rfl, trivial⟩
  | recordRelayed k =>
    exact ⟨(h.removes (recordRelayed_sameViews t k)).cons fun _ _ => rfl, trivial⟩
  | recordDropped =>
    exact ⟨(h.removes (recordDropped_sameViews t)).cons fun _ _ => rfl, trivial⟩
  | writeToUDP out dest => exact ⟨h.cons fun _ _ => rfl, trivial⟩

end

end

/-! ## Whole runs -/

/-- Every event was allowed, and answered as it was, on the strength of the
    events before it. -/
def Justified (verify : Verify) : List (Event Addr) → Prop
  | [] => True
  | e :: older =>
    Allowed verify e.tag.1 e.tag.2 older e.call ∧ Answered older e ∧ Justified verify older

theorem Justified.of_append {newer : List (Event Addr)} (h : Justified verify (newer ++ log)) :
    Justified verify log := by
  induction newer with
  | nil => exact h
  | cons e newer ih => exact ih h.2.2

theorem Justified.allowed_of_mem (h : Justified verify log) (he : e ∈ log) :
    ∃ older, Allowed verify e.tag.1 e.tag.2 older e.call := by
  obtain ⟨newer, older, rfl⟩ := List.append_of_mem he
  exact ⟨older, h.of_append.1⟩

variable [DecidableEq Addr]

/-- The invariant of the node. -/
structure ServerState.Inv (verify : Verify) (s : ServerState Addr) : Prop where
  recorded : Recorded s.log s.table
  justified : Justified verify s.log
  conforms : ∀ job, s.job = some job →
    Prog.Conforms (job.src, job.frame) (Allowed verify job.src job.frame) job.rest s.log

theorem ServerState.inv_init (verify : Verify) (idleTimeout maxSessions : Int) :
    (init idleTimeout maxSessions : ServerState Addr).Inv verify := by
  refine ⟨⟨?_, ?_⟩, trivial, ?_⟩
  · intro n d a x hb
    cases hb
  · intro a ab hl
    cases hl
  · intro job hjob
    cases hjob

theorem ServerState.inv_step {s s' : ServerState Addr} {act : ServerAction Addr} (h : s.Inv verify)
    (hstep : s.step verify act = some s') : s'.Inv verify := by
  cases act with
  | recv src datagram =>
    simp only [step] at hstep
    split at hstep
    · cases hstep
    · split at hstep
      · cases hstep
        exact h
      · -- A fresh handler: it conforms whatever the log is.
        cases hstep
        refine ⟨h.recorded, h.justified, ?_⟩
        intro job hjob
        cases hjob
        exact handlePacket_conforms verify _ src s.log
  | reader i =>
    simp only [step] at hstep
    split at hstep
    · cases hstep
    · cases hstep
      refine ⟨h.recorded, h.justified, ?_⟩
      intro job hjob
      cases hjob
    · next src frame c k hjob =>
      cases hstep
      -- The call is allowed by the log, and the table answers it accordingly.
      obtain ⟨hallow, hrest⟩ := h.conforms _ hjob
      obtain ⟨hrec, hans⟩ := h.recorded.call (src, frame) c i
      refine ⟨hrec, ⟨hallow, hans, h.justified⟩, ?_⟩
      intro job hjob'
      cases hjob'
      exact hrest i _
  | janitor now nets devs =>
    -- A sweep logs nothing, so the handler in progress is not affected.
    cases hstep
    exact ⟨h.recorded.removes (SessionTable.evictIdle_removes s.table now nets devs),
      h.justified, h.conforms⟩

theorem ServerState.inv_of_reachable {idleTimeout maxSessions : Int} {s : ServerState Addr}
    (h : Reachable (step verify) (.init idleTimeout maxSessions) s) :
    s.Inv verify :=
  h.invariant (inv_init verify idleTimeout maxSessions) fun _ _ _ => inv_step

/-- `ev` handles a BIND frame for device `d` that came from `src` with a token
    verified as `claims`, which name that device and network `n`. -/
structure AcceptedBind (verify : Verify) (ev : Event Addr) (src : Addr)
    (n : String) (d : UUID) (claims : Claims) : Prop where
  source : ev.tag.1 = src
  frame : ∃ tok, ev.tag.2 = encodeBind d tok ∧ verify tok = some claims
  device : claims.deviceID = d.string
  network : claims.networkID = n

omit [DecidableEq Addr] in
theorem BoundAs.acceptedBind (hb : BoundAs log n d a x) (h : Justified verify log) :
    ∃ ev claims, lastBind log n d = some ev ∧ AcceptedBind verify ev a n d claims ∧
      claims.expiresAt = x := by
  obtain ⟨ev, hlast, hcall⟩ := hb
  obtain ⟨older, hallow⟩ := h.allowed_of_mem (List.mem_of_find?_eq_some hlast)
  rw [hcall] at hallow
  obtain ⟨hsrc, tok, claims, hdec, hver, hdev, hnet, hexp⟩ := hallow
  exact ⟨ev, claims, hlast, ⟨hsrc.symm, ⟨tok, decodeBind_ok_iff.mp hdec, hver⟩, hdev, hnet⟩, hexp⟩

/-- The expiry of a token does not lie before `now`.  The zero time stands for a
    token without expiry. -/
theorem expiry_of_not_lapsed {claims : Claims} {now : Time}
    (h : lapsed claims.expiresAt now = false) {e : Time} (he : claims.exp = some e) :
    e.isZero = true ∨ now ≤ e := by
  rw [Claims.expiresAt, he, Option.getD_some, lapsed, Bool.and_eq_false_iff] at h
  rcases h with hzero | hafter
  · exact Or.inl (by simpa using hzero)
  · exact Or.inr (by simpa [Time.after] using hafter)

/-- What authentication and isolation ask of a write `w` that sends the DATA frame
    `out` to `dest`, where `older` are the calls before it.

    Just before `w` the same packet made a `Route` call `r`.  The packet came from
    the origin of the most recent accepted BIND `bs` for the device stamped in
    `out`; `dest` is the origin of the most recent accepted BIND `bd` for the
    device that the packet addressed; both were verified for network `n`, and
    neither had expired at the clock reading of `r`.  The frame sent is the packet
    with bytes 1 to 16 replaced by the sender's UUID. -/
def BetweenAuthenticatedPeers (verify : Verify) (older : List (Event Addr))
    (w : Event Addr) (out : Bytes) (dest : Addr) : Prop :=
  ∃ (r : Event Addr) (rest : List (Event Addr)) (n : String) (senderID peerID : UUID)
    (payload : Bytes) (bs bd : Event Addr) (cs cd : Claims),
    older = r :: rest ∧ r.tag = w.tag ∧ r.call = .route n senderID peerID ∧
    decodeData w.tag.2 = .ok (peerID, payload) ∧
    (lastBind older n senderID = some bs ∧ AcceptedBind verify bs w.tag.1 n senderID cs) ∧
    (lastBind older n peerID = some bd ∧ AcceptedBind verify bd dest n peerID cd) ∧
    (∀ e, cs.exp = some e → e.isZero = true ∨ r.input.now ≤ e) ∧
    (∀ e, cd.exp = some e → e.isZero = true ∨ r.input.now ≤ e) ∧
    out.length = w.tag.2.length ∧
    ∀ j, out[j]? = if 1 ≤ j ∧ j ≤ 16 then senderID.bytes[j - 1]? else w.tag.2[j]?

omit [DecidableEq Addr] in
theorem Justified.betweenAuthenticatedPeers {older : List (Event Addr)} {w : Event Addr}
    (hjust : Justified verify (w :: older)) {out : Bytes} {dest : Addr}
    (hcall : w.call = .writeToUDP out dest) (hdata : out.head? = some frameData) :
    BetweenAuthenticatedPeers verify older w out dest := by
  obtain ⟨hallow, -, hjust'⟩ := hjust
  rw [hcall] at hallow
  obtain ⟨n, senderID, peerID, payload, i, i', rest, hdec, hout, rfl⟩ := hallow hdata
  obtain ⟨a, x, x', hsend, hx, hpeer, hx'⟩ := hjust'.2.1
  obtain ⟨x'', hsrc⟩ := hjust'.2.2.2.1
  -- The `Lookup` found the packet's source bound as the sender, and no BIND was
  -- accepted between the `Lookup` and the `Route`.
  obtain ⟨rfl, rfl⟩ := hsend.unique (hsrc.cons rfl)
  have hsender' := hsend.cons (e := ⟨w.tag, .route n senderID peerID, i, some dest⟩) rfl
  have hpeer' := hpeer.cons (e := ⟨w.tag, .route n senderID peerID, i, some dest⟩) rfl
  obtain ⟨bs, cs, hbs, hacc, rfl⟩ := hsender'.acceptedBind hjust'
  obtain ⟨bd, cd, hbd, hacc', rfl⟩ := hpeer'.acceptedBind hjust'
  refine ⟨_, _, n, senderID, peerID, payload, bs, bd, cs, cd, rfl, rfl, rfl, hdec, ⟨hbs, hacc⟩,
    ⟨hbd, hacc'⟩, fun e => expiry_of_not_lapsed hx, fun e => expiry_of_not_lapsed hx', ?_, ?_⟩
  · rw [hout, decodeData_ok_iff.mp hdec, rewriteDataPeer_encodeData]
    simp [encodeData, senderID.length_eq, peerID.length_eq]
  · rw [hout]
    exact rewriteDataPeer_getElem? hdec senderID

/-- **Authentication and isolation.**  Wherever the log of a reachable node shows
    `handleData` sending a DATA frame, it does so between two peers that
    authenticated for the same network. -/
theorem forwarded_between_authenticated_peers {verify : Verify}
    {idleTimeout maxSessions : Int} {s : ServerState Addr}
    (hreach : Reachable (step verify) (.init idleTimeout maxSessions) s)
    {newer older : List (Event Addr)} {w : Event Addr} (hlog : s.log = newer ++ w :: older)
    {out : Bytes} {dest : Addr} (hcall : w.call = .writeToUDP out dest)
    (hdata : out.head? = some frameData) :
    BetweenAuthenticatedPeers verify older w out dest := by
  have hjust : Justified verify s.log := (inv_of_reachable hreach).justified
  rw [hlog] at hjust
  exact hjust.of_append.betweenAuthenticatedPeers hcall hdata

/-- Device `k` of the sample runs. -/
def sampleDevice (k : UInt8) : UUID := .ofBytes [k]

/-- In the sample runs the token of device `k` is the byte `k`; device 1's expires at
    100, the others' do not. -/
def sampleVerify : Verify
  | [k] => some ⟨(sampleDevice k).string, "relay", "net", if k = 1 then some 100 else none⟩
  | _ => none

/-- Both bind, from addresses 10 and 20; then the first sends one byte to the
    second, with a sweep between its `Lookup` and its `Route`. -/
def pairRun : List (ServerAction Nat) :=
  let call : ServerAction Nat := .reader ⟨5, true⟩
  [.recv 10 (encodeBind (sampleDevice 1) [1]), call, call, call,
   .recv 20 (encodeBind (sampleDevice 2) [2]), call, call, call,
   .recv 10 (encodeData (sampleDevice 2) [9]), call,
   .janitor 6 .asStored (fun _ => .asStored), call, call]

theorem forwarded_between_authenticated_peers_pair :
    ∃ (s : ServerState Nat) (w : Event Nat) (older : List (Event Nat)),
      Reachable (step sampleVerify) (.init 0 0) s ∧ s.log = w :: older ∧
      w.tag.1 = 10 ∧ w.call = .writeToUDP (encodeData (sampleDevice 1) [9]) 20 ∧
      BetweenAuthenticatedPeers sampleVerify older w (encodeData (sampleDevice 1) [9]) 20 := by
  obtain ⟨s, w, older, hrun, hlog, hsrc, hcall⟩ : ∃ (s : ServerState Nat) (w : Event Nat)
      (older : List (Event Nat)),
      run (step sampleVerify) (.init 0 0) pairRun = some s ∧
      s.log = [] ++ w :: older ∧ w.tag.1 = 10 ∧
      w.call = .writeToUDP (encodeData (sampleDevice 1) [9]) 20 :=
    ⟨_, _, _, rfl, rfl, rfl, rfl⟩
  exact ⟨s, w, older, ⟨pairRun, hrun⟩, hlog, hsrc, hcall,
    forwarded_between_authenticated_peers ⟨pairRun, hrun⟩ hlog hcall rfl⟩

end NexusVPN.Relay
