import HipObject.Transfer.Program

/-!
# What the success of a transfer rests on

If `hipObjGet` or `hipObjPut` returns success, then every step of the transfer
succeeded, and its trace is determined up to what the outside chose: the leased
connection, the reply, the completion, and how often each of the two loops had to
wait. `Evidence` collects these choices with what the code has checked about
them.
-/

namespace HipObject.Transfers

open HipObject Codec Verification

/-! ### The parts of a trace -/

/-- A staging copy whose event was not ready `waits` times, and then was. -/
def copyTrace (toDevice : Bool) (copy : Memcpy) (waits : Nat) : Trace :=
  [.eventCreate true, .memcpyAsync toDevice copy true, .eventRecord true] ++
    List.replicate waits (.eventQuery .notReady) ++ [.eventQuery .success]

/-- The queue pair is moved to RTR and aimed at the peer, and then moved to
RTS. -/
def connectTrace (conn : RcConnection) : Option RdmaToken → Trace
  | none => []
  | some peerToken =>
      [.verbs (.modifyQp conn.qp.id .RTR
        (some ⟨peerToken.qpNum, peerToken.gid, peerToken.lid⟩)) true,
        .verbs (.modifyQp conn.qp.id .RTS none) true]

/-- Empty polls, and then a completion. -/
def pollTrace (waits : Nat) (wc : Completion) : Trace :=
  List.replicate waits (.polled (some none)) ++ [.polled (some (some wc))]

def syncTrace (requiresDeviceSync : Bool) : Trace :=
  if requiresDeviceSync then [.deviceSynchronize true] else []

/-- The choices of the outside in a transfer that succeeds. -/
structure Evidence (device : RdmaDevice) (e : BufEntry) (size offset : BitVec 64) where
  conn : RcConnection
  token : RdmaToken
  built : buildRdmaToken device conn.qp.qpNum e size offset = some token
  names : token.qpNum = conn.qp.qpNum
  replyLen : Nat
  bounded : replyLen ≤ kReplyBufLen
  text : List Byte
  code : Int
  peer : Option RdmaToken
  grammar : ReplyGrammar text code peer
  success : code = 200 ∨ code = 204 ∨ code = 206
  reliable : ∀ peerToken, peer = some peerToken → peerToken.transport = .RC
  waits : Nat
  wc : Completion
  completed : wc.success = true

namespace Evidence

variable {device : RdmaDevice} {e : BufEntry} {size offset : BitVec 64}

/-- The transfer between the staging copies. -/
def trace (ev : Evidence device e size offset) : Trace :=
  [.acquired ev.conn, .sendRequest (encodeRdmaToken ev.token) 0,
    .recvReply 0 ev.replyLen ev.text] ++
    connectTrace ev.conn ev.peer ++ pollTrace ev.waits ev.wc ++ syncTrace e.isDmabuf ++
    [.released]

end Evidence

/-- The staging copy of a transfer, if the entry has a staging buffer. -/
def stagedTrace (e : BufEntry) (toDevice : Bool) (copy : HostBuf → Memcpy) (waits : Nat) : Trace :=
  match e.hostBuf with
  | none => []
  | some hostBuf => copyTrace toDevice (copy hostBuf) waits

/-! ### Each part succeeds -/

section Parts

variable {O : Outside} {device : RdmaDevice} {tr : Trace}

theorem observe_spec {α : Type} (answer : Trace → Option α) (event : α → TransferEvent) :
    Ensures (observe answer event) tr (fun a t => t = tr ++ [event a]) (fun _ => True) := by
  unfold Ensures observe
  cases answer tr with
  | none => trivial
  | some a => rfl

theorem waitForCopy_spec (rounds : Nat) :
    Ensures (waitForCopy O rounds) tr
      (fun r t => r = .Success → ∃ waits,
        t = tr ++ List.replicate waits (.eventQuery .notReady) ++ [.eventQuery .success])
      (fun _ => True) := by
  induction rounds generalizing tr with
  | zero =>
      refine Ensures.bind ((observe_spec _ _).mono ?_ fun _ h => h)
      rintro status t rfl
      cases status with
      | success => exact fun _ => ⟨0, by simp⟩
      | _ =>
          intro h
          cases h
  | succ rounds ih =>
      refine Ensures.bind ((observe_spec _ _).mono ?_ fun _ h => h)
      rintro status t rfl
      cases status with
      | success => exact fun _ => ⟨0, by simp⟩
      | error =>
          intro h
          cases h
      | notReady =>
          refine ih.mono ?_ fun _ h => h
          intro r t hr hsuccess
          obtain ⟨waits, rfl⟩ := hr hsuccess
          refine ⟨waits + 1, ?_⟩
          rw [List.replicate_succ]
          simp

/-- A test that ends with an error unless it is answered with success. -/
theorem guarded_spec {x : TransferM Bool} {y : TransferM OpError} {err : OpError}
    (herr : err ≠ .Success) {event : TransferEvent} {Q : Trace → Prop}
    (hx : Ensures x tr (fun ok t => ok = true → t = tr ++ [event]) fun _ => True)
    (hy : Ensures y (tr ++ [event]) (fun r t => r = .Success → Q t) fun _ => True) :
    Ensures (do if !(← x) then return err else y) tr (fun r t => r = .Success → Q t)
      fun _ => True := by
  refine Ensures.bind (hx.mono ?_ fun _ h => h)
  intro ok t ht
  cases ok with
  | false => exact fun hsuccess => absurd hsuccess herr
  | true =>
      obtain rfl := ht rfl
      exact hy

theorem stageCopyWithDeadline_spec (toDevice : Bool) (copy : Memcpy) :
    Ensures (stageCopyWithDeadline O toDevice copy) tr
      (fun r t => r = .Success → ∃ waits, t = tr ++ copyTrace toDevice copy waits)
      (fun _ => True) := by
  have hobserve : ∀ (answer : Trace → Option Bool) (event : Bool → TransferEvent) (tr : Trace),
      Ensures (observe answer event) tr (fun ok t => ok = true → t = tr ++ [event true])
        (fun _ => True) := by
    intro answer event tr
    refine (observe_spec answer event).mono ?_ fun _ h => h
    rintro ok t rfl rfl
    rfl
  unfold stageCopyWithDeadline
  refine Ensures.get_bind ?_
  cases O.reserve tr with
  | none => trivial
  | some _ =>
      refine guarded_spec (by decide) (hobserve _ _ _) ?_
      refine guarded_spec (by decide) (hobserve _ _ _) ?_
      refine guarded_spec (by decide) (hobserve _ _ _) ?_
      refine Ensures.get_bind ((waitForCopy_spec _).mono ?_ fun _ h => h)
      intro r t hr hsuccess
      obtain ⟨waits, rfl⟩ := hr hsuccess
      exact ⟨waits, by simp [copyTrace]⟩

theorem stageToDevice_spec (e : BufEntry) (devPtr size offset : BitVec 64) :
    Ensures (stageToDevice O e devPtr size offset) tr
      (fun r t => r = .Success → ∃ waits, t = tr ++ stagedTrace e true
        (HipObject.stageToDevice devPtr · size offset) waits)
      (fun _ => True) := by
  unfold stageToDevice stagedTrace
  cases e.hostBuf with
  | none => exact fun _ => ⟨0, (List.append_nil tr).symm⟩
  | some hostBuf =>
      refine Ensures.ite (fun _ h => ?_) fun _ => stageCopyWithDeadline_spec _ _
      cases h

theorem stageToHost_spec (e : BufEntry) (devPtr size offset : BitVec 64) :
    Ensures (stageToHost O e devPtr size offset) tr
      (fun r t => r = .Success → ∃ waits, t = tr ++ stagedTrace e false
        (HipObject.stageToHost devPtr · size offset) waits)
      (fun _ => True) := by
  unfold stageToHost stagedTrace
  cases e.hostBuf with
  | none => exact fun _ => ⟨0, (List.append_nil tr).symm⟩
  | some hostBuf =>
      refine Ensures.ite (fun _ h => ?_) fun _ => stageCopyWithDeadline_spec _ _
      cases h

theorem poll_spec (conn : RcConnection) :
    Ensures (poll O conn) tr (fun r t => t = tr ++ [.polled r.1]) (fun _ => True) := by
  unfold Ensures poll
  dsimp only
  cases pollCq _ with
  | ok result env => rfl
  | error e env => trivial

/-- Without an opcode to expect, a round goes on only after an empty poll and
succeeds only with a completion that did. -/
theorem roundResult_none (result : Option (Option Completion)) :
    (roundResult none result = none → result = some none) ∧
      (roundResult none result = some true →
        ∃ wc, result = some (some wc) ∧ wc.success = true) := by
  cases result with
  | none => simp [roundResult]
  | some polled =>
      cases polled with
      | none => simp [roundResult]
      | some wc => cases hsuccess : wc.success <;> simp [roundResult, hsuccess]

theorem pollRounds_spec (rounds : Nat) (conn : RcConnection) :
    Ensures (pollRounds O rounds conn) tr
      (fun r t => r = true → ∃ waits wc, wc.success = true ∧ t = tr ++ pollTrace waits wc)
      (fun _ => True) := by
  induction rounds generalizing conn tr with
  | zero =>
      intro h
      cases h
  | succ rounds ih =>
      refine Ensures.bind ((poll_spec conn).mono ?_ fun _ h => h)
      rintro ⟨result, conn⟩ t rfl
      dsimp only
      obtain ⟨hempty, hdone⟩ := roundResult_none result
      cases hround : roundResult none result with
      | some done =>
          rintro rfl
          obtain ⟨wc, rfl, hsuccess⟩ := hdone hround
          exact ⟨0, wc, hsuccess, by simp [pollTrace]⟩
      | none =>
          obtain rfl := hempty hround
          refine (ih conn).mono ?_ fun _ h => h
          intro r t hr htrue
          obtain ⟨waits, wc, hsuccess, rfl⟩ := hr htrue
          refine ⟨waits + 1, wc, hsuccess, ?_⟩
          rw [pollTrace, pollTrace, List.replicate_succ]
          simp

/-! ### The peer -/

theorem modifyQp_log (target : QpState) (dest : Option Destination) (env : Env RcConnection) :
    Ensures (modifyQp target dest) env
      (fun moved t => t.log = env.log ++ [.modifyQp env.obj.qp.id target dest] ∧
        t.obj.qp.id = env.obj.qp.id ∧
        (moved = true → ∃ value, env.answers = .success value :: t.answers))
      (fun _ => True) := by
  obtain ⟨answers, log, conn⟩ := env
  cases answers with
  | nil => exact ⟨rfl, rfl, fun h => by cases h⟩
  | cons a rest =>
      cases a with
      | success value => exact ⟨rfl, rfl, fun _ => ⟨value, rfl⟩⟩
      | failure => exact ⟨rfl, rfl, fun h => by cases h⟩
      | throws => trivial

/-- Connecting makes two calls, and both of them succeed. -/
theorem connectRcPeer_log (peerToken : RdmaToken) (answers : List Answer) (conn : RcConnection) :
    Ensures (connectRcPeer device peerToken) ⟨answers, [], conn⟩
      (fun connected t => connected = true → peerToken.transport = .RC ∧
        outcomes t.log answers = connectTrace conn (some peerToken))
      (fun _ => True) := by
  unfold connectRcPeer transitionQpToRtr transitionQpToRts
  refine Ensures.ite (fun _ h => ?_) fun htransport => ?_
  · cases h
  have htransport : peerToken.transport = .RC := not_not.mp htransport
  refine Ensures.bind (Ensures.ite (fun _ => ?_) fun _ => ?_)
  · refine (modifyQp_log .RTR _ ⟨answers, [], conn⟩).mono ?_ fun _ h => h
    rintro moved t ⟨hlog, hid, hmoved⟩
    cases moved with
    | false =>
        intro h
        cases h
    | true =>
        refine (modifyQp_log .RTS none t).mono ?_ fun _ h => h
        rintro moved' u ⟨hlog', -, hmoved'⟩ rfl
        obtain ⟨value, hanswers⟩ := hmoved rfl
        obtain ⟨value', hanswers'⟩ := hmoved' rfl
        dsimp only at hanswers
        refine ⟨htransport, ?_⟩
        rw [hlog', hlog, hanswers, hanswers', hid]
        rfl
  · intro h
    cases h

theorem onConnection_spec {α : Type} {conn : RcConnection} {x : VerbsM RcConnection α}
    {Q : α → Env RcConnection → Prop}
    (h : Ensures x ⟨O.verbs tr, [], conn⟩ Q fun _ => True) :
    Ensures (onConnection O conn x) tr
      (fun r t => ∃ env, Q r.1 env ∧ t = tr ++ outcomes env.log (O.verbs tr))
      (fun _ => True) := by
  unfold Ensures onConnection
  cases hrun : x ⟨O.verbs tr, [], conn⟩ with
  | ok a env => exact ⟨env, h.ok hrun, rfl⟩
  | error e env => trivial

theorem connectPeer_spec (conn : RcConnection) (reply : List Byte) :
    Ensures (connectPeer O device conn reply) tr
      (fun r t => r.1 = true → t = tr ++ connectTrace conn (parsePeerTokenFromReply reply) ∧
        ∀ peerToken, parsePeerTokenFromReply reply = some peerToken → peerToken.transport = .RC)
      (fun _ => True) := by
  unfold connectPeer
  cases parsePeerTokenFromReply reply with
  | none =>
      intro _
      refine ⟨(List.append_nil tr).symm, fun peerToken h => ?_⟩
      cases h
  | some peerToken =>
      refine (onConnection_spec (connectRcPeer_log peerToken _ conn)).mono ?_ fun _ h => h
      rintro r t ⟨env, hlog, rfl⟩ hconnected
      obtain ⟨htransport, houtcomes⟩ := hlog hconnected
      refine ⟨by rw [houtcomes], fun peerToken' h => ?_⟩
      cases h
      exact htransport

theorem finishTransferAfterReply_spec (conn : RcConnection) (reply : List Byte)
    (requiresDeviceSync : Bool) :
    Ensures (finishTransferAfterReply O device conn reply requiresDeviceSync) tr
      (fun r t => r = true →
        (∀ peerToken, parsePeerTokenFromReply reply = some peerToken →
          peerToken.transport = .RC) ∧
        ∃ waits wc, wc.success = true ∧
          t = tr ++ connectTrace conn (parsePeerTokenFromReply reply) ++ pollTrace waits wc ++
            syncTrace requiresDeviceSync)
      (fun _ => True) := by
  unfold finishTransferAfterReply
  refine Ensures.bind ((connectPeer_spec conn reply).mono ?_ fun _ h => h)
  rintro ⟨connected, conn'⟩ t hconnected
  cases connected with
  | false =>
      intro h
      cases h
  | true =>
      obtain ⟨rfl, hreliable⟩ := hconnected rfl
      refine Ensures.get_bind (Ensures.bind ((pollRounds_spec _ conn').mono ?_ fun _ h => h))
      intro polled u hpolled
      cases polled with
      | false =>
          intro h
          cases h
      | true =>
          obtain ⟨waits, wc, hsuccess, rfl⟩ := hpolled rfl
          cases requiresDeviceSync with
          | false => exact fun _ => ⟨hreliable, waits, wc, hsuccess, (List.append_nil _).symm⟩
          | true =>
              refine (observe_spec _ _).mono ?_ fun _ h => h
              rintro ok v rfl rfl
              exact ⟨hreliable, waits, wc, hsuccess, rfl⟩

/-! ### The transfer -/

theorem injectRdmaToken_spec (token : List Byte) :
    Ensures (injectRdmaToken O token) tr
      (fun ok t => ok = true → t = tr ++ [.sendRequest token 0]) (fun _ => True) := by
  refine Ensures.bind ((observe_spec _ _).mono ?_ fun _ h => h)
  rintro ret t rfl
  rw [Ensures.pure_iff, decide_eq_true_iff]
  rintro rfl
  rfl

/-- What is known of a reply that is passed on. -/
theorem receiveRdmaReplyRaw_spec :
    Ensures (receiveRdmaReplyRaw O) tr
      (fun r t => ∀ text status, r = some (text, status) → decodeRdmaReply text = some status ∧
        ∃ replyLen ≤ kReplyBufLen, t = tr ++ [.recvReply 0 replyLen text])
      (fun _ => True) := by
  unfold receiveRdmaReplyRaw
  refine Ensures.bind ((observe_spec _ _).mono ?_ fun _ h => h)
  rintro ⟨ret, replyLen, replyBuf⟩ t rfl
  dsimp only
  refine Ensures.ite (fun _ text status h => ?_) fun hret => ?_
  · cases h
  refine Ensures.ite (fun _ text status h => ?_) fun hlen => ?_
  · cases h
  obtain rfl : ret = 0 := not_not.mp hret
  cases hdecode : decodeRdmaReply (replyBuf.take replyLen) with
  | none =>
      intro text status h
      cases h
  | some status =>
      intro text status' h
      cases h
      exact ⟨hdecode, replyLen, by omega, rfl⟩

/-- A reply with the status of a success is in the grammar. -/
theorem grammar_of_success {text : List Byte} (h : decodeRdmaReply text = some .Success) :
    ∃ code, ReplyGrammar text code (parsePeerTokenFromReply text) ∧
      (code = 200 ∨ code = 204 ∨ code = 206) := by
  rw [decodeRdmaReply_eq] at h
  obtain ⟨code, hcode, hstatus⟩ := Option.map_eq_some_iff.mp h
  obtain ⟨token, htoken⟩ := (parseRdmaReplyHttpCode_eq_some_iff text code).mp hcode
  have hparse := (parseReply_eq_some_iff text code token).mpr htoken
  have hpeer : parsePeerTokenFromReply text = token := by
    rw [parsePeerTokenFromReply, hparse]
  refine ⟨code, hpeer ▸ htoken, ?_⟩
  unfold replyStatus at hstatus
  split at hstatus
  · cases hstatus
  split at hstatus
  · assumption
  · cases hstatus

theorem leasing_spec {α : Type} {x : TransferM α} {Q : α → Trace → Prop}
    (h : Ensures x tr (fun a t => Q a (t ++ [.released])) fun _ => True) :
    Ensures (leasing x) tr Q fun _ => True := by
  unfold Ensures leasing at *
  cases hx : x tr with
  | ok a t =>
      rw [hx] at h
      exact h
  | error e t => trivial

/-- The token that is sent names the queue pair of the connection. -/
theorem qpNum_of_buildRdmaToken {qpNum : BitVec 32} {e : BufEntry} {size offset : BitVec 64}
    {token : RdmaToken} (h : buildRdmaToken device qpNum e size offset = some token) :
    token.qpNum = qpNum := by
  unfold buildRdmaToken at h
  split at h
  · cases h
  · cases h
    rfl

theorem transferOn_spec (conn : RcConnection) (e : BufEntry) (size offset : BitVec 64) :
    Ensures (transferOn O device conn e size offset) (tr ++ [.acquired conn])
      (fun r t => r = .Success → ∃ ev : Evidence device e size offset,
        t ++ [.released] = tr ++ ev.trace)
      (fun _ => True) := by
  unfold transferOn
  cases hbuilt : buildRdmaToken device conn.qp.qpNum e size offset with
  | none =>
      intro h
      cases h
  | some token =>
      refine Ensures.bind ((injectRdmaToken_spec _).mono ?_ fun _ h => h)
      intro sent t hsent
      cases sent with
      | false =>
          intro h
          cases h
      | true =>
          obtain rfl := hsent rfl
          refine Ensures.bind (receiveRdmaReplyRaw_spec.mono ?_ fun _ h => h)
          intro reply u hreply
          cases reply with
          | none =>
              intro h
              cases h
          | some reply =>
              obtain ⟨text, status⟩ := reply
              obtain ⟨hdecode, replyLen, hbounded, rfl⟩ := hreply text status rfl
              refine Ensures.ite (fun _ h => ?_) fun hstatus => ?_
              · cases h
              obtain rfl : status = .Success := not_not.mp hstatus
              refine Ensures.bind ((finishTransferAfterReply_spec conn text e.isDmabuf).mono ?_
                fun _ h => h)
              intro finished v hfinished
              cases finished with
              | false =>
                  intro h
                  cases h
              | true =>
                  intro _
                  obtain ⟨hreliable, waits, wc, hcompleted, rfl⟩ := hfinished rfl
                  obtain ⟨code, hgrammar, hsuccess⟩ := grammar_of_success hdecode
                  exact ⟨⟨conn, token, hbuilt, qpNum_of_buildRdmaToken hbuilt, replyLen, hbounded,
                    text, code, _, hgrammar, hsuccess, hreliable, waits, wc, hcompleted⟩,
                    by simp [Evidence.trace, encodeRdmaToken]⟩

theorem runRdmaTransfer_spec (e : BufEntry) (size offset : BitVec 64) :
    Ensures (runRdmaTransfer O device e size offset) tr
      (fun r t => r = .Success → ∃ ev : Evidence device e size offset, t = tr ++ ev.trace)
      (fun _ => True) := by
  unfold runRdmaTransfer Ensures
  dsimp only
  cases O.acquire tr with
  | none => trivial
  | some result =>
      cases result with
      | error err =>
          intro h
          cases err <;> cases h
      | ok conn =>
          exact leasing_spec (Q := fun r t => r = OpError.Success →
            ∃ ev : Evidence device e size offset, t = tr ++ ev.trace)
            (transferOn_spec conn e size offset)

/-! ### The public calls -/

theorem checked_ok {look : Lookup} {ops : Bool} {devPtr size offset : BitVec 64} {e : BufEntry}
    (h : checked look ops devPtr size offset = .ok e) : look.buf = some e := by
  unfold checked at h
  split at h
  · cases h
  split at h
  · cases h
  split at h
  · rename_i hbuf
    split at h
    · cases h
    · cases h
      exact hbuf
  · cases h

theorem checked_error {look : Lookup} {ops : Bool} {devPtr size offset : BitVec 64}
    {err : OpError} (h : checked look ops devPtr size offset = .error err) : err ≠ .Success := by
  unfold checked at h
  split at h
  · cases h
    decide
  split at h
  · cases h
    decide
  cases hargs : checkBufferArgs devPtr look.buf size offset with
  | Success =>
      obtain ⟨-, -, e, hbuf, -⟩ := checkBufferArgs_success hargs
      rw [hargs, hbuf] at h
      dsimp only at h
      split at h
      · rename_i hrunning
        rw [← Except.error.inj h]
        exact hrunning
      · cases h
  | _ =>
      rw [hargs] at h
      rw [← Except.error.inj h]
      decide

theorem catching_spec {x : TransferM OpError} {Q : Trace → Prop}
    (h : Ensures x tr (fun r t => r = .Success → Q t) fun _ => True) :
    Ensures (catching x) tr (fun r t => r = .Success → Q t) fun _ => True := by
  refine Ensures.tryCatch (h.mono (fun _ _ h => h) ?_)
  intro t _ e hsuccess
  cases hsuccess

/-- A `hipObjGet` that returns success transfers, and then stages to the device. -/
theorem hipObjGet_spec (look : Lookup) (ops : Bool) (devPtr size offset : BitVec 64) :
    Ensures (hipObjGet O device look ops devPtr size offset) []
      (fun r t => r = .Success → ∃ e, look.buf = some e ∧
        ∃ (ev : Evidence device e size offset) (waits : Nat), t = ev.trace ++
          stagedTrace e true (HipObject.stageToDevice devPtr · size offset) waits)
      (fun _ => True) := by
  refine catching_spec ?_
  cases hchecked : checked look ops devPtr size offset with
  | error err => exact fun hsuccess => absurd hsuccess (checked_error hchecked)
  | ok e =>
      refine Ensures.bind ((runRdmaTransfer_spec e size offset).mono ?_ fun _ h => h)
      intro err t ht
      refine Ensures.ite (fun herr hsuccess => absurd hsuccess herr) fun herr => ?_
      obtain ⟨ev, rfl⟩ := ht (not_not.mp herr)
      refine (stageToDevice_spec e devPtr size offset).mono ?_ fun _ h => h
      intro r u hr hsuccess
      obtain ⟨waits, rfl⟩ := hr hsuccess
      exact ⟨e, checked_ok hchecked, ev, waits, rfl⟩

/-- A `hipObjPut` that returns success stages to the host, and then transfers. -/
theorem hipObjPut_spec (look : Lookup) (ops : Bool) (devPtr size offset : BitVec 64) :
    Ensures (hipObjPut O device look ops devPtr size offset) []
      (fun r t => r = .Success → ∃ e, look.buf = some e ∧
        ∃ (waits : Nat) (ev : Evidence device e size offset), t =
          stagedTrace e false (HipObject.stageToHost devPtr · size offset) waits ++ ev.trace)
      (fun _ => True) := by
  refine catching_spec ?_
  cases hchecked : checked look ops devPtr size offset with
  | error err => exact fun hsuccess => absurd hsuccess (checked_error hchecked)
  | ok e =>
      refine Ensures.bind ((stageToHost_spec e devPtr size offset).mono ?_ fun _ h => h)
      intro err t ht
      refine Ensures.ite (fun herr hsuccess => absurd hsuccess herr) fun herr => ?_
      obtain ⟨waits, rfl⟩ := ht (not_not.mp herr)
      refine (runRdmaTransfer_spec e size offset).mono ?_ fun _ h => h
      intro r u hr hsuccess
      obtain ⟨ev, rfl⟩ := hr hsuccess
      exact ⟨e, checked_ok hchecked, waits, ev, rfl⟩

/-! ### What is read of a peer token -/

/-- The fields of a peer token that a transfer reads. -/
def peerFields (token : RdmaToken) : TransportType × BitVec 32 × Gid × BitVec 16 :=
  (token.transport, token.qpNum, token.gid, token.lid)

theorem connectRcPeer_congr {token token' : RdmaToken} (h : peerFields token = peerFields token') :
    connectRcPeer device token = connectRcPeer device token' := by
  simp only [peerFields, Prod.mk.injEq] at h
  obtain ⟨htransport, hqpNum, hgid, hlid⟩ := h
  unfold connectRcPeer
  rw [htransport, hqpNum, hgid, hlid]

theorem finishTransferAfterReply_congr (conn : RcConnection) {reply reply' : List Byte}
    (requiresDeviceSync : Bool)
    (h : (parsePeerTokenFromReply reply).map peerFields =
      (parsePeerTokenFromReply reply').map peerFields) :
    finishTransferAfterReply O device conn reply requiresDeviceSync =
      finishTransferAfterReply O device conn reply' requiresDeviceSync := by
  have hconnect : connectPeer O device conn reply = connectPeer O device conn reply' := by
    unfold connectPeer
    cases hpeer : parsePeerTokenFromReply reply with
    | none =>
        rw [hpeer] at h
        rw [Option.map_eq_none_iff.mp h.symm]
    | some token =>
        rw [hpeer] at h
        obtain ⟨token', hpeer', hfields⟩ := Option.map_eq_some_iff.mp h.symm
        rw [hpeer']
        exact congrArg (onConnection O conn) (connectRcPeer_congr hfields.symm)
  unfold finishTransferAfterReply
  rw [hconnect]

end Parts

/-- Success means that every step succeeded, in order: a `hipObjGet` transferred
and then staged, a `hipObjPut` staged and then transferred, and nothing else is
in the trace. Of a peer token only its transport, queue pair number, GID and LID
matter to the verbs calls and the result. -/
theorem success_means_every_step (O : Outside) (device : RdmaDevice) :
    (∀ look ops devPtr size offset,
      Ensures (hipObjGet O device look ops devPtr size offset) []
        (fun r t => r = .Success → ∃ e, look.buf = some e ∧
          ∃ (ev : Evidence device e size offset) (waits : Nat), t = ev.trace ++
            stagedTrace e true (HipObject.stageToDevice devPtr · size offset) waits)
        (fun _ => True)) ∧
    (∀ look ops devPtr size offset,
      Ensures (hipObjPut O device look ops devPtr size offset) []
        (fun r t => r = .Success → ∃ e, look.buf = some e ∧
          ∃ (waits : Nat) (ev : Evidence device e size offset), t =
            stagedTrace e false (HipObject.stageToHost devPtr · size offset) waits ++ ev.trace)
        (fun _ => True)) ∧
    ∀ conn reply reply' requiresDeviceSync,
      (parsePeerTokenFromReply reply).map peerFields =
        (parsePeerTokenFromReply reply').map peerFields →
      finishTransferAfterReply O device conn reply requiresDeviceSync =
        finishTransferAfterReply O device conn reply' requiresDeviceSync :=
  ⟨hipObjGet_spec, hipObjPut_spec, fun conn _ _ requiresDeviceSync h =>
    finishTransferAfterReply_congr conn requiresDeviceSync h⟩

/-- An outside where everything works, with one empty poll before the completion
arrives. -/
def smoothOutside : Outside where
  reserve := fun _ => some ()
  eventCreate := fun _ => some true
  memcpyAsync := fun _ => some true
  eventRecord := fun _ => some true
  eventQuery := fun _ => some .success
  stageRounds := fun _ => 1
  acquire := fun _ => some (.ok ⟨⟨0, 1, []⟩, ⟨1, 1, .INIT, none⟩⟩)
  sendRequest := fun _ _ => some 0
  recvReply := fun _ => some (0, 2, okText)
  verbs := fun _ => [.success 0]
  arrivals := fun trace => if trace.length = 3 then [] else [⟨true, 0, 0⟩]
  pollRounds := fun _ => 2
  deviceSynchronize := fun _ => some true

/-- A staged buffer can be read and written with success. -/
example :
    let look : Lookup := ⟨true, some ⟨some ⟨0, 64, 2⟩, ⟨1, 64, 2, 0⟩, 2, false, 64, false, 16,
      some ⟨none, none⟩⟩, false⟩
    ((match hipObjGet smoothOutside ⟨1, 0, .replicate 16 0⟩ look true 16 2 0 [] with
      | .ok r _ => r == .Success
      | .error _ _ => false) &&
    (match hipObjPut smoothOutside ⟨1, 0, .replicate 16 0⟩ look true 16 2 0 [] with
      | .ok r _ => r == .Success
      | .error _ _ => false)) = true := by
  decide

end HipObject.Transfers
