import HipObject.Server.CurlOps
import HipObject.Server.ServerRuns

/-!
# The replies of the test server

Which answers of the handler carry an `x-amz-rdma-reply`, and what the server has
done for the client before it sends one: it has aimed its queue pair at the one in
the client's token, and posted one work request for the memory that the token names.
By the time the answer leaves, the guard has destroyed the queue pair that the reply
names.

Every answer has headers that the client's callback reads as they were meant.
-/

namespace HipObject.Server

open HipObject Codec Verification

/-! ### Headers that are read as they were meant -/

theorem isHexDigit_of_mem_token {token : RdmaToken} {c : Byte} (h : c ∈ encodeRdmaToken token) :
    IsHexDigit c := by
  rw [encodeRdmaToken, take_encodeRdmaTokenHex] at h
  exact (writePairs_lowercase _ c h).1

/-- The reply that the server sends. -/
def okReply (token : RdmaToken) : Text := encodeReplyWithPeerToken kHttpOk token

theorem okReply_eq (token : RdmaToken) :
    okReply token = [ascii '2', ascii '0', ascii '0', ascii ':'] ++ encodeRdmaToken token := by
  rw [okReply, encodeReplyWithPeerToken, kHttpOk, toDecimal_twoHundred]
  rfl

theorem grammar_okReply {token : RdmaToken} (h : token.HasTransport) :
    ReplyGrammar (okReply token) 200 (some token) := by
  refine ⟨okReply token, [], (List.append_nil _).symm, by simp, ?_⟩
  rw [okReply_eq]
  exact .peer (decodeRdmaTokenHex_encode h)

/-- A reply is a status code, a colon and digits. -/
theorem mem_okReply {token : RdmaToken} {c : Byte} (h : c ∈ okReply token) :
    c = ascii ':' ∨ IsHexDigit c := by
  have hcode : ∀ d ∈ [ascii '2', ascii '0', ascii '0', ascii ':'],
      d = ascii ':' ∨ IsHexDigit d := by decide
  rw [okReply_eq] at h
  rcases List.mem_append.mp h with h | h
  · exact hcode c h
  · exact .inr (isHexDigit_of_mem_token h)

theorem not_mem_okReply {token : RdmaToken} {c : Byte} (hcolon : c ≠ ascii ':')
    (hdigit : ¬IsHexDigit c) : c ∉ okReply token := by
  intro hmem
  rcases mem_okReply hmem with h | h
  · exact hcolon h
  · exact hdigit h

theorem kept_okReply (token : RdmaToken) : Kept (okReply token) where
  head := by
    intro c hc
    rw [okReply_eq] at hc
    cases hc
    decide
  last := by
    intro c hc
    have hmem : c ∈ okReply token := List.mem_of_mem_getLast? hc
    rw [isLineEnd, Bool.or_eq_false_iff, Bool.or_eq_false_iff]
    refine ⟨⟨?_, ?_⟩, ?_⟩
    · rw [beq_eq_false_iff_ne]
      rintro rfl
      exact not_mem_okReply (by decide) (by decide) hmem
    · rw [beq_eq_false_iff_ne]
      rintro rfl
      exact not_mem_okReply (by decide) (by decide) hmem
    · rw [beq_eq_false_iff_ne]
      rintro rfl
      exact not_mem_okReply (by decide) (by decide) hmem
  nul := not_mem_okReply (by decide) (by decide)
  short := by
    rw [okReply_eq, List.length_append, length_encodeRdmaToken]
    decide

theorem not_mem_toList_empty (header : Text × Text) : header ∉ (∅ : HeaderMap).toList := by
  intro h
  have hvalue := Std.TreeMap.mem_toList_iff_getElem?_eq_some.mp h
  simp at hvalue

theorem repliesOk_empty : RepliesOk ∅ where
  lines header hheader := absurd hheader (not_mem_toList_empty header)
  once header hheader := absurd hheader (not_mem_toList_empty header)
  kept := by
    intro reply hreply
    simp at hreply

theorem mem_toList_insert {headers : HeaderMap} {name value : Text} {header : Text × Text}
    (h : header ∈ (headers.insert name value).toList) :
    header = (name, value) ∨ header ∈ headers.toList := by
  obtain ⟨name', value'⟩ := header
  have hvalue := Std.TreeMap.mem_toList_iff_getElem?_eq_some.mp h
  rw [Std.TreeMap.getElem?_insert] at hvalue
  split_ifs at hvalue with hname
  · have hname : name = name' := by simpa using hname
    cases hvalue
    exact .inl (by rw [hname])
  · exact .inr (Std.TreeMap.mem_toList_iff_getElem?_eq_some.mpr hvalue)

/-- One more header, which is the reply if it has its name. -/
theorem RepliesOk.insert {headers : HeaderMap} (h : RepliesOk headers) {name value : Text}
    (hname : ascii '\n' ∉ name) (hvalue : ascii '\n' ∉ value) (hcolon : ascii ':' ∉ name)
    (honce : name.map toLower = replyName → name = replyName)
    (hkept : name = replyName → Kept value) : RepliesOk (headers.insert name value) where
  lines := by
    intro header hheader
    rcases mem_toList_insert hheader with rfl | hheader
    · exact ⟨hname, hvalue, hcolon⟩
    · exact h.lines header hheader
  once := by
    intro header hheader
    rcases mem_toList_insert hheader with rfl | hheader
    · exact honce
    · exact h.once header hheader
  kept := by
    intro reply hreply
    rw [Std.TreeMap.getElem?_insert] at hreply
    split_ifs at hreply with hsame
    · cases hreply
      exact hkept (by simpa using hsame)
    · exact h.kept reply hreply

theorem repliesOk_reply (token : RdmaToken) :
    RepliesOk ((∅ : HeaderMap).insert replyName (okReply token)) := by
  refine repliesOk_empty.insert (by decide +kernel) ?_ (by decide +kernel) (fun _ => rfl)
    fun _ => kept_okReply token
  exact not_mem_okReply (by decide) (by decide)

theorem RepliesOk.withEtag {headers : HeaderMap} (h : RepliesOk headers) :
    RepliesOk (withEtag headers) :=
  h.insert (by decide +kernel) (by decide +kernel) (by decide +kernel)
    (fun h => absurd h (by decide +kernel)) fun h => absurd h (by decide +kernel)

/-! ### What the server does on its connection -/

/-- Only polls, and the connection is the same. -/
structure Polls (env t : Env RcConnection) : Prop where
  qp : t.obj.qp = env.obj.qp
  cq : t.obj.cq.id = env.obj.cq.id
  log : ∃ polls, t.log = env.log ++ polls ∧ ∀ c ∈ polls, c = .pollCq env.obj.cq.id

theorem chains_polls : Chains Polls where
  refl env := ⟨rfl, rfl, [], (List.append_nil _).symm, by simp⟩
  trans := by
    rintro s t u ⟨hqp, hcq, polls, hlog, hpolls⟩ ⟨hqp', hcq', polls', hlog', hpolls'⟩
    refine ⟨hqp'.trans hqp, hcq'.trans hcq, polls ++ polls', ?_, ?_⟩
    · rw [hlog', hlog, List.append_assoc]
    · intro c hc
      rcases List.mem_append.mp hc with hc | hc
      · exact hpolls c hc
      · rw [hpolls' c hc, hcq]

theorem pollCq_polls : Along Polls pollCq := by
  intro env
  have hpolls : ∀ t : Env RcConnection, t.log = env.log ++ [.pollCq env.obj.cq.id] →
      t.obj.qp = env.obj.qp → t.obj.cq.id = env.obj.cq.id → Polls env t :=
    fun t hlog hqp hcq => ⟨hqp, hcq, _, hlog, by simp⟩
  refine Ensures.get_bind (Ensures.bind (((call_log _ env).and (call_spec _)).mono ?_ ?_))
  · rintro a t ⟨⟨hlog, -⟩, hobj⟩
    have hcall := hpolls t hlog (by rw [hobj]) (by rw [hobj])
    cases a with
    | success value =>
        cases env.obj.cq.completions with
        | nil => exact hcall
        | cons wc rest => exact Ensures.modify_bind ⟨hcall.qp, hcall.cq, hcall.log⟩
    | failure => exact hcall
    | throws => exact hcall
  · rintro t ⟨⟨hlog, -⟩, hobj⟩
    exact hpolls t hlog (by rw [hobj]) (by rw [hobj])

theorem pollCompletion_polls (expectedOpcode : Option Nat) (rounds : Nat) :
    Along Polls (pollCompletion expectedOpcode rounds) := by
  induction rounds with
  | zero => exact Along.pure chains_polls _
  | succ rounds ih =>
      refine Along.bind chains_polls pollCq_polls ?_
      intro polled
      cases roundResult expectedOpcode polled with
      | some result => exact Along.pure chains_polls _
      | none => exact ih

/-- The queue pair that a token names. -/
def destOf (token : RdmaToken) : Destination := ⟨token.qpNum, token.gid, token.lid⟩

/-- The calls that aim a queue pair and make it ready to send. -/
def aimCalls (conn : RcConnection) (dest : Destination) : List VerbsCall :=
  [.modifyQp conn.qp.id .RTR (some dest), .modifyQp conn.qp.id .RTS none]

/-- The same two objects, whatever their state. -/
structure SameConn (conn conn' : RcConnection) : Prop where
  qp : conn'.qp.id = conn.qp.id
  qpNum : conn'.qp.qpNum = conn.qp.qpNum
  cq : conn'.cq.id = conn.cq.id

theorem SameConn.trans {a b c : RcConnection} (h : SameConn a b) (h' : SameConn b c) :
    SameConn a c := ⟨h'.qp.trans h.qp, h'.qpNum.trans h.qpNum, h'.cq.trans h.cq⟩

theorem modifyQp_aims (target : QpState) (dest : Option Destination) (env : Env RcConnection) :
    Ensures (modifyQp target dest) env
      (fun _ t => t.log = env.log ++ [.modifyQp env.obj.qp.id target dest] ∧
        SameConn env.obj t.obj)
      (fun _ => True) := by
  refine Ensures.get_bind (Ensures.bind (((call_log _ env).and (call_spec _)).mono ?_
    fun _ _ => trivial))
  rintro a t ⟨⟨hlog, -⟩, hobj⟩
  have hsame : SameConn env.obj t.obj := by rw [hobj]; exact ⟨rfl, rfl, rfl⟩
  cases a with
  | success value => exact Ensures.modify_bind ⟨hlog, hsame.qp, hsame.qpNum, hsame.cq⟩
  | failure => exact ⟨hlog, hsame⟩
  | throws => exact ⟨hlog, hsame⟩

/-- A connection that was made is aimed at the peer that the token names. -/
theorem connectRcPeer_aims (device : RdmaDevice) (token : RdmaToken) (env : Env RcConnection) :
    Ensures (connectRcPeer device token) env
      (fun connected t => connected = true →
        t.log = env.log ++ aimCalls env.obj (destOf token) ∧ SameConn env.obj t.obj)
      (fun _ => True) := by
  unfold connectRcPeer transitionQpToRtr transitionQpToRts
  refine Ensures.ite (fun _ => by rintro ⟨⟩) fun _ => Ensures.bind (Ensures.ite (fun _ => ?_)
    fun _ => by rintro ⟨⟩)
  refine (modifyQp_aims .RTR _ env).mono ?_ fun _ h => h
  rintro moved t ⟨hlog, hsame⟩
  refine Ensures.ite (fun _ => by rintro ⟨⟩) fun _ => ?_
  refine (modifyQp_aims .RTS none t).mono ?_ fun _ h => h
  rintro moved' u ⟨hlog', hsame'⟩ -
  refine ⟨?_, hsame.trans hsame'⟩
  rw [hlog', hlog, hsame.qp, List.append_assoc]
  rfl

/-- What a transfer that is answered has called. -/
def Transferred (conn : RcConnection) (token : RdmaToken) (wr : SendWr)
    (log log' : List VerbsCall) : Prop :=
  ∃ polls, log' = log ++ (aimCalls conn (destOf token) ++ .postSend conn.qp.id wr :: polls) ∧
    ∀ c ∈ polls, c = .pollCq conn.cq.id

theorem serve_transfers (device : RdmaDevice) (out : Outside) (token : RdmaToken)
    (opcode : WrOpcode) (wcOpcode size : Nat) (env : Env RcConnection) :
    Ensures (serve device token (postRdma out opcode wcOpcode size token)) env
      (fun served t => ∀ serverToken, served = some serverToken →
        serverToken = buildServerToken device env.obj ∧ SameConn env.obj t.obj ∧
        Transferred env.obj token
          ⟨opcode, BitVec.ofNat 32 size, token.remoteAddr, token.rkey⟩ env.log t.log)
      (fun _ => True) := by
  have hrefused : ∀ t : Env RcConnection, ∀ serverToken, (none : Option RdmaToken) =
      some serverToken → serverToken = buildServerToken device env.obj ∧ SameConn env.obj t.obj ∧
        Transferred env.obj token
          ⟨opcode, BitVec.ofNat 32 size, token.remoteAddr, token.rkey⟩ env.log t.log := by
    rintro t serverToken ⟨⟩
  refine Ensures.bind ((connectRcPeer_aims device token env).mono ?_ fun _ h => h)
  intro connected t ht
  refine Ensures.ite (fun _ => hrefused t) fun hconnected => ?_
  obtain ⟨hlog, hsame⟩ := ht (by simpa using hconnected)
  refine Ensures.bind (Ensures.get_bind (Ensures.bind
    (((call_log _ t).and (call_spec _)).mono ?_ fun _ _ => trivial)))
  rintro a u ⟨⟨hpost, -⟩, hobj⟩
  cases a with
  | success value =>
      refine Ensures.modify_bind ((pollCompletion_polls _ _ _).mono ?_ fun _ _ => trivial)
      rintro polled v ⟨hqp, hcq, polls, hpolled, hpolls⟩
      refine Ensures.ite (fun _ => hrefused v) fun _ => Ensures.get_bind ?_
      rintro serverToken ⟨⟩
      have hsame' : SameConn env.obj v.obj := by
        refine hsame.trans ?_
        rw [← hobj]
        exact ⟨by rw [hqp], by rw [hqp], hcq⟩
      refine ⟨?_, hsame', polls, ?_, ?_⟩
      · rw [buildServerToken, buildServerToken, hsame'.qpNum]
      · dsimp only at hpolled
        rw [hpolled, hpost, hlog, hsame.qp]
        simp
      · intro c hc
        rw [hpolls c hc]
        dsimp only
        rw [hobj, hsame.cq]
  | failure => exact hrefused u
  | throws => exact hrefused u

/-! ### What is posted -/

def postedWr : VerbsCall → Option SendWr
  | .postSend _ wr => some wr
  | _ => none

/-- The work requests posted since the log was `log`. -/
def posted (log log' : List VerbsCall) : List SendWr := (log'.drop log.length).filterMap postedWr

/-- The log has grown by calls that post nothing. -/
def PostsNothing (log log' : List VerbsCall) : Prop :=
  ∃ calls, log' = log ++ calls ∧ calls.filterMap postedWr = []

section PostsNothing

variable {σ : Type}

theorem chains_postsNothing : Chains fun env t : Env σ => PostsNothing env.log t.log where
  refl env := ⟨[], (List.append_nil _).symm, rfl⟩
  trans := by
    rintro s t u ⟨calls, hlog, hcalls⟩ ⟨calls', hlog', hcalls'⟩
    refine ⟨calls ++ calls', ?_, ?_⟩
    · rw [hlog', hlog, List.append_assoc]
    · rw [List.filterMap_append, hcalls, hcalls', List.append_nil]

theorem call_postsNothing {c : VerbsCall} (h : postedWr c = none) :
    Along (fun env t : Env σ => PostsNothing env.log t.log) (call c) := by
  intro env
  refine (call_log c env).mono ?_ ?_
  · rintro a t ⟨hlog, -⟩
    exact ⟨[c], hlog, by simp [h]⟩
  · rintro t ⟨hlog, -⟩
    exact ⟨[c], hlog, by simp [h]⟩

theorem modify_postsNothing {calls : List VerbsCall} (h : calls.filterMap postedWr = []) :
    Along (fun env t : Env σ => PostsNothing env.log t.log)
      (modify fun env => { env with log := env.log ++ calls } : VerbsM σ PUnit) :=
  Along.modify fun _ => ⟨calls, rfl, h⟩

theorem modifyQp_postsNothing (target : QpState) (dest : Option Destination) :
    Along (fun env t => PostsNothing env.log t.log) (modifyQp target dest) := by
  refine Along.bind chains_postsNothing (Along.get chains_postsNothing) fun env => ?_
  refine Along.bind chains_postsNothing (call_postsNothing rfl) fun a => ?_
  cases a with
  | success value =>
      refine Along.bind chains_postsNothing (Along.modify fun _ => ⟨[], ?_, rfl⟩) fun _ =>
        Along.pure chains_postsNothing _
      exact (List.append_nil _).symm
  | failure => exact Along.pure chains_postsNothing _
  | throws => exact Along.pure chains_postsNothing _

theorem onLocal_postsNothing {α : Type} {conn : RcConnection} {x : VerbsM RcConnection α}
    (hx : Along (fun env t => PostsNothing env.log t.log) x) :
    Along (fun env t : Env σ => PostsNothing env.log t.log) (onLocal conn x) := by
  intro env
  refine (onLocal_run (hx ⟨env.answers, env.log, conn⟩)).mono ?_ ?_
  · rintro r t ⟨u, hu, -, hlog, -⟩
    rw [hlog]
    exact hu
  · rintro t ⟨u, ⟨calls, hu, hcalls⟩, hlog⟩
    refine ⟨calls ++ [.destroyQp u.obj.qp.id, .destroyCq u.obj.cq.id], ?_, ?_⟩
    · rw [hlog, hu, List.append_assoc]
    · rw [List.filterMap_append, hcalls]
      rfl

/-- A new connection has nothing posted on it. -/
theorem createRcConnection_postsNothing (cqSize maxSendWr maxRecvWr : Nat) :
    Along (fun env t : Env σ => PostsNothing env.log t.log)
      (createRcConnection cqSize maxSendWr maxRecvWr) := by
  refine Along.bind chains_postsNothing (Along.get chains_postsNothing) fun env => ?_
  refine Along.bind chains_postsNothing (call_postsNothing rfl) fun made => ?_
  cases made with
  | failure => exact Along.pure chains_postsNothing _
  | throws => exact Along.pure chains_postsNothing _
  | success cqe =>
      refine Along.bind chains_postsNothing (Along.get chains_postsNothing) fun env => ?_
      refine Along.bind chains_postsNothing (Along.tryCatch chains_postsNothing
        (call_postsNothing rfl) fun e => ?_) fun made => ?_
      · exact Along.bind chains_postsNothing (modify_postsNothing rfl) fun _ =>
          Along.throw chains_postsNothing e
      · cases made with
        | failure | throws =>
            exact Along.bind chains_postsNothing (modify_postsNothing rfl) fun _ =>
              Along.pure chains_postsNothing _
        | success qpNum =>
            refine Along.bind chains_postsNothing
              (onLocal_postsNothing (modifyQp_postsNothing .INIT none)) fun r => ?_
            refine Along.ite (Along.pure chains_postsNothing _) ?_
            exact Along.bind chains_postsNothing (modify_postsNothing rfl) fun _ =>
              Along.pure chains_postsNothing _

end PostsNothing

/-! ### What an answer with a reply stands for -/

/-- The guard's cleanup starts with the connection that was used, and posts nothing. -/
theorem resetQp_destroys {env : Env Impl} {conn : RcConnection}
    (hconn : env.obj.conn = some conn) :
    Ensures resetQp env
      (fun _ t => PostsNothing (env.log ++ ConnectionPool.destroyCalls conn) t.log)
      (fun _ => True) := by
  unfold resetQp
  refine Ensures.get_bind ?_
  rw [hconn]
  refine Ensures.modify_bind (Ensures.modify_bind (Ensures.bind
    ((createRcConnection_postsNothing _ _ _ _).mono ?_ fun _ _ => trivial)))
  intro made t hgrows
  cases made with
  | none => exact hgrows
  | some fresh => exact hgrows

/-- The transfer was made, and then the queue pair and the completion queue were destroyed.
Nothing was posted after that. -/
def TransferredAndLeft (conn : RcConnection) (token : RdmaToken) (wr : SendWr)
    (log log' : List VerbsCall) : Prop :=
  ∃ middle, Transferred conn token wr log middle ∧
    PostsNothing (middle ++ ConnectionPool.destroyCalls conn) log'

/-- The work request of the transfer is the only one. -/
theorem TransferredAndLeft.posted_eq {conn : RcConnection} {token : RdmaToken} {wr : SendWr}
    {log log' : List VerbsCall} (h : TransferredAndLeft conn token wr log log') :
    posted log log' = [wr] := by
  obtain ⟨middle, ⟨polls, rfl, hpolls⟩, calls, rfl, hcalls⟩ := h
  have hnone : polls.filterMap postedWr = [] := by
    rw [List.filterMap_eq_nil_iff]
    intro c hc
    rw [hpolls c hc]
    rfl
  simp only [posted, List.append_assoc, List.drop_left, List.filterMap_append, hcalls,
    List.append_nil, List.filterMap_cons, postedWr, hnone, List.nil_append, List.cons_append,
    aimCalls, ConnectionPool.destroyCalls]

theorem onConn_run {α : Type} {env : Env Impl} {conn : RcConnection} {x : VerbsM RcConnection α}
    {Q : α → Env RcConnection → Prop}
    (hx : Ensures x ⟨env.answers, env.log, conn⟩ Q fun _ => True) :
    Ensures (onConn conn x) env
      (fun a t => ∃ u, Q a u ∧ t.log = u.log ∧ t.obj.conn = some u.obj) (fun _ => True) := by
  unfold Ensures onConn
  cases hrun : x ⟨env.answers, env.log, conn⟩ with
  | ok a u => exact ⟨u, hx.ok hrun, rfl, rfl⟩
  | error e u => trivial

/-- The shape that both transfers have. -/
theorem guarded_transfers {α : Type} {env : Env Impl} {conn : RcConnection} {device : RdmaDevice}
    {token : RdmaToken} {x : VerbsM RcConnection (Option RdmaToken)} {wr : SendWr}
    {f : Option RdmaToken → VerbsM Impl (Option α)} {Q : α → Prop}
    (hx : Ensures x ⟨env.answers, env.log, conn⟩
      (fun served t => ∀ serverToken, served = some serverToken →
        serverToken = buildServerToken device conn ∧ SameConn conn t.obj ∧
        Transferred conn token wr env.log t.log) (fun _ => True))
    (hf : ∀ served (t : Env Impl), Ensures (f served) t
      (fun r u => u.log = t.log ∧ u.obj.conn = t.obj.conn ∧ ∀ a, r = some a →
        ∃ serverToken, served = some serverToken ∧
          (serverToken = buildServerToken device conn → Q a)) (fun _ => True)) :
    Ensures (guarded resetQp (onConn conn x >>= f)) env
      (fun r t => ∀ a, r = some a → Q a ∧ TransferredAndLeft conn token wr env.log t.log)
      (fun _ => True) := by
  have hcleanup : ∀ (t : Env Impl) (Q : Env Impl → Prop), (∀ u, Q u) →
      Ensures resetQp t (fun _ => Q) fun _ => True :=
    fun t Q hQ => Ensures.of_forall (fun _ => hQ) fun _ => trivial
  refine guarded_spec (Ensures.bind ((onConn_run hx).mono ?_
    fun t _ => hcleanup t _ fun _ => trivial))
  rintro served t ⟨u, hserved, hlog, hused⟩
  refine (hf served t).mono ?_ fun t _ => hcleanup t _ fun _ => trivial
  rintro r v ⟨hlog', hconn', hresult⟩
  cases r with
  | none => exact hcleanup v _ fun _ a h => by cases h
  | some a =>
      obtain ⟨serverToken, rfl, hQ⟩ := hresult a rfl
      obtain ⟨htoken, hsame, htransferred⟩ := hserved serverToken rfl
      refine (resetQp_destroys (hconn'.trans hused)).mono ?_ fun _ _ => trivial
      rintro _ w hleft a' ⟨⟩
      have hdestroys : ConnectionPool.destroyCalls u.obj = ConnectionPool.destroyCalls conn := by
        rw [ConnectionPool.destroyCalls, ConnectionPool.destroyCalls, hsame.qp, hsame.cq]
      rw [hlog', hlog, hdestroys] at hleft
      exact ⟨hQ htoken, u.log, htransferred, hleft⟩

/-- The result of a transfer, which is there only if the transfer was made on `conn`. -/
def RepliesFor {α : Type} (device : RdmaDevice) (token : RdmaToken) (wr : SendWr)
    (replyOf : α → Text) (conn : Option RcConnection) (log log' : List VerbsCall)
    (result : Option α) : Prop :=
  ∀ a, result = some a → ∃ c, conn = some c ∧ replyOf a = okReply (buildServerToken device c) ∧
    TransferredAndLeft c token wr log log'

theorem rdmaWriteToClient_replies (device : RdmaDevice) (out : Outside) (header : TokenHeader)
    (data : List Byte) (env : Env Impl) :
    Ensures (rdmaWriteToClient device out header data) env
      (fun r t => RepliesFor device header.token ⟨.RDMA_WRITE,
        BitVec.ofNat 32 (writeSize header data), header.token.remoteAddr, header.token.rkey⟩ id
        env.obj.conn env.log t.log r)
      (fun _ => True) := by
  refine Ensures.get_bind ?_
  cases hconn : env.obj.conn with
  | none => rintro reply ⟨⟩
  | some conn =>
      refine Ensures.ite (fun _ => by rintro reply ⟨⟩) fun _ => Ensures.modify_bind ?_
      refine Ensures.mono (guarded_transfers (serve_transfers device out header.token .RDMA_WRITE
        IBV_WC_RDMA_WRITE _ _) (Q := fun reply => reply = okReply (buildServerToken device conn))
        ?_) ?_ fun _ h => h
      · intro served t
        cases served with
        | none => exact ⟨rfl, rfl, by rintro reply ⟨⟩⟩
        | some serverToken =>
            refine ⟨rfl, rfl, ?_⟩
            rintro reply ⟨⟩
            exact ⟨serverToken, rfl, fun htoken => by rw [htoken]; rfl⟩
      · intro r t hr reply hreply
        obtain ⟨heq, htransferred⟩ := hr reply hreply
        exact ⟨conn, rfl, heq, htransferred⟩

theorem rdmaReadFromClient_replies (device : RdmaDevice) (out : Outside) (header : TokenHeader)
    (size : BitVec 64) (env : Env Impl) :
    Ensures (rdmaReadFromClient device out header size) env
      (fun r t => RepliesFor device header.token ⟨.RDMA_READ,
        BitVec.ofNat 32 (readSize header size).toNat, header.token.remoteAddr, header.token.rkey⟩
        ReadResult.replyHeader env.obj.conn env.log t.log r)
      (fun _ => True) := by
  refine Ensures.get_bind ?_
  cases hconn : env.obj.conn with
  | none => rintro read ⟨⟩
  | some conn =>
      refine Ensures.ite (fun _ => by rintro read ⟨⟩) fun _ => ?_
      refine Ensures.mono (guarded_transfers (serve_transfers device out header.token .RDMA_READ
        IBV_WC_RDMA_READ _ _)
        (Q := fun read => read.replyHeader = okReply (buildServerToken device conn)) ?_) ?_
        fun _ h => h
      · intro served t
        cases served with
        | none => exact ⟨rfl, rfl, by rintro read ⟨⟩⟩
        | some serverToken =>
            refine Ensures.modify_bind ⟨rfl, rfl, ?_⟩
            rintro read ⟨⟩
            exact ⟨serverToken, rfl, fun htoken => by rw [htoken]; rfl⟩
      · intro r t hr read hread
        obtain ⟨heq, htransferred⟩ := hr read hread
        exact ⟨conn, rfl, heq, htransferred⟩

theorem onImpl_replies {α : Type} {device : RdmaDevice} {token : RdmaToken} {wr : SendWr}
    {replyOf : α → Text} {x : VerbsM Impl (Option α)}
    (hx : ∀ env : Env Impl, Ensures x env
      (fun r t => RepliesFor device token wr replyOf env.obj.conn env.log t.log r) (fun _ => True))
    (env : Env TestServer) :
    Ensures (onImpl x) env
      (fun r t => RepliesFor device token wr replyOf (connOf env.obj) env.log t.log r)
      (fun _ => True) := by
  unfold Ensures onImpl
  cases himpl : env.obj.impl with
  | none => rintro a ⟨⟩
  | some impl =>
      have hrun := hx ⟨env.answers, env.log, impl⟩
      have hconn : connOf env.obj = impl.conn := by rw [connOf, himpl]; rfl
      cases hres : x ⟨env.answers, env.log, impl⟩ with
      | ok r t =>
          simp only [hres, hconn]
          exact hrun.ok hres
      | error e t => simp only [hres]

/-- The work request for a request by RDMA: a PUT reads the client's memory, and a GET writes
the object there. -/
inductive WorkFor (req : HttpRequest) (header : TokenHeader)
    (objects : Std.TreeMap Text (List Byte)) : SendWr → Prop where
  | put (method : req.method = PUT) : WorkFor req header objects
      ⟨.RDMA_READ, BitVec.ofNat 32 (readSize header req.contentLength).toNat,
        header.token.remoteAddr, header.token.rkey⟩
  | get {data : List Byte} (method : req.method = GET)
      (stored : objects[objectKey req.path]? = some data) : WorkFor req header objects
      ⟨.RDMA_WRITE, BitVec.ofNat 32 (writeSize header data), header.token.remoteAddr,
        header.token.rkey⟩

/-- An answer with a reply: the transfer was made, on the connection that the reply names. -/
def Offloaded (device : RdmaDevice) (req : HttpRequest) (env t : Env TestServer)
    (reply : Text) : Prop :=
  ∃ header conn wr, (req.headers[tokenName]?).bind parseTokenHeader = some header ∧
    connOf env.obj = some conn ∧ reply = okReply (buildServerToken device conn) ∧
    WorkFor req header env.obj.objects wr ∧
    TransferredAndLeft conn header.token wr env.log t.log

/-- An answer that the client reads as it was meant, and that has a reply only for a transfer. -/
structure Honest (device : RdmaDevice) (req : HttpRequest) (env t : Env TestServer)
    (resp : HttpResponse) : Prop where
  headers : RepliesOk resp.headers
  offloaded : ∀ reply, resp.headers[replyName]? = some reply →
    resp.status = 200 ∧ Offloaded device req env t reply

theorem honest_of_no_reply {device : RdmaDevice} {req : HttpRequest} {env t : Env TestServer}
    {resp : HttpResponse} (hheaders : RepliesOk resp.headers)
    (hnone : resp.headers[replyName]? = none) : Honest device req env t resp where
  headers := hheaders
  offloaded := by
    intro reply hreply
    rw [hnone] at hreply
    cases hreply

theorem honest_empty {device : RdmaDevice} {req : HttpRequest} {env t : Env TestServer}
    (status : Int) (body : Text) : Honest device req env t ⟨status, ∅, body⟩ :=
  honest_of_no_reply repliesOk_empty (by simp)

theorem handleHttp_honest (device : RdmaDevice) (req : HttpRequest) (key : Text)
    (env : Env TestServer) :
    Ensures (handleHttp req key) env (fun resp t => Honest device req env t resp)
      (fun _ => True) := by
  refine Ensures.ite (fun _ => ?_) fun _ => Ensures.ite (fun _ => Ensures.get_bind ?_) fun _ => ?_
  · exact Ensures.modify_bind (honest_of_no_reply repliesOk_empty.withEtag (by decide +kernel))
  · cases env.obj.objects[key]? with
    | none => exact honest_empty _ _
    | some data => exact honest_empty _ _
  · exact honest_empty _ _

theorem handleRdma_honest {token : Text} {header : TokenHeader} {req : HttpRequest}
    (htoken : req.headers[tokenName]? = some token) (hparse : parseTokenHeader token = some header)
    (device : RdmaDevice) (out : Outside) (env : Env TestServer) :
    Ensures (handleRdma device out req (objectKey req.path) header) env
      (fun resp t => Honest device req env t resp) (fun _ => True) := by
  have hheader : (req.headers[tokenName]?).bind parseTokenHeader = some header := by
    rw [htoken, Option.bind_some, hparse]
  refine Ensures.ite (fun hput => ?_) fun _ => Ensures.ite (fun hget => Ensures.get_bind ?_)
    fun _ => honest_empty _ _
  · refine Ensures.bind ((onImpl_replies (rdmaReadFromClient_replies device out header
      req.contentLength) env).mono ?_ fun _ h => h)
    intro r t hr
    cases r with
    | none => exact honest_empty _ _
    | some read =>
        obtain ⟨conn, hconn, hreply, htransferred⟩ := hr read rfl
        refine Ensures.modify_bind ⟨?_, ?_⟩
        · dsimp only
          rw [hreply]
          exact (repliesOk_reply _).withEtag
        · intro reply hvalue
          have hname : compare (text "etag") replyName ≠ .eq := by decide +kernel
          dsimp only at hvalue
          rw [withEtag, Std.TreeMap.getElem?_insert, if_neg hname,
            Std.TreeMap.getElem?_insert_self] at hvalue
          cases hvalue
          exact ⟨rfl, header, conn, _, hheader, hconn, hreply, .put hput, htransferred⟩
  · cases hobject : env.obj.objects[objectKey req.path]? with
    | none => exact honest_empty _ _
    | some data =>
        refine Ensures.bind ((onImpl_replies (rdmaWriteToClient_replies device out header data)
          env).mono ?_ fun _ h => h)
        intro r t hr
        cases r with
        | none => exact honest_empty _ _
        | some reply =>
            obtain ⟨conn, hconn, hreply, htransferred⟩ := hr reply rfl
            rw [id_eq] at hreply
            refine ⟨?_, ?_⟩
            · dsimp only
              rw [hreply]
              exact (repliesOk_reply _).insert (by decide +kernel) (not_mem_decimal _)
                (by decide +kernel) (fun h => absurd h (by decide +kernel))
                fun h => absurd h (by decide +kernel)
            · intro reply' hvalue
              have hname : compare bytesName replyName ≠ .eq := by decide +kernel
              dsimp only at hvalue
              rw [Std.TreeMap.getElem?_insert, if_neg hname,
                Std.TreeMap.getElem?_insert_self] at hvalue
              cases hvalue
              exact ⟨rfl, header, conn, _, hheader, hconn, hreply, .get hget hobject, htransferred⟩

/-- The handler promises no transfer that the server has not made. -/
theorem handle_honest (device : RdmaDevice) (out : Outside) (req : HttpRequest)
    (env : Env TestServer) :
    Ensures (handle device out req) env (fun resp t => Honest device req env t resp)
      (fun _ => True) := by
  refine Ensures.ite (fun _ => honest_empty _ _) fun _ => Ensures.ite (fun _ => ?_) fun _ =>
    Ensures.get_bind ?_
  · refine honest_of_no_reply (repliesOk_empty.insert ?_ ?_ ?_ ?_ ?_) (by decide +kernel)
    · decide +kernel
    · decide +kernel
    · decide +kernel
    · exact fun h => absurd h (by decide +kernel)
    · exact fun h => absurd h (by decide +kernel)
  · cases htoken : req.headers[tokenName]? with
    | none => exact handleHttp_honest device req _ env
    | some token =>
        cases isReady env.obj with
        | false => exact handleHttp_honest device req _ env
        | true =>
            cases hparse : parseTokenHeader token with
            | none =>
                simp only [hparse]
                exact honest_empty _ _
            | some header =>
                simp only [hparse]
                exact handleRdma_honest htoken hparse device out env

end HipObject.Server
