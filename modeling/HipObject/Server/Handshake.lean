import HipObject.Server.HttpReceive
import HipObject.Server.Replies
import HipObject.Transfer.Success

/-!
# The handshake

A transfer from one end to the other: `runRdmaTransfer` with the callbacks of
`s3_curl_ops.cpp`, against the test server. The token goes out in a header, is cut by
the connection, received, parsed and served; the reply comes back in a header of the
response, of which the server may have sent only a part.

If the client counts the transfer as a success, each end has aimed its queue pair at
the one of the other.
-/

namespace HipObject.Server

open HipObject Codec Verification

/-! ### Sending a response -/

/-- What a turn of `sendAll` gets. -/
inductive Send where
  | sent (n : Nat)
  /-- `EINTR`, `EAGAIN` or `EWOULDBLOCK`. -/
  | retry
  | failed
  /-- The deadline passed before the call. -/
  | expired
  deriving DecidableEq

/-- What goes out, and whether that is all of it. Nothing is decided while it waits. -/
def sendAll (rest : Text) : List Send → Text × Option Bool
  | [] => ([], if rest = [] then some true else none)
  | answer :: answers =>
      if rest = [] then ([], some true)
      else
        match answer with
        | .expired => ([], some false)
        | .failed => ([], some false)
        | .retry => sendAll rest answers
        | .sent n =>
            let (out, result) := sendAll (rest.drop n) answers
            (rest.take n ++ out, result)

/-- What went out is the front of the data, and all of it exactly if `sendAll` says so. -/
theorem sendAll_spec (data : Text) (answers : List Send) :
    (sendAll data answers).1 <+: data ∧
      ((sendAll data answers).2 = some true ↔ (sendAll data answers).1 = data) := by
  induction answers generalizing data with
  | nil =>
      refine ⟨List.nil_prefix, ?_⟩
      simp only [sendAll]
      split_ifs with hempty
      · simp [hempty]
      · simp [Ne.symm hempty]
  | cons answer answers ih =>
      simp only [sendAll]
      split_ifs with hempty
      · simp [hempty]
      · cases answer with
        | expired => simp [Ne.symm hempty]
        | failed => simp [Ne.symm hempty]
        | retry => exact ih data
        | sent n =>
            obtain ⟨hbegins, hall⟩ := ih (data.drop n)
            have hdata := List.take_append_drop n data
            refine ⟨?_, hall.trans ?_⟩
            · obtain ⟨t, ht⟩ := hbegins
              refine ⟨t, ?_⟩
              dsimp only
              rw [List.append_assoc, ht, hdata]
            · dsimp only
              constructor
              · intro heq
                rw [heq, hdata]
              · intro heq
                nth_rewrite 3 [← hdata] at heq
                exact List.append_cancel_left heq

/-- A connection from its first byte to the last one that is sent on it. -/
def handleConnection (device : RdmaDevice) (out : Outside) (answers : List Recv)
    (sends : List Send) : VerbsM TestServer Text :=
  match receiveRequest answers with
  | .done (req, _) => do
      let resp ← handle device out req
      return (sendAll (serializeResponse resp) sends).1
  | .dropped => return []
  | .waiting => return []

/-! ### libcurl -/

/-- The headers that libcurl was told to send are among those it sends, and it sends no other
header of the same name. -/
structure Carries (fields : List HeaderField) (headers : List Text) : Prop where
  each : ∀ line ∈ headers, ∃ field ∈ fields, field.name ++ text ": " ++ field.value = line
  only : ∀ field ∈ fields, field.name.map toLower = tokenName ∨
    field.name.map toLower = text "content-length" →
      field.name ++ text ": " ++ field.value ∈ headers

/-- What libcurl writes for one request. -/
def Sends (ctx : CurlCtx) (token sent : Text) : Prop :=
  ∃ path version fields, IsWord path ∧ ascii '\n' ∉ version ∧
    Carries fields (customHeaders token) ∧
    sent = requestText (if ctx.isPut then PUT else GET) path version fields []

/-- One request of libcurl that the test server took from `env` to `t`. -/
def Exchanged (ctx : CurlCtx) (device : RdmaDevice) (env t : Env TestServer) (token : Text)
    (perform : Perform) : Prop :=
  ∃ sent answers sends out received, Sends ctx token sent ∧ stream answers <+: sent ∧
    handleConnection device out answers sends env = .ok received t ∧
    Delivered received perform.lines

/-! ### The request arrives -/

theorem eq_of_headerText {name name' value value' : Text} (h : ascii ':' ∉ name)
    (h' : ascii ':' ∉ name') (heq : name ++ text ": " ++ value = name' ++ text ": " ++ value') :
    name = name' ∧ value = value' := by
  have hcolon : ∀ s t : Text, s ++ text ": " ++ t = s ++ ascii ':' :: (ascii ' ' :: t) := by
    intro s t
    simp [text]
  rw [hcolon, hcolon] at heq
  have hbegins : name ++ [ascii ':'] <+: name' ++ ascii ':' :: (ascii ' ' :: value') := by
    refine ⟨ascii ' ' :: value, ?_⟩
    rw [List.append_assoc, List.singleton_append, heq]
  obtain rfl := name_eq_of_begins h h' hbegins
  have hrest := List.append_cancel_left heq
  simp only [List.cons.injEq, true_and] at hrest
  exact ⟨rfl, hrest⟩

/-- A header that is there, and that no other one contradicts, is the one that is read. -/
theorem lastValue_of_only {fields : List HeaderField} {name value : Text}
    (hsome : ∃ field ∈ fields, field.name.map toLower = name)
    (honly : ∀ field ∈ fields, field.name.map toLower = name → field.value = value) :
    lastValue fields name = some value := by
  rw [lastValue]
  cases hfind : fields.reverse.find? (fun field => field.name.map toLower = name) with
  | none =>
      obtain ⟨field, hmem, hname⟩ := hsome
      rw [List.find?_eq_none] at hfind
      exact absurd (by simpa using hname) (hfind field (List.mem_reverse.mpr hmem))
  | some field =>
      have hmem := List.mem_reverse.mp (List.mem_of_find?_eq_some hfind)
      have hname := List.find?_some hfind
      rw [Option.map_some, honly field hmem (by simpa using hname)]

theorem nul_not_mem_token (token : RdmaToken) : 0 ∉ encodeRdmaToken token := by
  intro hmem
  exact absurd (isHexDigit_of_mem_token hmem) (by decide)

theorem customHeaders_token (token : RdmaToken) :
    customHeaders (encodeRdmaToken token) =
      [tokenName ++ text ": " ++ encodeRdmaToken token,
        text "Content-Length" ++ text ": " ++ text "0"] := by
  have hname : text "x-amz-rdma-token: " = tokenName ++ text ": " := by decide +kernel
  have hlength : text "Content-Length: 0" = text "Content-Length" ++ text ": " ++ text "0" := by
    decide +kernel
  have hnul : ∀ c ∈ tokenName ++ text ": " ++ encodeRdmaToken token, (c != 0) = true := by
    intro c hc
    rw [bne_iff_ne]
    rintro rfl
    rcases List.mem_append.mp hc with hc | hc
    · exact absurd hc (by decide +kernel)
    · exact nul_not_mem_token token hc
  rw [customHeaders, hname, hlength, List.takeWhile_eq_self_iff.mpr hnul]

/-- The headers that the server reads from a request of the library. -/
theorem lastValue_of_carries {fields : List HeaderField} {token : RdmaToken}
    (h : Carries fields (customHeaders (encodeRdmaToken token))) :
    lastValue fields tokenName = some (encodeRdmaToken token) ∧
      lastValue fields (text "content-length") = some (text "0") := by
  have htoken : ascii ':' ∉ tokenName := by decide +kernel
  have hlength : ascii ':' ∉ text "Content-Length" := by decide +kernel
  have hlower : tokenName.map toLower = tokenName := by decide +kernel
  have hlower' : (text "Content-Length").map toLower = text "content-length" := by
    decide +kernel
  have hdiffer : text "content-length" ≠ tokenName := by decide +kernel
  rw [customHeaders_token] at h
  have hcases : ∀ field ∈ fields, field.name.map toLower = tokenName ∨
      field.name.map toLower = text "content-length" →
      field.name = tokenName ∧ field.value = encodeRdmaToken token ∨
        field.name = text "Content-Length" ∧ field.value = text "0" := by
    intro field hfield hname
    rcases List.mem_cons.mp (h.only field hfield hname) with heq | heq
    · exact .inl (eq_of_headerText field.colon htoken heq)
    · exact .inr (eq_of_headerText field.colon hlength (List.mem_singleton.mp heq))
  refine ⟨lastValue_of_only ?_ ?_, lastValue_of_only ?_ ?_⟩
  · obtain ⟨field, hfield, heq⟩ := h.each _ List.mem_cons_self
    exact ⟨field, hfield, by rw [(eq_of_headerText field.colon htoken heq).1, hlower]⟩
  · intro field hfield hname
    rcases hcases field hfield (.inl hname) with ⟨-, hvalue⟩ | ⟨hother, -⟩
    · exact hvalue
    · rw [hother, hlower'] at hname
      exact absurd hname hdiffer
  · obtain ⟨field, hfield, heq⟩ := h.each _ (List.mem_cons_of_mem _ List.mem_cons_self)
    exact ⟨field, hfield, by rw [(eq_of_headerText field.colon hlength heq).1, hlower']⟩
  · intro field hfield hname
    rcases hcases field hfield (.inr hname) with ⟨hother, -⟩ | ⟨-, hvalue⟩
    · rw [hother, hlower] at hname
      exact absurd hname.symm hdiffer
    · exact hvalue

/-- A request of the library that gets to the handler, from however much of it the server has
received. -/
theorem request_of_sends {ctx : CurlCtx} {token : RdmaToken} {sent : Text}
    {answers rest : List Recv}
    {req : HttpRequest} (hsends : Sends ctx (encodeRdmaToken token) sent)
    (hstream : stream answers <+: sent) (hdone : receiveRequest answers = .done (req, rest)) :
    req.method = (if ctx.isPut then PUT else GET) ∧ req.contentLength = 0 ∧
      req.headers[tokenName]? = some (encodeRdmaToken token) := by
  obtain ⟨path, version, fields, hpath, hversion, hcarries, rfl⟩ := hsends
  obtain ⟨htoken, hlength⟩ := lastValue_of_carries hcarries
  have hmethod : IsWord (if ctx.isPut then PUT else GET) := by
    have hwords : (∀ c ∈ PUT, isSpace c = false) ∧ ∀ c ∈ GET, isSpace c = false := by
      decide +kernel
    split_ifs
    · exact ⟨by decide +kernel, hwords.1⟩
    · exact ⟨by decide +kernel, hwords.2⟩
  have hzero : lastValue fields (text "content-length") =
      some (toDecimal (([] : Text).length : Nat)) := by
    rw [hlength]
    decide +kernel
  have hwhole := requestOf_requestText hmethod hpath hversion hzero (by decide)
  obtain ⟨front, back, headerEnd, rfl, -, -, hreq, -⟩ := receiveRequest_split hdone
  rw [← List.append_assoc, stream_append] at hstream
  obtain ⟨t, ht⟩ := (List.prefix_append _ _).trans hstream
  rw [← ht, requestOf_append hreq] at hwhole
  obtain ⟨method, path', headers, body, len⟩ := req
  simp only [Option.some.injEq, HttpRequest.mk.injEq] at hwhole
  obtain ⟨rfl, -, rfl, -, rfl⟩ := hwhole
  refine ⟨rfl, rfl, ?_⟩
  dsimp only
  rw [getElem?_foldl_addField, htoken]

/-- The token is read back, and has no suffix. -/
theorem parseTokenHeader_encode {token : RdmaToken} (h : token.HasTransport) :
    parseTokenHeader (encodeRdmaToken token) = some ⟨token, 0⟩ := by
  have hall : ∀ c ∈ encodeRdmaToken token, notColon c = true := by
    intro c hc
    have hne : c ≠ ascii ':' := by
      rintro rfl
      exact absurd (isHexDigit_of_mem_token hc) (by decide)
    simpa [notColon] using hne
  have htake := List.takeWhile_eq_self_iff.mpr hall
  have hdrop : (encodeRdmaToken token).dropWhile notColon = [] :=
    List.dropWhile_eq_nil_iff.mpr hall
  simp only [parseTokenHeader, htake, hdrop, decodeRdmaTokenHex_encode h]

/-! ### The response arrives -/

/-- A request counts as answered only if a reply was kept. -/
theorem lastReply_of_zero {ctx : CurlCtx} {perform : Perform}
    (h : (hipObjS3CurlSendRequest ctx perform).2 = 0) :
    (hipObjS3CurlSendRequest ctx perform).1.lastReply = perform.lines.foldl headerCallback [] ∧
      perform.lines.foldl headerCallback [] ≠ [] ∧ ∃ code, perform.code = some code := by
  unfold hipObjS3CurlSendRequest at h ⊢
  cases hsetUp : perform.setUp with
  | false => simp [hsetUp] at h
  | true =>
      cases hcode : perform.code with
      | none => simp [hsetUp, hcode] at h
      | some code =>
          simp only [hsetUp, hcode, Bool.not_true, Bool.false_eq_true, if_false] at h ⊢
          split_ifs at h ⊢ with hstatus hempty
          · simp at h
          · simp at h
          · exact ⟨rfl, hempty, code, rfl⟩

/-- The part of a response that was sent, if its head is complete, is read like all of it. -/
theorem Delivered.append {received : Text} {lines : List Text} (h : Delivered received lines)
    (rest : Text) : Delivered (received ++ rest) lines := by
  obtain ⟨head, body, rfl, hlines, hhead⟩ := h
  exact ⟨head, body ++ rest, by simp, hlines, hhead⟩

/-- The work request that the server posts for a token of the library. -/
inductive ClientWork (ctx : CurlCtx) (token : RdmaToken)
    (objects : Std.TreeMap Text (List Byte)) : SendWr → Prop where
  | put (isPut : ctx.isPut = true) : ClientWork ctx token objects
      ⟨.RDMA_READ, BitVec.ofNat 32 token.length.toNat, token.remoteAddr, token.rkey⟩
  | get {key : Text} {data : List Byte} (isGet : ctx.isPut = false)
      (stored : objects[key]? = some data) : ClientWork ctx token objects
      ⟨.RDMA_WRITE, BitVec.ofNat 32 data.length, token.remoteAddr, token.rkey⟩

theorem clientWork_of_workFor {ctx : CurlCtx} {token : RdmaToken} {req : HttpRequest}
    {objects : Std.TreeMap Text (List Byte)} {wr : SendWr}
    (hmethod : req.method = (if ctx.isPut then PUT else GET)) (hlength : req.contentLength = 0)
    (h : WorkFor req ⟨token, 0⟩ objects wr) : ClientWork ctx token objects wr := by
  cases h with
  | put hput =>
      have hsize : readSize ⟨token, 0⟩ req.contentLength = token.length := by
        rw [hlength]
        rfl
      rw [hsize]
      refine .put ?_
      cases hisPut : ctx.isPut with
      | true => rfl
      | false =>
          rw [hisPut] at hmethod
          exact absurd hput (get_ne_put hmethod)
  | get hget hstored =>
      refine .get ?_ hstored
      cases hisPut : ctx.isPut with
      | false => rfl
      | true =>
          rw [hisPut] at hmethod
          exact absurd hmethod (get_ne_put hget)

/-- A request that the client's callback counts as answered was served, and the reply that it
kept names the connection that served it. -/
theorem exchange_replies {ctx : CurlCtx} {device : RdmaDevice} {env t : Env TestServer}
    {token : RdmaToken} {perform : Perform} (htransport : token.HasTransport)
    (hexchanged : Exchanged ctx device env t (encodeRdmaToken token) perform)
    (hzero : (hipObjS3CurlSendRequest ctx perform).2 = 0) :
    ∃ conn wr, connOf env.obj = some conn ∧
      (hipObjS3CurlSendRequest ctx perform).1.lastReply = okReply (buildServerToken device conn) ∧
      ClientWork ctx token env.obj.objects wr ∧
      TransferredAndLeft conn token wr env.log t.log := by
  obtain ⟨sent, answers, sends, out, received, hsends, hstream, hhandled, hlines⟩ := hexchanged
  -- Without a request there is no response to read.
  have hnothing : received ≠ [] := by
    rintro rfl
    obtain ⟨head, body, hempty, -⟩ := hlines
    simp [crlf] at hempty
  cases hreceived : receiveRequest answers with
  | dropped =>
      simp only [handleConnection, hreceived] at hhandled
      cases hhandled
      exact absurd rfl hnothing
  | waiting =>
      simp only [handleConnection, hreceived] at hhandled
      cases hhandled
      exact absurd rfl hnothing
  | done r =>
      obtain ⟨req, rest⟩ := r
      obtain ⟨hmethod, hlength, htoken⟩ := request_of_sends hsends hstream hreceived
      have hhonest := handle_honest device out req env
      have hrun : Ensures (handleConnection device out answers sends) env
          (fun received t => ∃ resp, Honest device req env t resp ∧
            received = (sendAll (serializeResponse resp) sends).1) (fun _ => True) := by
        simp only [handleConnection, hreceived]
        refine Ensures.bind (hhonest.mono ?_ fun _ h => h)
        intro resp t hresp
        exact ⟨resp, hresp, rfl⟩
      obtain ⟨resp, hresp, rfl⟩ := hrun.ok hhandled
      obtain ⟨unsent, hunsent⟩ := (sendAll_spec (serializeResponse resp) sends).1
      have hlast : perform.lines.foldl headerCallback [] = (resp.headers[replyName]?).getD [] := by
        refine lastReply_of_delivered hresp.headers ?_
        rw [← hunsent]
        exact hlines.append unsent
      have hkept : (hipObjS3CurlSendRequest ctx perform).1.lastReply =
          (resp.headers[replyName]?).getD [] ∧ (resp.headers[replyName]?).getD [] ≠ [] := by
        rw [← hlast]
        obtain ⟨hkept, hsome, -⟩ := lastReply_of_zero hzero
        exact ⟨hkept, hsome⟩
      cases hreply : resp.headers[replyName]? with
      | none =>
          rw [hreply] at hkept
          exact absurd rfl hkept.2
      | some reply =>
          rw [hreply, Option.getD_some] at hkept
          obtain ⟨-, header, conn, wr, hheader, hconn, rfl, hwork, htransferred⟩ :=
            hresp.offloaded reply hreply
          rw [htoken, Option.bind_some, parseTokenHeader_encode htransport] at hheader
          cases hheader
          exact ⟨conn, wr, hconn, hkept.1, clientWork_of_workFor hmethod hlength hwork,
            htransferred⟩

/-! ### The library -/

theorem observe_answer {α : Type} (answer : Transfers.Trace → Option α)
    (event : α → Transfers.TransferEvent) (tr : Transfers.Trace) :
    Ensures (Transfers.observe answer event) tr
      (fun a t => answer tr = some a ∧ t = tr ++ [event a]) (fun _ => True) := by
  unfold Ensures Transfers.observe
  cases answer tr with
  | none => trivial
  | some a => exact ⟨rfl, rfl⟩

/-- What the callbacks answered in a transfer that succeeds, and the calls after it. -/
theorem transferOn_exchange (O : Transfers.Outside) (device : RdmaDevice) (conn : RcConnection)
    (buf : BufEntry) (size offset : BitVec 64) (tr : Transfers.Trace) :
    Ensures (Transfers.transferOn O device conn buf size offset) tr
      (fun r t => r = .Success → ∃ token replyLen replyBuf after,
        buildRdmaToken device conn.qp.qpNum buf size offset = some token ∧
        O.sendRequest tr (encodeRdmaToken token) = some 0 ∧
        O.recvReply (tr ++ [.sendRequest (encodeRdmaToken token) 0]) =
          some (0, replyLen, replyBuf) ∧
        t = tr ++ [.sendRequest (encodeRdmaToken token) 0,
            .recvReply 0 replyLen (replyBuf.take replyLen)] ++
          Transfers.connectTrace conn (parsePeerTokenFromReply (replyBuf.take replyLen)) ++ after)
      (fun _ => True) := by
  unfold Transfers.transferOn
  cases hbuilt : buildRdmaToken device conn.qp.qpNum buf size offset with
  | none =>
      intro h
      cases h
  | some token =>
      refine Ensures.bind (Ensures.bind ((observe_answer _ _ tr).mono ?_ fun _ h => h))
      rintro ret t ⟨hsent, rfl⟩
      refine Ensures.ite (fun _ h => ?_) fun hret => ?_
      · cases h
      obtain rfl : ret = 0 := by simpa using hret
      refine Ensures.bind (Ensures.bind ((observe_answer _ _ _).mono ?_ fun _ h => h))
      rintro ⟨ret, replyLen, replyBuf⟩ t ⟨hreceived, rfl⟩
      dsimp only
      refine Ensures.ite (fun _ h => ?_) fun hret => ?_
      · cases h
      refine Ensures.ite (fun _ h => ?_) fun hlen => ?_
      · cases h
      obtain rfl : ret = 0 := not_not.mp hret
      cases decodeRdmaReply (replyBuf.take replyLen) with
      | none =>
          intro h
          cases h
      | some status =>
          refine Ensures.ite (fun _ h => ?_) fun hstatus => ?_
          · cases h
          refine Ensures.bind ((Transfers.finishTransferAfterReply_spec conn _ _).mono ?_
            fun _ h => h)
          intro finished t hfinished
          cases finished with
          | false =>
              intro h
              cases h
          | true =>
              intro _
              obtain ⟨-, waits, wc, -, rfl⟩ := hfinished rfl
              exact ⟨token, replyLen, replyBuf, _, rfl, hsent, hreceived, by
                simp only [List.append_assoc]
                rfl⟩

/-- What `hipObjS3CurlRecvReply` returns, the length it sets, and the buffer it leaves. -/
def recvResult : Option Text → Int × Nat × List Byte
  | none => (-1, Transfers.kReplyBufLen, List.replicate Transfers.kReplyBufLen 0)
  | some reply =>
      (0, reply.length, reply ++ List.replicate (Transfers.kReplyBufLen - reply.length) 0)

/-- The callbacks of a transfer are those of `s3_curl_ops.cpp`, and `perform` is what libcurl
does when it is asked to send a token. -/
structure Wired (O : Transfers.Outside) (ctx : CurlCtx)
    (perform : Transfers.Trace → Text → Perform) : Prop where
  sendRequest : ∀ tr token,
    O.sendRequest tr token = some (hipObjS3CurlSendRequest ctx (perform tr token)).2
  recvReply : ∀ tr token ret, O.recvReply (tr ++ [.sendRequest token ret]) =
    some (recvResult (hipObjS3CurlRecvReply
      (hipObjS3CurlSendRequest ctx (perform tr token)).1 Transfers.kReplyBufLen))

/-- A token of the library names the queue pair of the lease. -/
theorem destOf_of_buildRdmaToken {device : RdmaDevice} {qpNum : BitVec 32} {buf : BufEntry}
    {size offset : BitVec 64} {token : RdmaToken}
    (h : buildRdmaToken device qpNum buf size offset = some token) :
    token.HasTransport ∧ destOf token = ⟨qpNum, device.localGid, 0⟩ := by
  unfold buildRdmaToken at h
  split_ifs at h
  cases h
  exact ⟨.inr rfl, rfl⟩

theorem parsePeerToken_okReply {token : RdmaToken} (h : token.HasTransport) :
    parsePeerTokenFromReply (okReply token) = some token :=
  (parsePeerTokenFromReply_eq_some_iff _ _).mpr ⟨200, grammar_okReply h⟩

/-- The library's buffer has room for a reply of the test server. -/
theorem recvReply_okReply {ctx : CurlCtx} {token : RdmaToken}
    (h : ctx.lastReply = okReply token) :
    recvResult (hipObjS3CurlRecvReply ctx Transfers.kReplyBufLen) =
      (0, (okReply token).length, okReply token ++
        List.replicate (Transfers.kReplyBufLen - (okReply token).length) 0) := by
  have hshort : (okReply token).length < Transfers.kReplyBufLen := (kept_okReply token).short
  rw [hipObjS3CurlRecvReply, h, if_neg (by omega)]
  rfl

/-- A transfer that succeeds, over `s3_curl_ops.cpp` and the test server, wherever the connection
cuts the request and however much of the response is sent: the server has aimed its queue pair at
the client's and posted one work request, at the client's buffer; the client has aimed its queue
pair at the one the server used, which the server has destroyed before it answered. A PUT
reads as much as the token allows, and a GET writes all of the object. -/
theorem transfer_connects_both_ends {O : Transfers.Outside} {ctx : CurlCtx}
    {perform : Transfers.Trace → Text → Perform} (hwired : Wired O ctx perform)
    (device serverDevice : RdmaDevice) (env : Env TestServer)
    (hserver : ∀ tr token code, (perform tr token).code = some code →
      ∃ t, Exchanged ctx serverDevice env t token (perform tr token))
    (buf : BufEntry) (size offset : BitVec 64) (tr : Transfers.Trace) :
    Ensures (Transfers.runRdmaTransfer O device buf size offset) tr
      (fun r t => r = .Success → ∃ conn token serverConn wr u before after,
        Exchanged ctx serverDevice env u (encodeRdmaToken token)
          (perform (tr ++ [.acquired conn]) (encodeRdmaToken token)) ∧
        buildRdmaToken device conn.qp.qpNum buf size offset = some token ∧
        destOf token = ⟨conn.qp.qpNum, device.localGid, 0⟩ ∧
        connOf env.obj = some serverConn ∧ ClientWork ctx token env.obj.objects wr ∧
        TransferredAndLeft serverConn token wr env.log u.log ∧ posted env.log u.log = [wr] ∧
        t = tr ++ [.acquired conn] ++ before ++
          (aimCalls conn ⟨serverConn.qp.qpNum, serverDevice.localGid, 0⟩).map (.verbs · true) ++
          after)
      (fun _ => True) := by
  unfold Transfers.runRdmaTransfer Ensures
  dsimp only
  cases O.acquire tr with
  | none => trivial
  | some result =>
      cases result with
      | error err =>
          intro h
          cases err <;> cases h
      | ok conn =>
          refine Transfers.leasing_spec ((transferOn_exchange O device conn buf size offset
            (tr ++ [.acquired conn])).mono ?_ fun _ h => h)
          intro r t hr hsuccess
          obtain ⟨token, replyLen, replyBuf, after, hbuilt, hsent, hreceived, rfl⟩ := hr hsuccess
          obtain ⟨htransport, hdest⟩ := destOf_of_buildRdmaToken hbuilt
          rw [hwired.sendRequest] at hsent
          have hzero := Option.some.inj hsent
          obtain ⟨-, -, code, hcode⟩ := lastReply_of_zero hzero
          obtain ⟨u, hexchanged⟩ := hserver _ _ code hcode
          obtain ⟨serverConn, wr, hconn, hlast, hwork, htransferred⟩ :=
            exchange_replies htransport hexchanged hzero
          rw [hwired.recvReply, recvReply_okReply hlast] at hreceived
          cases hreceived
          rw [List.take_left, parsePeerToken_okReply (.inr rfl)]
          exact ⟨conn, token, serverConn, wr, u, _, after ++ [.released], hexchanged, hbuilt, hdest,
            hconn, hwork, htransferred, htransferred.posted_eq, by
              simp only [List.append_assoc]
              rfl⟩

/-! ### A PUT of two bytes -/

/-- A staged buffer of two bytes. -/
def twoBytes : BufEntry :=
  ⟨some ⟨0, 64, 2⟩, ⟨1, 64, 2, 0⟩, 2, false, 64, false, 16, some ⟨none, none⟩⟩

def clientConn : RcConnection := ⟨⟨0, 1, []⟩, ⟨1, 9, .INIT, none⟩⟩

def clientToken : RdmaToken where
  transport := .RC
  qpNum := 9
  gid := plainDevice.localGid
  rkey := twoBytes.mr.rkey
  remoteAddr := twoBytes.remoteAddr
  length := 2
  portNum := plainDevice.portNum
  lid := 0

def putCtx : CurlCtx := ⟨none, none, none, true, []⟩

def tokenField : HeaderField where
  name := tokenName
  value := encodeRdmaToken clientToken
  colon := by decide +kernel
  plain_name := plain_of_ends (by decide +kernel) (by decide +kernel) (by decide +kernel)
  plain_value := plain_of_ends (by decide +kernel) (by decide +kernel) (by decide +kernel)

def lengthField : HeaderField where
  name := text "Content-Length"
  value := text "0"
  colon := not_mem_contentLength
  plain_name := plain_contentLength
  plain_value := plain_of_ends (by decide +kernel) (by decide +kernel) (by decide +kernel)

def putText : Text :=
  requestText PUT (text "/test/object") (text "HTTP/1.1") [tokenField, lengthField] []

theorem sends_putText : Sends putCtx (encodeRdmaToken clientToken) putText := by
  refine ⟨text "/test/object", text "HTTP/1.1", [tokenField, lengthField],
    ⟨by decide +kernel, by decide +kernel⟩, by decide +kernel, ?_, rfl⟩
  rw [customHeaders_token]
  refine ⟨?_, ?_⟩
  · intro line hline
    rcases List.mem_cons.mp hline with rfl | hline
    · exact ⟨tokenField, by simp, rfl⟩
    · exact ⟨lengthField, by simp, (List.mem_singleton.mp hline).symm⟩
  · intro field hfield _
    rcases List.mem_cons.mp hfield with rfl | hfield
    · exact List.mem_cons_self
    · rw [List.mem_singleton.mp hfield]
      exact List.mem_cons_of_mem _ List.mem_cons_self

/-- A server whose verbs all succeed. -/
def willingServer : Env TestServer where
  answers := List.replicate 7 (.success 0)
  log := [.createCq kCqSize, .createQp 0 kMaxSendWr kMaxRecvWr, .modifyQp 1 .INIT none]
  obj := ⟨∅, some ⟨fun _ => 0, some freshConn, false⟩⟩

def putResponse : HttpResponse :=
  ⟨200, withEtag
      ((∅ : HeaderMap).insert replyName (okReply (buildServerToken plainDevice freshConn))),
    []⟩

theorem handleConnection_putText :
    Ensures (handleConnection plainDevice oneByteArrives [.bytes putText] [.sent 1000])
      willingServer (fun received _ => received = serializeResponse putResponse)
      (fun _ => False) := by
  decide +kernel

/-- libcurl, with the test server as its only peer. -/
def putPerform (_ : Transfers.Trace) (token : Text) : Perform :=
  if token = encodeRdmaToken clientToken then ⟨true, headLines putResponse ++ [crlf], some 200⟩
  else ⟨true, [], none⟩

/-- The callbacks, and an outside where everything else works. -/
def putOutside : Transfers.Outside := { Transfers.smoothOutside with
  acquire := fun _ => some (.ok clientConn)
  verbs := fun _ => [.success 0, .success 0]
  arrivals := fun _ => [⟨true, 0, 0⟩]
  sendRequest := fun tr token => some (hipObjS3CurlSendRequest putCtx (putPerform tr token)).2
  recvReply := fun tr =>
    match tr.getLast? with
    | some (.sendRequest token _) => some (recvResult (hipObjS3CurlRecvReply
        (hipObjS3CurlSendRequest putCtx (putPerform tr.dropLast token)).1 Transfers.kReplyBufLen))
    | _ => none }

theorem wired_putOutside : Wired putOutside putCtx putPerform where
  sendRequest _ _ := rfl
  recvReply tr token ret := by simp [putOutside]

theorem exchanged_putPerform (tr : Transfers.Trace) (token : Text) (code : Int)
    (hcode : (putPerform tr token).code = some code) :
    ∃ t, Exchanged putCtx plainDevice willingServer t token (putPerform tr token) := by
  unfold putPerform at hcode ⊢
  split_ifs at hcode ⊢ with htoken
  subst htoken
  obtain ⟨received, t, hrun, rfl⟩ := handleConnection_putText.exists_ok
  refine ⟨t, putText, [.bytes putText], [.sent 1000], oneByteArrives, _, sends_putText, ?_, hrun,
    _, [], serializeResponse_eq putResponse, rfl, ?_⟩
  · simp
  · exact headLines_ok (repliesOk_reply _).withEtag.lines

theorem run_twoBytes :
    Ensures (Transfers.runRdmaTransfer putOutside plainDevice twoBytes 2 0) []
      (fun r _ => r = .Success) (fun _ => False) := by
  decide +kernel

theorem transfer_of_twoBytes :
    ∃ t, Transfers.runRdmaTransfer putOutside plainDevice twoBytes 2 0 [] = .ok .Success t ∧
      ∃ conn token serverConn wr u before after,
        Exchanged putCtx plainDevice willingServer u (encodeRdmaToken token)
          (putPerform ([] ++ [.acquired conn]) (encodeRdmaToken token)) ∧
        connOf willingServer.obj = some serverConn ∧
        TransferredAndLeft serverConn token wr willingServer.log u.log ∧
        posted willingServer.log u.log = [wr] ∧
        t = [] ++ [.acquired conn] ++ before ++
          (aimCalls conn ⟨serverConn.qp.qpNum, plainDevice.localGid, 0⟩).map (.verbs · true) ++
          after := by
  have hsuccess := run_twoBytes
  have hends := transfer_connects_both_ends wired_putOutside plainDevice plainDevice willingServer
    exchanged_putPerform twoBytes 2 0
  -- The run itself is not to be evaluated again.
  generalize Transfers.runRdmaTransfer putOutside plainDevice twoBytes 2 0 = x at hsuccess hends ⊢
  obtain ⟨r, t, hrun, rfl⟩ := hsuccess.exists_ok
  obtain ⟨conn, token, serverConn, wr, u, before, after, hexchanged, -, -, hconn, -, htransferred,
    hposted, htrace⟩ := (hends []).ok hrun rfl
  exact ⟨t, hrun, conn, token, serverConn, wr, u, before, after, hexchanged, hconn, htransferred,
    hposted, htrace⟩

end HipObject.Server
