import HipObject.Buffer.Landing
import HipObject.Server.Handshake

/-!
# What is put can be got

One client's `hipObjPut` and, later, another one's `hipObjGet` of the same key, over
the test server. The server reads the first client's memory, keeps the object, and
writes it to the second one's memory.

The two halves meet at the work requests that the server posts. Of the device it is
only asked that it carries them out: an RDMA READ brings bytes that the client's
memory had at the addresses of the request, and after an RDMA WRITE the client's
memory has, there, what the staging buffer has. Everything else is in the code:
which addresses and how many bytes the server asks for, what the library has put
there before, and where it takes the bytes to afterwards.
-/

namespace HipObject.Server

open HipObject Codec Verification

/-! ### The client's half -/

/-- A transfer of a registered buffer, whose staging buffer is apart from it, that runs
alone and at a time when no earlier copy is on its way to the buffer, and the token it has
minted. -/
structure ClientRun (setup : Setup) (op : Op) (e : BufEntry) (memory : Memory)
    (token : RdmaToken) (t : Transfer) : Prop where
  run : ∃ s c i, (instanceMachine setup).Reachable s ∧ c ∈ s.calls ∧ c.pc = .start ∧ c.op = op ∧
    s.lookupKey op.devPtr = some i ∧ s.entryAt i = some e ∧ e.Quiet s.Lands ∧
    (transferMachine setup s c memory).Reachable t
  apart : e.Apart
  minted : .minted token ∈ t.call.effects

namespace ClientRun

variable {setup : Setup} {op : Op} {e : BufEntry} {memory : Memory} {token : RdmaToken}
variable {t : Transfer}

theorem transferOk (h : ClientRun setup op e memory token t)
    (hop : op.isGet = true ∨ op.isPut = true) :
    ∃ lands, e.Quiet lands ∧ TransferOk lands op e memory t ∧ t.call.Working := by
  obtain ⟨s, c, i, hs, hc, hpc, rfl, hkey, he, hquiet, hrun⟩ := h.run
  obtain ⟨hstate, hmem⟩ := transfer_reachable hs hc hrun
  have hok := (callsOk_of_reachable hstate).calls t.call (List.mem_append_left _ hmem)
  exact ⟨s.Lands, hquiet, transferOk_of_reachable hs hc hpc hop hkey he h.apart hquiet hrun,
    working_of_effects hok (List.ne_nil_of_mem h.minted)⟩

/-- The token names the bytes of the memory region that the call asks for. -/
theorem token_eq (h : ClientRun setup op e memory token t)
    (hop : op.isGet = true ∨ op.isPut = true) :
    token.HasTransport ∧ token.remoteAddr = e.remoteAddr + op.offset ∧ token.length = op.size := by
  obtain ⟨lands, -, hok, hworking⟩ := h.transferOk hop
  obtain ⟨e', device, qpNum, hfound, hbuilt⟩ := hworking.tokens token h.minted
  obtain rfl := hok.found hfound
  rw [hok.same] at hbuilt
  obtain ⟨-, -, -, haddr, hlength⟩ := buildRdmaToken_some hbuilt
  exact ⟨(destOf_of_buildRdmaToken hbuilt).1, haddr, hlength⟩

/-- What is read during a `hipObjPut` is what the caller has. -/
theorem read_eq (h : ClientRun setup op e memory token t) (hput : op.isPut = true) {j : Nat}
    (hj : j < op.size.toNat) {byte : Byte}
    (hread : (token.remoteAddr + BitVec.ofNat 64 j, byte) ∈ t.reads) :
    byte = memory (op.devPtr + op.offset + BitVec.ofNat 64 j) := by
  obtain ⟨-, haddr, -⟩ := h.token_eq (.inr hput)
  obtain ⟨lands, -, hok, -⟩ := h.transferOk (.inr hput)
  exact hok.reads _ hread j hj (by rw [haddr])

/-- What is written during a `hipObjGet` that succeeds is what the caller gets. -/
theorem memory_eq (h : ClientRun setup op e memory token t) (hget : op.isGet = true)
    (hresult : t.call.result = some .Success) {j : Nat} (hj : j < op.size.toNat) {byte : Byte}
    (hwritten : lastStore t.writes (token.remoteAddr + BitVec.ofNat 64 j) = some byte) :
    t.memory (op.devPtr + op.offset + BitVec.ofNat 64 j) = byte := by
  obtain ⟨lands, hquiet, hok, hworking⟩ := h.transferOk (.inl hget)
  obtain ⟨-, haddr, -⟩ := h.token_eq (.inl hget)
  have hsettled : StagingOk e t .settled := by
    have hprogress := hok.progress
    unfold Call.result at hresult
    split at hresult
    · rename_i locals result hunwind
      cases hresult
      rwa [hunwind] at hprogress
    · cases hresult
  rw [(hok.staged_get (hok.spans hworking) h.apart hquiet hget hsettled).1 j hj]
  exact stored_lookup (haddr ▸ hwritten)

end ClientRun

/-! ### The server's half -/

/-- A request that carries a token of the library. -/
structure RequestFor (method key : Text) (token : RdmaToken) (req : HttpRequest) : Prop where
  method : req.method = method
  key : objectKey req.path = key
  token : req.headers[tokenName]? = some (encodeRdmaToken token)
  length : req.contentLength = 0

/-- A request whose answer has a reply went by RDMA. -/
theorem handle_of_reply (device : RdmaDevice) (out : Outside) (req : HttpRequest)
    (env : Env TestServer) {Q : Env TestServer → Prop}
    (hrdma : ∀ header, (req.headers[tokenName]?).bind parseTokenHeader = some header →
      Ensures (handleRdma device out req (objectKey req.path) header) env
        (fun resp t => (resp.headers[replyName]?).isSome = true → Q t) (fun _ => True)) :
    Ensures (handle device out req) env
      (fun resp t => (resp.headers[replyName]?).isSome = true → Q t) (fun _ => True) := by
  have hhttp : Ensures (handleHttp req (objectKey req.path)) env
      (fun resp t => (resp.headers[replyName]?).isSome = true → Q t) (fun _ => True) := by
    refine Ensures.ite (fun _ => Ensures.modify_bind ?_) fun _ =>
      Ensures.ite (fun _ => Ensures.get_bind ?_) fun _ => ?_
    · exact fun h => absurd h (by decide +kernel)
    · cases env.obj.objects[objectKey req.path]? with
      | none => exact fun h => absurd h (by decide +kernel)
      | some data => exact fun h => by simp at h
    · exact fun h => absurd h (by decide +kernel)
  refine Ensures.ite (fun _ => ?_) fun _ => Ensures.ite (fun _ => ?_) fun _ => Ensures.get_bind ?_
  · exact fun h => absurd h (by decide +kernel)
  · exact fun h => absurd h (by decide +kernel)
  · cases htoken : req.headers[tokenName]? with
    | none => exact hhttp
    | some token =>
        cases isReady env.obj with
        | false => exact hhttp
        | true =>
            cases hparse : parseTokenHeader token with
            | none =>
                simp only [hparse]
                exact fun h => absurd h (by decide +kernel)
            | some header =>
                simp only [hparse]
                exact hrdma header (by rw [htoken, Option.bind_some, hparse])

/-- What code of the server leaves in its `Impl`, if it succeeds. -/
theorem onImpl_some {α : Type} {x : VerbsM Impl (Option α)} {Q : Impl → Prop}
    (hx : ∀ env, Ensures x env (fun r t => r.isSome = true → Q t.obj) (fun _ => True))
    (env : Env TestServer) :
    Ensures (onImpl x) env (fun r t => r.isSome = true → ∃ impl, t.obj.impl = some impl ∧ Q impl)
      (fun _ => True) := by
  unfold Ensures onImpl
  cases env.obj.impl with
  | none => exact fun h => by cases h
  | some impl =>
      cases hrun : x ⟨env.answers, env.log, impl⟩ with
      | ok r t =>
          simp only [hrun]
          exact fun hsome => ⟨t.obj, rfl, (hx _).ok hrun hsome⟩
      | error e t => simp only [hrun]

theorem rdmaReadFromClient_size (device : RdmaDevice) (out : Outside) (header : TokenHeader)
    (size : BitVec 64) (env : Env Impl) :
    Ensures (rdmaReadFromClient device out header size) env
      (fun r _ => r.isSome = true → (readSize header size).toNat ≤ kStagingSize)
      (fun _ => True) := by
  refine Ensures.get_bind ?_
  cases env.obj.conn with
  | none => exact fun h => by cases h
  | some conn =>
      refine Ensures.ite (fun _ => fun h => by cases h) fun hsize => ?_
      exact Ensures.of_forall (fun _ _ _ => Nat.le_of_not_lt hsize) fun _ => trivial

/-! ### The staging buffer -/

def KeepsStaging (env t : Env Impl) : Prop := t.obj.staging = env.obj.staging

theorem chains_keepsStaging : Chains KeepsStaging where
  refl _ := rfl
  trans h h' := h'.trans h

theorem resetQp_keepsStaging : Along KeepsStaging resetQp := by
  intro env
  refine Ensures.get_bind ?_
  cases env.obj.conn with
  | none => rfl
  | some conn =>
      refine Ensures.modify_bind (Ensures.modify_bind (Ensures.bind
        ((createRcConnection_spec _ _ _).mono ?_ ?_)))
      · rintro made t ⟨hobj, -⟩
        have hkept : t.obj.staging = env.obj.staging := by rw [hobj]
        cases made with
        | none => exact hkept
        | some fresh => exact hkept
      · intro t hobj
        rw [KeepsStaging, hobj]

theorem onConn_keepsStaging {α : Type} (conn : RcConnection) (x : VerbsM RcConnection α) :
    Along KeepsStaging (onConn conn x) := by
  intro env
  unfold Ensures onConn
  cases x ⟨env.answers, env.log, conn⟩ with
  | ok a t => rfl
  | error e t => rfl

theorem guarded_keepsStaging {α : Type} {x : VerbsM Impl α} (hx : Along KeepsStaging x) :
    Along KeepsStaging (guarded resetQp x) := by
  intro env
  have hthen : ∀ t, KeepsStaging env t → Ensures resetQp t (fun _ => KeepsStaging env)
      fun u => KeepsStaging env (terminate u) := fun t ht =>
    (resetQp_keepsStaging t).mono (fun _ _ hu => hu.trans ht) fun _ hu => hu.trans ht
  exact guarded_spec ((hx env).mono (fun _ => hthen) hthen)

/-- The object is in the staging buffer when it has been written to the client. -/
theorem rdmaWriteToClient_staging (device : RdmaDevice) (out : Outside) (header : TokenHeader)
    (data : List Byte) (env : Env Impl) :
    Ensures (rdmaWriteToClient device out header data) env
      (fun r t => r.isSome = true → writeSize header data ≤ data.length ∧
        writeSize header data ≤ kStagingSize ∧
        ∀ j < writeSize header data, t.obj.staging j = data.getD j 0)
      (fun _ => True) := by
  refine Ensures.get_bind ?_
  cases env.obj.conn with
  | none => exact fun h => by cases h
  | some conn =>
      refine Ensures.ite (fun _ => fun h => by cases h) fun hsize => Ensures.modify_bind ?_
      refine Ensures.mono (guarded_keepsStaging (Along.bind chains_keepsStaging
        (onConn_keepsStaging _ _) ?_) _) ?_ fun _ _ => trivial
      · intro served
        cases served with
        | none => exact Along.pure chains_keepsStaging _
        | some serverToken => exact Along.pure chains_keepsStaging _
      · intro r t ht _
        obtain ⟨hdata, hstaging⟩ := not_or.mp hsize
        refine ⟨Nat.le_of_not_lt hdata, Nat.le_of_not_lt hstaging, ?_⟩
        intro j hj
        rw [ht]
        exact if_pos hj

/-! ### Requests with a token of the library -/

section Requests

variable {method key : Text} {token : RdmaToken} {req : HttpRequest} {resp : HttpResponse}
variable {device : RdmaDevice} {out : Outside} {env env' : Env TestServer}

theorem RequestFor.header (h : RequestFor method key token req) (htransport : token.HasTransport) :
    (req.headers[tokenName]?).bind parseTokenHeader = some ⟨token, 0⟩ := by
  rw [h.token, Option.bind_some, parseTokenHeader_encode htransport]

/-- An answer with a reply has posted a work request for the token. -/
theorem RequestFor.posts (h : RequestFor method key token req) (htransport : token.HasTransport)
    (hserved : handle device out req env = .ok resp env')
    (hreply : (resp.headers[replyName]?).isSome = true) :
    resp.status = 200 ∧
      ∃ wr ∈ posted env.log env'.log, WorkFor req ⟨token, 0⟩ env.obj.objects wr := by
  obtain ⟨reply, hvalue⟩ := Option.isSome_iff_exists.mp hreply
  obtain ⟨hstatus, header, conn, wr, hheader, -, -, hwork, hleft⟩ :=
    ((handle_honest device out req env).ok hserved).offloaded reply hvalue
  cases (h.header htransport).symm.trans hheader
  refine ⟨hstatus, wr, ?_, hwork⟩
  rw [hleft.posted_eq]
  exact List.mem_singleton_self wr

theorem RequestFor.readSize_eq (h : RequestFor method key token req) :
    readSize ⟨token, 0⟩ req.contentLength = token.length := by
  rw [h.length]
  rfl

/-- A PUT that is answered with a reply is not larger than the staging buffer. -/
theorem RequestFor.put_le (h : RequestFor PUT key token req) (htransport : token.HasTransport)
    (hserved : handle device out req env = .ok resp env')
    (hreply : (resp.headers[replyName]?).isSome = true) :
    token.length.toNat ≤ kStagingSize := by
  have hspec := handle_of_reply device out req env
    (Q := fun _ => token.length.toNat ≤ kStagingSize) ?_
  · exact hspec.ok hserved hreply
  · intro header hheader
    cases (h.header htransport).symm.trans hheader
    refine Ensures.ite (fun _ => ?_) fun hne => absurd h.method hne
    refine Ensures.bind ((onImpl_some (Q := fun _ => token.length.toNat ≤ kStagingSize) ?_
      env).mono ?_ fun _ h => h)
    · intro s
      rw [← h.readSize_eq]
      exact rdmaReadFromClient_size device out ⟨token, 0⟩ req.contentLength s
    · intro r u hu
      cases r with
      | none => exact fun h => by simp [failed] at h
      | some read =>
          obtain ⟨impl, -, hle⟩ := hu rfl
          exact Ensures.modify_bind fun _ => hle

/-- A GET that is answered with a reply has the object in the staging buffer. -/
theorem RequestFor.get_staged (h : RequestFor GET key token req) (htransport : token.HasTransport)
    {data : List Byte} (hdata : env.obj.objects[objectKey req.path]? = some data)
    (hserved : handle device out req env = .ok resp env')
    (hreply : (resp.headers[replyName]?).isSome = true) :
    ∃ impl, env'.obj.impl = some impl ∧ data.length ≤ kStagingSize ∧
      ∀ j < data.length, impl.staging j = data.getD j 0 := by
  have hspec := handle_of_reply device out req env
    (Q := fun u => ∃ impl, u.obj.impl = some impl ∧ data.length ≤ kStagingSize ∧
      ∀ j < data.length, impl.staging j = data.getD j 0) ?_
  · exact hspec.ok hserved hreply
  · intro header hheader
    cases (h.header htransport).symm.trans hheader
    refine Ensures.ite (fun hmethod => absurd hmethod (get_ne_put h.method)) fun _ => ?_
    refine Ensures.ite (fun _ => Ensures.get_bind ?_) fun hne => absurd h.method hne
    rw [hdata]
    refine Ensures.bind ((onImpl_some (Q := fun impl => data.length ≤ kStagingSize ∧
      ∀ j < data.length, impl.staging j = data.getD j 0) ?_ env).mono ?_ fun _ h => h)
    · exact fun s => (rdmaWriteToClient_staging device out ⟨token, 0⟩ data s).mono
        (fun _ _ h hsome => (h hsome).2) fun _ h => h
    · intro r u hu
      cases r with
      | none => exact fun h => by simp [failed] at h
      | some reply => exact fun _ => hu rfl

end Requests

/-! ### Where they meet -/

/-- The device has carried out an RDMA READ: each byte is one that the client's memory had. -/
def Brings (incoming : Nat → Byte) (t : Transfer) (wr : SendWr) : Prop :=
  wr.opcode = .RDMA_READ → ∀ j < wr.length.toNat,
    (wr.remoteAddr + BitVec.ofNat 64 j, incoming j) ∈ t.reads

/-- The device has carried out an RDMA WRITE, and nothing has been written there since. -/
def Leaves (staging : Nat → Byte) (t : Transfer) (wr : SendWr) : Prop :=
  wr.opcode = .RDMA_WRITE → ∀ j < wr.length.toNat,
    lastStore t.writes (wr.remoteAddr + BitVec.ofNat 64 j) = some (staging j)

theorem toNat_ofNat_of_le_staging {n : Nat} (h : n ≤ kStagingSize) :
    (BitVec.ofNat 32 n).toNat = n := by
  unfold kStagingSize at h
  rw [BitVec.toNat_ofNat]
  exact Nat.mod_eq_of_lt (by omega)

/-- The server has answered a request for a token with a reply. -/
def Answered (device : RdmaDevice) (out : Outside) (method key : Text) (token : RdmaToken)
    (env env' : Env TestServer) : Prop :=
  ∃ req resp, RequestFor method key token req ∧ handle device out req env = .ok resp env' ∧
    (resp.headers[replyName]?).isSome = true

section Meeting

variable {setup : Setup} {op : Op} {e : BufEntry} {memory : Memory} {token : RdmaToken}
variable {t : Transfer} {device : RdmaDevice} {out : Outside} {key : Text}
variable {env env' : Env TestServer}

/-- A PUT that is answered with a reply has stored the bytes that the client has. -/
theorem put_stores (hclient : ClientRun setup op e memory token t) (hput : op.isPut = true)
    (hanswered : Answered device out PUT key token env env')
    (hread : ∀ wr ∈ posted env.log env'.log, Brings out.incoming t wr) :
    env'.obj.objects[key]? = some ((List.range op.size.toNat).map fun j =>
      memory (op.devPtr + op.offset + BitVec.ofNat 64 j)) := by
  obtain ⟨req, resp, hreq, hserved, hreply⟩ := hanswered
  obtain ⟨htransport, -, hlength⟩ := hclient.token_eq (.inr hput)
  obtain ⟨hstatus, wr, hposted, hwork⟩ := hreq.posts htransport hserved hreply
  have hfits := hreq.put_le htransport hserved hreply
  have hsize := hreq.readSize_eq
  rw [hlength] at hfits hsize
  -- Every byte that was read is the caller's.
  have hincoming : ∀ j < op.size.toNat,
      out.incoming j = memory (op.devPtr + op.offset + BitVec.ofNat 64 j) := by
    intro j hj
    have hbrings := hread wr hposted
    cases hwork with
    | get hmethod => exact absurd hreq.method (get_ne_put hmethod)
    | put hmethod =>
        have hmem := hbrings rfl j
        rw [hsize, toNat_ofNat_of_le_staging hfits] at hmem
        exact hclient.read_eq hput hj (hmem hj)
  have hstored : stored ⟨req, out, resp⟩ = some ((List.range op.size.toNat).map out.incoming) := by
    simp only [stored, hreq.method, hstatus, hreply, hreq.header htransport, Option.map_some, hsize,
      and_self, if_true]
  rw [(handle_objects device out req env).ok hserved, getElem?_applyExchange, if_pos hreq.key,
    hstored]
  refine congrArg some ?_
  exact List.map_congr_left fun j hj => hincoming j (List.mem_range.mp hj)

/-- A GET that is answered with a reply has left the object in the client's memory. -/
theorem get_writes {data : List Byte} (htransport : token.HasTransport)
    (hanswered : Answered device out GET key token env env')
    (hdata : env.obj.objects[key]? = some data)
    (hwrite : ∀ wr ∈ posted env.log env'.log, ∀ impl ∈ env'.obj.impl, Leaves impl.staging t wr) :
    ∀ j < data.length, lastStore t.writes (token.remoteAddr + BitVec.ofNat 64 j) =
      some (data.getD j 0) := by
  obtain ⟨req, resp, hreq, hserved, hreply⟩ := hanswered
  have hobject : env.obj.objects[objectKey req.path]? = some data := by rw [hreq.key, hdata]
  obtain ⟨-, wr, hposted, hwork⟩ := hreq.posts htransport hserved hreply
  obtain ⟨impl, himpl, hfits, hstaging⟩ := hreq.get_staged htransport hobject hserved hreply
  have hleaves := hwrite wr hposted impl himpl
  intro j hj
  cases hwork with
  | put hmethod => exact absurd hmethod (get_ne_put hreq.method)
  | get hmethod hstored =>
      cases hobject.symm.trans hstored
      have hlast := hleaves rfl j
      rw [show writeSize ⟨token, 0⟩ data = data.length from rfl,
        toNat_ofNat_of_le_staging hfits] at hlast
      rw [hlast hj, hstaging j hj]

end Meeting

/-- A client puts an object, and later, with no other answered PUT of the key in between, a
client gets it. If the server has answered both with a reply, and the device has carried out
what the server has posted, a `hipObjGet` that succeeds leaves in its caller's memory the bytes
that the memory of the caller of `hipObjPut` had when that call began. Neither call shares
its buffer with another call, or with a staging copy that was there before it. -/
theorem get_brings_back_what_was_put {setup₁ setup₂ : Setup} {op₁ op₂ : Op} {e₁ e₂ : BufEntry}
    {memory₁ memory₂ : Memory} {token₁ token₂ : RdmaToken} {t₁ t₂ : Transfer}
    (hput : ClientRun setup₁ op₁ e₁ memory₁ token₁ t₁) (hisPut : op₁.isPut = true)
    (hget : ClientRun setup₂ op₂ e₂ memory₂ token₂ t₂) (hisGet : op₂.isGet = true)
    (hresult : t₂.call.result = some .Success) (hfits : op₁.size.toNat ≤ op₂.size.toNat)
    {device : RdmaDevice} {key : Text} {out₁ out₂ : Outside} {env env₁ env₂ env₃ : Env TestServer}
    {between : List (HttpRequest × Outside)} {run : List Exchange}
    (hanswered₁ : Answered device out₁ PUT key token₁ env env₁)
    (hbetween : serveAll device between env₁ = .ok run env₂) (hkept : lastStored key run = none)
    (hanswered₂ : Answered device out₂ GET key token₂ env₂ env₃)
    (hread : ∀ wr ∈ posted env.log env₁.log, Brings out₁.incoming t₁ wr)
    (hwrite : ∀ wr ∈ posted env₂.log env₃.log, ∀ impl ∈ env₃.obj.impl,
      Leaves impl.staging t₂ wr) :
    ∀ j < op₁.size.toNat, t₂.memory (op₂.devPtr + op₂.offset + BitVec.ofNat 64 j) =
      memory₁ (op₁.devPtr + op₁.offset + BitVec.ofNat 64 j) := by
  have hstored := put_stores hput hisPut hanswered₁ hread
  have hsame : env₂.obj.objects[key]? = env₁.obj.objects[key]? := by
    rw [(serveAll_objects device between env₁).ok hbetween, getElem?_foldl_applyExchange, hkept]
    rfl
  obtain ⟨htransport, -, -⟩ := hget.token_eq (.inl hisGet)
  have hwritten := get_writes htransport hanswered₂ (hsame.trans hstored) hwrite
  intro j hj
  refine hget.memory_eq hisGet hresult (by omega) ((hwritten j (by simpa using hj)).trans ?_)
  simp [List.getD_eq_getElem?_getD, hj]

/-! ### Two bytes -/

/-- The token of `stagedGet`. -/
def twoBytesToken : RdmaToken := ⟨9, .replicate 16 0, 7, 0x7008, 2, .RC, 1, 0⟩

def threeTwo : Memory := fun a => if a = 0x1008 then 3 else 2

/-- The staging copy of the two bytes at offset 8, to the staging buffer. -/
def flightThere : StagingCopy × Memcpy := (⟨6, 3, ⟨1, 0x7000, 64⟩⟩, ⟨0x7008, 0x1008, 2⟩)

/-- A `hipObjPut` of two bytes of a staged buffer. -/
def stagedPut : List TransferAction :=
  [.step .ok, .step .ok, .step .ok, .step (.statuses fun _ => ⟨.notReady, false, false⟩), .step .ok,
    .step .ok, .step .ok, .step .ok, .step .ok, .move flightThere 1, .move flightThere 0,
    .finishCopy flightThere.1, .step (.status .success false), .step .ok, .step .ok,
    .step (.lease (.ok 9)), .step .ok, .read 0x7008, .read 0x7009]

/-- What is asked of a run before its memory is looked at. -/
def mintsTwoBytes (op : Op) (p : Transfer → Bool) (s : InstanceState) (c : Call) (e : BufEntry)
    (t : Transfer) : Bool :=
  c.op = op ∧ c.pc = .start ∧ (s.lookupKey op.devPtr).bind s.entryAt = some e ∧
    e.key = 0x1000 ∧ e.size = 64 ∧ e.hostBuf = some ⟨1, 0x7000, 64⟩ ∧ s.inFlight = [] ∧
    .minted twoBytesToken ∈ t.call.effects ∧ p t = true

theorem exists_clientRun (op : Op) (memory : Memory) (actions : List TransferAction)
    (p : Transfer → Bool)
    (h : ((instanceMachine sampleSetup).runScript ScriptLine.action .initial
      (stagedRegistration ++ [.begin op])).any (fun s => s.calls.any fun c => s.heap.any fun cell =>
        ((transferMachine sampleSetup s c memory).exec ⟨s, c, memory, [], [], []⟩ actions).any
          (mintsTwoBytes op p s c cell.value)) = true) :
    ∃ e t, ClientRun sampleSetup op e memory twoBytesToken t ∧ p t = true := by
  obtain ⟨s, hs, hlast⟩ := Machine.exists_reachable_of_runScript (instanceMachine sampleSetup)
    ScriptLine.action _ _ rfl h
  obtain ⟨c, hc, hlast⟩ := List.any_eq_true.mp hlast
  obtain ⟨⟨i, useCount, e⟩, -, hlast⟩ := List.any_eq_true.mp hlast
  obtain ⟨t, ht, hlast⟩ := Machine.exists_reachable_of_exec _ _ _ rfl hlast
  obtain ⟨hop, hpc, hentry, hkey, hsize, hhostBuf, hnone, hminted, hp⟩ := of_decide_eq_true hlast
  obtain ⟨i, hlookup, he⟩ := Option.bind_eq_some_iff.mp hentry
  exact ⟨e, t, ⟨⟨s, c, i, hs, hc, hpc, hop, hlookup, he, quiet_of_none hnone, ht⟩,
    apart_of_staged hkey hsize hhostBuf, hminted⟩, hp⟩

def twoBytesRequest (method : Text) : HttpRequest :=
  ⟨method, text "/a", (∅ : HeaderMap).insert tokenName (encodeRdmaToken twoBytesToken), [], 0⟩

theorem requestFor_twoBytes (method : Text) :
    RequestFor method (text "a") twoBytesToken (twoBytesRequest method) where
  method := rfl
  key := by
    change objectKey (text "/a") = text "a"
    decide +kernel
  token := Std.TreeMap.getElem?_insert_self
  length := rfl

/-- What the server reads, and what it writes. -/
def twoBytesOut (opcode : Nat) : Outside :=
  ⟨[⟨true, opcode, 0⟩], 1, fun j => if j = 0 then 3 else 2⟩

/-- `willingServer`, with answers for two requests. -/
def patientServer : Env TestServer :=
  { willingServer with answers := List.replicate 14 (.success 0) }

theorem serve_twoBytes :
    Ensures (handle plainDevice (twoBytesOut IBV_WC_RDMA_READ) (twoBytesRequest PUT)) patientServer
      (fun resp u => (resp.headers[replyName]?).isSome = true ∧
        posted patientServer.log u.log = [⟨.RDMA_READ, 2, 0x7008, 7⟩] ∧
        Ensures (handle plainDevice (twoBytesOut IBV_WC_RDMA_WRITE) (twoBytesRequest GET)) u
          (fun resp' v => (resp'.headers[replyName]?).isSome = true ∧
            posted u.log v.log = [⟨.RDMA_WRITE, 2, 0x7008, 7⟩] ∧
            v.obj.impl.map (fun impl => (impl.staging 0, impl.staging 1)) = some (3, 2))
          (fun _ => False))
      (fun _ => False) := by
  decide +kernel

theorem answered_twoBytes :
    ∃ env₁ env₃,
      Answered plainDevice (twoBytesOut IBV_WC_RDMA_READ) PUT (text "a") twoBytesToken
        patientServer env₁ ∧
      Answered plainDevice (twoBytesOut IBV_WC_RDMA_WRITE) GET (text "a") twoBytesToken
        env₁ env₃ ∧
      posted patientServer.log env₁.log = [⟨.RDMA_READ, 2, 0x7008, 7⟩] ∧
      posted env₁.log env₃.log = [⟨.RDMA_WRITE, 2, 0x7008, 7⟩] ∧
      env₃.obj.impl.map (fun impl => (impl.staging 0, impl.staging 1)) = some (3, 2) := by
  obtain ⟨resp₁, env₁, hserved₁, hreply₁, hposted₁, hthen⟩ := serve_twoBytes.exists_ok
  obtain ⟨resp₂, env₃, hserved₂, hreply₂, hposted₂, hstaging⟩ := hthen.exists_ok
  exact ⟨env₁, env₃, ⟨_, resp₁, requestFor_twoBytes PUT, hserved₁, hreply₁⟩,
    ⟨_, resp₂, requestFor_twoBytes GET, hserved₂, hreply₂⟩, hposted₁, hposted₂, hstaging⟩

theorem put_twoBytes :
    ∃ e t, ClientRun sampleSetup (.put 0x1000 2 8 true) e threeTwo twoBytesToken t ∧
      (0x7008, 3) ∈ t.reads ∧ (0x7009, 2) ∈ t.reads := by
  obtain ⟨e, t, hrun, hreads⟩ := exists_clientRun (.put 0x1000 2 8 true) threeTwo stagedPut
    (fun t => (0x7008, 3) ∈ t.reads ∧ (0x7009, 2) ∈ t.reads) (by decide +kernel)
  exact ⟨e, t, hrun, of_decide_eq_true hreads⟩

theorem get_twoBytes :
    ∃ e t, ClientRun sampleSetup (.get 0x1000 2 8 true) e (fun _ => 0) twoBytesToken t ∧
      t.call.result = some .Success ∧ lastStore t.writes 0x7008 = some 3 ∧
      lastStore t.writes 0x7009 = some 2 := by
  obtain ⟨e, t, hrun, hwrites⟩ := exists_clientRun (.get 0x1000 2 8 true) (fun _ => 0) stagedGet
    (fun t => t.call.result = some .Success ∧ lastStore t.writes 0x7008 = some 3 ∧
      lastStore t.writes 0x7009 = some 2) (by decide +kernel)
  exact ⟨e, t, hrun, of_decide_eq_true hwrites⟩

theorem get_brings_back_two_bytes :
    ∃ e₁ t₁ e₂ t₂, ClientRun sampleSetup (.put 0x1000 2 8 true) e₁ threeTwo twoBytesToken t₁ ∧
      ClientRun sampleSetup (.get 0x1000 2 8 true) e₂ (fun _ => 0) twoBytesToken t₂ ∧
      t₂.call.result = some .Success ∧
      ∀ j < 2, t₂.memory (0x1000 + 8 + BitVec.ofNat 64 j) =
        threeTwo (0x1000 + 8 + BitVec.ofNat 64 j) := by
  obtain ⟨e₁, t₁, hput, hfirst, hsecond⟩ := put_twoBytes
  obtain ⟨e₂, t₂, hget, hresult, hfirst', hsecond'⟩ := get_twoBytes
  obtain ⟨env₁, env₃, hanswered₁, hanswered₂, hposted₁, hposted₂, hstaging⟩ := answered_twoBytes
  have hread : ∀ wr ∈ posted patientServer.log env₁.log,
      Brings (twoBytesOut IBV_WC_RDMA_READ).incoming t₁ wr := by
    rw [hposted₁]
    intro wr hwr _ j hj
    obtain rfl := List.mem_singleton.mp hwr
    replace hj : j < 2 := hj
    interval_cases j
    · exact hfirst
    · exact hsecond
  have hwrite : ∀ wr ∈ posted env₁.log env₃.log, ∀ impl ∈ env₃.obj.impl,
      Leaves impl.staging t₂ wr := by
    rw [hposted₂]
    intro wr hwr impl himpl _ j hj
    obtain rfl := List.mem_singleton.mp hwr
    rw [Option.mem_def.mp himpl, Option.map_some, Option.some.injEq, Prod.mk.injEq] at hstaging
    replace hj : j < 2 := hj
    interval_cases j
    · rw [hstaging.1]
      exact hfirst'
    · rw [hstaging.2]
      exact hsecond'
  -- The server's runs are not to be evaluated again.
  generalize patientServer = env at hanswered₁ hread
  have hbetween : serveAll plainDevice [] env₁ = .ok [] env₁ := rfl
  have hback := get_brings_back_what_was_put hput rfl hget rfl hresult
    (by decide) hanswered₁ hbetween rfl hanswered₂ hread hwrite
  refine ⟨e₁, t₁, e₂, t₂, hput, hget, hresult, ?_⟩
  intro j hj
  exact hback j hj

end HipObject.Server
