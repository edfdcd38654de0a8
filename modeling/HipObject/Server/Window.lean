import HipObject.Server.RdmaServer

/-!
# The window of a token

What the server reads or writes in the client's memory, against the length that
the client's token gives. A transfer posts at most one kind of work request, which
`Posts` names, so the question is how the size of the transfer was chosen. A size
from the suffix or from the token is inside; the size of the object, and the
Content-Length, are compared with the staging buffer and never with the token.

The connection is replaced on every way out, so the next client finds one in INIT
or none.
-/

namespace HipObject.Server

open HipObject Codec Verification

variable {σ α : Type} {P : SendWr → Prop}

/-! ### Headers -/

/-- A length in the suffix replaces the token's. -/
theorem length_of_parseTokenHeader {text : List Byte} {header : TokenHeader}
    (h : parseTokenHeader text = some header) (hlength : header.length ≠ 0) :
    header.token.length = header.length := by
  unfold parseTokenHeader at h
  split at h
  · cases h
  · split at h
    · cases h
      exact absurd rfl hlength
    · split at h
      · cases h
      · split at h
        · cases h
          exact if_pos hlength
        · cases h

/-! ### Posted requests -/

/-- The work requests that the code from `env` to `t` posted are in `P`. -/
def Posts (P : SendWr → Prop) (env t : Env σ) : Prop :=
  ∃ calls, t.log = env.log ++ calls ∧ ∀ qp wr, .postSend qp wr ∈ calls → P wr

theorem Posts.of_log_eq {env t : Env σ} (h : t.log = env.log) : Posts P env t :=
  ⟨[], by rw [h, List.append_nil], by simp⟩

theorem chains_posts : Chains (Posts P : Env σ → Env σ → Prop) where
  refl _ := Posts.of_log_eq rfl
  trans := by
    rintro s t u ⟨calls, ht, hcalls⟩ ⟨calls', hu, hcalls'⟩
    refine ⟨calls ++ calls', by rw [hu, ht, List.append_assoc], ?_⟩
    intro qp wr hmem
    rcases List.mem_append.mp hmem with hmem | hmem
    · exact hcalls qp wr hmem
    · exact hcalls' qp wr hmem

theorem call_posts {c : VerbsCall} (hc : ∀ qp wr, c = .postSend qp wr → P wr) :
    Along (Posts P) (call c : VerbsM σ Answer) := by
  have hposts : ∀ {env t : Env σ}, t.log = env.log ++ [c] → Posts P env t := by
    intro env t hlog
    refine ⟨[c], hlog, ?_⟩
    intro qp wr hmem
    exact hc qp wr (List.mem_singleton.mp hmem).symm
  intro env
  exact (call_succeeds c env).mono (fun _ _ h => hposts h.1) fun _ h => hposts h

theorem modify_posts {g : Env σ → Env σ} (h : ∀ env, (g env).log = env.log) :
    Along (Posts P) (modify g : VerbsM σ PUnit) :=
  Along.modify fun env => Posts.of_log_eq (h env)

/-- Calls that are appended to the log, and post nothing. -/
theorem append_posts {calls : List VerbsCall} (h : ∀ qp wr, .postSend qp wr ∉ calls) :
    Along (Posts P) (modify fun env => { env with log := env.log ++ calls } : VerbsM σ PUnit) :=
  Along.modify fun _ => ⟨calls, rfl, fun qp wr hmem => absurd hmem (h qp wr)⟩

theorem modifyQp_posts (target : QpState) (dest : Option Destination) :
    Along (Posts P) (modifyQp target dest) := by
  unfold modifyQp
  refine Along.bind chains_posts (Along.get chains_posts) fun env => ?_
  refine Along.bind chains_posts (call_posts (by rintro _ _ ⟨⟩)) ?_
  intro a
  cases a with
  | success value =>
      exact Along.bind chains_posts (modify_posts fun _ => rfl) fun _ => Along.pure chains_posts _
  | failure => exact Along.pure chains_posts _
  | throws => exact Along.pure chains_posts _

theorem pollCq_posts : Along (Posts P) pollCq := by
  unfold pollCq
  refine Along.bind chains_posts (Along.get chains_posts) fun env => ?_
  refine Along.bind chains_posts (call_posts (by rintro _ _ ⟨⟩)) ?_
  intro a
  cases a with
  | success value =>
      cases env.obj.cq.completions with
      | nil => exact Along.pure chains_posts _
      | cons wc rest =>
          exact Along.bind chains_posts (modify_posts fun _ => rfl)
            fun _ => Along.pure chains_posts _
  | failure => exact Along.pure chains_posts _
  | throws => exact Along.pure chains_posts _

theorem pollCompletion_posts (expectedOpcode : Option Nat) (rounds : Nat) :
    Along (Posts P) (pollCompletion expectedOpcode rounds) := by
  induction rounds with
  | zero => exact Along.pure chains_posts _
  | succ rounds ih =>
      refine Along.bind chains_posts pollCq_posts ?_
      intro polled
      cases roundResult expectedOpcode polled with
      | some result => exact Along.pure chains_posts _
      | none => exact ih

theorem connectRcPeer_posts (device : RdmaDevice) (peerToken : RdmaToken) :
    Along (Posts P) (connectRcPeer device peerToken) := by
  refine Along.ite (Along.pure chains_posts _) (Along.bind chains_posts ?_ ?_)
  · exact Along.ite (modifyQp_posts _ _) (Along.pure chains_posts _)
  · intro moved
    exact Along.ite (Along.pure chains_posts _) (modifyQp_posts _ _)

/-- The one place that posts a work request. -/
theorem postRdma_posts {opcode : WrOpcode} {size : Nat} {clientToken : RdmaToken} (out : Outside)
    (wcOpcode : Nat)
    (h : P ⟨opcode, BitVec.ofNat 32 size, clientToken.remoteAddr, clientToken.rkey⟩) :
    Along (Posts P) (postRdma out opcode wcOpcode size clientToken) := by
  refine Along.bind chains_posts (Along.get chains_posts) fun env => ?_
  refine Along.bind chains_posts (call_posts ?_) ?_
  · rintro qp wr ⟨⟩
    exact h
  · intro a
    cases a with
    | success value =>
        exact Along.bind chains_posts (modify_posts fun _ => rfl)
          fun _ => pollCompletion_posts _ _
    | failure => exact Along.pure chains_posts _
    | throws => exact Along.pure chains_posts _

/-- Nothing is posted for a client that is not connected to. -/
theorem serve_posts {post : VerbsM RcConnection Bool} {clientToken : RdmaToken}
    (device : RdmaDevice) (h : clientToken.transport = .RC → Along (Posts P) post) :
    Along (Posts P) (serve device clientToken post) := by
  by_cases htransport : clientToken.transport = .RC
  · refine Along.bind chains_posts (connectRcPeer_posts _ _) fun connected => ?_
    refine Along.ite (Along.pure chains_posts _)
      (Along.bind chains_posts (h htransport) fun posted => ?_)
    refine Along.ite (Along.pure chains_posts _) ?_
    exact Along.bind chains_posts (Along.get chains_posts) fun _ => Along.pure chains_posts _
  · have hrefused : serve device clientToken post = pure none := by
      unfold serve connectRcPeer
      rw [if_pos htransport]
      rfl
    rw [hrefused]
    exact Along.pure chains_posts _

theorem onConn_posts {conn : RcConnection} {x : VerbsM RcConnection α}
    (h : Along (Posts P) x) : Along (Posts P) (onConn conn x) := by
  intro env
  have hx := h ⟨env.answers, env.log, conn⟩
  unfold Ensures onConn
  cases hrun : x ⟨env.answers, env.log, conn⟩ with
  | ok a t => exact hx.ok hrun
  | error e t => exact hx.error hrun

theorem onLocal_posts {conn : RcConnection} {x : VerbsM RcConnection α}
    (h : Along (Posts P) x) : Along (Posts P) (onLocal conn x : VerbsM σ (α × RcConnection)) := by
  intro env
  have hx := h ⟨env.answers, env.log, conn⟩
  unfold Ensures onLocal
  cases hrun : x ⟨env.answers, env.log, conn⟩ with
  | ok a t => exact hx.ok hrun
  | error e t =>
      obtain ⟨calls, hlog, hcalls⟩ := hx.error hrun
      refine ⟨calls ++ [.destroyQp t.obj.qp.id, .destroyCq t.obj.cq.id], ?_, ?_⟩
      · change t.log ++ _ = env.log ++ _
        rw [hlog, List.append_assoc]
      · intro qp wr hmem
        exact hcalls qp wr (by simpa using hmem)

theorem createRcConnection_posts (cqSize maxSendWr maxRecvWr : Nat) :
    Along (Posts P)
      (createRcConnection cqSize maxSendWr maxRecvWr : VerbsM σ (Option RcConnection)) := by
  refine Along.bind chains_posts (Along.get chains_posts) fun _ => ?_
  refine Along.bind chains_posts (call_posts (by rintro _ _ ⟨⟩)) ?_
  intro a
  cases a with
  | success cqe =>
      refine Along.bind chains_posts (Along.get chains_posts) fun _ => ?_
      refine Along.bind chains_posts (Along.tryCatch chains_posts
        (call_posts (by rintro _ _ ⟨⟩)) fun e => ?_) ?_
      · exact Along.bind chains_posts (append_posts (by simp)) fun _ => Along.throw chains_posts e
      · intro b
        cases b with
        | success qpNum =>
            refine Along.bind chains_posts (onLocal_posts (modifyQp_posts _ _)) fun made => ?_
            refine Along.ite (Along.pure chains_posts _) ?_
            exact Along.bind chains_posts (append_posts (by simp)) fun _ =>
              Along.pure chains_posts _
        | failure =>
            exact Along.bind chains_posts (append_posts (by simp)) fun _ =>
              Along.pure chains_posts _
        | throws =>
            exact Along.bind chains_posts (append_posts (by simp)) fun _ =>
              Along.pure chains_posts _
  | failure => exact Along.pure chains_posts _
  | throws => exact Along.pure chains_posts _

theorem resetQp_posts : Along (Posts P) resetQp := by
  refine Along.bind chains_posts (Along.get chains_posts) fun env => ?_
  cases env.obj.conn with
  | none => exact Along.pure chains_posts _
  | some conn =>
      refine Along.bind chains_posts (append_posts (by simp)) fun _ => ?_
      refine Along.bind chains_posts (modify_posts fun _ => rfl) fun _ => ?_
      refine Along.bind chains_posts (createRcConnection_posts _ _ _) fun made => ?_
      cases made with
      | none => exact Along.pure chains_posts _
      | some fresh => exact modify_posts fun _ => rfl

/-- The cleanup runs from whatever the guarded code leaves behind. -/
theorem guarded_spec {cleanup : VerbsM Impl Unit} {x : VerbsM Impl α} {env : Env Impl}
    {Q : α → Env Impl → Prop} {E : Env Impl → Prop}
    (h : Ensures x env
      (fun a t => Ensures cleanup t (fun _ => Q a) fun u => E (terminate u))
      (fun t => Ensures cleanup t (fun _ => E) fun u => E (terminate u))) :
    Ensures (guarded cleanup x) env Q E := by
  unfold Ensures guarded
  cases hrun : x env with
  | ok a t =>
      have ht := h.ok hrun
      cases hclean : cleanup t with
      | ok _ u =>
          simp only [hclean]
          exact ht.ok hclean
      | error e u =>
          simp only [hclean]
          exact ht.error hclean
  | error e t =>
      have ht := h.error hrun
      cases hclean : cleanup t with
      | ok _ u =>
          simp only [hclean]
          exact ht.ok hclean
      | error e' u =>
          simp only [hclean]
          exact ht.error hclean

theorem guarded_posts {cleanup : VerbsM Impl Unit} {x : VerbsM Impl α}
    (hcleanup : Along (Posts P) cleanup) (hx : Along (Posts P) x) :
    Along (Posts P) (guarded cleanup x) := by
  intro env
  -- Marking the server as terminated makes no call.
  have hthen : ∀ t, Posts P env t → Ensures cleanup t (fun _ => Posts P env)
      fun u => Posts P env (terminate u) := by
    intro t ht
    refine (hcleanup t).mono (fun _ u hu => chains_posts.trans ht hu) ?_
    intro u hu
    exact chains_posts.trans (chains_posts.trans ht hu) (Posts.of_log_eq rfl)
  exact guarded_spec ((hx env).mono (fun _ => hthen) hthen)

/-! ### The connection afterwards -/

/-- The server's connection, if it has one, can be connected to the next client. -/
def Ready (impl : Impl) : Prop := ∀ conn, impl.conn = some conn → conn.qp.state = .INIT

/-- Nothing is asked of the connection that is replaced. -/
theorem resetQp_spec (env : Env Impl) :
    Ensures resetQp env (fun _ t => Ready t.obj) (fun _ => True) := by
  refine Ensures.get_bind ?_
  cases hconn : env.obj.conn with
  | none =>
      intro conn h
      cases hconn.symm.trans h
  | some conn =>
      refine Ensures.modify_bind (Ensures.modify_bind (Ensures.bind
        ((createRcConnection_spec _ _ _).mono ?_ fun _ _ => trivial)))
      rintro made t ⟨hobj, hmade⟩
      cases made with
      | none =>
          rw [Ensures.pure_iff, hobj]
          intro conn h
          cases h
      | some fresh =>
          rintro conn ⟨⟩
          exact (hmade fresh rfl).1

theorem guarded_resetQp (x : VerbsM Impl α) (env : Env Impl) :
    Ensures (guarded resetQp x) env (fun _ t => Ready t.obj)
      (fun t => t.obj.terminated = true ∨ Ready t.obj) := by
  refine guarded_spec (Ensures.of_forall ?_ ?_)
  · intro _ t
    exact (resetQp_spec t).mono (fun _ _ h => h) fun _ _ => .inl rfl
  · intro t
    exact (resetQp_spec t).mono (fun _ _ h => .inr h) fun _ _ => .inl rfl

/-! ### Transfers -/

/-- A work request for `n` bytes, which all fit its length and the staging buffer,
and which reaches no further into the client's memory than the token. -/
structure InWindow (token : RdmaToken) (n : Nat) (wr : SendWr) : Prop where
  remoteAddr : wr.remoteAddr = token.remoteAddr
  length : wr.length.toNat = n
  le_token : n ≤ token.length.toNat
  le_staging : n ≤ kStagingSize

/-- A transfer of `n` bytes that stays inside the token, and that leaves nothing
of this client on the connection unless it never touched it. -/
def StaysInside (token : RdmaToken) (n : Nat) (x : VerbsM Impl α) : Prop :=
  ∀ env, Ensures x env
    (fun _ t => Posts (InWindow token n) env t ∧ (t = env ∨ Ready t.obj))
    (fun t => Posts (InWindow token n) env t ∧ (t.obj.terminated = true ∨ Ready t.obj))

/-- A size that the staging buffer holds fits the 32 bits of a request. -/
theorem inWindow_of_le {token : RdmaToken} {n : Nat} (opcode : WrOpcode)
    (htoken : n ≤ token.length.toNat) (hstaging : n ≤ kStagingSize) :
    InWindow token n ⟨opcode, BitVec.ofNat 32 n, token.remoteAddr, token.rkey⟩ := by
  refine ⟨rfl, ?_, htoken, hstaging⟩
  unfold kStagingSize at hstaging
  rw [BitVec.toNat_ofNat]
  exact Nat.mod_eq_of_lt (by omega)

/-- What the guard does to a transfer, from a state that differs in the staging
buffer only. -/
theorem guarded_staysInside {token : RdmaToken} {n : Nat} {x : VerbsM Impl α} {env s : Env Impl}
    (hx : Along (Posts (InWindow token n)) x) (hlog : s.log = env.log) :
    Ensures (guarded resetQp x) s
      (fun _ t => Posts (InWindow token n) env t ∧ (t = env ∨ Ready t.obj))
      (fun t => Posts (InWindow token n) env t ∧ (t.obj.terminated = true ∨ Ready t.obj)) := by
  have hposts : ∀ t, Posts (InWindow token n) s t → Posts (InWindow token n) env t := by
    rintro t ⟨calls, ht, hcalls⟩
    exact ⟨calls, by rw [ht, hlog], hcalls⟩
  refine ((guarded_posts resetQp_posts hx s).and (guarded_resetQp x s)).mono ?_ ?_
  · rintro _ t ⟨ht, hready⟩
    exact ⟨hposts t ht, .inr hready⟩
  · rintro t ⟨ht, hready⟩
    exact ⟨hposts t ht, hready⟩

/-- A refused transfer changes nothing. -/
theorem staysInside_refused {token : RdmaToken} {n : Nat} (a : α) (env : Env Impl) :
    Ensures (pure a : VerbsM Impl α) env
      (fun _ t => Posts (InWindow token n) env t ∧ (t = env ∨ Ready t.obj))
      (fun t => Posts (InWindow token n) env t ∧ (t.obj.terminated = true ∨ Ready t.obj)) :=
  Ensures.pure_iff.mpr ⟨Posts.of_log_eq rfl, .inl rfl⟩

theorem rdmaWriteToClient_staysInside {header : TokenHeader} {data : List Byte}
    (h : header.token.transport = .RC → writeSize header data ≤ kStagingSize →
      writeSize header data ≤ header.token.length.toNat) (device : RdmaDevice) (out : Outside) :
    StaysInside header.token (writeSize header data)
      (rdmaWriteToClient device out header data) := by
  intro env
  refine Ensures.get_bind ?_
  cases env.obj.conn with
  | none => exact staysInside_refused _ env
  | some conn =>
      refine Ensures.ite (fun _ => staysInside_refused _ env) fun hfits => ?_
      have hstaging : writeSize header data ≤ kStagingSize := by omega
      refine Ensures.modify_bind (guarded_staysInside ?_ rfl)
      refine Along.bind chains_posts (onConn_posts (serve_posts device fun hrc => ?_))
        fun served => ?_
      · exact postRdma_posts _ _ (inWindow_of_le _ (h hrc hstaging) hstaging)
      · cases served <;> exact Along.pure chains_posts _

theorem rdmaReadFromClient_staysInside {header : TokenHeader} {size : BitVec 64}
    (h : header.token.transport = .RC → (readSize header size).toNat ≤ kStagingSize →
      (readSize header size).toNat ≤ header.token.length.toNat)
    (device : RdmaDevice) (out : Outside) :
    StaysInside header.token (readSize header size).toNat
      (rdmaReadFromClient device out header size) := by
  intro env
  refine Ensures.get_bind ?_
  cases env.obj.conn with
  | none => exact staysInside_refused _ env
  | some conn =>
      refine Ensures.ite (fun _ => staysInside_refused _ env) fun hfits => ?_
      have hstaging : (readSize header size).toNat ≤ kStagingSize := by omega
      refine guarded_staysInside ?_ rfl
      refine Along.bind chains_posts (onConn_posts (serve_posts device fun hrc => ?_))
        fun served => ?_
      · exact postRdma_posts _ _ (inWindow_of_le _ (h hrc hstaging) hstaging)
      · cases served with
        | none => exact Along.pure chains_posts _
        | some serverToken =>
            exact Along.bind chains_posts (modify_posts fun _ => rfl)
              fun _ => Along.pure chains_posts _

/-! ### A transfer that is posted -/

/-- Afterwards `c` is among the calls. -/
def Logs (c : VerbsCall) (x : VerbsM σ α) (env : Env σ) : Prop :=
  Ensures x env (fun _ t => c ∈ t.log) (fun t => c ∈ t.log)

theorem onConn_logs {c : VerbsCall} {conn : RcConnection} {x : VerbsM RcConnection α}
    {env : Env Impl} (h : Logs c x ⟨env.answers, env.log, conn⟩) : Logs c (onConn conn x) env := by
  unfold Logs Ensures onConn
  cases hrun : x ⟨env.answers, env.log, conn⟩ with
  | ok a t => exact h.ok hrun
  | error e t => exact h.error hrun

/-- What was logged before a reset stays logged. -/
theorem guarded_logs {c : VerbsCall} {x : VerbsM Impl α} {env : Env Impl} (h : Logs c x env) :
    Logs c (guarded resetQp x) env := by
  have hkept : ∀ t : Env Impl, c ∈ t.log →
      Ensures resetQp t (fun _ u => c ∈ u.log) fun u => c ∈ (terminate u).log := by
    intro t ht
    have hgrows : ∀ u, Posts (fun _ => True) t u → c ∈ u.log := by
      rintro u ⟨calls, hlog, -⟩
      rw [hlog]
      exact List.mem_append_left _ ht
    exact (resetQp_posts t).mono (fun _ => hgrows) hgrows
  exact guarded_spec (h.mono (fun _ => hkept) hkept)

/-- A server whose next three verbs succeed: two to connect, and one to post. -/
def plainDevice : RdmaDevice := ⟨1, 0, Vector.replicate 16 0⟩

def freshConn : RcConnection := ⟨⟨0, kCqSize, []⟩, ⟨1, 7, .INIT, none⟩⟩

def plainEnv : Env Impl :=
  ⟨[.success 0, .success 0, .success 0], [], ⟨fun _ => 0, some freshConn, false⟩⟩

/-- Nothing arrives, and the deadline passes before the first poll. -/
def nothingArrives : Outside := ⟨[], 0, fun _ => 0⟩

/-- The server posts the request for a connected client, whatever its size. -/
theorem serve_plain {token : RdmaToken} (hrc : token.transport = .RC) (opcode : WrOpcode)
    (wcOpcode n : Nat) :
    Logs (.postSend 1 ⟨opcode, BitVec.ofNat 32 n, token.remoteAddr, token.rkey⟩)
      (serve plainDevice token (postRdma nothingArrives opcode wcOpcode n token))
      ⟨plainEnv.answers, [], freshConn⟩ := by
  obtain ⟨qpNum, gid, rkey, remoteAddr, length, transport, portNum, lid⟩ := token
  cases hrc
  exact List.mem_append_right _ (List.mem_singleton_self _)

/-- A request in the log of a run from an empty one is in the window. -/
theorem StaysInside.le_token {token : RdmaToken} {n qp : Nat} {x : VerbsM Impl α} {wr : SendWr}
    (h : StaysInside token n x) (hlogs : Logs (.postSend qp wr) x plainEnv) :
    n ≤ token.length.toNat := by
  have hwindow : ∀ t, Posts (InWindow token n) plainEnv t → .postSend qp wr ∈ t.log →
      n ≤ token.length.toNat := by
    rintro t ⟨calls, hlog, hcalls⟩ hmem
    rw [hlog] at hmem
    exact (hcalls qp wr hmem).le_token
  cases hrun : x plainEnv with
  | ok a t => exact hwindow t ((h plainEnv).ok hrun).1 (hlogs.ok hrun)
  | error e t => exact hwindow t ((h plainEnv).error hrun).1 (hlogs.error hrun)

theorem rdmaWriteToClient_plain {header : TokenHeader} {data : List Byte}
    (hrc : header.token.transport = .RC) (hdata : writeSize header data ≤ data.length)
    (hstaging : writeSize header data ≤ kStagingSize) :
    Logs (.postSend 1 ⟨.RDMA_WRITE, BitVec.ofNat 32 (writeSize header data),
        header.token.remoteAddr, header.token.rkey⟩)
      (rdmaWriteToClient plainDevice nothingArrives header data) plainEnv := by
  refine Ensures.get_bind (Ensures.ite (fun hrefused => by omega) fun _ => ?_)
  refine Ensures.modify_bind (guarded_logs (Ensures.bind ?_))
  refine Ensures.mono (onConn_logs ?_) ?_ fun _ h => h
  · exact serve_plain hrc .RDMA_WRITE IBV_WC_RDMA_WRITE _
  · intro served t ht
    cases served with
    | none => exact ht
    | some serverToken => exact ht

theorem rdmaReadFromClient_plain {header : TokenHeader} {size : BitVec 64}
    (hrc : header.token.transport = .RC)
    (hstaging : (readSize header size).toNat ≤ kStagingSize) :
    Logs (.postSend 1 ⟨.RDMA_READ, BitVec.ofNat 32 (readSize header size).toNat,
        header.token.remoteAddr, header.token.rkey⟩)
      (rdmaReadFromClient plainDevice nothingArrives header size) plainEnv := by
  refine Ensures.get_bind (Ensures.ite (fun hrefused => by omega) fun _ => ?_)
  refine guarded_logs (Ensures.bind ?_)
  refine Ensures.mono (onConn_logs ?_) ?_ fun _ h => h
  · exact serve_plain hrc .RDMA_READ IBV_WC_RDMA_READ _
  · intro served t ht
    cases served with
    | none => exact ht
    | some serverToken => exact ht

/-! ### When a transfer stays inside -/

theorem readSize_zero {text : List Byte} {header : TokenHeader}
    (hparse : parseTokenHeader text = some header) : readSize header 0 = header.token.length := by
  unfold readSize
  by_cases hlength : header.length = 0
  · simp [hlength]
  · simp [length_of_parseTokenHeader hparse hlength]

theorem readSize_of_ne_zero {header : TokenHeader} {size : BitVec 64} (hsize : size ≠ 0) :
    readSize header size = size := by
  have hgiven : (if size ≠ 0 then size else header.length) = size := if_pos hsize
  simp only [readSize, hgiven]
  exact if_neg hsize

/-- The object's size is used without a suffix, and is not compared with the token. -/
theorem rdmaWriteToClient_staysInside_iff {text : List Byte} {header : TokenHeader}
    (hparse : parseTokenHeader text = some header) (data : List Byte) :
    (∀ device out, StaysInside header.token (writeSize header data)
        (rdmaWriteToClient device out header data)) ↔
      header.length ≠ 0 ∨ data.length ≤ header.token.length.toNat ∨
        kStagingSize < data.length ∨ header.token.transport ≠ .RC := by
  constructor
  · intro h
    by_contra hnot
    simp only [not_or, ne_eq, not_not, not_le, not_lt] at hnot
    obtain ⟨hlength, hwindow, hstaging, hrc⟩ := hnot
    have hsize : writeSize header data = data.length := if_pos hlength
    have hle := (h plainDevice nothingArrives).le_token
      (rdmaWriteToClient_plain hrc hsize.le (hsize.trans_le hstaging))
    omega
  · intro h
    refine rdmaWriteToClient_staysInside fun hrc hstaging => ?_
    by_cases hlength : header.length = 0
    · have hsize : writeSize header data = data.length := if_pos hlength
      rcases h with h | h | h | h
      · exact absurd hlength h
      · exact hsize.trans_le h
      · omega
      · exact absurd hrc h
    · rw [length_of_parseTokenHeader hparse hlength, writeSize, if_neg hlength]

/-- A Content-Length is used before the suffix and the token, and is compared with
neither. -/
theorem rdmaReadFromClient_staysInside_iff {text : List Byte} {header : TokenHeader}
    (hparse : parseTokenHeader text = some header) (size : BitVec 64) :
    (∀ device out, StaysInside header.token (readSize header size).toNat
        (rdmaReadFromClient device out header size)) ↔
      size.toNat ≤ header.token.length.toNat ∨ kStagingSize < size.toNat ∨
        header.token.transport ≠ .RC := by
  by_cases hzero : size = 0
  · subst hzero
    refine iff_of_true (rdmaReadFromClient_staysInside fun _ _ => ?_) (.inl (Nat.zero_le _))
    rw [readSize_zero hparse]
  · have hsize : readSize header size = size := readSize_of_ne_zero hzero
    constructor
    · intro h
      by_contra hnot
      simp only [not_or, ne_eq, not_not, not_le, not_lt] at hnot
      obtain ⟨hwindow, hstaging, hrc⟩ := hnot
      have hle := (h plainDevice nothingArrives).le_token
        (rdmaReadFromClient_plain hrc (by rwa [hsize]))
      rw [hsize] at hle
      omega
    · intro h
      refine rdmaReadFromClient_staysInside fun hrc hstaging => ?_
      rw [hsize] at hstaging ⊢
      rcases h with h | h | h
      · exact h
      · omega
      · exact absurd hrc h

/-- For which objects and which Content-Lengths an accepted header keeps the server
inside the token, on every device, from every state and whatever its verbs answer. -/
theorem server_staysInside_iff (text : List Byte) (header : TokenHeader)
    (hparse : parseTokenHeader text = some header) :
    (∀ data : List Byte,
      (∀ device out, StaysInside header.token (writeSize header data)
          (rdmaWriteToClient device out header data)) ↔
        header.length ≠ 0 ∨ data.length ≤ header.token.length.toNat ∨
          kStagingSize < data.length ∨ header.token.transport ≠ .RC) ∧
      ∀ size : BitVec 64,
        (∀ device out, StaysInside header.token (readSize header size).toNat
            (rdmaReadFromClient device out header size)) ↔
          size.toNat ≤ header.token.length.toNat ∨ kStagingSize < size.toNat ∨
            header.token.transport ≠ .RC :=
  ⟨rdmaWriteToClient_staysInside_iff hparse, rdmaReadFromClient_staysInside_iff hparse⟩

/-- A token for one byte at address 4096. -/
def oneByteToken : RdmaToken where
  transport := .RC
  qpNum := 7
  gid := Vector.replicate 16 0
  rkey := 1
  remoteAddr := 4096
  length := 1
  portNum := 1
  lid := 0

theorem decode_oneByteToken :
    decodeRdmaTokenHex (encodeRdmaToken oneByteToken) = some oneByteToken :=
  decodeRdmaTokenHex_encode (by decide)

theorem parse_oneByteToken :
    parseTokenHeader (encodeRdmaToken oneByteToken) = some ⟨oneByteToken, 0⟩ := by
  have htoken :
      (encodeRdmaToken oneByteToken).takeWhile notColon = encodeRdmaToken oneByteToken := by
    decide +kernel
  have hrest : (encodeRdmaToken oneByteToken).dropWhile notColon = [] := by decide +kernel
  simp only [parseTokenHeader, htoken, hrest, decode_oneByteToken]

/-- With the suffix `:0:2` the token covers two bytes, and so does every transfer
that takes its size from the header. -/
theorem twoByteSuffix_staysInside :
    ∃ header, parseTokenHeader (encodeRdmaToken oneByteToken ++
          [ascii ':', ascii '0', ascii ':', ascii '2']) = some header ∧
      header.token.length = 2 ∧
      (∀ data device out, StaysInside header.token (writeSize header data)
        (rdmaWriteToClient device out header data)) ∧
      ∀ device out, StaysInside header.token (readSize header 0).toNat
        (rdmaReadFromClient device out header 0) := by
  have hparse : parseTokenHeader (encodeRdmaToken oneByteToken ++
      [ascii ':', ascii '0', ascii ':', ascii '2']) =
        some ⟨{ oneByteToken with length := 2 }, 2⟩ := by
    have htoken : (encodeRdmaToken oneByteToken ++
        [ascii ':', ascii '0', ascii ':', ascii '2']).takeWhile notColon =
          encodeRdmaToken oneByteToken := by decide +kernel
    have hrest : (encodeRdmaToken oneByteToken ++
        [ascii ':', ascii '0', ascii ':', ascii '2']).dropWhile notColon =
          [ascii ':', ascii '0', ascii ':', ascii '2'] := by decide +kernel
    simp only [parseTokenHeader, htoken, hrest, decode_oneByteToken]
    decide +kernel
  obtain ⟨hwrite, hread⟩ := server_staysInside_iff _ _ hparse
  refine ⟨_, hparse, rfl, ?_, ?_⟩
  · intro data
    exact (hwrite data).mpr (.inl (by decide))
  · exact (hread 0).mpr (.inl (Nat.zero_le _))

/-- Without it, an object of two bytes is written past the token's one byte, and a
Content-Length of two reads past it. -/
theorem oneByteToken_overrun :
    parseTokenHeader (encodeRdmaToken oneByteToken) = some ⟨oneByteToken, 0⟩ ∧
      Logs (.postSend 1 ⟨.RDMA_WRITE, 2, oneByteToken.remoteAddr, oneByteToken.rkey⟩)
        (rdmaWriteToClient plainDevice nothingArrives ⟨oneByteToken, 0⟩ [1, 2]) plainEnv ∧
      Logs (.postSend 1 ⟨.RDMA_READ, 2, oneByteToken.remoteAddr, oneByteToken.rkey⟩)
        (rdmaReadFromClient plainDevice nothingArrives ⟨oneByteToken, 0⟩ 2) plainEnv ∧
      ¬StaysInside oneByteToken (writeSize ⟨oneByteToken, 0⟩ [1, 2])
        (rdmaWriteToClient plainDevice nothingArrives ⟨oneByteToken, 0⟩ [1, 2]) ∧
      ¬StaysInside oneByteToken (readSize ⟨oneByteToken, 0⟩ 2).toNat
        (rdmaReadFromClient plainDevice nothingArrives ⟨oneByteToken, 0⟩ 2) := by
  have hwrite : Logs (.postSend 1 ⟨.RDMA_WRITE, 2, oneByteToken.remoteAddr, oneByteToken.rkey⟩)
      (rdmaWriteToClient plainDevice nothingArrives ⟨oneByteToken, 0⟩ [1, 2]) plainEnv :=
    rdmaWriteToClient_plain rfl (by decide) (by decide)
  have hread : Logs (.postSend 1 ⟨.RDMA_READ, 2, oneByteToken.remoteAddr, oneByteToken.rkey⟩)
      (rdmaReadFromClient plainDevice nothingArrives ⟨oneByteToken, 0⟩ 2) plainEnv :=
    rdmaReadFromClient_plain rfl (by decide)
  refine ⟨parse_oneByteToken, hwrite, hread, ?_, ?_⟩
  · intro h
    exact absurd (h.le_token hwrite) (by decide)
  · intro h
    exact absurd (h.le_token hread) (by decide)

end HipObject.Server
