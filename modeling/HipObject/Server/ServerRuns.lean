import HipObject.Library.ConnectionBooks
import HipObject.Server.ObjectStore

/-!
# The connection of the test server

The server serves every request with one connection, which it destroys and makes
again after each transfer. Between two requests it has a connection in INIT that
it made itself, or none; what it has made besides is destroyed, whatever its verbs
answered.

A server that could not make its connection again has lost RDMA for good, and from
then on makes no verbs call.
-/

namespace HipObject.Server

open HipObject Codec Verification

variable {α : Type} {d : Handles} {H : List Resource}

/-! ### Calls on the connection -/

/-- Code that uses a connection, and neither makes nor destroys anything. -/
structure Uses (d : Handles) (H : List Resource) (env t : Env RcConnection) : Prop where
  takes : Takes d env t H H
  qp : t.obj.qp.id = env.obj.qp.id
  cq : t.obj.cq.id = env.obj.cq.id

theorem chains_uses : Chains (Uses d H) where
  refl _ := ⟨Takes.refl rfl rfl, rfl, rfl⟩
  trans h h' := ⟨h.takes.trans h'.takes, h'.qp.trans h.qp, h'.cq.trans h.cq⟩

theorem call_uses {c : VerbsCall} (hasks : c.asks = true)
    (hevent : ∀ past answer, verbsEvent d past answer c = []) :
    Along (Uses d H) (call c) := by
  intro env
  have htakes : ∀ t : Env RcConnection, t.log = env.log ++ [c] → t.answers = env.answers.tail →
      Takes d env t H H := by
    intro t hlog hanswers
    refine Takes.one c hlog (by rw [hanswers, if_pos hasks]) ?_
    rw [hevent]
    exact .refl H
  refine ((call_log c env).and (call_spec c)).mono ?_ ?_
  · rintro a t ⟨⟨hlog, hanswers, -⟩, hobj⟩
    exact ⟨htakes t hlog hanswers, by rw [hobj], by rw [hobj]⟩
  · rintro t ⟨⟨hlog, hanswers, -⟩, hobj⟩
    exact ⟨htakes t hlog hanswers, by rw [hobj], by rw [hobj]⟩

theorem Uses.of_obj {env t : Env RcConnection} (hlog : t.log = env.log)
    (hanswers : t.answers = env.answers) (hqp : t.obj.qp.id = env.obj.qp.id)
    (hcq : t.obj.cq.id = env.obj.cq.id) : Uses d H env t :=
  ⟨Takes.refl hlog hanswers, hqp, hcq⟩

theorem modifyQp_uses (target : QpState) (dest : Option Destination) :
    Along (Uses d H) (modifyQp target dest) := by
  refine Along.bind chains_uses (Along.get chains_uses) fun env => ?_
  refine Along.bind chains_uses (call_uses rfl fun _ _ => rfl) ?_
  intro a
  cases a with
  | success value =>
      exact Along.bind chains_uses (Along.modify fun _ => .of_obj rfl rfl rfl rfl)
        fun _ => Along.pure chains_uses _
  | failure => exact Along.pure chains_uses _
  | throws => exact Along.pure chains_uses _

theorem pollCq_uses : Along (Uses d H) pollCq := by
  refine Along.bind chains_uses (Along.get chains_uses) fun env => ?_
  refine Along.bind chains_uses (call_uses rfl fun _ _ => rfl) ?_
  intro a
  cases a with
  | success value =>
      cases env.obj.cq.completions with
      | nil => exact Along.pure chains_uses _
      | cons wc rest =>
          exact Along.bind chains_uses (Along.modify fun _ => .of_obj rfl rfl rfl rfl)
            fun _ => Along.pure chains_uses _
  | failure => exact Along.pure chains_uses _
  | throws => exact Along.pure chains_uses _

theorem pollCompletion_uses (expectedOpcode : Option Nat) (rounds : Nat) :
    Along (Uses d H) (pollCompletion expectedOpcode rounds) := by
  induction rounds with
  | zero => exact Along.pure chains_uses _
  | succ rounds ih =>
      refine Along.bind chains_uses pollCq_uses ?_
      intro polled
      cases roundResult expectedOpcode polled with
      | some result => exact Along.pure chains_uses _
      | none => exact ih

theorem connectRcPeer_uses (device : RdmaDevice) (peerToken : RdmaToken) :
    Along (Uses d H) (connectRcPeer device peerToken) := by
  refine Along.ite (Along.pure chains_uses _) (Along.bind chains_uses ?_ fun moved => ?_)
  · exact Along.ite (modifyQp_uses _ _) (Along.pure chains_uses _)
  · exact Along.ite (Along.pure chains_uses _) (modifyQp_uses _ _)

theorem postRdma_uses (out : Outside) (opcode : WrOpcode) (wcOpcode size : Nat)
    (clientToken : RdmaToken) :
    Along (Uses d H) (postRdma out opcode wcOpcode size clientToken) := by
  refine Along.bind chains_uses (Along.get chains_uses) fun env => ?_
  refine Along.bind chains_uses (call_uses rfl fun _ _ => rfl) ?_
  intro a
  cases a with
  | success value =>
      exact Along.bind chains_uses (Along.modify fun _ => .of_obj rfl rfl rfl rfl)
        fun _ => pollCompletion_uses _ _
  | failure => exact Along.pure chains_uses _
  | throws => exact Along.pure chains_uses _

theorem serve_uses (device : RdmaDevice) (clientToken : RdmaToken) {post : VerbsM RcConnection Bool}
    (hpost : Along (Uses d H) post) : Along (Uses d H) (serve device clientToken post) := by
  refine Along.bind chains_uses (connectRcPeer_uses _ _) fun connected => ?_
  refine Along.ite (Along.pure chains_uses _) (Along.bind chains_uses hpost fun posted => ?_)
  refine Along.ite (Along.pure chains_uses _) ?_
  exact Along.bind chains_uses (Along.get chains_uses) fun _ => Along.pure chains_uses _

/-! ### Transfers -/

/-- What a server with this connection holds. -/
def heldBy (d : Handles) (conn : Option RcConnection) : List Resource :=
  conn.elim [] (·.resources d)

/-- The connection, if there is one, was made by this server. -/
def Made (conn : Option RcConnection) (log : List VerbsCall) : Prop :=
  ∀ c, conn = some c → c.MadeIn log

/-- The connection, if there is one, can be connected to a client. -/
structure Usable (conn : Option RcConnection) (log : List VerbsCall) : Prop where
  made : Made conn log
  init : ∀ c, conn = some c → c.qp.state = .INIT

/-- The calls from `env` to `t` account for the connection before and after. -/
structure Accounts (d : Handles) (H : List Resource) (env t : Env Impl) : Prop where
  takes : Takes d env t (heldBy d env.obj.conn ++ H) (heldBy d t.obj.conn ++ H)
  made : Made t.obj.conn t.log

theorem Accounts.trans {env t u : Env Impl} (h : Accounts d H env t) (h' : Accounts d H t u) :
    Accounts d H env u := ⟨h.takes.trans h'.takes, h'.made⟩

/-- A change of the staging buffer. -/
theorem Accounts.of_eq {env t : Env Impl} (hmade : Made env.obj.conn env.log)
    (hlog : t.log = env.log) (hanswers : t.answers = env.answers)
    (hconn : t.obj.conn = env.obj.conn) : Accounts d H env t := by
  refine ⟨?_, ?_⟩
  · rw [hconn]
    exact Takes.refl hlog hanswers
  · rwa [hconn, hlog]

theorem onConn_accounts {conn : RcConnection} {x : VerbsM RcConnection α} {env : Env Impl}
    (hconn : env.obj.conn = some conn) (hmade : conn.MadeIn env.log)
    (hx : Along (Uses d (conn.resources d ++ H)) x) :
    Ensures (onConn conn x) env (fun _ => Accounts d H env) (Accounts d H env) := by
  have haccounts : ∀ t : Env RcConnection, Uses d (conn.resources d ++ H)
      ⟨env.answers, env.log, conn⟩ t →
      Accounts d H env ⟨t.answers, t.log, { env.obj with conn := some t.obj }⟩ := by
    rintro t ⟨⟨log, hlog, hanswers, horderly⟩, hqp, hcq⟩
    have hresources : t.obj.resources d = conn.resources d := by
      simp only [RcConnection.resources, hqp, hcq]
    refine ⟨⟨log, hlog, hanswers, ?_⟩, ?_⟩
    · simpa [heldBy, hconn, hresources] using horderly
    · rintro c ⟨⟩
      have hgrows : env.log <+: t.log := by
        rw [hlog]
        exact List.prefix_append _ _
      have hgrown := hmade.mono hgrows
      exact ⟨by rw [hqp, hcq]; exact hgrown.qp, by rw [hcq]; exact hgrown.cq⟩
  have hrun := hx ⟨env.answers, env.log, conn⟩
  unfold Ensures onConn
  cases hres : x ⟨env.answers, env.log, conn⟩ with
  | ok a t => exact haccounts t (hrun.ok hres)
  | error e t => exact haccounts t (hrun.error hres)

/-- Nothing that the device holds is in the way of a new connection. -/
theorem room_of_zero (h : Room d 0 H) (n : Nat) : Room d n H :=
  ⟨h.context, h.pd, fun m _ => h.free m (Nat.zero_le m)⟩

theorem resetQp_accounts {env : Env Impl} (hroom : Room d 0 H)
    (hmade : Made env.obj.conn env.log) :
    Ensures resetQp env
      (fun _ t => Accounts d H env t ∧ Usable t.obj.conn t.log) (Accounts d H env) := by
  refine Ensures.get_bind ?_
  cases hconn : env.obj.conn with
  | none =>
      have hnone : Made env.obj.conn env.log := by rw [hconn]; rintro c ⟨⟩
      refine ⟨Accounts.of_eq hnone rfl rfl rfl, hnone, ?_⟩
      rw [hconn]
      rintro c ⟨⟩
  | some conn =>
      refine Ensures.modify_bind (Ensures.modify_bind ?_)
      set t : Env Impl := { env with
        log := env.log ++ [.destroyQp conn.qp.id, .destroyCq conn.cq.id]
        obj.conn := none } with ht
      have hdestroy : Takes d env t (heldBy d env.obj.conn ++ H) H := by
        rw [hconn]
        exact Takes.destroy (hmade conn hconn) (hroom.free _ (Nat.zero_le _)) rfl rfl
      refine Ensures.bind (((createRcConnection_takes t _ _ _
        (room_of_zero hroom _)).and (createRcConnection_spec _ _ _)).mono ?_ ?_)
      · rintro made u ⟨⟨hnone, hsome⟩, hobj, hinit⟩
        cases made with
        | none =>
            have hconn' : u.obj.conn = none := by rw [hobj]
            have hmade' : Made u.obj.conn u.log := by rw [hconn']; rintro c ⟨⟩
            refine ⟨⟨?_, hmade'⟩, hmade', by rw [hconn']; rintro c ⟨⟩⟩
            rw [hconn']
            exact hdestroy.trans (hnone rfl)
        | some fresh =>
            obtain ⟨htakes, hfresh, -⟩ := hsome fresh rfl
            have hmade' : Made (some fresh) u.log := by rintro c ⟨⟩; exact hfresh
            refine ⟨⟨?_, hmade'⟩, hmade', ?_⟩
            · exact hdestroy.trans (htakes.trans (Takes.refl rfl rfl))
            · rintro c ⟨⟩
              exact (hinit fresh rfl).1
      · rintro u ⟨htakes, hobj⟩
        have hconn' : u.obj.conn = none := by rw [hobj]
        refine ⟨?_, by rw [hconn']; rintro c ⟨⟩⟩
        rw [hconn']
        exact hdestroy.trans htakes

theorem guarded_accounts {x : VerbsM Impl α} {env : Env Impl} (hroom : Room d 0 H)
    (hx : Ensures x env (fun _ => Accounts d H env) (Accounts d H env)) :
    Ensures (guarded resetQp x) env
      (fun _ t => Accounts d H env t ∧ Usable t.obj.conn t.log) (Accounts d H env) := by
  have hthrown : ∀ t u : Env Impl, Accounts d H env t → Accounts d H t u →
      Accounts d H env (terminate u) := by
    intro t u ht hu
    have hall := ht.trans hu
    exact ⟨hall.takes.trans (Takes.refl rfl rfl), hall.made⟩
  refine guarded_spec (hx.mono ?_ ?_)
  · intro _ t ht
    refine (resetQp_accounts hroom ht.made).mono ?_ fun u hu => hthrown t u ht hu
    rintro _ u ⟨hu, husable⟩
    exact ⟨ht.trans hu, husable⟩
  · intro t ht
    refine (resetQp_accounts hroom ht.made).mono ?_ fun u hu => hthrown t u ht hu
    rintro _ u ⟨hu, -⟩
    exact ht.trans hu

/-- A transfer that starts from a usable connection ends with one, or with none. -/
def KeepsBooks (d : Handles) (H : List Resource) (x : VerbsM Impl α) : Prop :=
  ∀ env, Usable env.obj.conn env.log →
    Ensures x env (fun _ t => Accounts d H env t ∧ Usable t.obj.conn t.log) (Accounts d H env)

theorem keepsBooks_refused (a : α) : KeepsBooks d H (pure a) := by
  intro env h
  exact ⟨Accounts.of_eq h.made rfl rfl rfl, h⟩

theorem rdmaWriteToClient_keepsBooks (hroom : Room d 0 H) (device : RdmaDevice) (out : Outside)
    (header : TokenHeader) (data : List Byte) :
    KeepsBooks d H (rdmaWriteToClient device out header data) := by
  intro env h
  refine Ensures.get_bind ?_
  cases hconn : env.obj.conn with
  | none => exact keepsBooks_refused _ env h
  | some conn =>
      refine Ensures.ite (fun _ => keepsBooks_refused _ env h) fun _ => Ensures.modify_bind ?_
      set staged : Env Impl := { env with
        obj.staging := fun i => if i < writeSize header data then data.getD i 0
          else env.obj.staging i } with hstaged
      have hfirst : Accounts d H env staged := Accounts.of_eq h.made rfl rfl rfl
      have hstagedConn : staged.obj.conn = some conn := hconn
      refine Ensures.mono (s := staged) (guarded_accounts hroom ?_) ?_ fun t ht => hfirst.trans ht
      · refine Ensures.bind ((onConn_accounts hstagedConn (h.made conn hconn)
          (serve_uses _ _ (postRdma_uses _ _ _ _ _))).mono ?_ fun _ h => h)
        intro served t ht
        cases served with
        | none => exact ht
        | some serverToken => exact ht
      · rintro _ t ⟨ht, husable⟩
        exact ⟨hfirst.trans ht, husable⟩

theorem rdmaReadFromClient_keepsBooks (hroom : Room d 0 H) (device : RdmaDevice) (out : Outside)
    (header : TokenHeader) (size : BitVec 64) :
    KeepsBooks d H (rdmaReadFromClient device out header size) := by
  intro env h
  refine Ensures.get_bind ?_
  cases hconn : env.obj.conn with
  | none => exact keepsBooks_refused _ env h
  | some conn =>
      refine Ensures.ite (fun _ => keepsBooks_refused _ env h) fun _ => guarded_accounts hroom ?_
      refine Ensures.bind ((onConn_accounts hconn (h.made conn hconn)
        (serve_uses _ _ (postRdma_uses _ _ _ _ _))).mono ?_ fun _ h => h)
      intro served t ht
      cases served with
      | none => exact ht
      | some serverToken =>
          exact Ensures.modify_bind (ht.trans (Accounts.of_eq ht.made rfl rfl rfl))

/-! ### Requests -/

def connOf (server : TestServer) : Option RcConnection := server.impl.bind (·.conn)

theorem isReady_eq (server : TestServer) : isReady server = (connOf server).isSome := by
  unfold isReady connOf
  cases server.impl <;> rfl

/-- The calls from `env` to `t` made and destroyed the connections before `t`'s. -/
def Balances (d : Handles) (H : List Resource) (env t : Env TestServer) : Prop :=
  Takes d env t (heldBy d (connOf env.obj) ++ H) (heldBy d (connOf t.obj) ++ H)

theorem onImpl_balances {x : VerbsM Impl (Option α)} {env : Env TestServer}
    (hx : KeepsBooks d H x) (h : Usable (connOf env.obj) env.log) :
    Ensures (onImpl x) env (fun _ t => Balances d H env t ∧ Usable (connOf t.obj) t.log)
      (Balances d H env) := by
  unfold Ensures onImpl
  cases himpl : env.obj.impl with
  | none => exact ⟨Takes.refl rfl rfl, h⟩
  | some impl =>
      have hconn : connOf env.obj = impl.conn := by rw [connOf, himpl]; rfl
      rw [hconn] at h
      have hbalances : ∀ t : Env Impl, Accounts d H ⟨env.answers, env.log, impl⟩ t →
          Balances d H env ⟨t.answers, t.log, { env.obj with impl := some t.obj }⟩ := by
        rintro t ⟨⟨log, hlog, hanswers, horderly⟩, -⟩
        refine ⟨log, hlog, hanswers, ?_⟩
        rw [hconn]
        exact horderly
      have hrun := hx ⟨env.answers, env.log, impl⟩ h
      cases hres : x ⟨env.answers, env.log, impl⟩ with
      | ok a t =>
          obtain ⟨ht, husable⟩ := hrun.ok hres
          simp only [hres]
          exact ⟨hbalances t ht, husable⟩
      | error e t =>
          simp only [hres]
          exact hbalances t (hrun.error hres)

/-- A server that answers without RDMA. -/
structure Untouched (env t : Env TestServer) : Prop where
  log : t.log = env.log
  answers : t.answers = env.answers
  impl : t.obj.impl = env.obj.impl

theorem Untouched.balances {env t : Env TestServer} (h : Untouched env t)
    (husable : Usable (connOf env.obj) env.log) :
    Balances d H env t ∧ Usable (connOf t.obj) t.log := by
  have hconn : connOf t.obj = connOf env.obj := by rw [connOf, h.impl, connOf]
  refine ⟨?_, by rwa [hconn, h.log]⟩
  rw [Balances, hconn]
  exact Takes.refl h.log h.answers

theorem handleHttp_untouched (req : HttpRequest) (key : Text) (env : Env TestServer) :
    Ensures (handleHttp req key) env
      (fun resp t => Untouched env t ∧ (req.method = PUT → resp = ⟨200, withEtag ∅, []⟩))
      (fun _ => False) := by
  refine Ensures.ite (fun _ => ?_) fun hput => ?_
  · exact Ensures.modify_bind ⟨⟨rfl, rfl, rfl⟩, fun _ => rfl⟩
  · refine Ensures.ite (fun _ => Ensures.get_bind ?_) fun _ => ?_
    · cases env.obj.objects[key]? with
      | none => exact ⟨⟨rfl, rfl, rfl⟩, fun h => absurd h hput⟩
      | some data => exact ⟨⟨rfl, rfl, rfl⟩, fun h => absurd h hput⟩
    · exact ⟨⟨rfl, rfl, rfl⟩, fun h => absurd h hput⟩

theorem handleRdma_balances {env : Env TestServer} (hroom : Room d 0 H)
    (h : Usable (connOf env.obj) env.log) (device : RdmaDevice) (out : Outside)
    (req : HttpRequest) (key : Text) (header : TokenHeader) :
    Ensures (handleRdma device out req key header) env
      (fun _ t => Balances d H env t ∧ Usable (connOf t.obj) t.log) (Balances d H env) := by
  have hsame : Balances d H env env ∧ Usable (connOf env.obj) env.log := ⟨Takes.refl rfl rfl, h⟩
  refine Ensures.ite (fun _ => ?_) fun _ =>
    Ensures.ite (fun _ => Ensures.get_bind ?_) fun _ => hsame
  · refine Ensures.bind ((onImpl_balances (rdmaReadFromClient_keepsBooks hroom _ _ _ _) h).mono ?_
      fun _ ht => ht)
    rintro read t ⟨ht, husable⟩
    cases read with
    | none => exact ⟨ht, husable⟩
    | some read => exact Ensures.modify_bind ⟨ht.trans (Takes.refl rfl rfl), husable⟩
  · cases env.obj.objects[key]? with
    | none => exact hsame
    | some data =>
        refine Ensures.bind
          ((onImpl_balances (rdmaWriteToClient_keepsBooks hroom _ _ _ _) h).mono ?_ fun _ ht => ht)
        intro reply t ht
        cases reply with
        | none => exact ht
        | some reply => exact ht

theorem handle_balances {env : Env TestServer} (hroom : Room d 0 H)
    (h : Usable (connOf env.obj) env.log) (device : RdmaDevice) (out : Outside)
    (req : HttpRequest) :
    Ensures (handle device out req) env
      (fun _ t => Balances d H env t ∧ Usable (connOf t.obj) t.log) (Balances d H env) := by
  have hsame : Balances d H env env ∧ Usable (connOf env.obj) env.log := ⟨Takes.refl rfl rfl, h⟩
  have hplain : Ensures (handleHttp req (objectKey req.path)) env
      (fun _ t => Balances d H env t ∧ Usable (connOf t.obj) t.log) (Balances d H env) :=
    (handleHttp_untouched req _ env).mono (fun _ t ht => ht.1.balances h) fun _ ht => ht.elim
  refine Ensures.ite (fun _ => hsame) fun _ => Ensures.ite (fun _ => hsame) fun _ => ?_
  refine Ensures.get_bind ?_
  cases req.headers[tokenName]? with
  | none => exact hplain
  | some token =>
      cases isReady env.obj with
      | false => exact hplain
      | true =>
          cases hparse : parseTokenHeader token with
          | none =>
              simp only [hparse]
              exact hsame
          | some header =>
              simp only [hparse]
              exact handleRdma_balances hroom h device out req _ header

theorem serveAll_balances (hroom : Room d 0 H) (device : RdmaDevice)
    (requests : List (HttpRequest × Outside)) {env : Env TestServer}
    (h : Usable (connOf env.obj) env.log) :
    Ensures (serveAll device requests) env
      (fun _ t => Balances d H env t ∧ Usable (connOf t.obj) t.log) (Balances d H env) := by
  induction requests generalizing env with
  | nil => exact ⟨Takes.refl rfl rfl, h⟩
  | cons request rest ih =>
      obtain ⟨req, out⟩ := request
      refine Ensures.bind ((handle_balances hroom h device out req).mono ?_ fun _ ht => ht)
      rintro resp t ⟨ht, husable⟩
      refine Ensures.bind ((ih husable).mono ?_ fun u hu => ht.trans hu)
      rintro later u ⟨hu, husable'⟩
      exact ⟨ht.trans hu, husable'⟩

/-! ### Without a connection -/

/-- A server without a connection answers by HTTP, whether or not there is a token. -/
theorem handle_lost {env : Env TestServer} (h : isReady env.obj = false) (device : RdmaDevice)
    (out : Outside) (req : HttpRequest) :
    Ensures (handle device out req) env
      (fun resp t => Untouched env t ∧ (req.method = PUT → stored ⟨req, out, resp⟩ = some req.body))
      (fun _ => False) := by
  have hplain : Ensures (handleHttp req (objectKey req.path)) env
      (fun resp t => Untouched env t ∧
        (req.method = PUT → stored ⟨req, out, resp⟩ = some req.body)) (fun _ => False) := by
    refine (handleHttp_untouched req _ env).mono ?_ fun _ ht => ht
    rintro resp t ⟨ht, hresp⟩
    refine ⟨ht, fun hput => ?_⟩
    rw [hresp hput]
    exact stored_put hput out
  have hother : ∀ resp, req.method = GET → Untouched env env ∧
      (req.method = PUT → stored ⟨req, out, resp⟩ = some req.body) := by
    intro resp hget
    exact ⟨⟨rfl, rfl, rfl⟩, fun hput => absurd hput (get_ne_put hget)⟩
  refine Ensures.ite (fun hhealth => hother _ hhealth.1) fun _ => ?_
  refine Ensures.ite (fun hlocation => hother _ hlocation.1) fun _ => Ensures.get_bind ?_
  rw [h]
  cases req.headers[tokenName]? with
  | none => exact hplain
  | some token => exact hplain

theorem serveAll_lost (device : RdmaDevice) (requests : List (HttpRequest × Outside))
    {env : Env TestServer} (h : isReady env.obj = false) :
    Ensures (serveAll device requests) env
      (fun run t => Untouched env t ∧
        ∀ x ∈ run, x.req.method = PUT → stored x = some x.req.body)
      (fun _ => False) := by
  induction requests generalizing env with
  | nil => exact ⟨⟨rfl, rfl, rfl⟩, by simp⟩
  | cons request rest ih =>
      obtain ⟨req, out⟩ := request
      refine Ensures.bind ((handle_lost h device out req).mono ?_ fun _ ht => ht)
      rintro resp t ⟨ht, hstored⟩
      have hlost : isReady t.obj = false := by rwa [isReady, ht.impl]
      refine Ensures.bind ((ih hlost).mono ?_ fun _ hu => hu)
      rintro later u ⟨hu, hlater⟩
      refine ⟨⟨hu.log.trans ht.log, hu.answers.trans ht.answers, hu.impl.trans ht.impl⟩, ?_⟩
      intro x hx hput
      rcases List.mem_cons.mp hx with rfl | hx
      · exact hstored hput
      · exact hlater x hx hput

/-- After any requests, whatever the verbs answered, the server has a connection in INIT that it
made itself, or none, and every other queue pair and completion queue that it made is destroyed,
also if a request throws. A server with no connection left makes no verbs call for later requests,
answers all of them, and each PUT among them stores the body of its request. -/
theorem connection_between_requests (hroom : Room d 0 H) (device : RdmaDevice)
    (requests : List (HttpRequest × Outside)) (env : Env TestServer)
    (h : Usable (connOf env.obj) env.log) :
    Ensures (serveAll device requests) env
      (fun _ t => Balances d H env t ∧ Usable (connOf t.obj) t.log ∧
        (connOf t.obj = none → ∀ later, Ensures (serveAll device later) t
          (fun run u => u.log = t.log ∧ connOf u.obj = none ∧
            ∀ x ∈ run, x.req.method = PUT → stored x = some x.req.body)
          (fun _ => False)))
      (Balances d H env) := by
  refine (serveAll_balances hroom device requests h).mono ?_ fun _ ht => ht
  rintro run t ⟨hbalances, husable⟩
  refine ⟨hbalances, husable, fun hnone later => ?_⟩
  have hlost : isReady t.obj = false := by rw [isReady_eq, hnone]; rfl
  refine (serveAll_lost device later hlost).mono ?_ fun _ hu => hu
  rintro run' u ⟨hu, hstored⟩
  exact ⟨hu.log, by rw [connOf, hu.impl]; exact hnone, hstored⟩

/-- What is open when the server has made its first connection. -/
def openDevice : List Resource := [.pd 1 0, .context 0]

theorem room_openDevice : Room ⟨0, 1⟩ 0 openDevice where
  context := by decide
  pd := by decide
  free := by
    intro m _ r hr hon
    obtain ⟨id, rfl⟩ := hon.eq_qp
    simp [openDevice] at hr

/-- A server with a connection that works for one transfer and can't be made again. -/
def brittleServer : Env TestServer where
  answers := [.success 0, .success 0, .success 0, .success 0]
  log := [.createCq kCqSize, .createQp 0 kMaxSendWr kMaxRecvWr, .modifyQp 1 .INIT none]
  obj := ⟨∅, some ⟨fun _ => 0, some freshConn, false⟩⟩

theorem usable_brittleServer : Usable (connOf brittleServer.obj) brittleServer.log := by
  refine ⟨?_, ?_⟩
  · rintro c ⟨⟩
    exact ⟨⟨kMaxSendWr, kMaxRecvWr, rfl⟩, by decide⟩
  · rintro c ⟨⟩
    rfl

/-- A PUT of one byte by RDMA. -/
def oneBytePut : HttpRequest where
  method := PUT
  path := text "/a"
  headers := (∅ : HeaderMap).insert tokenName (encodeRdmaToken oneByteToken)
  body := []
  contentLength := 1

def oneByteArrives : Outside := ⟨[⟨true, IBV_WC_RDMA_READ, 0⟩], 1, fun _ => 5⟩

/-- The byte is stored, and there is no connection afterwards. -/
theorem serve_oneBytePut :
    Ensures (serveAll plainDevice [(oneBytePut, oneByteArrives)]) brittleServer
      (fun _ t => connOf t.obj = none ∧ t.obj.objects[text "a"]? = some [5])
      (fun _ => False) := by
  decide +kernel

theorem connection_between_oneBytePut :
    Ensures (serveAll plainDevice [(oneBytePut, oneByteArrives)]) brittleServer
      (fun _ t => Balances ⟨0, 1⟩ openDevice brittleServer t ∧ connOf t.obj = none ∧
        ∀ later, Ensures (serveAll plainDevice later) t
          (fun run u => u.log = t.log ∧ connOf u.obj = none ∧
            ∀ x ∈ run, x.req.method = PUT → stored x = some x.req.body)
          (fun _ => False))
      (fun _ => False) := by
  have hbooks := connection_between_requests room_openDevice plainDevice
    [(oneBytePut, oneByteArrives)] brittleServer usable_brittleServer
  have hrun := serve_oneBytePut
  -- The run itself is not to be evaluated again.
  generalize serveAll plainDevice [(oneBytePut, oneByteArrives)] = x at hbooks hrun ⊢
  refine (hbooks.and hrun).mono ?_ fun _ h => h.2
  rintro run t ⟨⟨hbalances, -, hlost⟩, hnone, -⟩
  exact ⟨hbalances, hnone, hlost hnone⟩

end HipObject.Server
