import HipObject.Server.HttpText
import HipObject.Server.Window

/-!
# The objects of the test server

The handler of `main.cpp`: which request is answered how, and what it does to the
stored objects. A request with a token goes by RDMA while the server has a
connection; any other, and every request once the connection is lost, is served by
HTTP alone.

The handler takes the requests one after the other, which is what the server's one
queue pair is made for: the source does not lock it against two requests at once.

Against the answers, the objects are what a plain key-value store would hold: an
answered PUT stores one object, and nothing else changes any.
-/

namespace HipObject.Server

open HipObject Codec Verification

/-- What the handler keeps between requests. -/
structure TestServer where
  objects : Std.TreeMap Text (List Byte)
  /-- `impl_`, which is null when RDMA could not be set up. -/
  impl : Option Impl

def isReady (server : TestServer) : Bool := server.impl.any fun impl => impl.conn.isSome

/-- Code of `RdmaTestServer`, which fails without an `Impl`. -/
def onImpl {α : Type} (x : VerbsM Impl (Option α)) : VerbsM TestServer (Option α) := fun env =>
  match env.obj.impl with
  | none => .ok none env
  | some impl =>
      match x ⟨env.answers, env.log, impl⟩ with
      | .ok a t => .ok a ⟨t.answers, t.log, { env.obj with impl := some t.obj }⟩
      | .error e t => .error e ⟨t.answers, t.log, { env.obj with impl := some t.obj }⟩

def objectKey (path : Text) : Text := if path.head? = some (ascii '/') then path.tail else path

def PUT : Text := text "PUT"
def GET : Text := text "GET"
def bytesName : Text := text "x-amz-rdma-bytes-transferred"

def withEtag (headers : HeaderMap) : HeaderMap := headers.insert (text "etag") (text "\"test\"")

def notFound : HttpResponse := ⟨404, ∅, text "not found"⟩
def notAllowed : HttpResponse := ⟨405, ∅, text "method not allowed"⟩
def failed (what : String) : HttpResponse := ⟨500, ∅, text what⟩

def locationResponse : HttpResponse :=
  ⟨200, (∅ : HeaderMap).insert (text "Content-Type") (text "application/xml"),
    text "<?xml version=\"1.0\" encoding=\"UTF-8\"?>" ++ text "<LocationConstraint " ++
      text "xmlns=\"http://s3.amazonaws.com/doc/2006-03-01/\">" ++
      text "us-east-1</LocationConstraint>"⟩

def store (key : Text) (data : List Byte) : VerbsM TestServer Unit :=
  modify fun env => { env with obj.objects := env.obj.objects.insert key data }

/-- HTTP-only mode: the token is absent, or RDMA is not available. -/
def handleHttp (req : HttpRequest) (key : Text) : VerbsM TestServer HttpResponse := do
  if req.method = PUT then
    store key req.body
    return ⟨200, withEtag ∅, []⟩
  else if req.method = GET then
    match (← get).obj.objects[key]? with
    | none => return notFound
    | some data => return ⟨200, ∅, data⟩
  else return notAllowed

def handleRdma (device : RdmaDevice) (out : Outside) (req : HttpRequest) (key : Text)
    (header : TokenHeader) : VerbsM TestServer HttpResponse := do
  if req.method = PUT then
    match ← onImpl (rdmaReadFromClient device out header req.contentLength) with
    | none => return failed "RDMA PUT failed"
    | some read =>
        store key read.data
        return ⟨200, withEtag ((∅ : HeaderMap).insert replyName read.replyHeader), []⟩
  else if req.method = GET then
    match (← get).obj.objects[key]? with
    | none => return notFound
    | some data =>
        match ← onImpl (rdmaWriteToClient device out header data) with
        | none => return failed "RDMA GET failed"
        | some reply =>
            return ⟨200, ((∅ : HeaderMap).insert replyName reply).insert bytesName
              (toDecimal data.length), []⟩
  else return notAllowed

def handle (device : RdmaDevice) (out : Outside) (req : HttpRequest) :
    VerbsM TestServer HttpResponse := do
  if req.method = GET ∧ req.path = text "/health" then return ⟨200, ∅, text "ok"⟩
  else if req.method = GET ∧ (find (text "?location") req.path).isSome then return locationResponse
  else
    let key := objectKey req.path
    match req.headers[tokenName]?, isReady (← get).obj with
    | some token, true =>
        match parseTokenHeader token with
        | none => return ⟨400, ∅, text "malformed x-amz-rdma-token"⟩
        | some header => handleRdma device out req key header
    | _, _ => handleHttp req key

/-! ### One request -/

/-- A request, what happened outside while it was served, and its answer. -/
structure Exchange where
  req : HttpRequest
  out : Outside
  resp : HttpResponse

/-- What an exchange stores: the bytes that were read from the client if the answer has a
reply, and the body of the request otherwise. -/
def stored (x : Exchange) : Option (List Byte) :=
  if x.req.method = PUT ∧ x.resp.status = 200 then
    if x.resp.headers[replyName]?.isSome then
      ((x.req.headers[tokenName]?).bind parseTokenHeader).map fun header =>
        (List.range (readSize header x.req.contentLength).toNat).map x.out.incoming
    else some x.req.body
  else none

/-- What a key-value store does for an exchange. -/
def applyExchange (objects : Std.TreeMap Text (List Byte)) (x : Exchange) :
    Std.TreeMap Text (List Byte) :=
  match stored x with
  | some data => objects.insert (objectKey x.req.path) data
  | none => objects

theorem applyExchange_of_method {x : Exchange} (h : x.req.method ≠ PUT)
    (objects : Std.TreeMap Text (List Byte)) : applyExchange objects x = objects := by
  simp [applyExchange, stored, h]

theorem applyExchange_of_status {x : Exchange} (h : x.resp.status ≠ 200)
    (objects : Std.TreeMap Text (List Byte)) : applyExchange objects x = objects := by
  simp [applyExchange, stored, h]

/-- The RDMA side of the server doesn't see the objects. -/
theorem onImpl_spec {α : Type} {x : VerbsM Impl (Option α)} {Q : Option α → Prop}
    (hnone : Q none)
    (hx : ∀ env, Ensures x env (fun r _ => Q r) (fun _ => True)) (env : Env TestServer) :
    Ensures (onImpl x) env (fun r t => t.obj.objects = env.obj.objects ∧ Q r)
      (fun t => t.obj.objects = env.obj.objects) := by
  unfold Ensures onImpl
  cases env.obj.impl with
  | none => exact ⟨rfl, hnone⟩
  | some impl =>
      cases hrun : x ⟨env.answers, env.log, impl⟩ with
      | ok a t =>
          simp only [hrun]
          exact ⟨trivial, (hx _).ok hrun⟩
      | error e t => simp only [hrun]

/-- A fact about the result alone survives the guard. -/
theorem guarded_value {α : Type} {x : VerbsM Impl α} {env : Env Impl} {P : α → Prop}
    (h : Ensures x env (fun a _ => P a) (fun _ => True)) :
    Ensures (guarded resetQp x) env (fun a _ => P a) (fun _ => True) := by
  refine guarded_spec (h.mono ?_ ?_)
  · exact fun a t ha => Ensures.of_forall (fun _ _ => ha) fun _ => trivial
  · exact fun t _ => Ensures.of_forall (fun _ _ => trivial) fun _ => trivial

theorem rdmaReadFromClient_data (device : RdmaDevice) (out : Outside) (header : TokenHeader)
    (size : BitVec 64) (env : Env Impl) :
    Ensures (rdmaReadFromClient device out header size) env
      (fun r _ => ∀ read, r = some read →
        read.data = (List.range (readSize header size).toNat).map out.incoming)
      (fun _ => True) := by
  refine Ensures.get_bind ?_
  cases env.obj.conn with
  | none =>
      intro read h
      cases h
  | some conn =>
      refine Ensures.ite (fun _ => ?_) fun _ => guarded_value ?_
      · intro read h
        cases h
      · refine Ensures.bind (Ensures.of_forall ?_ fun _ => trivial)
        intro served t
        cases served with
        | none =>
            intro read h
            cases h
        | some serverToken =>
            refine Ensures.modify_bind ?_
            rintro read ⟨⟩
            rfl

/-- A PUT by HTTP stores the body. -/
theorem stored_put {req : HttpRequest} (hput : req.method = PUT) (out : Outside) :
    stored ⟨req, out, ⟨200, withEtag ∅, []⟩⟩ = some req.body := by
  have hreply : (withEtag ∅)[replyName]?.isSome = false := by decide +kernel
  simp [stored, hput, hreply]

theorem get_ne_put {method : Text} (h : method = GET) : method ≠ PUT := by
  intro hput
  exact absurd (h.symm.trans hput) (by decide +kernel)

theorem handleHttp_objects (req : HttpRequest) (out : Outside) (env : Env TestServer) :
    Ensures (handleHttp req (objectKey req.path)) env
      (fun resp t => t.obj.objects = applyExchange env.obj.objects ⟨req, out, resp⟩)
      (fun t => t.obj.objects = env.obj.objects) := by
  refine Ensures.ite (fun hput => ?_) fun hput => Ensures.ite (fun hget => ?_) fun hget => ?_
  · refine Ensures.modify_bind ?_
    rw [Ensures.pure_iff, applyExchange, stored_put hput]
  · refine Ensures.get_bind ?_
    cases env.obj.objects[objectKey req.path]? with
    | none => exact (applyExchange_of_method hput _).symm
    | some data => exact (applyExchange_of_method hput _).symm
  · exact (applyExchange_of_method hput _).symm

theorem handleRdma_objects {token : Text} {header : TokenHeader} {req : HttpRequest}
    (htoken : req.headers[tokenName]? = some token) (hparse : parseTokenHeader token = some header)
    (device : RdmaDevice) (out : Outside) (env : Env TestServer) :
    Ensures (handleRdma device out req (objectKey req.path) header) env
      (fun resp t => t.obj.objects = applyExchange env.obj.objects ⟨req, out, resp⟩)
      (fun t => t.obj.objects = env.obj.objects) := by
  refine Ensures.ite (fun hput => ?_) fun hput => Ensures.ite (fun hget => ?_) fun hget => ?_
  · refine Ensures.bind ((onImpl_spec (by intro read h; cases h)
      (rdmaReadFromClient_data device out header req.contentLength) env).mono ?_ fun _ h => h)
    rintro r t ⟨hobjects, hdata⟩
    cases r with
    | none => exact hobjects.trans (applyExchange_of_status (by simp [failed]) _).symm
    | some read =>
        refine Ensures.modify_bind ?_
        have hstored : stored ⟨req, out,
            ⟨200, withEtag ((∅ : HeaderMap).insert replyName read.replyHeader), []⟩⟩ =
              some read.data := by
          have hreply : (withEtag ((∅ : HeaderMap).insert replyName read.replyHeader))[replyName]? =
              some read.replyHeader := by
            have hname : compare (text "etag") replyName ≠ .eq := by decide +kernel
            rw [withEtag, Std.TreeMap.getElem?_insert, if_neg hname,
              Std.TreeMap.getElem?_insert_self]
          simp [stored, hput, hreply, htoken, hparse, hdata read rfl]
        rw [Ensures.pure_iff, applyExchange, hstored, hobjects]
  · refine Ensures.get_bind ?_
    cases env.obj.objects[objectKey req.path]? with
    | none => exact (applyExchange_of_method hput _).symm
    | some data =>
        refine Ensures.bind ((onImpl_spec (Q := fun _ => True) trivial
          (fun s => Ensures.of_forall (fun _ _ => trivial) fun _ => trivial) env).mono ?_
          fun _ h => h)
        rintro r t ⟨hobjects, -⟩
        cases r with
        | none => exact hobjects.trans (applyExchange_of_method hput _).symm
        | some reply => exact hobjects.trans (applyExchange_of_method hput _).symm
  · exact (applyExchange_of_method hput _).symm

/-- One request does to the objects what its answer says, and nothing if it is not answered. -/
theorem handle_objects (device : RdmaDevice) (out : Outside) (req : HttpRequest)
    (env : Env TestServer) :
    Ensures (handle device out req) env
      (fun resp t => t.obj.objects = applyExchange env.obj.objects ⟨req, out, resp⟩)
      (fun t => t.obj.objects = env.obj.objects) := by
  refine Ensures.ite (fun hhealth => ?_) fun _ => Ensures.ite (fun hlocation => ?_) fun _ => ?_
  · exact (applyExchange_of_method (get_ne_put hhealth.1) _).symm
  · exact (applyExchange_of_method (get_ne_put hlocation.1) _).symm
  · refine Ensures.get_bind ?_
    cases htoken : req.headers[tokenName]? with
    | none => exact handleHttp_objects req out env
    | some token =>
        cases isReady env.obj with
        | false => exact handleHttp_objects req out env
        | true =>
            cases hparse : parseTokenHeader token with
            | none =>
                simp only [hparse]
                exact (applyExchange_of_status (by simp) _).symm
            | some header =>
                simp only [hparse]
                exact handleRdma_objects htoken hparse device out env

/-! ### Any number of requests -/

/-- Requests one after the other, until one of them throws. -/
def serveAll (device : RdmaDevice) :
    List (HttpRequest × Outside) → VerbsM TestServer (List Exchange)
  | [] => return []
  | (req, out) :: rest => do
      let resp ← handle device out req
      let later ← serveAll device rest
      return ⟨req, out, resp⟩ :: later

/-- What was last stored under `key`. -/
def lastStored (key : Text) (run : List Exchange) : Option (List Byte) :=
  run.reverse.findSome? fun x => if objectKey x.req.path = key then stored x else none

theorem getElem?_applyExchange (objects : Std.TreeMap Text (List Byte)) (x : Exchange)
    (key : Text) :
    (applyExchange objects x)[key]? =
      ((if objectKey x.req.path = key then stored x else none) <|> objects[key]?) := by
  rw [applyExchange]
  cases stored x with
  | none => split_ifs <;> simp
  | some data =>
      by_cases hkey : objectKey x.req.path = key
      · simp [hkey]
      · have hcmp : compare (objectKey x.req.path) key ≠ .eq := by simpa using hkey
        simp [Std.TreeMap.getElem?_insert, hcmp, hkey]

theorem getElem?_foldl_applyExchange (run : List Exchange)
    (objects : Std.TreeMap Text (List Byte)) (key : Text) :
    (run.foldl applyExchange objects)[key]? = (lastStored key run <|> objects[key]?) := by
  induction run generalizing objects with
  | nil => simp [lastStored]
  | cons x rest ih =>
      rw [List.foldl_cons, ih, getElem?_applyExchange, lastStored, lastStored, List.reverse_cons,
        List.findSome?_append]
      cases rest.reverse.findSome? (fun x => if objectKey x.req.path = key then stored x else none)
        with
      | some data => simp
      | none => simp

theorem serveAll_objects (device : RdmaDevice) (requests : List (HttpRequest × Outside))
    (env : Env TestServer) :
    Ensures (serveAll device requests) env
      (fun run t => t.obj.objects = run.foldl applyExchange env.obj.objects)
      (fun _ => True) := by
  induction requests generalizing env with
  | nil => rfl
  | cons request rest ih =>
      obtain ⟨req, out⟩ := request
      refine Ensures.bind ((handle_objects device out req env).mono ?_ fun _ _ => trivial)
      intro resp t ht
      refine Ensures.bind ((ih t).mono ?_ fun _ h => h)
      intro later u hu
      rw [Ensures.pure_iff, hu, ht, List.foldl_cons]

/-- A GET that goes by HTTP and names an object. -/
structure PlainGet (req : HttpRequest) : Prop where
  method : req.method = GET
  health : req.path ≠ text "/health"
  location : find (text "?location") req.path = none
  token : req.headers[tokenName]? = none

theorem handle_plainGet {req : HttpRequest} (h : PlainGet req) (device : RdmaDevice)
    (out : Outside) (env : Env TestServer) :
    Ensures (handle device out req) env
      (fun resp t => t = env ∧ resp = ((env.obj.objects[objectKey req.path]?).map
        fun data => ⟨200, ∅, data⟩).getD notFound)
      (fun _ => False) := by
  refine Ensures.ite (fun hhealth => absurd hhealth.2 h.health) fun _ => ?_
  refine Ensures.ite (fun hlocation => by simp [h.location] at hlocation) fun _ => ?_
  refine Ensures.get_bind ?_
  rw [h.token]
  refine Ensures.ite (fun hmethod => absurd hmethod (get_ne_put h.method)) fun _ => ?_
  refine Ensures.ite (fun _ => Ensures.get_bind ?_) fun hget => absurd h.method hget
  cases env.obj.objects[objectKey req.path]? with
  | none => exact ⟨rfl, rfl⟩
  | some data => exact ⟨rfl, rfl⟩

/-- After any requests, by HTTP or by RDMA, answered with success or not, a GET returns what the
last answered PUT of that key has stored, or what was there at first, and "not found" if there
is neither. -/
theorem get_returns_last_stored (device : RdmaDevice) (requests : List (HttpRequest × Outside))
    {req : HttpRequest} (hget : PlainGet req) (out : Outside) (env : Env TestServer) :
    Ensures (do
        let run ← serveAll device requests
        let resp ← handle device out req
        return (run, resp)) env
      (fun r _ => r.2 = ((lastStored (objectKey req.path) r.1 <|>
        env.obj.objects[objectKey req.path]?).map fun data => ⟨200, ∅, data⟩).getD notFound)
      (fun _ => True) := by
  refine Ensures.bind ((serveAll_objects device requests env).mono ?_ fun _ h => h)
  intro run t ht
  refine Ensures.bind ((handle_plainGet hget device out t).mono ?_ fun _ h => h.elim)
  rintro resp u ⟨-, rfl⟩
  rw [Ensures.pure_iff, ht, getElem?_foldl_applyExchange]

/-- A server without RDMA, before its first request. -/
def emptyServer : Env TestServer := ⟨[], [], ⟨∅, none⟩⟩

def helloPut : HttpRequest := ⟨PUT, text "/a", ∅, text "hello", 5⟩

def helloGet : HttpRequest := ⟨GET, text "/a", ∅, [], 0⟩

theorem plainGet_helloGet : PlainGet helloGet :=
  ⟨rfl, by decide +kernel, by decide +kernel, by decide +kernel⟩

theorem get_returns_hello :
    Ensures (do
        let run ← serveAll plainDevice [(helloPut, nothingArrives)]
        let resp ← handle plainDevice nothingArrives helloGet
        return (run, resp)) emptyServer
      (fun r _ => r.2 = ⟨200, ∅, text "hello"⟩) (fun _ => False) := by
  have hlast : Ensures (do
      let run ← serveAll plainDevice [(helloPut, nothingArrives)]
      let resp ← handle plainDevice nothingArrives helloGet
      return (run, resp)) emptyServer
      (fun r _ => lastStored (objectKey helloGet.path) r.1 = some (text "hello"))
      (fun _ => False) := by
    decide +kernel
  have hget := get_returns_last_stored plainDevice [(helloPut, nothingArrives)]
    plainGet_helloGet nothingArrives emptyServer
  generalize (serveAll plainDevice [(helloPut, nothingArrives)] >>= _) = x
    at hlast hget ⊢
  refine (hget.and hlast).mono ?_ fun _ h => h.2
  rintro r t ⟨hresp, hstored⟩
  rw [hresp, hstored]
  rfl

end HipObject.Server
