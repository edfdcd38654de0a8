import HipObject.Bridge.Requests

/-!
# A PUT that the server acknowledged

`Client::PutObject` of the MinIO bridge, and when its success means that the
server has the data. `rdmaPut` looks at the HTTP status and the etag before it
looks for an `x-amz-rdma-reply`, so a server that ignores the token and stores
the empty body is taken at its word.

The result is always what the last response says, in the sense of `putVerdict`.
-/

namespace HipObject.Bridge

open HipObject Codec Verification

/-! ### The client -/

/-- Why an RDMA transfer didn't move the data. -/
inductive Failure where
  | notSupported
  | error
  | noBytesTransferred
  deriving DecidableEq

def describeFailure (result : RdmaResult) : Failure :=
  if result.status = .NotSupported then .notSupported
  else if result.status = .Failed then .error
  else .noBytesTransferred

/-- The errors that `PutObject` makes itself, or passes on. -/
inductive PutError where
  | validate (text : List Byte)
  /-- "size must be set when buf is set" -/
  | sizeMissing
  /-- "object size is too large" -/
  | sizeTooLarge
  /-- "hipObjBufRegister failed: " and the error -/
  | registerFailed (err : OpError)
  | region (text : List Byte)
  /-- "RDMA PUT failed (" the failure ") and the payload is device memory; no HTTP
  fallback is possible" -/
  | deviceMemory (failure : Failure)
  deriving DecidableEq

/-- The response to a `PutObject`: an error, what minio-cpp's own `PutObject`
answers, or the etag of a transfer that RDMA completed. -/
inductive PutResponse where
  | error (err : PutError)
  | http (answer : Except (List Byte) (List Byte))
  | rdma (etag : List Byte)

/-- The arguments of a `PutObject` and what the outside answers. -/
structure PutCall where
  validate : Option (List Byte)
  buf : Option (BitVec 64)
  size : Option (BitVec 64)
  ensureInit : OpError
  register : OpError
  /-- `GetRegion`, if it returns: an error, or a region. -/
  getRegion : Option (Except (List Byte) (List Byte))
  attempts : Nat → Attempt
  attr : Option MemoryType
  http : Except (List Byte) (List Byte)

def note (event : ClientEvent) : BridgeM Unit :=
  modify fun s => { s with events := s.events ++ [event] }

/-- Runs code that may own the registration of the buffer, which is undone when
the code returns or throws. -/
def owning {α : Type} (registered : Bool) (x : BridgeM α) : BridgeM α := fun s =>
  let undo (t : State) : State :=
    if registered then { t with events := t.events ++ [.deregister] } else t
  match x s with
  | .ok a t => .ok a (undo t)
  | .error e t => .error e (undo t)

section Client

variable (device : RdmaDevice) (tokenQpNum : BitVec 32)

/-- `PutObject` once the buffer is registered. -/
def putRegistered (c : PutCall) (buf size : BitVec 64) : BridgeM PutResponse := do
  match c.getRegion with
  | none => throw .thrown
  | some (.error text) => return .error (.region text)
  | some (.ok _) =>
      modify fun s => { s with sctx := ⟨[], 0, [], []⟩ }
      let ret ← rdmaPutWithRetry device tokenQpNum c.attempts buf size
      if ret.status = .Ok ∧ ret.bytes > 0 then
        note (.countRdmaPut ret.bytes)
        return .rdma (← get).sctx.etag
      else if isDevicePointer c.attr then return .error (.deviceMemory (describeFailure ret))
      else
        note (.readBuf size)
        note (.countHttpPut size)
        return .http c.http

def putObject (c : PutCall) : BridgeM PutResponse := do
  match c.validate, c.buf, c.size with
  | some text, _, _ => return .error (.validate text)
  | none, none, _ => return .http c.http
  | none, some _, none => return .error .sizeMissing
  | none, some buf, some size =>
      if size.toNat ≥ 2 ^ 63 then return .error .sizeTooLarge
      else if c.ensureInit ≠ .Success then
        -- the buffer is copied before its memory is looked at
        note (.readBuf size)
        note (.countHttpPut size)
        return .http c.http
      else if c.register ≠ .Success ∧ c.register ≠ .BufAlreadyRegistered then
        return .error (.registerFailed c.register)
      else owning (c.register = .Success) (putRegistered device tokenQpNum c buf size)

end Client

/-! ### What a response says -/

/-- The server says that it has done the transfer. -/
def Response.Acknowledged (res : Response) : Prop :=
  ∃ code, hipObjParseRdmaReply (res.headers.getFront .rdmaReply) = .ok code ∧
    (code = kRdmaReplySuccess ∨ code = kRdmaReplyNoContent)

/-- The response to a PUT that stored an object, as S3 defines it. -/
def Response.PlainSuccess (res : Response) : Prop :=
  res.error = [] ∧ res.statusCode = kHttpOk ∧ res.headers.getFront .etag ≠ []

/-- The result that `finishPut` returns. -/
def putVerdict (res : Response) (size : BitVec 64) : RdmaResult :=
  if !res.error.isEmpty then .failed
  else if res.statusCode = kHttpOk ∧ !(res.headers.getFront .etag).isEmpty then ⟨.Ok, size⟩
  else
    let replyCode := parseRdmaReply (res.headers.getFront .rdmaReply)
    if replyCode = some kRdmaReplyNotImplemented then .notSupported
    else if replyCode ≠ some kRdmaReplySuccess ∧ replyCode ≠ some kRdmaReplyNoContent then .failed
    else ⟨.Ok, size⟩

theorem acknowledged_of_parseRdmaReply {res : Response} {code : Int}
    (h : parseRdmaReply (res.headers.getFront .rdmaReply) = some code)
    (hcode : code = kRdmaReplySuccess ∨ code = kRdmaReplyNoContent) : res.Acknowledged := by
  unfold parseRdmaReply at h
  split at h
  · cases h
    rcases hcode with hcode | hcode
    · cases hcode
    · cases hcode
  · split at h
    · cases h
    · rename_i hparse
      cases h
      exact ⟨code, hparse, hcode⟩

/-- A success is a plain one or an acknowledged one. -/
theorem putVerdict_ok {res : Response} {size : BitVec 64} (h : (putVerdict res size).status = .Ok) :
    res.PlainSuccess ∨ res.Acknowledged := by
  unfold putVerdict at h
  split at h
  · cases h
  rename_i herror
  split at h
  · rename_i hplain
    refine .inl ⟨by simpa using herror, hplain.1, ?_⟩
    simpa using hplain.2
  dsimp only at h
  split at h
  · cases h
  split at h
  · cases h
  rename_i hcode
  rw [not_and_or, not_not, not_not] at hcode
  rcases hcode with hcode | hcode
  · exact .inr (acknowledged_of_parseRdmaReply hcode (.inl rfl))
  · exact .inr (acknowledged_of_parseRdmaReply hcode (.inr rfl))

theorem putVerdict_of_plainSuccess {res : Response} {size : BitVec 64} (h : res.PlainSuccess) :
    putVerdict res size = ⟨.Ok, size⟩ := by
  obtain ⟨herror, hstatus, hetag⟩ := h
  have hetag : (res.headers.getFront .etag).isEmpty = false := by simpa using hetag
  simp [putVerdict, herror, hstatus, hetag]

theorem getFront_of_absent {headers : Multimap} {name : Header}
    (h : headers.contains name = false) : headers.getFront name = [] := by
  have hnone : headers name = [] := by simpa [Multimap.contains] using h
  simp [Multimap.getFront, hnone]

theorem not_acknowledged_of_absent {res : Response}
    (habsent : res.headers.contains .rdmaReply = false) : ¬res.Acknowledged := by
  rintro ⟨code, hparse, -⟩
  rw [getFront_of_absent habsent] at hparse
  cases hparse

/-- Without the header the server is asked to do without RDMA, unless the
response is a plain success. -/
theorem putVerdict_of_absent {res : Response} {size : BitVec 64} (herror : res.error = [])
    (habsent : res.headers.contains .rdmaReply = false) (h : ¬res.PlainSuccess) :
    putVerdict res size = .notSupported := by
  have hplain : ¬(res.statusCode = kHttpOk ∧ !(res.headers.getFront .etag).isEmpty) := by
    rintro ⟨hstatus, hetag⟩
    exact h ⟨herror, hstatus, by simpa using hetag⟩
  unfold putVerdict
  rw [herror, if_neg (by simp), if_neg hplain, getFront_of_absent habsent]
  rfl

/-- After a success of some bytes, and after a server that does without RDMA, there
is no further attempt. -/
theorem putVerdict_of_not_final {res : Response} {size : BitVec 64} (hsize : size ≠ 0)
    (h : ¬(((putVerdict res size).status = .Ok ∧ (putVerdict res size).bytes > 0) ∨
      (putVerdict res size).status = .NotSupported)) : putVerdict res size = .failed := by
  have hpos : size > 0 := size.pos_iff_ne_zero.mpr hsize
  unfold putVerdict at h ⊢
  split
  · rfl
  rename_i herror
  rw [if_neg herror] at h
  split
  · rename_i hplain
    rw [if_pos hplain] at h
    exact absurd (.inl ⟨rfl, hpos⟩) h
  rename_i hplain
  rw [if_neg hplain] at h
  dsimp only at h ⊢
  split
  · rename_i hcode
    rw [if_pos hcode] at h
    exact absurd (.inr rfl) h
  rename_i hcode
  rw [if_neg hcode] at h
  split
  · rfl
  · rename_i hother
    rw [if_neg hother] at h
    exact absurd (.inl ⟨rfl, hpos⟩) h

/-! ### What a run returns -/

/-- The result is what the last response says, and it is a failure if there was
no response. Empty buffers get no token. -/
def Decided (size : BitVec 64) (result : RdmaResult) (received : List Response) : Prop :=
  (received = [] ∧ result = .failed) ∨
    size ≠ 0 ∧ ∃ res, received.getLast? = some res ∧ result = putVerdict res size

section Runs

variable {device : RdmaDevice} {tokenQpNum : BitVec 32}

theorem finishPut_spec (a : Attempt) (res : Response) (size : BitVec 64) (s : State) :
    Ensures (finishPut a res size) s
      (fun r t => r = putVerdict res size ∧ t.received = s.received) (fun _ => False) := by
  unfold finishPut putVerdict
  refine Ensures.ite (fun herror => ?_) fun herror => ?_
  · rw [if_pos herror]
    exact ⟨rfl, rfl⟩
  rw [if_neg herror]
  refine Ensures.ite (fun hplain => ?_) fun hplain => ?_
  · rw [if_pos hplain]
    exact Ensures.modify_bind ⟨rfl, rfl⟩
  rw [if_neg hplain]
  refine Ensures.ite (fun hcode => ?_) fun hcode => ?_
  · rw [if_pos hcode]
    exact ⟨rfl, rfl⟩
  rw [if_neg hcode]
  refine Ensures.ite (fun hother => ?_) fun hother => ?_
  · rw [if_pos hother]
    exact ⟨rfl, rfl⟩
  rw [if_neg hother]
  refine Ensures.ite (fun _ => ?_) fun _ => ?_
  · exact Ensures.modify_bind (Ensures.modify_bind ⟨rfl, rfl⟩)
  · exact Ensures.modify_bind ⟨rfl, rfl⟩

/-- One request receives one response at most, and returns what it says. -/
theorem rdmaPut_spec (a : Attempt) (token : List Byte) (size : BitVec 64) (s : State) :
    Ensures (rdmaPut a token size) s
      (fun r t => (t.received = s.received ∧ r = .failed) ∨
        ∃ res, t.received = s.received ++ [res] ∧ r = putVerdict res size)
      (fun _ => True) := by
  unfold rdmaPut
  cases a.fetch with
  | none => trivial
  | some sessionToken =>
      refine Ensures.get_bind (Ensures.ite (fun _ => .inl ⟨rfl, rfl⟩) fun _ => ?_)
      cases a.buildUrl with
      | none => exact .inl ⟨rfl, rfl⟩
      | some host =>
          refine Ensures.bind (Ensures.get_bind ?_)
          cases a.execute _ s.memory with
          | none => trivial
          | some answer =>
              refine Ensures.modify_bind ((finishPut_spec a answer.1 size _).mono ?_
                fun _ h => h.elim)
              rintro r t ⟨rfl, ht⟩
              exact .inr ⟨answer.1, ht, rfl⟩

theorem Decided.snoc {size : BitVec 64} (received : List Response) (res : Response)
    (hsize : size ≠ 0) : Decided size (putVerdict res size) (received ++ [res]) :=
  .inr ⟨hsize, res, List.getLast?_concat, rfl⟩

/-- An attempt keeps the result in step with the responses. If it doesn't decide,
the result is a failure. -/
theorem putAttempt_spec (a : Attempt) (buf size : BitVec 64) (s : State)
    (h : Decided size .failed s.received) :
    Ensures (putAttempt device tokenQpNum buf size a) s
      (Round.Leaves (fun r t => Decided size r t.received)
        (fun r t => Decided size r t.received ∧ r = .failed))
      (fun _ => True) := by
  unfold putAttempt
  cases htoken : hipObjGetRdmaToken device tokenQpNum a.tokenLookup a.allocates buf size
      HIPOBJ_RDMA_OP_PUT with
  | error err => exact h
  | ok token =>
      have hsize := (hipObjGetRdmaToken_ok htoken).1
      refine Ensures.bind (Ensures.get_bind (Ensures.modify_bind ?_))
      refine Ensures.ite (fun _ => h) fun _ => ?_
      refine Ensures.bind ((rdmaPut_spec a token size _).mono ?_ fun _ h => h)
      intro r t hr
      have hdecided : Decided size r t.received := by
        rcases hr with ⟨ht, rfl⟩ | ⟨res, ht, rfl⟩
        · rw [ht]
          exact h
        · rw [ht]
          exact .snoc _ res hsize
      refine Ensures.ite (fun _ => hdecided) fun hother => ⟨hdecided, ?_⟩
      rcases hr with ⟨-, rfl⟩ | ⟨res, -, rfl⟩
      · rfl
      · exact putVerdict_of_not_final hsize hother

theorem rdmaPutWithRetry_spec (attempts : Nat → Attempt) (buf size : BitVec 64) (s : State)
    (h : s.received = []) :
    Ensures (rdmaPutWithRetry device tokenQpNum attempts buf size) s
      (fun r t => Decided size r t.received) (fun _ => True) := by
  refine Ensures.retry (I := fun r t => Decided size r t.received ∧ r = .failed) ?_ ?_ _ _ ?_
  · rintro i r t ⟨hr, rfl⟩
    exact putAttempt_spec (attempts i) buf size t hr
  · exact fun r t hr => hr.1
  · exact ⟨.inl ⟨h, rfl⟩, rfl⟩

/-- What `PutObject` makes of the result of the transfer. -/
def Reports (c : PutCall) (result : RdmaResult) (response : PutResponse) : Prop :=
  if result.status = .Ok ∧ result.bytes > 0 then ∃ etag, response = .rdma etag
  else if isDevicePointer c.attr then
    response = .error (.deviceMemory (describeFailure result))
  else response = .http c.http

theorem owning_spec {α : Type} {registered : Bool} {x : BridgeM α} {s : State}
    {Q : α → List Response → Prop} (h : Ensures x s (fun a t => Q a t.received) fun _ => True) :
    Ensures (owning registered x) s (fun a t => Q a t.received) fun _ => True := by
  unfold Ensures owning at *
  cases hx : x s with
  | ok a t =>
      rw [hx] at h
      dsimp only
      split
      · exact h
      · exact h
  | error e t => trivial

/-- A `PutObject` either receives no response to an RDMA request and reports none,
or reports the result of the transfer. -/
theorem putObject_spec (c : PutCall) (s : State) (h : s.received = []) :
    Ensures (putObject device tokenQpNum c) s
      (fun response t => (t.received = [] ∧ ∀ etag, response ≠ .rdma etag) ∨
        ∃ size result, Decided size result t.received ∧ Reports c result response)
      (fun _ => True) := by
  unfold putObject
  cases c.validate with
  | some text => exact .inl ⟨h, by simp⟩
  | none =>
      cases c.buf with
      | none => exact .inl ⟨h, by simp⟩
      | some buf =>
          cases c.size with
          | none => exact .inl ⟨h, by simp⟩
          | some size =>
              refine Ensures.ite (fun _ => .inl ⟨h, by simp⟩) fun _ => ?_
              refine Ensures.ite (fun _ => Ensures.modify_bind (Ensures.modify_bind
                (.inl ⟨h, by simp⟩))) fun _ => ?_
              refine Ensures.ite (fun _ => .inl ⟨h, by simp⟩) fun _ => ?_
              refine owning_spec (Q := fun response received =>
                (received = [] ∧ ∀ etag, response ≠ .rdma etag) ∨
                  ∃ size result, Decided size result received ∧ Reports c result response) ?_
              unfold putRegistered
              cases c.getRegion with
              | none => trivial
              | some region =>
                  cases region with
                  | error text => exact .inl ⟨h, by simp⟩
                  | ok region =>
                      refine Ensures.modify_bind (Ensures.bind ((rdmaPutWithRetry_spec c.attempts
                        buf size { s with sctx := ⟨[], 0, [], []⟩ } h).mono ?_ fun _ h => h))
                      intro result t hresult
                      unfold Reports
                      refine Ensures.ite (fun hok => ?_) fun hok => ?_
                      · refine Ensures.modify_bind (.inr ⟨size, result, hresult, ?_⟩)
                        rw [if_pos hok]
                        exact ⟨_, rfl⟩
                      refine Ensures.ite (fun hdevice => .inr ⟨size, result, hresult, ?_⟩)
                        fun hdevice => ?_
                      · rw [if_neg hok, if_pos hdevice]
                      · refine Ensures.modify_bind (Ensures.modify_bind
                          (.inr ⟨size, result, hresult, ?_⟩))
                        rw [if_neg hok, if_neg hdevice]

end Runs

/-! ### When success is acknowledged -/

/-- A success follows an acknowledgement, and a response without the header says
that the server doesn't support RDMA. -/
def PutHonest (size : BitVec 64) (result : RdmaResult) (received : List Response) : Prop :=
  (result = ⟨.Ok, size⟩ → ∃ res, received.getLast? = some res ∧ res.Acknowledged) ∧
    ∀ res, received.getLast? = some res → res.error = [] →
      res.headers.contains .rdmaReply = false → result.status = .NotSupported

/-- The same of the client: after a response without the header it takes HTTP, or
says that it can't. -/
def PutObjectHonest (c : PutCall) (response : PutResponse) (received : List Response) : Prop :=
  (∀ etag, response = .rdma etag → ∃ res, received.getLast? = some res ∧ res.Acknowledged) ∧
    ∀ res, received.getLast? = some res → res.error = [] →
      res.headers.contains .rdmaReply = false →
        if isDevicePointer c.attr then response = .error (.deviceMemory .notSupported)
        else response = .http c.http

/-- The last response is no plain success without an acknowledgement. -/
def LastAcknowledged (received : List Response) : Prop :=
  ∀ res, received.getLast? = some res → res.PlainSuccess → res.Acknowledged

theorem putVerdict_honest {res : Response} (size : BitVec 64)
    (h : res.PlainSuccess → res.Acknowledged) :
    ((putVerdict res size).status = .Ok → res.Acknowledged) ∧
      (res.error = [] → res.headers.contains .rdmaReply = false →
        putVerdict res size = .notSupported) := by
  refine ⟨fun hok => (putVerdict_ok hok).elim h id, ?_⟩
  intro herror habsent
  exact putVerdict_of_absent herror habsent fun hplain =>
    not_acknowledged_of_absent habsent (h hplain)

theorem Decided.honest_iff {size : BitVec 64} {result : RdmaResult} {received : List Response}
    (h : Decided size result received) :
    PutHonest size result received ↔ LastAcknowledged received := by
  rcases h with ⟨rfl, rfl⟩ | ⟨-, res, hlast, rfl⟩
  · refine iff_of_true ⟨?_, fun res hres => by cases hres⟩ fun res hres => by cases hres
    intro hok
    cases hok
  constructor
  · rintro ⟨hok, -⟩ res' hres' hplain
    cases hlast.symm.trans hres'
    obtain ⟨res', hres', hacknowledged⟩ := hok (putVerdict_of_plainSuccess hplain)
    cases hlast.symm.trans hres'
    exact hacknowledged
  · intro hcond
    obtain ⟨hok, habsent⟩ := putVerdict_honest size (hcond res hlast)
    refine ⟨fun hresult => ⟨res, hlast, hok (by rw [hresult])⟩, ?_⟩
    intro res' hres' herror hnone
    cases hlast.symm.trans hres'
    rw [habsent herror hnone]
    rfl

theorem Reports.honest_iff {c : PutCall} {response : PutResponse} {size : BitVec 64}
    {result : RdmaResult} {received : List Response} (hreports : Reports c result response)
    (h : Decided size result received) :
    PutObjectHonest c response received ↔ LastAcknowledged received := by
  rcases h with ⟨rfl, rfl⟩ | ⟨hsize, res, hlast, rfl⟩
  · refine iff_of_true ⟨?_, fun res hres => by cases hres⟩ fun res hres => by cases hres
    rintro etag rfl
    unfold Reports at hreports
    rw [if_neg (by decide)] at hreports
    split at hreports
    · cases hreports
    · cases hreports
  have hpos : size > 0 := size.pos_iff_ne_zero.mpr hsize
  constructor
  · rintro ⟨hok, -⟩ res' hres' hplain
    cases hlast.symm.trans hres'
    unfold Reports at hreports
    rw [putVerdict_of_plainSuccess hplain, if_pos ⟨rfl, hpos⟩] at hreports
    obtain ⟨etag, hetag⟩ := hreports
    obtain ⟨res', hres', hacknowledged⟩ := hok etag hetag
    cases hlast.symm.trans hres'
    exact hacknowledged
  · intro hcond
    obtain ⟨hok, habsent⟩ := putVerdict_honest size (hcond res hlast)
    constructor
    · rintro etag rfl
      unfold Reports at hreports
      split at hreports
      · rename_i hverdict
        exact ⟨res, hlast, hok hverdict.1⟩
      · split at hreports
        · cases hreports
        · cases hreports
    · intro res' hres' herror hnone
      cases hlast.symm.trans hres'
      unfold Reports at hreports
      rwa [habsent herror hnone, if_neg (by decide)] at hreports

/-- The bridge reports only what the server acknowledged if and only if the last
response is no plain success without an acknowledgement. -/
theorem put_acknowledged_iff (device : RdmaDevice) (tokenQpNum : BitVec 32) :
    (∀ attempts buf size sctx memory events,
      Ensures (rdmaPutWithRetry device tokenQpNum attempts buf size) ⟨sctx, memory, [], events⟩
        (fun result t => PutHonest size result t.received ↔ LastAcknowledged t.received)
        (fun _ => True)) ∧
    ∀ call sctx memory events,
      Ensures (putObject device tokenQpNum call) ⟨sctx, memory, [], events⟩
        (fun response t => PutObjectHonest call response t.received ↔ LastAcknowledged t.received)
        (fun _ => True) := by
  refine ⟨?_, ?_⟩
  · intro attempts buf size sctx memory events
    exact (rdmaPutWithRetry_spec attempts buf size _ rfl).mono (fun _ _ h => h.honest_iff)
      fun _ h => h
  · intro call sctx memory events
    refine (putObject_spec call _ rfl).mono ?_ fun _ h => h
    rintro response t (⟨hnone, hother⟩ | ⟨size, result, hdecided, hreports⟩)
    · rw [hnone]
      refine iff_of_true ⟨fun etag hetag => absurd hetag (hother etag), ?_⟩ ?_
      · exact fun res hres => by cases hres
      · exact fun res hres => by cases hres
    · exact hreports.honest_iff hdecided

/-! ### A server that ignores the token -/

/-- The response of a server that stored the empty body. -/
def plainResponse : Response where
  error := []
  statusCode := 200
  headers := fun name => if name = .etag then [[ascii 'e']] else []

/-- A buffer of one byte that the NIC reaches directly. -/
def oneByte : BufEntry where
  hostBuf := none
  mr := ⟨0, 16, 1, 0⟩
  size := 1
  isDmabuf := false
  remoteAddr := 16
  leakHostBuf := false
  key := 16
  info := none

/-- An attempt in which everything works and the server doesn't know tokens. -/
def plainAttempt : Attempt where
  tokenLookup := ⟨true, some oneByte, false⟩
  allocates := true
  syncLookup := ⟨true, some oneByte, false⟩
  copy := .success
  date := []
  fetch := some []
  buildUrl := some []
  execute := fun _ memory => some (plainResponse, memory)
  trimQuotes := id

def plainDevice : RdmaDevice := ⟨1, 0, .replicate 16 0⟩

def plainPut : PutCall where
  validate := none
  buf := some 16
  size := some 1
  ensureInit := .Success
  register := .Success
  getRegion := some (.ok [])
  attempts := fun _ => plainAttempt
  attr := none
  http := .ok []

theorem plainResponse_not_acknowledged : ¬plainResponse.Acknowledged :=
  not_acknowledged_of_absent rfl

/-- The transfer and the client both report a success that nobody acknowledged. -/
theorem plainPut_not_honest :
    (¬∀ attempts buf size sctx memory,
      Ensures (rdmaPutWithRetry plainDevice 1 attempts buf size) ⟨sctx, memory, [], []⟩
        (fun result t => PutHonest size result t.received) (fun _ => True)) ∧
    ¬∀ call sctx memory,
      Ensures (putObject plainDevice 1 call) ⟨sctx, memory, [], []⟩
        (fun response t => PutObjectHonest call response t.received) (fun _ => True) := by
  constructor
  · intro h
    obtain ⟨hok, -⟩ := h (fun _ => plainAttempt) 16 1 ⟨[], 0, [], []⟩ fun _ => 0
    obtain ⟨res, hlast, hacknowledged⟩ := hok rfl
    cases hlast
    exact plainResponse_not_acknowledged hacknowledged
  · intro h
    obtain ⟨hok, -⟩ := h plainPut ⟨[], 0, [], []⟩ fun _ => 0
    obtain ⟨res, hlast, hacknowledged⟩ := hok _ rfl
    cases hlast
    exact plainResponse_not_acknowledged hacknowledged

end HipObject.Bridge
