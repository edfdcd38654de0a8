import HipObject.Buffer.Instance

/-!
# The steps of a call

Each program counter has a function that says what the code there does with the
reply it gets from the outside, following `hipobj.cpp` and `buffer.cpp` line by
line. A call that returns, or that an exception leaves, unwinds: its local
variables are destroyed one by one, in the order C++ destroys them.
-/

namespace HipObject

open Verification

/-- What a step of a call is told by the outside: by HIP, verbs, the pool, the
application, or the allocator. -/
inductive Reply where
  | ok
  | fail
  /-- An exception, from HIP, verbs, a callback, or while a message is printed. -/
  | threw
  | pointer (info : PointerInfo)
  | mr (rkey : BitVec 32)
  | memory (attr : Option MemoryType) (addr : Option (BitVec 64))
  | statuses (answers : Copy → InstanceState.Answer)
  | lease (result : Except AcquireError (BitVec 32))
  | status (status : EventStatus) (expired : Bool)

/-- The staging copy that a call leaves to itself when it gets a reply: `eventRecord`
failed or threw, or `eventQuery` threw. -/
def Pc.leaves : Pc → Reply → Option StagingCopy
  | .eventRecord _ _ copy, .fail => some copy
  | .eventRecord _ _ copy, .threw => some copy
  | .eventQuery _ _ copy, .threw => some copy
  | _, _ => none

/-- A call after a step, and the state without the change to the call. -/
abbrev Stepped := Option (Call × InstanceState)

namespace Call

def goto (c : Call) (pc : Pc) : Call := { c with pc := pc }

/-- Returns, with what is left to destroy. -/
def ret (c : Call) (locals : Locals) (result : OpError) : Call :=
  { c with pc := .unwind locals result }

/-- Notes what the outside sees. -/
def note (c : Call) (effect : Effect) : Call := { c with effects := effect :: c.effects }

end Call

namespace InstanceState

variable (setup : Setup) (s : InstanceState) (c : Call)

/-- The entry a `shared_ptr` points to. -/
def entryAt (i : Nat) : Option BufEntry := (Cell.lookup s.heap i).map Cell.value

/-- The start of a public call that has found the instance. -/
def startStep (reply : Reply) : Stepped :=
  match c.op with
  | .register devPtr size =>
      if checkRegistrationArgs devPtr size ≠ .Success then
        some (c.ret .empty (checkRegistrationArgs devPtr size), s)
      else match reply with
        | .pointer info =>
            if !isValidDeviceRange info devPtr size then some (c.ret .empty .InvalidValue, s)
            else some (c.goto (.precheck (some info)), s)
        | .threw => some (c.ret .empty .InternalError, s)
        | _ => none
  | .registerHost hostPtr size =>
      if checkRegistrationArgs hostPtr size ≠ .Success then
        some (c.ret .empty (checkRegistrationArgs hostPtr size), s)
      else some (c.goto (.precheck none), s)
  | .deregister devPtr =>
      if devPtr = 0 then some (c.ret .empty .InvalidValue, s)
      else some (c.goto .reclaim, s)
  | op =>
      if op.argsValid then some (c.goto .find, s)
      else some (c.ret .empty .InvalidValue, s)

/-! ### Registering -/

/-- `precheck()`, under the shared lock. Only `registerBuffer` tries a dma-buf. -/
def precheckStep (info : Option PointerInfo) : Stepped :=
  if c.op.size > MAX_MR_SIZE then some (c.ret .empty (registrationError .Failed), s)
  else match s.refusal c.op.devPtr with
    | some refused => some (c.ret .empty (registrationError refused), s)
    | none =>
        if info.isSome && setup.dmabufEnabled && setup.supportsDmabuf then
          some (c.goto (.exportDmabuf info), s)
        else some (c.goto (.regMr info), s)

def exportDmabufStep (info : Option PointerInfo) : Reply → Stepped
  | .ok => some (c.goto (.regDmabufMr info s.next),
      { s with opened := s.next :: s.opened, next := s.next + 1 })
  | .fail => some (c.goto (.regMr info), s)
  | .threw => some (c.ret .empty .InternalError, s)
  | _ => none

/-- A memory region over the given range. -/
def newMr (addr : BitVec 64) (rkey : BitVec 32) : Mr := ⟨s.next, addr, c.op.size, rkey⟩

def registerMr (mr : Mr) : InstanceState :=
  { s with registered := mr :: s.registered, next := s.next + 1 }

def regDmabufMrStep (info : Option PointerInfo) (fd : Nat) : Reply → Stepped
  | .mr rkey =>
      let mr := s.newMr c c.op.devPtr rkey
      some (c.goto (.closeDmabuf info fd (some mr)), s.registerMr mr)
  | .fail => some (c.goto (.closeDmabuf info fd none), s)
  | .threw => some (c.ret { Locals.empty with fd := some fd } .InternalError, s)
  | _ => none

/-- The dma-buf is closed after its MR is made, or after the text of the error is,
which can throw. -/
def closeDmabufStep (info : Option PointerInfo) (fd : Nat) (mr : Option Mr) (reply : Reply) :
    Stepped :=
  let closed := { s with closed := fd :: s.closed }
  match mr, reply with
  | some mr, _ => some (c.goto (.build info mr none), closed)
  | none, .threw => some (c.ret { Locals.empty with fd := some fd } .InternalError, s)
  | none, _ => some (c.goto (.regMr info), closed)

/-- `reg_mr` of the caller's memory. Only `registerBuffer` goes on when it fails. -/
def regMrStep (info : Option PointerInfo) : Reply → Stepped
  | .mr rkey =>
      let mr := s.newMr c c.op.devPtr rkey
      some (c.goto (.build info mr none), s.registerMr mr)
  | .fail =>
      if info.isSome then some (c.goto (.hostMalloc info), s)
      else some (c.ret .empty (registrationError .Failed), s)
  | .threw => some (c.ret .empty .InternalError, s)
  | _ => none

/-- The staging buffer. What is allocated has the size asked for, and its end
doesn't wrap. -/
def hostMallocStep (info : Option PointerInfo) : Reply → Stepped
  | .memory attr addr =>
      if isDevicePointer attr && setup.requireGpuDirect then
        some (c.ret .empty (registrationError .Failed), s)
      else match addr with
        | none => some (c.ret .empty (registrationError .Failed), s)
        | some addr =>
            if addr ≠ 0 ∧ addr.toNat + c.op.size.toNat < 2 ^ 64 then
              let hostBuf : HostBuf := ⟨s.next, addr, c.op.size⟩
              some (c.goto (.regStagingMr info hostBuf),
                { s with allocated := hostBuf :: s.allocated, next := s.next + 1 })
            else none
  | .threw => some (c.ret .empty .InternalError, s)
  | _ => none

def regStagingMrStep (info : Option PointerInfo) (hostBuf : HostBuf) : Reply → Stepped
  | .mr rkey =>
      let mr := s.newMr c hostBuf.addr rkey
      some (c.goto (.build info mr (some hostBuf)), s.registerMr mr)
  | .fail =>
      some (c.ret { Locals.empty with hostBuf := some hostBuf } (registrationError .Failed), s)
  | .threw => some (c.ret { Locals.empty with hostBuf := some hostBuf } .InternalError, s)
  | _ => none

/-- The entry that a registration builds. -/
def newEntry (info : Option PointerInfo) (mr : Mr) (hostBuf : Option HostBuf) : BufEntry where
  hostBuf := hostBuf
  mr := mr
  size := c.op.size
  isDmabuf := info.isSome && hostBuf.isNone
  remoteAddr := (hostBuf.map HostBuf.addr).getD c.op.devPtr
  leakHostBuf := false
  key := c.op.devPtr
  info := info

/-- `std::make_shared`, which can throw. -/
def buildStep (info : Option PointerInfo) (mr : Mr) (hostBuf : Option HostBuf) : Reply → Stepped
  | .ok => some ({ c.goto (.insert s.next) with built := some s.next },
      { s with
        heap := ⟨s.next, 1, newEntry c info mr hostBuf⟩ :: s.heap
        next := s.next + 1 })
  | .fail =>
      some (c.ret { Locals.empty with mr := some mr, hostBuf := hostBuf } .InternalError, s)
  | _ => none

/-- `insert()`, under the exclusive lock. The map can fail to allocate. -/
def insertStep (entry : Nat) (reply : Reply) : Stepped :=
  match s.refusal c.op.devPtr with
  | some refused =>
      some (c.ret { Locals.empty with entry := some entry } (registrationError refused), s)
  | none =>
      match reply with
      | .ok => some (c.ret .empty (registrationError .Registered),
          { s with
            entries := (c.op.devPtr, entry) :: s.entries
            inserted := (c.id, c.op.devPtr, entry) :: s.inserted })
      | .fail => some (c.ret { Locals.empty with entry := some entry } .InternalError, s)
      | _ => none

/-! ### Deregistering -/

/-- Releases a copy that is over: its event, then its entry. -/
def dropCopy (copy : Copy) : InstanceState := (s.destroyEvent copy.done).dropRef copy.entry

def reclaimStep : Reply → Stepped
  | .statuses answers =>
      (s.release none answers).map fun (s, r) =>
        if r.threw then (c.ret { Locals.empty with ended := r.ended } .InternalError, s)
        else (c.goto (.remove r.ended), s)
  | _ => none

/-- The critical section of `deregisterBuffer()`, once the copies that `reclaim()`
took out are released. -/
def removeStep : List Copy → Stepped
  | copy :: rest => some (c.goto (.remove rest), s.dropCopy copy)
  | [] =>
      match s.lookupKey c.op.devPtr with
      | none => some (c.ret .empty .BufNotRegistered, s)
      | some i =>
          (Cell.lookup s.heap i).map fun cell =>
            if cell.useCount > 1 then (c.ret .empty .Busy, s)
            else (c.ret { Locals.empty with entry := some i } .Success,
              { s with entries := s.entries.erase (c.op.devPtr, i) })

/-! ### Using a buffer -/

/-- `find()`, under the shared lock. -/
def findStep : Stepped :=
  match s.lookupKey c.op.devPtr with
  | none => some (c.goto (.checkBufferArgs none), s)
  | some i => some ({ c.goto (.checkBufferArgs (some i)) with found := s.entryAt i },
      { s with heap := Cell.retain s.heap i })

def checkBufferArgsStep (buf : Option Nat) : Stepped :=
  match buf, checkBufferArgs c.op.devPtr (buf.bind s.entryAt) c.op.size c.op.offset with
  | some i, .Success => some (c.goto (.checkNoAbandonedCopy i), s)
  | buf, err => some (c.ret { Locals.empty with buf := buf } err, s)

/-- Only a staged entry can have abandoned copies, so only then are they asked. -/
def checkNoAbandonedCopyStep (buf : Nat) (reply : Reply) : Stepped :=
  (s.entryAt buf).bind fun entry =>
    if entry.hostBuf.isNone then some (c.goto (.checked buf [] false), s)
    else match reply with
      | .statuses answers =>
          (s.release (some buf) answers).map fun (s, r) =>
            if r.threw then
              (c.ret { Locals.empty with buf := some buf, ended := r.ended } .InternalError, s)
            else ({ c.goto (.checked buf r.ended r.stillRunning) with
              blocked := r.stillRunning }, s)
      | _ => none

/-- After the check: the copies it took out are released, and the call goes on
with its own work. -/
def checkedStep (buf : Nat) (stillRunning : Bool) : List Copy → Stepped
  | copy :: rest => some (c.goto (.checked buf rest stillRunning), s.dropCopy copy)
  | [] =>
      if stillRunning then some (c.ret { Locals.empty with buf := some buf } .Busy, s)
      else match c.op with
        | .get .. => some (c.goto (.acquire buf), s)
        | .put .. => some (c.goto (.stage buf), s)
        | .sync .. => some (c.goto (.stage buf), s)
        | .getRdmaToken .. => some (c.goto (.buildToken buf setup.tokenQpNum), s)
        | _ => none

/-- Returns while only `buf` is alive. -/
def retBuf (buf : Nat) (result : OpError) : Call × InstanceState :=
  (c.ret { Locals.empty with buf := some buf } result, s)

/-! ### The transfer -/

def acquireStep (buf : Nat) : Reply → Stepped
  | .lease (.error e) => some (s.retBuf c buf (acquireError e))
  | .lease (.ok qpNum) => some ((c.goto (.buildToken buf qpNum)).note .leased, s)
  | .threw => some (s.retBuf c buf .InternalError)
  | _ => none

/-- A transfer goes on to the callbacks; `hipObjGetRdmaToken` needs memory for the
text it returns. -/
def buildTokenStep (buf : Nat) (qpNum : BitVec 32) (reply : Reply) : Stepped :=
  (s.entryAt buf).bind fun entry =>
    match buildRdmaToken setup.device qpNum entry c.op.size c.op.offset with
    | none => some (s.retBuf c buf .RdmaError)
    | some token =>
        let c := c.note (.minted token)
        match c.op, reply with
        | .getRdmaToken .., .ok => some (s.retBuf c buf .Success)
        | .getRdmaToken .., .fail => some (s.retBuf c buf .InternalError)
        | .getRdmaToken .., _ => none
        | _, _ => some (c.goto (.sendRequest buf), s)

def sendRequestStep (buf : Nat) : Reply → Stepped
  | .ok => some ((c.goto (.recvReply buf)).note .sentRequest, s)
  | .fail => some (s.retBuf (c.note .sentRequest) buf .S3Error)
  | .threw => some (s.retBuf (c.note .sentRequest) buf .InternalError)
  | _ => none

def recvReplyStep (buf : Nat) : Reply → Stepped
  | .ok => some ((c.goto (.finishTransfer buf)).note .receivedReply, s)
  | .fail => some (s.retBuf (c.note .receivedReply) buf .S3Error)
  | .threw => some (s.retBuf (c.note .receivedReply) buf .InternalError)
  | _ => none

def finishTransferStep (buf : Nat) : Reply → Stepped
  | .ok =>
      match c.op with
      | .get .. => some (c.goto (.stage buf), s)
      | _ => some (s.retBuf c buf .Success)
  | .fail => some (s.retBuf c buf .RdmaError)
  | .threw => some (s.retBuf c buf .InternalError)
  | _ => none

/-! ### Staging -/

/-- What follows a staging copy that succeeded, or was not needed. -/
def afterStage (buf : Nat) : Call × InstanceState :=
  match c.op with
  | .put .. => (c.goto (.acquire buf), s)
  | _ => s.retBuf c buf .Success

/-- `stageToDevice` or `stageToHost`, up to where the room for the copy is set
aside, which can throw. -/
def stageStep (buf : Nat) (reply : Reply) : Stepped :=
  (s.entryAt buf).bind fun entry =>
    if entry.hostBuf.isNone then some (s.afterStage c buf)
    else if !rangeInRegistration c.op.offset c.op.size entry.size then
      some (s.retBuf c buf .InvalidValue)
    else match reply with
      | .ok => some (c.goto (.eventCreate buf), s.reserve)
      | .fail => some (s.retBuf c buf .InternalError)
      | _ => none

def eventCreateStep (buf : Nat) : Reply → Stepped
  | .ok => some (c.goto (.memcpyAsync buf s.next),
      { s with created := s.next :: s.created, next := s.next + 1 })
  | .fail => some (c.ret { Locals.empty with buf := some buf, slot := true } .InternalError, s)
  | .threw => some (c.ret { Locals.empty with buf := some buf, slot := true } .InternalError, s)
  | _ => none

/-- Leaves `stageCopyWithDeadline` with an error. -/
def retStage (buf event : Nat) : Call × InstanceState :=
  (c.ret { Locals.empty with buf := some buf, slot := true, event := some event } .InternalError, s)

def memcpyAsyncStep (buf event : Nat) : Reply → Stepped
  | .ok =>
      (s.entryAt buf).bind fun entry => entry.hostBuf.map fun hostBuf =>
        let copy : StagingCopy := ⟨s.next, buf, hostBuf⟩
        ((c.goto (.eventRecord buf event copy)).note (.startedCopy copy),
          { s with started := copy :: s.started, next := s.next + 1 })
  | .fail => some (s.retStage c buf event)
  | .threw => some (s.retStage c buf event)
  | _ => none

def eventRecordStep (buf event : Nat) (copy : StagingCopy) : Reply → Stepped
  | .ok => some (c.goto (.eventQuery buf event copy), s)
  | .fail => some (s.retStage c buf event)
  | .threw => some (s.retStage c buf event)
  | _ => none

/-- One turn of the loop that waits for the copy. -/
def eventQueryStep (buf event : Nat) (copy : StagingCopy) : Reply → Stepped
  | .status status expired =>
      let asked := { s with queried := (event, status) :: s.queried }
      match status with
      | .notReady =>
          if expired then some (c.goto (.add buf event copy), asked)
          else some (c.goto (.eventQuery buf event copy), asked)
      | .success =>
          if copy ∈ s.finished then some (c.goto (.staged buf (some event)), asked) else none
      | .error => if copy ∈ s.finished then some (asked.retStage c buf event) else none
  | .threw => some (s.retStage c buf event)
  | _ => none

def addStep (buf event : Nat) (copy : StagingCopy) : Stepped :=
  some ((s.addCopy ⟨buf, event, copy⟩).retBuf c buf .InternalError)

/-- The end of `stageCopyWithDeadline` after a copy that succeeded: the event is
destroyed, then the room is given back. -/
def stagedStep (buf : Nat) : Option Nat → Stepped
  | some event => some (c.goto (.staged buf none), s.destroyEvent event)
  | none => some ({ s with reserved := s.reserved - 1 }.afterStage c buf)

/-! ### Unwinding -/

/-- Destroys one local variable. -/
def unwindStep (l : Locals) (result : OpError) : Stepped :=
  match l.ended, l.fd, l.event, l.slot, l.mr, l.hostBuf, l.entry, l.buf with
  | copy :: rest, _, _, _, _, _, _, _ =>
      some (c.ret { l with ended := rest } result, s.dropCopy copy)
  | _, some fd, _, _, _, _, _, _ =>
      some (c.ret { l with fd := none } result, { s with closed := fd :: s.closed })
  | _, _, some event, _, _, _, _, _ =>
      some (c.ret { l with event := none } result, s.destroyEvent event)
  | _, _, _, true, _, _, _, _ =>
      some (c.ret { l with slot := false } result, { s with reserved := s.reserved - 1 })
  | _, _, _, _, some mr, _, _, _ =>
      some (c.ret { l with mr := none } result, { s with deregistered := mr :: s.deregistered })
  | _, _, _, _, _, some hostBuf, _, _ =>
      some (c.ret { l with hostBuf := none } result, { s with freed := hostBuf :: s.freed })
  | _, _, _, _, _, _, some i, _ => some (c.ret { l with entry := none } result, s.dropRef i)
  | _, _, _, _, _, _, _, some i => some (c.ret { l with buf := none } result, s.dropRef i)
  | _, _, _, _, _, _, _, _ => none

/-- The next step of a call. -/
def callStep (reply : Reply) : Stepped :=
  match c.pc with
  | .start => s.startStep c reply
  | .precheck info => s.precheckStep setup c info
  | .exportDmabuf info => s.exportDmabufStep c info reply
  | .regDmabufMr info fd => s.regDmabufMrStep c info fd reply
  | .closeDmabuf info fd mr => s.closeDmabufStep c info fd mr reply
  | .regMr info => s.regMrStep c info reply
  | .hostMalloc info => s.hostMallocStep setup c info reply
  | .regStagingMr info hostBuf => s.regStagingMrStep c info hostBuf reply
  | .build info mr hostBuf => s.buildStep c info mr hostBuf reply
  | .insert entry => s.insertStep c entry reply
  | .reclaim => s.reclaimStep c reply
  | .remove ended => s.removeStep c ended
  | .find => s.findStep c
  | .checkBufferArgs buf => s.checkBufferArgsStep c buf
  | .checkNoAbandonedCopy buf => s.checkNoAbandonedCopyStep c buf reply
  | .checked buf ended stillRunning => s.checkedStep setup c buf stillRunning ended
  | .acquire buf => s.acquireStep c buf reply
  | .buildToken buf qpNum => s.buildTokenStep setup c buf qpNum reply
  | .sendRequest buf => s.sendRequestStep c buf reply
  | .recvReply buf => s.recvReplyStep c buf reply
  | .finishTransfer buf => s.finishTransferStep c buf reply
  | .stage buf => s.stageStep c buf reply
  | .eventCreate buf => s.eventCreateStep c buf reply
  | .memcpyAsync buf event => s.memcpyAsyncStep c buf event reply
  | .eventRecord buf event copy => s.eventRecordStep c buf event copy reply
  | .eventQuery buf event copy => s.eventQueryStep c buf event copy reply
  | .add buf event copy => s.addStep c buf event copy
  | .staged buf event => s.stagedStep c buf event
  | .unwind locals result => s.unwindStep c locals result

/-! ### Destroying the instance -/

/-- `~AbandonedCopies`: the staging buffer of a copy that isn't over is marked,
and its event is leaked. -/
def markLeaked : Copy × EventStatus → InstanceState
  | (copy, .notReady) =>
      { s with
        heap := Cell.modify s.heap copy.entry BufEntry.leak
        eventsLeaked := copy.done :: s.eventsLeaked }
  | _ => s

/-- The end of a record: its event, unless it is leaked, and its entry. -/
def dropRecord : Copy × EventStatus → InstanceState
  | (copy, .notReady) => s.dropRef copy.entry
  | (copy, _) => s.dropCopy copy

/-- `~Instance`, as far as the abandoned copies and the buffers go. -/
def destroyInstance (queries : List (Copy × EventStatus)) : InstanceState :=
  let marked := queries.foldl markLeaked s
  let dropped := queries.foldl dropRecord marked
  let emptied := s.entries.foldl (fun s e => s.dropRef e.2) dropped
  { emptied with copies := [], entries := [], destroyed := true }

end InstanceState

/-! ### The machine -/

inductive InstanceAction where
  | begin (op : Op)
  | step (c : Call) (reply : Reply)
  | ret (c : Call)
  | finishCopy (copy : StagingCopy)
  | shutdown
  | destroy (answers : Copy → EventStatus)

/-- A step of a call, of the runtime, or of the instance itself. A call finds
the instance while it is current, and keeps it alive until it returns. -/
def instanceStep (setup : Setup) (s : InstanceState) : InstanceAction → Option InstanceState
  | .begin op =>
      if s.current then
        some { s with calls := .new s.next op :: s.calls, next := s.next + 1 }
      else none
  | .step c reply =>
      if c ∈ s.calls then
        (s.callStep setup c reply).map fun (c', t) => { t with calls := c' :: s.calls.erase c }
      else none
  | .ret c =>
      if c ∈ s.calls ∧ c.pc.locals = .empty then
        match c.pc with
        | .unwind _ _ => some { s with calls := s.calls.erase c, returned := c :: s.returned }
        | _ => none
      else none
  | .finishCopy copy =>
      if copy ∈ s.started ∧ copy ∉ s.finished then
        some { s with finished := copy :: s.finished }
      else none
  | .shutdown => some { s with current := false }
  | .destroy answers =>
      let queries := s.copies.map fun copy => (copy, answers copy)
      if s.current = false ∧ s.destroyed = false ∧ s.calls = [] ∧ s.Truthful queries then
        some (s.destroyInstance queries)
      else none

/-- An instance that has just been published. -/
def InstanceState.initial : InstanceState where
  entries := []
  copies := []
  capacity := 0
  reserved := 0
  heap := []
  calls := []
  current := true
  destroyed := false
  next := 0
  registered := []
  deregistered := []
  allocated := []
  freed := []
  leaked := []
  opened := []
  closed := []
  created := []
  eventsDestroyed := []
  eventsLeaked := []
  started := []
  finished := []
  queried := []
  inserted := []
  returned := []

def instanceMachine (setup : Setup) : Machine InstanceState InstanceAction where
  init := fun s => s = .initial
  step := instanceStep setup

/-! ### What each step requires, and what it does -/

section Steps

variable {setup : Setup} {s t : InstanceState} {c : Call}

theorem instanceStep_begin_eq {op : Op} (h : instanceStep setup s (.begin op) = some t) :
    s.current = true ∧ t = { s with calls := .new s.next op :: s.calls, next := s.next + 1 } := by
  simp only [instanceStep, Option.ite_none_right_eq_some, Option.some.injEq] at h
  exact ⟨h.1, h.2.symm⟩

theorem instanceStep_step_eq {reply : Reply} (h : instanceStep setup s (.step c reply) = some t) :
    c ∈ s.calls ∧ ∃ c' u, s.callStep setup c reply = some (c', u) ∧
      t = { u with calls := c' :: s.calls.erase c } := by
  simp only [instanceStep, Option.ite_none_right_eq_some, Option.map_eq_some_iff,
    Prod.exists] at h
  obtain ⟨hmem, c', u, hstep, rfl⟩ := h
  exact ⟨hmem, c', u, hstep, rfl⟩

theorem instanceStep_ret_eq (h : instanceStep setup s (.ret c) = some t) :
    c ∈ s.calls ∧ (∃ result, c.pc = .unwind .empty result) ∧
      t = { s with calls := s.calls.erase c, returned := c :: s.returned } := by
  simp only [instanceStep, Option.ite_none_right_eq_some] at h
  obtain ⟨⟨hmem, hempty⟩, h⟩ := h
  split at h
  · rename_i locals result hpc
    cases h
    have hlocals : locals = .empty := by rwa [hpc] at hempty
    exact ⟨hmem, ⟨result, hlocals ▸ hpc⟩, rfl⟩
  · cases h

theorem instanceStep_finishCopy_eq {copy : StagingCopy}
    (h : instanceStep setup s (.finishCopy copy) = some t) :
    copy ∈ s.started ∧ copy ∉ s.finished ∧ t = { s with finished := copy :: s.finished } := by
  simp only [instanceStep, Option.ite_none_right_eq_some, Option.some.injEq] at h
  exact ⟨h.1.1, h.1.2, h.2.symm⟩

theorem instanceStep_destroy_eq {answers : Copy → EventStatus}
    (h : instanceStep setup s (.destroy answers) = some t) :
    s.current = false ∧ s.destroyed = false ∧ s.calls = [] ∧
      s.Truthful (s.copies.map fun copy => (copy, answers copy)) ∧
      t = s.destroyInstance (s.copies.map fun copy => (copy, answers copy)) := by
  simp only [instanceStep, Option.ite_none_right_eq_some, Option.some.injEq] at h
  obtain ⟨⟨hretired, halive, hidle, htruthful⟩, rfl⟩ := h
  exact ⟨hretired, halive, hidle, htruthful, rfl⟩

end Steps

end HipObject
