import HipObject.Buffer.Data
import HipObject.Rdma.Reply

/-!
# A transfer from start to end

`hipObjGet` and `hipObjPut` on one thread, with everything they see of the
outside. The outside answers each call as it likes, knowing all that happened
before, and can throw from any of them; how long a deadline is left open is a
number of rounds. The trace has every answer in order.

Verbs calls are those of `rdma/transport.cpp`. Completions can arrive between two
polls. What the pool does with a connection that is given back is its own
business and leaves one event here.
-/

namespace HipObject.Transfers

open HipObject Codec Verification

/-- What a call does and what it is answered. -/
inductive TransferEvent where
  | eventCreate (ok : Bool)
  | memcpyAsync (toDevice : Bool) (copy : Memcpy) (ok : Bool)
  | eventRecord (ok : Bool)
  | eventQuery (status : EventStatus)
  | acquired (conn : RcConnection)
  | sendRequest (token : List Byte) (ret : Int)
  | recvReply (ret : Int) (replyLen : Nat) (text : List Byte)
  | verbs (call : VerbsCall) (ok : Bool)
  | polled (result : Option (Option Completion))
  | deviceSynchronize (ok : Bool)
  | released

abbrev Trace := List TransferEvent

/-- How the outside answers after what has happened. Nothing is an exception. -/
structure Outside where
  reserve : Trace → Option Unit
  eventCreate : Trace → Option Bool
  memcpyAsync : Trace → Option Bool
  eventRecord : Trace → Option Bool
  eventQuery : Trace → Option EventStatus
  /-- The queries of the event before the deadline is found to have passed. -/
  stageRounds : Trace → Nat
  acquire : Trace → Option (Except AcquireError RcConnection)
  sendRequest : Trace → List Byte → Option Int
  /-- What `recvReply` returns, the length it sets, and the buffer it leaves. -/
  recvReply : Trace → Option (Int × Nat × List Byte)
  verbs : Trace → List Answer
  /-- The completions that have arrived since the last poll. -/
  arrivals : Trace → List Completion
  /-- The polls that start before the deadline. -/
  pollRounds : Trace → Nat
  deviceSynchronize : Trace → Option Bool

abbrev TransferM (α : Type) := EStateM Thrown Trace α

/-- Asks the outside and notes the answer. -/
def observe {α : Type} (answer : Trace → Option α) (event : α → TransferEvent) : TransferM α :=
  fun trace =>
    match answer trace with
    | none => .error .thrown trace
    | some a => .ok a (trace ++ [event a])

section Program

variable (O : Outside) (device : RdmaDevice)

/-! ### Staging -/

/-- `for (;;)` around `eventQuery`. -/
def waitForCopy : Nat → TransferM OpError
  | 0 => do
      match ← observe O.eventQuery .eventQuery with
      | .success => return .Success
      | _ => return .InternalError
  | rounds + 1 => do
      match ← observe O.eventQuery .eventQuery with
      | .success => return .Success
      | .error => return .InternalError
      | .notReady => waitForCopy rounds

def stageCopyWithDeadline (toDevice : Bool) (copy : Memcpy) : TransferM OpError := do
  match O.reserve (← get) with
  | none => throw .thrown
  | some _ =>
      if !(← observe O.eventCreate .eventCreate) then return .InternalError
      else if !(← observe O.memcpyAsync (.memcpyAsync toDevice copy)) then return .InternalError
      else if !(← observe O.eventRecord .eventRecord) then return .InternalError
      else waitForCopy O (O.stageRounds (← get))

def stageToDevice (buf : BufEntry) (devPtr size offset : BitVec 64) : TransferM OpError := do
  match buf.hostBuf with
  | none => return .Success
  | some hostBuf =>
      if !rangeInRegistration offset size buf.size then return .InvalidValue
      else stageCopyWithDeadline O true (HipObject.stageToDevice devPtr hostBuf size offset)

def stageToHost (buf : BufEntry) (devPtr size offset : BitVec 64) : TransferM OpError := do
  match buf.hostBuf with
  | none => return .Success
  | some hostBuf =>
      if !rangeInRegistration offset size buf.size then return .InvalidValue
      else stageCopyWithDeadline O false (HipObject.stageToHost devPtr hostBuf size offset)

/-! ### Verbs -/

/-- Verbs calls with whether they were answered with success. A script that has
run out answers with a failure. -/
def outcomes : List VerbsCall → List Answer → Trace
  | [], _ => []
  | c :: calls, [] => .verbs c false :: outcomes calls []
  | c :: calls, .success _ :: answers => .verbs c true :: outcomes calls answers
  | c :: calls, _ :: answers => .verbs c false :: outcomes calls answers

/-- Runs verbs calls on the leased connection. -/
def onConnection {α : Type} (conn : RcConnection) (x : VerbsM RcConnection α) :
    TransferM (α × RcConnection) := fun trace =>
  match x ⟨O.verbs trace, [], conn⟩ with
  | .ok a env => .ok (a, env.obj) (trace ++ outcomes env.log (O.verbs trace))
  | .error e env => .error e (trace ++ outcomes env.log (O.verbs trace))

/-- One poll, of what has arrived by then. -/
def poll (conn : RcConnection) : TransferM (Option (Option Completion) × RcConnection) :=
  fun trace =>
    let completions := conn.cq.completions ++ O.arrivals trace
    match pollCq ⟨O.verbs trace, [], { conn with cq.completions := completions }⟩ with
    | .ok result env => .ok (result, env.obj) (trace ++ [.polled result])
    | .error e _ => .error e trace

/-- `pollCompletion`, with the number of rounds that start before the deadline. -/
def pollRounds : Nat → RcConnection → TransferM Bool
  | 0, _ => return false
  | rounds + 1, conn => do
      let (result, conn) ← poll O conn
      match roundResult none result with
      | some done => return done
      | none => pollRounds rounds conn

/-! ### The transfer -/

def kReplyBufLen : Nat := 512

/-- `injectRdmaToken`. The callback is not null. -/
def injectRdmaToken (token : List Byte) : TransferM Bool := do
  let ret ← observe (fun trace => O.sendRequest trace token) (.sendRequest token)
  return ret = 0

/-- `receiveRdmaReplyRaw`: the text and its status. The callback is not null. -/
def receiveRdmaReplyRaw : TransferM (Option (List Byte × RdmaReplyStatus)) := do
  let (ret, replyLen, replyBuf) ← observe O.recvReply fun (ret, replyLen, replyBuf) =>
    .recvReply ret replyLen (replyBuf.take replyLen)
  if ret ≠ 0 then return none
  else if replyLen > kReplyBufLen then return none
  else
    let received := replyBuf.take replyLen
    match decodeRdmaReply received with
    | none => return none
    | some status => return some (received, status)

/-- `lease.connect` if the reply has a peer token. -/
def connectPeer (conn : RcConnection) (reply : List Byte) : TransferM (Bool × RcConnection) := do
  match parsePeerTokenFromReply reply with
  | none => return (true, conn)
  | some peerToken => onConnection O conn (connectRcPeer device peerToken)

def finishTransferAfterReply (conn : RcConnection) (reply : List Byte)
    (requiresDeviceSync : Bool) : TransferM Bool := do
  let (connected, conn) ← connectPeer O device conn reply
  if !connected then return false
  else if !(← pollRounds O (O.pollRounds (← get)) conn) then return false
  else if !requiresDeviceSync then return true
  else observe O.deviceSynchronize .deviceSynchronize

/-- Runs code that holds a lease, which ends when the code returns or throws. -/
def leasing {α : Type} (x : TransferM α) : TransferM α := fun trace =>
  match x trace with
  | .ok a t => .ok a (t ++ [.released])
  | .error e t => .error e (t ++ [.released])

/-- `runRdmaTransfer` with a lease. -/
def transferOn (conn : RcConnection) (buf : BufEntry) (size offset : BitVec 64) :
    TransferM OpError := do
  match buildRdmaToken device conn.qp.qpNum buf size offset with
  | none => return .RdmaError
  | some token =>
      if !(← injectRdmaToken O ((encodeRdmaTokenHex token).take kRdmaTokenHexLen)) then
        return .S3Error
      else match ← receiveRdmaReplyRaw O with
        | none => return .S3Error
        | some (text, status) =>
            if status ≠ .Success then return .S3Error
            else if !(← finishTransferAfterReply O device conn text buf.isDmabuf) then
              return .RdmaError
            else return .Success

def runRdmaTransfer (buf : BufEntry) (size offset : BitVec 64) : TransferM OpError := fun trace =>
  match O.acquire trace with
  | none => .error .thrown trace
  | some (.error e) => .ok (acquireError e) trace
  | some (.ok conn) =>
      leasing (transferOn O device conn buf size offset) (trace ++ [.acquired conn])

/-! ### The public calls -/

/-- The checks of both calls, and the buffer. -/
def checked (look : Lookup) (ops : Bool) (devPtr size offset : BitVec 64) :
    Except OpError BufEntry :=
  if !look.initialized then .error .NotInitialized
  else if !ops then .error .InvalidValue
  else match checkBufferArgs devPtr look.buf size offset, look.buf with
    | .Success, some buf =>
        if look.checkNoAbandonedCopy buf ≠ .Success then
          .error (look.checkNoAbandonedCopy buf)
        else .ok buf
    | err, _ => .error err

/-- `catch (...)`. -/
def catching (x : TransferM OpError) : TransferM OpError :=
  tryCatch x fun _ => return .InternalError

def hipObjGet (look : Lookup) (ops : Bool) (devPtr size offset : BitVec 64) :
    TransferM OpError :=
  catching (do
    match checked look ops devPtr size offset with
    | .error err => return err
    | .ok buf =>
        let err ← runRdmaTransfer O device buf size offset
        if err ≠ .Success then return err
        else stageToDevice O buf devPtr size offset)

def hipObjPut (look : Lookup) (ops : Bool) (devPtr size offset : BitVec 64) :
    TransferM OpError :=
  catching (do
    match checked look ops devPtr size offset with
    | .error err => return err
    | .ok buf =>
        let err ← stageToHost O buf devPtr size offset
        if err ≠ .Success then return err
        else runRdmaTransfer O device buf size offset)

end Program

end HipObject.Transfers
