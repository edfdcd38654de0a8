import HipObject.Rdma.Reply
import HipObject.Rdma.Reset

/-!
# The test server

The RC server of the integration tests, `test/integration/rdma-test-server`: what
it reads from an `x-amz-rdma-token` header, and how it writes an object to the
client's memory, or reads one from there, on its one connection.

The size of a transfer comes from the header's suffix, the object, the request's
Content-Length or the token, in an order that differs between the directions.
Only the suffix takes part in the token that the work request is checked against.

What happens while a transfer runs is an argument: the completions that the
device adds, how often the server polls before its deadline, and what an RDMA
READ brings.
-/

namespace HipObject.Server

open HipObject Codec Verification

/-! ### Token headers -/

/-- A parsed `x-amz-rdma-token` value: the token with the suffix's overrides, and
the suffix's length, or 0. -/
structure TokenHeader where
  token : RdmaToken
  length : BitVec 64
  deriving DecidableEq

def notColon (c : Byte) : Bool := c ≠ ascii ':'

/-- An encoded token, and optionally `:<addr>:<len>` in hex. A third colon lands in
the text of the length, which then doesn't parse. -/
def parseTokenHeader (header : List Byte) : Option TokenHeader :=
  match decodeRdmaTokenHex (header.takeWhile notColon) with
  | none => none
  | some decoded =>
      match header.dropWhile notColon with
      | [] => some ⟨decoded, 0⟩
      | _ :: suffix =>
          match suffix.dropWhile notColon with
          | [] => none
          | _ :: lengthText =>
              match parseNumber 64 (suffix.takeWhile notColon) 16, parseNumber 64 lengthText 16 with
              | some addr, some len =>
                  some {
                    token := { decoded with
                      remoteAddr := if addr ≠ 0 then addr else decoded.remoteAddr
                      length := if len ≠ 0 then len else decoded.length }
                    length := len }
              | _, _ => none

/-! ### The server -/

def kCqSize : Nat := 256
def kMaxSendWr : Nat := 128
def kMaxRecvWr : Nat := 128
def kStagingSize : Nat := 64 * 1024 * 1024

/-- `ibv_wc_opcode`. -/
def IBV_WC_RDMA_WRITE : Nat := 1
def IBV_WC_RDMA_READ : Nat := 2

/-- `RdmaTestServer::Impl`, without the device: the first `kStagingSize` bytes of
`staging` are the staging buffer. -/
structure Impl where
  staging : Nat → Byte
  /-- Empty when the server can't serve RDMA. -/
  conn : Option RcConnection
  /-- An exception left a destructor. -/
  terminated : Bool

/-- What the outside does during a transfer. -/
structure Outside where
  arrivals : List Completion
  rounds : Nat
  incoming : Nat → Byte

structure ReadResult where
  data : List Byte
  replyHeader : List Byte

/-- The token of a reply, which names the server's queue pair and no memory. -/
def buildServerToken (device : RdmaDevice) (conn : RcConnection) : RdmaToken where
  qpNum := conn.qp.qpNum
  gid := device.localGid
  rkey := 0
  remoteAddr := 0
  length := 0
  transport := .RC
  portNum := 0
  lid := 0

/-- Posts a work request for `size` bytes, and waits for its completion. -/
def postRdma (out : Outside) (opcode : WrOpcode) (wcOpcode size : Nat) (clientToken : RdmaToken) :
    VerbsM RcConnection Bool := do
  let env ← get
  match ← call (.postSend env.obj.qp.id
      ⟨opcode, BitVec.ofNat 32 size, clientToken.remoteAddr, clientToken.rkey⟩) with
  | .success _ =>
      modify fun env => { env with
        obj.cq.completions := env.obj.cq.completions ++ out.arrivals }
      pollCompletion (some wcOpcode) out.rounds
  | _ => return false

def postRdmaWrite (out : Outside) (size : Nat) (clientToken : RdmaToken) :
    VerbsM RcConnection Bool := postRdma out .RDMA_WRITE IBV_WC_RDMA_WRITE size clientToken

def postRdmaRead (out : Outside) (size : Nat) (clientToken : RdmaToken) :
    VerbsM RcConnection Bool := postRdma out .RDMA_READ IBV_WC_RDMA_READ size clientToken

/-- Code on the server's connection. -/
def onConn {α : Type} (conn : RcConnection) (x : VerbsM RcConnection α) : VerbsM Impl α :=
  fun env =>
  match x ⟨env.answers, env.log, conn⟩ with
  | .ok a t => .ok a ⟨t.answers, t.log, { env.obj with conn := some t.obj }⟩
  | .error e t => .error e ⟨t.answers, t.log, { env.obj with conn := some t.obj }⟩

/-- Destroys the connection and makes a new one, if it can. -/
def resetQp : VerbsM Impl Unit := do
  match (← get).obj.conn with
  | none => return
  | some conn =>
      -- The old objects are destroyed before the new ones are created.
      destroyConnection conn
      modify fun env => { env with obj.conn := none }
      match ← createRcConnection kCqSize kMaxSendWr kMaxRecvWr with
      | none => return
      | some fresh => modify fun env => { env with obj.conn := some fresh }

def terminate (env : Env Impl) : Env Impl := { env with obj.terminated := true }

/-- Runs code under a `ScopeGuard`: the cleanup runs on every way out, and its
destructor lets no exception leave. -/
def guarded {α : Type} (cleanup : VerbsM Impl Unit) (x : VerbsM Impl α) : VerbsM Impl α :=
  fun env =>
  match x env with
  | .ok a t =>
      match cleanup t with
      | .ok _ u => .ok a u
      | .error e u => .error e (terminate u)
  | .error e t =>
      match cleanup t with
      | .ok _ u => .error e u
      | .error e' u => .error e' (terminate u)

/-- Connects, and posts and waits: the token for the reply, unless one fails. -/
def serve (device : RdmaDevice) (clientToken : RdmaToken) (post : VerbsM RcConnection Bool) :
    VerbsM RcConnection (Option RdmaToken) := do
  if !(← connectRcPeer device clientToken) then return none
  else if !(← post) then return none
  else return some (buildServerToken device (← get).obj)

/-- How much `rdmaWriteToClient` writes. -/
def writeSize (tokenHeader : TokenHeader) (data : List Byte) : Nat :=
  if tokenHeader.length = 0 then data.length else tokenHeader.length.toNat

def rdmaWriteToClient (device : RdmaDevice) (out : Outside) (tokenHeader : TokenHeader)
    (data : List Byte) : VerbsM Impl (Option (List Byte)) := do
  match (← get).obj.conn with
  | none => return none
  | some conn =>
      let xferSize := writeSize tokenHeader data
      if data.length < xferSize ∨ xferSize > kStagingSize then return none
      else
        modify fun env => { env with
          obj.staging := fun i => if i < xferSize then data.getD i 0 else env.obj.staging i }
        guarded resetQp do
          match ← onConn conn (serve device tokenHeader.token
              (postRdmaWrite out xferSize tokenHeader.token)) with
          | none => return none
          | some serverToken => return some (encodeReplyWithPeerToken kHttpOk serverToken)

/-- How much `rdmaReadFromClient` reads. -/
def readSize (tokenHeader : TokenHeader) (size : BitVec 64) : BitVec 64 :=
  let xferSize := if size ≠ 0 then size else tokenHeader.length
  if xferSize = 0 then tokenHeader.token.length else xferSize

def rdmaReadFromClient (device : RdmaDevice) (out : Outside) (tokenHeader : TokenHeader)
    (size : BitVec 64) : VerbsM Impl (Option ReadResult) := do
  match (← get).obj.conn with
  | none => return none
  | some conn =>
      let xferSize := (readSize tokenHeader size).toNat
      if xferSize > kStagingSize then return none
      else
        guarded resetQp do
          match ← onConn conn (serve device tokenHeader.token
              (postRdmaRead out xferSize tokenHeader.token)) with
          | none => return none
          | some serverToken =>
              modify fun env => { env with
                obj.staging := fun i => if i < xferSize then out.incoming i else env.obj.staging i }
              return some {
                data := (List.range xferSize).map out.incoming
                replyHeader := encodeReplyWithPeerToken kHttpOk serverToken }

end HipObject.Server
