import HipObject.Bridge.Calls
import HipObject.Verification.Retry

/-!
# Transfers over HTTP with a token

`rdma.cpp` of the MinIO bridge. A transfer is one HTTP request that carries a
token in a header and no data; the server moves the data by RDMA before it
answers. `rdmaPut` and `rdmaGet` make one request and read the answer, and their
`WithRetry` forms mint a token, stage the data, and try again.

Everything that is not in this repository is in `Attempt`: what the library finds
when the attempt calls it, and what minio-cpp answers. minio-cpp signs the
request before it sends it, which adds headers and changes none.
-/

namespace HipObject.Bridge

open HipObject Codec Verification

/-! ### Requests and responses -/

/-- The headers that the bridge writes or reads. -/
inductive Header where
  | host
  | amzDate
  | amzContentSha256
  | rdmaToken
  | contentType
  | contentLength
  | checksumCrc64nvme
  | securityToken
  | etag
  | rdmaReply
  | rdmaBytesTransferred
  | other (name : List Byte)
  deriving DecidableEq

/-- `minio::utils::Multimap`: the values of each header, in order. -/
abbrev Multimap := Header → List (List Byte)

def Multimap.contains (headers : Multimap) (name : Header) : Bool := !(headers name).isEmpty

/-- The first value, which is empty if there is none. -/
def Multimap.getFront (headers : Multimap) (name : Header) : List Byte :=
  (headers name).headD []

/-- `minio::http::Response`. The error is not empty if the request failed. -/
structure Response where
  error : List Byte
  statusCode : Int
  headers : Multimap

inductive Method where
  | put
  | get
  deriving DecidableEq

/-- `minio::http::Request`, before it is signed. -/
structure Request where
  method : Method
  query : Option (List Byte × List Byte)
  headers : List (Header × List Byte)
  nicInterface : List Byte

/-- Constants of `rdma.h` and `rdma.cpp`. -/
def kRdmaReplySuccess : Int := 200
def kRdmaReplyNoContent : Int := 204
def kRdmaReplyPartialContent : Int := 206
def kRdmaReplyNotImplemented : Int := 501
def kRdmaMaxAttempts : Nat := 2
def kMaxPartNumber : Nat := 10000

/-- `S3RdmaContext`, without what only goes into the request's URL. -/
structure S3RdmaContext where
  uploadId : List Byte
  partNumber : BitVec 32
  checksum : List Byte
  etag : List Byte

inductive RdmaStatus where
  | Ok
  | Failed
  | NotSupported
  deriving DecidableEq, Repr

structure RdmaResult where
  status : RdmaStatus
  bytes : BitVec 64
  deriving DecidableEq

def RdmaResult.failed : RdmaResult := ⟨.Failed, 0⟩
def RdmaResult.notSupported : RdmaResult := ⟨.NotSupported, 0⟩

/-! ### What the outside does -/

/-- One attempt, as the outside sees it. -/
structure Attempt where
  tokenLookup : Lookup
  allocates : Bool
  syncLookup : Lookup
  copy : CopyOutcome
  /-- The date that goes into the request. -/
  date : List Byte
  /-- The session token of the credentials, if `Fetch` returns. -/
  fetch : Option (List Byte)
  /-- The host of the URL, if there is one. -/
  buildUrl : Option (List Byte)
  /-- The response and the memory that the server leaves, if `Execute` returns. -/
  execute : Request → Memory → Option (Response × Memory)
  /-- `minio::utils::Trim` of quotes. -/
  trimQuotes : List Byte → List Byte

/-- What the client does besides the requests: its counters, the host code that
reads or writes the caller's buffer, and the registration that it undoes. A
`subspan` past the end of the buffer is undefined. -/
inductive ClientEvent where
  | countRdmaPut (bytes : BitVec 64)
  | countRdmaGet (bytes : BitVec 64)
  | countHttpPut (bytes : BitVec 64)
  | countHttpGet (bytes : BitVec 64)
  | readBuf (bytes : BitVec 64)
  | writeBuf (offset : Nat) (data : List Byte)
  | subspanOutOfRange
  | deregister
  deriving DecidableEq

/-- What a transfer changes, the responses that it has received, and what the
client has done. -/
structure State where
  sctx : S3RdmaContext
  memory : Memory
  received : List Response
  events : List ClientEvent

abbrev BridgeM (α : Type) := EStateM Thrown State α

/-- `Request::Execute`. -/
def execute (a : Attempt) (req : Request) : BridgeM Response := do
  match a.execute req (← get).memory with
  | none => throw .thrown
  | some (res, memory) =>
      modify fun s => { s with memory := memory, received := s.received ++ [res] }
      return res

/-! ### One request -/

/-- The HTTP status in an `x-amz-rdma-reply` value. A server that doesn't support
RDMA leaves the header out. -/
def parseRdmaReply (rdmaReply : List Byte) : Option Int :=
  if rdmaReply.isEmpty then some kRdmaReplyNotImplemented
  else match hipObjParseRdmaReply rdmaReply with
    | .error _ => none
    | .ok httpCode => some httpCode

/-- The address of the NIC that a token names, or nothing. -/
def clientNicFromToken (token : List Byte) : List Byte :=
  match hipObjTokenClientNic token (.replicate 16 0) with
  | (.Success, nicIp) => nicIp.takeWhile (· ≠ 0)
  | _ => []

/-- A response header's value, if the response has the header. -/
def headerValue (headers : Multimap) (name : Header) : Option (List Byte) :=
  if headers.contains name then some (headers.getFront name) else none

def parseBytesTransferred (value : Option (List Byte)) (ifAbsent : BitVec 64) :
    Option (BitVec 64) :=
  match value with
  | none => some ifAbsent
  | some text => parseNumber 64 text 10

def kUnsignedPayload : List Byte := "UNSIGNED-PAYLOAD".toList.map ascii
def kOctetStream : List Byte := "application/octet-stream".toList.map ascii

/-- The headers that every request has. -/
def signHeaders (host date token : List Byte) : List (Header × List Byte) :=
  [(.host, host), (.amzDate, date), (.amzContentSha256, kUnsignedPayload), (.rdmaToken, token)]

def optionalHeader (name : Header) (value : List Byte) : List (Header × List Byte) :=
  if value.isEmpty then [] else [(name, value)]

def putRequest (sctx : S3RdmaContext) (host date token sessionToken : List Byte) : Request where
  method := .put
  query := if sctx.uploadId.isEmpty then none
    else some (sctx.uploadId, natToDecimal sctx.partNumber.toNat)
  headers := signHeaders host date token ++
    [(.contentType, kOctetStream), (.contentLength, natToDecimal 0)] ++
    optionalHeader .checksumCrc64nvme sctx.checksum ++ optionalHeader .securityToken sessionToken
  nicInterface := clientNicFromToken token

def getRequest (host date token sessionToken : List Byte) : Request where
  method := .get
  query := none
  headers := signHeaders host date token ++ optionalHeader .securityToken sessionToken
  nicInterface := clientNicFromToken token

def setEtag (etag : List Byte) : BridgeM Unit :=
  modify fun s => { s with sctx := { s.sctx with etag := etag } }

def setChecksum (checksum : List Byte) : BridgeM Unit :=
  modify fun s => { s with sctx := { s.sctx with checksum := checksum } }

/-- `rdmaPut` after the response. -/
def finishPut (a : Attempt) (res : Response) (size : BitVec 64) : BridgeM RdmaResult := do
  if !res.error.isEmpty then return .failed
  else
    let etag := res.headers.getFront .etag
    if res.statusCode = kHttpOk ∧ !etag.isEmpty then
      setEtag (a.trimQuotes etag)
      return ⟨.Ok, size⟩
    else
      let replyCode := parseRdmaReply (res.headers.getFront .rdmaReply)
      if replyCode = some kRdmaReplyNotImplemented then return .notSupported
      else if replyCode ≠ some kRdmaReplySuccess ∧ replyCode ≠ some kRdmaReplyNoContent then
        return .failed
      else
        let respChecksum := res.headers.getFront .checksumCrc64nvme
        if !respChecksum.isEmpty then setChecksum respChecksum
        setEtag (a.trimQuotes etag)
        return ⟨.Ok, size⟩

def rdmaPut (a : Attempt) (token : List Byte) (size : BitVec 64) : BridgeM RdmaResult := do
  match a.fetch with
  | none => throw .thrown
  | some sessionToken =>
      let sctx := (← get).sctx
      if !sctx.uploadId.isEmpty ∧
          (sctx.partNumber = 0 ∨ sctx.partNumber.toNat > kMaxPartNumber) then
        return .failed
      else match a.buildUrl with
        | none => return .failed
        | some host =>
            let res ← execute a (putRequest sctx host a.date token sessionToken)
            finishPut a res size

/-- `rdmaGet` after the response. -/
def finishGet (res : Response) (size : BitVec 64) : RdmaResult :=
  if !res.error.isEmpty then .failed
  else
    let replyCode := parseRdmaReply (res.headers.getFront .rdmaReply)
    if replyCode = some kRdmaReplyNotImplemented then .notSupported
    else if replyCode ≠ some kRdmaReplySuccess ∧ replyCode ≠ some kRdmaReplyPartialContent then
      .failed
    else match parseBytesTransferred (headerValue res.headers .rdmaBytesTransferred) size with
      | none => .failed
      | some bytes => if bytes > size then .failed else ⟨.Ok, bytes⟩

def rdmaGet (a : Attempt) (token : List Byte) (size : BitVec 64) : BridgeM RdmaResult := do
  match a.fetch with
  | none => throw .thrown
  | some sessionToken =>
      match a.buildUrl with
      | none => return .failed
      | some host =>
          let res ← execute a (getRequest host a.date token sessionToken)
          return finishGet res size

/-! ### With retry -/

section Retry

variable (device : RdmaDevice) (tokenQpNum : BitVec 32) (attempts : Nat → Attempt)
variable (buf size : BitVec 64)

def bufSync (a : Attempt) (direction : Int) : BridgeM OpError := do
  let (err, memory) := hipObjBufSync a.syncLookup a.copy buf size 0 direction (← get).memory
  modify fun s => { s with memory := memory }
  return err

def putAttempt (a : Attempt) : BridgeM (Round RdmaResult) := do
  match hipObjGetRdmaToken device tokenQpNum a.tokenLookup a.allocates buf size
      HIPOBJ_RDMA_OP_PUT with
  | .error _ => return .done .failed
  | .ok token =>
      if (← bufSync buf size a HIPOBJ_SYNC_TO_HOST) ≠ .Success then return .done .failed
      else
        let ret ← rdmaPut a token size
        if (ret.status = .Ok ∧ ret.bytes > 0) ∨ ret.status = .NotSupported then return .done ret
        else return .again ret

def rdmaPutWithRetry : BridgeM RdmaResult :=
  retry (fun i => putAttempt device tokenQpNum buf size (attempts i)) kRdmaMaxAttempts 0 .failed

def getAttempt (a : Attempt) : BridgeM (Round RdmaResult) := do
  match hipObjGetRdmaToken device tokenQpNum a.tokenLookup a.allocates buf size
      HIPOBJ_RDMA_OP_GET with
  | .error _ => return .done .failed
  | .ok token =>
      let ret ← rdmaGet a token size
      if ret.status = .Ok ∧ ret.bytes > 0 then
        if (← bufSync buf size a HIPOBJ_SYNC_TO_DEVICE) ≠ .Success then return .done .failed
        else return .done ret
      else if ret.status = .NotSupported then return .done ret
      else return .again ret

def rdmaGetWithRetry : BridgeM RdmaResult :=
  retry (fun i => getAttempt device tokenQpNum buf size (attempts i)) kRdmaMaxAttempts 0 .failed

end Retry

end HipObject.Bridge
