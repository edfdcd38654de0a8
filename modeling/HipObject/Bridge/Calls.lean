import HipObject.Buffer.Data
import HipObject.Rdma.Reply
import HipObject.Topology.Gid

/-!
# The library calls of the MinIO bridge

The four functions of `hipobj.cpp` that a transfer of the bridge makes, each from
start to end on one thread: `hipObjGetRdmaToken`, `hipObjBufSync`,
`hipObjParseRdmaReply` and `hipObjTokenClientNic`. What the first two find in the
instance is an argument, since other threads can change it between two calls.
-/

namespace HipObject

open Codec Verification

/-! ### Tokens -/

/-- The text of the token that `hipObjGetRdmaToken` gives out, without its NUL.
There may be no memory for it. -/
def hipObjGetRdmaToken (device : RdmaDevice) (tokenQpNum : BitVec 32) (look : Lookup)
    (allocates : Bool) (devPtr size : BitVec 64) (op : Int) : Except OpError (List Byte) :=
  if !look.initialized then .error .NotInitialized
  else if op ≠ HIPOBJ_RDMA_OP_PUT ∧ op ≠ HIPOBJ_RDMA_OP_GET then .error .InvalidValue
  else match checkBufferArgs devPtr look.buf size 0, look.buf with
    | .Success, some buf =>
        if look.checkNoAbandonedCopy buf ≠ .Success then
          .error (look.checkNoAbandonedCopy buf)
        else match buildRdmaToken device tokenQpNum buf size 0 with
          | none => .error .RdmaError
          | some token =>
              if allocates then .ok (encodeRdmaToken token) else .error .InternalError
    | err, _ => .error err

/-! ### Staging -/

/-- How a staging copy ends: all of it has moved, or an error is returned and
some of it may have. -/
inductive CopyOutcome where
  | success
  | failed (moves : List Nat)

/-- `stageCopyWithDeadline`. -/
def Memcpy.run (copy : Memcpy) (memory : Memory) : CopyOutcome → OpError × Memory
  | .success => (.Success, moved copy.dstAt copy.srcAt memory (List.range copy.size.toNat))
  | .failed moves =>
      (.InternalError, moved copy.dstAt copy.srcAt memory (moves.filter (· < copy.size.toNat)))

/-- `hipObjBufSync`, with the memory it leaves. -/
def hipObjBufSync (look : Lookup) (outcome : CopyOutcome) (devPtr size offset : BitVec 64)
    (direction : Int) (memory : Memory) : OpError × Memory :=
  if !look.initialized then (.NotInitialized, memory)
  else if direction ≠ HIPOBJ_SYNC_TO_HOST ∧ direction ≠ HIPOBJ_SYNC_TO_DEVICE then
    (.InvalidValue, memory)
  else match checkBufferArgs devPtr look.buf size offset, look.buf with
    | .Success, some buf =>
        if look.checkNoAbandonedCopy buf ≠ .Success then (look.checkNoAbandonedCopy buf, memory)
        else match buf.hostBuf with
          | none => (.Success, memory)
          | some hostBuf =>
              if !rangeInRegistration offset size buf.size then (.InvalidValue, memory)
              else if direction = HIPOBJ_SYNC_TO_DEVICE then
                (stageToDevice devPtr hostBuf size offset).run memory outcome
              else (stageToHost devPtr hostBuf size offset).run memory outcome
    | err, _ => (err, memory)

/-! ### Replies and NIC addresses -/

/-- `hipObjParseRdmaReply` of a text. -/
def hipObjParseRdmaReply (reply : List Byte) : Except OpError Int :=
  match parseRdmaReplyHttpCode reply with
  | none => .error .InvalidValue
  | some code => .ok code

/-- The text at a pointer, up to its NUL but not past the limit. -/
def cStringView (text : List Byte) (limit : Nat) : List Byte :=
  (text.take limit).takeWhile (· ≠ 0)

/-- The address in an IPv4-mapped GID. -/
def ipv4OfGid (gid : Gid) : List Byte := gid.toList.drop 12

/-- Four numbers with dots between them. -/
def dottedQuad (ipv4 : List Byte) : List Byte :=
  [ascii '.'].intercalate (ipv4.map fun b => natToDecimal b.toNat)

/-- `parseClientNicFromTokenHex`, with the buffer it leaves. -/
def parseClientNicFromTokenHex (tokenHex nicIp : List Byte) : Bool × List Byte :=
  if nicIp.isEmpty then (false, nicIp)
  else
    let cleared := nicIp.set 0 0
    match decodeRdmaTokenHex tokenHex with
    | none => (false, cleared)
    | some token =>
        if !isIpv4MappedGid token.gid then (true, cleared)
        else
          let formatted := dottedQuad (ipv4OfGid token.gid)
          if formatted.length ≥ nicIp.length then (false, cleared)
          else (true, formatted ++ 0 :: nicIp.drop (formatted.length + 1))

/-- `hipObjTokenClientNic` with pointers that are not null. -/
def hipObjTokenClientNic (token nicIp : List Byte) : OpError × List Byte :=
  if nicIp.isEmpty then (.InvalidValue, nicIp)
  else
    let (parsed, nicIp) :=
      parseClientNicFromTokenHex (cStringView token (kRdmaTokenHexLen + 1)) nicIp
    if parsed then (.Success, nicIp) else (.InvalidValue, nicIp)

/-! ### What success says -/

section Success

variable {device : RdmaDevice} {tokenQpNum : BitVec 32} {look : Lookup} {allocates : Bool}
variable {devPtr size offset : BitVec 64} {op direction : Int}

/-- A token is given out only for a buffer that is there and has the bytes. -/
theorem hipObjGetRdmaToken_ok {text : List Byte}
    (h : hipObjGetRdmaToken device tokenQpNum look allocates devPtr size op = .ok text) :
    size ≠ 0 ∧ ∃ buf token, look.buf = some buf ∧ size.toNat ≤ buf.size.toNat ∧
      buildRdmaToken device tokenQpNum buf size 0 = some token ∧ text = encodeRdmaToken token := by
  unfold hipObjGetRdmaToken at h
  split at h
  · cases h
  split at h
  · cases h
  cases hargs : checkBufferArgs devPtr look.buf size 0 with
  | Success =>
      obtain ⟨-, hpos, buf, hbuf, -, hfits⟩ := checkBufferArgs_success hargs
      rw [hargs, hbuf] at h
      dsimp only at h
      split at h
      · cases h
      split at h
      · cases h
      rename_i token htoken
      split at h
      · cases h
        refine ⟨?_, buf, token, hbuf, ?_, htoken, rfl⟩
        · rintro rfl
          exact absurd hpos (by decide)
        · simpa using hfits
      · cases h
  | _ =>
      rw [hargs] at h
      cases h

end Success

end HipObject
