import HipObject.Buffer.Copies
import HipObject.Verification.Memory

/-!
# A transfer with its data

One call that uses a buffer, with the memory that the peer and the staging copies
change. The call takes the steps that `callStep` gives it. While its callbacks
run and until it has polled a completion, the peer writes (for a `hipObjGet`) or
reads (for a `hipObjPut`) single bytes at the addresses that its token covers.
From the time a staging copy is accepted until the runtime is done with it, its
bytes move one at a time, in any order, and its event says success only when
they all have.

No other call takes steps meanwhile. But a copy that an earlier call has started
can be on its way still, whether that call waits for it, has left a record of it,
or has lost it, and so it moves its bytes here too.
-/

namespace HipObject

open Verification

/-- What is at every address. -/
abbrev Memory := BitVec 64 → BitVec 8

/-! ### The staging copy -/

/-- The arguments of `memcpyAsync`. -/
structure Memcpy where
  dst : BitVec 64
  src : BitVec 64
  size : BitVec 64
  deriving DecidableEq

/-- The addresses of the bytes of a copy. -/
def Memcpy.dstAt (copy : Memcpy) (i : Nat) : BitVec 64 := copy.dst + BitVec.ofNat 64 i

def Memcpy.srcAt (copy : Memcpy) (i : Nat) : BitVec 64 := copy.src + BitVec.ofNat 64 i

/-- What `stageToDevice` copies, from the span of the staging buffer to that of
the memory at `devPtr`. -/
def stageToDevice (devPtr : BitVec 64) (hostBuf : HostBuf) (size offset : BitVec 64) : Memcpy where
  dst := devPtr + offset
  src := hostBuf.addr + offset
  size := size

/-- What `stageToHost` copies. -/
def stageToHost (devPtr : BitVec 64) (hostBuf : HostBuf) (size offset : BitVec 64) : Memcpy where
  dst := hostBuf.addr + offset
  src := devPtr + offset
  size := size

/-- The copy between the caller's memory and a staging buffer that a call makes. -/
def Op.memcpy (hostBuf : HostBuf) : Op → Option Memcpy
  | .get devPtr size offset _ => some (stageToDevice devPtr hostBuf size offset)
  | .put devPtr size offset _ => some (stageToHost devPtr hostBuf size offset)
  | .sync devPtr size offset direction =>
      if direction = HIPOBJ_SYNC_TO_DEVICE then some (stageToDevice devPtr hostBuf size offset)
      else some (stageToHost devPtr hostBuf size offset)
  | _ => none

/-- The copy that a call has started. -/
def Effect.copy : Effect → Option StagingCopy
  | .startedCopy copy => some copy
  | _ => none

def Call.copy (c : Call) : Option StagingCopy := c.effects.findSome? Effect.copy

/-- The copy that a call has started, and what it moves. -/
def Call.flight (c : Call) : Option (StagingCopy × Memcpy) :=
  c.copy.bind fun k => (c.op.memcpy k.hostBuf).map fun copy => (k, copy)

/-- The copies that the runtime isn't done with, of every call so far. -/
def InstanceState.inFlight (s : InstanceState) : List (StagingCopy × Memcpy) :=
  (s.allCalls.filterMap Call.flight).filter fun flight => flight.1 ∉ s.finished

/-- Whether a copy that the runtime isn't done with writes to an address. -/
def InstanceState.Lands (s : InstanceState) (a : BitVec 64) : Prop :=
  ∃ flight ∈ s.inFlight, ∃ i < flight.2.size.toNat, flight.2.dstAt i = a

/-! ### The peer -/

/-- The window of a token. -/
def RdmaToken.covers (token : RdmaToken) (addr : BitVec 64) : Bool :=
  token.remoteAddr.toNat ≤ addr.toNat && addr.toNat < token.remoteAddr.toNat + token.length.toNat

def Effect.opens (addr : BitVec 64) : Effect → Bool
  | .minted token => token.covers addr
  | _ => false

/-- Whether the peer can be at work: the callbacks run, or the call waits for the
transfer's completion. -/
def Pc.serving : Pc → Bool
  | .sendRequest _ => true
  | .recvReply _ => true
  | .finishTransfer _ => true
  | _ => false

/-- Whether the peer can reach an address by a token of the call. -/
def Call.serves (c : Call) (addr : BitVec 64) : Bool :=
  c.pc.serving && c.effects.any (Effect.opens addr)

def Op.isGet : Op → Bool
  | .get .. => true
  | _ => false

def Op.isPut : Op → Bool
  | .put .. => true
  | _ => false

/-! ### The machine -/

/-- A call, its instance and the memory. What the peer wrote and read and which
bytes of the call's own staging copy have moved are listed with the latest first. -/
structure Transfer where
  state : InstanceState
  call : Call
  memory : Memory
  writes : List (BitVec 64 × BitVec 8)
  reads : List (BitVec 64 × BitVec 8)
  moves : List Nat

inductive TransferAction where
  | step (reply : Reply)
  | write (addr : BitVec 64) (byte : BitVec 8)
  | read (addr : BitVec 64)
  | move (flight : StagingCopy × Memcpy) (i : Nat)
  | finishCopy (copy : StagingCopy)

namespace Transfer

/-- The staging copy that the call has started. -/
def memcpy (t : Transfer) : Option Memcpy := t.call.copy.bind fun k => t.call.op.memcpy k.hostBuf

/-- Whether every byte of the staging copy has moved. -/
def landed (t : Transfer) : Bool :=
  t.memcpy.all fun copy => ∀ i < copy.size.toNat, i ∈ t.moves

/-- The event of a copy says success only when the copy has landed. -/
def allows (t : Transfer) : Reply → Bool
  | .status .success _ => t.landed
  | _ => true

def step (setup : Setup) (t : Transfer) : TransferAction → Option Transfer
  | .step reply =>
      if t.allows reply then
        (t.state.callStep setup t.call reply).map fun (c, s) =>
          { t with state := { s with calls := c :: t.state.calls.erase t.call }, call := c }
      else none
  | .write addr byte =>
      if t.call.op.isGet && t.call.serves addr then
        some { t with
          memory := Function.update t.memory addr byte
          writes := (addr, byte) :: t.writes }
      else none
  | .read addr =>
      if t.call.op.isPut && t.call.serves addr then
        some { t with reads := (addr, t.memory addr) :: t.reads }
      else none
  | .move flight i =>
      if flight ∈ t.state.inFlight ∧ i < flight.2.size.toNat then
        some { t with
          memory := Function.update t.memory (flight.2.dstAt i) (t.memory (flight.2.srcAt i))
          moves := if t.call.flight = some flight then i :: t.moves else t.moves }
      else none
  | .finishCopy copy =>
      (instanceStep setup t.state (.finishCopy copy)).map fun s => { t with state := s }

end Transfer

/-- The runs of a call that starts with a memory. -/
def transferMachine (setup : Setup) (s : InstanceState) (c : Call) (memory : Memory) :
    Machine Transfer TransferAction where
  init := fun t => t = ⟨s, c, memory, [], [], []⟩
  step := Transfer.step setup

end HipObject
