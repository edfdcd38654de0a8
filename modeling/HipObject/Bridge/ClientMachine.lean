import HipObject.Bridge.PutObject
import HipObject.Verification.Machine
import Mathlib.Logic.Function.Basic

/-!
# Many transfers of the MinIO bridge

`PutObject` and `GetObject` calls with a buffer, on any number of clients and
threads. A step is one critical section of `HipObjRuntime::EnsureInit`, one call
of the library, or one thing that minio-cpp does. The library is reduced to what
such a transfer can see of it: which instance is current, and what is registered
with each instance.

Only `EnsureInit` holds a lock, so the calls of the library that make up a
transfer interleave with those of other transfers at every point.
-/

namespace HipObject.Bridge

open HipObject Codec Verification

/-- A buffer that is registered with an instance. -/
structure Registration where
  inst : Nat
  buf : BitVec 64
  id : Nat
  deriving DecidableEq

/-- A token names the token connection of its instance, and the memory region of
a registration. -/
structure Minted where
  inst : Nat
  registration : Nat
  deriving DecidableEq

/-- Where a call is. The number of the attempt and the token are local variables
of the retry loop. -/
inductive ClientPc where
  | ensureInit
  -- with the lock of `EnsureInit`
  | shutdown
  | init
  -- in `PutObject` and `GetObject`
  | register
  | getRegion
  | getToken (attempt : Nat)
  | stageToHost (attempt : Nat) (token : Minted)
  | prepare (attempt : Nat) (token : Minted)
  | execute (attempt : Nat) (token : Minted)
  | stageToDevice
  | fallback
  | unwind
  | done
  deriving DecidableEq

/-- A call with its arguments. -/
structure ClientCall where
  method : Method
  host : List Byte
  region : List Byte
  buf : BitVec 64
  size : BitVec 64
  /-- Whether its `BufRegistrationPtr` has something to undo. -/
  owns : Bool
  pc : ClientPc

/-- The calls, `HipObjRuntime`, and the library. -/
structure Clients where
  calls : Nat → Option ClientCall
  mutex : Option Nat
  initialized : Bool
  activeKey : List Byte
  current : Option Nat
  registered : List Registration
  next : Nat

/-- What a step is told by the outside. -/
inductive ClientReply where
  | ok
  | fail
  | threw
  | response (res : Response)

namespace ClientCall

/-- The key of `EnsureInit`. -/
def key (c : ClientCall) : List Byte := c.host ++ ascii ':' :: c.region

def goto (c : ClientCall) (pc : ClientPc) : ClientCall := { c with pc := pc }

/-- What the transfer functions make of a response. -/
def verdict (c : ClientCall) (res : Response) : RdmaResult :=
  match c.method with
  | .put => putVerdict res c.size
  | .get => finishGet res c.size

/-- The next attempt, if there is one. -/
def tryAgain (c : ClientCall) (attempt : Nat) : ClientCall :=
  if attempt + 1 < kRdmaMaxAttempts then c.goto (.getToken (attempt + 1)) else c.goto .fallback

/-- Where a call goes after a response. -/
def afterResponse (c : ClientCall) (attempt : Nat) (result : RdmaResult) : ClientCall :=
  if result.status = .Ok ∧ result.bytes > 0 then
    match c.method with
    | .put => c.goto .unwind
    | .get => c.goto .stageToDevice
  else if result.status = .NotSupported then c.goto .fallback
  else c.tryAgain attempt

end ClientCall

namespace Clients

variable (s : Clients)

def set (i : Nat) (c : ClientCall) : Clients :=
  { s with calls := Function.update s.calls i (some c) }

/-- What is registered at an address with the current instance. -/
def find (buf : BitVec 64) : Option Registration :=
  s.current.bind fun inst => s.registered.find? fun r => r.inst = inst ∧ r.buf = buf

/-- `EnsureInit` up to where it calls the library, if its lock is free. -/
def ensureInitStep (i : Nat) (c : ClientCall) : Option Clients :=
  if s.mutex.isSome then none
  else if s.initialized ∧ c.key = s.activeKey then some (s.set i (c.goto .register))
  else if s.initialized then some ({ s with mutex := some i }.set i (c.goto .shutdown))
  else some ({ s with mutex := some i }.set i (c.goto .init))

/-- `hipObjShutdown`. -/
def shutdownStep (i : Nat) (c : ClientCall) : Clients :=
  { s with current := none, initialized := false }.set i (c.goto .init)

/-- `hipObjInit`, and the end of `EnsureInit`. Without it the transfer goes by
HTTP. -/
def initStep (i : Nat) (c : ClientCall) : ClientReply → Option Clients
  | .ok =>
      if s.current.isSome then some ({ s with mutex := none }.set i (c.goto .done))
      else some ({ s with
        mutex := none
        initialized := true
        activeKey := c.key
        current := some s.next
        next := s.next + 1 }.set i (c.goto .register))
  | .fail => some ({ s with mutex := none }.set i (c.goto .done))
  | _ => none

/-- `hipObjBufRegister`. -/
def registerStep (i : Nat) (c : ClientCall) : ClientReply → Option Clients
  | .ok =>
      match s.current, s.find c.buf with
      | none, _ => some (s.set i (c.goto .done))
      | some _, some _ => some (s.set i (c.goto .getRegion))
      | some inst, none => some ({ s with
          registered := ⟨inst, c.buf, s.next⟩ :: s.registered
          next := s.next + 1 }.set i { c.goto .getRegion with owns := true })
  | .fail => some (s.set i (c.goto .done))
  | _ => none

/-- `hipObjGetRdmaToken`. -/
def getTokenStep (i : Nat) (c : ClientCall) (attempt : Nat) : ClientReply → Option Clients
  | .ok =>
      match s.find c.buf with
      | none => some (s.set i (c.goto .fallback))
      | some r =>
          match c.method with
          | .put => some (s.set i (c.goto (.stageToHost attempt ⟨r.inst, r.id⟩)))
          | .get => some (s.set i (c.goto (.prepare attempt ⟨r.inst, r.id⟩)))
  | .fail => some (s.set i (c.goto .fallback))
  | _ => none

/-- The destructor of `BufRegistrationPtr`. `hipObjBufDeregister` looks the
address up in the instance that is current then, and can find it busy. -/
def unwindStep (i : Nat) (c : ClientCall) (reply : ClientReply) : Option Clients :=
  let finished := { c.goto .done with owns := false }
  if !c.owns then some (s.set i finished)
  else match reply, s.find c.buf with
    | .ok, some r => some ({ s with registered := s.registered.erase r }.set i finished)
    | .ok, none => some (s.set i finished)
    | .fail, _ => some (s.set i finished)
    | _, _ => none

def callStep (i : Nat) (c : ClientCall) (reply : ClientReply) : Option Clients :=
  match c.pc with
  | .ensureInit => s.ensureInitStep i c
  | .shutdown => some (s.shutdownStep i c)
  | .init => s.initStep i c reply
  | .register => s.registerStep i c reply
  | .getRegion =>
      match reply with
      | .ok => some (s.set i (c.goto (.getToken 0)))
      | .response _ => none
      | _ => some (s.set i (c.goto .unwind))
  | .getToken attempt => s.getTokenStep i c attempt reply
  | .stageToHost attempt token =>
      match reply with
      | .ok => some (s.set i (c.goto (.prepare attempt token)))
      | .fail => some (s.set i (c.goto .fallback))
      | _ => none
  | .prepare attempt token =>
      match reply with
      | .ok => some (s.set i (c.goto (.execute attempt token)))
      | .fail => some (s.set i (c.tryAgain attempt))
      | .threw => some (s.set i (c.goto .unwind))
      | _ => none
  | .execute attempt _ =>
      match reply with
      | .response res => some (s.set i (c.afterResponse attempt (c.verdict res)))
      | .threw => some (s.set i (c.goto .unwind))
      | _ => none
  | .stageToDevice =>
      match reply with
      | .ok => some (s.set i (c.goto .unwind))
      | .fail => some (s.set i (c.goto .fallback))
      | _ => none
  | .fallback => some (s.set i (c.goto .unwind))
  | .unwind => s.unwindStep i c reply
  | .done => none

end Clients

inductive ClientAction where
  | call (i : Nat) (method : Method) (host region : List Byte) (buf size : BitVec 64)
  | step (i : Nat) (reply : ClientReply)

def clientStep (s : Clients) : ClientAction → Option Clients
  | .call i method host region buf size =>
      if (s.calls i).isSome then none
      else some (s.set i ⟨method, host, region, buf, size, false, .ensureInit⟩)
  | .step i reply => (s.calls i).bind fun c => s.callStep i c reply

def clientMachine : Machine Clients ClientAction where
  init := fun s => s = ⟨fun _ => none, none, false, [], none, [], 0⟩
  step := clientStep

end HipObject.Bridge
