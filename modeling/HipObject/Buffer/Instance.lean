import HipObject.Buffer.Args
import HipObject.Verification.Machine
import HipObject.Verification.RefCount

/-!
# An instance and the calls on it

The buffer map, the abandoned copies and the public calls that use them, as they
run on any number of threads from the time an instance is published until it is
destroyed. A call is a value with a program counter, whose constructors carry the
local variables that are alive there. One step of a call is one critical section
of `BufferMap` or `AbandonedCopies`, or one call of the HIP runtime, of verbs, or
of the application, with what that answers.

The outside world keeps books: every memory region ever registered and every one
deregistered, every staging buffer allocated, freed or leaked, every file
descriptor and event. What is alive is what was made and not undone. A staging
copy runs from the time `memcpyAsync` accepts it until the runtime finishes it,
and a query of the event that tracks it answers `notReady` until then.

A transfer is reduced to what it does here: leasing a connection, minting a
token, the two callbacks, and the end. `connection-pool.cpp` has a machine of its
own.
-/

namespace HipObject

open Verification

/-! ### Staging copies -/

/-- A staging copy that the runtime has accepted, on the staging buffer of an
entry. -/
structure StagingCopy where
  id : Nat
  entry : Nat
  hostBuf : HostBuf
  deriving DecidableEq

/-- `AbandonedCopies::Copy`, with the staging copy that `done` tracks. -/
structure Copy where
  entry : Nat
  done : Nat
  copy : StagingCopy
  deriving DecidableEq

/-- What `eventQuery` answers. -/
inductive EventStatus where
  | success
  | notReady
  | error
  deriving DecidableEq, Repr

/-! ### Calls -/

def HIPOBJ_SYNC_TO_HOST : Int := 0
def HIPOBJ_SYNC_TO_DEVICE : Int := 1
def HIPOBJ_RDMA_OP_PUT : Int := 0
def HIPOBJ_RDMA_OP_GET : Int := 1

/-- A public call with its arguments. Of the callbacks and the place for a token
only matters whether they are null. -/
inductive Op where
  | register (devPtr size : BitVec 64)
  | registerHost (hostPtr size : BitVec 64)
  | deregister (devPtr : BitVec 64)
  | get (devPtr size offset : BitVec 64) (ops : Bool)
  | put (devPtr size offset : BitVec 64) (ops : Bool)
  | sync (devPtr size offset : BitVec 64) (direction : Int)
  | getRdmaToken (devPtr size : BitVec 64) (op : Int) (outToken : Bool)
  deriving DecidableEq

namespace Op

/-- The address a call names. -/
def devPtr : Op → BitVec 64
  | register p _ => p
  | registerHost p _ => p
  | deregister p => p
  | get p _ _ _ => p
  | put p _ _ _ => p
  | sync p _ _ _ => p
  | getRdmaToken p _ _ _ => p

def size : Op → BitVec 64
  | register _ n => n
  | registerHost _ n => n
  | deregister _ => 0
  | get _ n _ _ => n
  | put _ n _ _ => n
  | sync _ n _ _ => n
  | getRdmaToken _ n _ _ => n

/-- The offset a call passes on; a token for the application starts at 0. -/
def offset : Op → BitVec 64
  | get _ _ o _ => o
  | put _ _ o _ => o
  | sync _ _ o _ => o
  | _ => 0

/-- The checks before the buffer is looked up. -/
def argsValid : Op → Bool
  | get _ _ _ ops => ops
  | put _ _ _ ops => ops
  | sync _ _ _ direction => direction = HIPOBJ_SYNC_TO_HOST ∨ direction = HIPOBJ_SYNC_TO_DEVICE
  | getRdmaToken _ _ op outToken =>
      outToken ∧ (op = HIPOBJ_RDMA_OP_PUT ∨ op = HIPOBJ_RDMA_OP_GET)
  | _ => true

end Op

/-- The local variables of a call that own something. -/
structure Locals where
  fd : Option Nat
  mr : Option Mr
  hostBuf : Option HostBuf
  event : Option Nat
  /-- Whether it has room set aside in the abandoned copies. -/
  slot : Bool
  /-- The copy it has started and not seen the end of. -/
  copy : Option StagingCopy
  /-- What `find()` returned. -/
  buf : Option Nat
  /-- The entry that a registration has built, or a deregistration removed. -/
  entry : Option Nat
  /-- The copies that were found to be over. -/
  ended : List Copy
  deriving DecidableEq

def Locals.empty : Locals := ⟨none, none, none, none, false, none, none, none, []⟩

/-- Where a call is. -/
inductive Pc where
  | start
  -- `registerBuffer` and `registerHostBuffer`
  | precheck (info : Option PointerInfo)
  | exportDmabuf (info : Option PointerInfo)
  | regDmabufMr (info : Option PointerInfo) (fd : Nat)
  | closeDmabuf (info : Option PointerInfo) (fd : Nat) (mr : Option Mr)
  | regMr (info : Option PointerInfo)
  | hostMalloc (info : Option PointerInfo)
  | regStagingMr (info : Option PointerInfo) (hostBuf : HostBuf)
  | build (info : Option PointerInfo) (mr : Mr) (hostBuf : Option HostBuf)
  | insert (entry : Nat)
  -- `hipObjBufDeregister`
  | reclaim
  | remove (ended : List Copy)
  -- the calls that use a buffer
  | find
  | checkBufferArgs (buf : Option Nat)
  | checkNoAbandonedCopy (buf : Nat)
  | checked (buf : Nat) (ended : List Copy) (stillRunning : Bool)
  -- `runRdmaTransfer`
  | acquire (buf : Nat)
  | buildToken (buf : Nat) (qpNum : BitVec 32)
  | sendRequest (buf : Nat)
  | recvReply (buf : Nat)
  | finishTransfer (buf : Nat)
  -- `stageToDevice` and `stageToHost`
  | stage (buf : Nat)
  | eventCreate (buf : Nat)
  | memcpyAsync (buf event : Nat)
  | eventRecord (buf event : Nat) (copy : StagingCopy)
  | eventQuery (buf event : Nat) (copy : StagingCopy)
  | add (buf event : Nat) (copy : StagingCopy)
  | staged (buf : Nat) (event : Option Nat)
  /-- Returning, or unwinding after an exception. -/
  | unwind (locals : Locals) (result : OpError)
  deriving DecidableEq

/-- The local variables that are alive at a program counter. -/
def Pc.locals : Pc → Locals
  | regDmabufMr _ fd => { Locals.empty with fd := some fd }
  | closeDmabuf _ fd mr => { Locals.empty with fd := some fd, mr := mr }
  | regStagingMr _ hostBuf => { Locals.empty with hostBuf := some hostBuf }
  | build _ mr hostBuf => { Locals.empty with mr := some mr, hostBuf := hostBuf }
  | insert entry => { Locals.empty with entry := some entry }
  | remove ended => { Locals.empty with ended := ended }
  | checkBufferArgs buf => { Locals.empty with buf := buf }
  | checkNoAbandonedCopy buf => { Locals.empty with buf := some buf }
  | checked buf ended _ => { Locals.empty with buf := some buf, ended := ended }
  | acquire buf => { Locals.empty with buf := some buf }
  | buildToken buf _ => { Locals.empty with buf := some buf }
  | sendRequest buf => { Locals.empty with buf := some buf }
  | recvReply buf => { Locals.empty with buf := some buf }
  | finishTransfer buf => { Locals.empty with buf := some buf }
  | stage buf => { Locals.empty with buf := some buf }
  | eventCreate buf => { Locals.empty with buf := some buf, slot := true }
  | memcpyAsync buf event =>
      { Locals.empty with buf := some buf, slot := true, event := some event }
  | eventRecord buf event copy =>
      { Locals.empty with buf := some buf, slot := true, event := some event, copy := some copy }
  | eventQuery buf event copy =>
      { Locals.empty with buf := some buf, slot := true, event := some event, copy := some copy }
  | add buf event copy =>
      { Locals.empty with buf := some buf, slot := true, event := some event, copy := some copy }
  | staged buf event => { Locals.empty with buf := some buf, slot := true, event := event }
  | unwind locals _ => locals
  | _ => Locals.empty

/-- What a call does that the application, the peer or the GPU can see. -/
inductive Effect where
  | leased
  | minted (token : RdmaToken)
  | sentRequest
  | receivedReply
  | startedCopy (copy : StagingCopy)
  deriving DecidableEq

/-- A call in progress. Its effects are listed with the latest first. The last
three keep what happened to it: the entry it built, the one that `find()` found,
and whether a copy of that one was still running when it was checked. -/
structure Call where
  id : Nat
  op : Op
  pc : Pc
  effects : List Effect
  built : Option Nat
  found : Option BufEntry
  blocked : Bool
  deriving DecidableEq

def Call.new (id : Nat) (op : Op) : Call := ⟨id, op, .start, [], none, none, false⟩

/-! ### The state -/

structure InstanceState where
  /-- `BufferMap::entries_`. -/
  entries : List (BitVec 64 × Nat)
  /-- `AbandonedCopies::copies_`, its capacity, and `reserved_`. -/
  copies : List Copy
  capacity : Nat
  reserved : Nat
  /-- The entries behind the `shared_ptr`s. -/
  heap : List (Cell BufEntry)
  calls : List Call
  /-- Whether new calls find the instance. -/
  current : Bool
  destroyed : Bool
  -- What the outside world has done for it.
  next : Nat
  registered : List Mr
  deregistered : List Mr
  allocated : List HostBuf
  freed : List HostBuf
  leaked : List HostBuf
  opened : List Nat
  closed : List Nat
  created : List Nat
  eventsDestroyed : List Nat
  eventsLeaked : List Nat
  started : List StagingCopy
  finished : List StagingCopy
  queried : List (Nat × EventStatus)
  inserted : List (Nat × BitVec 64 × Nat)
  returned : List Call
  deriving DecidableEq

/-- How the instance was set up. -/
structure Setup where
  device : RdmaDevice
  /-- `DmabufPolicy::enabled`, and `Verbs::supportsDmabuf()`. -/
  dmabufEnabled : Bool
  supportsDmabuf : Bool
  requireGpuDirect : Bool
  /-- The QP number of the connection that `hipObjGetRdmaToken()` advertises. -/
  tokenQpNum : BitVec 32

/-- `BufferMap::kMaxEntries`. -/
def kMaxEntries : Nat := 256

namespace InstanceState

/-- What the map holds at an address. -/
def lookupKey (s : InstanceState) (key : BitVec 64) : Option Nat :=
  (s.entries.find? fun e => e.1 = key).map Prod.snd

def refusal (s : InstanceState) (key : BitVec 64) : Option RegisterResult :=
  if (s.lookupKey key).isSome then some .AlreadyRegistered
  else if s.entries.length ≥ kMaxEntries then some .Failed
  else none

/-- `~BufEntry`: the MR is deregistered, then the staging buffer freed, unless it
is leaked. -/
def destroyEntry (s : InstanceState) (e : BufEntry) : InstanceState :=
  { s with
    deregistered := e.mr :: s.deregistered
    freed := if e.leakHostBuf then s.freed else e.hostBuf.toList ++ s.freed
    leaked := if e.leakHostBuf then e.hostBuf.toList ++ s.leaked else s.leaked }

/-- Lets a `shared_ptr` go. -/
def dropRef (s : InstanceState) (i : Nat) : InstanceState :=
  let (heap, last) := Cell.release s.heap i
  match last with
  | none => { s with heap := heap }
  | some e => { s with heap := heap }.destroyEntry e

def destroyEvent (s : InstanceState) (event : Nat) : InstanceState :=
  { s with eventsDestroyed := event :: s.eventsDestroyed }

/-! ### Abandoned copies -/

/-- What `release()` leaves in the list, takes out of it, and finds. -/
structure Released where
  kept : List Copy
  ended : List Copy
  stillRunning : Bool
  threw : Bool
  queries : List (Copy × EventStatus)

/-- What `release()` meets at a copy: the answer of its event, whether there is no
memory to take it out with, if it's over, and whether the query throws instead of
answering. -/
structure Answer where
  status : EventStatus
  noMemory : Bool
  throws : Bool

/-- The loop of `release()`, over the copies of one entry or of every one. -/
def releaseLoop (entry : Option Nat) (answers : Copy → Answer) : List Copy → Released
  | [] => ⟨[], [], false, false, []⟩
  | copy :: rest =>
      if entry.any (· ≠ copy.entry) then
        let r := releaseLoop entry answers rest
        { r with kept := copy :: r.kept }
      else if (answers copy).throws then ⟨copy :: rest, [], false, true, []⟩
      else match (answers copy).status with
        | .notReady =>
            let r := releaseLoop entry answers rest
            { r with
              kept := copy :: r.kept
              stillRunning := true
              queries := (copy, .notReady) :: r.queries }
        | status =>
            if (answers copy).noMemory then ⟨copy :: rest, [], false, true, [(copy, status)]⟩
            else
              let r := releaseLoop entry answers rest
              { r with ended := copy :: r.ended, queries := (copy, status) :: r.queries }

/-- An event reports `notReady` until its copy is over. -/
def Truthful (s : InstanceState) (queries : List (Copy × EventStatus)) : Prop :=
  ∀ q ∈ queries, q.2 ≠ .notReady → q.1.copy ∈ s.finished

instance (s : InstanceState) (queries : List (Copy × EventStatus)) :
    Decidable (s.Truthful queries) := inferInstanceAs (Decidable (∀ q ∈ queries, _))

/-- The critical section of `release()`. -/
def release (s : InstanceState) (entry : Option Nat) (answers : Copy → Answer) :
    Option (InstanceState × Released) :=
  let r := releaseLoop entry answers s.copies
  if s.Truthful r.queries then
    some ({ s with
      copies := r.kept
      queried := (r.queries.map fun q => (q.1.done, q.2)).reverse ++ s.queried }, r)
  else none

/-- The critical section of `reserve()`, when it can allocate. -/
def reserve (s : InstanceState) : InstanceState :=
  let needed := s.copies.length + s.reserved + 1
  { s with
    capacity := if needed > s.capacity then max needed (s.capacity + s.capacity / 2)
      else s.capacity
    reserved := s.reserved + 1 }

/-- The critical section of `add()`, which makes one more reference to the
entry. -/
def addCopy (s : InstanceState) (copy : Copy) : InstanceState :=
  { s with
    copies := s.copies ++ [copy]
    reserved := s.reserved - 1
    heap := Cell.retain s.heap copy.entry }

end InstanceState

end HipObject
