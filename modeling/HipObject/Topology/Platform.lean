import HipObject.Rdma.ConnectionPool
import HipObject.Verification.Lifetimes

/-!
# The platform under the library

What initialization asks of libibverbs, HIP and the topology, and what it holds
of them. The answers are functions of the call, so a statement for every
`Platform` is one for every pattern of answers; a call that can be made more
than once on the same object also gets the number of times it was made before.
Calls that acquire something can throw, as well as fail.

A `Session` keeps the trace of one run. The calls on connections are those of
`Rdma.Transport`, which have a script and a log of their own; `onVerbs` runs
them and enters what they did into the trace.
-/

namespace HipObject

open Codec Verification

/-! ### What the platform reports -/

/-- A device of a device list: which list it is in, its position there, and the
name that `get_device_name` returns for it, if any. -/
structure Device where
  list : Nat
  position : Nat
  name : Option (List Byte)
  deriving DecidableEq

/-- An open device. -/
structure Context where
  id : Nat
  device : Device
  deriving DecidableEq

/-- `ibv_port_state`. -/
inductive PortState where
  | NOP
  | DOWN
  | INIT
  | ARMED
  | ACTIVE
  | ACTIVE_DEFER
  deriving DecidableEq, Repr

/-- The fields of `ibv_port_attr` that are read. -/
structure PortAttr where
  state : PortState
  gidTblLen : Int
  deriving DecidableEq

/-- The fields of `ibv_device_attr` that are read. -/
structure DeviceAttr where
  physPortCnt : BitVec 8
  vendorId : BitVec 32
  deriving DecidableEq

/-- The RoCE version of a GID table entry. -/
inductive RoceVersion where
  | Unknown
  | V1
  | V2
  deriving DecidableEq, Repr

/-- What a call that acquires something does. -/
inductive Acquisition (α : Type) where
  | value (a : α)
  | fails
  | throws
  deriving DecidableEq

def Acquisition.isThrow {α : Type} : Acquisition α → Bool
  | .throws => true
  | _ => false

def Acquisition.map {α β : Type} (f : α → β) : Acquisition α → Acquisition β
  | .value a => .value (f a)
  | .fails => .fails
  | .throws => .throws

/-- `hipErrorNoDevice`. -/
def hipErrorNoDevice : Int := 100

/-- The size of the buffer that a GPU's bus id is read into. -/
def kPciBusIdBufLen : Nat := 32

/-- The answers to every call. An entry of a device list is null, or a device
with or without a name. -/
structure Platform where
  getDevice : Except Int Int
  getDeviceCount : Except Int Int
  /-- The buffer that HIP leaves, if it succeeds. -/
  deviceGetPCIBusId : Int → Option (Vector Byte kPciBusIdBufLen)
  getDeviceList : Nat → Acquisition (List (Option (Option (List Byte))))
  openDevice : Device → Acquisition Unit
  allocPd : Device → Acquisition Unit
  queryDevice : Device → Option DeviceAttr
  queryPort : Device → BitVec 8 → Nat → Option PortAttr
  queryGid : Device → BitVec 8 → Int → Nat → Option Gid
  roceVersion : Device → BitVec 8 → Int → RoceVersion
  /-- The name of the directory that the device's link in sysfs resolves to. -/
  sysfsBusId : Device → Option (List Byte)
  /-- What is read from the device's `numa_node` file, if it opens. -/
  sysfsNumaNode : Device → Option Int

/-! ### What a run holds -/

/-- The context and the protection domain that connections are made on. -/
structure Handles where
  context : Nat
  pd : Nat
  deriving DecidableEq

inductive Resource where
  | deviceList (id : Nat)
  | context (id : Nat)
  | pd (id context : Nat)
  | cq (id : Nat) (handles : Handles)
  | qp (id cq : Nat) (handles : Handles)
  deriving DecidableEq

/-- What has to be released before what: a queue pair before its completion
queue, both before the protection domain and the context they are on, and the
protection domain before its context. -/
inductive DependsOn : Resource → Resource → Prop where
  | pd (id context : Nat) : DependsOn (.pd id context) (.context context)
  | cqPd (id : Nat) (d : Handles) : DependsOn (.cq id d) (.pd d.pd d.context)
  | cqContext (id : Nat) (d : Handles) : DependsOn (.cq id d) (.context d.context)
  | qpCq (id cq : Nat) (d : Handles) : DependsOn (.qp id cq d) (.cq cq d)
  | qpPd (id cq : Nat) (d : Handles) : DependsOn (.qp id cq d) (.pd d.pd d.context)
  | qpContext (id cq : Nat) (d : Handles) : DependsOn (.qp id cq d) (.context d.context)

theorem DependsOn.irrefl (r : Resource) : ¬DependsOn r r := by
  intro h
  cases h

/-- Only a queue pair rests on a completion queue. -/
theorem DependsOn.eq_qp {r : Resource} {cq : Nat} {d : Handles} (h : DependsOn r (.cq cq d)) :
    ∃ id, r = .qp id cq d := by
  cases h
  exact ⟨_, rfl⟩

/-! ### Runs -/

inductive PlatformCall where
  | getDevice
  | getDeviceCount
  | deviceGetPCIBusId (gpu : Int)
  | enumerate (hcaList : List Byte)
  | getDeviceList
  | getDeviceName (device : Device)
  | openDevice (device : Device)
  | allocPd (context : Context)
  | queryDevice (context : Context)
  | queryPort (context : Context) (port : BitVec 8)
  | queryGid (context : Context) (port : BitVec 8) (index : Int)
  | roceVersion (context : Context) (port : BitVec 8) (index : Int)
  | verbs (call : VerbsCall)
  deriving DecidableEq

structure Session where
  /-- The calls made so far, with what they acquired and what was released. -/
  events : List (Event PlatformCall Resource)
  /-- The answers to the calls on connections. -/
  answers : List Answer
  /-- The calls on connections. -/
  verbsLog : List VerbsCall
  /-- A loop has used up the fuel of the run, which stands for a run that goes
  on. -/
  diverged : Bool

namespace Session

/-- A session in which nothing has happened. -/
def start (answers : List Answer) : Session := ⟨[], answers, [], false⟩

def log (s : Session) (c : PlatformCall) : Session :=
  { s with events := s.events ++ [.call c] }

def acquire (s : Session) (r : Resource) : Session :=
  { s with events := s.events ++ [.acquired r] }

def release (s : Session) (r : Resource) : Session :=
  { s with events := s.events ++ [.released r] }

/-- How often a call was made. -/
def count (s : Session) (c : PlatformCall) : Nat := s.events.count (.call c)

end Session

/-- Code that calls the platform. -/
abbrev PlatformM (α : Type) := EStateM Thrown Session α

variable {α β : Type}

/-- A call that only reports something. -/
def query (c : PlatformCall) (answer : Nat → α) : PlatformM α := fun s =>
  .ok (answer (s.count c)) (s.log c)

/-- A call that acquires a resource. The resource gets a number that no other
one has. -/
def acquire (c : PlatformCall) (resource : Nat → Resource) (answer : Nat → Acquisition α) :
    PlatformM (Option (Nat × α)) := fun s =>
  match answer (s.count c) with
  | .throws => .error .thrown (s.log c)
  | .fails => .ok none (s.log c)
  | .value a =>
      .ok (some ((s.log c).events.length, a))
        ((s.log c).acquire (resource (s.log c).events.length))

def release (r : Resource) : PlatformM Unit := modify fun s => s.release r

/-- `get_device_list`, with the number of lists before the new one. -/
def getDeviceList (P : Platform) :
    PlatformM (Option (Nat × Nat × List (Option (Option (List Byte))))) :=
  acquire .getDeviceList .deviceList fun n => (P.getDeviceList n).map fun entries => (n, entries)

/-- Code with a local variable that owns `r`, which is released however the code
is left. Code that does not end never releases it. -/
def holding (r : Resource) (x : PlatformM α) : PlatformM α := fun s =>
  match x s with
  | .ok a t => .ok a (t.release r)
  | .error e t => .error e (if t.diverged then t else t.release r)

/-- Code with a local variable that owns `r` and moves it into the result: it is
released unless there is a result. -/
def handingOver (r : Resource) (x : PlatformM (Option α)) : PlatformM (Option α) := fun s =>
  match x s with
  | .ok (some a) t => .ok (some a) t
  | .ok none t => .ok none (t.release r)
  | .error e t => .error e (if t.diverged then t else t.release r)

/-- The end of a run whose fuel is used up. -/
def diverge : PlatformM α := fun s => .error .thrown { s with diverged := true }

/-! ### Calls on connections -/

/-- Whether a call on connections takes an answer from the script. -/
def VerbsCall.asks : VerbsCall → Bool
  | .destroyQp _ => false
  | .destroyCq _ => false
  | _ => true

/-- The completion queue that queue pair `qp` was created on, in a log where the
number of a queue pair is its position. -/
def cqOf (log : List VerbsCall) (qp : Nat) : Nat :=
  match log[qp]? with
  | some (.createQp cq _ _) => cq
  | _ => 0

/-- What a call did to the resources, after the calls in `past`. -/
def verbsEvent (d : Handles) (past : List VerbsCall) (answer : Option Answer) :
    VerbsCall → List (Event PlatformCall Resource)
  | .createCq _ =>
      match answer with
      | some (.success _) => [.acquired (.cq past.length d)]
      | _ => []
  | .createQp cq _ _ =>
      match answer with
      | some (.success _) => [.acquired (.qp past.length cq d)]
      | _ => []
  | .destroyQp qp => [.released (.qp qp (cqOf past qp) d)]
  | .destroyCq cq => [.released (.cq cq d)]
  | _ => []

/-- What the calls in `log` did, in order. -/
def verbsEvents (d : Handles) (past : List VerbsCall) (answers : List Answer) :
    List VerbsCall → List (Event PlatformCall Resource)
  | [] => []
  | c :: log =>
      .call (.verbs c) :: verbsEvent d past answers.head? c ++
        verbsEvents d (past ++ [c]) (if c.asks then answers.tail else answers) log

/-- Runs code that makes connections on the device `d`. -/
def onVerbs (d : Handles) (x : VerbsM Unit α) : PlatformM α := fun s =>
  let record (t : Env Unit) : Session :=
    { s with
      events := s.events ++
        verbsEvents d s.verbsLog s.answers (t.log.drop s.verbsLog.length)
      answers := t.answers
      verbsLog := t.log }
  match x ⟨s.answers, s.verbsLog, ()⟩ with
  | .ok a t => .ok a (record t)
  | .error e t => .error e (record t)

end HipObject
