import HipObject.Buffer.Machine
import HipObject.Library.InitRuns
import HipObject.Rdma.PoolMachine

/-!
# The library under any number of threads

`initWith`, `shutdownInstance` and the public calls as they interleave. Each
thread has a stack of frames, one for each call of the library that it is in: a
callback of a transfer can make any public call, also `hipObjInit` and
`hipObjShutdown`. A frame names the instance that its call found, and keeps a
reference to it until the call returns.

One action is one critical section, one call of the outside, or a stretch of code
that works on objects which nobody else has. `initWith` and `shutdownInstance`
hold `initMutex` from their first step to their last, and publish and remove the
instance under another lock. The buffers and the calls of an instance take the
steps of the instance machine, and its pool those of the pool machine. The lease
of a transfer is released when its call leaves `runRdmaTransfer`, before anything
else happens on the thread.

The outside keeps books for each instance: a session with what the platform made
and released for it. `history` lists what happened, the latest first.
-/

namespace HipObject

open Codec Verification

/-! ### Frames -/

/-- Where `initWith` is. An instance that is not published yet is a local
variable, with its setup and the session that built it. -/
inductive InitStage where
  | lock
  | check
  | build
  | publish (inst : Instance) (setup : Setup) (session : Session)

/-- Where `shutdownInstance` is, with the instance it has removed. -/
inductive ShutdownStage where
  | lock
  | take
  | close (p : Nat)
  | reset (p : Option Nat)

/-- What a frame is busy with. -/
inductive Work where
  /-- A call on the instance it found, with its number there, and the serial
  number of the lease it holds. -/
  | call (p id : Nat) (lease : Option Nat)
  | init (stage : InitStage)
  | shutdown (stage : ShutdownStage)

structure Frame (T : Type) where
  thread : T
  serial : Nat
  work : Work

/-- Whether a frame has a reference to an instance. -/
def Work.holds (p : Nat) : Work → Bool
  | .call q _ _ => q = p
  | .shutdown (.close q) => q = p
  | .shutdown (.reset (some q)) => q = p
  | _ => false

/-- Whether a frame has `initMutex`. -/
def Work.hasMutex : Work → Bool
  | .call .. => false
  | .init .lock => false
  | .shutdown .lock => false
  | _ => true

/-- Where the code of the application runs. -/
def Pc.inCallback : Pc → Bool
  | .sendRequest _ => true
  | .recvReply _ => true
  | _ => false

/-- The part of `runRdmaTransfer` after `acquire()`. -/
def Pc.inTransfer : Pc → Bool
  | .buildToken _ _ => true
  | .sendRequest _ => true
  | .recvReply _ => true
  | .finishTransfer _ => true
  | _ => false

def Pc.inAcquire : Pc → Bool
  | .acquire _ => true
  | _ => false

def Pc.inFinish : Pc → Bool
  | .finishTransfer _ => true
  | _ => false

/-! ### The state -/

/-- An instance that was published: what was built, its buffers and the calls on
it, and what the platform did for it. -/
structure Published where
  inst : Instance
  setup : Setup
  state : InstanceState
  session : Session

/-- What became of the library and its callers. Calls have serial numbers. -/
inductive LibraryEvent where
  /-- A call started and found an instance. -/
  | found (call p : Nat)
  /-- A call started, found none, and returned `hipObjNotInitialized`. -/
  | notInitialized (call : Nat)
  /-- A call did something with an instance. -/
  | used (call p : Nat)
  | leased (call p : Nat)
  /-- `initWith` returned success. -/
  | published (p : Nat)
  /-- `initWith` returned an error, having called the platform or not. -/
  | failed (result : OpError) (touched : Bool)
  /-- `shutdownInstance` took the current instance out. -/
  | removed (p : Nat)
  | shutdownReturned (p : Option Nat)
  | destroyed (p : Nat)
  deriving DecidableEq

structure LibraryState (T : Type) where
  /-- The instances that were published, by number. -/
  instances : Nat → Option Published
  count : Nat
  /-- `Current::instance`. -/
  current : Option Nat
  /-- Whether `Current::initMutex` is locked. -/
  initMutex : Bool
  /-- The frames of all threads, the innermost ones first. -/
  frames : List (Frame T)
  /-- The pools of the instances, and the threads' leases. -/
  system : System Nat T
  nextCall : Nat
  history : List LibraryEvent

/-- What `initWith` is given, and what the platform answers to it. -/
structure Startup where
  platform : Platform
  topology : NicTopology
  config : Config
  maxTransfers : Nat
  dmabufEnabled : Bool
  requireGpuDirect : Bool
  supportsDmabuf : Bool
  answers : List Answer
  lockThrows : Bool

/-- What the calls on a new instance read of it. -/
def Startup.setup (start : Startup) (inst : Instance) : Setup where
  device := inst.device.device
  dmabufEnabled := start.dmabufEnabled
  supportsDmabuf := start.supportsDmabuf
  requireGpuDirect := start.requireGpuDirect
  tokenQpNum := inst.tokenConn.qp.qpNum

/-- The calls on connections that were made up to `log`, with what they did. -/
def Session.record (s : Session) (d : Handles) (answers : List Answer) (log : List VerbsCall) :
    Session :=
  { s with
    events := s.events ++ verbsEvents d s.verbsLog answers (log.drop s.verbsLog.length)
    verbsLog := log }

inductive LibraryAction (T : Type) where
  -- the public calls
  | call (t : T) (op : Op)
  | step (t : T) (c : Call) (reply : Reply)
  | ret (t : T) (c : Call) (answers : Copy → EventStatus)
  -- their leases
  | acquire (t : T) (c : Call)
  | connect (t : T) (c : Call) (l : Lease Nat T) (peerToken : RdmaToken) (answers : List Answer)
  | poll (t : T) (c : Call) (l : Lease Nat T) (expectedOpcode : Option Nat) (answers : List Answer)
  | restore (t : T) (c : Call) (l : Lease Nat T) (answers : List Answer)
  | releaseLocked (t : T) (c : Call) (l : Lease Nat T)
  | notify (t : T) (chosen : Option T)
  -- the hardware and the runtime
  | complete (p : Nat) (l : Lease Nat T) (success : Bool) (opcode : Nat)
  | finishCopy (p : Nat) (copy : StagingCopy)
  -- the instance
  | init (t : T)
  | initStep (t : T) (start : Startup)
  | shutdown (t : T)
  | shutdownStep (t : T) (answers : Copy → EventStatus)

namespace LibraryState

variable {T : Type} [DecidableEq T] (lib : LibraryState T)

/-- The innermost frame of a thread. -/
def top (t : T) : Option (Frame T) := lib.frames.find? fun f => f.thread = t

/-- The frames without the innermost one of a thread. -/
def below (t : T) : List (Frame T) := lib.frames.eraseP fun f => f.thread = t

/-- The frame of a thread has gone on to other work. -/
def goto (f : Frame T) (work : Work) : LibraryState T :=
  { lib with frames := { f with work := work } :: lib.below f.thread }

def pop (t : T) : LibraryState T := { lib with frames := lib.below t }

def note (e : LibraryEvent) : LibraryState T := { lib with history := e :: lib.history }

/-- Whether anything refers to an instance. -/
def held (p : Nat) : Bool := lib.current = some p || lib.frames.any fun f => f.work.holds p

/-- Whether a thread runs the application's own code, which can call the library. -/
def runsApplication (t : T) : Bool :=
  lib.system.control t = .running &&
    match lib.top t with
    | none => true
    | some ⟨_, _, .call p id _⟩ => (lib.instances p).any fun pub =>
        pub.state.calls.any fun c => c.id = id && c.pc.inCallback
    | some _ => false

/-! ### Steps of an instance -/

/-- The library after the buffers and calls of an instance have changed. -/
def withState (p : Nat) (pub : Published) (s : InstanceState) : LibraryState T :=
  { lib with instances := Function.update lib.instances p (some { pub with state := s }) }

/-- A step of the buffers and calls of an instance. -/
def instanceStepOn (p : Nat) (a : InstanceAction) : Option (LibraryState T) :=
  (lib.instances p).bind fun pub =>
    (instanceStep pub.setup pub.state a).map fun s => lib.withState p pub s

/-- The library after the pools have changed, with the calls on connections in
the books of the instance that made them. -/
def withSystem (p : Nat) (pub : Published) (answers : List Answer) (system : System Nat T) :
    LibraryState T :=
  { lib with
    system := system
    instances := Function.update lib.instances p (some { pub with
      session := pub.session.record pub.inst.device.handles answers system.log }) }

/-- A step of the pool of an instance. -/
def poolStepOn [Fintype T] (p : Nat) (a : PoolAction Nat T) (answers : List Answer) :
    Option (LibraryState T) :=
  (lib.instances p).bind fun pub =>
    (poolStep (fun _ => pub.inst.device.device) { lib.system with log := pub.session.verbsLog }
        a).map fun system => lib.withSystem p pub answers system

/-- `~Instance`: the abandoned copies and the buffers, then the pool, the token
connection and the device. -/
def destroy (p : Nat) (answers : Copy → EventStatus) : Option (LibraryState T) :=
  (lib.instances p).bind fun pub =>
    (instanceStep pub.setup pub.state (.destroy answers)).map fun s =>
      let inst := { pub.inst with pool := lib.system.pools p }
      { lib with
        instances := Function.update lib.instances p (some { pub with
          state := s
          session := finalState (destroyInstance inst pub.session) })
        history := .destroyed p :: lib.history }

/-- Lets a reference to an instance go. The last one destroys it. -/
def letGo (p : Nat) (answers : Copy → EventStatus) : Option (LibraryState T) :=
  if lib.held p then some lib else lib.destroy p answers

/-! ### Public calls -/

/-- The start of a public call: `currentInstance()`. -/
def beginCall (t : T) (op : Op) : Option (LibraryState T) :=
  if lib.runsApplication t then
    match lib.current with
    | none =>
        some { lib.note (.notInitialized lib.nextCall) with nextCall := lib.nextCall + 1 }
    | some p =>
        (lib.instances p).bind fun pub =>
          (lib.instanceStepOn p (.begin op)).map fun lib' =>
            { lib'.note (.found lib.nextCall p) with
              frames := ⟨t, lib.nextCall, .call p pub.state.next none⟩ :: lib.frames
              nextCall := lib.nextCall + 1 }
  else none

/-- A step of the innermost call of a thread. A lease is only held inside the
transfer. -/
def callStep (t : T) (c : Call) (reply : Reply) : Option (LibraryState T) :=
  match lib.top t with
  | some ⟨_, n, .call p id lease⟩ =>
      if lib.system.control t = .running ∧ c.id = id ∧ c.pc.inAcquire = false ∧
          (lease = none ∨ c.pc.inTransfer = true) then
        (lib.instanceStepOn p (.step c reply)).map fun lib' => lib'.note (.used n p)
      else none
  | _ => none

/-- The innermost call of a thread returns, and lets its instance go. -/
def retCall (t : T) (c : Call) (answers : Copy → EventStatus) : Option (LibraryState T) :=
  match lib.top t with
  | some ⟨_, _, .call p id none⟩ =>
      if lib.system.control t = .running ∧ c.id = id then
        (lib.instanceStepOn p (.ret c)).bind fun lib' => (lib'.pop t).letGo p answers
      else none
  | _ => none

section Leases

variable [Fintype T]

/-- `acquire()` of the innermost call of a thread: from its start, or back from
`wait()`. -/
def acquire (t : T) (c : Call) : Option (LibraryState T) :=
  match lib.top t with
  | some ⟨_, n, .call p id none⟩ =>
      if c.id = id ∧ c.pc.inAcquire = true ∧ (lib.system.control t = .running ∨
          lib.system.control t = .waiting p ∨ lib.system.control t = .notified p) then
        let a := if lib.system.control t = .running then .acquire t p else .wake t
        (lib.poolStepOn p a []).bind fun after =>
          if after.system.control t = .waiting p then some after
          else match (lib.system.pools p).takeFree with
            | .error e =>
                (after.instanceStepOn p (.step c (.lease (.error e)))).map fun lib' =>
                  lib'.note (.used n p)
            | .ok (index, _) =>
                ((lib.system.pools p).connection index).bind fun conn =>
                  (after.instanceStepOn p (.step c (.lease (.ok conn.qp.qpNum)))).map fun lib' =>
                    (lib'.goto ⟨t, n, .call p id none⟩
                      (.call p id (some lib.system.nextSerial))).note (.leased n p)
      else none
  | _ => none

/-- Something that the innermost call of a thread does with its lease, inside the
transfer or after it. -/
def useLease (t : T) (c : Call) (l : Lease Nat T) (after : Bool) (a : PoolAction Nat T)
    (answers : List Answer) : Option (LibraryState T) :=
  match lib.top t with
  | some ⟨_, _, .call p id (some serial)⟩ =>
      if c.id = id ∧ (lib.instances p).any (fun pub => c ∈ pub.state.calls) ∧ l.pool = some p ∧
          l.serial = serial ∧ (if after then c.pc.inTransfer = false else c.pc.inFinish = true) then
        lib.poolStepOn p a answers
      else none
  | _ => none

/-- The critical section of `release()`, after which the call has no lease. -/
def releaseLocked (t : T) (c : Call) (l : Lease Nat T) : Option (LibraryState T) :=
  match lib.top t with
  | some ⟨_, n, .call p id lease⟩ =>
      (lib.useLease t c l true (.releaseLocked l) []).map fun lib' =>
        lib'.goto ⟨t, n, .call p id lease⟩ (.call p id none)
  | _ => none

end Leases

/-! ### `initWith` -/

/-- Returns an error, and unlocks `initMutex`. -/
def failInit (t : T) (result : OpError) (touched : Bool) : LibraryState T :=
  { (lib.pop t).note (.failed result touched) with initMutex := false }

/-- Publishes an instance, and returns. -/
def publish (t : T) (inst : Instance) (setup : Setup) (session : Session) : LibraryState T :=
  { (lib.pop t).note (.published lib.count) with
    instances := Function.update lib.instances lib.count (some ⟨inst, setup, .initial, session⟩)
    count := lib.count + 1
    current := some lib.count
    initMutex := false
    system := { lib.system with
      pools := Function.update lib.system.pools lib.count inst.pool } }

def initStep (t : T) (start : Startup) : Option (LibraryState T) :=
  match lib.top t with
  | some ⟨_, n, .init stage⟩ =>
      let f : Frame T := ⟨t, n, .init stage⟩
      match stage with
      | .lock =>
          if lib.initMutex then none
          else some { lib.goto f (.init .check) with initMutex := true }
      | .check =>
          if lib.current.isSome then some (lib.failInit t .AlreadyInitialized false)
          else some (lib.goto f (.init .build))
      | .build =>
          match startInstance start.platform start.topology.enumerate start.config
              start.maxTransfers start.lockThrows (.start start.answers) with
          | .ok (.ok inst) session =>
              some (lib.goto f (.init (.publish inst (start.setup inst) session)))
          | .ok (.error err) _ => some (lib.failInit t err.opError true)
          | .error _ _ => some (lib.failInit t .InternalError true)
      | .publish inst setup session => some (lib.publish t inst setup session)
  | _ => none

/-! ### `shutdownInstance` -/

/-- Unlocks `initMutex`, and returns. -/
def endShutdown (p : Option Nat) : LibraryState T :=
  { lib.note (.shutdownReturned p) with initMutex := false }

def shutdownStep [Fintype T] (t : T) (answers : Copy → EventStatus) : Option (LibraryState T) :=
  match lib.top t with
  | some ⟨_, n, .shutdown stage⟩ =>
      let f : Frame T := ⟨t, n, .shutdown stage⟩
      match stage with
      | .lock =>
          if lib.initMutex then none
          else some { lib.goto f (.shutdown .take) with initMutex := true }
      | .take =>
          match lib.current with
          | none => some (lib.goto f (.shutdown (.reset none)))
          | some p =>
              (lib.instanceStepOn p .shutdown).map fun lib' =>
                { (lib'.goto f (.shutdown (.close p))).note (.removed p) with current := none }
      | .close p =>
          (lib.poolStepOn p (.close t p) []).map fun lib' =>
            lib'.goto f (.shutdown (.reset (some p)))
      | .reset none => some ((lib.pop t).endShutdown none)
      | .reset (some p) =>
          -- the notification of `close()` comes first
          if lib.system.control t = .running then
            ((lib.pop t).letGo p answers).map fun lib' => lib'.endShutdown (some p)
          else none
  | _ => none

/-- A library that was never initialized. -/
def initial (T : Type) : LibraryState T where
  instances := fun _ => none
  count := 0
  current := none
  initMutex := false
  frames := []
  system := {
    pools := fun _ => ⟨[], [], 0, 0, false, []⟩
    leases := []
    leasesHeld := fun _ => 0
    control := fun _ => .running
    nextSerial := 0
    log := []
    history := [] }
  nextCall := 0
  history := []

end LibraryState

/-! ### The machine -/

variable {T : Type} [DecidableEq T] [Fintype T]

def libraryStep (lib : LibraryState T) : LibraryAction T → Option (LibraryState T)
  | .call t op => lib.beginCall t op
  | .step t c reply => lib.callStep t c reply
  | .ret t c answers => lib.retCall t c answers
  | .acquire t c => lib.acquire t c
  | .connect t c l peerToken answers =>
      lib.useLease t c l false (.connect l peerToken answers) answers
  | .poll t c l expectedOpcode answers =>
      lib.useLease t c l false (.poll l expectedOpcode answers) answers
  | .restore t c l answers => lib.useLease t c l true (.restore l answers) answers
  | .releaseLocked t c l => lib.releaseLocked t c l
  | .notify t chosen =>
      (lib.system.notify t chosen).map fun system => { lib with system := system }
  | .complete p l success opcode =>
      if l.pool = some p then lib.poolStepOn p (.complete l success opcode) [] else none
  | .finishCopy p copy => lib.instanceStepOn p (.finishCopy copy)
  | .init t =>
      if lib.runsApplication t then
        some { lib with
          frames := ⟨t, lib.nextCall, .init .lock⟩ :: lib.frames
          nextCall := lib.nextCall + 1 }
      else none
  | .initStep t start => lib.initStep t start
  | .shutdown t =>
      if lib.runsApplication t then
        some { lib with
          frames := ⟨t, lib.nextCall, .shutdown .lock⟩ :: lib.frames
          nextCall := lib.nextCall + 1 }
      else none
  | .shutdownStep t answers => lib.shutdownStep t answers

def libraryMachine (T : Type) [DecidableEq T] [Fintype T] :
    Machine (LibraryState T) (LibraryAction T) where
  init := fun lib => lib = .initial T
  step := libraryStep

/-! ### Scripts -/

/-- The innermost call of a thread. -/
def LibraryState.topCall (lib : LibraryState T) (t : T) : Option Call :=
  match lib.top t with
  | some ⟨_, _, .call p id _⟩ =>
      (lib.instances p).bind fun pub => pub.state.calls.find? fun c => c.id = id
  | _ => none

/-- A line of a script with one thread, which names calls, leases and copies by
their place. -/
inductive LibraryLine where
  | action (a : LibraryAction Unit)
  | step (reply : Reply)
  | ret (answers : Copy → EventStatus)
  | acquire
  | connect (peerToken : RdmaToken) (answers : List Answer)
  | restore (answers : List Answer)
  | releaseLocked
  | finishCopy (p : Nat)

def LibraryLine.choose (lib : LibraryState Unit) : LibraryLine → Option (LibraryAction Unit)
  | action a => some a
  | step reply => (lib.topCall ()).map fun c => .step () c reply
  | ret answers => (lib.topCall ()).map fun c => .ret () c answers
  | acquire => (lib.topCall ()).map fun c => .acquire () c
  | connect peerToken answers => (lib.topCall ()).bind fun c => lib.system.leases.head?.map fun l =>
      .connect () c l peerToken answers
  | restore answers => (lib.topCall ()).bind fun c => lib.system.leases.head?.map fun l =>
      .restore () c l answers
  | releaseLocked => (lib.topCall ()).bind fun c => lib.system.leases.head?.map fun l =>
      .releaseLocked () c l
  | finishCopy p => (lib.instances p).bind fun pub => pub.state.started.head?.map fun copy =>
      .finishCopy p copy

/-- A platform on which `initWith` succeeds with one connection. -/
def sampleStartup : Startup where
  platform := oneGid 0 1
  topology := .answering fun _ => .value []
  config := ⟨0, [ascii 'a']⟩
  maxTransfers := 1
  dmabufEnabled := false
  requireGpuDirect := false
  supportsDmabuf := false
  answers := [.success 16, .success 1, .success 0, .success 16, .success 2, .success 0]
  lockThrows := false

/-- The library is initialized. -/
def startedLibrary : List LibraryLine :=
  .action (.init ()) :: List.replicate 4 (.action (.initStep () sampleStartup))

/-- A staged registration of 64 bytes. -/
def stagedBuffer : List LibraryLine :=
  [.action (.call () (.register 0x1000 64)), .step (.pointer ⟨some .device, some (0x800, 0x1000)⟩),
    .step .ok, .step .fail, .step (.memory (some .device) (some 0x7000)), .step (.mr 7), .step .ok,
    .step .ok, .ret fun _ => .notReady]

/-- A transfer, up to its first callback. -/
def transferToCallback : List LibraryLine :=
  [.action (.call () (.get 0x1000 16 8 true)), .step .ok, .step .ok, .step .ok,
    .step (.statuses fun _ => ⟨.notReady, false, false⟩), .step .ok, .acquire, .step .ok]

/-- A shutdown, to its end. -/
def wholeShutdown : List LibraryLine :=
  [.action (.shutdown ()), .action (.shutdownStep () fun _ => .notReady),
    .action (.shutdownStep () fun _ => .notReady), .action (.shutdownStep () fun _ => .notReady),
    .action (.notify () none), .action (.shutdownStep () fun _ => .notReady)]

end HipObject
