import HipObject.Rdma.ConnectionPool
import HipObject.Verification.Machine
import Mathlib.Data.Fintype.Defs
import Mathlib.Logic.Function.Basic

/-!
# Threads, leases and pools

Any number of threads acquire, move, use and destroy leases of any number of
pools. One action is one critical section of a pool's mutex, or a stretch of
code that runs without it: a release is its restore part, then its critical
section, then its notification. `ConditionVariable::wait` unlocks and blocks in
one step, and a blocked thread may wake up at any time.

The hardware moves too. It may add a completion to the queue of a connection
while that connection is leased and its release has not begun. Once a release
has moved the queue pair to RESET nothing more completes on it, which
`drainCompletions` relies on.

Each lease has a serial number, for the transfer it was acquired for, and
`history` lists what happened, the latest first. Neither can be seen by the code.
-/

namespace HipObject

open Verification

/-- What a thread is about to do to the waiters of a pool. -/
inductive Signal where
  | nothing
  | one
  | all
  deriving DecidableEq, Repr

/-- Where a thread is, as far as the pools are concerned. -/
inductive Control (P : Type) where
  | running
  /-- Blocked in `wait()`, and not notified. -/
  | waiting (pool : P)
  /-- Blocked in `wait()` and notified, or about to lock the mutex again. -/
  | notified (pool : P)
  /-- In `release()`, before its critical section. -/
  | releasing
  /-- Past the critical section of `release()`, or of `close()`. -/
  | notifying (pool : P) (signal : Signal) (ofRelease : Bool)
  deriving DecidableEq

/-- `ConnectionPool::Lease`. -/
structure Lease (P T : Type) where
  /-- `none` once it's been moved from. -/
  pool : Option P
  index : Nat
  connected : Bool
  /-- The thread that acquired it, which has to destroy it. -/
  thread : T
  serial : Nat
  /-- What `release()` found, once its restore part is done. -/
  usable : Option Bool
  deriving DecidableEq

inductive Event (P T : Type) where
  | leased (thread : T) (pool : P) (serial : Nat) (conn : Option RcConnection)
  | refused (thread : T) (pool : P) (error : AcquireError)
  | polled (pool : P) (serial : Nat) (wc : Completion) (result : Option Bool)
  | closeReturned (pool : P)

structure System (P T : Type) where
  pools : P → ConnectionPool
  /-- The lease objects, in no particular order. -/
  leases : List (Lease P T)
  /-- `t_leasesHeld`, of each thread. -/
  leasesHeld : T → Nat
  control : T → Control P
  nextSerial : Nat
  log : List VerbsCall
  history : List (Event P T)

/-- A step of a thread, or of the hardware. -/
inductive PoolAction (P T : Type) where
  | acquire (t : T) (p : P)
  | wake (t : T)
  | move (l : Lease P T)
  | destroyMoved (l : Lease P T)
  | connect (l : Lease P T) (peerToken : RdmaToken) (answers : List Answer)
  | poll (l : Lease P T) (expectedOpcode : Option Nat) (answers : List Answer)
  | complete (l : Lease P T) (success : Bool) (opcode : Nat)
  | restore (l : Lease P T) (answers : List Answer)
  | releaseLocked (l : Lease P T)
  | notify (t : T) (chosen : Option T)
  | close (t : T) (p : P)

namespace System

variable {P T : Type} [DecidableEq P] [DecidableEq T]

/-! ### Acquiring -/

/-- `acquire()` from the point where it holds the mutex: at its start, or back
from `wait()`. A thread that holds a lease doesn't wait. -/
def acquireLocked (s : System P T) (t : T) (p : P) : System P T :=
  if s.leasesHeld t = 0 ∧ (s.pools p).mustWait then
    { s with control := Function.update s.control t (.waiting p) }
  else match (s.pools p).takeFree with
    | .error e =>
        { s with
          control := Function.update s.control t .running
          history := .refused t p e :: s.history }
    | .ok (index, pool) =>
        { s with
          pools := Function.update s.pools p pool
          leases := ⟨some p, index, false, t, s.nextSerial, none⟩ :: s.leases
          leasesHeld := Function.update s.leasesHeld t (s.leasesHeld t + 1)
          control := Function.update s.control t .running
          nextSerial := s.nextSerial + 1
          history := .leased t p s.nextSerial ((s.pools p).connection index) :: s.history }

def acquire (s : System P T) (t : T) (p : P) : Option (System P T) :=
  if s.control t = .running then some (s.acquireLocked t p) else none

/-- Back from `wait()`, notified or not. -/
def wake (s : System P T) (t : T) : Option (System P T) :=
  match s.control t with
  | .waiting p => some (s.acquireLocked t p)
  | .notified p => some (s.acquireLocked t p)
  | _ => none

/-! ### Using a lease -/

/-- Whether the code on the lease's thread can use it now. -/
def CanUse (s : System P T) (l : Lease P T) : Prop :=
  l ∈ s.leases ∧ l.usable = none ∧ s.control l.thread = .running

instance (s : System P T) (l : Lease P T) : Decidable (s.CanUse l) :=
  inferInstanceAs (Decidable (_ ∧ _ ∧ _))

/-- The move constructor. The new lease is what the old one was. -/
def move (s : System P T) (l : Lease P T) : Option (System P T) :=
  if s.CanUse l then some { s with leases := { l with pool := none } :: s.leases } else none

/-- `~Lease` of a lease that's been moved from. -/
def destroyMoved (s : System P T) (l : Lease P T) : Option (System P T) :=
  if s.CanUse l ∧ l.pool = none then some { s with leases := s.leases.erase l } else none

/-- `connection()`, with the pool. An empty slot has no connection to use, and
the lease of no pool has no slot. -/
def connection (s : System P T) (l : Lease P T) : Option (P × RcConnection) :=
  l.pool.bind fun p => ((s.pools p).connection l.index).map fun conn => (p, conn)

/-- The system after a lease and the slot it names have changed. -/
def update (s : System P T) (p : P) (l l' : Lease P T) (slot : Option RcConnection)
    (log : List VerbsCall) (events : List (Event P T)) : System P T :=
  { s with
    pools := Function.update s.pools p ((s.pools p).setSlot l.index slot)
    leases := l' :: s.leases.erase l
    log := log
    history := events ++ s.history }

/-- `Lease::connect`. The lease counts as connected whatever happens. -/
def connect (device : P → RdmaDevice) (s : System P T) (l : Lease P T) (peerToken : RdmaToken)
    (answers : List Answer) : Option (System P T) :=
  if s.CanUse l then
    (s.connection l).map fun (p, conn) =>
      let env := finalState (connectRcPeer (device p) peerToken ⟨answers, s.log, conn⟩)
      s.update p l { l with connected := true } (some env.obj) env.log []
  else none

/-- One round of `pollCompletion`. -/
def poll (s : System P T) (l : Lease P T) (expectedOpcode : Option Nat) (answers : List Answer) :
    Option (System P T) :=
  if s.CanUse l then
    (s.connection l).map fun (p, conn) =>
      match pollCq ⟨answers, s.log, conn⟩ with
      | .ok (some (some wc)) env =>
          s.update p l l (some env.obj) env.log
            [.polled p l.serial wc (roundResult expectedOpcode (some (some wc)))]
      | .ok _ env => s.update p l l (some env.obj) env.log []
      | .error _ env => s.update p l l (some env.obj) env.log []
  else none

/-- The hardware adds a completion, if the queue has room for it. -/
def complete (s : System P T) (l : Lease P T) (success : Bool) (opcode : Nat) :
    Option (System P T) :=
  if l ∈ s.leases ∧ l.usable = none then
    (s.connection l).bind fun (p, conn) =>
      if conn.cq.completions.length < conn.cq.cqe then
        let wc : Completion := ⟨success, opcode, l.serial⟩
        some (s.update p l l (some { conn with cq.completions := conn.cq.completions ++ [wc] })
          s.log [])
      else none
  else none

/-! ### Releasing -/

/-- The start of `release()`, without the mutex: a connection that was
connected is reset or replaced. -/
def restore (s : System P T) (l : Lease P T) (answers : List Answer) : Option (System P T) :=
  if s.CanUse l then
    l.pool.bind fun p =>
      let releasing := Function.update s.control l.thread .releasing
      let slot := (s.pools p).connection l.index
      if l.connected then
        match ConnectionPool.restore ⟨answers, s.log, slot⟩ with
        | .ok usable env =>
            some { s.update p l { l with usable := some usable } env.obj env.log [] with
              control := releasing }
        | .error _ _ => none
      else
        some { s.update p l { l with usable := some true } slot s.log [] with control := releasing }
  else none

/-- The critical section of `release()`. -/
def releaseLocked (s : System P T) (l : Lease P T) : Option (System P T) :=
  if l ∈ s.leases ∧ s.control l.thread = .releasing then
    l.pool.bind fun p => l.usable.map fun usable =>
      let pool := (s.pools p).giveBack l.index usable
      let signal := if usable then .one else if pool.live = 0 then .all else .nothing
      { s with
        pools := Function.update s.pools p pool
        leases := s.leases.erase l
        control := Function.update s.control l.thread (.notifying p signal true) }
  else none

/-- The critical section of `close()`. -/
def close (s : System P T) (t : T) (p : P) : Option (System P T) :=
  if s.control t = .running then
    some { s with
      pools := Function.update s.pools p { s.pools p with closed := true }
      control := Function.update s.control t (.notifying p .all false) }
  else none

/-! ### Notifying -/

/-- `notify_all`: everyone who waits on the pool is notified. -/
def notifyAll (control : T → Control P) (p : P) : T → Control P := fun t =>
  if control t = .waiting p then .notified p else control t

/-- `notify_one`: one thread that waits, if there is any. -/
def notifyOne [Fintype T] (control : T → Control P) (p : P) (chosen : Option T) :
    Option (T → Control P) :=
  match chosen with
  | some w =>
      if control w = .waiting p then some (Function.update control w (.notified p)) else none
  | none => if ∀ w, control w ≠ .waiting p then some control else none

/-- The notification, which is the last thing before `release()` or `close()`
returns. -/
def notify [Fintype T] (s : System P T) (t : T) (chosen : Option T) : Option (System P T) :=
  match s.control t with
  | .notifying p signal ofRelease =>
      let signalled := match signal with
        | .nothing => some s.control
        | .one => notifyOne s.control p chosen
        | .all => some (notifyAll s.control p)
      signalled.map fun control =>
        let control := Function.update control t .running
        if ofRelease then
          { s with
            control := control
            leasesHeld := Function.update s.leasesHeld t (s.leasesHeld t - 1) }
        else { s with control := control, history := .closeReturned p :: s.history }
  | _ => none

end System

/-! ### The machine -/

variable {P T : Type} [DecidableEq P] [DecidableEq T] [Fintype T]

def poolStep (device : P → RdmaDevice) (s : System P T) : PoolAction P T → Option (System P T)
  | .acquire t p => s.acquire t p
  | .wake t => s.wake t
  | .move l => s.move l
  | .destroyMoved l => s.destroyMoved l
  | .connect l peerToken answers => s.connect device l peerToken answers
  | .poll l expectedOpcode answers => s.poll l expectedOpcode answers
  | .complete l success opcode => s.complete l success opcode
  | .restore l answers => s.restore l answers
  | .releaseLocked l => s.releaseLocked l
  | .notify t chosen => s.notify t chosen
  | .close t p => s.close t p

/-- Pools as the constructor leaves them, and threads that have no lease yet. -/
structure System.Initial (s : System P T) : Prop where
  created : ∀ p, ∃ count answers log env,
    ConnectionPool.create count ⟨answers, log, ()⟩ = .ok (s.pools p) env ∧ env.log <+: s.log
  leases : s.leases = []
  leasesHeld : ∀ t, s.leasesHeld t = 0
  control : ∀ t, s.control t = .running
  history : s.history = []

/-- One pool, before any thread has used it. -/
def System.ofPool (pool : ConnectionPool) (log : List VerbsCall) : System Unit T where
  pools := fun _ => pool
  leases := []
  leasesHeld := fun _ => 0
  control := fun _ => .running
  nextSerial := 0
  log := log
  history := []

omit [DecidableEq T] [Fintype T] in
theorem System.ofPool_initial (count : Nat) (answers : List Answer) (pool : ConnectionPool)
    (env : Env Unit) (h : ConnectionPool.create count ⟨answers, [], ()⟩ = .ok pool env) :
    (System.ofPool pool env.log : System Unit T).Initial where
  created := fun _ => ⟨count, answers, [], env, h, List.prefix_refl _⟩
  leases := rfl
  leasesHeld := fun _ => rfl
  control := fun _ => rfl
  history := rfl

/-- A pool of `count` connections with room for 16 completions each. -/
def samplePool (count : Nat) : ConnectionPool where
  slots := (List.range count).map fun i =>
    some ⟨⟨3 * i, 16, []⟩, ⟨3 * i + 1, 1, .INIT, none⟩⟩
  free := List.range count
  capacity := count
  live := count
  closed := false
  dropped := []

/-- The calls that create it. -/
def sampleLog (count : Nat) : List VerbsCall :=
  (List.range count).flatMap fun i =>
    [.createCq 16, .createQp (3 * i) 8 8, .modifyQp (3 * i + 1) .INIT none]

def poolMachine (device : P → RdmaDevice) : Machine (System P T) (PoolAction P T) where
  init := System.Initial
  step := poolStep device

end HipObject
