import HipObject.Verification.Descriptors
import HipObject.Verification.Machine
import Mathlib.Data.List.Sort

/-!
# The threads of the test server

`HttpServer` accepts connections on one thread and serves each on a thread of its
own, until `stop()`. A `Worker` is registered while it exists: its descriptor is
in `activeFds_` and it counts in `liveWorkers_`, so that `stop()` can shut its
connection down and wait for it.

One action is one step of one thread, between two points where another thread can
come in: a critical section of `workersMtx_`, or a system call. Only `stop()`
holds the mutex for longer, while it duplicates the registered descriptors. What
`poll`, `accept4`, `setsockopt`, `fcntl` and the creation of a thread answer is
part of the action. The process opens and closes other descriptors too, and a
number that was closed can come back for something else.

`served` and `shutdowns` are for the statements only: the connections that got a
worker, and the files that a `shutdown` call reached.
-/

namespace HipObject.Server

open Verification

/-- Where `runThreaded` is. -/
inductive AcceptLoop where
  | notStarted
  | entering
  | checking
  | polling
  | accepting
  /-- With a connection, before `setsockopt`. -/
  | accepted (client : Handle)
  /-- Before the critical section of `registerWorker`. -/
  | registering (client : Handle)
  /-- With a `Worker`, before its thread is created. -/
  | spawning (client : Handle)
  /-- Without a thread: `~Worker`, before its critical section. -/
  | rollingBack (client : Handle)
  /-- Before it closes a descriptor, and then leaves the loop or goes on. -/
  | closing (client : Handle) (leaves : Bool)
  | exited
  deriving DecidableEq

/-- A `Worker` on its own thread: in `handleConnection`, or past the critical
section of its destructor. -/
structure Worker where
  client : Handle
  registered : Bool
  deriving DecidableEq

/-- Where the call of `stop()` is that `request_stop()` returned true for. -/
inductive StopCall where
  | notCalled
  | shuttingListener
  | locking
  /-- Holding `workersMtx_`, with the descriptors that are still to be duplicated. -/
  | duplicating (fds : List Nat) (dups : List Handle)
  | shuttingDown (rest dups : List Handle)
  | closingDups (dups : List Handle)
  | joining
  /-- About to look at `liveWorkers_`, at first or back from `wait()`. -/
  | awaiting
  /-- Blocked in `wait()`, and not notified. -/
  | waiting
  | returned
  deriving DecidableEq

structure HttpServer where
  listenFd : Option Handle
  /-- The stop state of `acceptLoop_`. -/
  stopRequested : Bool
  loop : AcceptLoop
  workers : List Worker
  /-- In the order of `std::set<int>`. -/
  activeFds : List Nat
  liveWorkers : Int
  stopCall : StopCall
  table : FdTable
  /-- What the rest of the process has open. -/
  others : List Handle
  served : List Nat
  shutdowns : List Nat

/-- A step of a thread, with the answers it gets: whether its system call succeeds,
and the number of a descriptor that it opens. -/
inductive ServerAction where
  | startThreaded
  | loop (ok : Bool) (fd : Nat)
  | worker (w : Worker)
  | stop
  | stopStep (ok : Bool) (fd : Nat)
  /-- Back from `wait()` without a notification. -/
  | wake
  | otherOpen (fd : Nat)
  | otherClose (h : Handle)

def StopCall.holdsMutex : StopCall → Bool
  | .duplicating _ _ => true
  | _ => false

/-- `notify_all()`. -/
def StopCall.notified : StopCall → StopCall
  | .waiting => .awaiting
  | call => call

namespace HttpServer

/-! ### System calls -/

def closeFd (s : HttpServer) (fd : Nat) : HttpServer := { s with table := s.table.close fd }

/-- `shutdown(fd, SHUT_RDWR)`, on whatever `fd` names now. -/
def shutdown (s : HttpServer) (fd : Nat) : HttpServer :=
  { s with shutdowns := (s.table.files fd).toList ++ s.shutdowns }

/-! ### The registry -/

def insertFd (fds : List Nat) (fd : Nat) : List Nat :=
  if fd ∈ fds then fds else fds.orderedInsert (· ≤ ·) fd

/-- The critical section of `registerWorker`, which refuses once stop is requested. -/
def registerWorker (s : HttpServer) (client : Handle) : HttpServer :=
  if s.stopRequested then { s with loop := .closing client true }
  else { s with
    activeFds := insertFd s.activeFds client.fd
    liveWorkers := s.liveWorkers + 1
    loop := .spawning client
    served := client.file :: s.served }

/-- The critical section of `~Worker`. -/
def unregister (s : HttpServer) (fd : Nat) : HttpServer :=
  { s with
    activeFds := s.activeFds.erase fd
    liveWorkers := s.liveWorkers - 1
    stopCall := s.stopCall.notified }

/-! ### The threads -/

def startThreaded (s : HttpServer) : Option HttpServer :=
  if s.loop = .notStarted ∧ s.listenFd.isSome then some { s with loop := .entering } else none

def loopStep (s : HttpServer) (ok : Bool) (fd : Nat) : Option HttpServer :=
  match s.loop with
  | .notStarted => none
  | .entering => some { s with loop := if s.listenFd.isSome then .checking else .exited }
  | .checking => some { s with loop := if s.stopRequested then .exited else .polling }
  | .polling => some { s with loop := if ok then .accepting else .checking }
  | .accepting =>
      if ok then
        if s.table.files fd = none then
          some { s with
            loop := .accepted ⟨fd, s.table.nextFile⟩
            table := s.table.openNew fd }
        else none
      else some { s with loop := .checking }
  | .accepted client =>
      some { s with loop := if ok then .registering client else .closing client false }
  | .registering client =>
      if s.stopCall.holdsMutex then none else some (s.registerWorker client)
  | .spawning client =>
      if ok then some { s with loop := .checking, workers := ⟨client, true⟩ :: s.workers }
      else some { s with loop := .rollingBack client }
  | .rollingBack client =>
      if s.stopCall.holdsMutex then none
      else some { s.unregister client.fd with loop := .closing client false }
  | .closing client leaves =>
      some { s.closeFd client.fd with loop := if leaves then .exited else .checking }
  | .exited => none

/-- A worker is done with its connection, or closes it. -/
def workerStep (s : HttpServer) (w : Worker) : Option HttpServer :=
  if w ∈ s.workers then
    if w.registered then
      if s.stopCall.holdsMutex then none
      else some { s.unregister w.client.fd with
        workers := { w with registered := false } :: s.workers.erase w }
    else some { s.closeFd w.client.fd with workers := s.workers.erase w }
  else none

/-- A call of `stop()`: all but the first return at once, and so do those before
the accept loop is started. -/
def stop (s : HttpServer) : Option HttpServer :=
  if s.loop ≠ .notStarted ∧ s.stopRequested = false then
    some { s with stopRequested := true, stopCall := .shuttingListener }
  else some s

def stopStep (s : HttpServer) (ok : Bool) (fd : Nat) : Option HttpServer :=
  match s.stopCall with
  | .notCalled => none
  | .shuttingListener =>
      match s.listenFd with
      | some listener => some { s.shutdown listener.fd with stopCall := .locking }
      | none => some { s with stopCall := .locking }
  | .locking => some { s with stopCall := .duplicating s.activeFds [] }
  | .duplicating [] dups => some { s with stopCall := .shuttingDown dups dups }
  | .duplicating (client :: rest) dups =>
      if ok then
        match s.table.files client with
        | some file =>
            if s.table.files fd = none then
              some { s with
                table := s.table.install fd file
                stopCall := .duplicating rest (dups ++ [⟨fd, file⟩]) }
            else none
        | none => none
      else some { s.shutdown client with stopCall := .duplicating rest dups }
  | .shuttingDown [] dups => some { s with stopCall := .closingDups dups }
  | .shuttingDown (d :: rest) dups =>
      some { s.shutdown d.fd with stopCall := .shuttingDown rest dups }
  | .closingDups [] => some { s with stopCall := .joining }
  | .closingDups (d :: rest) => some { s.closeFd d.fd with stopCall := .closingDups rest }
  | .joining => if s.loop = .exited then some { s with stopCall := .awaiting } else none
  | .awaiting =>
      some { s with stopCall := if s.liveWorkers = 0 then .returned else .waiting }
  | .waiting => none
  | .returned => none

def wake (s : HttpServer) : Option HttpServer :=
  if s.stopCall = .waiting then some { s with stopCall := .awaiting } else none

def otherOpen (s : HttpServer) (fd : Nat) : Option HttpServer :=
  if s.table.files fd = none then
    some { s with
      table := s.table.openNew fd
      others := ⟨fd, s.table.nextFile⟩ :: s.others }
  else none

def otherClose (s : HttpServer) (h : Handle) : Option HttpServer :=
  if h ∈ s.others then some { s.closeFd h.fd with others := s.others.erase h } else none

def step (s : HttpServer) : ServerAction → Option HttpServer
  | .startThreaded => s.startThreaded
  | .loop ok fd => s.loopStep ok fd
  | .worker w => s.workerStep w
  | .stop => s.stop
  | .stopStep ok fd => s.stopStep ok fd
  | .wake => s.wake
  | .otherOpen fd => s.otherOpen fd
  | .otherClose h => s.otherClose h

/-- A server whose constructor got the listening socket `fd`, or none. -/
def constructed (fd : Option Nat) : HttpServer where
  listenFd := fd.map (⟨·, 0⟩)
  stopRequested := false
  loop := .notStarted
  workers := []
  activeFds := []
  liveWorkers := 0
  stopCall := .notCalled
  table := match fd with
    | some fd => FdTable.empty.openNew fd
    | none => FdTable.empty
  others := []
  served := []
  shutdowns := []

end HttpServer

def httpServer : Machine HttpServer ServerAction where
  init s := ∃ fd, s = HttpServer.constructed fd
  step := HttpServer.step

end HipObject.Server
