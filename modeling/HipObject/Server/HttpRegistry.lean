import HipObject.Server.HttpServer

/-!
# Registered workers and open descriptors

Every descriptor of the process has one owner: the listener, the accept loop, a
worker, the duplicates of `stop()`, or the rest of the process. A step hands one
over, opens one or closes one, and `HandleMove` lists these ways. `RegistryMove`
does the same for the registry. From the two follow the books of the server in
every state that a run reaches: a registered number always names the connection
it was accepted for, no number is closed twice, and `liveWorkers_` is the number
of workers in `activeFds_`.
-/

namespace HipObject.Server

open Verification

/-- What the accept loop has open. -/
def AcceptLoop.client : AcceptLoop → List Handle
  | .accepted client => [client]
  | .registering client => [client]
  | .spawning client => [client]
  | .rollingBack client => [client]
  | .closing client _ => [client]
  | _ => []

/-- The `Worker` that the accept loop has. -/
def AcceptLoop.registered : AcceptLoop → List Handle
  | .spawning client => [client]
  | .rollingBack client => [client]
  | _ => []

def StopCall.dups : StopCall → List Handle
  | .duplicating _ dups => dups
  | .shuttingDown _ dups => dups
  | .closingDups dups => dups
  | _ => []

/-- `stop()` has joined the accept loop. -/
def StopCall.joined : StopCall → Bool
  | .awaiting => true
  | .waiting => true
  | .returned => true
  | _ => false

@[simp] theorem StopCall.dups_notified (call : StopCall) : call.notified.dups = call.dups := by
  cases call <;> rfl

namespace HttpServer

variable {s t : HttpServer} {w : Worker}

/-- Everything that is open, each with its owner. -/
def handles (s : HttpServer) : List Handle :=
  s.listenFd.toList ++ (s.loop.client ++ (s.workers.map Worker.client ++
    (s.stopCall.dups ++ s.others)))

/-- The connections of the workers that are registered. -/
def registered (s : HttpServer) : List Handle :=
  s.loop.registered ++ (s.workers.filter Worker.registered).map Worker.client

/-! ### Descriptors -/

/-- What a step does to the descriptors. -/
inductive HandleMove (s t : HttpServer) : Prop where
  | kept (table : t.table = s.table) (perm : s.handles.Perm t.handles)
  | opened (fd : Nat) (free : s.table.files fd = none) (table : t.table = s.table.openNew fd)
      (perm : (⟨fd, s.table.nextFile⟩ :: s.handles).Perm t.handles)
  | duplicated (fd client file : Nat) (free : s.table.files fd = none)
      (names : s.table.files client = some file) (table : t.table = s.table.install fd file)
      (perm : (⟨fd, file⟩ :: s.handles).Perm t.handles)
  | closed (h : Handle) (table : t.table = s.table.close h.fd)
      (perm : s.handles.Perm (h :: t.handles))

theorem accounted_move (h : HandleMove s t) (hbooks : s.table.Accounted s.handles) :
    t.table.Accounted t.handles := by
  cases h with
  | kept table perm =>
      rw [table]
      exact hbooks.perm perm
  | opened fd free table perm =>
      rw [table]
      exact (hbooks.openNew free).perm perm
  | duplicated fd client file free names table perm =>
      have hmem := (hbooks.open_iff client file).mp names
      rw [table]
      exact (hbooks.install free hmem).perm perm
  | closed h table perm =>
      rw [table]
      exact (hbooks.perm perm).close

theorem map_client_erase (hw : w ∈ s.workers) :
    (s.workers.map Worker.client).Perm (w.client :: (s.workers.erase w).map Worker.client) :=
  (List.perm_cons_erase hw).map Worker.client

/-- The accept loop goes on with what it has open. -/
theorem HandleMove.loop {next : AcceptLoop} (h : next.client = s.loop.client) :
    HandleMove s { s with loop := next } :=
  .kept rfl (.of_eq (by simp [handles, h]))

/-- So does `stop()`. -/
theorem HandleMove.stopCall {next : StopCall} (h : next.dups = s.stopCall.dups) :
    HandleMove s { s with stopCall := next } :=
  .kept rfl (.of_eq (by simp [handles, h]))

theorem loopStep_handles {ok : Bool} {fd : Nat} (h : s.loopStep ok fd = some t) :
    HandleMove s t := by
  unfold loopStep at h
  split at h
  case h_1 => cases h
  case h_2 hloop | h_3 hloop | h_4 hloop =>
    cases h
    refine .loop ?_
    rw [hloop]
    split <;> rfl
  case h_5 hloop =>
    split_ifs at h with hok hfree
    · cases h
      refine .opened fd hfree rfl ?_
      simp only [handles, hloop, AcceptLoop.client]
      exact List.perm_middle.symm
    · cases h
      exact .loop (by rw [hloop]; rfl)
  case h_6 client hloop =>
    cases h
    refine .loop ?_
    rw [hloop]
    split <;> rfl
  case h_7 client hloop =>
    split_ifs at h with hheld
    cases h
    unfold registerWorker
    split
    · exact .loop (by rw [hloop]; rfl)
    · exact .kept rfl (.of_eq (by simp [handles, hloop, AcceptLoop.client]))
  case h_8 client hloop =>
    split_ifs at h with hok
    · cases h
      refine .kept rfl ?_
      simp only [handles, hloop, AcceptLoop.client, List.map_cons]
      exact List.Perm.refl _
    · cases h
      exact .loop (by rw [hloop]; rfl)
  case h_9 client hloop =>
    split_ifs at h with hheld
    cases h
    exact .kept rfl (.of_eq (by simp [handles, hloop, AcceptLoop.client, unregister]))
  case h_10 client leaves hloop =>
    cases h
    refine .closed client rfl ?_
    have hperm : (s.listenFd.toList ++ client :: (s.workers.map Worker.client ++
      (s.stopCall.dups ++ s.others))).Perm _ := List.perm_middle
    cases leaves <;> simp [handles, hloop, AcceptLoop.client, closeFd, hperm]
  case h_11 => cases h

theorem workerStep_handles (h : s.workerStep w = some t) : HandleMove s t := by
  unfold workerStep at h
  split_ifs at h with hw hregistered hheld
  · cases h
    refine .kept rfl ?_
    simp only [handles, unregister, StopCall.dups_notified, List.map_cons]
    exact ((map_client_erase hw).append_right _).append_left _ |>.append_left _
  · cases h
    refine .closed w.client rfl ?_
    have hperm := ((map_client_erase hw).append_right (s.stopCall.dups ++ s.others)).append_left
      (s.listenFd.toList ++ s.loop.client)
    simpa [handles, closeFd] using hperm.trans List.perm_middle

theorem stopStep_handles {ok : Bool} {fd : Nat} (h : s.stopStep ok fd = some t) :
    HandleMove s t := by
  unfold stopStep at h
  split at h
  case h_1 => cases h
  case h_2 hcall =>
    split at h
    all_goals
      cases h
      exact .kept rfl (.of_eq (by simp [handles, hcall, StopCall.dups, shutdown]))
  case h_3 hcall =>
    cases h
    exact .stopCall (by rw [hcall]; rfl)
  case h_4 dups hcall =>
    cases h
    exact .stopCall (by rw [hcall]; rfl)
  case h_5 client rest dups hcall =>
    split at h
    · split at h
      · rename_i file hnames
        split_ifs at h with hfree
        cases h
        refine .duplicated fd client file hfree hnames rfl ?_
        have hperm : (s.listenFd.toList ++ s.loop.client ++
          s.workers.map Worker.client ++ dups ++ ⟨fd, file⟩ :: s.others).Perm _ := List.perm_middle
        simpa [handles, hcall, StopCall.dups] using hperm.symm
      · cases h
    · cases h
      exact .kept rfl (.of_eq (by simp [handles, hcall, StopCall.dups, shutdown]))
  case h_6 dups hcall =>
    cases h
    exact .stopCall (by rw [hcall]; rfl)
  case h_7 d rest dups hcall =>
    cases h
    exact .kept rfl (.of_eq (by simp [handles, hcall, StopCall.dups, shutdown]))
  case h_8 hcall =>
    cases h
    exact .stopCall (by rw [hcall]; rfl)
  case h_9 d rest hcall =>
    cases h
    refine .closed d rfl ?_
    have hperm : (s.listenFd.toList ++ s.loop.client ++ s.workers.map Worker.client ++
      d :: (rest ++ s.others)).Perm _ := List.perm_middle
    simpa [handles, hcall, StopCall.dups, closeFd] using hperm
  case h_10 hcall =>
    split_ifs at h with hloop
    cases h
    exact .stopCall (by rw [hcall]; rfl)
  case h_11 hcall =>
    cases h
    refine .stopCall ?_
    rw [hcall]
    split <;> rfl
  case h_12 => cases h
  case h_13 => cases h

theorem step_handles {a : ServerAction} (hidle : s.stopRequested = false → s.stopCall = .notCalled)
    (h : s.step a = some t) : HandleMove s t := by
  cases a with
  | startThreaded =>
      simp only [step, startThreaded] at h
      split_ifs at h with hstart
      cases h
      exact .loop (by rw [hstart.1]; rfl)
  | loop ok fd => exact loopStep_handles h
  | worker w => exact workerStep_handles h
  | stop =>
      simp only [step, stop] at h
      split_ifs at h with hfirst
      · cases h
        refine .kept rfl (.of_eq ?_)
        simp [handles, hidle hfirst.2, StopCall.dups]
      · cases h
        exact .kept rfl (.refl _)
  | stopStep ok fd => exact stopStep_handles h
  | wake =>
      simp only [step, wake] at h
      split_ifs at h with hwaiting
      cases h
      exact .stopCall (by rw [hwaiting]; rfl)
  | otherOpen fd =>
      simp only [step, otherOpen] at h
      split_ifs at h with hfree
      cases h
      refine .opened fd hfree rfl ?_
      have hperm : (s.listenFd.toList ++ s.loop.client ++ s.workers.map Worker.client ++
        s.stopCall.dups ++ ⟨fd, s.table.nextFile⟩ :: s.others).Perm _ := List.perm_middle
      simpa [handles] using hperm.symm
  | otherClose other =>
      simp only [step, otherClose] at h
      split_ifs at h with hmem
      cases h
      refine .closed other rfl ?_
      have hperm : (s.listenFd.toList ++ s.loop.client ++ s.workers.map Worker.client ++
        s.stopCall.dups ++ other :: s.others.erase other).Perm _ := List.perm_middle
      have herase := (List.perm_cons_erase hmem).append_left (s.listenFd.toList ++ s.loop.client ++
        s.workers.map Worker.client ++ s.stopCall.dups)
      simpa [handles, closeFd] using herase.trans hperm

/-! ### The registry -/

/-- What a step does to the registry. A worker comes in only while no stop is
requested, and comes in or goes only while `stop()` doesn't hold the mutex. -/
inductive RegistryMove (s t : HttpServer) : Prop where
  | kept (active : t.activeFds = s.activeFds) (live : t.liveWorkers = s.liveWorkers)
      (served : t.served = s.served) (perm : s.registered.Perm t.registered)
  | added (client : Handle) (unrequested : s.stopRequested = false)
      (free : s.stopCall.holdsMutex = false) (mem : client ∈ s.loop.client)
      (active : t.activeFds = insertFd s.activeFds client.fd)
      (live : t.liveWorkers = s.liveWorkers + 1) (served : t.served = client.file :: s.served)
      (perm : (client :: s.registered).Perm t.registered)
  | removed (client : Handle) (free : s.stopCall.holdsMutex = false)
      (active : t.activeFds = s.activeFds.erase client.fd)
      (live : t.liveWorkers = s.liveWorkers - 1) (served : t.served = s.served)
      (perm : s.registered.Perm (client :: t.registered))
      (notified : t.stopCall = s.stopCall.notified)

theorem RegistryMove.loop {next : AcceptLoop} (h : next.registered = s.loop.registered) :
    RegistryMove s { s with loop := next } :=
  .kept rfl rfl rfl (.of_eq (by simp [registered, h]))

theorem loopStep_registry {ok : Bool} {fd : Nat} (h : s.loopStep ok fd = some t) :
    RegistryMove s t := by
  unfold loopStep at h
  split at h
  case h_1 => cases h
  case h_2 hloop | h_3 hloop | h_4 hloop =>
    cases h
    refine .loop ?_
    rw [hloop]
    split <;> rfl
  case h_5 hloop =>
    split_ifs at h with hok hfree
    · cases h
      exact .kept rfl rfl rfl (.of_eq (by simp [registered, hloop, AcceptLoop.registered]))
    · cases h
      exact .loop (by rw [hloop]; rfl)
  case h_6 client hloop =>
    cases h
    refine .loop ?_
    rw [hloop]
    split <;> rfl
  case h_7 client hloop =>
    split_ifs at h with hheld
    cases h
    unfold registerWorker
    split
    · exact .loop (by rw [hloop]; rfl)
    · rename_i hrequested
      refine .added client (by simpa using hrequested) (by simpa using hheld)
        (by simp [hloop, AcceptLoop.client]) rfl rfl rfl (.of_eq ?_)
      simp [registered, hloop, AcceptLoop.registered]
  case h_8 client hloop =>
    split_ifs at h with hok
    · cases h
      exact .kept rfl rfl rfl (.of_eq (by simp [registered, hloop, AcceptLoop.registered]))
    · cases h
      exact .loop (by rw [hloop]; rfl)
  case h_9 client hloop =>
    split_ifs at h with hheld
    cases h
    refine .removed client (by simpa using hheld) rfl rfl rfl (.of_eq ?_) rfl
    simp [registered, hloop, AcceptLoop.registered, unregister]
  case h_10 client leaves hloop =>
    cases h
    refine .kept rfl rfl rfl (.of_eq ?_)
    cases leaves <;> simp [registered, hloop, AcceptLoop.registered, closeFd]
  case h_11 => cases h

theorem workerStep_registry (h : s.workerStep w = some t) : RegistryMove s t := by
  unfold workerStep at h
  split_ifs at h with hw hregistered hheld
  · cases h
    refine .removed w.client (by simpa using hheld) rfl rfl rfl ?_ rfl
    have hperm :=
      (((List.perm_cons_erase hw).filter Worker.registered).map Worker.client).append_left
        s.loop.registered
    simp only [List.filter_cons, hregistered, if_true, List.map_cons] at hperm
    simpa [registered, unregister] using hperm.trans List.perm_middle
  · cases h
    refine .kept rfl rfl rfl ?_
    have hperm :=
      (((List.perm_cons_erase hw).filter Worker.registered).map Worker.client).append_left
        s.loop.registered
    simpa [registered, closeFd, List.filter_cons, hregistered] using hperm

theorem stopStep_registry {ok : Bool} {fd : Nat} (h : s.stopStep ok fd = some t) :
    RegistryMove s t := by
  have hkept : t.activeFds = s.activeFds ∧ t.liveWorkers = s.liveWorkers ∧ t.served = s.served ∧
      t.loop = s.loop ∧ t.workers = s.workers := by
    unfold stopStep at h
    repeat' split at h
    all_goals cases h <;> exact ⟨rfl, rfl, rfl, rfl, rfl⟩
  obtain ⟨hactive, hlive, hserved, hloop, hworkers⟩ := hkept
  exact .kept hactive hlive hserved (.of_eq (by rw [registered, registered, hloop, hworkers]))

theorem step_registry {a : ServerAction} (h : s.step a = some t) : RegistryMove s t := by
  cases a with
  | startThreaded =>
      simp only [step, startThreaded] at h
      split_ifs at h with hstart
      cases h
      exact .loop (by rw [hstart.1]; rfl)
  | loop ok fd => exact loopStep_registry h
  | worker w => exact workerStep_registry h
  | stop =>
      simp only [step, stop] at h
      split_ifs at h with hfirst <;> cases h <;> exact .kept rfl rfl rfl (.refl _)
  | stopStep ok fd => exact stopStep_registry h
  | wake =>
      simp only [step, wake] at h
      split_ifs at h with hwaiting
      cases h
      exact .kept rfl rfl rfl (.refl _)
  | otherOpen fd =>
      simp only [step, otherOpen] at h
      split_ifs at h with hfree
      cases h
      exact .kept rfl rfl rfl (.refl _)
  | otherClose other =>
      simp only [step, otherClose] at h
      split_ifs at h with hmem
      cases h
      exact .kept rfl rfl rfl (.refl _)

/-! ### The accept loop and `stop()` -/

/-- How far the one call of `stop()` is, and what it can rely on: a stop that is
under way was requested, one past the join finds the accept loop gone, and one
that waits, or returned, has looked at the count. -/
structure StopOk (s : HttpServer) : Prop where
  idle : s.stopRequested = false → s.stopCall = .notCalled
  joined : s.stopCall.joined → s.loop = .exited
  waiting : s.stopCall = .waiting → s.liveWorkers ≠ 0
  returned : s.stopCall = .returned → s.liveWorkers = 0

/-- The accept loop leaves `stop()` alone, and it runs only until it is joined. -/
theorem StopOk.loopStep {ok : Bool} {fd : Nat} (hs : StopOk s) (h : s.loopStep ok fd = some t) :
    StopOk t := by
  have hrunning : s.stopCall.joined = false := by
    by_contra hjoined
    have hexited := hs.joined (by simpa using hjoined)
    simp [HttpServer.loopStep, hexited] at h
  have hnotified : s.stopCall.notified = s.stopCall := by
    cases hcall : s.stopCall <;> simp_all [StopCall.joined, StopCall.notified]
  have hkept : t.stopRequested = s.stopRequested ∧ t.stopCall = s.stopCall := by
    unfold HttpServer.loopStep registerWorker at h
    repeat' split at h
    all_goals cases h <;> simp [unregister, closeFd, hnotified]
  refine ⟨?_, ?_, ?_, ?_⟩
  · rw [hkept.1, hkept.2]
    exact hs.idle
  · rw [hkept.2, hrunning]
    simp
  · rw [hkept.2]
    intro hwaiting
    simp [hwaiting, StopCall.joined] at hrunning
  · rw [hkept.2]
    intro hreturned
    simp [hreturned, StopCall.joined] at hrunning

/-- A worker that leaves notifies `stop()`, so one that waits looks again. -/
theorem StopOk.workerStep (hs : StopOk s) (hlive : s.liveWorkers = s.registered.length)
    (h : s.workerStep w = some t) : StopOk t := by
  unfold HttpServer.workerStep at h
  split_ifs at h with hw hregistered hheld
  · cases h
    have hpos : s.liveWorkers ≠ 0 := by
      have hmem : w.client ∈ s.registered := by
        refine List.mem_append_right _ (List.mem_map.mpr ⟨w, ?_, rfl⟩)
        exact List.mem_filter.mpr ⟨hw, hregistered⟩
      have := List.length_pos_of_mem hmem
      omega
    have hreturned : s.stopCall ≠ .returned := fun hcall => hpos (hs.returned hcall)
    refine ⟨?_, ?_, ?_, ?_⟩
    · intro hrequested
      simp [unregister, hs.idle hrequested, StopCall.notified]
    · intro hjoined
      refine hs.joined ?_
      cases hcall : s.stopCall <;>
        simp_all [unregister, StopCall.joined, StopCall.notified]
    · intro hwaiting
      cases hcall : s.stopCall <;> simp [unregister, hcall, StopCall.notified] at hwaiting
    · intro hcalled
      cases hcall : s.stopCall <;> simp_all [unregister, StopCall.notified]
  · cases h
    exact ⟨hs.idle, hs.joined, hs.waiting, hs.returned⟩

theorem StopOk.of_not_joined (hidle : s.stopRequested = false → s.stopCall = .notCalled)
    (hjoined : s.stopCall.joined = false) : StopOk s where
  idle := hidle
  joined h := by simp [hjoined] at h
  waiting h := by simp [h, StopCall.joined] at hjoined
  returned h := by simp [h, StopCall.joined] at hjoined

theorem StopOk.stopStep {ok : Bool} {fd : Nat} (hs : StopOk s) (h : s.stopStep ok fd = some t) :
    StopOk t := by
  have hrequested : s.stopRequested ≠ false := by
    intro hrequested
    simp [HttpServer.stopStep, hs.idle hrequested] at h
  have hkept : t.stopRequested = s.stopRequested ∧ t.loop = s.loop ∧
      t.liveWorkers = s.liveWorkers := by
    unfold HttpServer.stopStep at h
    repeat' split at h
    all_goals cases h <;> exact ⟨rfl, rfl, rfl⟩
  have hidle : t.stopRequested = false → t.stopCall = .notCalled := by
    rw [hkept.1]
    exact fun hfalse => absurd hfalse hrequested
  -- Only the join and the look at the count lead past the join.
  have hnext : t.stopCall.joined = false ∨ (s.loop = .exited ∧ t.stopCall = .awaiting) ∨
      (s.stopCall = .awaiting ∧
        t.stopCall = if s.liveWorkers = 0 then .returned else .waiting) := by
    unfold HttpServer.stopStep at h
    split at h
    case h_10 =>
      split_ifs at h with hexited
      cases h
      exact .inr (.inl ⟨hexited, rfl⟩)
    case h_11 hcall =>
      cases h
      exact .inr (.inr ⟨hcall, rfl⟩)
    all_goals
      refine .inl ?_
      repeat' split at h
      all_goals cases h <;> rfl
  rcases hnext with hearly | ⟨hexited, hcall⟩ | ⟨hawaiting, hcall⟩
  · exact .of_not_joined hidle hearly
  · exact ⟨hidle, fun _ => hkept.2.1.trans hexited, by simp [hcall], by simp [hcall]⟩
  · have hexited := hs.joined (by rw [hawaiting]; rfl)
    refine ⟨hidle, fun _ => hkept.2.1.trans hexited, ?_, ?_⟩
    · rw [hcall, hkept.2.2]
      split_ifs with hzero
      · simp
      · exact fun _ => hzero
    · rw [hcall, hkept.2.2]
      split_ifs with hzero
      · exact fun _ => hzero
      · simp

theorem StopOk.step {a : ServerAction} (hs : StopOk s)
    (hlive : s.liveWorkers = s.registered.length) (h : s.step a = some t) : StopOk t := by
  cases a with
  | startThreaded =>
      simp only [HttpServer.step, startThreaded] at h
      split_ifs at h with hstart
      cases h
      have hjoined : s.stopCall.joined = false := by
        by_contra hjoined
        have hexited := hs.joined (by simpa using hjoined)
        rw [hstart.1] at hexited
        cases hexited
      exact .of_not_joined hs.idle hjoined
  | loop ok fd => exact hs.loopStep h
  | worker w => exact hs.workerStep hlive h
  | stop =>
      simp only [HttpServer.step, stop] at h
      split_ifs at h with hfirst
      · cases h
        exact .of_not_joined (by simp) rfl
      · cases h
        exact hs
  | stopStep ok fd => exact hs.stopStep h
  | wake =>
      simp only [HttpServer.step, wake] at h
      split_ifs at h with hwaiting
      cases h
      refine ⟨?_, fun _ => hs.joined (by rw [hwaiting]; rfl), by simp, by simp⟩
      intro hrequested
      rw [hs.idle hrequested] at hwaiting
      cases hwaiting
  | otherOpen fd =>
      simp only [HttpServer.step, otherOpen] at h
      split_ifs at h with hfree
      cases h
      exact ⟨hs.idle, hs.joined, hs.waiting, hs.returned⟩
  | otherClose other =>
      simp only [HttpServer.step, otherClose] at h
      split_ifs at h with hmem
      cases h
      exact ⟨hs.idle, hs.joined, hs.waiting, hs.returned⟩

/-! ### Every reachable state -/

/-- The books of a server: its descriptors, its registry and its stop. -/
structure Sound (s : HttpServer) : Prop where
  accounted : s.table.Accounted s.handles
  active : s.activeFds.Perm (s.registered.map Handle.fd)
  live : s.liveWorkers = s.registered.length
  stop : StopOk s

theorem registered_sublist (s : HttpServer) : s.registered.Sublist s.handles := by
  have hloop : s.loop.registered.Sublist s.loop.client := by
    cases s.loop <;> simp [AcceptLoop.registered, AcceptLoop.client]
  have hworkers : ((s.workers.filter Worker.registered).map Worker.client).Sublist
      (s.workers.map Worker.client ++ (s.stopCall.dups ++ s.others)) :=
    (List.filter_sublist.map _).trans (List.sublist_append_left _ _)
  exact (hloop.append hworkers).trans (List.sublist_append_right _ _)

theorem nodup_registered (haccounted : s.table.Accounted s.handles) :
    (s.registered.map Handle.fd).Nodup :=
  haccounted.nodup.sublist ((registered_sublist s).map _)

theorem insertFd_perm {fds : List Nat} {fd : Nat} (h : fd ∉ fds) :
    (insertFd fds fd).Perm (fd :: fds) := by
  rw [insertFd, if_neg h]
  exact List.perm_orderedInsert _ _ _

theorem Sound.constructed (fd : Option Nat) : Sound (constructed fd) where
  accounted := by
    cases fd with
    | none => exact FdTable.accounted_empty
    | some fd => exact FdTable.accounted_empty.openNew rfl
  active := .refl _
  live := rfl
  stop := .of_not_joined (fun _ => rfl) rfl

theorem Sound.step {a : ServerAction} (hs : Sound s) (h : s.step a = some t) : Sound t := by
  have haccounted := accounted_move (step_handles hs.stop.idle h) hs.accounted
  have hstop := hs.stop.step hs.live h
  cases step_registry h with
  | kept active live served perm =>
      refine ⟨haccounted, ?_, ?_, hstop⟩
      · rw [active]
        exact hs.active.trans (perm.map _)
      · rw [live, hs.live, perm.length_eq]
  | added client unrequested free mem active live served perm =>
      have hnodup := (perm.map Handle.fd).nodup_iff.mpr (nodup_registered haccounted)
      have hfresh : client.fd ∉ s.activeFds := by
        rw [hs.active.mem_iff]
        exact (List.nodup_cons.mp hnodup).1
      refine ⟨haccounted, ?_, ?_, hstop⟩
      · rw [active]
        exact ((insertFd_perm hfresh).trans (hs.active.cons _)).trans (perm.map _)
      · rw [live, hs.live, ← perm.length_eq]
        simp
  | removed client free active live served perm notified =>
      refine ⟨haccounted, ?_, ?_, hstop⟩
      · rw [active]
        have hperm := (hs.active.trans (perm.map Handle.fd)).erase client.fd
        simpa using hperm
      · rw [live, hs.live, perm.length_eq]
        simp

theorem sound_of_reachable (h : httpServer.Reachable s) : Sound s := by
  refine Machine.Reachable.invariant ?_ ?_ h
  · rintro s ⟨fd, rfl⟩
    exact .constructed fd
  · intro s a t _ hs hstep
    exact hs.step hstep

end HttpServer
end HipObject.Server
