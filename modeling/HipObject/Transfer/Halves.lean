import HipObject.Buffer.Staging
import HipObject.Transfer.Sights

/-!
# The two halves of a transfer, in both models

Staging and `runRdmaTransfer`, as parts of the program that take the machine
along. Before an event reports that a copy is over, the runtime finishes that
copy. What the connection does between the reply and the end of the transfer is
one step of the call, which shows nothing.
-/

namespace HipObject.Transfers

open HipObject Codec Verification

section Parts

variable {setup : Setup} {id : Nat} {op : Op} {found : Option BufEntry} {sights : List Sight}
variable {c c' : Call} {s u : InstanceState} {reply : Reply} {tr : Trace} {buf : Nat} {next : Pc}
variable {O : Outside} {result : OpError}

/-! ### Staging -/

/-- Where a call goes on after staging. -/
def afterStaging (op : Op) (buf : Nat) : Pc :=
  if op.isPut then .acquire buf
  else .unwind { Locals.empty with buf := some buf } .Success

/-- Where a call goes on after its transfer. -/
def afterTransfer (op : Op) (buf : Nat) : Pc :=
  if op.isGet then .stage buf else .unwind { Locals.empty with buf := some buf } .Success

theorem afterStage_eq (s : InstanceState) (c : Call) (buf : Nat) :
    s.afterStage c buf = (c.goto (afterStaging c.op buf), s) := by
  cases hop : c.op <;> simp only [InstanceState.afterStage, hop] <;> rfl

/-- The copy is over: the event and the room are given back. -/
theorem staged_takes {event : Nat} {P : Trace → InstanceState → Prop}
    (h : Shows setup id op found (shown tr) c s) (hpc : c.pc = .staged buf (some event)) :
    TakesAlong (instanceMachine setup) (OwnStep id) (pure .Success : TransferM OpError) tr s
      (Goes setup id op found (afterStaging op buf)) P := by
  have hdestroy : s.callStep setup c .ok =
      some (c.goto (.staged buf none), s.destroyEvent event) := by
    simp only [InstanceState.callStep, hpc, InstanceState.stagedStep]
  obtain ⟨hleads, hshows⟩ := h.step hdestroy (by simp [hpc]) h.sights
  refine .leads hleads ?_
  set t := afterStep s c (c.goto (.staged buf none)) (s.destroyEvent event)
  have hreturn : t.callStep setup (c.goto (.staged buf none)) .ok =
      some (c.goto (afterStaging op buf), { t with reserved := t.reserved - 1 }) := by
    rw [← h.op]
    exact congrArg some (afterStage_eq { t with reserved := t.reserved - 1 } (c.goto _) buf)
  exact hshows.succeeds hreturn (by simp [Call.goto]) h.sights rfl

section Waiting

variable {event : Nat} {copy : StagingCopy}

theorem shown_eventQuery (tr : Trace) (status : EventStatus) :
    shown (tr ++ [.eventQuery status]) = shown tr := by
  rw [shown_concat]
  exact List.append_nil _

theorem eventQuery_throws (h : Shows setup id op found (shown tr) c s)
    (hpc : c.pc = .eventQuery buf event copy) :
    ∃ t, (instanceMachine setup).Leads (OwnStep id) s t ∧ Throws setup id op found tr t := by
  have hstep : s.callStep setup c .threw = some (s.retStage c buf event) := by
    simp only [InstanceState.callStep, hpc, InstanceState.eventQueryStep]
  exact h.throws hstep (by simp [hpc]) (h.sights.trans (List.append_nil _).symm) ⟨_, rfl⟩

/-- The runtime is done with a copy before its event says so. -/
theorem eventQuery_success (h : Shows setup id op found (shown tr) c s)
    (hpc : c.pc = .eventQuery buf event copy) (hstarted : copy ∈ s.started) :
    TakesAlong (instanceMachine setup) (OwnStep id) (pure .Success : TransferM OpError)
      (tr ++ [.eventQuery .success]) s (Goes setup id op found (afterStaging op buf))
      (Throws setup id op found) := by
  obtain ⟨finished, hmem, hleads, hdone⟩ := h.finish hstarted
  set t : InstanceState := { s with finished := finished } with ht
  have hstep : t.callStep setup c (.status .success false) =
      some (c.goto (.staged buf (some event)),
        { t with queried := (event, .success) :: t.queried }) := by
    simp only [InstanceState.callStep, hpc, InstanceState.eventQueryStep, if_pos hmem, ht]
  obtain ⟨hnext, hshows⟩ := hdone.step hstep (by simp [hpc])
    (h.sights.trans (shown_eventQuery tr .success).symm)
  exact .leads (hleads.trans hnext) (staged_takes hshows rfl)

theorem eventQuery_error (h : Shows setup id op found (shown tr) c s)
    (hpc : c.pc = .eventQuery buf event copy) (hstarted : copy ∈ s.started) :
    TakesAlong (instanceMachine setup) (OwnStep id) (pure .InternalError : TransferM OpError)
      (tr ++ [.eventQuery .error]) s (Goes setup id op found (afterStaging op buf))
      (Throws setup id op found) := by
  obtain ⟨finished, hmem, hleads, hdone⟩ := h.finish hstarted
  set t : InstanceState := { s with finished := finished } with ht
  have hstep : t.callStep setup c (.status .error false) =
      some ({ t with queried := (event, .error) :: t.queried }.retStage c buf event) := by
    simp only [InstanceState.callStep, hpc, InstanceState.eventQueryStep, if_pos hmem, ht]
  exact .leads hleads (hdone.fails hstep (by simp [hpc])
    (h.sights.trans (shown_eventQuery tr .error).symm) (by decide) ⟨_, rfl⟩)

theorem add_takes (h : Shows setup id op found (shown tr) c s) (hpc : c.pc = .add buf event copy) :
    TakesAlong (instanceMachine setup) (OwnStep id) (pure .InternalError : TransferM OpError) tr s
      (Goes setup id op found (afterStaging op buf)) (Throws setup id op found) := by
  have hstep : s.callStep setup c .ok =
      some ((s.addCopy ⟨buf, event, copy⟩).retBuf c buf .InternalError) := by
    simp only [InstanceState.callStep, hpc, InstanceState.addStep]
  exact h.fails hstep (by simp [hpc]) h.sights (by decide) ⟨_, rfl⟩

/-- The deadline has passed: the copy is abandoned. -/
theorem eventQuery_expired (h : Shows setup id op found (shown tr) c s)
    (hpc : c.pc = .eventQuery buf event copy) :
    TakesAlong (instanceMachine setup) (OwnStep id) (pure .InternalError : TransferM OpError)
      (tr ++ [.eventQuery .notReady]) s (Goes setup id op found (afterStaging op buf))
      (Throws setup id op found) := by
  have hstep : s.callStep setup c (.status .notReady true) = some (c.goto (.add buf event copy),
      { s with queried := (event, .notReady) :: s.queried }) := by
    simp only [InstanceState.callStep, hpc, InstanceState.eventQueryStep, if_true]
  obtain ⟨hleads, hshows⟩ := h.step hstep (by simp [hpc])
    (h.sights.trans (shown_eventQuery tr .notReady).symm)
  exact .leads hleads (add_takes hshows rfl)

/-- Waiting for the copy, whose event is asked from time to time. -/
theorem waitForCopy_takes (rounds : Nat) (h : Shows setup id op found (shown tr) c s)
    (hpc : c.pc = .eventQuery buf event copy) (hstarted : copy ∈ s.started) :
    TakesAlong (instanceMachine setup) (OwnStep id) (waitForCopy O rounds) tr s
      (Goes setup id op found (afterStaging op buf)) (Throws setup id op found) := by
  induction rounds generalizing s c tr with
  | zero =>
      refine observe_bind (eventQuery_throws h hpc) fun status => ?_
      cases status with
      | success => exact eventQuery_success h hpc hstarted
      | notReady => exact eventQuery_expired h hpc
      | error => exact eventQuery_error h hpc hstarted
  | succ rounds ih =>
      refine observe_bind (eventQuery_throws h hpc) fun status => ?_
      cases status with
      | success => exact eventQuery_success h hpc hstarted
      | error => exact eventQuery_error h hpc hstarted
      | notReady =>
          have hstep : s.callStep setup c (.status .notReady false) =
              some (c.goto (.eventQuery buf event copy),
                { s with queried := (event, .notReady) :: s.queried }) := by
            simp only [InstanceState.callStep, hpc, InstanceState.eventQueryStep,
              Bool.false_eq_true, if_false]
          obtain ⟨hleads, hshows⟩ := h.step hstep (by simp [hpc])
            (h.sights.trans (shown_eventQuery tr .notReady).symm)
          exact .leads hleads (ih hshows rfl hstarted)

end Waiting

section Copying

variable {e : BufEntry} {hostBuf : HostBuf} {copy : Memcpy} {toDevice : Bool} {event : Nat}

/-- A call of HIP while staging: if it fails or throws, that is the end of it. -/
theorem asked_takes {answer : Trace → Option Bool} {event : Bool → TransferEvent}
    {x : TransferM OpError} {left : Call × InstanceState}
    (h : Shows setup id op found (shown tr) c s) (hfind : c.pc ≠ .find)
    (hleft : ∀ reply, reply = .fail ∨ reply = .threw → s.callStep setup c reply = some left)
    (hsights : shownBy left.1 = shownBy c) (hunwinds : Unwinds left.1 .InternalError)
    (hsilent : (event false).sight = none)
    (hok : TakesAlong (instanceMachine setup) (OwnStep id) x (tr ++ [event true]) s
      (Goes setup id op found next) (Throws setup id op found)) :
    TakesAlong (instanceMachine setup) (OwnStep id) (do
      if !(← observe answer event) then return .InternalError else x) tr s
      (Goes setup id op found next) (Throws setup id op found) := by
  have hshown : shownBy left.1 = shown tr := hsights.trans h.sights
  refine observe_bind (h.throws (hleft _ (.inr rfl)) hfind
    (hshown.trans (List.append_nil _).symm) hunwinds) fun accepted => ?_
  cases accepted with
  | false =>
      exact h.fails (hleft _ (.inl rfl)) hfind (by simp [hsilent, hshown]) (by decide) hunwinds
  | true => exact hok

/-- The copy is on its way, and the event is to track it. -/
theorem eventRecord_takes {running : StagingCopy} (h : Shows setup id op found (shown tr) c s)
    (hpc : c.pc = .eventRecord buf event running) (hstarted : running ∈ s.started) :
    TakesAlong (instanceMachine setup) (OwnStep id) (do
      if !(← observe O.eventRecord .eventRecord) then return .InternalError
      else waitForCopy O (O.stageRounds (← get))) tr s
      (Goes setup id op found (afterStaging op buf)) (Throws setup id op found) := by
  have hfind : c.pc ≠ .find := by simp [hpc]
  have hleft : ∀ reply, reply = .fail ∨ reply = .threw →
      s.callStep setup c reply = some (s.retStage c buf event) := by
    rintro reply (rfl | rfl) <;>
      simp only [InstanceState.callStep, hpc, InstanceState.eventRecordStep]
  have hrecorded : s.callStep setup c .ok = some (c.goto (.eventQuery buf event running), s) := by
    simp only [InstanceState.callStep, hpc, InstanceState.eventRecordStep]
  refine asked_takes h hfind hleft rfl ⟨_, rfl⟩ rfl ?_
  obtain ⟨hleads, hshows⟩ := h.step hrecorded hfind
    (show _ = shown (tr ++ [.eventRecord true]) by simp [TransferEvent.sight, h.sights])
  exact .leads hleads (.get_bind (waitForCopy_takes _ hshows rfl hstarted))

/-- Once it has its event, the call starts the copy. -/
theorem startCopy_takes (h : Shows setup id op (some e) (shown tr) c s)
    (hpc : c.pc = .memcpyAsync buf event) (hstaged : e.hostBuf = some hostBuf)
    (hcopy : op.memcpy hostBuf = some copy) :
    TakesAlong (instanceMachine setup) (OwnStep id) (do
      if !(← observe O.memcpyAsync (.memcpyAsync toDevice copy)) then return .InternalError
      else if !(← observe O.eventRecord .eventRecord) then return .InternalError
      else waitForCopy O (O.stageRounds (← get))) tr s
      (Goes setup id op (some e) (afterStaging op buf)) (Throws setup id op (some e)) := by
  have hfind : c.pc ≠ .find := by simp [hpc]
  have hleft : ∀ reply, reply = .fail ∨ reply = .threw →
      s.callStep setup c reply = some (s.retStage c buf event) := by
    rintro reply (rfl | rfl) <;>
      simp only [InstanceState.callStep, hpc, InstanceState.memcpyAsyncStep]
  have hentry : s.entryAt buf = some e := h.entryAt (by rw [hpc]; rfl)
  refine asked_takes h hfind hleft rfl ⟨_, rfl⟩ rfl ?_
  set running : StagingCopy := ⟨s.next, buf, hostBuf⟩ with hrunning
  have hstarted : s.callStep setup c .ok =
      some ((c.goto (.eventRecord buf event running)).note (.startedCopy running),
        { s with started := running :: s.started, next := s.next + 1 }) := by
    simp only [InstanceState.callStep, hpc, InstanceState.memcpyAsyncStep, hentry,
      Option.bind_some, hstaged, Option.map_some, hrunning]
  have hsight : sightOf op (.startedCopy running) = some (.copied copy) := by
    simp only [sightOf, hrunning, hcopy, Option.map_some]
  obtain ⟨hleads, hshows⟩ := h.step hstarted hfind
    (show _ = shown (tr ++ [.memcpyAsync toDevice copy true]) by
      rw [shownBy_note, shownBy_goto, h.sights, shown_concat]
      exact congrArg _ (congrArg _ ((congrArg (sightOf · _) h.op).trans hsight)))
  exact .leads hleads (eventRecord_takes hshows rfl List.mem_cons_self)

/-- With the room set aside, the call makes its event. -/
theorem eventCreate_takes (h : Shows setup id op (some e) (shown tr) c s)
    (hpc : c.pc = .eventCreate buf) (hstaged : e.hostBuf = some hostBuf)
    (hcopy : op.memcpy hostBuf = some copy) :
    TakesAlong (instanceMachine setup) (OwnStep id) (do
      if !(← observe O.eventCreate .eventCreate) then return .InternalError
      else if !(← observe O.memcpyAsync (.memcpyAsync toDevice copy)) then return .InternalError
      else if !(← observe O.eventRecord .eventRecord) then return .InternalError
      else waitForCopy O (O.stageRounds (← get))) tr s
      (Goes setup id op (some e) (afterStaging op buf)) (Throws setup id op (some e)) := by
  have hfind : c.pc ≠ .find := by simp [hpc]
  have hleft : ∀ reply, reply = .fail ∨ reply = .threw → s.callStep setup c reply = some
      (c.ret { Locals.empty with buf := some buf, slot := true } .InternalError, s) := by
    rintro reply (rfl | rfl) <;>
      simp only [InstanceState.callStep, hpc, InstanceState.eventCreateStep]
  have hcreated : s.callStep setup c .ok = some (c.goto (.memcpyAsync buf s.next),
      { s with created := s.next :: s.created, next := s.next + 1 }) := by
    simp only [InstanceState.callStep, hpc, InstanceState.eventCreateStep]
  refine asked_takes h hfind hleft rfl ⟨_, rfl⟩ rfl ?_
  obtain ⟨hleads, hshows⟩ := h.step hcreated hfind
    (show _ = shown (tr ++ [.eventCreate true]) by simp [TransferEvent.sight, h.sights])
  exact .leads hleads (startCopy_takes hshows rfl hstaged hcopy)

theorem stageCopyWithDeadline_takes (h : Shows setup id op (some e) (shown tr) c s)
    (hpc : c.pc = .stage buf) (hstaged : e.hostBuf = some hostBuf)
    (hcopy : op.memcpy hostBuf = some copy)
    (hrange : rangeInRegistration op.offset op.size e.size = true) :
    TakesAlong (instanceMachine setup) (OwnStep id) (stageCopyWithDeadline O toDevice copy) tr s
      (Goes setup id op (some e) (afterStaging op buf)) (Throws setup id op (some e)) := by
  have hfind : c.pc ≠ .find := by simp [hpc]
  have hentry : s.entryAt buf = some e := h.entryAt (by rw [hpc]; rfl)
  have hrange : rangeInRegistration c.op.offset c.op.size e.size = true := by rwa [h.op]
  refine .get_bind ?_
  cases O.reserve tr with
  | none =>
      have hstep : s.callStep setup c .fail = some (s.retBuf c buf .InternalError) := by
        simp [InstanceState.callStep, hpc, InstanceState.stageStep, hentry, hstaged, hrange]
      obtain ⟨t, hleads, ht⟩ := h.throws hstep hfind
        (h.sights.trans (List.append_nil _).symm) ⟨_, rfl⟩
      exact .leads hleads (.throw ht)
  | some room =>
      have hstep : s.callStep setup c .ok = some (c.goto (.eventCreate buf), s.reserve) := by
        simp [InstanceState.callStep, hpc, InstanceState.stageStep, hentry, hstaged, hrange]
      obtain ⟨hleads, hroom⟩ := h.step hstep hfind h.sights
      exact .leads hleads (eventCreate_takes hroom rfl hstaged hcopy)

/-- An entry that the NIC reaches directly isn't staged. -/
theorem stage_direct {P : Trace → InstanceState → Prop}
    (h : Shows setup id op (some e) (shown tr) c s) (hpc : c.pc = .stage buf)
    (hdirect : e.hostBuf = none) :
    TakesAlong (instanceMachine setup) (OwnStep id) (pure .Success : TransferM OpError) tr s
      (Goes setup id op (some e) (afterStaging op buf)) P := by
  have hentry : s.entryAt buf = some e := h.entryAt (by rw [hpc]; rfl)
  have hstep : s.callStep setup c .ok = some (c.goto (afterStaging op buf), s) := by
    simp [InstanceState.callStep, hpc, InstanceState.stageStep, hentry, hdirect, afterStage_eq,
      h.op]
  exact h.succeeds hstep (by simp [hpc]) h.sights rfl

theorem stage_outside {P : Trace → InstanceState → Prop}
    (h : Shows setup id op (some e) (shown tr) c s) (hpc : c.pc = .stage buf)
    (hstaged : e.hostBuf = some hostBuf)
    (hrange : rangeInRegistration op.offset op.size e.size = false) :
    TakesAlong (instanceMachine setup) (OwnStep id) (pure .InvalidValue : TransferM OpError) tr s
      (Goes setup id op (some e) next) P := by
  have hentry : s.entryAt buf = some e := h.entryAt (by rw [hpc]; rfl)
  have hstep : s.callStep setup c .ok = some (s.retBuf c buf .InvalidValue) := by
    simp [InstanceState.callStep, hpc, InstanceState.stageStep, hentry, hstaged, h.op, hrange]
  exact h.fails hstep (by simp [hpc]) h.sights (by decide) ⟨_, rfl⟩

end Copying

theorem stageToDevice_takes {e : BufEntry} {devPtr size offset : BitVec 64} {ops : Bool}
    (h : Shows setup id (.get devPtr size offset ops) (some e) (shown tr) c s)
    (hpc : c.pc = .stage buf) :
    TakesAlong (instanceMachine setup) (OwnStep id) (stageToDevice O e devPtr size offset) tr s
      (Goes setup id (.get devPtr size offset ops) (some e)
        (afterStaging (.get devPtr size offset ops) buf))
      (Throws setup id (.get devPtr size offset ops) (some e)) := by
  unfold stageToDevice
  cases hhostBuf : e.hostBuf with
  | none => exact stage_direct h hpc hhostBuf
  | some hostBuf =>
      refine .ite (fun hout => ?_) fun hin => ?_
      · exact stage_outside h hpc hhostBuf (by simpa [Op.offset, Op.size] using hout)
      · exact stageCopyWithDeadline_takes h hpc hhostBuf rfl
          (by simpa [Op.offset, Op.size] using hin)

theorem stageToHost_takes (tr : Trace) {e : BufEntry} {devPtr size offset : BitVec 64} {ops : Bool}
    (h : Shows setup id (.put devPtr size offset ops) (some e) (shown tr) c s)
    (hpc : c.pc = .stage buf) :
    TakesAlong (instanceMachine setup) (OwnStep id) (stageToHost O e devPtr size offset) tr s
      (Goes setup id (.put devPtr size offset ops) (some e)
        (afterStaging (.put devPtr size offset ops) buf))
      (Throws setup id (.put devPtr size offset ops) (some e)) := by
  unfold stageToHost
  cases hhostBuf : e.hostBuf with
  | none => exact stage_direct h hpc hhostBuf
  | some hostBuf =>
      refine .ite (fun hout => ?_) fun hin => ?_
      · exact stage_outside h hpc hhostBuf (by simpa [Op.offset, Op.size] using hout)
      · exact stageCopyWithDeadline_takes h hpc hhostBuf rfl
          (by simpa [Op.offset, Op.size] using hin)

/-! ### The transfer -/

/-- Nothing is shown by what a program does. -/
def Hidden {α : Type} (x : TransferM α) : Prop := Along (fun t u => shown u = shown t) x

theorem hidden_chains : Chains fun t u : Trace => shown u = shown t :=
  ⟨fun _ => rfl, fun h h' => h'.trans h⟩

theorem shown_outcomes (calls : List VerbsCall) (answers : List Answer) :
    shown (outcomes calls answers) = [] := by
  induction calls, answers using outcomes.induct with
  | case1 answers => simp [outcomes, shown]
  | case2 c calls ih => simpa [outcomes, shown, TransferEvent.sight] using ih
  | case3 c calls value answers ih => simpa [outcomes, shown, TransferEvent.sight] using ih
  | case4 c calls answer answers hfailed ih =>
      cases answer with
      | success value => exact (hfailed value rfl).elim
      | failure | throws => simpa [outcomes, shown, TransferEvent.sight] using ih

theorem onConnection_hidden {α : Type} (conn : RcConnection) (x : VerbsM RcConnection α) :
    Hidden (onConnection O conn x) := by
  intro tr
  unfold Ensures onConnection
  cases x ⟨O.verbs tr, [], conn⟩ <;> simp [shown_append, shown_outcomes]

theorem observe_hidden {α : Type} {answer : Trace → Option α} {event : α → TransferEvent}
    (h : ∀ a, (event a).sight = none) : Hidden (observe answer event) := by
  intro tr
  unfold Ensures observe
  cases answer tr with
  | none => rfl
  | some a => simp [h a]

theorem poll_hidden (conn : RcConnection) : Hidden (poll O conn) := by
  intro tr
  unfold Ensures poll
  dsimp only
  cases pollCq _ with
  | ok result env => simp [TransferEvent.sight]
  | error e env => rfl

theorem pollRounds_hidden (rounds : Nat) (conn : RcConnection) :
    Hidden (pollRounds O rounds conn) := by
  induction rounds generalizing conn with
  | zero => exact Along.pure hidden_chains _
  | succ rounds ih =>
      refine Along.bind hidden_chains (poll_hidden conn) fun polled => ?_
      obtain ⟨result, conn⟩ := polled
      dsimp only
      cases roundResult none result with
      | some done => exact Along.pure hidden_chains _
      | none => exact ih conn

theorem finishTransferAfterReply_hidden (device : RdmaDevice) (conn : RcConnection)
    (reply : List Byte) (requiresDeviceSync : Bool) :
    Hidden (finishTransferAfterReply O device conn reply requiresDeviceSync) := by
  have hconnect : Hidden (connectPeer O device conn reply) := by
    unfold connectPeer
    cases parsePeerTokenFromReply reply with
    | none => exact Along.pure hidden_chains _
    | some peerToken => exact onConnection_hidden conn _
  refine Along.bind hidden_chains hconnect fun connected => ?_
  refine Along.ite (Along.pure hidden_chains _) ?_
  refine Along.bind hidden_chains (Along.get hidden_chains) fun trace => ?_
  refine Along.bind hidden_chains (pollRounds_hidden _ _) fun polled => ?_
  refine Along.ite (Along.pure hidden_chains _) (Along.ite (Along.pure hidden_chains _) ?_)
  exact observe_hidden fun _ => rfl

section Transfer

variable {e : BufEntry} {conn : RcConnection}

theorem finishTransferStep_ok (s : InstanceState) (c : Call) (buf : Nat) :
    s.finishTransferStep c buf .ok = some (c.goto (afterTransfer c.op buf), s) := by
  cases hop : c.op <;> simp only [InstanceState.finishTransferStep, hop] <;> rfl

/-- After the reply: the call connects, waits for a completion and synchronizes. -/
theorem finishTransfer_takes (text : List Byte) (h : Shows setup id op found (shown tr) c s)
    (hpc : c.pc = .finishTransfer buf) (requiresDeviceSync : Bool) :
    TakesAlong (instanceMachine setup) (OwnStep id) (do
      if !(← finishTransferAfterReply O setup.device conn text requiresDeviceSync) then
        return .RdmaError
      else return .Success) tr s
      (Goes setup id op found (afterTransfer op buf)) (Throws setup id op found) := by
  have hfind : c.pc ≠ .find := by simp [hpc]
  have hfinished : s.callStep setup c .ok = some (c.goto (afterTransfer op buf), s) := by
    rw [← h.op, ← finishTransferStep_ok]
    simp only [InstanceState.callStep, hpc]
  have hfailed : s.callStep setup c .fail = some (s.retBuf c buf .RdmaError) := by
    simp only [InstanceState.callStep, hpc, InstanceState.finishTransferStep]
  have hthrew : s.callStep setup c .threw = some (s.retBuf c buf .InternalError) := by
    simp only [InstanceState.callStep, hpc, InstanceState.finishTransferStep]
  refine .bind (.of_ensures
    (finishTransferAfterReply_hidden _ conn text requiresDeviceSync tr) ?_ ?_)
  · intro finished t ht
    refine ⟨s, .refl, ?_⟩
    cases finished with
    | false => exact h.fails hfailed hfind (h.sights.trans ht.symm) (by decide) ⟨_, rfl⟩
    | true => exact h.succeeds hfinished hfind (h.sights.trans ht.symm) rfl
  · intro t ht
    exact h.throws hthrew hfind ((h.sights.trans ht.symm).trans (List.append_nil _).symm) ⟨_, rfl⟩

theorem receiveRdmaReplyRaw_shows :
    Ensures (receiveRdmaReplyRaw O) tr (fun _ t => shown t = shown tr ++ [.received])
      (fun t => t = tr) := by
  have hreply : ∀ event : TransferEvent, event.sight = some .received →
      shown (tr ++ [event]) = shown tr ++ [.received] := by
    intro event hevent
    rw [shown_concat, hevent]
    rfl
  unfold receiveRdmaReplyRaw
  refine Ensures.bind ?_
  unfold Ensures observe
  cases O.recvReply tr with
  | none => rfl
  | some answer =>
      refine Ensures.ite (fun _ => hreply _ rfl) fun _ => ?_
      refine Ensures.ite (fun _ => hreply _ rfl) fun _ => ?_
      dsimp only
      cases decodeRdmaReply _ with
      | none => exact hreply _ rfl
      | some status => exact hreply _ rfl

/-- A reply is read, and one that tells of no success ends the transfer. -/
theorem receiveReply_takes {f : Option (List Byte × RdmaReplyStatus) → TransferM OpError}
    (h : Shows setup id op found (shown tr) c s) (hpc : c.pc = .recvReply buf)
    (hfailed : ∀ reply, (∀ text, reply ≠ some (text, .Success)) → f reply = pure .S3Error)
    (hreceived : ∀ text tr' c' s', Shows setup id op found (shown tr') c' s' →
      c'.pc = .finishTransfer buf →
        TakesAlong (instanceMachine setup) (OwnStep id) (f (some (text, .Success))) tr' s'
          (Goes setup id op found next) (Throws setup id op found)) :
    TakesAlong (instanceMachine setup) (OwnStep id) (receiveRdmaReplyRaw O >>= f) tr s
      (Goes setup id op found next) (Throws setup id op found) := by
  have hfind : c.pc ≠ .find := by simp [hpc]
  have hnoted : shownBy (c.note .receivedReply) = shown tr ++ [.received] := by
    rw [shownBy_note, h.sights]
    rfl
  have hrefused : s.callStep setup c .fail =
      some (s.retBuf (c.note .receivedReply) buf .S3Error) := by
    simp only [InstanceState.callStep, hpc, InstanceState.recvReplyStep]
  have hok : s.callStep setup c .ok =
      some ((c.goto (.finishTransfer buf)).note .receivedReply, s) := by
    simp only [InstanceState.callStep, hpc, InstanceState.recvReplyStep]
  have hthrew : s.callStep setup c .threw =
      some (s.retBuf (c.note .receivedReply) buf .InternalError) := by
    simp only [InstanceState.callStep, hpc, InstanceState.recvReplyStep]
  refine .bind (.of_ensures receiveRdmaReplyRaw_shows ?_ ?_)
  · intro reply t ht
    refine ⟨s, .refl, ?_⟩
    by_cases hsuccess : ∃ text, reply = some (text, .Success)
    · obtain ⟨text, rfl⟩ := hsuccess
      obtain ⟨hleads, hshows⟩ := h.step hok hfind (hnoted.trans ht.symm)
      exact .leads hleads (hreceived text t _ _ hshows rfl)
    · rw [hfailed reply (not_exists.mp hsuccess)]
      exact h.fails hrefused hfind (hnoted.trans ht.symm) (by decide) ⟨_, rfl⟩
  · rintro t rfl
    exact h.throws hthrew hfind hnoted ⟨_, rfl⟩

theorem injectRdmaToken_shows (text : List Byte) :
    Ensures (injectRdmaToken O text) tr (fun _ t => shown t = shown tr ++ [.sent text])
      (fun t => t = tr) := by
  unfold injectRdmaToken
  refine Ensures.bind ?_
  unfold Ensures observe
  dsimp only
  cases O.sendRequest tr text with
  | none => rfl
  | some ret => exact shown_concat tr _

/-- The token is handed to the application. -/
theorem sendRequest_takes {token : RdmaToken} {y : TransferM OpError}
    (h : Shows setup id op found (shown tr ++ [.sent (encodeRdmaToken token)]) c s)
    (hpc : c.pc = .sendRequest buf)
    (hsent : ∀ tr' c' s', Shows setup id op found (shown tr') c' s' → c'.pc = .recvReply buf →
      TakesAlong (instanceMachine setup) (OwnStep id) y tr' s' (Goes setup id op found next)
        (Throws setup id op found)) :
    TakesAlong (instanceMachine setup) (OwnStep id) (do
      if !(← injectRdmaToken O (encodeRdmaToken token)) then return .S3Error else y) tr s
      (Goes setup id op found next) (Throws setup id op found) := by
  have hfind : c.pc ≠ .find := by simp [hpc]
  have hnoted : shownBy (c.note .sentRequest) = shown tr ++ [.sent (encodeRdmaToken token)] := by
    rw [shownBy_note, h.sights]
    exact List.append_nil _
  have hrefused : s.callStep setup c .fail =
      some (s.retBuf (c.note .sentRequest) buf .S3Error) := by
    simp only [InstanceState.callStep, hpc, InstanceState.sendRequestStep]
  have hok : s.callStep setup c .ok = some ((c.goto (.recvReply buf)).note .sentRequest, s) := by
    simp only [InstanceState.callStep, hpc, InstanceState.sendRequestStep]
  have hthrew : s.callStep setup c .threw =
      some (s.retBuf (c.note .sentRequest) buf .InternalError) := by
    simp only [InstanceState.callStep, hpc, InstanceState.sendRequestStep]
  refine .bind (.of_ensures (injectRdmaToken_shows _) ?_ ?_)
  · intro sent t ht
    refine ⟨s, .refl, ?_⟩
    cases sent with
    | false => exact h.fails hrefused hfind (hnoted.trans ht.symm) (by decide) ⟨_, rfl⟩
    | true =>
        obtain ⟨hleads, hshows⟩ := h.step hok hfind (hnoted.trans ht.symm)
        exact .leads hleads (hsent t _ _ hshows rfl)
  · rintro t rfl
    exact h.throws hthrew hfind hnoted ⟨_, rfl⟩

theorem buildTokenStep_transfer {token : RdmaToken} {qpNum : BitVec 32}
    (hentry : s.entryAt buf = some e) (hop : c.op.isGet = true ∨ c.op.isPut = true)
    (htoken : buildRdmaToken setup.device qpNum e c.op.size c.op.offset = some token) :
    s.buildTokenStep setup c buf qpNum reply =
      some ((c.note (.minted token)).goto (.sendRequest buf), s) := by
  simp only [InstanceState.buildTokenStep, hentry, Option.bind_some, htoken]
  cases hc : c.op with
  | get _ _ _ _ | put _ _ _ _ => simp only [Call.note, hc]
  | _ => simp [hc, Op.isGet, Op.isPut] at hop

theorem transferOn_takes (h : Shows setup id op (some e) (shown tr) c s)
    (hpc : c.pc = .buildToken buf conn.qp.qpNum) (hop : op.isGet = true ∨ op.isPut = true) :
    TakesAlong (instanceMachine setup) (OwnStep id)
      (transferOn O setup.device conn e op.size op.offset) tr s
      (Goes setup id op (some e) (afterTransfer op buf)) (Throws setup id op (some e)) := by
  have hfind : c.pc ≠ .find := by simp [hpc]
  have hentry : s.entryAt buf = some e := h.entryAt (by rw [hpc]; rfl)
  have hbuild : s.callStep setup c .ok = s.buildTokenStep setup c buf conn.qp.qpNum .ok := by
    simp only [InstanceState.callStep, hpc]
  unfold transferOn
  cases htoken : buildRdmaToken setup.device conn.qp.qpNum e op.size op.offset with
  | none =>
      have hstep : s.callStep setup c .ok = some (s.retBuf c buf .RdmaError) := by
        simp only [hbuild, InstanceState.buildTokenStep, hentry, Option.bind_some, h.op, htoken]
      exact h.fails hstep hfind h.sights (by decide) ⟨_, rfl⟩
  | some token =>
      have hstep : s.callStep setup c .ok =
          some ((c.note (.minted token)).goto (.sendRequest buf), s) := by
        rw [← h.op] at htoken hop
        exact hbuild.trans (buildTokenStep_transfer hentry hop htoken)
      obtain ⟨hleads, hshows⟩ := h.step hstep hfind
        (show _ = shown tr ++ [.sent (encodeRdmaToken token)] by
          rw [shownBy_goto, shownBy_note, h.sights]
          rfl)
      refine .leads hleads (sendRequest_takes hshows rfl fun tr' c' s' hsent hpc' => ?_)
      refine receiveReply_takes hsent hpc' ?_ ?_
      · intro reply hreply
        rcases reply with _ | ⟨text, status⟩
        · rfl
        · cases status with
          | Success => exact absurd rfl (hreply text)
          | _ => rfl
      · intro text tr'' c'' s'' hreceived hpc''
        exact finishTransfer_takes text hreceived hpc'' e.isDmabuf

/-- The end of a lease is not shown. -/
theorem leasing_takes {x : TransferM OpError}
    (h : TakesAlong (instanceMachine setup) (OwnStep id) x tr s (Goes setup id op found next)
      (Throws setup id op found)) :
    TakesAlong (instanceMachine setup) (OwnStep id) (leasing x) tr s (Goes setup id op found next)
      (Throws setup id op found) := by
  have hreleased : ∀ t, shown (t ++ [.released]) = shown t := by
    intro t
    rw [shown_concat]
    exact List.append_nil _
  unfold TakesAlong Ensures leasing at *
  cases hx : x tr with
  | ok a t =>
      rw [hx] at h
      obtain ⟨n, hleads, c, hshows, hpc⟩ := h
      exact ⟨n, hleads, c, by rwa [hreleased], hpc⟩
  | error ex t =>
      rw [hx] at h
      obtain ⟨n, hleads, c, more, hshows, hpc⟩ := h
      exact ⟨n, hleads, c, more, by rwa [hreleased], hpc⟩

theorem runRdmaTransfer_takes (tr : Trace) (h : Shows setup id op (some e) (shown tr) c s)
    (hpc : c.pc = .acquire buf) (hop : op.isGet = true ∨ op.isPut = true) :
    TakesAlong (instanceMachine setup) (OwnStep id)
      (runRdmaTransfer O setup.device e op.size op.offset) tr s
      (Goes setup id op (some e) (afterTransfer op buf)) (Throws setup id op (some e)) := by
  have hfind : c.pc ≠ .find := by simp [hpc]
  have hacquire : ∀ reply, s.callStep setup c reply = s.acquireStep c buf reply := by
    intro reply
    simp only [InstanceState.callStep, hpc]
  unfold TakesAlong Ensures runRdmaTransfer
  dsimp only
  cases O.acquire tr with
  | none =>
      exact h.throws (hacquire .threw) hfind (h.sights.trans (List.append_nil _).symm) ⟨_, rfl⟩
  | some outcome =>
      cases outcome with
      | error error =>
          exact h.fails (P := Throws setup id op (some e)) (hacquire (.lease (.error error))) hfind
            h.sights (acquireError_ne_success error) ⟨_, rfl⟩
      | ok conn =>
          obtain ⟨hleads, hshows⟩ := h.step (hacquire (.lease (.ok conn.qp.qpNum))) hfind
            (show _ = shown (tr ++ [.acquired conn]) by
              rw [shownBy_note, shownBy_goto, h.sights, shown_concat]
              rfl)
          exact TakesAlong.leads hleads (leasing_takes (transferOn_takes hshows rfl hop))

end Transfer

end Parts

end HipObject.Transfers
