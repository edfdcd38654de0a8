import HipObject.Buffer.Data

/-!
# How far the staging copy of a transfer is

A `hipObjGet` makes its staging copy after the transfer and a `hipObjPut` before
it. `staging` says for each program counter whether the copy is still to be
made, runs, or is settled: it has landed, or the buffer needs none. A step of the
call changes that in few ways, which `StagingStep` lists.
-/

namespace HipObject

open Verification

variable {setup : Setup} {s u : InstanceState} {c c' : Call} {reply : Reply}
variable {inserted : List (Nat × BitVec 64 × Nat)}

inductive Staging where
  | pending
  | running
  /-- The copy has landed, or none is needed. -/
  | settled
  | failed
  deriving DecidableEq

def staging (op : Op) : Pc → Staging
  | .eventRecord _ _ _ => .running
  | .eventQuery _ _ _ => .running
  | .add _ _ _ => .running
  | .staged _ _ => .settled
  | .unwind _ result => if result = .Success then .settled else .failed
  | .acquire _ => if op.isPut then .settled else .pending
  | .buildToken _ _ => if op.isPut then .settled else .pending
  | .sendRequest _ => if op.isPut then .settled else .pending
  | .recvReply _ => if op.isPut then .settled else .pending
  | .finishTransfer _ => if op.isPut then .settled else .pending
  | _ => .pending

/-- What a step of a transfer does to its staging copy. -/
inductive StagingStep (reply : Reply) (c c' : Call) : Prop
  | stays (copy : c'.copy = c.copy) (after : staging c.op c'.pc = staging c.op c.pc)
  | failed (copy : c'.copy = c.copy) (after : staging c.op c'.pc = .failed)
  | skipped {e : BufEntry} (copy : c'.copy = c.copy) (before : staging c.op c.pc = .pending)
      (found : c.found = some e) (direct : e.hostBuf = none)
      (after : staging c.op c'.pc = .settled)
  | started {e : BufEntry} {k : StagingCopy} (copy : c'.copy = some k)
      (before : staging c.op c.pc = .pending) (found : c.found = some e)
      (staged : e.hostBuf = some k.hostBuf) (after : staging c.op c'.pc = .running)
  | ended {expired : Bool} (copy : c'.copy = c.copy) (before : staging c.op c.pc = .running)
      (landed : reply = .status .success expired) (after : staging c.op c'.pc = .settled)

/-- A step that returns with an error. -/
theorem StagingStep.ret {locals : Locals} {result : OpError} (h : result ≠ .Success)
    (c : Call) (hcopy : c'.copy = c.copy) (hpc : c'.pc = .unwind locals result) :
    StagingStep reply c c' :=
  .failed hcopy (by rw [hpc]; exact if_neg h)

/-- Transfers use a buffer. -/
theorem usesBuffer_of_transfers (h : c.op.isGet = true ∨ c.op.isPut = true) :
    c.op.usesBuffer = true := by
  cases hop : c.op with
  | get _ _ _ _ | put _ _ _ _ => rfl
  | _ => simp [hop, Op.isGet, Op.isPut] at h

section Steps

variable {buf event : Nat} {copy : StagingCopy}

theorem startStep_staging (hop : c.op.isGet = true ∨ c.op.isPut = true) (hpc : c.pc = .start)
    (h : s.startStep c reply = some (c', u)) : StagingStep reply c c' := by
  unfold InstanceState.startStep at h
  cases hc : c.op with
  | get _ _ _ _ | put _ _ _ _ =>
      simp only [hc] at h
      split at h
      · cases h
        exact .stays rfl (by rw [hpc]; rfl)
      · cases h
        exact .failed rfl rfl
  | _ => simp [hc, Op.isGet, Op.isPut] at hop

theorem checkBufferArgs_none (ptr size offset : BitVec 64) :
    checkBufferArgs ptr none size offset ≠ .Success := by
  unfold checkBufferArgs
  split <;> exact nofun

theorem checkBufferArgsStep_staging {buf : Option Nat} (hpc : c.pc = .checkBufferArgs buf)
    (h : s.checkBufferArgsStep c buf = some (c', u)) : StagingStep reply c c' := by
  unfold InstanceState.checkBufferArgsStep at h
  cases buf with
  | none =>
      cases h
      exact .ret (checkBufferArgs_none _ _ _) c rfl rfl
  | some i =>
      split at h
      · cases h
        exact .stays rfl (by rw [hpc]; rfl)
      · rename_i hrefused
        cases h
        exact .ret (hrefused i rfl) c rfl rfl

theorem checkNoAbandonedCopyStep_staging (hpc : c.pc = .checkNoAbandonedCopy buf)
    (h : s.checkNoAbandonedCopyStep c buf reply = some (c', u)) : StagingStep reply c c' := by
  obtain ⟨entry, -, h⟩ := Option.bind_eq_some_iff.mp h
  split at h
  · cases h
    exact .stays rfl (by rw [hpc]; rfl)
  · cases reply with
    | statuses answers =>
        obtain ⟨⟨v, r⟩, -, heq⟩ := Option.map_eq_some_iff.mp h
        dsimp only at heq
        split at heq
        · cases heq
          exact .failed rfl rfl
        · cases heq
          exact .stays rfl (by rw [hpc]; rfl)
    | _ => cases h

theorem checkedStep_staging {ended : List Copy} {stillRunning : Bool}
    (hop : c.op.isGet = true ∨ c.op.isPut = true) (hpc : c.pc = .checked buf ended stillRunning)
    (h : s.checkedStep setup c buf stillRunning ended = some (c', u)) : StagingStep reply c c' := by
  cases ended with
  | cons copy rest =>
      cases h
      exact .stays rfl (by rw [hpc]; rfl)
  | nil =>
      simp only [InstanceState.checkedStep] at h
      split at h
      · cases h
        exact .failed rfl rfl
      · cases hc : c.op with
        | get _ _ _ _ | put _ _ _ _ =>
            simp only [hc] at h
            cases h
            exact .stays rfl (by rw [hpc, hc]; rfl)
        | _ => simp [hc, Op.isGet, Op.isPut] at hop

theorem acquireError_ne_success (error : AcquireError) : acquireError error ≠ .Success := by
  cases error <;> exact nofun

theorem acquireStep_staging (hpc : c.pc = .acquire buf)
    (h : s.acquireStep c buf reply = some (c', u)) : StagingStep reply c c' := by
  cases reply with
  | lease result =>
      cases result with
      | error error =>
          cases h
          exact .ret (acquireError_ne_success error) c rfl rfl
      | ok qpNum =>
          cases h
          exact .stays rfl (by rw [hpc]; rfl)
  | threw =>
      cases h
      exact .failed rfl rfl
  | _ => cases h

theorem buildTokenStep_staging {qpNum : BitVec 32} (hop : c.op.isGet = true ∨ c.op.isPut = true)
    (hpc : c.pc = .buildToken buf qpNum)
    (h : s.buildTokenStep setup c buf qpNum reply = some (c', u)) : StagingStep reply c c' := by
  obtain ⟨entry, -, h⟩ := Option.bind_eq_some_iff.mp h
  split at h
  · cases h
    exact .failed rfl rfl
  · rename_i token htoken
    cases hc : c.op with
    | get _ _ _ _ | put _ _ _ _ =>
        simp only [Call.note, hc] at h
        cases h
        exact .stays rfl (by rw [hpc]; rfl)
    | _ => simp [hc, Op.isGet, Op.isPut] at hop

theorem sendRequestStep_staging (hpc : c.pc = .sendRequest buf)
    (h : s.sendRequestStep c buf reply = some (c', u)) : StagingStep reply c c' := by
  cases reply with
  | ok =>
      cases h
      exact .stays rfl (by rw [hpc]; rfl)
  | fail | threw =>
      cases h
      exact .failed rfl rfl
  | _ => cases h

theorem recvReplyStep_staging (hpc : c.pc = .recvReply buf)
    (h : s.recvReplyStep c buf reply = some (c', u)) : StagingStep reply c c' := by
  cases reply with
  | ok =>
      cases h
      exact .stays rfl (by rw [hpc]; rfl)
  | fail | threw =>
      cases h
      exact .failed rfl rfl
  | _ => cases h

theorem finishTransferStep_staging (hop : c.op.isGet = true ∨ c.op.isPut = true)
    (hpc : c.pc = .finishTransfer buf)
    (h : s.finishTransferStep c buf reply = some (c', u)) : StagingStep reply c c' := by
  cases reply with
  | ok =>
      cases hc : c.op with
      | get _ _ _ _ | put _ _ _ _ =>
          simp only [InstanceState.finishTransferStep, hc] at h
          cases h
          exact .stays rfl (by rw [hpc, hc]; rfl)
      | _ => simp [hc, Op.isGet, Op.isPut] at hop
  | fail | threw =>
      cases h
      exact .failed rfl rfl
  | _ => cases h

/-- Where the call goes on when its copy is settled. -/
theorem afterStage_settled (s : InstanceState) (buf : Nat)
    (hop : c.op.isGet = true ∨ c.op.isPut = true) :
    (s.afterStage c buf).1.copy = c.copy ∧ staging c.op (s.afterStage c buf).1.pc = .settled := by
  unfold InstanceState.afterStage
  cases hc : c.op with
  | get _ _ _ _ | put _ _ _ _ => exact ⟨rfl, rfl⟩
  | _ => simp [hc, Op.isGet, Op.isPut] at hop

theorem stageStep_staging (hop : c.op.isGet = true ∨ c.op.isPut = true) (hpc : c.pc = .stage buf)
    (hbuf : s.entryAt buf = c.found) (h : s.stageStep c buf reply = some (c', u)) :
    StagingStep reply c c' := by
  obtain ⟨entry, hentry, h⟩ := Option.bind_eq_some_iff.mp h
  split at h
  · rename_i hdirect
    obtain ⟨hcopy, hafter⟩ := afterStage_settled s buf hop
    rw [Option.some.inj h] at hcopy hafter
    exact .skipped hcopy (by rw [hpc]; rfl) (hbuf ▸ hentry) (by simpa using hdirect) hafter
  · split at h
    · cases h
      exact .failed rfl rfl
    · cases reply with
      | ok =>
          cases h
          exact .stays rfl (by rw [hpc]; rfl)
      | fail =>
          cases h
          exact .failed rfl rfl
      | _ => cases h

theorem memcpyAsyncStep_staging (hpc : c.pc = .memcpyAsync buf event)
    (hbuf : s.entryAt buf = c.found) (h : s.memcpyAsyncStep c buf event reply = some (c', u)) :
    StagingStep reply c c' := by
  cases reply with
  | ok =>
      obtain ⟨entry, hentry, h⟩ := Option.bind_eq_some_iff.mp h
      obtain ⟨hostBuf, hstaged, heq⟩ := Option.map_eq_some_iff.mp h
      cases heq
      exact .started rfl (by rw [hpc]; rfl) (hbuf ▸ hentry) hstaged rfl
  | fail | threw =>
      cases h
      exact .failed rfl rfl
  | _ => cases h

theorem eventQueryStep_staging (hpc : c.pc = .eventQuery buf event copy)
    (h : s.eventQueryStep c buf event copy reply = some (c', u)) : StagingStep reply c c' := by
  cases reply with
  | status status expired =>
      cases status with
      | notReady =>
          simp only [InstanceState.eventQueryStep] at h
          split at h <;> cases h <;> exact .stays rfl (by rw [hpc]; rfl)
      | success =>
          simp only [InstanceState.eventQueryStep, Option.ite_none_right_eq_some] at h
          obtain ⟨-, h⟩ := h
          cases h
          exact .ended rfl (by rw [hpc]; rfl) rfl rfl
      | error =>
          simp only [InstanceState.eventQueryStep, Option.ite_none_right_eq_some] at h
          obtain ⟨-, h⟩ := h
          cases h
          exact .failed rfl rfl
  | threw =>
      cases h
      exact .failed rfl rfl
  | _ => cases h

theorem stagedStep_staging {event : Option Nat} (hop : c.op.isGet = true ∨ c.op.isPut = true)
    (hpc : c.pc = .staged buf event) (h : s.stagedStep c buf event = some (c', u)) :
    StagingStep reply c c' := by
  cases event with
  | some event =>
      cases h
      exact .stays rfl (by rw [hpc]; rfl)
  | none =>
      obtain ⟨hcopy, hafter⟩ :=
        afterStage_settled { s with reserved := s.reserved - 1 } buf hop
      rw [Option.some.inj h] at hcopy hafter
      exact .stays hcopy (by rw [hpc, hafter]; rfl)

theorem unwindStep_staging {locals : Locals} {result : OpError}
    (hpc : c.pc = .unwind locals result) (h : s.unwindStep c locals result = some (c', u)) :
    StagingStep reply c c' := by
  unfold InstanceState.unwindStep at h
  split at h <;> cases h <;> exact .stays rfl (by rw [hpc]; rfl)

end Steps

/-- Every step of a transfer is one of these. -/
theorem callStep_staging (hop : c.op.isGet = true ∨ c.op.isPut = true)
    (hok : PcOk inserted c c.pc) (hbuf : ∀ i, c.pc.locals.buf = some i → s.entryAt i = c.found)
    (h : s.callStep setup c reply = some (c', u)) : StagingStep reply c c' := by
  have huses := usesBuffer_of_transfers hop
  have hregisters := registers_false_of_usesBuffer huses
  cases hpc : c.pc with
  | start =>
      rw [InstanceState.callStep, hpc] at h
      exact startStep_staging hop hpc h
  | precheck _ | exportDmabuf _ | regDmabufMr _ _ | regMr _ =>
      rw [hpc] at hok
      cases hregisters.symm.trans (Call.Registering.op hok)
  | closeDmabuf _ _ _ | hostMalloc _ | regStagingMr _ _ | build _ _ _ =>
      rw [hpc] at hok
      cases hregisters.symm.trans hok.1.op
  | insert _ =>
      rw [hpc] at hok
      cases hregisters.symm.trans hok.2.1
  | reclaim | remove _ =>
      rw [hpc] at hok
      cases hok.2.2.symm.trans huses
  | find =>
      rw [InstanceState.callStep, hpc] at h
      simp only [InstanceState.findStep] at h
      split at h <;> cases h <;> exact .stays rfl (by rw [hpc]; rfl)
  | checkBufferArgs buf =>
      rw [InstanceState.callStep, hpc] at h
      exact checkBufferArgsStep_staging hpc h
  | checkNoAbandonedCopy buf =>
      rw [InstanceState.callStep, hpc] at h
      exact checkNoAbandonedCopyStep_staging hpc h
  | checked buf ended stillRunning =>
      rw [InstanceState.callStep, hpc] at h
      exact checkedStep_staging hop hpc h
  | acquire buf =>
      rw [InstanceState.callStep, hpc] at h
      exact acquireStep_staging hpc h
  | buildToken buf qpNum =>
      rw [InstanceState.callStep, hpc] at h
      exact buildTokenStep_staging hop hpc h
  | sendRequest buf =>
      rw [InstanceState.callStep, hpc] at h
      exact sendRequestStep_staging hpc h
  | recvReply buf =>
      rw [InstanceState.callStep, hpc] at h
      exact recvReplyStep_staging hpc h
  | finishTransfer buf =>
      rw [InstanceState.callStep, hpc] at h
      exact finishTransferStep_staging hop hpc h
  | stage buf =>
      rw [InstanceState.callStep, hpc] at h
      exact stageStep_staging hop hpc (hbuf buf (by rw [hpc]; rfl)) h
  | eventCreate buf =>
      rw [InstanceState.callStep, hpc] at h
      cases reply with
      | ok =>
          cases h
          exact .stays rfl (by rw [hpc]; rfl)
      | fail | threw =>
          cases h
          exact .failed rfl rfl
      | _ => cases h
  | memcpyAsync buf event =>
      rw [InstanceState.callStep, hpc] at h
      exact memcpyAsyncStep_staging hpc (hbuf buf (by rw [hpc]; rfl)) h
  | eventRecord buf event copy =>
      rw [InstanceState.callStep, hpc] at h
      cases reply with
      | ok =>
          cases h
          exact .stays rfl (by rw [hpc]; rfl)
      | fail | threw =>
          cases h
          exact .failed rfl rfl
      | _ => cases h
  | eventQuery buf event copy =>
      rw [InstanceState.callStep, hpc] at h
      exact eventQueryStep_staging hpc h
  | add buf event copy =>
      rw [InstanceState.callStep, hpc] at h
      cases h
      exact .failed rfl rfl
  | staged buf event =>
      rw [InstanceState.callStep, hpc] at h
      exact stagedStep_staging hop hpc h
  | unwind locals result =>
      rw [InstanceState.callStep, hpc] at h
      exact unwindStep_staging hpc h

end HipObject
