import HipObject.Buffer.Counts
import HipObject.Library.Instances

/-!
# Transfers and their leases

Which calls come to the part of `runRdmaTransfer` that needs a lease, and that the
frames of exactly these calls hold one. Apart from that, a call that transfers data
leaves the map of buffers as it is.
-/

namespace HipObject

open Verification

/-- The calls that transfer data. -/
def Op.transfers : Op → Bool
  | get .. => true
  | put .. => true
  | _ => false

def Op.mintsToken : Op → Bool
  | getRdmaToken .. => true
  | _ => false

section Calls

variable {setup : Setup} {s t u : InstanceState} {c c' : Call} {reply : Reply}
variable {result : Call × InstanceState}

/-! ### How a call comes to its transfer -/

/-- What it takes to come to a program counter of the transfer. -/
def Enters (c : Call) (reply : Reply) : Pc → Prop
  | .acquire _ => c.op.transfers = true
  | .buildToken _ _ => c.op.mintsToken = true ∨
      c.pc.inAcquire = true ∧ ∃ qpNum, reply = .lease (.ok qpNum)
  | .sendRequest buf => c.op.mintsToken = false ∧ ∃ qpNum, c.pc = .buildToken buf qpNum
  | .recvReply buf => c.pc = .sendRequest buf
  | .finishTransfer buf => c.pc = .recvReply buf
  | _ => True

theorem enters_afterStage (buf : Nat) : Enters c reply (s.afterStage c buf).1.pc := by
  unfold InstanceState.afterStage
  cases hop : c.op with
  | put devPtr size offset ops =>
      change c.op.transfers = true
      rw [hop]
      rfl
  | _ => trivial

theorem checkedStep_enters {buf : Nat} {ended : List Copy} {stillRunning : Bool}
    (h : s.checkedStep setup c buf stillRunning ended = some result) :
    Enters c reply result.1.pc := by
  cases ended with
  | cons copy rest =>
      cases h
      trivial
  | nil =>
      simp only [InstanceState.checkedStep] at h
      split at h
      · cases h
        trivial
      · cases hop : c.op with
        | get devPtr size offset ops =>
            simp only [hop] at h
            cases h
            change c.op.transfers = true
            rw [hop]
            rfl
        | getRdmaToken devPtr size op outToken =>
            simp only [hop] at h
            cases h
            refine .inl ?_
            rw [hop]
            rfl
        | put devPtr size offset ops =>
            simp only [hop] at h
            cases h
            trivial
        | sync devPtr size offset direction =>
            simp only [hop] at h
            cases h
            trivial
        | _ =>
            simp only [hop] at h
            cases h

theorem buildTokenStep_enters {buf : Nat} {qpNum : BitVec 32} (hpc : c.pc = .buildToken buf qpNum)
    (h : s.buildTokenStep setup c buf qpNum reply = some result) :
    Enters c reply result.1.pc := by
  obtain ⟨entry, -, h⟩ := Option.bind_eq_some_iff.mp h
  split at h
  · cases h
    trivial
  · cases hop : c.op with
    | getRdmaToken devPtr size op outToken =>
        simp only [Call.note, hop] at h
        cases reply <;> cases h <;> trivial
    | _ =>
        simp only [Call.note, hop] at h
        cases h
        refine ⟨?_, qpNum, hpc⟩
        rw [hop]
        rfl

theorem stageStep_enters {buf : Nat} (h : s.stageStep c buf reply = some result) :
    Enters c reply result.1.pc := by
  obtain ⟨entry, -, h⟩ := Option.bind_eq_some_iff.mp h
  split at h
  · cases h
    exact enters_afterStage buf
  · split at h
    · cases h
      trivial
    · cases reply <;> cases h <;> trivial

theorem callStep_enters (h : s.callStep setup c reply = some result) :
    Enters c reply result.1.pc := by
  unfold InstanceState.callStep at h
  cases hpc : c.pc with
  | checked buf ended stillRunning => exact checkedStep_enters (by simpa only [hpc] using h)
  | buildToken buf qpNum => exact buildTokenStep_enters hpc (by simpa only [hpc] using h)
  | stage buf => exact stageStep_enters (by simpa only [hpc] using h)
  | acquire buf =>
      simp only [hpc] at h
      cases reply with
      | lease result =>
          cases result with
          | error e =>
              cases h
              trivial
          | ok qpNum =>
              cases h
              exact .inr ⟨by rw [hpc]; rfl, qpNum, rfl⟩
      | threw =>
          cases h
          trivial
      | _ => cases h
  | sendRequest buf =>
      simp only [hpc] at h
      cases reply with
      | ok =>
          cases h
          exact hpc
      | fail =>
          cases h
          trivial
      | threw =>
          cases h
          trivial
      | _ => cases h
  | recvReply buf =>
      simp only [hpc] at h
      cases reply with
      | ok =>
          cases h
          exact hpc
      | fail =>
          cases h
          trivial
      | threw =>
          cases h
          trivial
      | _ => cases h
  | staged buf event =>
      simp only [hpc] at h
      cases event with
      | some event =>
          cases h
          trivial
      | none =>
          cases h
          exact enters_afterStage buf
  -- the other steps return, or go on outside the transfer
  | exportDmabuf _ | regDmabufMr _ _ | regStagingMr _ _ | build _ _ _ | eventCreate _
  | eventRecord _ _ _ =>
      simp only [hpc] at h
      cases reply <;> cases h <;> trivial
  | closeDmabuf info fd mr =>
      simp only [hpc] at h
      cases mr <;> cases reply <;> cases h <;> trivial
  | start =>
      simp only [hpc, InstanceState.startStep] at h
      repeat' split at h
      all_goals cases h
      all_goals trivial
  | precheck info =>
      simp only [hpc, InstanceState.precheckStep] at h
      repeat' split at h
      all_goals cases h
      all_goals trivial
  | regMr info =>
      simp only [hpc, InstanceState.regMrStep] at h
      repeat' split at h
      all_goals cases h
      all_goals trivial
  | hostMalloc info =>
      simp only [hpc, InstanceState.hostMallocStep] at h
      repeat' split at h
      all_goals cases h
      all_goals trivial
  | insert entry =>
      simp only [hpc, InstanceState.insertStep] at h
      repeat' split at h
      all_goals cases h
      all_goals trivial
  | reclaim =>
      simp only [hpc, InstanceState.reclaimStep] at h
      split at h
      · obtain ⟨r, -, rfl⟩ := Option.map_eq_some_iff.mp h
        split <;> trivial
      · cases h
  | remove ended =>
      simp only [hpc, InstanceState.removeStep] at h
      split at h
      · cases h
        trivial
      · split at h
        · cases h
          trivial
        · obtain ⟨cell, -, rfl⟩ := Option.map_eq_some_iff.mp h
          split <;> trivial
  | find =>
      simp only [hpc, InstanceState.findStep] at h
      split at h
      all_goals cases h
      all_goals trivial
  | checkBufferArgs buf =>
      simp only [hpc, InstanceState.checkBufferArgsStep] at h
      split at h
      all_goals cases h
      all_goals trivial
  | checkNoAbandonedCopy buf =>
      simp only [hpc] at h
      obtain ⟨entry, -, h⟩ := Option.bind_eq_some_iff.mp h
      split at h
      · cases h
        trivial
      · split at h
        · obtain ⟨r, -, rfl⟩ := Option.map_eq_some_iff.mp h
          dsimp only
          split <;> trivial
        · cases h
  | finishTransfer buf =>
      simp only [hpc, InstanceState.finishTransferStep] at h
      repeat' split at h
      all_goals cases h
      all_goals trivial
  | memcpyAsync buf event =>
      simp only [hpc, InstanceState.memcpyAsyncStep] at h
      split at h
      · obtain ⟨entry, -, h⟩ := Option.bind_eq_some_iff.mp h
        obtain ⟨hostBuf, -, rfl⟩ := Option.map_eq_some_iff.mp h
        trivial
      · cases h
        trivial
      · cases h
        trivial
      · cases h
  | eventQuery buf event copy =>
      simp only [hpc, InstanceState.eventQueryStep] at h
      repeat' split at h
      all_goals cases h
      all_goals trivial
  | add buf event copy =>
      simp only [hpc] at h
      cases h
      trivial
  | unwind locals error =>
      simp only [hpc, InstanceState.unwindStep] at h
      split at h
      all_goals cases h
      all_goals trivial

/-- Only a transfer waits for a lease. -/
theorem acquire_transfers (h : (instanceMachine setup).Reachable s) :
    ∀ c ∈ s.calls, c.pc.inAcquire = true → c.op.transfers = true := by
  refine Machine.Reachable.invariant
    (I := fun s => ∀ c ∈ s.calls, c.pc.inAcquire = true → c.op.transfers = true) ?_ ?_ h
  · rintro s rfl c hc
    cases hc
  · intro s a t hreached hs hstep
    cases instanceStep_anyMove hstep with
    | begin current =>
        intro d hd hpc
        rcases List.mem_cons.mp hd with rfl | hd
        · cases hpc
        · exact hs d hd hpc
    | @step c c' u reply mem stepped moves =>
        intro d hd hpc
        rcases List.mem_cons.mp hd with rfl | hd
        · have henters := callStep_enters stepped
          have hop : d.op = c.op := moves.op
          rw [hop]
          cases hd : d.pc with
          | acquire buf =>
              rw [hd] at henters
              exact henters
          | _ =>
              rw [hd] at hpc
              cases hpc
        · exact hs d (List.mem_of_mem_erase hd) hpc
    | ret mem pc =>
        intro d hd hpc
        exact hs d (List.mem_of_mem_erase hd) hpc
    | finishCopy started => exact hs
    | shutdown => exact hs
    | @destroy queries retired alive idle all truthful =>
        have hover : (s.destroyInstance queries).destroyed = true := rfl
        have hended := (owned_of_reachable (reachable_instanceStep hreached hstep)).ended hover
        rw [hended.2.1]
        intro d hd
        cases hd

/-! ### The map -/

theorem transfers_usesBuffer {op : Op} (h : op.transfers = true) : op.usesBuffer = true := by
  cases op with
  | get devPtr size offset ops => rfl
  | put devPtr size offset ops => rfl
  | _ => cases h

theorem dropCopy_entries (s : InstanceState) (copy : Copy) :
    (s.dropCopy copy).entries = s.entries := (dropRef_entries (s.destroyEvent copy.done) _).1

theorem release_entries {entry : Option Nat} {answers : Copy → InstanceState.Answer}
    {r : InstanceState.Released} (h : s.release entry answers = some (t, r)) :
    t.entries = s.entries := by
  obtain ⟨-, -, rfl⟩ := release_spec h
  rfl

theorem afterStage_entries (s : InstanceState) (c : Call) (buf : Nat) :
    (s.afterStage c buf).2.entries = s.entries := by
  unfold InstanceState.afterStage
  split <;> rfl

theorem unwindStep_entries {locals : Locals} {error : OpError}
    (h : s.unwindStep c locals error = some result) : result.2.entries = s.entries := by
  unfold InstanceState.unwindStep at h
  split at h
  all_goals cases h
  · exact dropCopy_entries s _
  · rfl
  · rfl
  · rfl
  · rfl
  · rfl
  · exact (dropRef_entries s _).1
  · exact (dropRef_entries s _).1

/-- A transfer neither registers nor deregisters. -/
theorem callStep_entries {inserted : List (Nat × BitVec 64 × Nat)}
    (h : s.callStep setup c reply = some result) (hok : PcOk inserted c c.pc)
    (hop : c.op.transfers = true) : result.2.entries = s.entries := by
  have huses := transfers_usesBuffer hop
  have hregisters := registers_false_of_usesBuffer huses
  unfold InstanceState.callStep at h
  cases hpc : c.pc with
  | precheck _ | exportDmabuf _ | regDmabufMr _ _ | regMr _ =>
      rw [hpc] at hok
      cases hregisters.symm.trans (Call.Registering.op hok)
  | closeDmabuf _ _ _ | hostMalloc _ | regStagingMr _ _ | build _ _ _ =>
      rw [hpc] at hok
      cases hregisters.symm.trans hok.1.op
  | insert _ =>
      rw [hpc] at hok
      cases hregisters.symm.trans hok.2.1
  | reclaim | remove _ =>
      rw [hpc] at hok
      cases huses.symm.trans hok.2.2
  | unwind locals error => exact unwindStep_entries (by simpa only [hpc] using h)
  | start =>
      simp only [hpc, InstanceState.startStep] at h
      repeat' split at h
      all_goals cases h
      all_goals rfl
  | find =>
      simp only [hpc, InstanceState.findStep] at h
      split at h
      all_goals cases h
      all_goals rfl
  | checkBufferArgs buf =>
      simp only [hpc, InstanceState.checkBufferArgsStep] at h
      split at h
      all_goals cases h
      all_goals rfl
  | checkNoAbandonedCopy buf =>
      simp only [hpc] at h
      obtain ⟨entry, -, h⟩ := Option.bind_eq_some_iff.mp h
      split at h
      · cases h
        rfl
      · split at h
        · obtain ⟨⟨t, r⟩, hrelease, rfl⟩ := Option.map_eq_some_iff.mp h
          dsimp only
          split
          all_goals exact release_entries hrelease
        · cases h
  | checked buf ended stillRunning =>
      simp only [hpc] at h
      cases ended with
      | cons copy rest =>
          cases h
          exact dropCopy_entries s copy
      | nil =>
          simp only [InstanceState.checkedStep] at h
          repeat' split at h
          all_goals cases h
          all_goals rfl
  | buildToken buf qpNum =>
      simp only [hpc] at h
      obtain ⟨entry, -, h⟩ := Option.bind_eq_some_iff.mp h
      split at h
      · cases h
        rfl
      · cases hc : c.op with
        | getRdmaToken devPtr size op outToken =>
            rw [hc] at hop
            cases hop
        | _ =>
            simp only [Call.note, hc] at h
            cases h
            rfl
  | stage buf =>
      simp only [hpc] at h
      obtain ⟨entry, -, h⟩ := Option.bind_eq_some_iff.mp h
      split at h
      · cases h
        exact afterStage_entries s c buf
      · split at h
        · cases h
          rfl
        · cases reply <;> cases h <;> rfl
  | staged buf event =>
      simp only [hpc] at h
      cases event with
      | some event =>
          cases h
          rfl
      | none =>
          cases h
          exact afterStage_entries _ c buf
  | memcpyAsync buf event =>
      simp only [hpc, InstanceState.memcpyAsyncStep] at h
      split at h
      · obtain ⟨entry, -, h⟩ := Option.bind_eq_some_iff.mp h
        obtain ⟨hostBuf, -, rfl⟩ := Option.map_eq_some_iff.mp h
        rfl
      · cases h
        rfl
      · cases h
        rfl
      · cases h
  | eventQuery buf event copy =>
      simp only [hpc, InstanceState.eventQueryStep] at h
      repeat' split at h
      all_goals cases h
      all_goals rfl
  | finishTransfer buf =>
      simp only [hpc, InstanceState.finishTransferStep] at h
      repeat' split at h
      all_goals cases h
      all_goals rfl
  | acquire buf =>
      simp only [hpc, InstanceState.acquireStep] at h
      split at h
      all_goals cases h
      all_goals rfl
  | sendRequest _ | recvReply _ | eventCreate _ | eventRecord _ _ _ =>
      simp only [hpc] at h
      cases reply <;> cases h <;> rfl
  | add buf event copy =>
      simp only [hpc] at h
      cases h
      rfl

end Calls

/-! ### The frames of transfers -/

section Frames

variable {T : Type} {p : Nat} {v w : InstanceView T}

/-- The calls on an instance go by different numbers. -/
theorem LivesAs.callIds_nodup {a : Published} (h : LivesAs v a) : v.callIds.Nodup := by
  have hids := (owned_of_reachable h.reached).callIds
  rw [InstanceState.allCalls, List.map_append] at hids
  exact h.calls.nodup_iff.mpr (List.nodup_append.mp hids).1

theorem LivesAs.call_eq {a : Published} (h : LivesAs v a) {c d : Call} (hc : c ∈ a.state.calls)
    (hd : d ∈ a.state.calls) (hid : d.id = c.id) : d = c :=
  List.inj_on_of_nodup_map (h.calls.nodup_iff.mp h.callIds_nodup) hd hc hid

/-- The other calls go by other numbers. -/
theorem LivesAs.id_ne_of_mem_erase {a : Published} (h : LivesAs v a) {c d : Call}
    (hc : c ∈ a.state.calls) (hd : d ∈ a.state.calls.erase c) : d.id ≠ c.id := by
  have hids := h.calls.nodup_iff.mp h.callIds_nodup
  have hcons := ((List.perm_cons_erase hc).map Call.id).nodup_iff.mp hids
  rw [List.map_cons, List.nodup_cons] at hcons
  intro heq
  exact hcons.1 (heq ▸ List.mem_map_of_mem hd)

/-- Only transfers hold leases, and they hold them while they need them. -/
def TransfersOk (p : Nat) (v : InstanceView T) : Prop :=
  ∀ a, v.pub = some a → ∀ c ∈ a.state.calls, ∀ lease, .call p c.id lease ∈ v.works →
    (lease.isSome = true → c.op.transfers = true) ∧
    (c.op.transfers = true → c.pc.inTransfer = true → lease.isSome = true)

/-- A step of a call that acquires nothing needs no lease that it did not need
before. -/
theorem inTransfer_of_step {setup : Setup} {s u : InstanceState} {c c' : Call} {reply : Reply}
    (h : s.callStep setup c reply = some (c', u)) (hop : c.op.transfers = true)
    (hrefused : c.pc.inAcquire = true → ∃ e, reply = .lease (.error e))
    (hpc : c'.pc.inTransfer = true) : c.pc.inTransfer = true := by
  have henters := callStep_enters h
  have hmints : c.op.mintsToken = false := by
    cases hc : c.op with
    | getRdmaToken devPtr size op outToken =>
        rw [hc] at hop
        cases hop
    | _ => rfl
  cases hd : c'.pc with
  | buildToken buf qpNum =>
      rw [hd] at henters
      rcases henters with henters | ⟨hacquire, qpNum', rfl⟩
      · rw [hmints] at henters
        cases henters
      · obtain ⟨e, he⟩ := hrefused hacquire
        cases he
  | sendRequest buf =>
      rw [hd] at henters
      obtain ⟨-, qpNum, hbefore⟩ := henters
      rw [hbefore]
      rfl
  | recvReply buf =>
      rw [hd] at henters
      rw [show c.pc = .sendRequest buf from henters]
      rfl
  | finishTransfer buf =>
      rw [hd] at henters
      rw [show c.pc = .recvReply buf from henters]
      rfl
  | _ =>
      rw [hd] at hpc
      cases hpc

namespace TransfersOk

/-- The frames on the instance are among those before. -/
theorem mono (h : TransfersOk p v) (hworks : ∀ work ∈ w.works, work ∈ v.works)
    (hcalls : ∀ b, w.pub = some b → ∃ a, v.pub = some a ∧ ∀ c ∈ b.state.calls,
      c ∈ a.state.calls) : TransfersOk p w := by
  intro b hb c hc lease hlease
  obtain ⟨a, ha, hsub⟩ := hcalls b hb
  exact h a ha c (hsub c hc) lease (hworks _ hlease)

/-- There are no calls. -/
theorem of_idle {a : Published} (hpub : w.pub = some a) (hcalls : a.state.calls = []) :
    TransfersOk p w := by
  intro b hb c hc
  cases hb.symm.trans hpub
  rw [hcalls] at hc
  cases hc

theorem move (h : TransfersOk p v) (hlives : Lives v) (hmove : ViewMove p v w) :
    TransfersOk p w := by
  cases hmove with
  | stay pub current works pool leases nextSerial =>
      refine h.mono (fun work hwork => works.mem_iff.mp hwork) ?_
      intro b hb
      exact ⟨b, pub ▸ hb, fun _ hc => hc⟩
  | publish setup absent isNew same => exact of_idle rfl rfl
  | @begin a s op has current stepped =>
      have hold := hlives.published a has
      have hbelow : ∀ id lease, .call p id lease ∈ v.works → id < a.state.next := by
        intro id lease hmem
        have hid : id ∈ v.callIds := List.mem_filterMap.mpr ⟨_, hmem, rfl⟩
        obtain ⟨c, hc, rfl⟩ := List.mem_map.mp (hold.calls.mem_iff.mp hid)
        refine (owned_of_reachable hold.reached).callsBelow _ ?_
        exact List.mem_map_of_mem (List.mem_append_left _ hc)
      obtain ⟨-, rfl⟩ := instanceStep_begin_eq stepped
      intro b hb c hc lease hlease
      cases hb
      rcases List.mem_cons.mp hc with rfl | hc
      · rcases List.mem_cons.mp hlease with heq | hlease
        · cases heq
          refine ⟨?_, ?_⟩
          · intro hsome
            cases hsome
          · intro _ hpc
            cases hpc
        · exact absurd (hbelow _ _ hlease) (Nat.lt_irrefl _)
      · rcases List.mem_cons.mp hlease with heq | hlease
        · obtain ⟨-, hid, -⟩ := Work.call.inj heq
          have hlt := (owned_of_reachable hold.reached).callsBelow c.id
            (List.mem_map_of_mem (List.mem_append_left _ hc))
          exact absurd hid (Nat.ne_of_lt hlt)
        · exact h a has c hc lease hlease
  | @step a s c reply lease has mem stepped inside refused =>
      have hold := hlives.published a has
      obtain ⟨hmem, c', u, hstep, rfl⟩ := instanceStep_step_eq stepped
      have hmoves := callStep_anyMoves hstep
      have hid : c'.id = c.id := hmoves.id
      have hop : c'.op = c.op := hmoves.op
      intro b hb d hd lease' hlease
      cases hb
      rcases List.mem_cons.mp hd with rfl | hd
      · obtain ⟨honly, hneeds⟩ := h a has c hmem lease' (hid ▸ hlease)
        rw [hop]
        refine ⟨honly, ?_⟩
        intro htransfers hpc
        exact hneeds htransfers (inTransfer_of_step hstep htransfers refused hpc)
      · exact h a has d (List.mem_of_mem_erase hd) lease' hlease
  | @ret a s c works has before stepped held =>
      obtain ⟨hmem, -, rfl⟩ := instanceStep_ret_eq stepped
      refine h.mono (fun work hwork => before.mem_iff.mpr (List.mem_cons_of_mem _ hwork)) ?_
      intro b hb
      cases hb
      exact ⟨a, has, fun _ hc => List.mem_of_mem_erase hc⟩
  | @retLast a s u c answers has before removed stepped destroyed =>
      obtain ⟨-, -, hover⟩ := instanceStep_destroy_frame destroyed
      have hreached := reachable_instanceStep
        (reachable_instanceStep (hlives.published a has).reached stepped) destroyed
      exact of_idle rfl ((owned_of_reachable hreached).ended hover).2.1
  | @lease a s c qpNum t index pool rest has before acquires stepped taken =>
      have hold := hlives.published a has
      obtain ⟨hmem, c', u, hstep, rfl⟩ := instanceStep_step_eq stepped
      have hmoves := callStep_anyMoves hstep
      have hid : c'.id = c.id := hmoves.id
      have hop : c'.op = c.op := hmoves.op
      have htransfers := acquire_transfers hold.reached c hmem acquires
      have hframe : .call p c.id none ∈ v.works := before.mem_iff.mpr List.mem_cons_self
      have hnodup := (before.filterMap Work.callId).nodup_iff.mp hold.callIds_nodup
      intro b hb d hd lease hlease
      cases hb
      rcases List.mem_cons.mp hd with rfl | hd
      · rcases List.mem_cons.mp hlease with heq | hlease
        · obtain ⟨-, -, rfl⟩ := Work.call.inj heq
          exact ⟨fun _ => hop ▸ htransfers, fun _ _ => rfl⟩
        · have hrest : c.id ∈ rest.filterMap Work.callId :=
            List.mem_filterMap.mpr ⟨_, hlease, congrArg some hid⟩
          exact absurd hrest (List.nodup_cons.mp hnodup).1
      · rcases List.mem_cons.mp hlease with heq | hlease
        · obtain ⟨-, hsame, -⟩ := Work.call.inj heq
          exact absurd hsame (hold.id_ne_of_mem_erase hmem hd)
        · exact h a has d (List.mem_of_mem_erase hd) lease
            (before.mem_iff.mpr (List.mem_cons_of_mem _ hlease))
  | @use a l l' leases others slot answers rest log has before after key takes keeps =>
      refine h.mono (fun _ hwork => hwork) ?_
      intro b hb
      cases hb
      exact ⟨a, has, fun _ hc => hc⟩
  | @giveBack a c l leases rest usable has mem before outside held =>
      have hold := hlives.published a has
      intro b hb d hd lease hlease
      cases hb.symm.trans has
      rcases List.mem_cons.mp hlease with heq | hlease
      · obtain ⟨-, hid, rfl⟩ := Work.call.inj heq
        obtain rfl := hold.call_eq mem hd hid
        refine ⟨?_, ?_⟩
        · intro hsome
          cases hsome
        · intro _ hpc
          cases outside.symm.trans hpc
      · exact h a has d hd lease (before.mem_iff.mpr (List.mem_cons_of_mem _ hlease))
  | @finishCopy a s copy has stepped =>
      obtain ⟨-, -, rfl⟩ := instanceStep_finishCopy_eq stepped
      refine h.mono (fun _ hwork => hwork) ?_
      intro b hb
      cases hb
      exact ⟨a, has, fun _ hc => hc⟩
  | @take a rest has current same =>
      intro b hb c hc lease hlease
      cases hb
      rcases List.mem_cons.mp hlease with heq | hlease
      · cases heq
      · exact h a has c hc lease (same.mem_iff.mp hlease)
  | @close a rest has before =>
      intro b hb c hc lease hlease
      rcases List.mem_cons.mp hlease with heq | hlease
      · cases heq
      · exact h b hb c hc lease (before.mem_iff.mpr (List.mem_cons_of_mem _ hlease))
  | @reset a works has before held =>
      refine h.mono (fun work hwork => before.mem_iff.mpr (List.mem_cons_of_mem _ hwork)) ?_
      intro b hb
      exact ⟨b, hb, fun _ hc => hc⟩
  | @resetLast a u answers has before removed destroyed =>
      obtain ⟨-, -, hover⟩ := instanceStep_destroy_frame destroyed
      have hreached := reachable_instanceStep (hlives.published a has).reached destroyed
      exact of_idle rfl ((owned_of_reachable hreached).ended hover).2.1

end TransfersOk

end Frames

/-! ### Every instance, in every state -/

section Runs

variable {T : Type} {p : Nat} {v w : InstanceView T}

/-- What holds of an instance. -/
structure ViewOk (p : Nat) (v : InstanceView T) : Prop where
  lives : Lives v
  leases : LeasesOk v
  books : BooksOk v
  closed : ClosedOk p v
  transfers : TransfersOk p v

theorem ViewOk.initial (p : Nat) : ViewOk p ((LibraryState.initial T).view p) := by
  have hpub : ((LibraryState.initial T).view p).pub = none := rfl
  refine ⟨⟨fun _ => ⟨rfl, rfl, rfl⟩, ?_⟩, .initial 0, ⟨?_, ?_⟩, ?_, ?_⟩
  · intro a ha
    cases hpub.symm.trans ha
  · intro a ha
    cases hpub.symm.trans ha
  · intro a ha
    cases hpub.symm.trans ha
  · intro hsome
    cases hsome
  · intro a ha
    cases hpub.symm.trans ha

theorem ViewOk.move (h : ViewOk p v) (hmove : ViewMove p v w) : ViewOk p w where
  lives := h.lives.move hmove
  leases := h.leases.move h.lives hmove
  books := h.books.move h.leases hmove
  closed := h.closed.move hmove
  transfers := h.transfers.move h.lives hmove

theorem viewOk_of_reachable [DecidableEq T] [Fintype T] {lib : LibraryState T}
    (h : (libraryMachine T).Reachable lib) (p : Nat) : ViewOk p (lib.view p) := by
  refine Machine.Reachable.invariant (I := fun lib => ∀ p, ViewOk p (lib.view p)) ?_ ?_ h p
  · intro lib hinit p
    rw [show lib = .initial T from hinit]
    exact .initial p
  · intro lib a lib' hreached hlib hstep p
    refine (hlib p).move ((libraryStep_move hstep).view (controlOk_of_reachable hreached) ?_ p)
    intro q hnone
    exact ((hlib q).lives.absent hnone).2.1

end Runs

end HipObject
