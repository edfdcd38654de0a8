import HipObject.Buffer.CallFacts

/-!
# Steps and what a call knows

One lemma for the step function of each program counter: from what a call has
done there follows what it has done after the step. `callStep_ok` puts them
together.
-/

namespace HipObject

open Verification

variable {setup : Setup} {s t u : InstanceState} {c c' : Call} {reply : Reply}
variable {inserted : List (Nat × BitVec 64 × Nat)} {locals : Locals} {result : OpError}
variable {info : Option PointerInfo}

/-! ### Registering -/

theorem startStep_ok (h : s.startStep c reply = some (c', u)) (hc : c.Fresh s.inserted) :
    PcOk u.inserted c' c'.pc := by
  unfold InstanceState.startStep at h
  split at h
  · rename_i devPtr size hop
    split at h
    · rename_i hargs
      cases h
      exact hc.ended (fun hok => absurd hok hargs) (by simp [Locals.empty]) (by simp [Locals.empty])
        rfl
    · rename_i hargs
      cases reply with
      | pointer info =>
          dsimp only at h
          split at h
          · cases h
            exact hc.ended (by simp) (by simp [Locals.empty]) (by simp [Locals.empty]) rfl
          · rename_i hrange
            cases h
            refine ⟨hc.goto _, by simp [Call.goto, hop, Op.registers], ?_, ?_⟩
            · simpa [Call.goto, hop, Op.devPtr, Op.size] using hargs
            · rintro i hi
              cases hi
              simpa [Call.goto, hop, Op.devPtr, Op.size] using hrange
      | threw =>
          cases h
          exact hc.ended (by simp) (by simp [Locals.empty]) (by simp [Locals.empty]) rfl
      | _ => cases h
  · rename_i hostPtr size hop
    split at h
    · rename_i hargs
      cases h
      exact hc.ended (fun hok => absurd hok hargs) (by simp [Locals.empty]) (by simp [Locals.empty])
        rfl
    · rename_i hargs
      cases h
      refine ⟨hc.goto _, by simp [Call.goto, hop, Op.registers], ?_, (by simp)⟩
      simpa [Call.goto, hop, Op.devPtr, Op.size] using hargs
  · rename_i devPtr hop
    split at h
    · cases h
      exact hc.ended (by simp) (by simp [Locals.empty]) (by simp [Locals.empty]) rfl
    · cases h
      exact ⟨hc.goto _, by simp [Call.goto, hop, Op.registers],
        by simp [Call.goto, hop, Op.usesBuffer]⟩
  · rename_i op hregister hregisterHost hderegister
    split at h
    · cases h
      refine ⟨hc.goto _, ?_⟩
      show c.op.usesBuffer = true
      cases hop : c.op with
      | register devPtr size => exact absurd hop (hregister devPtr size)
      | registerHost hostPtr size => exact absurd hop (hregisterHost hostPtr size)
      | deregister devPtr => exact absurd hop (hderegister devPtr)
      | _ => rfl
    · cases h
      exact hc.ended (by simp) (by simp [Locals.empty]) (by simp [Locals.empty]) rfl

/-- A refusal is never `Registered`. -/
theorem registrationError_refusal {key : BitVec 64} {refused : RegisterResult}
    (h : s.refusal key = some refused) : registrationError refused ≠ .Success := by
  unfold InstanceState.refusal at h
  split at h
  · cases h
    decide
  · split at h
    · cases h
      decide
    · cases h

theorem precheckStep_ok (h : s.precheckStep setup c info = some (c', u))
    (hc : c.Registering s.inserted info) : PcOk u.inserted c' c'.pc := by
  unfold InstanceState.precheckStep at h
  split at h
  · cases h
    exact hc.ended (by decide) rfl
  · split at h
    · rename_i refused hrefused
      cases h
      exact hc.ended (registrationError_refusal hrefused) rfl
    · split at h
      · cases h
        exact hc.goto _
      · cases h
        exact hc.goto _

theorem regDmabufMrStep_ok {fd : Nat} (h : s.regDmabufMrStep c info fd reply = some (c', u))
    (hc : c.Registering s.inserted info) : PcOk u.inserted c' c'.pc := by
  cases reply with
  | mr rkey =>
      cases h
      refine ⟨hc.goto _, ?_⟩
      rintro m hm
      cases hm
      exact (hc.goto _).direct rfl rfl
  | fail =>
      cases h
      exact ⟨hc.goto _, (by simp)⟩
  | threw =>
      cases h
      exact hc.ended (by decide) rfl
  | _ => cases h

theorem closeDmabufStep_ok {fd : Nat} {mr : Option Mr}
    (h : s.closeDmabufStep c info fd mr reply = some (c', u))
    (hc : c.Registering s.inserted info)
    (hmr : ∀ m, mr = some m → EntryOk (InstanceState.newEntry c info m none)) :
    PcOk u.inserted c' c'.pc := by
  cases mr with
  | some m =>
      cases h
      exact ⟨hc.goto _, hmr m rfl⟩
  | none =>
      cases reply with
      | threw =>
          cases h
          exact hc.ended (by decide) rfl
      | _ =>
          cases h
          exact hc.goto _

theorem regMrStep_ok (h : s.regMrStep c info reply = some (c', u))
    (hc : c.Registering s.inserted info) : PcOk u.inserted c' c'.pc := by
  cases reply with
  | mr rkey =>
      cases h
      exact ⟨hc.goto _, (hc.goto _).direct rfl rfl⟩
  | fail =>
      simp only [InstanceState.regMrStep] at h
      split at h
      · rename_i hinfo
        cases h
        exact ⟨hc.goto _, hinfo⟩
      · cases h
        exact hc.ended (by decide) rfl
  | threw =>
      cases h
      exact hc.ended (by decide) rfl
  | _ => cases h

theorem hostMallocStep_ok (h : s.hostMallocStep setup c info reply = some (c', u))
    (hc : c.Registering s.inserted info) (hinfo : info.isSome = true) :
    PcOk u.inserted c' c'.pc := by
  cases reply with
  | memory attr addr =>
      simp only [InstanceState.hostMallocStep] at h
      split at h
      · cases h
        exact hc.ended (by decide) rfl
      · cases addr with
        | none =>
            cases h
            exact hc.ended (by decide) rfl
        | some addr =>
            simp only [Option.ite_none_right_eq_some] at h
            obtain ⟨⟨-, hwrap⟩, h⟩ := h
            cases h
            exact ⟨hc.goto _, hinfo, rfl, hwrap⟩
  | threw =>
      cases h
      exact hc.ended (by decide) rfl
  | _ => cases h

theorem regStagingMrStep_ok {hostBuf : HostBuf}
    (h : s.regStagingMrStep c info hostBuf reply = some (c', u))
    (hc : c.Registering s.inserted info) (hinfo : info.isSome = true)
    (hsize : hostBuf.size = c.op.size)
    (hwrap : hostBuf.addr.toNat + c.op.size.toNat < 2 ^ 64) : PcOk u.inserted c' c'.pc := by
  cases reply with
  | mr rkey =>
      cases h
      exact ⟨hc.goto _, (hc.goto _).staged hinfo hsize hwrap rfl rfl⟩
  | fail | threw =>
      cases h
      exact hc.ended (by decide) rfl
  | _ => cases h

theorem buildStep_ok {mr : Mr} {hostBuf : Option HostBuf}
    (h : s.buildStep c info mr hostBuf reply = some (c', u))
    (hc : c.Registering s.inserted info) : PcOk u.inserted c' c'.pc := by
  cases reply with
  | ok =>
      cases h
      exact ⟨⟨hc.fresh.effects, hc.fresh.found, hc.fresh.blocked, hc.fresh.notInserted⟩, hc.op, rfl⟩
  | fail =>
      cases h
      exact hc.ended (by decide) rfl
  | _ => cases h

/-- The call returns success exactly where its entry goes into the map. -/
theorem insertStep_ok {entry : Nat} (h : s.insertStep c entry reply = some (c', u))
    (hc : c.Fresh s.inserted) (hop : c.op.registers = true) (hbuilt : c.built = some entry) :
    PcOk u.inserted c' c'.pc := by
  have hended : ∀ result ≠ OpError.Success,
      (c.ret { Locals.empty with entry := some entry } result).Ended s.inserted
        { Locals.empty with entry := some entry } result :=
    fun result hresult => hc.ended (fun hok => absurd hok hresult) (by simp [Locals.empty])
      (fun _ => usesBuffer_false_of_registers hop) rfl
  unfold InstanceState.insertStep at h
  split at h
  · rename_i refused hrefused
    cases h
    exact hended _ (registrationError_refusal hrefused)
  · cases reply with
    | ok =>
        cases h
        exact {
          found := fun e he => by cases hc.found.symm.trans he
          effects := fun hne => absurd hc.effects hne
          success := fun huses _ => by
            cases (registers_false_of_usesBuffer huses).symm.trans hop
          blocked := fun hblocked => by cases hc.blocked.symm.trans hblocked
          registered := fun _ => ⟨fun _ => ⟨entry, hbuilt, List.mem_cons_self⟩, fun _ => rfl⟩
          owns := by simp [Locals.empty]
          gives := by simp [Locals.empty]
          copy := rfl }
    | fail =>
        cases h
        exact hended _ (by simp)
    | _ => cases h

/-! ### Deregistering -/

@[simp] theorem dropRef_inserted (s : InstanceState) (i : Nat) :
    (s.dropRef i).inserted = s.inserted := by
  obtain ⟨deregistered, freed, leaked, heq⟩ := dropRef_eq s i
  rw [heq]

@[simp] theorem dropCopy_inserted (s : InstanceState) (copy : Copy) :
    (s.dropCopy copy).inserted = s.inserted := dropRef_inserted _ _

theorem reclaimStep_ok (h : s.reclaimStep c reply = some (c', u)) (hc : c.Fresh s.inserted)
    (hregisters : c.op.registers = false) (huses : c.op.usesBuffer = false) :
    PcOk u.inserted c' c'.pc := by
  cases reply with
  | statuses answers =>
      obtain ⟨⟨t, r⟩, hrelease, heq⟩ := Option.map_eq_some_iff.mp h
      obtain ⟨-, -, rfl⟩ := release_spec hrelease
      dsimp only at heq
      split at heq
      · cases heq
        exact hc.ended (by simp) (by simp [Locals.empty]) (by simp [Locals.empty]) rfl
      · cases heq
        exact ⟨hc.goto _, hregisters, huses⟩
  | _ => cases h

theorem removeStep_ok {ended : List Copy} (h : s.removeStep c ended = some (c', u))
    (hc : c.Fresh s.inserted) (hregisters : c.op.registers = false)
    (huses : c.op.usesBuffer = false) : PcOk u.inserted c' c'.pc := by
  cases ended with
  | cons copy rest =>
      cases h
      rw [dropCopy_inserted]
      exact ⟨hc.goto _, hregisters, huses⟩
  | nil =>
      simp only [InstanceState.removeStep] at h
      split at h
      · cases h
        exact hc.ended (by simp) (by simp [Locals.empty]) (by simp [Locals.empty]) rfl
      · obtain ⟨cell, -, heq⟩ := Option.map_eq_some_iff.mp h
        split at heq
        · cases heq
          exact hc.ended (by simp) (by simp [Locals.empty]) (by simp [Locals.empty]) rfl
        · cases heq
          exact hc.ended (fun _ => ⟨hregisters, huses⟩) (by simp [Locals.empty]) (fun _ => huses)
            rfl

/-! ### Using a buffer -/

theorem entryOk_of_entryAt {i : Nat} {e : BufEntry} (hheap : ∀ cell ∈ s.heap, EntryOk cell.value)
    (h : s.entryAt i = some e) : EntryOk e := by
  obtain ⟨cell, hlookup, rfl⟩ := Option.map_eq_some_iff.mp h
  exact hheap cell (Cell.lookup_some hlookup).1

theorem findStep_ok (h : s.findStep c = some (c', u)) (hc : c.Fresh s.inserted)
    (huses : c.op.usesBuffer = true)
    (hkeyed : ∀ x ∈ s.entries, ∃ e, s.entryAt x.2 = some e ∧ e.key = x.1)
    (hheap : ∀ cell ∈ s.heap, EntryOk cell.value) : PcOk u.inserted c' c'.pc := by
  unfold InstanceState.findStep at h
  split at h
  · cases h
    refine ⟨huses, ?_, hc.effects, hc.blocked, fun _ => hc.found⟩
    intro e he
    cases hc.found.symm.trans he
  · rename_i i hkey
    cases h
    refine ⟨huses, ?_, hc.effects, hc.blocked, (by simp)⟩
    intro e he
    obtain ⟨e', he', hkey⟩ := hkeyed _ (lookupKey_mem hkey)
    obtain rfl : e' = e := Option.some.inj (he'.symm.trans he)
    exact ⟨entryOk_of_entryAt hheap he, hkey⟩

theorem checkBufferArgsStep_ok {buf : Option Nat}
    (h : s.checkBufferArgsStep c buf = some (c', u)) (huses : c.op.usesBuffer = true)
    (hfound : c.Found) (heffects : c.effects = []) (hblocked : c.blocked = false)
    (hbuf : ∀ i, buf = some i → s.entryAt i = c.found) : PcOk u.inserted c' c'.pc := by
  unfold InstanceState.checkBufferArgsStep at h
  split at h
  · rename_i i hargs
    cases h
    obtain ⟨-, hpos, entry, hentry, hnonneg, hend⟩ := checkBufferArgs_success hargs
    refine ⟨⟨huses, hfound, entry, ?_, hpos, hnonneg, hend⟩, heffects, hblocked⟩
    exact (hbuf i rfl).symm.trans hentry
  · rename_i hother
    cases h
    refine Call.ended_of_error huses hfound heffects ?_
      (fun h => by cases hblocked.symm.trans h) rfl rfl rfl rfl rfl
    intro hok
    obtain ⟨-, -, entry, hentry, -⟩ := checkBufferArgs_success hok
    obtain ⟨i, hi, -⟩ := Option.bind_eq_some_iff.mp hentry
    exact hother i hi hok

theorem checkNoAbandonedCopyStep_ok {buf : Nat}
    (h : s.checkNoAbandonedCopyStep c buf reply = some (c', u)) (hc : c.Using)
    (heffects : c.effects = []) (hblocked : c.blocked = false) : PcOk u.inserted c' c'.pc := by
  obtain ⟨entry, -, h⟩ := Option.bind_eq_some_iff.mp h
  split at h
  · cases h
    exact ⟨hc.goto _, heffects, hblocked⟩
  · cases reply with
    | statuses answers =>
        obtain ⟨⟨t, r⟩, hrelease, heq⟩ := Option.map_eq_some_iff.mp h
        dsimp only at heq
        split at heq
        · cases heq
          exact Call.ended_of_error hc.op hc.found heffects (by simp)
            (fun h => by cases hblocked.symm.trans h) rfl rfl rfl rfl rfl
        · cases heq
          exact ⟨⟨hc.op, hc.found, hc.fits⟩, heffects, rfl⟩
    | _ => cases h

theorem checkedStep_ok {buf : Nat} {stillRunning : Bool} {ended : List Copy}
    (h : s.checkedStep setup c buf stillRunning ended = some (c', u)) (hc : c.Using)
    (heffects : c.effects = []) (hblocked : c.blocked = stillRunning) :
    PcOk u.inserted c' c'.pc := by
  cases ended with
  | cons copy rest =>
      cases h
      exact ⟨hc.goto _, heffects, hblocked⟩
  | nil =>
      simp only [InstanceState.checkedStep] at h
      split at h
      · cases h
        exact Call.ended_of_error hc.op hc.found heffects (by simp) (fun _ => rfl) rfl rfl rfl rfl
          rfl
      · rename_i hnot
        have hworking : c.Working :=
          ⟨hc, hblocked.trans (by simpa using hnot), by simp [heffects]⟩
        split at h
        all_goals first
          | (cases h; exact hworking.goto _)
          | cases h

/-! ### Transferring and staging -/

theorem buildTokenStep_ok {buf : Nat} {qpNum : BitVec 32}
    (h : s.buildTokenStep setup c buf qpNum reply = some (c', u)) (hc : c.Working)
    (hbuf : s.entryAt buf = c.found) : PcOk u.inserted c' c'.pc := by
  obtain ⟨entry, hentry, h⟩ := Option.bind_eq_some_iff.mp h
  split at h
  · cases h
    exact hc.ended rfl rfl rfl rfl rfl
  · rename_i token htoken
    have hnoted : (c.note (.minted token)).Working := by
      refine hc.note _ fun token' heq => ?_
      cases heq
      exact ⟨entry, setup.device, qpNum, hbuf.symm.trans hentry, htoken⟩
    dsimp only at h
    split at h
    · cases h
      exact hnoted.ended rfl rfl rfl rfl rfl
    · cases h
      exact hnoted.ended rfl rfl rfl rfl rfl
    · cases h
    · cases h
      exact hnoted.goto _

theorem afterStage_ok {buf : Nat} (h : s.afterStage c buf = (c', u)) (hc : c.Working) :
    PcOk u.inserted c' c'.pc := by
  unfold InstanceState.afterStage at h
  split at h
  · cases h
    exact hc.goto _
  · cases h
    exact hc.ended rfl rfl rfl rfl rfl

theorem stageStep_ok {buf : Nat} (h : s.stageStep c buf reply = some (c', u)) (hc : c.Working) :
    PcOk u.inserted c' c'.pc := by
  obtain ⟨entry, -, h⟩ := Option.bind_eq_some_iff.mp h
  split at h
  · exact afterStage_ok (Option.some.inj h) hc
  · split at h
    · cases h
      exact hc.ended rfl rfl rfl rfl rfl
    · cases reply with
      | ok =>
          cases h
          exact hc.goto _
      | fail =>
          cases h
          exact hc.ended rfl rfl rfl rfl rfl
      | _ => cases h

theorem memcpyAsyncStep_ok {buf event : Nat}
    (h : s.memcpyAsyncStep c buf event reply = some (c', u))
    (hc : c.Working) : PcOk u.inserted c' c'.pc := by
  cases reply with
  | ok =>
      obtain ⟨entry, -, h⟩ := Option.bind_eq_some_iff.mp h
      obtain ⟨hostBuf, -, heq⟩ := Option.map_eq_some_iff.mp h
      cases heq
      exact ⟨(hc.goto _).note _ (by simp), List.mem_cons_self, rfl⟩
  | fail | threw =>
      cases h
      exact hc.ended rfl rfl rfl rfl rfl
  | _ => cases h

theorem eventQueryStep_ok {buf event : Nat} {copy : StagingCopy}
    (h : s.eventQueryStep c buf event copy reply = some (c', u)) (hc : c.Working)
    (hstarted : .startedCopy copy ∈ c.effects ∧ copy.entry = buf) : PcOk u.inserted c' c'.pc := by
  cases reply with
  | status status expired =>
      cases status with
      | notReady =>
          simp only [InstanceState.eventQueryStep] at h
          split at h
          · cases h
            exact ⟨hc.goto _, hstarted⟩
          · cases h
            exact ⟨hc.goto _, hstarted⟩
      | success =>
          simp only [InstanceState.eventQueryStep, Option.ite_none_right_eq_some] at h
          obtain ⟨-, h⟩ := h
          cases h
          exact hc.goto _
      | error =>
          simp only [InstanceState.eventQueryStep, Option.ite_none_right_eq_some] at h
          obtain ⟨-, h⟩ := h
          cases h
          exact hc.ended rfl rfl rfl rfl rfl
  | threw =>
      cases h
      exact hc.ended rfl rfl rfl rfl rfl
  | _ => cases h

/-! ### Unwinding -/

/-- What a call has done doesn't change as its variables are destroyed. -/
theorem Call.Ended.ret {locals' : Locals} (h : c.Ended inserted locals result)
    (howns : locals'.mr.isSome ∨ locals'.hostBuf.isSome ∨ locals'.fd.isSome →
      locals.mr.isSome ∨ locals.hostBuf.isSome ∨ locals.fd.isSome)
    (hgives : locals'.mr.isSome ∨ locals'.entry.isSome → locals.mr.isSome ∨ locals.entry.isSome)
    (hcopy : locals'.copy = locals.copy) :
    (c.ret locals' result).Ended inserted locals' result where
  found := h.found
  effects := fun hne =>
    have hw := h.effects hne; ⟨⟨hw.op, hw.found, hw.fits⟩, hw.blocked, hw.tokens⟩
  success := fun huses hok =>
    have hw := h.success huses hok; ⟨⟨hw.op, hw.found, hw.fits⟩, hw.blocked, hw.tokens⟩
  blocked := h.blocked
  registered := h.registered
  owns := fun hsome => h.owns (howns hsome)
  gives := fun hsome => h.gives (hgives hsome)
  copy := hcopy.trans h.copy

theorem unwindStep_ok (h : s.unwindStep c locals result = some (c', u))
    (hc : c.Ended s.inserted locals result) : PcOk u.inserted c' c'.pc := by
  unfold InstanceState.unwindStep at h
  split at h
  · cases h
    rw [dropCopy_inserted]
    exact hc.ret id id rfl
  · cases h
    exact hc.ret (by simp; tauto) id rfl
  · cases h
    exact hc.ret id id rfl
  · cases h
    exact hc.ret id id rfl
  · cases h
    exact hc.ret (by simp; tauto) (by simp; tauto) rfl
  · cases h
    exact hc.ret (by simp; tauto) id rfl
  · cases h
    rw [dropRef_inserted]
    exact hc.ret id (by simp; tauto) rfl
  · cases h
    rw [dropRef_inserted]
    exact hc.ret id id rfl
  · cases h

/-! ### Every step -/

/-- The step lemma for the call that moves. -/
theorem callStep_ok (h : s.callStep setup c reply = some (c', u)) (hc : PcOk s.inserted c c.pc)
    (hfound : ∀ i, c.pc.locals.buf = some i → s.entryAt i = c.found)
    (hkeyed : ∀ x ∈ s.entries, ∃ e, s.entryAt x.2 = some e ∧ e.key = x.1)
    (hheap : ∀ cell ∈ s.heap, EntryOk cell.value) : PcOk u.inserted c' c'.pc := by
  unfold InstanceState.callStep at h
  cases hpc : c.pc with
  | start =>
      rw [hpc] at h hc
      exact startStep_ok h hc
  | precheck info =>
      rw [hpc] at h hc
      exact precheckStep_ok h hc
  | exportDmabuf info =>
      rw [hpc] at h hc
      have hc : c.Registering s.inserted info := hc
      cases reply with
      | ok =>
          cases h
          exact hc.goto _
      | fail =>
          cases h
          exact hc.goto _
      | threw =>
          cases h
          exact hc.ended (by decide) rfl
      | _ => cases h
  | regDmabufMr info fd =>
      rw [hpc] at h hc
      exact regDmabufMrStep_ok h hc
  | closeDmabuf info fd mr =>
      rw [hpc] at h hc
      exact closeDmabufStep_ok h hc.1 hc.2
  | regMr info =>
      rw [hpc] at h hc
      exact regMrStep_ok h hc
  | hostMalloc info =>
      rw [hpc] at h hc
      exact hostMallocStep_ok h hc.1 hc.2
  | regStagingMr info hostBuf =>
      rw [hpc] at h hc
      obtain ⟨hc, hinfo, hsize, hwrap⟩ := hc
      exact regStagingMrStep_ok h hc hinfo hsize hwrap
  | build info mr hostBuf =>
      rw [hpc] at h hc
      exact buildStep_ok h hc.1
  | insert entry =>
      rw [hpc] at h hc
      obtain ⟨hc, hop, hbuilt⟩ := hc
      exact insertStep_ok h hc hop hbuilt
  | reclaim =>
      rw [hpc] at h hc
      obtain ⟨hc, hregisters, huses⟩ := hc
      exact reclaimStep_ok h hc hregisters huses
  | remove ended =>
      rw [hpc] at h hc
      obtain ⟨hc, hregisters, huses⟩ := hc
      exact removeStep_ok h hc hregisters huses
  | find =>
      rw [hpc] at h hc
      exact findStep_ok h hc.1 hc.2 hkeyed hheap
  | checkBufferArgs buf =>
      rw [hpc] at h hc hfound
      obtain ⟨huses, hknown, heffects, hblocked, -⟩ := hc
      exact checkBufferArgsStep_ok h huses hknown heffects hblocked hfound
  | checkNoAbandonedCopy buf =>
      rw [hpc] at h hc
      obtain ⟨hc, heffects, hblocked⟩ := hc
      exact checkNoAbandonedCopyStep_ok h hc heffects hblocked
  | checked buf ended stillRunning =>
      rw [hpc] at h hc
      obtain ⟨hc, heffects, hblocked⟩ := hc
      exact checkedStep_ok h hc heffects hblocked
  | acquire buf =>
      rw [hpc] at h hc
      have hc : c.Working := hc
      cases reply with
      | lease outcome =>
          cases outcome with
          | error e =>
              cases h
              exact hc.ended rfl rfl rfl rfl rfl
          | ok qpNum =>
              cases h
              exact (hc.goto _).note _ (by simp)
      | threw =>
          cases h
          exact hc.ended rfl rfl rfl rfl rfl
      | _ => cases h
  | buildToken buf qpNum =>
      rw [hpc] at h hc hfound
      exact buildTokenStep_ok h hc (hfound buf rfl)
  | sendRequest buf =>
      rw [hpc] at h hc
      have hc : c.Working := hc
      cases reply with
      | ok =>
          cases h
          exact (hc.goto _).note .sentRequest (by simp)
      | fail =>
          cases h
          exact (hc.note .sentRequest (by simp)).ended rfl rfl rfl rfl rfl
      | threw =>
          cases h
          exact (hc.note .sentRequest (by simp)).ended rfl rfl rfl rfl rfl
      | _ => cases h
  | recvReply buf =>
      rw [hpc] at h hc
      have hc : c.Working := hc
      cases reply with
      | ok =>
          cases h
          exact (hc.goto _).note .receivedReply (by simp)
      | fail =>
          cases h
          exact (hc.note .receivedReply (by simp)).ended rfl rfl rfl rfl rfl
      | threw =>
          cases h
          exact (hc.note .receivedReply (by simp)).ended rfl rfl rfl rfl rfl
      | _ => cases h
  | finishTransfer buf =>
      rw [hpc] at h hc
      have hc : c.Working := hc
      cases reply with
      | ok =>
          simp only [InstanceState.finishTransferStep] at h
          split at h
          · cases h
            exact hc.goto _
          · cases h
            exact hc.ended rfl rfl rfl rfl rfl
      | fail | threw =>
          cases h
          exact hc.ended rfl rfl rfl rfl rfl
      | _ => cases h
  | stage buf =>
      rw [hpc] at h hc
      exact stageStep_ok h hc
  | eventCreate buf =>
      rw [hpc] at h hc
      have hc : c.Working := hc
      cases reply with
      | ok =>
          cases h
          exact hc.goto _
      | fail | threw =>
          cases h
          exact hc.ended rfl rfl rfl rfl rfl
      | _ => cases h
  | memcpyAsync buf event =>
      rw [hpc] at h hc
      exact memcpyAsyncStep_ok h hc
  | eventRecord buf event copy =>
      rw [hpc] at h hc
      obtain ⟨hc, hstarted⟩ := hc
      cases reply with
      | ok =>
          cases h
          exact ⟨hc.goto _, hstarted⟩
      | fail | threw =>
          cases h
          exact hc.ended rfl rfl rfl rfl rfl
      | _ => cases h
  | eventQuery buf event copy =>
      rw [hpc] at h hc
      exact eventQueryStep_ok h hc.1 hc.2
  | add buf event copy =>
      rw [hpc] at h hc
      have hc : c.Working := hc.1
      cases h
      exact hc.ended rfl rfl rfl rfl rfl
  | staged buf event =>
      rw [hpc] at h hc
      have hc : c.Working := hc
      cases event with
      | some event =>
          cases h
          exact hc.goto _
      | none => exact afterStage_ok (Option.some.inj h) hc
  | unwind locals result =>
      rw [hpc] at h hc
      exact unwindStep_ok h hc

end HipObject
