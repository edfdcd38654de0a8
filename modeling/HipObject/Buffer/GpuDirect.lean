import HipObject.Buffer.Tokens

/-!
# Strict GPU-direct mode

With `requireGpuDirect`, `registerBuffer` does not fall back on a staging buffer
for device memory: the NIC gets the device memory itself, or the registration
fails. It asks HIP a second time where the memory is before it falls back, so
this holds of runs in which HIP says the same both times.

Without `DmabufPolicy::enabled` no dma-buf is exported.
-/

namespace HipObject

open Verification

variable {setup : Setup} {s t u : InstanceState} {c c' : Call} {reply : Reply}

/-! ### What the options allow -/

/-- Whether HIP reported a pointer as device memory. -/
def onDevice (info : Option PointerInfo) : Bool := info.any fun i => isDevicePointer i.attr

/-- An entry for device memory has no staging buffer. -/
def BufEntry.Direct (e : BufEntry) : Prop := onDevice e.info = true → e.hostBuf = none

/-- Where a call can be: with a dma-buf only if they are enabled, and in strict
mode with a staging buffer to put in an entry only for memory that isn't the
GPU's. -/
def Pc.Allowed (setup : Setup) : Pc → Prop
  | .exportDmabuf _ => setup.dmabufEnabled = true
  | .regDmabufMr _ _ => setup.dmabufEnabled = true
  | .closeDmabuf _ _ _ => setup.dmabufEnabled = true
  | .unwind locals _ => locals.fd.isSome → setup.dmabufEnabled = true
  | .regStagingMr info _ => setup.requireGpuDirect = true → onDevice info = false
  | .build info _ (some _) => setup.requireGpuDirect = true → onDevice info = false
  | _ => True

theorem Pc.Allowed.dmabufEnabled {pc : Pc} (h : pc.Allowed setup) (hfd : pc.locals.fd.isSome) :
    setup.dmabufEnabled = true := by
  cases pc with
  | regDmabufMr _ _ => exact h
  | closeDmabuf _ _ _ => exact h
  | unwind locals _ => exact h hfd
  | _ => cases hfd

/-- A step to where the options allow it, and that starts no copy. -/
structure Ordinary (setup : Setup) (c c' : Call) : Prop where
  pc : c'.pc.Allowed setup
  effects : ∀ k, .startedCopy k ∈ c'.effects → .startedCopy k ∈ c.effects

namespace Ordinary

theorem goto {pc : Pc} (h : pc.Allowed setup) : Ordinary setup c (c.goto pc) :=
  ⟨h, fun _ hk => hk⟩

theorem ret {locals : Locals} {result : OpError}
    (h : locals.fd.isSome → setup.dmabufEnabled = true) : Ordinary setup c (c.ret locals result) :=
  ⟨h, fun _ hk => hk⟩

/-- The call ends with no dma-buf open. -/
theorem ret_closed {locals : Locals} {result : OpError} (h : locals.fd = none) :
    Ordinary setup c (c.ret locals result) := by
  refine ret ?_
  intro hfd
  rw [h] at hfd
  cases hfd

/-- The outside sees something that isn't a copy. -/
theorem note {effect : Effect} (h : Ordinary setup (c.note effect) c')
    (hne : ∀ k, effect ≠ .startedCopy k) : Ordinary setup c c' where
  pc := h.pc
  effects := by
    intro k hk
    rcases List.mem_cons.mp (h.effects k hk) with heq | hk
    · exact absurd heq.symm (hne k)
    · exact hk

theorem goto_note {pc : Pc} {effect : Effect} (h : pc.Allowed setup)
    (hne : ∀ k, effect ≠ .startedCopy k) : Ordinary setup c ((c.goto pc).note effect) :=
  note (goto h) hne

end Ordinary

/-! ### Ordinary steps -/

section Steps

variable {buf event : Nat} {info : Option PointerInfo}

theorem startStep_ordinary (h : s.startStep c reply = some (c', u)) : Ordinary setup c c' := by
  unfold InstanceState.startStep at h
  split at h
  · split at h
    · cases h
      exact .ret_closed rfl
    · split at h
      · split at h
        · cases h
          exact .ret_closed rfl
        · cases h
          exact .goto trivial
      · cases h
        exact .ret_closed rfl
      · cases h
  · split at h
    · cases h
      exact .ret_closed rfl
    · cases h
      exact .goto trivial
  · split at h
    · cases h
      exact .ret_closed rfl
    · cases h
      exact .goto trivial
  · split at h
    · cases h
      exact .goto trivial
    · cases h
      exact .ret_closed rfl

theorem precheckStep_ordinary (h : s.precheckStep setup c info = some (c', u)) :
    Ordinary setup c c' := by
  unfold InstanceState.precheckStep at h
  split at h
  · cases h
    exact .ret_closed rfl
  · split at h
    · cases h
      exact .ret_closed rfl
    · split at h
      · rename_i hdmabuf
        cases h
        simp only [Bool.and_eq_true] at hdmabuf
        exact .goto hdmabuf.1.2
      · cases h
        exact .goto trivial

theorem insertStep_ordinary {entry : Nat} (h : s.insertStep c entry reply = some (c', u)) :
    Ordinary setup c c' := by
  unfold InstanceState.insertStep at h
  split at h
  · cases h
    exact .ret_closed rfl
  · split at h
    · cases h
      exact .ret_closed rfl
    · cases h
      exact .ret_closed rfl
    · cases h

theorem reclaimStep_ordinary (h : s.reclaimStep c reply = some (c', u)) : Ordinary setup c c' := by
  unfold InstanceState.reclaimStep at h
  split at h
  · obtain ⟨⟨v, r⟩, -, heq⟩ := Option.map_eq_some_iff.mp h
    dsimp only at heq
    split at heq
    · cases heq
      exact .ret_closed rfl
    · cases heq
      exact .goto trivial
  · cases h

theorem removeStep_ordinary {ended : List Copy} (h : s.removeStep c ended = some (c', u)) :
    Ordinary setup c c' := by
  unfold InstanceState.removeStep at h
  split at h
  · cases h
    exact .goto trivial
  · split at h
    · cases h
      exact .ret_closed rfl
    · obtain ⟨cell, -, heq⟩ := Option.map_eq_some_iff.mp h
      split at heq
      · cases heq
        exact .ret_closed rfl
      · cases heq
        exact .ret_closed rfl

theorem checkNoAbandonedCopyStep_ordinary
    (h : s.checkNoAbandonedCopyStep c buf reply = some (c', u)) : Ordinary setup c c' := by
  obtain ⟨entry, -, h⟩ := Option.bind_eq_some_iff.mp h
  split at h
  · cases h
    exact .goto trivial
  · split at h
    · obtain ⟨⟨v, r⟩, -, heq⟩ := Option.map_eq_some_iff.mp h
      dsimp only at heq
      split at heq
      · cases heq
        exact .ret_closed rfl
      · cases heq
        exact ⟨trivial, fun _ hk => hk⟩
    · cases h

theorem checkedStep_ordinary {ended : List Copy} {stillRunning : Bool}
    (h : s.checkedStep setup c buf stillRunning ended = some (c', u)) : Ordinary setup c c' := by
  unfold InstanceState.checkedStep at h
  split at h
  · cases h
    exact .goto trivial
  · split at h
    · cases h
      exact .ret_closed rfl
    · split at h
      all_goals cases h
      all_goals exact .goto trivial

theorem buildTokenStep_ordinary {qpNum : BitVec 32}
    (h : s.buildTokenStep setup c buf qpNum reply = some (c', u)) : Ordinary setup c c' := by
  obtain ⟨entry, -, h⟩ := Option.bind_eq_some_iff.mp h
  split at h
  · cases h
    exact .ret_closed rfl
  · dsimp only at h
    split at h
    · cases h
      exact .note (.ret_closed rfl) (by simp)
    · cases h
      exact .note (.ret_closed rfl) (by simp)
    · cases h
    · cases h
      exact .note (.goto trivial) (by simp)

theorem afterStage_ordinary (h : s.afterStage c buf = (c', u)) : Ordinary setup c c' := by
  unfold InstanceState.afterStage at h
  split at h
  · cases h
    exact .goto trivial
  · cases h
    exact .ret_closed rfl

theorem stageStep_ordinary (h : s.stageStep c buf reply = some (c', u)) : Ordinary setup c c' := by
  obtain ⟨entry, -, h⟩ := Option.bind_eq_some_iff.mp h
  split at h
  · exact afterStage_ordinary (Option.some.inj h)
  · split at h
    · cases h
      exact .ret_closed rfl
    · split at h
      · cases h
        exact .goto trivial
      · cases h
        exact .ret_closed rfl
      · cases h

theorem eventQueryStep_ordinary {copy : StagingCopy}
    (h : s.eventQueryStep c buf event copy reply = some (c', u)) : Ordinary setup c c' := by
  unfold InstanceState.eventQueryStep at h
  split at h
  · dsimp only at h
    split at h
    · split at h
      · cases h
        exact .goto trivial
      · cases h
        exact .goto trivial
    · simp only [Option.ite_none_right_eq_some] at h
      obtain ⟨-, h⟩ := h
      cases h
      exact .goto trivial
    · simp only [Option.ite_none_right_eq_some] at h
      obtain ⟨-, h⟩ := h
      cases h
      exact .ret_closed rfl
  · cases h
    exact .ret_closed rfl
  · cases h

theorem unwindStep_ordinary {locals : Locals} {result : OpError}
    (h : s.unwindStep c locals result = some (c', u))
    (hfd : locals.fd.isSome → setup.dmabufEnabled = true) : Ordinary setup c c' := by
  unfold InstanceState.unwindStep at h
  split at h
  · cases h
    exact .ret hfd
  · cases h
    exact .ret_closed rfl
  all_goals cases h
  all_goals exact .ret hfd

end Steps

/-! ### Every step -/

/-- What a step of a call does about dma-bufs and staging buffers. -/
inductive DirectStep (setup : Setup) (s : InstanceState) (reply : Reply) (c c' : Call) : Prop
  | ordinary (step : Ordinary setup c c')
  /-- The call has a staging buffer, after HIP was asked where the memory is. -/
  | allocates {info : Option PointerInfo} {attr : Option MemoryType} {addr : Option (BitVec 64)}
      {hostBuf : HostBuf} (before : c.pc = .hostMalloc info) (answer : reply = .memory attr addr)
      (allowed : isDevicePointer attr = true → setup.requireGpuDirect = false)
      (after : c'.pc = .regStagingMr info hostBuf) (effects : c'.effects = c.effects)
  | copies {buf event : Nat} {k : StagingCopy} {entry : BufEntry}
      (before : c.pc = .memcpyAsync buf event) (present : s.entryAt buf = some entry)
      (hostBuf : entry.hostBuf = some k.hostBuf) (after : c'.pc.Allowed setup)
      (effects : c'.effects = .startedCopy k :: c.effects)

theorem hostMallocStep_direct {info : Option PointerInfo} (hpc : c.pc = .hostMalloc info)
    (h : s.hostMallocStep setup c info reply = some (c', u)) : DirectStep setup s reply c c' := by
  cases reply with
  | memory attr addr =>
      simp only [InstanceState.hostMallocStep] at h
      split at h
      · cases h
        exact .ordinary (.ret_closed rfl)
      · rename_i hallowed
        split at h
        · cases h
          exact .ordinary (.ret_closed rfl)
        · simp only [Option.ite_none_right_eq_some] at h
          obtain ⟨-, h⟩ := h
          cases h
          refine .allocates hpc rfl ?_ rfl rfl
          intro hdevice
          simpa [hdevice] using hallowed
  | threw =>
      cases h
      exact .ordinary (.ret_closed rfl)
  | _ => cases h

theorem memcpyAsyncStep_direct {buf event : Nat} (hpc : c.pc = .memcpyAsync buf event)
    (h : s.memcpyAsyncStep c buf event reply = some (c', u)) :
    DirectStep setup s reply c c' := by
  cases reply with
  | ok =>
      obtain ⟨entry, hentry, h⟩ := Option.bind_eq_some_iff.mp h
      obtain ⟨hostBuf, hstaged, heq⟩ := Option.map_eq_some_iff.mp h
      cases heq
      exact .copies hpc hentry hstaged trivial rfl
  | fail | threw =>
      cases h
      exact .ordinary (.ret_closed rfl)
  | _ => cases h

theorem callStep_direct (h : s.callStep setup c reply = some (c', u))
    (hc : c.pc.Allowed setup) : DirectStep setup s reply c c' := by
  unfold InstanceState.callStep at h
  cases hpc : c.pc with
  | start => exact .ordinary (startStep_ordinary (by simpa only [hpc] using h))
  | precheck info => exact .ordinary (precheckStep_ordinary (by simpa only [hpc] using h))
  | hostMalloc info => exact hostMallocStep_direct hpc (by simpa only [hpc] using h)
  | insert entry => exact .ordinary (insertStep_ordinary (by simpa only [hpc] using h))
  | reclaim => exact .ordinary (reclaimStep_ordinary (by simpa only [hpc] using h))
  | remove ended => exact .ordinary (removeStep_ordinary (by simpa only [hpc] using h))
  | checkNoAbandonedCopy buf =>
      exact .ordinary (checkNoAbandonedCopyStep_ordinary (by simpa only [hpc] using h))
  | checked buf ended stillRunning =>
      exact .ordinary (checkedStep_ordinary (by simpa only [hpc] using h))
  | buildToken buf qpNum => exact .ordinary (buildTokenStep_ordinary (by simpa only [hpc] using h))
  | stage buf => exact .ordinary (stageStep_ordinary (by simpa only [hpc] using h))
  | memcpyAsync buf event => exact memcpyAsyncStep_direct hpc (by simpa only [hpc] using h)
  | eventQuery buf event copy =>
      exact .ordinary (eventQueryStep_ordinary (by simpa only [hpc] using h))
  | unwind locals result =>
      rw [hpc] at hc
      exact .ordinary (unwindStep_ordinary (by simpa only [hpc] using h) hc)
  | exportDmabuf info =>
      rw [hpc] at h hc
      cases reply with
      | ok =>
          cases h
          exact .ordinary (.goto hc)
      | fail =>
          cases h
          exact .ordinary (.goto trivial)
      | threw =>
          cases h
          exact .ordinary (.ret_closed rfl)
      | _ => cases h
  | regDmabufMr info fd =>
      rw [hpc] at h hc
      cases reply with
      | mr rkey =>
          cases h
          exact .ordinary (.goto hc)
      | fail =>
          cases h
          exact .ordinary (.goto hc)
      | threw =>
          cases h
          exact .ordinary (.ret fun _ => hc)
      | _ => cases h
  | closeDmabuf info fd mr =>
      rw [hpc] at h hc
      cases mr with
      | some mr =>
          cases h
          exact .ordinary (.goto trivial)
      | none =>
          cases reply with
          | threw =>
              cases h
              exact .ordinary (.ret fun _ => hc)
          | _ =>
              cases h
              exact .ordinary (.goto trivial)
  | regMr info =>
      rw [hpc] at h
      cases reply with
      | mr rkey =>
          cases h
          exact .ordinary (.goto trivial)
      | fail =>
          simp only [InstanceState.regMrStep] at h
          split at h
          · cases h
            exact .ordinary (.goto trivial)
          · cases h
            exact .ordinary (.ret_closed rfl)
      | threw =>
          cases h
          exact .ordinary (.ret_closed rfl)
      | _ => cases h
  | regStagingMr info hostBuf =>
      rw [hpc] at h hc
      cases reply with
      | mr rkey =>
          cases h
          exact .ordinary (.goto hc)
      | fail | threw =>
          cases h
          exact .ordinary (.ret_closed rfl)
      | _ => cases h
  | build info mr hostBuf =>
      rw [hpc] at h
      cases reply with
      | ok =>
          cases h
          exact .ordinary ⟨trivial, fun _ hk => hk⟩
      | fail =>
          cases h
          exact .ordinary (.ret_closed rfl)
      | _ => cases h
  | find =>
      simp only [hpc, InstanceState.findStep] at h
      split at h
      · cases h
        exact .ordinary (.goto trivial)
      · cases h
        exact .ordinary ⟨trivial, fun _ hk => hk⟩
  | checkBufferArgs buf =>
      simp only [hpc, InstanceState.checkBufferArgsStep] at h
      split at h
      · cases h
        exact .ordinary (.goto trivial)
      · cases h
        exact .ordinary (.ret_closed rfl)
  | acquire buf =>
      rw [hpc] at h
      cases reply with
      | lease outcome =>
          cases outcome with
          | error e =>
              cases h
              exact .ordinary (.ret_closed rfl)
          | ok qpNum =>
              cases h
              exact .ordinary (.goto_note trivial (by simp))
      | threw =>
          cases h
          exact .ordinary (.ret_closed rfl)
      | _ => cases h
  | sendRequest buf =>
      rw [hpc] at h
      cases reply with
      | ok =>
          cases h
          exact .ordinary (.goto_note trivial (by simp))
      | fail =>
          cases h
          exact .ordinary (.note (.ret_closed rfl) (by simp))
      | threw =>
          cases h
          exact .ordinary (.note (.ret_closed rfl) (by simp))
      | _ => cases h
  | recvReply buf =>
      rw [hpc] at h
      cases reply with
      | ok =>
          cases h
          exact .ordinary (.goto_note trivial (by simp))
      | fail =>
          cases h
          exact .ordinary (.note (.ret_closed rfl) (by simp))
      | threw =>
          cases h
          exact .ordinary (.note (.ret_closed rfl) (by simp))
      | _ => cases h
  | finishTransfer buf =>
      rw [hpc] at h
      cases reply with
      | ok =>
          simp only [InstanceState.finishTransferStep] at h
          split at h
          · cases h
            exact .ordinary (.goto trivial)
          · cases h
            exact .ordinary (.ret_closed rfl)
      | fail | threw =>
          cases h
          exact .ordinary (.ret_closed rfl)
      | _ => cases h
  | eventCreate buf =>
      rw [hpc] at h
      cases reply with
      | ok =>
          cases h
          exact .ordinary (.goto trivial)
      | fail | threw =>
          cases h
          exact .ordinary (.ret_closed rfl)
      | _ => cases h
  | eventRecord buf event copy =>
      rw [hpc] at h
      cases reply with
      | ok =>
          cases h
          exact .ordinary (.goto trivial)
      | fail | threw =>
          cases h
          exact .ordinary (.ret_closed rfl)
      | _ => cases h
  | add buf event copy =>
      rw [hpc] at h
      cases h
      exact .ordinary (.ret_closed rfl)
  | staged buf event =>
      rw [hpc] at h
      cases event with
      | some event =>
          cases h
          exact .ordinary (.goto trivial)
      | none => exact .ordinary (afterStage_ordinary (Option.some.inj h))

/-! ### Runs -/

/-- HIP says the same about a pointer when a registration asks again. -/
def SameAnswer : InstanceAction → Prop
  | .step c (.memory attr _) => ∀ info, c.pc = .hostMalloc (some info) → attr = info.attr
  | _ => True

/-- What the options bring about in a state. -/
structure Governed (setup : Setup) (s : InstanceState) : Prop where
  calls : ∀ c ∈ s.allCalls, c.pc.Allowed setup
  opened : setup.dmabufEnabled = false → s.opened = []
  heap : setup.requireGpuDirect = true → ∀ cell ∈ s.heap, cell.value.Direct
  found : setup.requireGpuDirect = true → ∀ c ∈ s.allCalls, ∀ e, c.found = some e → e.Direct
  copies : ∀ c ∈ s.allCalls, ∀ k, .startedCopy k ∈ c.effects →
    ∃ e, c.found = some e ∧ e.hostBuf = some k.hostBuf

/-- A dma-buf that is opened belongs to the call that opens it. -/
theorem LocalMove.opened_from {lose : StagingCopy → Prop} {good : BufEntry → Prop} {l l' : Locals}
    (h : LocalMove lose good c s l l' t) : t.opened = s.opened ∨ l'.fd.isSome := by
  have hdrop : ∀ (u : InstanceState) (i : Nat), (u.dropRef i).opened = u.opened := by
    intro u i
    obtain ⟨deregistered, freed, leaked, heq⟩ := dropRef_eq u i
    rw [heq]
  cases h with
  | openFd free => exact .inr rfl
  | dropEntry has => exact .inl (hdrop s _)
  | dropBuf has => exact .inl (hdrop s _)
  | @dropOver copy rest has => exact .inl (hdrop (s.destroyEvent copy.done) copy.entry)
  | release free released =>
      obtain ⟨-, -, rfl⟩ := release_spec released
      exact .inl rfl
  | _ => exact .inl rfl

/-- A call knows what it knew before, or what the heap has. -/
theorem callStep_found (h : s.callStep setup c reply = some (c', u)) :
    c'.found = c.found ∨ c.pc = .find ∧ ∃ i, c'.found = s.entryAt i := by
  obtain hfound | hpc := (callStep_anyMoves h).found
  · exact .inl hfound
  · simp only [InstanceState.callStep, hpc, InstanceState.findStep] at h
    split at h
    · cases h
      exact .inl rfl
    · rename_i i _
      cases h
      exact .inr ⟨hpc, i, rfl⟩

namespace Governed

/-- The entry that a call is about to build. -/
theorem good (h : Governed setup s) : ∀ c ∈ s.calls, ∀ info mr hostBuf,
    c.pc = .build info mr hostBuf → setup.requireGpuDirect = true →
      (InstanceState.newEntry c info mr hostBuf).Direct := by
  intro c hc info mr hostBuf hpc hstrict hdevice
  have hallowed := h.calls c (List.mem_append_left _ hc)
  rw [hpc] at hallowed
  cases hostBuf with
  | none => rfl
  | some hostBuf => cases (hallowed hstrict).symm.trans hdevice

/-- The step lemma for the call that moves. -/
theorem stepped (h : Governed setup s) (hcalls : CallsOk s) (hmap : MapOk s) (hc : c ∈ s.calls)
    (hstep : s.callStep setup c reply = some (c', u)) (hsame : SameAnswer (.step c reply)) :
    c'.pc.Allowed setup ∧
      (setup.requireGpuDirect = true → ∀ e, c'.found = some e → e.Direct) ∧
      ∀ k, .startedCopy k ∈ c'.effects → ∃ e, c'.found = some e ∧ e.hostBuf = some k.hostBuf := by
  have hmem : c ∈ s.allCalls := List.mem_append_left _ hc
  have hfound := callStep_found hstep
  have hok := hcalls.calls c hmem
  have hdirect : setup.requireGpuDirect = true → ∀ e, c'.found = some e → e.Direct := by
    intro hstrict e he
    obtain hsame | ⟨-, i, hi⟩ := hfound
    · exact h.found hstrict c hmem e (hsame ▸ he)
    · obtain ⟨cell, hcell, rfl⟩ := Option.map_eq_some_iff.mp (hi.symm.trans he)
      exact h.heap hstrict cell (Cell.lookup_some hcell).1
  -- a call that has started a copy has its entry for good
  have hcopies : ∀ k, .startedCopy k ∈ c.effects →
      ∃ e, c'.found = some e ∧ e.hostBuf = some k.hostBuf := by
    intro k hk
    obtain hsame | ⟨hpc, -⟩ := hfound
    · rw [hsame]
      exact h.copies c hmem k hk
    · rw [hpc] at hok
      rw [hok.1.effects] at hk
      cases hk
  cases callStep_direct hstep (h.calls c hmem) with
  | ordinary step => exact ⟨step.pc, hdirect, fun k hk => hcopies k (step.effects k hk)⟩
  | @allocates info attr addr hostBuf before answer allowed after effects =>
      refine ⟨?_, hdirect, fun k hk => hcopies k (effects ▸ hk)⟩
      rw [after]
      intro hstrict
      rw [before] at hok
      obtain ⟨info, rfl⟩ := Option.isSome_iff_exists.mp hok.2
      subst answer
      obtain rfl := hsame info before
      by_contra hdevice
      cases hstrict.symm.trans (allowed (by simpa [onDevice] using hdevice))
  | @copies buf event k entry before present hostBuf after effects =>
      refine ⟨after, hdirect, ?_⟩
      intro k' hk'
      rw [effects] at hk'
      rcases List.mem_cons.mp hk' with heq | hk'
      · cases heq
        have hbuf : s.entryAt buf = c.found := hmap.found c hc buf (by rw [before]; rfl)
        obtain hkept | ⟨hpc, -⟩ := hfound
        · exact ⟨entry, by rw [hkept, ← hbuf, present], hostBuf⟩
        · cases before.symm.trans hpc
      · exact hcopies k' hk'

theorem step {a : InstanceAction} (h : Governed setup s) (hs : Owned s) (hcalls : CallsOk s)
    (hmap : MapOk s) (hsame : SameAnswer a) (hstep : instanceStep setup s a = some t) :
    Governed setup t := by
  cases a with
  | begin op =>
      obtain ⟨-, rfl⟩ := instanceStep_begin_eq hstep
      refine ⟨?_, h.opened, h.heap, ?_, ?_⟩
      · intro c hc
        rcases List.mem_cons.mp hc with rfl | hc
        · trivial
        · exact h.calls c hc
      · intro hstrict c hc
        rcases List.mem_cons.mp hc with rfl | hc
        · exact nofun
        · exact h.found hstrict c hc
      · intro c hc
        rcases List.mem_cons.mp hc with rfl | hc
        · exact fun k hk => by cases hk
        · exact h.copies c hc
  | step c reply =>
      obtain ⟨hc, c', u, hcall, rfl⟩ := instanceStep_step_eq hstep
      have hmoves : Moves (fun _ => True) (fun e => setup.requireGpuDirect = true → e.Direct) s c
          (c', u) :=
        callStep_moves hcall (fun _ _ => trivial) (h.good c hc)
      obtain ⟨hpc, hfound, hcopies⟩ := h.stepped hcalls hmap hc hcall hsame
      have hreturned : u.returned = s.returned := hmoves.move.frame.2.2.1
      have hother : ∀ d ∈ s.calls.erase c ++ u.returned, d ∈ s.allCalls := by
        intro d hd
        rw [hreturned] at hd
        exact (allCalls_perm hc).mem_iff.mpr (List.mem_cons_of_mem _ hd)
      refine ⟨?_, ?_, ?_, ?_, ?_⟩
      · intro d hd
        rcases List.mem_cons.mp hd with rfl | hd
        · exact hpc
        · exact h.calls d (hother d hd)
      · intro hdisabled
        show u.opened = []
        obtain heq | hfd := hmoves.move.opened_from
        · rw [heq]
          exact h.opened hdisabled
        · cases hdisabled.symm.trans (hpc.dmabufEnabled hfd)
      · intro hstrict cell hcell
        obtain ⟨e, he, -, hvalue⟩ | ⟨-, -, hgood, -⟩ := hmoves.move.heap_from cell hcell
        · rw [← hvalue]
          exact h.heap hstrict e he
        · exact hgood hstrict
      · intro hstrict d hd
        rcases List.mem_cons.mp hd with rfl | hd
        · exact hfound hstrict
        · exact h.found hstrict d (hother d hd)
      · intro d hd
        rcases List.mem_cons.mp hd with rfl | hd
        · exact hcopies
        · exact h.copies d (hother d hd)
  | ret c =>
      obtain ⟨hc, -, rfl⟩ := instanceStep_ret_eq hstep
      have hsame : ∀ d ∈ s.calls.erase c ++ c :: s.returned, d ∈ s.allCalls := fun d hd =>
        (List.perm_middle.trans (allCalls_perm hc).symm).mem_iff.mp hd
      exact ⟨fun d hd => h.calls d (hsame d hd), h.opened, h.heap,
        fun hstrict d hd => h.found hstrict d (hsame d hd), fun d hd => h.copies d (hsame d hd)⟩
  | finishCopy copy =>
      obtain ⟨-, -, rfl⟩ := instanceStep_finishCopy_eq hstep
      exact ⟨h.calls, h.opened, h.heap, h.found, h.copies⟩
  | shutdown =>
      cases hstep
      exact ⟨h.calls, h.opened, h.heap, h.found, h.copies⟩
  | destroy answers =>
      obtain ⟨-, -, hidle, -, rfl⟩ := instanceStep_destroy_eq hstep
      have hlocals : s.locals = [] := by rw [InstanceState.locals, hidle, List.map_nil]
      have hall : (s.copies.map fun copy => (copy, answers copy)).map Prod.fst = s.copies := by
        simp [Function.comp_def]
      obtain ⟨-, -, -, -, deregistered, freed, leaked, heq⟩ :=
        destroyInstance_spec (hlocals ▸ hs.books) hs.unmarked hall
      rw [heq]
      exact ⟨h.calls, h.opened, fun _ => by simp, h.found, h.copies⟩

end Governed

theorem governed_of_reachable
    (h : (instanceMachine setup).ReachableWhere (fun _ => SameAnswer) s) : Governed setup s := by
  refine Machine.ReachableWhere.invariant ?_ ?_ h
  · rintro s rfl
    refine ⟨?_, fun _ => rfl, ?_, ?_, ?_⟩
    all_goals simp [InstanceState.initial, InstanceState.allCalls]
  · intro s a t hreached hs hsame hstep
    have hreached := hreached.reachable
    exact hs.step (owned_of_reachable hreached) (callsOk_of_reachable hreached)
      (mapOk_of_reachable hreached) hsame hstep

/-- What a transfer of device memory does in strict mode: the peer is given the
device memory, and nothing is copied. -/
structure DirectTransfer (c : Call) (e : BufEntry) : Prop where
  unstaged : e.hostBuf = none
  region : e.mr.addr = c.op.devPtr
  tokens : ∀ token, .minted token ∈ c.effects → token.remoteAddr = c.op.devPtr + c.op.offset
  copies : ∀ k, .startedCopy k ∉ c.effects

theorem Governed.directTransfer (h : Governed setup s) (hcalls : CallsOk s)
    (hstrict : setup.requireGpuDirect = true) {e : BufEntry} (hc : c ∈ s.allCalls)
    (heffects : c.effects ≠ []) (hfound : c.found = some e) (hdevice : onDevice e.info = true) :
    DirectTransfer c e := by
  have hunstaged := h.found hstrict c hc e hfound hdevice
  have hworking := working_of_effects (hcalls.calls c hc) heffects
  obtain ⟨hok, hkey⟩ := hworking.found e hfound
  refine ⟨hunstaged, ?_, ?_, ?_⟩
  · rw [hok.mr.1, hok.direct hunstaged, hkey]
  · intro token htoken
    obtain ⟨e', device, qpNum, hfound', hbuilt⟩ := hworking.tokens token htoken
    cases hfound.symm.trans hfound'
    obtain ⟨-, -, -, haddr, -⟩ := buildRdmaToken_some hbuilt
    rw [haddr, hok.direct hunstaged, hkey]
  · intro k hk
    obtain ⟨e', hfound', hhostBuf⟩ := h.copies c hc k hk
    cases hfound.symm.trans hfound'
    cases hunstaged.symm.trans hhostBuf

end HipObject
