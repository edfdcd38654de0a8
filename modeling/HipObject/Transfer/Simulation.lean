import HipObject.Buffer.Tokens
import HipObject.Transfer.Halves

/-!
# The two models of a transfer agree

Whatever the outside does to the programs of `Transfer/Program.lean`, the instance
machine has steps with which the call returns what the program returns, and on the
way to it the application has seen the same and the same copies were started. An
exception loses the last thing that the program did before it is noted, so of such
a run the call may have shown more.

What is proved about the machine holds so of the programs: their texts are tokens
inside what is registered.
-/

namespace HipObject.Transfers

open HipObject Codec Verification

section Parts

variable {setup : Setup} {id : Nat} {op : Op} {found : Option BufEntry} {sights : List Sight}
variable {c c' : Call} {s u : InstanceState} {reply : Reply} {tr : Trace} {buf : Nat} {next : Pc}
variable {O : Outside} {result : OpError}

/-! ### The checks -/

/-- What a call finds, when the events of the copies answer so. -/
def lookupIn (s : InstanceState) (answers : Copy → InstanceState.Answer) (devPtr : BitVec 64) :
    Lookup where
  initialized := true
  buf := (s.lookupKey devPtr).bind s.entryAt
  running := (s.lookupKey devPtr).any fun i =>
    (InstanceState.releaseLoop (some i) answers s.copies).stillRunning

/-- The events of the buffer's copies are asked, and none of that throws. -/
def Answered (s : InstanceState) (answers : Copy → InstanceState.Answer) (devPtr : BitVec 64) :
    Prop :=
  ∀ i, s.lookupKey devPtr = some i →
    s.Truthful (InstanceState.releaseLoop (some i) answers s.copies).queries ∧
      (InstanceState.releaseLoop (some i) answers s.copies).threw = false

/-- The copies that are over are released, one after the other. -/
theorem checked_takes {ended : List Copy} {stillRunning : Bool}
    (h : Shows setup id op found sights c s) (hpc : c.pc = .checked buf ended stillRunning) :
    ∃ t d, (instanceMachine setup).Leads (OwnStep id) s t ∧ Shows setup id op found sights d t ∧
      d.pc = .checked buf [] stillRunning := by
  induction ended generalizing s c with
  | nil => exact ⟨s, c, .refl, h, hpc⟩
  | cons copy rest ih =>
      have hstep : s.callStep setup c .ok =
          some (c.goto (.checked buf rest stillRunning), s.dropCopy copy) := by
        simp only [InstanceState.callStep, hpc, InstanceState.checkedStep]
      obtain ⟨hleads, hshows⟩ := h.step hstep (by simp [hpc]) h.sights
      obtain ⟨t, d, hrest, hd⟩ := ih hshows rfl
      exact ⟨t, d, hleads.trans hrest, hd⟩

theorem find_takes (h : Shows setup id op none sights c s) (hpc : c.pc = .find) :
    ∃ t d, (instanceMachine setup).Leads (OwnStep id) s t ∧
      Shows setup id op ((s.lookupKey op.devPtr).bind s.entryAt) sights d t ∧
      d.pc = .checkBufferArgs (s.lookupKey op.devPtr) ∧ t.copies = s.copies ∧
      t.finished = s.finished := by
  have hfind : s.callStep setup c .ok = s.findStep c := by
    simp only [InstanceState.callStep, hpc]
  cases hkey : s.lookupKey op.devPtr with
  | none =>
      have hstep : s.callStep setup c .ok = some (c.goto (.checkBufferArgs none), s) := by
        simp only [hfind, InstanceState.findStep, h.op, hkey]
      have htaken := instanceStep_step h.mem hstep
      exact ⟨_, _, .single (a := .step c .ok) h.id htaken,
        ⟨.step (a := .step c .ok) h.reached trivial htaken, List.mem_cons_self, h.id, h.op, h.found,
          h.sights⟩, rfl, rfl, rfl⟩
  | some i =>
      have hstep : s.callStep setup c .ok =
          some ({ c.goto (.checkBufferArgs (some i)) with found := s.entryAt i },
            { s with heap := Cell.retain s.heap i }) := by
        simp only [hfind, InstanceState.findStep, h.op, hkey]
      have htaken := instanceStep_step h.mem hstep
      exact ⟨_, _, .single (a := .step c .ok) h.id htaken,
        ⟨.step (a := .step c .ok) h.reached trivial htaken, List.mem_cons_self, h.id, h.op, rfl,
          h.sights⟩, rfl, rfl, rfl⟩

/-- What the machine checks the arguments against is what the call has found. -/
theorem bind_entryAt {i : Option Nat} (h : Shows setup id op found sights c s)
    (hpc : c.pc = .checkBufferArgs i) (hnone : i = none → found = none) :
    i.bind s.entryAt = found := by
  cases i with
  | none => exact (hnone rfl).symm
  | some i => exact h.entryAt (by rw [hpc]; rfl)

theorem checkBufferArgs_fails {i : Option Nat} (h : Shows setup id op found sights c s)
    (hpc : c.pc = .checkBufferArgs i) (hnone : i = none → found = none)
    (hargs : checkBufferArgs op.devPtr found op.size op.offset ≠ .Success) :
    ∃ t d, (instanceMachine setup).Leads (OwnStep id) s t ∧ Shows setup id op found sights d t ∧
      Unwinds d (checkBufferArgs op.devPtr found op.size op.offset) := by
  have hstep : s.callStep setup c .ok = some (c.ret { Locals.empty with buf := i }
      (checkBufferArgs op.devPtr found op.size op.offset), s) := by
    simp only [InstanceState.callStep, hpc, InstanceState.checkBufferArgsStep, h.op,
      bind_entryAt h hpc hnone]
    split
    · rename_i hsuccess
      exact absurd hsuccess hargs
    · rfl
  obtain ⟨hleads, hshows⟩ := h.step hstep (by simp [hpc]) h.sights
  exact ⟨_, _, hleads, hshows, _, rfl⟩

theorem checkBufferArgs_passes {i : Nat} (h : Shows setup id op found sights c s)
    (hpc : c.pc = .checkBufferArgs (some i))
    (hargs : checkBufferArgs op.devPtr found op.size op.offset = .Success) :
    s.callStep setup c .ok = some (c.goto (.checkNoAbandonedCopy i), s) := by
  have hentry := bind_entryAt h hpc (by simp)
  simp only [InstanceState.callStep, hpc, InstanceState.checkBufferArgsStep, h.op, hentry, hargs]

theorem checkNoAbandonedCopy_takes {e : BufEntry} {i : Nat}
    (answers : Copy → InstanceState.Answer) (h : Shows setup id op (some e) sights c s)
    (hpc : c.pc = .checkNoAbandonedCopy i)
    (htruthful : s.Truthful (InstanceState.releaseLoop (some i) answers s.copies).queries)
    (hthrew : (InstanceState.releaseLoop (some i) answers s.copies).threw = false) :
    ∃ t d, (instanceMachine setup).Leads (OwnStep id) s t ∧ Shows setup id op (some e) sights d t ∧
      d.pc = .checked i [] (e.hostBuf.isSome &&
        (InstanceState.releaseLoop (some i) answers s.copies).stillRunning) := by
  have hfind : c.pc ≠ .find := by simp [hpc]
  have hentry : s.entryAt i = some e := h.entryAt (by rw [hpc]; rfl)
  cases hhostBuf : e.hostBuf with
  | none =>
      have hstep : s.callStep setup c .ok = some (c.goto (.checked i [] false), s) := by
        simp [InstanceState.callStep, hpc, InstanceState.checkNoAbandonedCopyStep, hentry, hhostBuf]
      obtain ⟨hleads, hshows⟩ := h.step hstep hfind h.sights
      exact ⟨_, _, hleads, hshows, rfl⟩
  | some hostBuf =>
      obtain ⟨u, hstep⟩ : ∃ u, s.callStep setup c (.statuses answers) =
          some ({ c.goto (.checked i
            (InstanceState.releaseLoop (some i) answers s.copies).ended
            (InstanceState.releaseLoop (some i) answers s.copies).stillRunning) with
              blocked := (InstanceState.releaseLoop (some i) answers s.copies).stillRunning },
            u) := by
        simp [InstanceState.callStep, hpc, InstanceState.checkNoAbandonedCopyStep, hentry, hhostBuf,
          InstanceState.release, htruthful, hthrew]
      obtain ⟨hleads, hshows⟩ := h.step hstep hfind h.sights
      obtain ⟨t, d, hrest, hd⟩ := checked_takes hshows rfl
      exact ⟨t, d, hleads.trans hrest, hd⟩

/-- How the checks of a call that has just started end. -/
def Ends (setup : Setup) (c : Call) (s : InstanceState) : Except OpError BufEntry → Prop
  | .error err => ∃ t d found, (instanceMachine setup).Leads (OwnStep c.id) s t ∧
      Shows setup c.id c.op found [] d t ∧ Unwinds d err
  | .ok e => ∃ t d i, (instanceMachine setup).Leads (OwnStep c.id) s t ∧
      Shows setup c.id c.op (some e) [] d t ∧ d.pc = .checked i [] false

theorem startStep_transfer (hop : c.op.isGet = true ∨ c.op.isPut = true) :
    s.startStep c reply = if c.op.argsValid then some (c.goto .find, s)
      else some (c.ret .empty .InvalidValue, s) := by
  cases hc : c.op with
  | get _ _ _ _ | put _ _ _ _ => simp only [InstanceState.startStep, hc]
  | _ => simp [hc, Op.isGet, Op.isPut] at hop

theorem checked_of_refused {look : Lookup} {devPtr size offset : BitVec 64}
    (hlook : look.initialized = true)
    (hargs : checkBufferArgs devPtr look.buf size offset ≠ .Success) :
    checked look true devPtr size offset =
      .error (checkBufferArgs devPtr look.buf size offset) := by
  simp only [checked, hlook, Bool.not_true, Bool.false_eq_true, if_false]
  split
  · rename_i hsuccess _
    exact absurd hsuccess hargs
  · rfl

theorem checked_of_found {look : Lookup} {devPtr size offset : BitVec 64} {e : BufEntry}
    (hlook : look.initialized = true) (hbuf : look.buf = some e)
    (hargs : checkBufferArgs devPtr look.buf size offset = .Success) :
    checked look true devPtr size offset =
      if e.hostBuf.isSome && look.running then .error .Busy else .ok e := by
  rw [hbuf] at hargs
  simp only [checked, hlook, hbuf, hargs, Lookup.checkNoAbandonedCopy, Bool.not_true,
    Bool.false_eq_true, if_false]
  by_cases hbusy : (e.hostBuf.isSome && look.running) = true <;> simp [hbusy]

/-- A buffer that the arguments fit in is used, or its last copy is still running. -/
theorem found_takes {look : Lookup} {e : BufEntry} {i : Nat}
    (answers : Copy → InstanceState.Answer) (h : Shows setup c.id c.op (some e) [] c s)
    (hpc : c.pc = .checkBufferArgs (some i))
    (hargs : checkBufferArgs c.op.devPtr (some e) c.op.size c.op.offset = .Success)
    (htruthful : s.Truthful (InstanceState.releaseLoop (some i) answers s.copies).queries)
    (hthrew : (InstanceState.releaseLoop (some i) answers s.copies).threw = false)
    (hrunning : look.running = (InstanceState.releaseLoop (some i) answers s.copies).stillRunning) :
    Ends setup c s
      (if e.hostBuf.isSome && look.running then .error .Busy else .ok e) := by
  obtain ⟨hpassed, hnext⟩ := h.step (checkBufferArgs_passes h hpc hargs) (by simp [hpc]) h.sights
  obtain ⟨t, d, hasked, hshows, hdpc⟩ :=
    checkNoAbandonedCopy_takes answers hnext rfl htruthful hthrew
  have hdpc : d.pc = .checked i [] (e.hostBuf.isSome && look.running) := by rw [hdpc, hrunning]
  cases hbusy : e.hostBuf.isSome && look.running with
  | false =>
      rw [hbusy] at hdpc
      exact ⟨t, d, i, hpassed.trans hasked, hshows, hdpc⟩
  | true =>
      rw [hbusy] at hdpc
      have hstep : t.callStep setup d .ok =
          some (d.ret { Locals.empty with buf := some i } .Busy, t) := by
        simp only [InstanceState.callStep, hdpc, InstanceState.checkedStep, if_true]
      obtain ⟨hreturn, hshows⟩ := hshows.step hstep (by simp [hdpc]) hshows.sights
      exact ⟨_, _, some e, (hpassed.trans hasked).trans hreturn, hshows, _, rfl⟩

theorem Ends.leads {outcome : Except OpError BufEntry}
    (hleads : (instanceMachine setup).Leads (OwnStep c.id) s u) (hid : c'.id = c.id)
    (hop : c'.op = c.op) (h : Ends setup c' u outcome) :
    Ends setup c s outcome := by
  cases outcome with
  | error err =>
      obtain ⟨t, d, found, hrest, hshows, hunwinds⟩ := h
      rw [hid] at hrest
      exact ⟨t, d, found, hleads.trans hrest, hid ▸ hop ▸ hshows, hunwinds⟩
  | ok e =>
      obtain ⟨t, d, i, hrest, hshows, hdpc⟩ := h
      rw [hid] at hrest
      exact ⟨t, d, i, hleads.trans hrest, hid ▸ hop ▸ hshows, hdpc⟩

/-- The checks of the program and those of the machine end alike. -/
theorem checked_takes_call (answers : Copy → InstanceState.Answer)
    (hs : (instanceMachine setup).Reachable s) (hc : c ∈ s.calls) (hpc : c.pc = .start)
    (hop : c.op.isGet = true ∨ c.op.isPut = true) (hanswers : Answered s answers c.op.devPtr) :
    Ends setup c s (checked (lookupIn s answers c.op.devPtr) c.op.argsValid c.op.devPtr c.op.size
      c.op.offset) := by
  have hfresh : c.Fresh s.inserted := by
    have hok := (callsOk_of_reachable hs).calls c (List.mem_append_left _ hc)
    rwa [hpc] at hok
  have hstart : Shows setup c.id c.op none [] c s :=
    ⟨hs, hc, rfl, rfl, hfresh.found, by simp [shownBy, hfresh.effects]⟩
  have hfirst : s.callStep setup c .ok = s.startStep c .ok := by
    simp only [InstanceState.callStep, hpc]
  rw [startStep_transfer hop] at hfirst
  cases hargsValid : c.op.argsValid with
  | false =>
      rw [hargsValid] at hfirst
      obtain ⟨hleads, hshows⟩ := hstart.step hfirst (by simp [hpc]) hstart.sights
      exact ⟨_, _, none, hleads, hshows, _, rfl⟩
  | true =>
      rw [hargsValid] at hfirst
      obtain ⟨hleads, hfind⟩ := hstart.step hfirst (by simp [hpc]) hstart.sights
      obtain ⟨t, d, hfound, hshows, hdpc, hcopies, hfinished⟩ := find_takes hfind rfl
      set look := lookupIn s answers c.op.devPtr with hlook
      have hshows : Shows setup c.id c.op look.buf [] d t := hshows
      have hdpc : d.pc = .checkBufferArgs (s.lookupKey c.op.devPtr) := hdpc
      have hnone : s.lookupKey c.op.devPtr = none → look.buf = none := by
        intro hkey
        rw [hlook, lookupIn, hkey, Option.bind_none]
      by_cases hargs : checkBufferArgs c.op.devPtr look.buf c.op.size c.op.offset = .Success
      · obtain ⟨-, -, e, hbuf, -⟩ := checkBufferArgs_success hargs
        obtain ⟨i, hkey⟩ : ∃ i, s.lookupKey c.op.devPtr = some i := by
          refine Option.ne_none_iff_exists'.mp fun hkey => ?_
          cases (hnone hkey).symm.trans hbuf
        obtain ⟨htruthful, hthrew⟩ := hanswers i hkey
        have hrunning : look.running =
            (InstanceState.releaseLoop (some i) answers s.copies).stillRunning := by
          rw [hlook, lookupIn, hkey]
          rfl
        rw [checked_of_found rfl hbuf hargs]
        rw [hkey] at hdpc
        rw [hbuf] at hshows hargs
        refine Ends.leads (hleads.trans hfound) hshows.id hshows.op
          (found_takes answers ?_ hdpc ?_ ?_ ?_ ?_)
        · rw [hshows.id, hshows.op]
          exact hshows
        · rwa [hshows.op]
        · unfold InstanceState.Truthful
          rw [hcopies, hfinished]
          exact htruthful
        · rwa [hcopies]
        · rwa [hcopies]
      · rw [checked_of_refused rfl hargs]
        obtain ⟨u, d', hrefused, hshows', hunwinds⟩ := checkBufferArgs_fails hshows hdpc hnone hargs
        exact ⟨u, d', look.buf, (hleads.trans hfound).trans hrefused, hshows', hunwinds⟩

/-! ### The public calls -/

/-- What a call has returned, and what it has shown until then. -/
structure Returned (id : Nat) (op : Op) (result : OpError) (sights : List Sight) (d : Call)
    (t : InstanceState) : Prop where
  mem : d ∈ t.returned
  id : d.id = id
  op : d.op = op
  result : d.result = some result
  sights : shownBy d = sights

/-- A call that is leaving destroys what it has and returns. -/
theorem Shows.unwind (h : Shows setup id op found sights c s) (hunwinds : Unwinds c result) :
    ∃ t d, (instanceMachine setup).Leads (OwnStep id) s t ∧ Returned id op result sights d t := by
  obtain ⟨locals, hpc⟩ := hunwinds
  have hended : c.Ended s.inserted locals result := by
    have hok := (callsOk_of_reachable h.reached).calls c (List.mem_append_left _ h.mem)
    rwa [hpc] at hok
  obtain ⟨t, halone, -⟩ := unwind_alone setup h.mem hpc hended.copy
  have hmem := halone.mem h.mem
  have hret : instanceStep setup t (.ret (c.ret .empty result)) = some { t with
      calls := t.calls.erase (c.ret .empty result)
      returned := c.ret .empty result :: t.returned } := by
    simp only [instanceStep]
    rw [if_pos ⟨hmem, rfl⟩]
    rfl
  exact ⟨_, c.ret .empty result,
    (leads_of_alone halone h.id).trans (.single (a := .ret (c.ret .empty result)) h.id hret),
    List.mem_cons_self, h.id, h.op, rfl, h.sights⟩

/-- The call is leaving with the program's result. -/
def Leaves (setup : Setup) (id : Nat) (op : Op) (result : OpError) (trace : Trace)
    (s : InstanceState) : Prop :=
  ∃ found c, Shows setup id op found (shown trace) c s ∧ Unwinds c result

theorem Goes.leaves {locals : Locals}
    (h : Goes setup id op found (.unwind locals .Success) result tr s) :
    Leaves setup id op result tr s := by
  obtain ⟨c, hshows, hpc⟩ := h
  refine ⟨found, c, hshows, ?_⟩
  split at hpc
  · rename_i hsuccess
    exact ⟨locals, hsuccess ▸ hpc⟩
  · exact hpc

/-- The call has returned what the program returned, and shown what the trace
shows, if no exception has cut that short. -/
def Agrees (id : Nat) (op : Op) (result : OpError) (trace : Trace) (t : InstanceState) : Prop :=
  ∃ d more, Returned id op result (shown trace ++ more) d t ∧ (result ≠ .InternalError → more = [])

/-- Exceptions end in `hipObjInternalError` in both models. -/
theorem catching_takes {x : TransferM OpError}
    (h : TakesAlong (instanceMachine setup) (OwnStep id) x tr s (Leaves setup id op)
      (fun trace t => ∃ found, Throws setup id op found trace t)) :
    TakesAlong (instanceMachine setup) (OwnStep id) (catching x) tr s (Agrees id op)
      fun _ _ => False := by
  refine .tryCatch (Ensures.mono h ?_ ?_)
  · rintro r t ⟨n, hleads, found, c, hshows, hunwinds⟩
    obtain ⟨u, d, hreturn, hd⟩ := hshows.unwind hunwinds
    exact ⟨u, hleads.trans hreturn, d, [], by rwa [List.append_nil], fun _ => rfl⟩
  · rintro t ⟨n, hleads, found, c, more, hshows, hunwinds⟩
    obtain ⟨u, d, hreturn, hd⟩ := hshows.unwind hunwinds
    exact ⟨u, hleads.trans hreturn, fun _ => .pure ⟨d, more, hd, fun hne => absurd rfl hne⟩⟩

/-- A call whose arguments are refused returns at once. -/
theorem Ends.leaves {err : OpError} {E : Trace → InstanceState → Prop}
    (h : Ends setup c s (.error err)) :
    TakesAlong (instanceMachine setup) (OwnStep c.id) (pure err : TransferM OpError) [] s
      (Leaves setup c.id c.op) E := by
  obtain ⟨t, d, found, hleads, hshows, hunwinds⟩ := h
  exact .leads hleads (.pure ⟨found, d, hshows, hunwinds⟩)

/-- The second half of a call starts where the first one succeeds. -/
theorem Goes.andThen {x y : TransferM OpError} (locals : Locals)
    (hx : TakesAlong (instanceMachine setup) (OwnStep id) x tr s (Goes setup id op found next)
      (Throws setup id op found))
    (hy : ∀ tr' c' s', Shows setup id op found (shown tr') c' s' → c'.pc = next →
      TakesAlong (instanceMachine setup) (OwnStep id) y tr' s'
        (Goes setup id op found (.unwind locals .Success)) (Throws setup id op found)) :
    TakesAlong (instanceMachine setup) (OwnStep id) (do
      let err ← x
      if err ≠ .Success then return err else y) tr s (Leaves setup id op)
      (fun trace t => ∃ found, Throws setup id op found trace t) := by
  refine .bind (hx.mono ?_ fun _ _ h => ⟨found, h⟩)
  rintro err tr' s' ⟨c', hshows, hpc⟩
  by_cases herr : err = .Success
  · rw [if_pos herr] at hpc
    rw [if_neg (not_not.mpr herr)]
    exact (hy tr' c' s' hshows hpc).mono (fun _ _ _ h => h.leaves) fun _ _ h => ⟨found, h⟩
  · rw [if_neg herr] at hpc
    rw [if_pos herr]
    exact .pure ⟨found, c', hshows, hpc⟩

/-- A call that passes its checks goes on to its own work. -/
theorem Ends.passes {e : BufEntry} (h : Ends setup c s (.ok e)) (work : Nat → Pc)
    (hwork : ∀ t d i, d.op = c.op → d.pc = .checked i [] false →
      InstanceState.callStep setup t d .ok = some (d.goto (work i), t)) :
    ∃ t d i, (instanceMachine setup).Leads (OwnStep c.id) s t ∧
      Shows setup c.id c.op (some e) [] d t ∧ d.pc = work i := by
  obtain ⟨t, d, i, hleads, hshows, hpc⟩ := h
  obtain ⟨hnext, hshows'⟩ := hshows.step (hwork t d i hshows.op hpc) (by simp [hpc]) hshows.sights
  exact ⟨_, _, i, hleads.trans hnext, hshows', rfl⟩

section Calls

variable {answers : Copy → InstanceState.Answer} {devPtr size offset : BitVec 64} {ops : Bool}

/-- `hipObjGet` transfers, and then stages to the device. -/
theorem hipObjGet_takes (hs : (instanceMachine setup).Reachable s) (hc : c ∈ s.calls)
    (hpc : c.pc = .start) (hop : c.op = .get devPtr size offset ops)
    (hanswers : Answered s answers devPtr) :
    TakesAlong (instanceMachine setup) (OwnStep c.id)
      (hipObjGet O setup.device (lookupIn s answers devPtr) ops devPtr size offset) [] s
      (Agrees c.id c.op) fun _ _ => False := by
  have hends : Ends setup c s (checked (lookupIn s answers devPtr) ops devPtr size offset) := by
    have hcall := checked_takes_call answers hs hc hpc (.inl (by rw [hop]; rfl))
      (by rwa [hop])
    rwa [hop] at hcall
  refine catching_takes ?_
  cases hchecked : checked (lookupIn s answers devPtr) ops devPtr size offset with
  | error err =>
      rw [hchecked] at hends
      exact hends.leaves
  | ok e =>
      rw [hchecked] at hends
      obtain ⟨t, d, i, hleads, hshows, hdpc⟩ := hends.passes .acquire (by
        intro t d i hdop hdpc
        simp [InstanceState.callStep, hdpc, InstanceState.checkedStep, hdop, hop])
      rw [hop] at hshows ⊢
      have htransfer := runRdmaTransfer_takes (O := O) [] hshows hdpc (.inl rfl)
      exact .leads hleads (Goes.andThen { Locals.empty with buf := some i } htransfer
        fun _ _ _ => stageToDevice_takes)

/-- `hipObjPut` stages to the host, and then transfers. -/
theorem hipObjPut_takes (hs : (instanceMachine setup).Reachable s) (hc : c ∈ s.calls)
    (hpc : c.pc = .start) (hop : c.op = .put devPtr size offset ops)
    (hanswers : Answered s answers devPtr) :
    TakesAlong (instanceMachine setup) (OwnStep c.id)
      (hipObjPut O setup.device (lookupIn s answers devPtr) ops devPtr size offset) [] s
      (Agrees c.id c.op) fun _ _ => False := by
  have hends : Ends setup c s (checked (lookupIn s answers devPtr) ops devPtr size offset) := by
    have hcall := checked_takes_call answers hs hc hpc (.inr (by rw [hop]; rfl))
      (by rwa [hop])
    rwa [hop] at hcall
  refine catching_takes ?_
  cases hchecked : checked (lookupIn s answers devPtr) ops devPtr size offset with
  | error err =>
      rw [hchecked] at hends
      exact hends.leaves
  | ok e =>
      rw [hchecked] at hends
      obtain ⟨t, d, i, hleads, hshows, hdpc⟩ := hends.passes .stage (by
        intro t d i hdop hdpc
        simp [InstanceState.callStep, hdpc, InstanceState.checkedStep, hdop, hop])
      rw [hop] at hshows ⊢
      have hstage := stageToHost_takes (O := O) [] hshows hdpc
      refine .leads hleads (Goes.andThen { Locals.empty with buf := some i } hstage
        fun tr' c' s' hstaged hpc' => ?_)
      have htransfer := runRdmaTransfer_takes (O := O) tr' hstaged hpc' (.inr rfl)
      exact htransfer

/-- A text that a call has sent is a token for what it asks of the entry it found. -/
theorem Agrees.sent_inside (h : Agrees id op result tr s)
    (hs : (instanceMachine setup).Reachable s) {text : List Byte} {ret : Int}
    (hsent : .sendRequest text ret ∈ tr) :
    ∃ e token, text = encodeRdmaToken token ∧ e.key = op.devPtr ∧ TokenInside op e token ∧
      RegisteredOver op e := by
  obtain ⟨d, more, hd, -⟩ := h
  have hshown : Sight.sent text ∈ shownBy d := by
    rw [hd.sights]
    exact List.mem_append_left _ (List.mem_filterMap.mpr ⟨_, hsent, rfl⟩)
  obtain ⟨effect, heffect, hsight⟩ := List.mem_filterMap.mp (List.mem_reverse.mp hshown)
  cases effect with
  | minted token =>
      have hok := (callsOk_of_reachable hs).calls d (List.mem_append_right _ hd.mem)
      have hworking := working_of_effects hok (List.ne_nil_of_mem heffect)
      obtain ⟨e, device, qpNum, hfound, hbuilt⟩ := hworking.tokens token heffect
      obtain ⟨hentry, hkey⟩ := hworking.found e hfound
      obtain ⟨e', hfound', hfits⟩ := hworking.fits
      obtain rfl : e = e' := Option.some.inj (hfound.symm.trans hfound')
      rw [← hd.op]
      exact ⟨e, token, (Sight.sent.inj (Option.some.inj hsight)).symm, hkey,
        hentry.tokenInside hfits hbuilt, hentry.registeredOver hkey⟩
  | startedCopy copy =>
      obtain ⟨_, _, hcopied⟩ := Option.map_eq_some_iff.mp hsight
      cases hcopied
  | _ => cases hsight

/-- A run of the program is a run of the call, and every text it sends is a token
for the call's range of a registered buffer. -/
structure RunsAs (setup : Setup) (s : InstanceState) (c : Call) (result : OpError)
    (trace : Trace) : Prop where
  agrees : ∃ t, (instanceMachine setup).Leads (OwnStep c.id) s t ∧ Agrees c.id c.op result trace t
  inside : ∀ text ret, .sendRequest text ret ∈ trace →
    ∃ e token, text = encodeRdmaToken token ∧ e.key = c.op.devPtr ∧ TokenInside c.op e token ∧
      RegisteredOver c.op e

theorem runsAs_of_takesAlong {x : TransferM OpError} (hs : (instanceMachine setup).Reachable s)
    (h : TakesAlong (instanceMachine setup) (OwnStep c.id) x [] s (Agrees c.id c.op)
      fun _ _ => False) :
    Ensures x [] (RunsAs setup s c) fun _ => False := by
  refine Ensures.mono h ?_ ?_
  · rintro r trace ⟨t, hleads, hagrees⟩
    exact ⟨⟨t, hleads, hagrees⟩, fun text ret => hagrees.sent_inside (hs.leads hleads)⟩
  · rintro trace ⟨t, -, hfalse⟩
    exact hfalse

/-- Whatever the outside does, the programs return, and their runs are runs of the
calls that have just started on the instance. -/
theorem transfers_are_calls (hs : (instanceMachine setup).Reachable s) (hc : c ∈ s.calls)
    (hpc : c.pc = .start) (hanswers : Answered s answers c.op.devPtr) :
    (∀ O devPtr size offset ops, c.op = .get devPtr size offset ops →
      Ensures (hipObjGet O setup.device (lookupIn s answers devPtr) ops devPtr size offset) []
        (RunsAs setup s c) fun _ => False) ∧
      ∀ O devPtr size offset ops, c.op = .put devPtr size offset ops →
        Ensures (hipObjPut O setup.device (lookupIn s answers devPtr) ops devPtr size offset) []
          (RunsAs setup s c) fun _ => False := by
  refine ⟨fun O devPtr size offset ops hop => ?_, fun O devPtr size offset ops hop => ?_⟩
  · rw [hop] at hanswers
    exact runsAs_of_takesAlong hs (hipObjGet_takes hs hc hpc hop hanswers)
  · rw [hop] at hanswers
    exact runsAs_of_takesAlong hs (hipObjPut_takes hs hc hpc hop hanswers)

/-- A staged registration, and a `hipObjGet` of its middle part that has just
started. -/
def startedGet : List ScriptLine :=
  [.begin (.register 0x1000 64), .step 0 (.pointer ⟨some .device, some (0x800, 0x1000)⟩),
    .step 0 .ok, .step 0 .fail, .step 0 (.memory (some .device) (some 0x7000)), .step 0 (.mr 7),
    .step 0 .ok, .step 0 .ok, .ret 0, .begin (.get 0x1000 16 8 true)]

theorem transfers_are_calls_of_startedGet :
    ∃ (s t : InstanceState) (c : Call) (trace : Trace), c ∈ s.calls ∧
      (instanceMachine sampleSetup).Leads (OwnStep c.id) s t ∧
        Agrees c.id c.op .Success trace t := by
  let answers : Copy → InstanceState.Answer := fun _ => ⟨.notReady, false, false⟩
  let run := fun s => hipObjGet smoothOutside sampleSetup.device (lookupIn s answers 0x1000) true
    0x1000 16 8
  obtain ⟨s, hs, hlast⟩ := Machine.exists_reachable_of_runScript (instanceMachine sampleSetup)
    ScriptLine.action startedGet
    (fun s => s.copies.isEmpty &&
      s.calls.any (fun c => c.pc = .start ∧ c.op = .get 0x1000 16 8 true) &&
      decide (Ensures (run s) [] (fun r _ => r = .Success) fun _ => False)) rfl (by decide)
  simp only [Bool.and_eq_true, List.isEmpty_iff, List.any_eq_true, decide_eq_true_iff] at hlast
  obtain ⟨⟨hcopies, c, hc, hpc, hop⟩, hsuccess⟩ := hlast
  have hanswers : Answered s answers c.op.devPtr := by
    intro i _
    rw [hcopies]
    exact ⟨fun q hq => absurd hq (by simp [InstanceState.releaseLoop]), rfl⟩
  obtain ⟨r, trace, hrun, rfl⟩ := hsuccess.exists_ok
  have hcall := (transfers_are_calls hs hc hpc hanswers).1 smoothOutside 0x1000 16 8 true hop
  obtain ⟨t, hleads, hagrees⟩ := (hcall.ok hrun).agrees
  exact ⟨s, t, c, trace, hc, hleads, hagrees⟩

end Calls

end Parts

end HipObject.Transfers
