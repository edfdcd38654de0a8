import HipObject.Buffer.Machine
import HipObject.Verification.Ledger

/-!
# What a step of a call does

A step changes the local variables of one call and the state they live in.
`LocalMove` lists the ways: a resource is made or undone, an entry is built,
inserted, found, removed or let go, a staging copy starts, ends, or is handed
over. `callStep_moves` says that a step of a call is always one of them, so that a
property of whole runs needs a case for each way and not for each program
counter.
-/

namespace HipObject

open Verification

namespace Locals

/-- The references to entries that a call holds. -/
def refs (l : Locals) : List Nat := l.buf.toList ++ l.entry.toList ++ l.ended.map Copy.entry

/-- The references that pin an entry in the map. -/
def pins (l : Locals) : List Nat := l.buf.toList ++ l.ended.map Copy.entry

def mrs (l : Locals) : List Mr := l.mr.toList
def hostBufs (l : Locals) : List HostBuf := l.hostBuf.toList
def fds (l : Locals) : List Nat := l.fd.toList
def events (l : Locals) : List Nat := l.event.toList ++ l.ended.map Copy.done

end Locals

/-- What a step does to the local variables of its call and to the state, where
`c` is the call after the step. A copy whose event could not be recorded is lost,
which needs `lose`, and an entry that is built is `good`. -/
inductive LocalMove (lose : StagingCopy → Prop) (good : BufEntry → Prop) (c : Call)
    (s : InstanceState) : Locals → Locals → InstanceState → Prop
  | quiet {l : Locals} (queried : List (Nat × EventStatus)) :
      LocalMove lose good c s l l { s with queried := queried }
  | openFd {l : Locals} (free : l.fd = none) :
      LocalMove lose good c s l { l with fd := some s.next }
        { s with opened := s.next :: s.opened, next := s.next + 1 }
  | closeFd {l : Locals} {fd : Nat} (has : l.fd = some fd) :
      LocalMove lose good c s l { l with fd := none } { s with closed := fd :: s.closed }
  | gainMr {l : Locals} {mr : Mr} (free : l.mr = none) (fresh : mr.id = s.next) :
      LocalMove lose good c s l { l with mr := some mr } (s.registerMr mr)
  | loseMr {l : Locals} {mr : Mr} (has : l.mr = some mr) :
      LocalMove lose good c s l { l with mr := none }
        { s with deregistered := mr :: s.deregistered }
  | gainHostBuf {l : Locals} {hostBuf : HostBuf} (free : l.hostBuf = none)
      (fresh : hostBuf.id = s.next) :
      LocalMove lose good c s l { l with hostBuf := some hostBuf }
        { s with allocated := hostBuf :: s.allocated, next := s.next + 1 }
  | loseHostBuf {l : Locals} {hostBuf : HostBuf} (has : l.hostBuf = some hostBuf) :
      LocalMove lose good c s l { l with hostBuf := none } { s with freed := hostBuf :: s.freed }
  | build {l : Locals} {entry : BufEntry} (mr : l.mr = some entry.mr)
      (hostBuf : l.hostBuf = entry.hostBuf) (free : l.entry = none) (isGood : good entry)
      (keyed : entry.key = c.op.devPtr) (unmarked : entry.leakHostBuf = false) :
      LocalMove lose good c s l { l with mr := none, hostBuf := none, entry := some s.next }
        { s with heap := ⟨s.next, 1, entry⟩ :: s.heap, next := s.next + 1 }
  | insert {l : Locals} {i : Nat} (has : l.entry = some i)
      (room : s.refusal c.op.devPtr = none) :
      LocalMove lose good c s l { l with entry := none }
        { s with
          entries := (c.op.devPtr, i) :: s.entries
          inserted := (c.id, c.op.devPtr, i) :: s.inserted }
  | remove {l : Locals} {i : Nat} {cell : Cell BufEntry} (free : l.entry = none)
      (mapped : (c.op.devPtr, i) ∈ s.entries) (present : Cell.lookup s.heap i = some cell)
      (unused : cell.useCount ≤ 1) :
      LocalMove lose good c s l { l with entry := some i }
        { s with entries := s.entries.erase (c.op.devPtr, i) }
  | find {l : Locals} {i : Nat} (free : l.buf = none) (mapped : (c.op.devPtr, i) ∈ s.entries)
      (isFound : c.found = s.entryAt i) :
      LocalMove lose good c s l { l with buf := some i } { s with heap := Cell.retain s.heap i }
  | dropEntry {l : Locals} {i : Nat} (has : l.entry = some i) :
      LocalMove lose good c s l { l with entry := none } (s.dropRef i)
  | dropBuf {l : Locals} {i : Nat} (has : l.buf = some i) :
      LocalMove lose good c s l { l with buf := none } (s.dropRef i)
  | gainSlot {l : Locals} (free : l.slot = false) :
      LocalMove lose good c s l { l with slot := true } s.reserve
  | loseSlot {l : Locals} (has : l.slot = true) :
      LocalMove lose good c s l { l with slot := false } { s with reserved := s.reserved - 1 }
  | gainEvent {l : Locals} (free : l.event = none) :
      LocalMove lose good c s l { l with event := some s.next }
        { s with created := s.next :: s.created, next := s.next + 1 }
  | loseEvent {l : Locals} {event : Nat} (has : l.event = some event) :
      LocalMove lose good c s l { l with event := none } (s.destroyEvent event)
  | startCopy {l : Locals} {k : StagingCopy} {entry : BufEntry} (free : l.copy = none)
      (fresh : k.id = s.next) (buf : l.buf = some k.entry)
      (present : s.entryAt k.entry = some entry) (hostBuf : entry.hostBuf = some k.hostBuf) :
      LocalMove lose good c s l { l with copy := some k }
        { s with started := k :: s.started, next := s.next + 1 }
  | endCopy {l : Locals} {copy : StagingCopy} (has : l.copy = some copy)
      (ended : copy ∈ s.finished) (queried : List (Nat × EventStatus)) :
      LocalMove lose good c s l { l with copy := none } { s with queried := queried }
  | loseCopy {l : Locals} {copy : StagingCopy} (has : l.copy = some copy) (loses : lose copy) :
      LocalMove lose good c s l { l with copy := none } s
  | add {l : Locals} {r : Copy} (buf : l.buf = some r.entry) (event : l.event = some r.done)
      (slot : l.slot = true) (has : l.copy = some r.copy) :
      LocalMove lose good c s l { l with event := none, slot := false, copy := none } (s.addCopy r)
  | release {l : Locals} {entry : Option Nat} {answers : Copy → InstanceState.Answer}
      {r : InstanceState.Released} {t : InstanceState} (free : l.ended = [])
      (released : s.release entry answers = some (t, r)) :
      LocalMove lose good c s l { l with ended := r.ended } t
  | dropOver {l : Locals} {copy : Copy} {rest : List Copy} (has : l.ended = copy :: rest) :
      LocalMove lose good c s l { l with ended := rest } (s.dropCopy copy)

/-! ### Releasing abandoned copies -/

section ReleaseLoop

variable {entry : Option Nat} {answers : Copy → InstanceState.Answer} {copies : List Copy}

/-- The loop keeps some copies, in order, and takes the others out. -/
theorem releaseLoop_perm :
    copies.Perm ((InstanceState.releaseLoop entry answers copies).kept ++
      (InstanceState.releaseLoop entry answers copies).ended) := by
  induction copies with
  | nil => exact .refl _
  | cons copy rest ih =>
      unfold InstanceState.releaseLoop
      split
      · exact ih.cons copy
      · split
        · simp
        · split
          · exact ih.cons copy
          · split
            · simp
            · exact (ih.cons copy).trans List.perm_middle.symm

/-- Each query is of a copy of the list, and has the answer for it. -/
theorem releaseLoop_queries {q : Copy × EventStatus}
    (h : q ∈ (InstanceState.releaseLoop entry answers copies).queries) :
    q.1 ∈ copies ∧ q.2 = (answers q.1).status := by
  induction copies with
  | nil => cases h
  | cons copy rest ih =>
      unfold InstanceState.releaseLoop at h
      split at h
      · exact ⟨List.mem_cons_of_mem _ (ih h).1, (ih h).2⟩
      · split at h
        · cases h
        · split at h
          · rename_i hstatus
            rcases List.mem_cons.mp h with rfl | h
            · exact ⟨List.mem_cons_self, hstatus.symm⟩
            · exact ⟨List.mem_cons_of_mem _ (ih h).1, (ih h).2⟩
          · rename_i hstatus
            split at h
            · rw [List.mem_singleton] at h
              subst h
              exact ⟨List.mem_cons_self, rfl⟩
            · rcases List.mem_cons.mp h with rfl | h
              · exact ⟨List.mem_cons_self, rfl⟩
              · exact ⟨List.mem_cons_of_mem _ (ih h).1, (ih h).2⟩

/-- A copy is taken out only when its event was queried and was not `notReady`. -/
theorem releaseLoop_over {copy : Copy}
    (h : copy ∈ (InstanceState.releaseLoop entry answers copies).ended) :
    (answers copy).status ≠ .notReady ∧
      (copy, (answers copy).status) ∈ (InstanceState.releaseLoop entry answers copies).queries := by
  induction copies with
  | nil => cases h
  | cons first rest ih =>
      unfold InstanceState.releaseLoop at h ⊢
      split at h
      · rename_i hother
        rw [if_pos hother]
        exact ih h
      · rename_i hselected
        rw [if_neg hselected]
        split at h
        · cases h
        · rename_i hanswers
          rw [if_neg hanswers]
          split at h
          · exact ⟨(ih h).1, List.mem_cons_of_mem _ (ih h).2⟩
          · rename_i hstatus
            split at h
            · cases h
            · rename_i hmemory
              rw [if_neg hmemory]
              rcases List.mem_cons.mp h with rfl | h
              · exact ⟨hstatus, List.mem_cons_self⟩
              · exact ⟨(ih h).1, List.mem_cons_of_mem _ (ih h).2⟩

end ReleaseLoop

/-- What the critical section of `release()` does. -/
theorem release_spec {s t : InstanceState} {entry : Option Nat}
    {answers : Copy → InstanceState.Answer} {r : InstanceState.Released}
    (h : s.release entry answers = some (t, r)) :
    s.copies.Perm (r.kept ++ r.ended) ∧ (∀ copy ∈ r.ended, copy.copy ∈ s.finished) ∧
      t = { s with
        copies := r.kept
        queried := (r.queries.map fun q => (q.1.done, q.2)).reverse ++ s.queried } := by
  unfold InstanceState.release at h
  simp only [Option.ite_none_right_eq_some, Option.some.injEq, Prod.mk.injEq] at h
  obtain ⟨htruthful, rfl, rfl⟩ := h
  refine ⟨releaseLoop_perm, ?_, rfl⟩
  intro copy hcopy
  obtain ⟨hstatus, hmem⟩ := releaseLoop_over hcopy
  exact htruthful _ hmem hstatus

/-! ### Every step of a call is one of these -/

section Steps

variable {lose : StagingCopy → Prop} {good : BufEntry → Prop} {setup : Setup}
variable {s t : InstanceState} {c c' : Call} {reply : Reply}

/-- What a step of a call comes to. -/
structure Moves (lose : StagingCopy → Prop) (good : BufEntry → Prop) (s : InstanceState) (c : Call)
    (result : Call × InstanceState) : Prop where
  move : LocalMove lose good result.1 s c.pc.locals result.1.pc.locals result.2
  op : result.1.op = c.op
  id : result.1.id = c.id
  found : result.1.found = c.found ∨ c.pc = .find

theorem lookupKey_mem {key : BitVec 64} {i : Nat} (h : s.lookupKey key = some i) :
    (key, i) ∈ s.entries := by
  obtain ⟨⟨k, j⟩, hfind, rfl⟩ := Option.map_eq_some_iff.mp h
  have hkey : k = key := by simpa using List.find?_some hfind
  rw [← hkey]
  exact List.mem_of_find?_eq_some hfind

/-- A step that only moves on to where the same variables are alive. -/
theorem moves_quiet (hlocals : c'.pc.locals = c.pc.locals) (hop : c'.op = c.op)
    (hid : c'.id = c.id) (hfound : c'.found = c.found) : Moves lose good s c (c', s) := by
  refine ⟨?_, hop, hid, .inl hfound⟩
  rw [hlocals]
  exact .quiet s.queried

variable {result : Call × InstanceState}

theorem startStep_moves (hpc : c.pc = .start) (h : s.startStep c reply = some result) :
    Moves lose good s c result := by
  have hlocals : c.pc.locals = .empty := by rw [hpc]; rfl
  unfold InstanceState.startStep at h
  repeat' split at h
  all_goals first
    | (cases h; exact moves_quiet hlocals.symm rfl rfl rfl)
    | cases h

theorem precheckStep_moves {info : Option PointerInfo} (hpc : c.pc = .precheck info)
    (h : s.precheckStep setup c info = some result) : Moves lose good s c result := by
  have hlocals : c.pc.locals = .empty := by rw [hpc]; rfl
  unfold InstanceState.precheckStep at h
  repeat' split at h
  all_goals
    cases h
    exact moves_quiet hlocals.symm rfl rfl rfl

theorem hostMallocStep_moves {info : Option PointerInfo} (hpc : c.pc = .hostMalloc info)
    (h : s.hostMallocStep setup c info reply = some result) : Moves lose good s c result := by
  have hlocals : c.pc.locals = .empty := by rw [hpc]; rfl
  cases reply with
  | memory attr addr =>
      simp only [InstanceState.hostMallocStep] at h
      split at h
      · cases h
        exact moves_quiet hlocals.symm rfl rfl rfl
      · cases addr with
        | none =>
            cases h
            exact moves_quiet hlocals.symm rfl rfl rfl
        | some addr =>
            simp only [Option.ite_none_right_eq_some] at h
            obtain ⟨-, h⟩ := h
            cases h
            refine ⟨?_, rfl, rfl, .inl rfl⟩
            rw [hlocals]
            exact .gainHostBuf rfl rfl
  | threw =>
      cases h
      exact moves_quiet hlocals.symm rfl rfl rfl
  | _ => cases h

theorem insertStep_moves {entry : Nat} (hpc : c.pc = .insert entry)
    (h : s.insertStep c entry reply = some result) : Moves lose good s c result := by
  have hlocals : c.pc.locals = { Locals.empty with entry := some entry } := by rw [hpc]; rfl
  unfold InstanceState.insertStep at h
  split at h
  · cases h
    exact moves_quiet hlocals.symm rfl rfl rfl
  · rename_i hroom
    cases reply with
    | ok =>
        cases h
        refine ⟨?_, rfl, rfl, .inl rfl⟩
        rw [hlocals]
        exact .insert rfl hroom
    | fail =>
        cases h
        exact moves_quiet hlocals.symm rfl rfl rfl
    | _ => cases h

theorem reclaimStep_moves (hpc : c.pc = .reclaim)
    (h : s.reclaimStep c reply = some result) : Moves lose good s c result := by
  have hlocals : c.pc.locals = .empty := by rw [hpc]; rfl
  cases reply with
  | statuses answers =>
      obtain ⟨⟨t, r⟩, hrelease, heq⟩ := Option.map_eq_some_iff.mp h
      have hmove : ∀ d,
          LocalMove lose good d s c.pc.locals { Locals.empty with ended := r.ended } t := by
        intro d
        rw [hlocals]
        exact .release rfl hrelease
      dsimp only at heq
      split at heq
      · cases heq
        exact ⟨hmove _, rfl, rfl, .inl rfl⟩
      · cases heq
        exact ⟨hmove _, rfl, rfl, .inl rfl⟩
  | _ => cases h

theorem removeStep_moves {ended : List Copy} (hpc : c.pc = .remove ended)
    (h : s.removeStep c ended = some result) : Moves lose good s c result := by
  have hlocals : c.pc.locals = { Locals.empty with ended := ended } := by rw [hpc]; rfl
  cases ended with
  | cons copy rest =>
      cases h
      refine ⟨?_, rfl, rfl, .inl rfl⟩
      rw [hlocals]
      exact .dropOver rfl
  | nil =>
      simp only [InstanceState.removeStep] at h
      split at h
      · cases h
        exact moves_quiet hlocals.symm rfl rfl rfl
      · rename_i i hkey
        obtain ⟨cell, hcell, heq⟩ := Option.map_eq_some_iff.mp h
        split at heq
        · cases heq
          exact moves_quiet hlocals.symm rfl rfl rfl
        · rename_i hunused
          cases heq
          refine ⟨?_, rfl, rfl, .inl rfl⟩
          rw [hlocals]
          exact .remove rfl (lookupKey_mem hkey) hcell (Nat.le_of_not_lt hunused)

theorem findStep_moves (hpc : c.pc = .find) (h : s.findStep c = some result) :
    Moves lose good s c result := by
  have hlocals : c.pc.locals = .empty := by rw [hpc]; rfl
  unfold InstanceState.findStep at h
  split at h
  · cases h
    exact moves_quiet hlocals.symm rfl rfl rfl
  · rename_i i hkey
    cases h
    refine ⟨?_, rfl, rfl, .inr hpc⟩
    rw [hlocals]
    exact .find rfl (lookupKey_mem hkey) rfl

theorem checkBufferArgsStep_moves {buf : Option Nat} (hpc : c.pc = .checkBufferArgs buf)
    (h : s.checkBufferArgsStep c buf = some result) : Moves lose good s c result := by
  have hlocals : c.pc.locals = { Locals.empty with buf := buf } := by rw [hpc]; rfl
  unfold InstanceState.checkBufferArgsStep at h
  split at h
  · cases h
    exact moves_quiet hlocals.symm rfl rfl rfl
  · cases h
    exact moves_quiet hlocals.symm rfl rfl rfl

theorem checkNoAbandonedCopyStep_moves {buf : Nat} (hpc : c.pc = .checkNoAbandonedCopy buf)
    (h : s.checkNoAbandonedCopyStep c buf reply = some result) : Moves lose good s c result := by
  have hlocals : c.pc.locals = { Locals.empty with buf := some buf } := by rw [hpc]; rfl
  obtain ⟨entry, -, h⟩ := Option.bind_eq_some_iff.mp h
  split at h
  · cases h
    exact moves_quiet hlocals.symm rfl rfl rfl
  · cases reply with
    | statuses answers =>
        obtain ⟨⟨t, r⟩, hrelease, heq⟩ := Option.map_eq_some_iff.mp h
        have hmove : ∀ d, LocalMove lose good d s c.pc.locals
            { Locals.empty with buf := some buf, ended := r.ended } t := by
          intro d
          rw [hlocals]
          exact .release rfl hrelease
        dsimp only at heq
        split at heq
        · cases heq
          exact ⟨hmove _, rfl, rfl, .inl rfl⟩
        · cases heq
          exact ⟨hmove _, rfl, rfl, .inl rfl⟩
    | _ => cases h

theorem checkedStep_moves {buf : Nat} {stillRunning : Bool} {ended : List Copy}
    (hpc : c.pc = .checked buf ended stillRunning)
    (h : s.checkedStep setup c buf stillRunning ended = some result) :
    Moves lose good s c result := by
  have hlocals : c.pc.locals = { Locals.empty with buf := some buf, ended := ended } := by
    rw [hpc]
    rfl
  cases ended with
  | cons copy rest =>
      cases h
      refine ⟨?_, rfl, rfl, .inl rfl⟩
      rw [hlocals]
      exact .dropOver rfl
  | nil =>
      simp only [InstanceState.checkedStep] at h
      repeat' split at h
      all_goals first
        | (cases h; exact moves_quiet hlocals.symm rfl rfl rfl)
        | cases h

theorem buildTokenStep_moves {buf : Nat} {qpNum : BitVec 32} (hpc : c.pc = .buildToken buf qpNum)
    (h : s.buildTokenStep setup c buf qpNum reply = some result) : Moves lose good s c result := by
  have hlocals : c.pc.locals = { Locals.empty with buf := some buf } := by rw [hpc]; rfl
  obtain ⟨entry, -, h⟩ := Option.bind_eq_some_iff.mp h
  split at h
  · cases h
    exact moves_quiet hlocals.symm rfl rfl rfl
  · dsimp only at h
    split at h
    all_goals first
      | (cases h; exact moves_quiet hlocals.symm rfl rfl rfl)
      | cases h

/-- Leaving the staging with only `buf` alive. -/
theorem afterStage_moves {buf : Nat} {u : InstanceState}
    (hmove : ∀ d, LocalMove lose good d s c.pc.locals { Locals.empty with buf := some buf } u) :
    Moves lose good s c (u.afterStage c buf) := by
  unfold InstanceState.afterStage
  split
  · exact ⟨hmove _, rfl, rfl, .inl rfl⟩
  · exact ⟨hmove _, rfl, rfl, .inl rfl⟩

theorem stageStep_moves {buf : Nat} (hpc : c.pc = .stage buf)
    (h : s.stageStep c buf reply = some result) : Moves lose good s c result := by
  have hlocals : c.pc.locals = { Locals.empty with buf := some buf } := by rw [hpc]; rfl
  obtain ⟨entry, -, h⟩ := Option.bind_eq_some_iff.mp h
  split at h
  · cases h
    refine afterStage_moves fun _ => ?_
    rw [hlocals]
    exact .quiet s.queried
  · split at h
    · cases h
      exact moves_quiet hlocals.symm rfl rfl rfl
    · cases reply with
      | ok =>
          cases h
          refine ⟨?_, rfl, rfl, .inl rfl⟩
          rw [hlocals]
          exact .gainSlot rfl
      | fail =>
          cases h
          exact moves_quiet hlocals.symm rfl rfl rfl
      | _ => cases h

theorem memcpyAsyncStep_moves {buf event : Nat} (hpc : c.pc = .memcpyAsync buf event)
    (h : s.memcpyAsyncStep c buf event reply = some result) : Moves lose good s c result := by
  have hlocals : c.pc.locals =
      { Locals.empty with buf := some buf, slot := true, event := some event } := by
    rw [hpc]
    rfl
  cases reply with
  | ok =>
      obtain ⟨entry, hentry, h⟩ := Option.bind_eq_some_iff.mp h
      obtain ⟨hostBuf, hhostBuf, rfl⟩ := Option.map_eq_some_iff.mp h
      refine ⟨?_, rfl, rfl, .inl rfl⟩
      rw [hlocals]
      exact .startCopy (k := ⟨s.next, buf, hostBuf⟩) rfl rfl rfl hentry hhostBuf
  | fail | threw =>
      cases h
      exact moves_quiet hlocals.symm rfl rfl rfl
  | _ => cases h

theorem eventQueryStep_moves {buf event : Nat} {copy : StagingCopy}
    (hpc : c.pc = .eventQuery buf event copy) (hlose : reply = .threw → lose copy)
    (h : s.eventQueryStep c buf event copy reply = some result) : Moves lose good s c result := by
  have hlocals : c.pc.locals = { Locals.empty with
      buf := some buf, slot := true, event := some event, copy := some copy } := by
    rw [hpc]
    rfl
  cases reply with
  | status status expired =>
      cases status with
      | notReady =>
          simp only [InstanceState.eventQueryStep] at h
          split at h
          · cases h
            refine ⟨?_, rfl, rfl, .inl rfl⟩
            rw [hlocals]
            exact .quiet _
          · cases h
            refine ⟨?_, rfl, rfl, .inl rfl⟩
            rw [hlocals]
            exact .quiet _
      | success =>
          simp only [InstanceState.eventQueryStep, Option.ite_none_right_eq_some] at h
          obtain ⟨hover, h⟩ := h
          cases h
          refine ⟨?_, rfl, rfl, .inl rfl⟩
          rw [hlocals]
          exact .endCopy rfl hover _
      | error =>
          simp only [InstanceState.eventQueryStep, Option.ite_none_right_eq_some] at h
          obtain ⟨hover, h⟩ := h
          cases h
          refine ⟨?_, rfl, rfl, .inl rfl⟩
          rw [hlocals]
          exact .endCopy rfl hover _
  | threw =>
      cases h
      refine ⟨?_, rfl, rfl, .inl rfl⟩
      rw [hlocals]
      exact .loseCopy rfl (hlose rfl)
  | _ => cases h

theorem unwindStep_moves {locals : Locals} {error : OpError} (hpc : c.pc = .unwind locals error)
    (h : s.unwindStep c locals error = some result) : Moves lose good s c result := by
  obtain rfl : c.pc.locals = locals := by rw [hpc]; rfl
  unfold InstanceState.unwindStep at h
  split at h
  · cases h
    exact ⟨.dropOver ‹_›, rfl, rfl, .inl rfl⟩
  · cases h
    exact ⟨.closeFd ‹_›, rfl, rfl, .inl rfl⟩
  · cases h
    exact ⟨.loseEvent ‹_›, rfl, rfl, .inl rfl⟩
  · cases h
    exact ⟨.loseSlot ‹_›, rfl, rfl, .inl rfl⟩
  · cases h
    exact ⟨.loseMr ‹_›, rfl, rfl, .inl rfl⟩
  · cases h
    exact ⟨.loseHostBuf ‹_›, rfl, rfl, .inl rfl⟩
  · cases h
    exact ⟨.dropEntry ‹_›, rfl, rfl, .inl rfl⟩
  · cases h
    exact ⟨.dropBuf ‹_›, rfl, rfl, .inl rfl⟩
  · cases h

/-- A step of a call is one of the moves; a copy is lost only where its event
could not be recorded or queried. -/
theorem callStep_moves (h : s.callStep setup c reply = some result)
    (hlose : ∀ copy, c.pc.leaves reply = some copy → lose copy)
    (hgood : ∀ info mr hostBuf, c.pc = .build info mr hostBuf →
      good (InstanceState.newEntry c info mr hostBuf)) :
    Moves lose good s c result := by
  unfold InstanceState.callStep at h
  cases hpc : c.pc with
  | start => exact startStep_moves hpc (by simpa only [hpc] using h)
  | precheck info => exact precheckStep_moves hpc (by simpa only [hpc] using h)
  | hostMalloc info => exact hostMallocStep_moves hpc (by simpa only [hpc] using h)
  | insert entry => exact insertStep_moves hpc (by simpa only [hpc] using h)
  | reclaim => exact reclaimStep_moves hpc (by simpa only [hpc] using h)
  | remove ended => exact removeStep_moves hpc (by simpa only [hpc] using h)
  | find => exact findStep_moves hpc (by simpa only [hpc] using h)
  | checkBufferArgs buf => exact checkBufferArgsStep_moves hpc (by simpa only [hpc] using h)
  | checkNoAbandonedCopy buf =>
      exact checkNoAbandonedCopyStep_moves hpc (by simpa only [hpc] using h)
  | checked buf ended stillRunning => exact checkedStep_moves hpc (by simpa only [hpc] using h)
  | buildToken buf qpNum => exact buildTokenStep_moves hpc (by simpa only [hpc] using h)
  | stage buf => exact stageStep_moves hpc (by simpa only [hpc] using h)
  | memcpyAsync buf event => exact memcpyAsyncStep_moves hpc (by simpa only [hpc] using h)
  | eventQuery buf event copy =>
      refine eventQueryStep_moves hpc (fun hthrew => hlose copy ?_) (by simpa only [hpc] using h)
      rw [hpc, hthrew]
      rfl
  | unwind locals error => exact unwindStep_moves hpc (by simpa only [hpc] using h)
  | exportDmabuf info =>
      simp only [hpc] at h
      cases reply with
      | ok =>
          cases h
          exact ⟨by rw [hpc]; exact .openFd rfl, rfl, rfl, .inl rfl⟩
      | fail | threw =>
          cases h
          exact moves_quiet (by rw [hpc]; rfl) rfl rfl rfl
      | _ => cases h
  | regDmabufMr info fd =>
      simp only [hpc] at h
      cases reply with
      | mr rkey =>
          cases h
          exact ⟨by rw [hpc]; exact .gainMr rfl rfl, rfl, rfl, .inl rfl⟩
      | fail | threw =>
          cases h
          exact moves_quiet (by rw [hpc]; rfl) rfl rfl rfl
      | _ => cases h
  | closeDmabuf info fd mr =>
      simp only [hpc] at h
      cases mr with
      | some mr =>
          cases h
          exact ⟨by rw [hpc]; exact .closeFd rfl, rfl, rfl, .inl rfl⟩
      | none =>
          cases reply with
          | threw =>
              cases h
              exact moves_quiet (by rw [hpc]; rfl) rfl rfl rfl
          | _ =>
              cases h
              exact ⟨by rw [hpc]; exact .closeFd rfl, rfl, rfl, .inl rfl⟩
  | regMr info =>
      simp only [hpc] at h
      cases reply with
      | mr rkey =>
          cases h
          exact ⟨by rw [hpc]; exact .gainMr rfl rfl, rfl, rfl, .inl rfl⟩
      | fail =>
          simp only [InstanceState.regMrStep] at h
          split at h
          · cases h
            exact moves_quiet (by rw [hpc]; rfl) rfl rfl rfl
          · cases h
            exact moves_quiet (by rw [hpc]; rfl) rfl rfl rfl
      | threw =>
          cases h
          exact moves_quiet (by rw [hpc]; rfl) rfl rfl rfl
      | _ => cases h
  | regStagingMr info hostBuf =>
      simp only [hpc] at h
      cases reply with
      | mr rkey =>
          cases h
          exact ⟨by rw [hpc]; exact .gainMr rfl rfl, rfl, rfl, .inl rfl⟩
      | fail | threw =>
          cases h
          exact moves_quiet (by rw [hpc]; rfl) rfl rfl rfl
      | _ => cases h
  | build info mr hostBuf =>
      simp only [hpc] at h
      cases reply with
      | ok =>
          cases h
          refine ⟨?_, rfl, rfl, .inl rfl⟩
          rw [hpc]
          exact .build rfl rfl rfl (hgood info mr hostBuf hpc) rfl rfl
      | fail =>
          cases h
          exact moves_quiet (by rw [hpc]; rfl) rfl rfl rfl
      | _ => cases h
  | acquire buf =>
      simp only [hpc] at h
      cases reply with
      | lease outcome =>
          cases outcome with
          | error e =>
              cases h
              exact moves_quiet (by rw [hpc]; rfl) rfl rfl rfl
          | ok qpNum =>
              cases h
              exact moves_quiet (by rw [hpc]; rfl) rfl rfl rfl
      | threw =>
          cases h
          exact moves_quiet (by rw [hpc]; rfl) rfl rfl rfl
      | _ => cases h
  | sendRequest buf =>
      simp only [hpc] at h
      cases reply with
      | ok =>
          cases h
          exact moves_quiet (by rw [hpc]; rfl) rfl rfl rfl
      | fail =>
          cases h
          exact moves_quiet (by rw [hpc]; rfl) rfl rfl rfl
      | threw =>
          cases h
          exact moves_quiet (by rw [hpc]; rfl) rfl rfl rfl
      | _ => cases h
  | recvReply buf =>
      simp only [hpc] at h
      cases reply with
      | ok =>
          cases h
          exact moves_quiet (by rw [hpc]; rfl) rfl rfl rfl
      | fail =>
          cases h
          exact moves_quiet (by rw [hpc]; rfl) rfl rfl rfl
      | threw =>
          cases h
          exact moves_quiet (by rw [hpc]; rfl) rfl rfl rfl
      | _ => cases h
  | finishTransfer buf =>
      simp only [hpc] at h
      cases reply with
      | ok =>
          simp only [InstanceState.finishTransferStep] at h
          split at h
          · cases h
            exact moves_quiet (by rw [hpc]; rfl) rfl rfl rfl
          · cases h
            exact moves_quiet (by rw [hpc]; rfl) rfl rfl rfl
      | fail | threw =>
          cases h
          exact moves_quiet (by rw [hpc]; rfl) rfl rfl rfl
      | _ => cases h
  | eventCreate buf =>
      simp only [hpc] at h
      cases reply with
      | ok =>
          cases h
          exact ⟨by rw [hpc]; exact .gainEvent rfl, rfl, rfl, .inl rfl⟩
      | fail | threw =>
          cases h
          exact moves_quiet (by rw [hpc]; rfl) rfl rfl rfl
      | _ => cases h
  | eventRecord buf event copy =>
      simp only [hpc] at h
      cases reply with
      | ok =>
          cases h
          exact moves_quiet (by rw [hpc]; rfl) rfl rfl rfl
      | fail | threw =>
          cases h
          refine ⟨?_, rfl, rfl, .inl rfl⟩
          rw [hpc]
          exact .loseCopy rfl (hlose copy (by rw [hpc]; rfl))
      | _ => cases h
  | add buf event copy =>
      simp only [hpc] at h
      cases h
      refine ⟨?_, rfl, rfl, .inl rfl⟩
      rw [hpc]
      exact .add (r := ⟨buf, event, copy⟩) rfl rfl rfl rfl
  | staged buf event =>
      simp only [hpc] at h
      cases event with
      | some event =>
          cases h
          exact ⟨by rw [hpc]; exact .loseEvent rfl, rfl, rfl, .inl rfl⟩
      | none =>
          cases h
          refine afterStage_moves fun _ => ?_
          rw [hpc]
          exact .loseSlot rfl

/-- A step of a call, whatever it loses or builds. -/
theorem callStep_anyMoves (h : s.callStep setup c reply = some result) :
    Moves (fun _ => True) (fun _ => True) s c result :=
  callStep_moves h (fun _ _ => trivial) fun _ _ _ _ => trivial

end Steps

end HipObject
