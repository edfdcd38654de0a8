import HipObject.Buffer.Calls

/-!
# Registrations under concurrency

Registering is a check, a middle part without a lock that makes up to three
things, and an insertion; deregistering decides from a use count. In every
interleaving the map stays as it should, a registration succeeds exactly where
its own entry went in, nothing is released under somebody who holds it, and
nothing is left over from a registration that failed.
-/

namespace HipObject

open Verification

variable {setup : Setup} {s : InstanceState} {c : Call}

/-- What a call returns, once it does. -/
def Call.result (c : Call) : Option OpError :=
  match c.pc with
  | .unwind _ result => some result
  | _ => none

namespace InstanceState

variable (s : InstanceState)

/-- A call that found the entry holds it, or an abandoned copy does. -/
def Held (i : Nat) : Prop :=
  (∃ copy ∈ s.copies, copy.entry = i) ∨ ∃ c ∈ s.calls, i ∈ c.pc.locals.pins

/-- The map has the entry, or something holds it: a call that found, built or
removed it, or an abandoned copy. -/
def Kept (i : Nat) (e : BufEntry) : Prop :=
  s.entryAt i = some e ∧
    (i ∈ s.entries.map Prod.snd ∨ s.Held i ∨ ∃ c ∈ s.calls, c.pc.locals.entry = some i)

def LiveMr (mr : Mr) : Prop := mr ∈ s.registered ∧ mr ∉ s.deregistered

def LiveHostBuf (hostBuf : HostBuf) : Prop :=
  hostBuf ∈ s.allocated ∧ hostBuf ∉ s.freed ++ s.leaked

def OpenFd (fd : Nat) : Prop := fd ∈ s.opened ∧ fd ∉ s.closed

end InstanceState

theorem held_iff {i : Nat} : s.Held i ↔ i ∈ s.pins s.locals := by
  simp only [InstanceState.Held, InstanceState.pins, InstanceState.locals, List.mem_append,
    List.mem_map, List.mem_flatMap, exists_exists_and_eq_and]

theorem mem_refs_iff {i : Nat} : i ∈ s.refs s.locals ↔
    i ∈ s.entries.map Prod.snd ∨ s.Held i ∨ ∃ c ∈ s.calls, c.pc.locals.entry = some i := by
  simp only [held_iff, InstanceState.refs, InstanceState.pins, InstanceState.locals, Locals.refs,
    Locals.pins, List.mem_append, List.mem_flatMap, List.mem_map, exists_exists_and_eq_and,
    Option.mem_toList]
  constructor
  · rintro ((h | h) | ⟨c, hc, (h | h) | h⟩)
    · exact .inl h
    · exact .inr (.inl (.inl h))
    · exact .inr (.inl (.inr ⟨c, hc, .inl h⟩))
    · exact .inr (.inr ⟨c, hc, h⟩)
    · exact .inr (.inl (.inr ⟨c, hc, .inr h⟩))
  · rintro (h | (h | ⟨c, hc, h | h⟩) | ⟨c, hc, h⟩)
    · exact .inl (.inl h)
    · exact .inl (.inr h)
    · exact .inr ⟨c, hc, .inl (.inl h)⟩
    · exact .inr ⟨c, hc, .inr h⟩
    · exact .inr ⟨c, hc, .inl (.inr h)⟩

/-- The entries in the heap are those that are kept. -/
theorem kept_iff {i : Nat} {e : BufEntry} (h : Owned s) :
    s.Kept i e ↔ ∃ cell ∈ s.heap, cell.id = i ∧ cell.value = e := by
  rw [InstanceState.Kept, ← mem_refs_iff]
  constructor
  · rintro ⟨hentry, -⟩
    obtain ⟨cell, hlookup, hvalue⟩ := Option.map_eq_some_iff.mp hentry
    obtain ⟨hcell, hid⟩ := Cell.lookup_some hlookup
    exact ⟨cell, hcell, hid, hvalue⟩
  · rintro ⟨cell, hcell, rfl, rfl⟩
    refine ⟨?_, h.books.counted.referred cell hcell⟩
    rw [InstanceState.entryAt, h.books.counted.lookup_eq hcell, Option.map_some]

/-- Only a registration owns a memory region, a staging buffer or a file
descriptor outside of an entry. -/
theorem registers_of_owns {inserted : List (Nat × BitVec 64 × Nat)} (h : PcOk inserted c c.pc)
    (howns : c.pc.locals.mr.isSome ∨ c.pc.locals.hostBuf.isSome ∨ c.pc.locals.fd.isSome) :
    c.op.registers = true := by
  cases hpc : c.pc with
  | regDmabufMr info fd =>
      rw [hpc] at h
      exact Call.Registering.op h
  | closeDmabuf info fd mr =>
      rw [hpc] at h
      exact h.1.op
  | regStagingMr info hostBuf =>
      rw [hpc] at h
      exact h.1.op
  | build info mr hostBuf =>
      rw [hpc] at h
      exact h.1.op
  | unwind locals result =>
      rw [hpc] at h howns
      exact Call.Ended.owns h howns
  | _ => simp [hpc, Pc.locals, Locals.empty] at howns

/-! ### What is alive -/

theorem liveMr_iff (h : Owned s) (hcalls : CallsOk s) (mr : Mr) :
    s.LiveMr mr ↔ (∃ i e, s.Kept i e ∧ e.mr = mr) ∨
      ∃ c ∈ s.calls, c.op.registers = true ∧ c.pc.locals.mr = some mr := by
  rw [InstanceState.LiveMr, h.books.mrs.live_iff]
  simp only [InstanceState.heapMrs, InstanceState.locals, Locals.mrs, List.mem_append, List.mem_map,
    List.mem_flatMap, exists_exists_and_eq_and, Option.mem_toList, kept_iff h]
  refine or_congr ?_ ?_
  · constructor
    · rintro ⟨cell, hcell, rfl⟩
      exact ⟨cell.id, cell.value, ⟨cell, hcell, rfl, rfl⟩, rfl⟩
    · rintro ⟨i, e, ⟨cell, hcell, -, rfl⟩, rfl⟩
      exact ⟨cell, hcell, rfl⟩
  · refine exists_congr fun c => and_congr_right fun hc => ⟨fun hmr => ⟨?_, hmr⟩, fun hmr => hmr.2⟩
    exact registers_of_owns (hcalls.calls c (List.mem_append_left _ hc)) (.inl (by simp [hmr]))

theorem liveHostBuf_iff (h : Owned s) (hcalls : CallsOk s) (hostBuf : HostBuf) :
    s.LiveHostBuf hostBuf ↔ (∃ i e, s.Kept i e ∧ e.hostBuf = some hostBuf) ∨
      ∃ c ∈ s.calls, c.op.registers = true ∧ c.pc.locals.hostBuf = some hostBuf := by
  rw [InstanceState.LiveHostBuf, h.books.hostBufs.live_iff]
  simp only [InstanceState.heapHostBufs, InstanceState.locals, Locals.hostBufs, List.mem_append,
    List.mem_map, List.mem_flatMap, exists_exists_and_eq_and, Option.mem_toList,
    kept_iff h]
  refine or_congr ?_ ?_
  · constructor
    · rintro ⟨cell, hcell, hhas⟩
      exact ⟨cell.id, cell.value, ⟨cell, hcell, rfl, rfl⟩, hhas⟩
    · rintro ⟨i, e, ⟨cell, hcell, -, rfl⟩, hhas⟩
      exact ⟨cell, hcell, hhas⟩
  · refine exists_congr fun c => and_congr_right fun hc =>
      ⟨fun hhas => ⟨?_, hhas⟩, fun hhas => hhas.2⟩
    exact registers_of_owns (hcalls.calls c (List.mem_append_left _ hc))
      (.inr (.inl (by simp [hhas])))

theorem openFd_iff (h : Owned s) (hcalls : CallsOk s) (fd : Nat) :
    s.OpenFd fd ↔ ∃ c ∈ s.calls, c.op.registers = true ∧ c.pc.locals.fd = some fd := by
  rw [InstanceState.OpenFd, h.books.fds.live_iff]
  simp only [InstanceState.locals, Locals.fds, List.mem_map, List.mem_flatMap,
    exists_exists_and_eq_and, Option.mem_toList]
  refine exists_congr fun c => and_congr_right fun hc =>
    ⟨fun hhas => ⟨?_, hhas⟩, fun hhas => hhas.2⟩
  exact registers_of_owns (hcalls.calls c (List.mem_append_left _ hc))
    (.inr (.inr (by simp [hhas])))

/-! ### The map -/

/-- What is held is in the map, and nothing of it has been released. -/
theorem held_live (h : Owned s) (hmap : MapOk s) (hcalls : CallsOk s) {i : Nat}
    (hheld : s.Held i) : ∃ e, s.entryAt i = some e ∧ (e.key, i) ∈ s.entries ∧ s.LiveMr e.mr ∧
      ∀ hostBuf, e.hostBuf = some hostBuf → s.LiveHostBuf hostBuf := by
  obtain ⟨⟨key, i⟩, hx, rfl⟩ := List.mem_map.mp (hmap.books.pinned i (held_iff.mp hheld))
  obtain ⟨e, he, rfl⟩ := hmap.keyed _ hx
  have hkept : s.Kept i e := ⟨he, .inr (.inl hheld)⟩
  exact ⟨e, he, hx, (liveMr_iff h hcalls _).mpr (.inl ⟨i, e, hkept, rfl⟩),
    fun hostBuf hhas => (liveHostBuf_iff h hcalls _).mpr (.inl ⟨i, e, hkept, hhas⟩)⟩

/-- The critical section of `deregisterBuffer()` refuses an entry that is held. -/
theorem remove_held (h : Owned s) (hpc : c.pc = .remove []) {i : Nat}
    (hkey : s.lookupKey c.op.devPtr = some i) (hheld : s.Held i) (reply : Reply) :
    s.callStep setup c reply = some (c.ret .empty .Busy, s) := by
  have hmapped := lookupKey_mem hkey
  obtain ⟨cell, hcell, hid, hlookup⟩ :=
    h.books.counted.exists_lookup (mem_refs_of_mem_entries s.locals hmapped)
  have hused : cell.useCount > 1 := by
    by_contra hunused
    exact not_pinned_of_unused h.books hmapped hlookup (Nat.le_of_not_lt hunused)
      (held_iff.mp hheld)
  simp only [InstanceState.callStep, hpc, InstanceState.removeStep, hkey, hlookup, Option.map_some,
    if_pos hused]

/-- A registration that has returned succeeded exactly if its entry went in. -/
theorem registered_iff (hcalls : CallsOk s) (hc : c ∈ s.returned) (hop : c.op.registers = true) :
    c.result = some .Success ↔
      ∃ i, c.built = some i ∧ (c.id, c.op.devPtr, i) ∈ s.inserted := by
  obtain ⟨result, hpc⟩ := hcalls.ended c hc
  have hok := hcalls.calls c (List.mem_append_right _ hc)
  rw [hpc] at hok
  rw [Call.result, hpc, Option.some.injEq]
  exact Call.Ended.registered hok hop

/-- In every state of every run of registrations, deregistrations, lookups and
the calls that use buffers: one entry for an address, at most 256 of them, each
inserted by a registration; a registration succeeds exactly if its own entry was
inserted; what a call found or an abandoned copy uses is not released, and a
deregistration of it is refused and changes nothing; and what is alive is exactly
what entries that are kept and registrations in progress own, and was never
released twice. -/
theorem buffer_map_concurrency (h : (instanceMachine setup).Reachable s) :
    ((s.entries.map Prod.fst).Nodup ∧ s.entries.length ≤ 256 ∧
      ∀ x ∈ s.entries, ∃ id, (id, x) ∈ s.inserted) ∧
    (∀ c ∈ s.returned, c.op.registers = true →
      (c.result = some .Success ↔
        ∃ i, c.built = some i ∧ (c.id, c.op.devPtr, i) ∈ s.inserted)) ∧
    (∀ i, s.Held i → ∃ e, s.entryAt i = some e ∧ (e.key, i) ∈ s.entries ∧ s.LiveMr e.mr ∧
      ∀ hostBuf, e.hostBuf = some hostBuf → s.LiveHostBuf hostBuf) ∧
    (∀ c ∈ s.calls, c.pc = .remove [] → ∀ i, s.lookupKey c.op.devPtr = some i → s.Held i →
      ∀ reply, s.callStep setup c reply = some (c.ret .empty .Busy, s)) ∧
    (∀ mr, s.LiveMr mr ↔ (∃ i e, s.Kept i e ∧ e.mr = mr) ∨
      ∃ c ∈ s.calls, c.op.registers = true ∧ c.pc.locals.mr = some mr) ∧
    (∀ hostBuf, s.LiveHostBuf hostBuf ↔ (∃ i e, s.Kept i e ∧ e.hostBuf = some hostBuf) ∨
      ∃ c ∈ s.calls, c.op.registers = true ∧ c.pc.locals.hostBuf = some hostBuf) ∧
    (∀ fd, s.OpenFd fd ↔ ∃ c ∈ s.calls, c.op.registers = true ∧ c.pc.locals.fd = some fd) ∧
    (s.deregistered.Nodup ∧ (s.freed ++ s.leaked).Nodup ∧ s.closed.Nodup ∧
      (s.destroyed = false → s.leaked = [])) := by
  have howned := owned_of_reachable h
  have hmap := mapOk_of_reachable h
  have hcalls := callsOk_of_reachable h
  refine ⟨⟨hmap.books.keys, hmap.books.size, hcalls.entries⟩, ?_, ?_, ?_,
    liveMr_iff howned hcalls, liveHostBuf_iff howned hcalls, openFd_iff howned hcalls,
    howned.books.mrs.nodup_undone, howned.books.hostBufs.nodup_undone,
    howned.books.fds.nodup_undone, fun halive => (howned.leaked halive).1⟩
  · exact fun c hc hop => registered_iff hcalls hc hop
  · exact fun i hheld => held_live howned hmap hcalls hheld
  · exact fun c _ hpc i hkey hheld reply => remove_held howned hpc hkey hheld reply

/-- Two registrations of one address, both past the check before either inserts
its entry. The one that comes second is undone. -/
def lostRace : List ScriptLine :=
  [.begin (.registerHost 0x1000 16), .begin (.registerHost 0x1000 16), .step 0 .ok, .step 0 .ok,
    .step 1 .ok, .step 1 .ok, .step 0 (.mr 7), .step 0 .ok, .step 1 (.mr 8), .step 1 .ok,
    .step 0 .ok, .step 1 .ok, .step 1 .ok, .ret 0, .ret 1]

theorem buffer_map_after_lost_race :
    ∃ s : InstanceState, s.returned.length = 2 ∧ s.registered.length = 2 ∧ s.entries.length = 1 ∧
      (∀ c ∈ s.returned, c.op.registers = true → (c.result = some .Success ↔
        ∃ i, c.built = some i ∧ (c.id, c.op.devPtr, i) ∈ s.inserted)) ∧
      ∀ mr, s.LiveMr mr ↔ (∃ i e, s.Kept i e ∧ e.mr = mr) ∨
        ∃ c ∈ s.calls, c.op.registers = true ∧ c.pc.locals.mr = some mr := by
  obtain ⟨s, hs, hlast⟩ := Machine.exists_reachable_of_runScript (instanceMachine sampleSetup)
    ScriptLine.action lostRace
    (fun s => s.returned.length = 2 ∧ s.registered.length = 2 ∧ s.entries.length = 1) rfl
    (by decide)
  obtain ⟨hreturned, hregistered, hentries⟩ := of_decide_eq_true hlast
  have hall := buffer_map_concurrency hs
  exact ⟨s, hreturned, hregistered, hentries, hall.2.1, hall.2.2.2.2.1⟩

end HipObject
