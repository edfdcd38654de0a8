import HipObject.Buffer.Copies

/-!
# A call that is left alone

What a call does when nothing comes between its steps. A call that unwinds comes
to where nothing is left but to return; one that found a copy still running goes
on to return `hipObjBusy`; and a deregistration of a buffer that nothing holds
goes on to return success.
-/

namespace HipObject

open Verification

variable {setup : Setup} {s t u : InstanceState} {c c' d : Call} {reply : Reply}

/-- A call and its state before and after some steps of that call. -/
inductive Alone (setup : Setup) : InstanceState → Call → InstanceState → Call → Prop
  | refl {s : InstanceState} {c : Call} : Alone setup s c s c
  | step {s t u : InstanceState} {c c' d : Call} {reply : Reply} (mem : c ∈ s.calls)
      (stepped : s.callStep setup c reply = some (c', u))
      (rest : Alone setup { u with calls := c' :: s.calls.erase c } c' t d) : Alone setup s c t d

theorem instanceStep_step (hc : c ∈ s.calls) (h : s.callStep setup c reply = some (c', u)) :
    instanceStep setup s (.step c reply) = some { u with calls := c' :: s.calls.erase c } := by
  simp only [instanceStep, if_pos hc, h, Option.map_some]

theorem Alone.reachable (h : Alone setup s c t d) (hs : (instanceMachine setup).Reachable s) :
    (instanceMachine setup).Reachable t := by
  induction h with
  | refl => exact hs
  | @step s t u c c' d reply mem stepped _ ih =>
      exact ih (.step (a := .step c reply) hs trivial (instanceStep_step mem stepped))

theorem Alone.mem (h : Alone setup s c t d) (hc : c ∈ s.calls) : d ∈ t.calls := by
  induction h with
  | refl => exact hc
  | step mem stepped rest ih => exact ih List.mem_cons_self

/-! ### Unwinding -/

/-- How many local variables are left to destroy. -/
def Locals.weight (l : Locals) : Nat :=
  l.ended.length + l.fd.toList.length + l.event.toList.length + l.slot.toNat + l.mr.toList.length +
    l.hostBuf.toList.length + l.entry.toList.length + l.buf.toList.length

theorem Locals.eq_empty {l : Locals} (hcopy : l.copy = none) (h : l.weight = 0) : l = .empty := by
  obtain ⟨fd, mr, hostBuf, event, slot, copy, buf, entry, ended⟩ := l
  obtain rfl : copy = none := hcopy
  simp only [Locals.weight, Nat.add_eq_zero_iff, List.length_eq_zero_iff, Option.toList_eq_nil_iff,
    Bool.toNat_eq_zero] at h
  obtain ⟨⟨⟨⟨⟨⟨⟨rfl, rfl⟩, rfl⟩, rfl⟩, rfl⟩, rfl⟩, rfl⟩, rfl⟩ := h
  rfl

/-- Each step of unwinding destroys one variable, and leaves the map alone. -/
theorem unwindStep_weight (s : InstanceState) (c : Call) (result : OpError) {l : Locals} {n : Nat}
    (h : l.weight = n + 1) :
    ∃ l' u, s.unwindStep c l result = some (c.ret l' result, u) ∧ l'.weight = n ∧
      l'.copy = l.copy ∧ u.entries = s.entries := by
  unfold InstanceState.unwindStep
  split
  · have hover : l.ended = _ :: _ := ‹_›
    refine ⟨_, _, rfl, ?_, rfl, (dropRef_entries _ _).1⟩
    simp only [Locals.weight, hover, List.length_cons] at h ⊢
    omega
  · have hfd : l.fd = some _ := ‹_›
    refine ⟨_, _, rfl, ?_, rfl, rfl⟩
    simp only [Locals.weight, hfd, Option.toList_some, Option.toList_none, List.length_cons,
      List.length_nil] at h ⊢
    omega
  · have hevent : l.event = some _ := ‹_›
    refine ⟨_, _, rfl, ?_, rfl, rfl⟩
    simp only [Locals.weight, hevent, Option.toList_some, Option.toList_none, List.length_cons,
      List.length_nil] at h ⊢
    omega
  · have hslot : l.slot = true := ‹_›
    refine ⟨_, _, rfl, ?_, rfl, rfl⟩
    simp only [Locals.weight, hslot, Bool.toNat_true, Bool.toNat_false] at h ⊢
    omega
  · have hmr : l.mr = some _ := ‹_›
    refine ⟨_, _, rfl, ?_, rfl, rfl⟩
    simp only [Locals.weight, hmr, Option.toList_some, Option.toList_none, List.length_cons,
      List.length_nil] at h ⊢
    omega
  · have hhostBuf : l.hostBuf = some _ := ‹_›
    refine ⟨_, _, rfl, ?_, rfl, rfl⟩
    simp only [Locals.weight, hhostBuf, Option.toList_some, Option.toList_none, List.length_cons,
      List.length_nil] at h ⊢
    omega
  · have hentry : l.entry = some _ := ‹_›
    refine ⟨_, _, rfl, ?_, rfl, (dropRef_entries _ _).1⟩
    simp only [Locals.weight, hentry, Option.toList_some, Option.toList_none, List.length_cons,
      List.length_nil] at h ⊢
    omega
  · have hbuf : l.buf = some _ := ‹_›
    refine ⟨_, _, rfl, ?_, rfl, (dropRef_entries _ _).1⟩
    simp only [Locals.weight, hbuf, Option.toList_some, Option.toList_none, List.length_cons,
      List.length_nil] at h ⊢
    omega
  · rename_i hover hfd hevent hslot hmr hhostBuf hentry hbuf
    have hnil : l.ended = [] := List.eq_nil_iff_forall_not_mem.mpr fun copy hcopy => by
      obtain ⟨first, rest, hlist⟩ := List.exists_cons_of_ne_nil (List.ne_nil_of_mem hcopy)
      exact hover first rest hlist
    have hslot : l.slot = false := by simpa using hslot
    simp [Locals.weight, hnil, hslot, Option.eq_none_iff_forall_ne_some.mpr hfd,
      Option.eq_none_iff_forall_ne_some.mpr hevent, Option.eq_none_iff_forall_ne_some.mpr hmr,
      Option.eq_none_iff_forall_ne_some.mpr hhostBuf, Option.eq_none_iff_forall_ne_some.mpr hentry,
      Option.eq_none_iff_forall_ne_some.mpr hbuf] at h

/-- A call that unwinds comes to where nothing is left but to return. -/
theorem unwind_alone (setup : Setup) {l : Locals} {result : OpError} (hc : c ∈ s.calls)
    (hpc : c.pc = .unwind l result) (hcopy : l.copy = none) :
    ∃ t, Alone setup s c t (c.ret .empty result) ∧ t.entries = s.entries := by
  induction hn : l.weight generalizing s c l with
  | zero =>
      obtain rfl := Locals.eq_empty hcopy hn
      have hself : c.ret .empty result = c := by rw [Call.ret, ← hpc]
      rw [hself]
      exact ⟨s, .refl, rfl⟩
  | succ n ih =>
      obtain ⟨l', u, hstep, hweight, hcopy', hentries⟩ :=
        unwindStep_weight s c result hn
      have hstep : s.callStep setup c .ok = some (c.ret l' result, u) := by
        simp only [InstanceState.callStep, hpc, hstep]
      obtain ⟨t, halone, ht⟩ := ih (s := { u with calls := c.ret l' result :: s.calls.erase c })
        (c := c.ret l' result) List.mem_cons_self rfl (hcopy'.trans hcopy) hweight
      exact ⟨t, .step hc hstep halone, ht.trans hentries⟩

/-! ### A buffer that is blocked -/

/-- A call that found a copy still running returns `hipObjBusy`. -/
theorem checked_alone {buf : Nat} {ended : List Copy} (hc : c ∈ s.calls)
    (hpc : c.pc = .checked buf ended true) :
    ∃ t d, Alone setup s c t d ∧ d.pc = .unwind .empty .Busy := by
  induction ended generalizing s c with
  | nil =>
      have hstep : s.callStep setup c .ok =
          some (c.ret { Locals.empty with buf := some buf } .Busy, s) := by
        simp only [InstanceState.callStep, hpc, InstanceState.checkedStep, if_true]
      obtain ⟨t, halone, -⟩ := unwind_alone setup
        (s := { s with calls := c.ret { Locals.empty with buf := some buf } .Busy ::
          s.calls.erase c })
        (c := c.ret { Locals.empty with buf := some buf } .Busy) List.mem_cons_self rfl rfl
      exact ⟨t, _, .step hc hstep halone, rfl⟩
  | cons copy rest ih =>
      have hstep : s.callStep setup c .ok =
          some (c.goto (.checked buf rest true), s.dropCopy copy) := by
        simp only [InstanceState.callStep, hpc, InstanceState.checkedStep]
      obtain ⟨t, d, halone, hd⟩ := ih (s := { s.dropCopy copy with
        calls := c.goto (.checked buf rest true) :: s.calls.erase c })
        (c := c.goto (.checked buf rest true)) List.mem_cons_self rfl
      exact ⟨t, d, .step hc hstep halone, hd⟩

/-! ### A buffer that nothing holds -/

theorem lookupKey_of_mem {key : BitVec 64} {i : Nat} (h : MapBooks s s.locals)
    (hmem : (key, i) ∈ s.entries) : s.lookupKey key = some i := by
  cases hfind : s.lookupKey key with
  | none =>
      rw [InstanceState.lookupKey, Option.map_eq_none_iff, List.find?_eq_none] at hfind
      exact absurd (hfind _ hmem) (by simp)
  | some j =>
      have heq : (key, j) = (key, i) :=
        List.inj_on_of_nodup_map h.keys (lookupKey_mem hfind) hmem rfl
      rw [(Prod.mk.inj heq).2]

/-- The map refers to an entry once. -/
theorem count_entries_le {i : Nat} (h : MapOk s) : (s.entries.map Prod.snd).count i ≤ 1 := by
  have hnodup : (s.entries.map Prod.snd).Nodup := by
    refine List.Nodup.map_on ?_ (List.Nodup.of_map _ h.books.keys)
    rintro ⟨k, i⟩ hx ⟨k', i'⟩ hy hsame
    obtain rfl : i = i' := hsame
    obtain ⟨e, he, rfl⟩ := h.keyed _ hx
    obtain ⟨e', he', rfl⟩ := h.keyed _ hy
    obtain rfl : e = e' := Option.some.inj (he.symm.trans he')
    rfl
  exact List.nodup_iff_count_le_one.mp hnodup i

/-- The critical section of `deregisterBuffer()` takes out an entry that nothing
but the map refers to. -/
theorem remove_unheld (setup : Setup) {i : Nat} (h : Owned s) (hmap : MapOk s) (hc : c ∈ s.calls)
    (hpc : c.pc = .remove []) (hkey : s.lookupKey c.op.devPtr = some i)
    (hrecords : ∀ r ∈ s.copies, r.entry ≠ i)
    (hothers : ∀ d ∈ s.calls.erase c, i ∉ d.pc.locals.refs) (reply : Reply) :
    s.callStep setup c reply = some (c.ret { Locals.empty with entry := some i } .Success,
      { s with entries := s.entries.erase (c.op.devPtr, i) }) := by
  have hmapped := lookupKey_mem hkey
  obtain ⟨cell, hcell, hid, hlookup⟩ :=
    h.books.counted.exists_lookup (mem_refs_of_mem_entries s.locals hmapped)
  have hused : ¬ cell.useCount > 1 := by
    have hcount := h.books.counted.useCount cell hcell
    have hentries := count_entries_le (i := i) hmap
    have hcopies : (s.copies.map Copy.entry).count i = 0 := by
      rw [List.count_eq_zero]
      intro hmem
      obtain ⟨r, hr, hri⟩ := List.mem_map.mp hmem
      exact hrecords r hr hri
    have hcalls : (s.locals.flatMap Locals.refs).count i = 0 := by
      rw [List.count_eq_zero, ((locals_perm hc).flatMap_right Locals.refs).mem_iff]
      intro hmem
      rw [List.flatMap_cons, hpc, List.mem_append] at hmem
      obtain hmem | hmem := hmem
      · cases hmem
      · obtain ⟨l, hl, hi⟩ := List.mem_flatMap.mp hmem
        obtain ⟨d, hd, rfl⟩ := List.mem_map.mp hl
        exact hothers d hd hi
    simp only [InstanceState.refs, List.count_append, hid] at hcount
    omega
  simp only [InstanceState.callStep, hpc, InstanceState.removeStep, hkey, hlookup, Option.map_some,
    if_neg hused]

/-- A deregistration returns success if nothing holds the buffer. -/
theorem remove_alone {i : Nat} {ended : List Copy} (hs : (instanceMachine setup).Reachable s)
    (hc : c ∈ s.calls) (hpc : c.pc = .remove ended) (hkey : s.lookupKey c.op.devPtr = some i)
    (hrecords : ∀ r ∈ s.copies, r.entry ≠ i)
    (hothers : ∀ d ∈ s.calls.erase c, i ∉ d.pc.locals.refs) :
    ∃ t d, Alone setup s c t d ∧ d.pc = .unwind .empty .Success ∧
      c.op.devPtr ∉ t.entries.map Prod.fst := by
  induction ended generalizing s c with
  | nil =>
      have hmap := mapOk_of_reachable hs
      have hstep := remove_unheld setup (owned_of_reachable hs) hmap hc hpc hkey hrecords
        hothers .ok
      obtain ⟨t, halone, ht⟩ := unwind_alone setup
        (s := { s with
          entries := s.entries.erase (c.op.devPtr, i)
          calls := c.ret { Locals.empty with entry := some i } .Success :: s.calls.erase c })
        (c := c.ret { Locals.empty with entry := some i } .Success) List.mem_cons_self rfl rfl
      refine ⟨t, _, .step hc hstep halone, rfl, ?_⟩
      rw [ht]
      have hperm := (List.perm_cons_erase (lookupKey_mem hkey)).map Prod.fst
      exact (List.nodup_cons.mp (hperm.nodup_iff.mp hmap.books.keys)).1
  | cons copy rest ih =>
      have hstep : s.callStep setup c .ok = some (c.goto (.remove rest), s.dropCopy copy) := by
        simp only [InstanceState.callStep, hpc, InstanceState.removeStep]
      obtain ⟨hentries, hcopies⟩ := dropRef_entries (s.destroyEvent copy.done) copy.entry
      have hentries : (s.dropCopy copy).entries = s.entries := hentries
      have hcopies : (s.dropCopy copy).copies = s.copies := hcopies
      obtain ⟨t, d, halone, hd, hgone⟩ := ih
        (s := { s.dropCopy copy with calls := c.goto (.remove rest) :: s.calls.erase c })
        (c := c.goto (.remove rest))
        (.step (a := .step c .ok) hs trivial (instanceStep_step hc hstep)) List.mem_cons_self rfl
        (by rw [← hkey]; simp only [InstanceState.lookupKey, hentries]; rfl)
        (by simpa only [hcopies] using hrecords)
        (by simpa only [List.erase_cons_head] using hothers)
      exact ⟨t, d, .step hc hstep halone, hd, hgone⟩

end HipObject
