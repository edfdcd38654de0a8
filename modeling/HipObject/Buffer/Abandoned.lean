import HipObject.Buffer.Alone
import Mathlib.Logic.Relation

/-!
# Abandoned copies pin and block their buffer

A copy that timed out leaves a record, and the record keeps its entry in the map.
Calls that would use the staging buffer meanwhile are refused, a record goes away
only when its event says that the copy is over, and an instance that is destroyed
leaks exactly the staging buffers and events whose copies are not.
-/

namespace HipObject

open Verification

variable {setup : Setup} {s t u : InstanceState} {c c' : Call} {reply : Reply}
variable {lose : StagingCopy → Prop} {good : BufEntry → Prop} {l l' : Locals}

/-! ### The loop of `release()` -/

section ReleaseLoop

variable {entry : Option Nat} {answers : Copy → InstanceState.Answer} {copies : List Copy}

/-- A loop that ends keeps the copies that it skips or that are still running. -/
theorem releaseLoop_kept (h : (InstanceState.releaseLoop entry answers copies).threw = false) :
    (InstanceState.releaseLoop entry answers copies).kept = copies.filter fun r =>
      entry.any (· ≠ r.entry) || (answers r).status = .notReady := by
  induction copies with
  | nil => rfl
  | cons copy rest ih =>
      unfold InstanceState.releaseLoop at h ⊢
      rw [List.filter_cons]
      split at h
      · rename_i hother
        rw [if_pos hother, if_pos (Bool.or_eq_true_iff.mpr (.inl hother)), ← ih h]
      · rename_i hselected
        rw [if_neg hselected]
        split at h
        · cases h
        · rename_i hanswers
          rw [if_neg hanswers]
          split at h
          · rename_i hstatus
            rw [if_pos (Bool.or_eq_true_iff.mpr (.inr (decide_eq_true hstatus))), ← ih h]
          · rename_i hstatus
            split at h
            · cases h
            · rename_i hmemory
              have hdropped : ¬ (entry.any (· ≠ copy.entry) ||
                  decide ((answers copy).status = .notReady)) = true := by
                rw [Bool.or_eq_true, not_or]
                exact ⟨hselected, by simpa using hstatus⟩
              rw [if_neg hmemory, if_neg hdropped, ← ih h]

/-- It finds a copy still running if one that it doesn't skip is. -/
theorem releaseLoop_stillRunning
    (h : (InstanceState.releaseLoop entry answers copies).threw = false) {r : Copy}
    (hr : r ∈ copies) (hselected : entry.any (· ≠ r.entry) = false)
    (hstatus : (answers r).status = .notReady) :
    (InstanceState.releaseLoop entry answers copies).stillRunning = true := by
  induction copies with
  | nil => cases hr
  | cons copy rest ih =>
      unfold InstanceState.releaseLoop at h ⊢
      split at h
      · rename_i hother
        rw [if_pos hother]
        rcases List.mem_cons.mp hr with rfl | hr
        · cases hselected.symm.trans hother
        · exact ih h hr
      · rename_i hcopy
        rw [if_neg hcopy]
        split at h
        · cases h
        · rename_i hanswers
          rw [if_neg hanswers]
          split at h
          · rfl
          · rename_i hover
            split at h
            · cases h
            · rename_i hmemory
              rw [if_neg hmemory]
              rcases List.mem_cons.mp hr with rfl | hr
              · exact absurd hstatus hover
              · exact ih h hr

/-- It throws only at a copy that is over, when there is no memory, or where the query
throws. -/
theorem releaseLoop_threw (h : (InstanceState.releaseLoop entry answers copies).threw = true) :
    ∃ r ∈ copies, entry.any (· ≠ r.entry) = false ∧
      ((answers r).status ≠ .notReady ∧ (answers r).noMemory = true ∨
        (answers r).throws = true) := by
  induction copies with
  | nil => cases h
  | cons copy rest ih =>
      have hrest : (InstanceState.releaseLoop entry answers rest).threw = true →
          ∃ r ∈ copy :: rest, entry.any (· ≠ r.entry) = false ∧
            ((answers r).status ≠ .notReady ∧ (answers r).noMemory = true ∨
              (answers r).throws = true) := by
        intro h
        obtain ⟨r, hr, hfacts⟩ := ih h
        exact ⟨r, List.mem_cons_of_mem _ hr, hfacts⟩
      unfold InstanceState.releaseLoop at h
      split at h
      · exact hrest h
      · rename_i hselected
        have hselected : entry.any (· ≠ copy.entry) = false := by simpa using hselected
        split at h
        · rename_i hthrows
          exact ⟨copy, List.mem_cons_self, hselected, .inr hthrows⟩
        · split at h
          · exact hrest h
          · rename_i hstatus
            split at h
            · rename_i hmemory
              exact ⟨copy, List.mem_cons_self, hselected, .inl ⟨hstatus, hmemory⟩⟩
            · exact hrest h

end ReleaseLoop

/-! ### Blocking -/

/-- A check of a buffer with a copy still running blocks the call, unless there is
no memory to collect another copy that is over, or a query throws. -/
theorem check_blocks {i : Nat} {r : Copy} (hcopies : CopiesOk s)
    (hpc : c.pc = .checkNoAbandonedCopy i) (hr : r ∈ s.copies) (hentry : r.entry = i)
    (h : s.callStep setup c reply = some (c', u)) :
    ∃ answers, reply = .statuses answers ∧ ((answers r).status = .notReady →
      c'.blocked = true ∨ c'.result = some .InternalError ∧ c'.effects = c.effects ∧
        ∃ ended ∈ s.copies, ended.entry = i ∧
          ((answers ended).status ≠ .notReady ∧ (answers ended).noMemory = true ∨
            (answers ended).throws = true)) := by
  subst hentry
  simp only [InstanceState.callStep, hpc] at h
  obtain ⟨e, he, h⟩ := Option.bind_eq_some_iff.mp h
  obtain ⟨hown, hstarted⟩ := hcopies.records r hr
  have hstaged : e.hostBuf = some r.copy.hostBuf := hcopies.hostBuf r.copy hstarted e (hown ▸ he)
  rw [hstaged, Option.isNone_some, if_neg (by simp)] at h
  cases reply with
  | statuses answers =>
      refine ⟨answers, rfl, fun hstatus => ?_⟩
      obtain ⟨⟨u', rel⟩, hrelease, heq⟩ := Option.map_eq_some_iff.mp h
      unfold InstanceState.release at hrelease
      simp only [Option.ite_none_right_eq_some, Option.some.injEq, Prod.mk.injEq] at hrelease
      obtain ⟨-, rfl, rfl⟩ := hrelease
      dsimp only at heq
      split at heq
      · rename_i hthrew
        cases heq
        obtain ⟨ended, hmem, hselected, hraises⟩ := releaseLoop_threw hthrew
        have hsame : r.entry = ended.entry := by simpa using hselected
        exact .inr ⟨rfl, rfl, ended, hmem, hsame.symm, hraises⟩
      · rename_i hended
        cases heq
        left
        exact releaseLoop_stillRunning (by simpa using hended) hr (by simp) hstatus
  | _ => cases h

/-- A call that is blocked has done nothing that the outside sees. -/
theorem blocked_phase {inserted : List (Nat × BitVec 64 × Nat)} (h : PcOk inserted c c.pc)
    (hblocked : c.blocked = true) : c.effects = [] ∧
      ((∃ buf ended, c.pc = .checked buf ended true) ∨
        ∃ locals, c.pc = .unwind locals .Busy ∧ locals.copy = none) := by
  obtain ⟨-, hnot⟩ | hworking | ⟨buf, ended, stillRunning, hpc, heffects, hstill⟩ |
    ⟨locals, result, hpc, hended⟩ := h.phase
  · cases hnot.symm.trans hblocked
  · cases hworking.blocked.symm.trans hblocked
  · rw [hblocked] at hstill
    exact ⟨heffects, .inl ⟨buf, ended, hstill ▸ hpc⟩⟩
  · refine ⟨?_, .inr ⟨locals, hended.blocked hblocked ▸ hpc, hended.copy⟩⟩
    by_contra heffects
    cases (hended.effects heffects).blocked.symm.trans hblocked

theorem blocked_result {inserted : List (Nat × BitVec 64 × Nat)} (h : PcOk inserted c c.pc)
    (hblocked : c.blocked = true) : c.result = none ∨ c.result = some .Busy := by
  obtain ⟨-, ⟨buf, ended, hpc⟩ | ⟨locals, hpc, -⟩⟩ := blocked_phase h hblocked
  · exact .inl (by rw [Call.result, hpc])
  · exact .inr (by rw [Call.result, hpc])

theorem blocked_returns (hcalls : CallsOk s) (hc : c ∈ s.calls) (hblocked : c.blocked = true) :
    ∃ t d, Alone setup s c t d ∧ d.pc = .unwind .empty .Busy := by
  obtain ⟨-, ⟨buf, ended, hpc⟩ | ⟨locals, hpc, hcopy⟩⟩ :=
    blocked_phase (hcalls.calls c (List.mem_append_left _ hc)) hblocked
  · exact checked_alone hc hpc
  · obtain ⟨t, halone, -⟩ := unwind_alone setup hc hpc hcopy
    exact ⟨t, _, halone, rfl⟩

/-! ### Removing records -/

/-- A record goes away only when a query of its event just now said that the copy
is over. -/
def OverNow (s t : InstanceState) (r : Copy) : Prop :=
  ∃ queried status, t.queried = queried ++ s.queried ∧ status ≠ .notReady ∧
    (r.done, status) ∈ queried

theorem LocalMove.removes {r : Copy} (h : LocalMove lose good c s l l' t) (hr : r ∈ s.copies) :
    r ∈ t.copies ∨ OverNow s t r := by
  cases h with
  | add buf event slot has => exact .inl (List.mem_append_left _ hr)
  | dropEntry has => exact .inl ((dropRef_entries s _).2.symm ▸ hr)
  | dropBuf has => exact .inl ((dropRef_entries s _).2.symm ▸ hr)
  | @dropOver copy rest has =>
      exact .inl ((dropRef_entries (s.destroyEvent copy.done) copy.entry).2.symm ▸ hr)
  | release free released =>
      obtain ⟨hperm, -, ht⟩ := release_spec released
      unfold InstanceState.release at released
      simp only [Option.ite_none_right_eq_some, Option.some.injEq, Prod.mk.injEq] at released
      obtain ⟨-, rfl, rfl⟩ := released
      refine (List.mem_append.mp (hperm.mem_iff.mp hr)).imp id fun hover => ?_
      obtain ⟨hstatus, hmem⟩ := releaseLoop_over hover
      exact ⟨_, _, rfl, hstatus, List.mem_reverse.mpr (List.mem_map.mpr ⟨_, hmem, rfl⟩)⟩
  | _ => exact .inl hr

/-- A deregistration whose buffer nothing holds, and all whose copies are over,
returns success. -/
theorem reclaim_alone {i : Nat} {answers : Copy → InstanceState.Answer}
    (hs : (instanceMachine setup).Reachable s) (hc : c ∈ s.calls) (hpc : c.pc = .reclaim)
    (hkey : s.lookupKey c.op.devPtr = some i) (hheld : ∀ d ∈ s.calls, i ∉ d.pc.locals.refs)
    (hover : ∀ r ∈ s.copies, r.entry = i → (answers r).status ≠ .notReady)
    (hmemory : ∀ r ∈ s.copies, (answers r).noMemory = false)
    (hanswers : ∀ r ∈ s.copies, (answers r).throws = false)
    (htruthful : ∀ r ∈ s.copies, (answers r).status ≠ .notReady → r.copy ∈ s.finished) :
    ∃ c' u t d, s.callStep setup c (.statuses answers) = some (c', u) ∧
      Alone setup { u with calls := c' :: s.calls.erase c } c' t d ∧
      d.pc = .unwind .empty .Success ∧ c.op.devPtr ∉ t.entries.map Prod.fst := by
  set rel := InstanceState.releaseLoop none answers s.copies with hrel
  have hended : rel.threw = false := by
    by_contra hthrew
    obtain ⟨r, hr, -, ⟨-, hfull⟩ | hthrows⟩ :=
      releaseLoop_threw (Bool.eq_true_of_not_eq_false hthrew)
    · cases (hmemory r hr).symm.trans hfull
    · cases (hanswers r hr).symm.trans hthrows
  have htrue : s.Truthful rel.queries := by
    intro q hq hstatus
    obtain ⟨hmem, hanswer⟩ := releaseLoop_queries hq
    exact htruthful q.1 hmem (hanswer ▸ hstatus)
  have hstep : s.callStep setup c (.statuses answers) = some (c.goto (.remove rel.ended), { s with
      copies := rel.kept
      queried := (rel.queries.map fun q => (q.1.done, q.2)).reverse ++ s.queried }) := by
    simp only [InstanceState.callStep, hpc, InstanceState.reclaimStep, InstanceState.release,
      ← hrel, if_pos htrue, Option.map_some, hended, Bool.false_eq_true, if_false]
  obtain ⟨t, d, halone, hd, hgone⟩ := remove_alone (i := i)
    (.step (a := .step c (.statuses answers)) hs trivial (instanceStep_step hc hstep))
    List.mem_cons_self rfl hkey
    (by
      intro r hr hentry
      have hr : r ∈ rel.kept := hr
      rw [hrel, releaseLoop_kept hended] at hr
      obtain ⟨hr, hkept⟩ := List.mem_filter.mp hr
      exact hover r hr hentry (by simpa using hkept))
    (by
      intro x hx
      rw [List.erase_cons_head] at hx
      exact hheld x (List.mem_of_mem_erase hx))
  exact ⟨_, _, t, d, hstep, halone, hd, hgone⟩

/-! ### Destroying the instance -/

theorem destroyed_step {a : InstanceAction} (hs : Owned s) (hdestroyed : s.destroyed = true)
    (h : instanceStep setup s a = some t) :
    t.destroyed = true ∧ t.deregistered = s.deregistered ∧ t.freed = s.freed ∧
      t.eventsDestroyed = s.eventsDestroyed := by
  obtain ⟨hretired, hidle, -⟩ := hs.ended hdestroyed
  cases instanceStep_anyMove h with
  | begin current => cases current.symm.trans hretired
  | step mem stepped moves =>
      rw [hidle] at mem
      cases mem
  | ret mem pc =>
      rw [hidle] at mem
      cases mem
  | finishCopy started => exact ⟨hdestroyed, rfl, rfl, rfl⟩
  | shutdown => exact ⟨hdestroyed, rfl, rfl, rfl⟩
  | destroy retired alive idle all truthful => cases alive.symm.trans hdestroyed

/-- The states of a run from a state on. -/
def Later (setup : Setup) : InstanceState → InstanceState → Prop :=
  Relation.ReflTransGen fun s t => ∃ a, instanceStep setup s a = some t

/-- Nothing more is released once the instance is destroyed. -/
theorem destroyed_later (hs : (instanceMachine setup).Reachable s) (hdestroyed : s.destroyed = true)
    (h : Later setup s t) :
    (instanceMachine setup).Reachable t ∧ t.destroyed = true ∧
      t.deregistered = s.deregistered ∧ t.freed = s.freed ∧
      t.eventsDestroyed = s.eventsDestroyed := by
  induction h with
  | refl => exact ⟨hs, hdestroyed, rfl, rfl, rfl⟩
  | tail _ hstep ih =>
      obtain ⟨hreached, hover, hmrs, hfreed, hevents⟩ := ih
      obtain ⟨a, hstep⟩ := hstep
      obtain ⟨hover', hmrs', hfreed', hevents'⟩ :=
        destroyed_step (owned_of_reachable hreached) hover hstep
      exact ⟨.step hreached trivial hstep, hover', hmrs'.trans hmrs, hfreed'.trans hfreed,
        hevents'.trans hevents⟩

/-- What becomes of everything when the instance is destroyed. -/
structure Destroyed (s t : InstanceState) (answers : Copy → EventStatus) : Prop where
  ended : t.destroyed = true
  deregistered : t.deregistered.Perm t.registered ∧ t.deregistered.Nodup
  hostBufs : (t.freed ++ t.leaked).Perm t.allocated ∧ (t.freed ++ t.leaked).Nodup
  events : (t.eventsDestroyed ++ t.eventsLeaked).Perm t.created ∧
    (t.eventsDestroyed ++ t.eventsLeaked).Nodup
  leaked : ∀ hostBuf, hostBuf ∈ t.leaked ↔
    ∃ r ∈ s.copies, answers r = .notReady ∧ r.copy.hostBuf = hostBuf
  eventsLeaked : ∀ event, event ∈ t.eventsLeaked ↔
    ∃ r ∈ s.copies, answers r = .notReady ∧ r.done = event
  running : ∀ r ∈ s.copies, r.copy ∉ s.finished → answers r = .notReady

/-- Only the staging buffer of a copy that wasn't over is leaked. -/
theorem leaked_only {queries : List (Copy × EventStatus)} {hostBuf : HostBuf} (hs : Owned s)
    (hcopies : CopiesOk s) (halive : s.destroyed = false) (hidle : s.calls = [])
    (hall : queries.map Prod.fst = s.copies)
    (h : hostBuf ∈ (s.destroyInstance queries).leaked) :
    ∃ r, (r, .notReady) ∈ queries ∧ r.copy.hostBuf = hostBuf := by
  have hbooks := hs.books
  rw [InstanceState.locals, hidle, List.map_nil] at hbooks
  obtain ⟨hafter, -, hfate, hfreed, deregistered, freed, leaked, heq⟩ :=
    destroyInstance_spec hbooks hs.unmarked hall
  have hnotFreed : hostBuf ∉ (s.destroyInstance queries).freed := fun hmem =>
    List.disjoint_of_nodup_append hafter.hostBufs.nodup_undone hmem h
  -- It was in the heap before: nothing else was left to leak.
  have hallocated : hostBuf ∈ s.allocated := by
    have hmade := hafter.hostBufs.perm.mem_iff.mpr
      (List.mem_append_left _ (List.mem_append_right _ h))
    simpa only [heq] using hmade
  have hheap : hostBuf ∈ s.heapHostBufs := by
    have hwhere := hbooks.hostBufs.perm.mem_iff.mp hallocated
    simp only [(hs.leaked halive).1, List.flatMap_nil, List.append_nil, List.mem_append] at hwhere
    exact hwhere.resolve_left fun hmem => hnotFreed (hfreed _ hmem)
  obtain ⟨e, he, hhas⟩ := List.mem_flatMap.mp hheap
  obtain ⟨cell, hcell, rfl⟩ := List.mem_map.mp he
  have hhas : cell.value.hostBuf = some hostBuf := Option.mem_toList.mp hhas
  have hmarked : cell.id ∈ leakedEntries queries := by
    by_contra hkept
    exact hnotFreed ((hfate cell hcell _ hhas).2 hkept)
  obtain ⟨⟨r, status⟩, hmem, hid⟩ := List.mem_map.mp hmarked
  obtain ⟨hmem, hstatus⟩ := List.mem_filter.mp hmem
  obtain rfl : status = .notReady := of_decide_eq_true hstatus
  refine ⟨r, hmem, ?_⟩
  obtain ⟨hentry, hstarted⟩ := hcopies.records r (hall ▸ List.mem_map_of_mem hmem)
  have hid : r.entry = cell.id := hid
  have hstaged := hcopies.hostBuf r.copy hstarted cell.value (by
    rw [← hentry, hid, InstanceState.entryAt, hbooks.counted.lookup_eq hcell, Option.map_some])
  exact Option.some.inj (hstaged.symm.trans hhas)

theorem destroy_spec {answers : Copy → EventStatus} (hs : Owned s) (hcopies : CopiesOk s)
    (h : instanceStep setup s (.destroy answers) = some t) : Destroyed s t answers := by
  obtain ⟨-, halive, hidle, htruthful, rfl⟩ := instanceStep_destroy_eq h
  set queries := s.copies.map fun copy => (copy, answers copy) with hqueries
  have hall : queries.map Prod.fst = s.copies := by simp [hqueries, Function.comp_def]
  have hnotReady : ∀ r, (r, EventStatus.notReady) ∈ queries ↔
      r ∈ s.copies ∧ answers r = .notReady := by
    intro r
    simp only [hqueries, List.mem_map, Prod.mk.injEq]
    constructor
    · rintro ⟨r, hr, rfl, hstatus⟩
      exact ⟨hr, hstatus⟩
    · rintro ⟨hr, hstatus⟩
      exact ⟨r, hr, rfl, hstatus⟩
  have hlocals : s.locals = [] := by rw [InstanceState.locals, hidle, List.map_nil]
  have hbooks := hs.books
  rw [hlocals] at hbooks
  obtain ⟨hafter, hheap, -, -, deregistered, freed, leaked, heq⟩ :=
    destroyInstance_spec hbooks hs.unmarked hall
  obtain ⟨-, hnoEvents⟩ := hs.leaked halive
  have hmrs : Balanced (s.destroyInstance queries).registered
      (s.destroyInstance queries).deregistered [] := by
    simpa [InstanceState.heapMrs, hheap] using hafter.mrs
  have hhostBufs : Balanced (s.destroyInstance queries).allocated
      ((s.destroyInstance queries).freed ++ (s.destroyInstance queries).leaked) [] := by
    simpa [InstanceState.heapHostBufs, hheap] using hafter.hostBufs
  have hevents : Balanced (s.destroyInstance queries).created
      ((s.destroyInstance queries).eventsDestroyed ++ (s.destroyInstance queries).eventsLeaked)
      [] := by
    have hnone : (s.destroyInstance queries).copies = [] := by rw [heq]
    simpa [hnone] using hafter.events
  refine ⟨by rw [heq], ⟨?_, hmrs.nodup_undone⟩, ⟨?_, hhostBufs.nodup_undone⟩,
    ⟨?_, hevents.nodup_undone⟩, ?_, ?_, ?_⟩
  · simpa using hmrs.perm.symm
  · simpa using hhostBufs.perm.symm
  · simpa using hevents.perm.symm
  · intro hostBuf
    constructor
    · intro hleaked
      obtain ⟨r, hmem, rfl⟩ := leaked_only hs hcopies halive hidle hall hleaked
      obtain ⟨hr, hstatus⟩ := (hnotReady r).mp hmem
      exact ⟨r, hr, hstatus, rfl⟩
    · rintro ⟨r, hr, hstatus, rfl⟩
      exact destroy_leaks hs hcopies hidle hall hr ((hnotReady r).mpr ⟨hr, hstatus⟩)
  · intro event
    have hleaked : (s.destroyInstance queries).eventsLeaked = (leakedEvents queries).reverse := by
      rw [heq, hnoEvents, List.append_nil]
    rw [hleaked, List.mem_reverse, leakedEvents, hqueries]
    simp [List.filter_map, and_assoc]
  · intro r hr hrunning
    by_contra hover
    exact hrunning (htruthful (r, answers r) (List.mem_map_of_mem hr) hover)

/-! ### What it comes to -/

theorem step_removes {a : InstanceAction} {r : Copy} (h : instanceStep setup s a = some t)
    (halive : t.destroyed = false) (hr : r ∈ s.copies) : r ∈ t.copies ∨ OverNow s t r := by
  cases instanceStep_anyMove h with
  | step mem stepped moves => exact moves.move.removes hr
  | @destroy queries retired alive idle all truthful =>
      cases (show (s.destroyInstance queries).destroyed = true from rfl).symm.trans halive
  | _ => exact .inl hr

/-- What abandoned copies mean for the calls and for the end of the instance. -/
structure AbandonedCopiesHold (setup : Setup) (s : InstanceState) : Prop where
  /-- The entry of a record is in the map under its own key, where the critical
  section of `deregisterBuffer()` refuses it. -/
  pinned : ∀ r ∈ s.copies, ∃ e, s.entryAt r.entry = some e ∧ (e.key, r.entry) ∈ s.entries ∧
    ∀ c ∈ s.calls, c.pc = .remove [] → c.op.devPtr = e.key →
      ∀ reply, s.callStep setup c reply = some (c.ret .empty .Busy, s)
  /-- A check that meets a copy still running blocks the call. If there is no memory
  to take out another copy, or a query throws, the call returns
  `hipObjInternalError` instead. -/
  checked : ∀ c ∈ s.calls, ∀ r ∈ s.copies, c.pc = .checkNoAbandonedCopy r.entry →
    ∀ reply c' u, s.callStep setup c reply = some (c', u) →
      ∃ answers, reply = .statuses answers ∧ ((answers r).status = .notReady →
        c'.blocked = true ∨ c'.result = some .InternalError ∧ c'.effects = [] ∧
          ∃ ended ∈ s.copies, ended.entry = r.entry ∧
            ((answers ended).status ≠ .notReady ∧ (answers ended).noMemory = true ∨
              (answers ended).throws = true))
  /-- A blocked call never does anything that the outside sees. It returns
  `hipObjBusy` if it returns, and if it is left alone it does. -/
  blocked : ∀ c ∈ s.allCalls, c.blocked = true →
    c.effects = [] ∧ (c.result = none ∨ c.result = some .Busy)
  returns : ∀ c ∈ s.calls, c.blocked = true →
    ∃ t d, Alone setup s c t d ∧ d.pc = .unwind .empty .Busy
  /-- A record is removed only when its event says that the copy is over. -/
  removed : ∀ a t, instanceStep setup s a = some t → t.destroyed = false →
    ∀ r ∈ s.copies, r ∉ t.copies → OverNow s t r
  /-- The critical section of `deregisterBuffer()` takes out what nothing holds. -/
  deregistered : ∀ c ∈ s.calls, c.pc = .remove [] → ∀ i, s.lookupKey c.op.devPtr = some i →
    (∀ r ∈ s.copies, r.entry ≠ i) → (∀ d ∈ s.calls.erase c, i ∉ d.pc.locals.refs) →
      ∀ reply, s.callStep setup c reply = some
        (c.ret { Locals.empty with entry := some i } .Success,
          { s with entries := s.entries.erase (c.op.devPtr, i) })
  /-- A deregistration of a buffer that no call holds and all whose copies are over
  succeeds if it is left alone, has memory, and every query answers. -/
  reclaimed : ∀ c ∈ s.calls, c.pc = .reclaim → ∀ i, s.lookupKey c.op.devPtr = some i →
    (∀ d ∈ s.calls, i ∉ d.pc.locals.refs) → ∀ answers : Copy → InstanceState.Answer,
      (∀ r ∈ s.copies, r.entry = i → (answers r).status ≠ .notReady) →
      (∀ r ∈ s.copies, (answers r).noMemory = false) →
      (∀ r ∈ s.copies, (answers r).throws = false) →
      (∀ r ∈ s.copies, (answers r).status ≠ .notReady → r.copy ∈ s.finished) →
        ∃ c' u t d, s.callStep setup c (.statuses answers) = some (c', u) ∧
          Alone setup { u with calls := c' :: s.calls.erase c } c' t d ∧
          d.pc = .unwind .empty .Success ∧ c.op.devPtr ∉ t.entries.map Prod.fst
  /-- Destroying the instance deregisters every MR once, and leaks the staging
  buffers and events of the copies still running, for good. -/
  destroyed : ∀ answers t, instanceStep setup s (.destroy answers) = some t →
    Destroyed s t answers ∧ ∀ u, Later setup t u →
      u.deregistered = t.deregistered ∧ u.freed = t.freed ∧ u.eventsDestroyed = t.eventsDestroyed

/-- In every reachable state, abandoned copies pin and block their buffer. -/
theorem abandoned_copies_hold (h : (instanceMachine setup).Reachable s) :
    AbandonedCopiesHold setup s := by
  have howned := owned_of_reachable h
  have hmap := mapOk_of_reachable h
  have hcalls := callsOk_of_reachable h
  have hcopies := copiesOk_of_reachable h
  refine ⟨?_, ?_, ?_, ?_, ?_, ?_, ?_, ?_⟩
  · intro r hr
    have hheld : s.Held r.entry := .inl ⟨r, hr, rfl⟩
    obtain ⟨e, he, hmem, -⟩ := held_live howned hmap hcalls hheld
    refine ⟨e, he, hmem, fun c _ hpc hkey reply => ?_⟩
    exact remove_held howned hpc (hkey ▸ lookupKey_of_mem hmap.books hmem) hheld reply
  · intro c hc r hr hpc reply c' u hstep
    have hnone : c.effects = [] := by
      have hok := hcalls.calls c (List.mem_append_left _ hc)
      rw [hpc] at hok
      exact hok.2.1
    obtain ⟨answers, hreply, hblocks⟩ := check_blocks hcopies hpc hr rfl hstep
    exact ⟨answers, hreply, by simpa only [hnone] using hblocks⟩
  · intro c hc hblocked
    have hok := hcalls.calls c hc
    exact ⟨(blocked_phase hok hblocked).1, blocked_result hok hblocked⟩
  · exact fun c hc hblocked => blocked_returns hcalls hc hblocked
  · exact fun a t hstep halive r hr hgone => (step_removes hstep halive hr).resolve_left hgone
  · exact fun c hc hpc i hkey hrecords hothers reply =>
      remove_unheld setup howned hmap hc hpc hkey hrecords hothers reply
  · exact fun c hc hpc i hkey hheld answers hover hmemory hanswers htruthful =>
      reclaim_alone h hc hpc hkey hheld hover hmemory hanswers htruthful
  · intro answers t hstep
    have hdestroyed := destroy_spec howned hcopies hstep
    have hreached : (instanceMachine setup).Reachable t :=
      .step (a := .destroy answers) h trivial hstep
    exact ⟨hdestroyed, fun u hlater => (destroyed_later hreached hdestroyed.ended hlater).2.2⟩

theorem abandoned_copies_hold_after_timeout :
    ∃ s : InstanceState, s.copies ≠ [] ∧ s.calls = [] ∧ s.finished = [] ∧
      AbandonedCopiesHold sampleSetup s := by
  obtain ⟨s, hs, hlast⟩ := Machine.exists_reachable_of_runScript (instanceMachine sampleSetup)
    ScriptLine.action (stagedRegistration ++ abandonedSync)
    (fun s => s.copies ≠ [] ∧ s.calls = [] ∧ s.finished = []) rfl (by decide)
  obtain ⟨hcopies, hcalls, hfinished⟩ := of_decide_eq_true hlast
  exact ⟨s, hcopies, hcalls, hfinished, abandoned_copies_hold hs⟩

/-- Two copies to the device that start together, are both abandoned, and the first
of which finishes; then a third call that comes to its check. -/
def twoAbandoned : List ScriptLine :=
  let started (call : Nat) : List ScriptLine :=
    [.step call .ok, .step call .ok, .step call .ok,
      .step call (.statuses fun _ => ⟨.notReady, false, false⟩), .step call .ok, .step call .ok,
      .step call .ok, .step call .ok, .step call .ok]
  let abandoned (call : Nat) : List ScriptLine :=
    [.step call (.status .notReady true), .step call .ok, .step call .ok, .ret call]
  [.begin (.sync 0x1000 16 0 HIPOBJ_SYNC_TO_DEVICE),
    .begin (.sync 0x1000 16 16 HIPOBJ_SYNC_TO_DEVICE)] ++ started 4 ++ started 5 ++
    abandoned 4 ++ abandoned 5 ++ [.finishCopy 7, .begin (.sync 0x1000 16 32 HIPOBJ_SYNC_TO_DEVICE),
    .step 10 .ok, .step 10 .ok, .step 10 .ok]

/-- The first copy is over, but there is no memory to take it out. -/
def noMemoryForFirst (r : Copy) : InstanceState.Answer :=
  if r.copy.id = 7 then ⟨.success, true, false⟩ else ⟨.notReady, false, false⟩

/-- A check that meets a copy still running, and doesn't return `hipObjBusy`. -/
theorem check_without_memory :
    ∃ (s u : InstanceState) (c c' : Call) (r : Copy), (instanceMachine sampleSetup).Reachable s ∧
      c ∈ s.calls ∧ r ∈ s.copies ∧ c.pc = .checkNoAbandonedCopy r.entry ∧
      (noMemoryForFirst r).status = .notReady ∧
      s.callStep sampleSetup c (.statuses noMemoryForFirst) = some (c', u) ∧
      c'.result = some .InternalError := by
  obtain ⟨s, hs, hlast⟩ := Machine.exists_reachable_of_runScript (instanceMachine sampleSetup)
    ScriptLine.action (stagedRegistration ++ twoAbandoned)
    (fun s => s.calls.any fun c => s.copies.any fun r =>
      c.pc = .checkNoAbandonedCopy r.entry ∧ (noMemoryForFirst r).status = .notReady ∧
        (s.callStep sampleSetup c (.statuses noMemoryForFirst)).map (fun x => x.1.result) =
          some (some .InternalError)) rfl (by decide)
  obtain ⟨c, hc, hlast⟩ := List.any_eq_true.mp hlast
  obtain ⟨r, hr, hlast⟩ := List.any_eq_true.mp hlast
  obtain ⟨hpc, hstatus, hlast⟩ := of_decide_eq_true hlast
  obtain ⟨⟨c', u⟩, hstep, hresult⟩ := Option.map_eq_some_iff.mp hlast
  exact ⟨s, u, c, c', r, hs, hc, hr, hpc, hstatus, hstep, hresult⟩

end HipObject
