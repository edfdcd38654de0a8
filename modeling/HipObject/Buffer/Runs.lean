import HipObject.Buffer.Teardown

/-!
# Runs of an instance

`InstanceMove` lists what a step of the machine can do, with the move of the call
that steps. Every run keeps the books, leaves no entry marked before the instance
is destroyed, and keeps every entry that something refers to as it was built.
-/

namespace HipObject

open Verification

variable {setup : Setup} {lose : StagingCopy → Prop} {good : BufEntry → Prop}
variable {s t u : InstanceState} {a : InstanceAction} {c c' : Call}

/-- The local variables of the calls in progress. -/
def InstanceState.locals (s : InstanceState) : List Locals := s.calls.map fun c => c.pc.locals

/-- What a step of the machine does. -/
inductive InstanceMove (setup : Setup) (lose : StagingCopy → Prop) (good : BufEntry → Prop)
    (s : InstanceState) : InstanceState → Prop
  | begin {op : Op} (current : s.current = true) :
      InstanceMove setup lose good s
        { s with calls := .new s.next op :: s.calls, next := s.next + 1 }
  | step {c c' : Call} {u : InstanceState} {reply : Reply} (mem : c ∈ s.calls)
      (stepped : s.callStep setup c reply = some (c', u)) (moves : Moves lose good s c (c', u)) :
      InstanceMove setup lose good s { u with calls := c' :: s.calls.erase c }
  | ret {c : Call} {result : OpError} (mem : c ∈ s.calls) (pc : c.pc = .unwind .empty result) :
      InstanceMove setup lose good s
        { s with calls := s.calls.erase c, returned := c :: s.returned }
  | finishCopy {copy : StagingCopy} (started : copy ∈ s.started) :
      InstanceMove setup lose good s { s with finished := copy :: s.finished }
  | shutdown : InstanceMove setup lose good s { s with current := false }
  | destroy {queries : List (Copy × EventStatus)} (retired : s.current = false)
      (alive : s.destroyed = false) (idle : s.calls = []) (all : queries.map Prod.fst = s.copies)
      (truthful : s.Truthful queries) :
      InstanceMove setup lose good s (s.destroyInstance queries)

/-- Every step is one of these. -/
theorem instanceStep_move (h : instanceStep setup s a = some t)
    (hlose : ∀ c reply copy, a = .step c reply → c.pc.leaves reply = some copy → lose copy)
    (hgood : ∀ c ∈ s.calls, ∀ info mr hostBuf, c.pc = .build info mr hostBuf →
      good (InstanceState.newEntry c info mr hostBuf)) :
    InstanceMove setup lose good s t := by
  cases a with
  | begin op =>
      obtain ⟨hcurrent, rfl⟩ := instanceStep_begin_eq h
      exact .begin hcurrent
  | step c reply =>
      obtain ⟨hmem, c', u, hstep, rfl⟩ := instanceStep_step_eq h
      exact .step hmem hstep
        (callStep_moves hstep (fun copy => hlose c reply copy rfl) (hgood c hmem))
  | ret c =>
      obtain ⟨hmem, ⟨result, hpc⟩, rfl⟩ := instanceStep_ret_eq h
      exact .ret hmem hpc
  | finishCopy copy =>
      obtain ⟨hstarted, -, rfl⟩ := instanceStep_finishCopy_eq h
      exact .finishCopy hstarted
  | shutdown =>
      cases h
      exact .shutdown
  | destroy answers =>
      obtain ⟨hretired, halive, hidle, htruthful, rfl⟩ := instanceStep_destroy_eq h
      exact .destroy hretired halive hidle (by simp [Function.comp_def]) htruthful

/-- A step of the machine, whatever it loses or builds. -/
theorem instanceStep_anyMove (h : instanceStep setup s a = some t) :
    InstanceMove setup (fun _ => True) (fun _ => True) s t :=
  instanceStep_move h (fun _ _ _ _ _ => trivial) (fun _ _ _ _ _ _ => trivial)

/-! ### What a move of a call leaves alone -/

section Frame

variable {l l' : Locals}

theorem LocalMove.frame (h : LocalMove lose good c s l l' t) :
    t.current = s.current ∧ t.destroyed = s.destroyed ∧ t.returned = s.returned ∧
      t.finished = s.finished ∧ s.next ≤ t.next := by
  have hdrop : ∀ (u : InstanceState) (i : Nat), (u.dropRef i).current = u.current ∧
      (u.dropRef i).destroyed = u.destroyed ∧ (u.dropRef i).returned = u.returned ∧
      (u.dropRef i).finished = u.finished ∧ u.next ≤ (u.dropRef i).next := by
    intro u i
    obtain ⟨deregistered, freed, leaked, heq⟩ := dropRef_eq u i
    simp [heq]
  cases h with
  | dropEntry has => exact hdrop s _
  | dropBuf has => exact hdrop s _
  | @dropOver copy rest has => exact hdrop (s.destroyEvent copy.done) copy.entry
  | release free released =>
      obtain ⟨-, -, rfl⟩ := release_spec released
      simp
  | _ => simp [InstanceState.registerMr, InstanceState.reserve, InstanceState.destroyEvent,
      InstanceState.addCopy]

/-- An entry is either as it was or new. -/
theorem LocalMove.heap_from (h : LocalMove lose good c s l l' t) :
    ∀ d ∈ t.heap, (∃ e ∈ s.heap, e.id = d.id ∧ e.value = d.value) ∨
      (d.id = s.next ∧ l'.entry = some s.next ∧ good d.value ∧ d.value.key = c.op.devPtr ∧
        d.value.leakHostBuf = false) := by
  have hsame : ∀ d ∈ s.heap, ∃ e ∈ s.heap, e.id = d.id ∧ e.value = d.value :=
    fun d hd => ⟨d, hd, rfl, rfl⟩
  have hdrop : ∀ (u : InstanceState) (i : Nat), ∀ d ∈ (u.dropRef i).heap,
      ∃ e ∈ u.heap, e.id = d.id ∧ e.value = d.value := by
    intro u i d hd
    obtain ⟨deregistered, freed, leaked, heq⟩ := dropRef_eq u i
    rw [heq] at hd
    exact Cell.of_mem_release hd
  cases h with
  | build mr hostBuf free isGood keyed unmarked =>
      intro d hd
      rcases List.mem_cons.mp hd with rfl | hd
      · exact .inr ⟨rfl, rfl, isGood, keyed, unmarked⟩
      · exact .inl (hsame d hd)
  | find free mapped isFound => exact fun d hd => .inl (Cell.of_mem_retain hd)
  | add buf event slot has => exact fun d hd => .inl (Cell.of_mem_retain hd)
  | dropEntry has => exact fun d hd => .inl (hdrop s _ d hd)
  | dropBuf has => exact fun d hd => .inl (hdrop s _ d hd)
  | @dropOver copy rest has =>
      exact fun d hd => .inl (hdrop (s.destroyEvent copy.done) copy.entry d hd)
  | release free released =>
      obtain ⟨-, -, rfl⟩ := release_spec released
      exact fun d hd => .inl (hsame d hd)
  | _ => exact fun d hd => .inl (hsame d hd)

/-- An entry that isn't marked takes its staging buffer with it. -/
theorem dropRef_leaked (hmarked : Marked s.heap []) (i : Nat) :
    (s.dropRef i).leaked = s.leaked ∧ (s.dropRef i).eventsLeaked = s.eventsLeaked := by
  unfold InstanceState.dropRef
  cases hlast : (Cell.release s.heap i).2 with
  | none => simp [hlast]
  | some e =>
      have he : e ∈ s.heap.map Cell.value := by
        rw [(Cell.perm_release s.heap i).mem_iff, hlast]
        exact List.mem_cons_self
      obtain ⟨cell, hcell, rfl⟩ := List.mem_map.mp he
      have hkept : cell.value.leakHostBuf = false := by simpa using hmarked cell hcell
      simp [hlast, InstanceState.destroyEntry, hkept]

theorem LocalMove.leaked (h : LocalMove lose good c s l l' t) (hmarked : Marked s.heap []) :
    t.leaked = s.leaked ∧ t.eventsLeaked = s.eventsLeaked := by
  cases h with
  | dropEntry has => exact dropRef_leaked hmarked _
  | dropBuf has => exact dropRef_leaked hmarked _
  | @dropOver copy rest has =>
      exact dropRef_leaked (s := s.destroyEvent copy.done) hmarked copy.entry
  | release free released =>
      obtain ⟨-, -, rfl⟩ := release_spec released
      exact ⟨rfl, rfl⟩
  | _ => exact ⟨rfl, rfl⟩

end Frame

/-! ### Books of whole runs -/

/-- The calls, those in progress and those that have returned. -/
def InstanceState.allCalls (s : InstanceState) : List Call := s.calls ++ s.returned

/-- What every reachable state has, whatever happened. -/
structure Owned (s : InstanceState) : Prop where
  books : Books s s.locals
  unmarked : Marked s.heap []
  ended : s.destroyed = true → s.current = false ∧ s.calls = [] ∧ s.entries = [] ∧
    s.copies = [] ∧ s.heap = []
  leaked : s.destroyed = false → s.leaked = [] ∧ s.eventsLeaked = []
  callIds : (s.allCalls.map Call.id).Nodup
  callsBelow : Below s.next (s.allCalls.map Call.id)

/-- The books don't read the list of calls. -/
theorem Books.withCalls {ls : List Locals} (h : Books s ls) (calls : List Call) :
    Books { s with calls := calls } ls :=
  ⟨h.counted, h.mrs, h.hostBufs, h.fds, h.events, h.fresh⟩

/-- The local variables, with those of one call first. -/
theorem locals_perm (hc : c ∈ s.calls) :
    s.locals.Perm (c.pc.locals :: (s.calls.erase c).map fun d => d.pc.locals) :=
  (List.perm_cons_erase hc).map fun d : Call => d.pc.locals

theorem allCalls_perm (hc : c ∈ s.calls) :
    s.allCalls.Perm (c :: (s.calls.erase c ++ s.returned)) :=
  (List.perm_cons_erase hc).append_right s.returned

theorem Owned.begin (h : Owned s) (op : Op) (hcurrent : s.current = true) :
    Owned { s with calls := .new s.next op :: s.calls, next := s.next + 1 } := by
  refine ⟨?_, h.unmarked, ?_, h.leaked, ?_, ?_⟩
  · have hbooks := h.books
    have hfresh : Below (s.next + 1) (s.ids (.empty :: s.locals)) :=
      h.books.fresh.grow fun i hi => .inr hi
    exact ⟨hbooks.counted, hbooks.mrs, hbooks.hostBufs, hbooks.fds, hbooks.events, hfresh⟩
  · intro hdestroyed
    have := (h.ended hdestroyed).1
    rw [hcurrent] at this
    cases this
  · refine List.nodup_cons.mpr ⟨?_, h.callIds⟩
    intro hmem
    exact Nat.lt_irrefl _ (h.callsBelow _ hmem)
  · exact h.callsBelow.grow fun i hi => List.mem_cons.mp hi

theorem Owned.step (h : Owned s) (hc : c ∈ s.calls) (hmoves : Moves lose good s c (c', u)) :
    Owned { u with calls := c' :: s.calls.erase c } := by
  obtain ⟨hcurrent, hdestroyed, hreturned, -, hnext⟩ := hmoves.move.frame
  have hids :
      ((c' :: s.calls.erase c ++ u.returned).map Call.id).Perm (s.allCalls.map Call.id) := by
    have hperm := (allCalls_perm hc).map Call.id
    rw [List.cons_append, List.map_cons, hmoves.id, hreturned]
    exact hperm.symm
  refine ⟨?_, ?_, ?_, ?_, ?_, ?_⟩
  · exact ((h.books.congr (locals_perm hc).symm).move hmoves.move).withCalls _
  · intro d hd
    obtain ⟨e, he, hid, hvalue⟩ | ⟨-, -, -, -, hunmarked⟩ := hmoves.move.heap_from d hd
    · rw [← hvalue, ← hid]
      exact h.unmarked e he
    · simp [hunmarked]
  · intro hover
    have hcalls := (h.ended (hdestroyed ▸ hover)).2.1
    rw [hcalls] at hc
    cases hc
  · intro halive
    obtain ⟨hleaked, hevents⟩ := hmoves.move.leaked h.unmarked
    obtain ⟨hnone, hnoEvents⟩ := h.leaked (hdestroyed ▸ halive)
    exact ⟨hleaked.trans hnone, hevents.trans hnoEvents⟩
  · exact hids.nodup_iff.mpr h.callIds
  · intro i hi
    exact Nat.lt_of_lt_of_le (h.callsBelow i (hids.mem_iff.mp hi)) hnext

theorem Owned.ret (h : Owned s) (hc : c ∈ s.calls) (hempty : c.pc.locals = .empty) :
    Owned { s with calls := s.calls.erase c, returned := c :: s.returned } := by
  have hids : ((s.calls.erase c ++ c :: s.returned).map Call.id).Perm (s.allCalls.map Call.id) :=
    (List.perm_middle.trans (allCalls_perm hc).symm).map Call.id
  refine ⟨?_, h.unmarked, ?_, h.leaked, hids.nodup_iff.mpr h.callIds, ?_⟩
  · have hbooks := h.books.congr (locals_perm hc).symm
    rw [hempty, Books.cons_empty] at hbooks
    exact ⟨hbooks.counted, hbooks.mrs, hbooks.hostBufs, hbooks.fds, hbooks.events, hbooks.fresh⟩
  · intro hover
    obtain ⟨-, hcalls, -⟩ := h.ended hover
    rw [hcalls] at hc
    cases hc
  · exact fun i hi => h.callsBelow i (hids.mem_iff.mp hi)

/-- The step lemma. -/
theorem Owned.move (h : Owned s) (hmove : InstanceMove setup lose good s t) : Owned t := by
  cases hmove with
  | begin current => exact h.begin _ current
  | step mem stepped moves => exact h.step mem moves
  | ret mem pc => exact h.ret mem (by rw [pc]; rfl)
  | finishCopy started =>
      have hbooks := h.books
      exact ⟨⟨hbooks.counted, hbooks.mrs, hbooks.hostBufs, hbooks.fds, hbooks.events,
        hbooks.fresh⟩, h.unmarked, h.ended, h.leaked, h.callIds, h.callsBelow⟩
  | shutdown =>
      have hbooks := h.books
      exact ⟨⟨hbooks.counted, hbooks.mrs, hbooks.hostBufs, hbooks.fds, hbooks.events,
        hbooks.fresh⟩, h.unmarked, fun hover => ⟨rfl, (h.ended hover).2⟩, h.leaked, h.callIds,
        h.callsBelow⟩
  | @destroy queries retired alive idle all truthful =>
      have hlocals : s.locals = [] := by rw [InstanceState.locals, idle, List.map_nil]
      obtain ⟨hbooks, hheap, -, -, deregistered, freed, leaked, heq⟩ :=
        destroyInstance_spec (hlocals ▸ h.books) h.unmarked all
      refine ⟨?_, ?_, ?_, ?_, ?_, ?_⟩
      · have hnone : (s.destroyInstance queries).locals = [] := by
          rw [InstanceState.locals, heq]
          exact hlocals
        rw [hnone]
        exact hbooks
      · rw [hheap]
        exact nofun
      · intro _
        rw [heq]
        exact ⟨retired, idle, rfl, rfl, rfl⟩
      · rw [heq]
        exact nofun
      · rw [heq]
        exact h.callIds
      · rw [heq]
        exact h.callsBelow

theorem owned_of_reachable (h : (instanceMachine setup).Reachable s) : Owned s := by
  refine Machine.Reachable.invariant ?_ ?_ h
  · rintro s rfl
    exact ⟨.initial, nofun, nofun, fun _ => ⟨rfl, rfl⟩, .nil, nofun⟩
  · intro s a t _ hs hstep
    exact hs.move (instanceStep_anyMove hstep)

/-! ### Entries stay as they are -/

/-- An entry that something refers to has not changed. -/
theorem entryAt_move {l l' : Locals}
    {others : List Locals} {i : Nat} (h : Books s (l :: others))
    (hmove : LocalMove lose good c s l l' t) (hbefore : i ∈ s.refs (l :: others))
    (hafter : i ∈ t.refs (l' :: others)) : t.entryAt i = s.entryAt i := by
  obtain ⟨d, hd, rfl, hlookup⟩ := (h.move hmove).counted.exists_lookup hafter
  obtain ⟨e, he, hid, hvalue⟩ | ⟨hnew, -⟩ := hmove.heap_from d hd
  · have hsource := h.counted.lookup_eq he
    rw [hid] at hsource
    simp only [InstanceState.entryAt, hlookup, hsource, Option.map_some, hvalue]
  · have := h.fresh d.id (by simp [InstanceState.ids, hbefore])
    omega

/-! ### Scripts -/

/-- A line of a script, which names calls and copies by their numbers. -/
inductive ScriptLine where
  | begin (op : Op)
  | step (call : Nat) (reply : Reply)
  | ret (call : Nat)
  | finishCopy (copy : Nat)
  | shutdown
  | destroy (answers : Copy → EventStatus)

def ScriptLine.action (s : InstanceState) : ScriptLine → Option InstanceAction
  | begin op => some (.begin op)
  | step call reply => (s.calls.find? fun c => c.id = call).map fun c => .step c reply
  | ret call => (s.calls.find? fun c => c.id = call).map .ret
  | finishCopy copy => (s.started.find? fun k => k.id = copy).map .finishCopy
  | shutdown => some .shutdown
  | destroy answers => some (.destroy answers)

/-- A setup without dma-buf, that may stage. -/
def sampleSetup : Setup := ⟨⟨1, 0, .replicate 16 0⟩, false, false, false, 17⟩

end HipObject
