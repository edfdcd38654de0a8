import HipObject.Buffer.CallSteps

/-!
# What every call has done

The facts about calls hold in every run: a step of one call keeps those of the
others, since what it changes for them is at most the log of what was inserted.
-/

namespace HipObject

open Verification

variable {setup : Setup} {s t u : InstanceState} {c c' : Call} {reply : Reply}
variable {inserted : List (Nat × BitVec 64 × Nat)} {locals : Locals} {result : OpError}
variable {info : Option PointerInfo}

/-! ### The other calls -/

theorem Call.Fresh.grow {x : Nat × BitVec 64 × Nat} (h : c.Fresh inserted) (hx : x.1 ≠ c.id) :
    c.Fresh (x :: inserted) where
  effects := h.effects
  found := h.found
  blocked := h.blocked
  notInserted := by
    rw [List.map_cons, List.mem_cons, not_or]
    exact ⟨hx.symm, h.notInserted⟩

theorem Call.Registering.grow {x : Nat × BitVec 64 × Nat} (h : c.Registering inserted info)
    (hx : x.1 ≠ c.id) : c.Registering (x :: inserted) info :=
  ⟨h.fresh.grow hx, h.op, h.args, h.range⟩

theorem Call.Ended.grow {x : Nat × BitVec 64 × Nat} (h : c.Ended inserted locals result)
    (hx : x.1 ≠ c.id) : c.Ended (x :: inserted) locals result where
  found := h.found
  effects := h.effects
  success := h.success
  blocked := h.blocked
  registered := fun hop => by
    rw [h.registered hop]
    refine exists_congr fun i => and_congr_right fun _ => ?_
    rw [List.mem_cons]
    refine ⟨.inr, fun hmem => hmem.resolve_left ?_⟩
    rintro rfl
    exact hx rfl
  owns := h.owns
  gives := h.gives
  copy := h.copy

/-- What another call inserts makes no difference. -/
theorem PcOk.grow {x : Nat × BitVec 64 × Nat} {pc : Pc} (h : PcOk inserted c pc)
    (hx : x.1 ≠ c.id) : PcOk (x :: inserted) c pc := by
  cases pc with
  | start => exact Call.Fresh.grow h hx
  | precheck => exact Call.Registering.grow h hx
  | exportDmabuf => exact Call.Registering.grow h hx
  | regDmabufMr => exact Call.Registering.grow h hx
  | closeDmabuf => exact ⟨Call.Registering.grow h.1 hx, h.2⟩
  | regMr => exact Call.Registering.grow h hx
  | hostMalloc => exact ⟨Call.Registering.grow h.1 hx, h.2⟩
  | regStagingMr => exact ⟨Call.Registering.grow h.1 hx, h.2⟩
  | build => exact ⟨Call.Registering.grow h.1 hx, h.2⟩
  | insert => exact ⟨Call.Fresh.grow h.1 hx, h.2⟩
  | reclaim => exact ⟨Call.Fresh.grow h.1 hx, h.2⟩
  | remove => exact ⟨Call.Fresh.grow h.1 hx, h.2⟩
  | find => exact ⟨Call.Fresh.grow h.1 hx, h.2⟩
  | unwind => exact Call.Ended.grow h hx
  | _ => exact h

theorem LocalMove.inserted_from {lose : StagingCopy → Prop} {good : BufEntry → Prop}
    {l l' : Locals} (h : LocalMove lose good c s l l' t) :
    t.inserted = s.inserted ∨ ∃ i, t.inserted = (c.id, c.op.devPtr, i) :: s.inserted := by
  cases h with
  | insert has room => exact .inr ⟨_, rfl⟩
  | dropEntry has => exact .inl (dropRef_inserted s _)
  | dropBuf has => exact .inl (dropRef_inserted s _)
  | dropOver has => exact .inl (dropCopy_inserted s _)
  | release free released =>
      obtain ⟨-, -, rfl⟩ := release_spec released
      exact .inl rfl
  | _ => exact .inl rfl

/-! ### Runs -/

/-- What every entry covers, and what every call has done. -/
structure CallsOk (s : InstanceState) : Prop where
  heap : ∀ cell ∈ s.heap, EntryOk cell.value
  calls : ∀ c ∈ s.allCalls, PcOk s.inserted c c.pc
  logged : ∀ x ∈ s.inserted, x.1 < s.next
  entries : ∀ x ∈ s.entries, ∃ id, (id, x) ∈ s.inserted
  ended : ∀ c ∈ s.returned, ∃ result, c.pc = .unwind .empty result

theorem CallsOk.step {lose : StagingCopy → Prop} (h : CallsOk s) (hs : Owned s) (hmap : MapOk s)
    (hc : c ∈ s.calls) (hstep : s.callStep setup c reply = some (c', u))
    (hmoves : Moves lose EntryOk s c (c', u)) :
    CallsOk { u with calls := c' :: s.calls.erase c } := by
  obtain ⟨-, -, hreturned, -, hnext⟩ : u.current = s.current ∧ u.destroyed = s.destroyed ∧
      u.returned = s.returned ∧ u.finished = s.finished ∧ s.next ≤ u.next := hmoves.move.frame
  have hmem : c ∈ s.allCalls := List.mem_append_left _ hc
  have hnodup := ((allCalls_perm hc).map Call.id).nodup_iff.mp hs.callIds
  rw [List.map_cons, List.nodup_cons] at hnodup
  refine ⟨?_, ?_, ?_, ?_, fun d hd => h.ended d (hreturned ▸ hd)⟩
  · intro cell hcell
    obtain ⟨e, he, -, hvalue⟩ | ⟨-, -, hgood, -⟩ := hmoves.move.heap_from cell hcell
    · rw [← hvalue]
      exact h.heap e he
    · exact hgood
  · intro d hd
    simp only [InstanceState.allCalls, hreturned, List.cons_append, List.mem_cons] at hd
    rcases hd with rfl | hd
    · exact callStep_ok (u := u) hstep (h.calls c hmem) (hmap.found c hc) hmap.keyed h.heap
    · have hold : PcOk s.inserted d d.pc := by
        refine h.calls d ((allCalls_perm hc).mem_iff.mpr ?_)
        exact List.mem_cons_of_mem _ hd
      have hne : c.id ≠ d.id := by
        intro heq
        exact hnodup.1 (heq ▸ List.mem_map_of_mem hd)
      show PcOk u.inserted d d.pc
      obtain heq | ⟨i, heq⟩ := hmoves.move.inserted_from
      · rw [heq]
        exact hold
      · rw [heq]
        exact hold.grow (by rw [hmoves.id]; exact hne)
  · intro x hx
    have hx : x ∈ u.inserted := hx
    have hbelow : ∀ x ∈ s.inserted, x.1 < u.next :=
      fun x hx => Nat.lt_of_lt_of_le (h.logged x hx) hnext
    obtain heq | ⟨i, heq⟩ := hmoves.move.inserted_from
    · exact hbelow x (heq ▸ hx)
    · rw [heq] at hx
      rcases List.mem_cons.mp hx with rfl | hx
      · rw [hmoves.id]
        exact Nat.lt_of_lt_of_le (hs.callsBelow _ (List.mem_map_of_mem hmem)) hnext
      · exact hbelow x hx
  · intro x hx
    obtain hold | ⟨i, -, -, hlogged⟩ := hmoves.move.entries_from x hx
    · obtain ⟨id, hid⟩ := h.entries x hold
      refine ⟨id, ?_⟩
      show (id, x) ∈ u.inserted
      obtain heq | ⟨i, heq⟩ := hmoves.move.inserted_from
      · exact heq ▸ hid
      · exact heq ▸ List.mem_cons_of_mem _ hid
    · exact ⟨_, hlogged⟩

theorem CallsOk.move {lose : StagingCopy → Prop} (h : CallsOk s) (hs : Owned s) (hmap : MapOk s)
    (hmove : InstanceMove setup lose EntryOk s t) : CallsOk t := by
  cases hmove with
  | @begin op current =>
      refine ⟨h.heap, ?_, fun x hx => Nat.lt_succ_of_lt (h.logged x hx), h.entries, h.ended⟩
      intro d hd
      rcases List.mem_cons.mp hd with rfl | hd
      · refine ⟨rfl, rfl, rfl, ?_⟩
        intro hmem
        obtain ⟨x, hx, hid⟩ := List.mem_map.mp hmem
        have hbelow := h.logged x hx
        rw [hid] at hbelow
        exact Nat.lt_irrefl _ hbelow
      · exact h.calls d hd
  | step mem stepped moves => exact h.step hs hmap mem stepped moves
  | ret mem pc =>
      refine ⟨h.heap, ?_, h.logged, h.entries, ?_⟩
      · intro d hd
        exact h.calls d ((List.perm_middle.trans (allCalls_perm mem).symm).mem_iff.mp hd)
      · intro d hd
        rcases List.mem_cons.mp hd with rfl | hd
        · exact ⟨_, pc⟩
        · exact h.ended d hd
  | finishCopy started => exact ⟨h.heap, h.calls, h.logged, h.entries, h.ended⟩
  | shutdown => exact ⟨h.heap, h.calls, h.logged, h.entries, h.ended⟩
  | @destroy queries retired alive idle all truthful =>
      have hlocals : s.locals = [] := by rw [InstanceState.locals, idle, List.map_nil]
      obtain ⟨-, -, -, -, deregistered, freed, leaked, heq⟩ :=
        destroyInstance_spec (hlocals ▸ hs.books) hs.unmarked all
      rw [heq]
      exact ⟨by simp, h.calls, h.logged, by simp, h.ended⟩

/-- The entry that a call is about to build covers what it should. -/
theorem CallsOk.good (h : CallsOk s) : ∀ c ∈ s.calls, ∀ info mr hostBuf,
    c.pc = .build info mr hostBuf → EntryOk (InstanceState.newEntry c info mr hostBuf) := by
  intro c hc info mr hostBuf hpc
  have hok := h.calls c (List.mem_append_left _ hc)
  rw [hpc] at hok
  exact hok.2

theorem callsOk_of_reachable (h : (instanceMachine setup).Reachable s) : CallsOk s := by
  refine Machine.Reachable.invariant ?_ ?_ h
  · rintro s rfl
    refine ⟨?_, ?_, ?_, ?_, ?_⟩
    all_goals simp [InstanceState.initial, InstanceState.allCalls]
  · intro s a t hreached hs hstep
    have hmove : InstanceMove setup (fun _ => True) EntryOk s t :=
      instanceStep_move hstep (fun _ _ _ _ _ => trivial) hs.good
    exact hs.move (owned_of_reachable hreached) (mapOk_of_reachable hreached) hmove

end HipObject
