import HipObject.Buffer.Ownership

/-!
# Who deregisters memory

An entry that something pins is in the map, so letting go of it never takes its
memory region along. What a call deregisters is its own: `deregisterBuffer()` the
region of the entry that it took out of the map, and a registration that fails
the one that it made.
-/

namespace HipObject

open Verification

variable {setup : Setup} {lose : StagingCopy → Prop} {good : BufEntry → Prop}
variable {s t u : InstanceState} {a : InstanceAction} {c c' : Call} {mr : Mr}

/-- A call of `deregisterBuffer()`, or a registration that fails, is about to
deregister a memory region that nobody else has. -/
structure GivesUp (s : InstanceState) (c : Call) (mr : Mr) : Prop where
  mem : c ∈ s.calls
  kind : (∃ devPtr, c.op = .deregister devPtr) ∨
    c.op.registers = true ∧ ∃ result, c.result = some result ∧ result ≠ .Success
  own : c.pc.locals.mr = some mr ∨ ∃ i e, c.pc.locals.entry = some i ∧
    s.entryAt i = some e ∧ e.mr = mr ∧ e.key = c.op.devPtr

theorem Op.deregister_of_neither {op : Op} (hregisters : op.registers = false)
    (huses : op.usesBuffer = false) : ∃ devPtr, op = .deregister devPtr := by
  cases op with
  | deregister devPtr => exact ⟨devPtr, rfl⟩
  | register | registerHost => cases hregisters
  | _ => cases huses

/-! ### Letting an entry go -/

/-- The last reference to an entry deregisters its memory. -/
theorem dropRef_deregistered {i : Nat} (h : mr ∈ (s.dropRef i).deregistered) :
    mr ∈ s.deregistered ∨ ∃ cell, Cell.lookup s.heap i = some cell ∧ cell.useCount ≤ 1 ∧
      cell.value.mr = mr := by
  unfold InstanceState.dropRef at h
  cases hlookup : Cell.lookup s.heap i with
  | none =>
      simp only [Cell.release, hlookup] at h
      exact .inl h
  | some cell =>
      simp only [Cell.release, hlookup] at h
      split at h
      · exact .inl h
      · rename_i e hlast
        split at hlast
        · rename_i hunused
          cases hlast
          rcases List.mem_cons.mp h with rfl | h
          · exact .inr ⟨cell, rfl, hunused, rfl⟩
          · exact .inl h
        · cases hlast

/-- An entry that a call pins has another reference, the map's. -/
theorem shared_of_pinned {i : Nat} {cell : Cell BufEntry} (h : Owned s) (hmap : MapOk s)
    (hc : c ∈ s.calls) (hi : i ∈ c.pc.locals.pins) (hcell : Cell.lookup s.heap i = some cell) :
    1 < cell.useCount := by
  have hpinned : i ∈ s.pins s.locals :=
    List.mem_append_right _ (List.mem_flatMap.mpr ⟨_, List.mem_map_of_mem hc, hi⟩)
  obtain ⟨⟨key, i⟩, hmapped, rfl⟩ := List.mem_map.mp (hmap.books.pinned i hpinned)
  by_contra hunused
  exact not_pinned_of_unused h.books hmapped hcell (Nat.le_of_not_lt hunused) hpinned

/-! ### What a step deregisters -/

/-- What a move of a call deregisters comes from its own variables. -/
theorem LocalMove.deregistered (h : Owned s) (hmap : MapOk s) (hc : c ∈ s.calls)
    {l' : Locals} (hmove : LocalMove lose good c' s c.pc.locals l' t)
    (hmr : mr ∈ t.deregistered) :
    mr ∈ s.deregistered ∨ c.pc.locals.mr = some mr ∨
      ∃ i e, c.pc.locals.entry = some i ∧ s.entryAt i = some e ∧ e.mr = mr := by
  cases hmove with
  | loseMr has =>
      rcases List.mem_cons.mp hmr with rfl | hmr
      · exact .inr (.inl has)
      · exact .inl hmr
  | dropEntry has =>
      rcases dropRef_deregistered hmr with hold | ⟨cell, hcell, -, rfl⟩
      · exact .inl hold
      · exact .inr (.inr ⟨_, cell.value, has, by simp [InstanceState.entryAt, hcell], rfl⟩)
  | dropBuf has =>
      rcases dropRef_deregistered hmr with hold | ⟨cell, hcell, hunused, -⟩
      · exact .inl hold
      · have hshared := shared_of_pinned h hmap hc (by simp [Locals.pins, has]) hcell
        omega
  | dropOver has =>
      rcases dropRef_deregistered hmr with hold | ⟨cell, hcell, hunused, -⟩
      · exact .inl hold
      · have hshared := shared_of_pinned h hmap hc (by simp [Locals.pins, has]) hcell
        omega
  | release free released =>
      obtain ⟨-, -, rfl⟩ := release_spec released
      exact .inl hmr
  | _ => exact .inl hmr

/-- A call that owns a memory region or an entry of its own keeps it until it
returns. -/
theorem callStep_unwinds {reply : Reply} (hstep : s.callStep setup c reply = some (c', u))
    (howns : c.pc.locals.mr.isSome ∨ c.pc.locals.entry.isSome) (hmr : mr ∈ u.deregistered)
    (hnew : mr ∉ s.deregistered) : ∃ result, c.pc = .unwind c.pc.locals result := by
  unfold InstanceState.callStep at hstep
  cases hpc : c.pc with
  | unwind locals result => exact ⟨result, rfl⟩
  | closeDmabuf info fd made =>
      rw [hpc] at hstep
      cases made with
      | some made =>
          cases hstep
          exact absurd hmr hnew
      | none => simp [hpc, Pc.locals, Locals.empty] at howns
  | build info made hostBuf =>
      rw [hpc] at hstep
      cases reply with
      | ok | fail =>
          cases hstep
          exact absurd hmr hnew
      | _ => cases hstep
  | insert entry =>
      rw [hpc] at hstep
      dsimp only [InstanceState.insertStep] at hstep
      split at hstep
      · cases hstep
        exact absurd hmr hnew
      · cases reply with
        | ok | fail =>
            cases hstep
            exact absurd hmr hnew
        | _ => cases hstep
  | _ => simp [hpc, Pc.locals, Locals.empty] at howns

theorem callStep_givesUp {reply : Reply} (h : Owned s) (hmap : MapOk s) (hcalls : CallsOk s)
    (hc : c ∈ s.calls) (hstep : s.callStep setup c reply = some (c', u))
    (hmr : mr ∈ u.deregistered) (hnew : mr ∉ s.deregistered) : GivesUp s c mr := by
  have hown := ((callStep_anyMoves hstep).move.deregistered h hmap hc hmr).resolve_left hnew
  have howns : c.pc.locals.mr.isSome ∨ c.pc.locals.entry.isSome := by
    rcases hown with hown | ⟨i, e, hentry, -⟩
    · exact .inl (by rw [hown]; rfl)
    · exact .inr (by rw [hentry]; rfl)
  obtain ⟨result, hpc⟩ := callStep_unwinds hstep howns hmr hnew
  have hended : c.Ended s.inserted c.pc.locals result := by
    have hok := hcalls.calls c (List.mem_append_left _ hc)
    rw [hpc] at hok
    exact hok
  obtain ⟨huses, hfailed⟩ := hended.gives howns
  refine ⟨hc, ?_, ?_⟩
  · cases hregisters : c.op.registers with
    | false => exact .inl (Op.deregister_of_neither hregisters huses)
    | true =>
        refine .inr ⟨rfl, result, ?_, hfailed hregisters⟩
        rw [Call.result, hpc]
  · rcases hown with hown | ⟨i, e, hentry, he, hmr⟩
    · exact .inl hown
    · obtain ⟨e', he', hkey⟩ := hmap.owned c hc i hentry
      obtain rfl : e' = e := Option.some.inj (he'.symm.trans he)
      exact .inr ⟨i, e', hentry, he, hmr, hkey⟩

/-- Before the instance is destroyed, only a step of a call that gives up a memory
region of its own deregisters one. -/
theorem instanceStep_deregistered (h : (instanceMachine setup).Reachable s)
    (hstep : instanceStep setup s a = some t) (halive : t.destroyed = false)
    (hmr : mr ∈ t.deregistered) (hnew : mr ∉ s.deregistered) :
    ∃ c reply, a = .step c reply ∧ GivesUp s c mr := by
  cases a with
  | begin op =>
      obtain ⟨-, rfl⟩ := instanceStep_begin_eq hstep
      exact absurd hmr hnew
  | step c reply =>
      obtain ⟨hc, c', u, hcall, rfl⟩ := instanceStep_step_eq hstep
      exact ⟨c, reply, rfl, callStep_givesUp (owned_of_reachable h) (mapOk_of_reachable h)
        (callsOk_of_reachable h) hc hcall hmr hnew⟩
  | ret c =>
      obtain ⟨-, -, rfl⟩ := instanceStep_ret_eq hstep
      exact absurd hmr hnew
  | finishCopy copy =>
      obtain ⟨-, -, rfl⟩ := instanceStep_finishCopy_eq hstep
      exact absurd hmr hnew
  | shutdown =>
      cases hstep
      exact absurd hmr hnew
  | destroy answers =>
      obtain ⟨-, -, -, -, rfl⟩ := instanceStep_destroy_eq hstep
      cases halive

end HipObject
