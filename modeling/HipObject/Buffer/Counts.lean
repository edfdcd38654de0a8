import HipObject.Buffer.Abandoned
import HipObject.Buffer.Ownership

/-!
# What calls take and give back

Room in the list of abandoned copies, and references to entries, counted over the
calls in progress. An entry has one owner, which is the map, a registration that
has built it, or a deregistration that has taken it out; the other references to
it are those of calls that found it, of abandoned copies, and of copies that a
call has taken out of the list and not released yet.

Only registrations and deregistrations change the map.
-/

namespace HipObject

open Verification

variable {setup : Setup} {lose : StagingCopy → Prop} {good : BufEntry → Prop}
variable {s t u : InstanceState} {c c' : Call} {l l' : Locals} {others : List Locals}

/-! ### Room for copies -/

/-- The calls that have room set aside. -/
def slotsHeld (calls : List Locals) : Nat := calls.countP Locals.slot

theorem LocalMove.reserved (h : LocalMove lose good c s l l' t)
    (hbefore : s.reserved = slotsHeld (l :: others)) : t.reserved = slotsHeld (l' :: others) := by
  have hdrop : ∀ (u : InstanceState) (i : Nat), (u.dropRef i).reserved = u.reserved := by
    intro u i
    obtain ⟨deregistered, freed, leaked, heq⟩ := dropRef_eq u i
    simp [heq]
  simp only [slotsHeld, List.countP_cons] at hbefore ⊢
  cases h with
  | gainSlot free =>
      simp only [free, Bool.false_eq_true, if_false] at hbefore
      simp [InstanceState.reserve, hbefore]
  | loseSlot has =>
      simp only [has, if_true] at hbefore
      simp [hbefore]
  | add buf event slot has =>
      simp only [slot, if_true] at hbefore
      simp [InstanceState.addCopy, hbefore]
  | dropEntry has => exact (hdrop s _).trans hbefore
  | dropBuf has => exact (hdrop s _).trans hbefore
  | @dropOver copy rest has => exact (hdrop (s.destroyEvent copy.done) copy.entry).trans hbefore
  | release free released =>
      obtain ⟨-, -, rfl⟩ := release_spec released
      exact hbefore
  | _ => exact hbefore

/-! ### Owners of entries -/

/-- The map and the calls that have an entry of their own. -/
def InstanceState.owners (s : InstanceState) (calls : List Locals) : List Nat :=
  s.entries.map Prod.snd ++ calls.flatMap fun l => l.entry.toList

theorem mem_refs_of_mem_owners {i : Nat} {calls : List Locals} (h : i ∈ s.owners calls) :
    i ∈ s.refs calls := by
  simp only [InstanceState.owners, InstanceState.refs, List.mem_append, List.mem_flatMap] at h ⊢
  obtain h | ⟨l, hl, h⟩ := h
  · exact .inl (.inl h)
  · refine .inr ⟨l, hl, ?_⟩
    simp only [Locals.refs, List.mem_append]
    exact .inl (.inr h)

/-- An entry moves between its owners. -/
theorem LocalMove.owners (h : LocalMove lose good c s l l' t) (hbooks : Books s (l :: others))
    (hbefore : (s.owners (l :: others)).Nodup) : (t.owners (l' :: others)).Nodup := by
  have hdrop : ∀ (u : InstanceState) (i : Nat), (u.dropRef i).entries = u.entries :=
    fun u i => (dropRef_entries u i).1
  simp only [InstanceState.owners, List.flatMap_cons] at hbefore ⊢
  cases h with
  | build mr hostBuf free isGood keyed unmarked =>
      have hfresh : s.next ∉ s.owners (l :: others) := by
        intro hmem
        have hbelow := hbooks.fresh s.next (by
          simp [InstanceState.ids, mem_refs_of_mem_owners hmem])
        exact Nat.lt_irrefl _ hbelow
      simp only [InstanceState.owners, List.flatMap_cons, free, Option.toList_none,
        List.nil_append] at hfresh hbefore
      exact List.perm_middle.nodup_iff.mpr (List.nodup_cons.mpr ⟨hfresh, hbefore⟩)
  | @insert i has room =>
      simp only [has, Option.toList_some, List.singleton_append] at hbefore
      exact List.perm_middle.nodup_iff.mp hbefore
  | @remove i cell free mapped present unused =>
      have hperm := (List.perm_cons_erase mapped).map Prod.snd
      simp only [free, Option.toList_none, List.nil_append] at hbefore
      have hmoved := (hperm.append_right _).nodup_iff.mp hbefore
      exact List.perm_middle.nodup_iff.mpr hmoved
  | dropEntry has =>
      simp only [has, Option.toList_some, List.singleton_append] at hbefore
      rw [hdrop]
      exact (List.nodup_cons.mp (List.perm_middle.nodup_iff.mp hbefore)).2
  | dropBuf has =>
      rw [hdrop]
      exact hbefore
  | @dropOver copy rest has =>
      have hsame : (s.dropCopy copy).entries = s.entries := hdrop (s.destroyEvent copy.done) _
      rw [hsame]
      exact hbefore
  | release free released =>
      obtain ⟨-, -, rfl⟩ := release_spec released
      exact hbefore
  | _ => exact hbefore

/-! ### Runs -/

/-- What the calls in progress have taken. -/
structure TakenOk (s : InstanceState) : Prop where
  reserved : s.reserved = slotsHeld s.locals
  owners : (s.owners s.locals).Nodup

theorem slotsHeld_perm {calls calls' : List Locals} (h : calls.Perm calls') :
    slotsHeld calls = slotsHeld calls' := h.countP_eq _

theorem owners_perm {calls calls' : List Locals} (h : calls.Perm calls') :
    (s.owners calls).Perm (s.owners calls') := (h.flatMap_right _).append_left _

theorem TakenOk.move (h : TakenOk s) (hs : Owned s) (hmove : InstanceMove setup lose good s t) :
    TakenOk t := by
  cases hmove with
  | begin current => exact ⟨h.reserved, h.owners⟩
  | @step c c' u reply mem stepped moves =>
      have hperm := locals_perm mem
      have hbooks := hs.books.congr hperm.symm
      have hreserved := h.reserved.trans (slotsHeld_perm hperm)
      have howners := (owners_perm hperm).nodup_iff.mp h.owners
      exact ⟨moves.move.reserved hreserved, moves.move.owners hbooks howners⟩
  | @ret c result mem pc =>
      have hperm := locals_perm mem
      rw [pc] at hperm
      refine ⟨?_, (owners_perm hperm).nodup_iff.mp h.owners⟩
      exact (h.reserved.trans (slotsHeld_perm hperm)).trans (List.countP_cons_of_neg
        (by simp [Pc.locals, Locals.empty]))
  | finishCopy started => exact ⟨h.reserved, h.owners⟩
  | shutdown => exact ⟨h.reserved, h.owners⟩
  | @destroy queries retired alive idle all truthful =>
      have hlocals : s.locals = [] := by rw [InstanceState.locals, idle, List.map_nil]
      obtain ⟨-, -, -, -, deregistered, freed, leaked, heq⟩ :=
        destroyInstance_spec (hlocals ▸ hs.books) hs.unmarked all
      rw [heq]
      refine ⟨h.reserved, ?_⟩
      simp [InstanceState.owners, InstanceState.locals, idle]

theorem takenOk_of_reachable (h : (instanceMachine setup).Reachable s) : TakenOk s := by
  refine Machine.Reachable.invariant ?_ ?_ h
  · rintro s rfl
    exact ⟨rfl, .nil⟩
  · intro s a t hreached hs hstep
    exact hs.move (owned_of_reachable hreached) (instanceStep_anyMove hstep)

/-! ### Use counts -/

/-- The calls that found an entry, and the copies of it that calls have taken out
of the list and not released yet. -/
def InstanceState.finders (s : InstanceState) (i : Nat) : Nat :=
  s.calls.countP fun c => c.pc.locals.buf = some i

def InstanceState.releasing (s : InstanceState) (i : Nat) : Nat :=
  (s.calls.flatMap fun c => c.pc.locals.ended).countP fun copy => copy.entry = i

/-- The abandoned copies of an entry. -/
def InstanceState.abandonedOf (s : InstanceState) (i : Nat) : Nat :=
  s.copies.countP fun copy => copy.entry = i

/-- The registrations and deregistrations that have the entry to themselves. -/
def InstanceState.keepers (s : InstanceState) (i : Nat) : Nat :=
  s.calls.countP fun c => c.pc.locals.entry = some i

theorem count_toList {o : Option Nat} {i : Nat} :
    o.toList.count i = if o = some i then 1 else 0 := by
  cases o with
  | none => simp
  | some j => simp [List.count_singleton]

theorem count_locals_refs (calls : List Call) (i : Nat) :
    ((calls.map fun c => c.pc.locals).flatMap Locals.refs).count i =
      calls.countP (fun c => c.pc.locals.buf = some i) +
        calls.countP (fun c => c.pc.locals.entry = some i) +
        (calls.flatMap fun c => c.pc.locals.ended).countP (fun copy => copy.entry = i) := by
  induction calls with
  | nil => rfl
  | cons c rest ih =>
      have hended : (c.pc.locals.ended.map Copy.entry).count i =
          c.pc.locals.ended.countP (fun copy => copy.entry = i) := by
        rw [List.count, List.countP_map]
        congr 1
      simp only [List.map_cons, List.flatMap_cons, List.count_append, ih, Locals.refs,
        count_toList, hended, List.countP_cons, List.countP_append, decide_eq_true_eq]
      omega

theorem useCount_eq (h : Owned s) {cell : Cell BufEntry} (hcell : cell ∈ s.heap) :
    cell.useCount = (s.entries.map Prod.snd).count cell.id + s.abandonedOf cell.id +
      s.finders cell.id + s.keepers cell.id + s.releasing cell.id := by
  have hcount := h.books.counted.useCount cell hcell
  have hcopies : (s.copies.map Copy.entry).count cell.id = s.abandonedOf cell.id := by
    rw [List.count, List.countP_map]
    congr 1
  have hcalls := count_locals_refs s.calls cell.id
  simp only [InstanceState.refs, InstanceState.locals, List.count_append, hcopies, hcalls] at hcount
  rw [hcount, InstanceState.finders, InstanceState.keepers, InstanceState.releasing]
  omega

theorem count_owners (s : InstanceState) (i : Nat) :
    (s.owners s.locals).count i = (s.entries.map Prod.snd).count i + s.keepers i := by
  have hcalls : ∀ calls : List Call,
      ((calls.map fun c => c.pc.locals).flatMap fun l => l.entry.toList).count i =
        calls.countP (fun c => c.pc.locals.entry = some i) := by
    intro calls
    induction calls with
    | nil => rfl
    | cons c rest ih =>
        simp only [List.map_cons, List.flatMap_cons, List.count_append, ih, count_toList,
          List.countP_cons, decide_eq_true_eq]
        omega
  rw [InstanceState.owners, List.count_append, InstanceState.locals, hcalls]
  rfl

/-- The map's reference to an entry, and one for each call that found it and each
copy of it. -/
theorem useCount_of_mapped (h : Owned s) (htaken : TakenOk s) {key : BitVec 64} {i : Nat}
    (hmapped : (key, i) ∈ s.entries) :
    ∃ cell, Cell.lookup s.heap i = some cell ∧
      cell.useCount = 1 + s.finders i + (s.abandonedOf i + s.releasing i) := by
  obtain ⟨cell, hcell, rfl, hlookup⟩ :=
    h.books.counted.exists_lookup (mem_refs_of_mem_entries s.locals hmapped)
  refine ⟨cell, hlookup, ?_⟩
  have hcount := useCount_eq h hcell
  have howners := List.nodup_iff_count_le_one.mp htaken.owners cell.id
  rw [count_owners] at howners
  have hpos : 0 < (s.entries.map Prod.snd).count cell.id :=
    List.count_pos_iff.mpr (List.mem_map_of_mem hmapped)
  omega

/-- An entry outside the map has one owner, and nothing else refers to it. -/
theorem useCount_of_unmapped (h : Owned s) (hmap : MapOk s) (htaken : TakenOk s)
    {cell : Cell BufEntry} (hcell : cell ∈ s.heap)
    (hunmapped : cell.id ∉ s.entries.map Prod.snd) :
    cell.useCount = 1 ∧ s.keepers cell.id = 1 := by
  have hcount := useCount_eq h hcell
  have howners := List.nodup_iff_count_le_one.mp htaken.owners cell.id
  rw [count_owners, List.count_eq_zero.mpr hunmapped] at howners
  rw [List.count_eq_zero.mpr hunmapped] at hcount
  have hunpinned : ¬s.Held cell.id := fun hheld =>
    hunmapped (hmap.books.pinned _ (held_iff.mp hheld))
  have hcopies : s.abandonedOf cell.id = 0 := by
    rw [InstanceState.abandonedOf, List.countP_eq_zero]
    intro copy hcopy hentry
    exact hunpinned (.inl ⟨copy, hcopy, by simpa using hentry⟩)
  have hfinders : s.finders cell.id = 0 := by
    rw [InstanceState.finders, List.countP_eq_zero]
    intro d hd hbuf
    refine hunpinned (.inr ⟨d, hd, ?_⟩)
    simp only [decide_eq_true_eq] at hbuf
    simp [Locals.pins, hbuf]
  have hreleasing : s.releasing cell.id = 0 := by
    rw [InstanceState.releasing, List.countP_eq_zero]
    intro copy hcopy hentry
    obtain ⟨d, hd, hended⟩ := List.mem_flatMap.mp hcopy
    refine hunpinned (.inr ⟨d, hd, ?_⟩)
    simp only [decide_eq_true_eq] at hentry
    exact List.mem_append_right _ (hentry ▸ List.mem_map_of_mem hended)
  have hpos : 0 < cell.useCount := by
    rw [h.books.counted.useCount cell hcell]
    exact List.count_pos_iff.mpr (h.books.counted.referred cell hcell)
  omega

/-! ### Deregistering when there is no other call -/

/-- A registration of the null pointer is refused. -/
theorem key_ne_zero (h : (instanceMachine setup).Reachable s) :
    ∀ cell ∈ s.heap, cell.value.key ≠ 0 := by
  refine Machine.Reachable.invariant (I := fun s => ∀ cell ∈ s.heap, cell.value.key ≠ 0) ?_ ?_ h
  · rintro s rfl cell hcell
    cases hcell
  · intro s a t hreached hs hstep
    have hmove : InstanceMove setup (fun _ => True) (fun e => e.key ≠ 0) s t := by
      refine instanceStep_move hstep (fun _ _ _ _ _ => trivial) ?_
      intro c hc info mr hostBuf hpc
      have hok := (callsOk_of_reachable hreached).calls c (List.mem_append_left _ hc)
      rw [hpc] at hok
      intro hkey
      have hargs := hok.1.args
      rw [show c.op.devPtr = 0 from hkey] at hargs
      simp [checkRegistrationArgs] at hargs
    cases hmove with
    | begin current => exact hs
    | step mem stepped moves =>
        intro cell hcell
        obtain ⟨e, he, -, hvalue⟩ | ⟨-, -, hgood, -⟩ := moves.move.heap_from cell hcell
        · rw [← hvalue]
          exact hs e he
        · exact hgood
    | ret mem pc => exact hs
    | finishCopy started => exact hs
    | shutdown => exact hs
    | @destroy queries retired alive idle all truthful =>
        have hover : (s.destroyInstance queries).destroyed = true := rfl
        have hended := (owned_of_reachable (.step (a := a) hreached trivial hstep)).ended hover
        rw [hended.2.2.2.2]
        intro cell hcell
        cases hcell

/-- The state with a call that has just found the instance. -/
def InstanceState.begun (s : InstanceState) (op : Op) : InstanceState :=
  { s with calls := .new s.next op :: s.calls, next := s.next + 1 }

/-- `hipObjBufDeregister` of an address, called now and left alone, returns
success whatever the events of the abandoned copies say, unless there is no
memory to take a copy out with, or a query throws. -/
structure Deregisters (setup : Setup) (s : InstanceState) (key : BitVec 64) : Prop where
  begins : instanceStep setup s (.begin (.deregister key)) = some (s.begun (.deregister key))
  succeeds : ∃ t c, Alone setup (s.begun (.deregister key)) (.new s.next (.deregister key)) t c ∧
    c.pc = .reclaim ∧ t.copies = s.copies ∧ t.finished = s.finished ∧
    ∀ answers, (∀ copy ∈ t.copies, (answers copy).noMemory = false) →
      (∀ copy ∈ t.copies, (answers copy).throws = false) →
      (∀ copy ∈ t.copies, (answers copy).status ≠ .notReady → copy.copy ∈ t.finished) →
      ∃ c' u w d, t.callStep setup c (.statuses answers) = some (c', u) ∧
        Alone setup { u with calls := c' :: t.calls.erase c } c' w d ∧
        d.pc = .unwind .empty .Success ∧ key ∉ w.entries.map Prod.fst

/-- There is no call, and no abandoned copy of the entry. -/
theorem deregisters_of_idle {key : BitVec 64} {i : Nat} (hs : (instanceMachine setup).Reachable s)
    (hcurrent : s.current = true) (hidle : s.calls = []) (hmapped : (key, i) ∈ s.entries)
    (hcopies : s.abandonedOf i = 0) : Deregisters setup s key := by
  have hbegins : instanceStep setup s (.begin (.deregister key)) =
      some (s.begun (.deregister key)) := by
    rw [instanceStep, if_pos hcurrent]
    rfl
  obtain ⟨e, hentry, hkey⟩ := (mapOk_of_reachable hs).keyed _ hmapped
  obtain ⟨cell, hlookup, rfl⟩ := Option.map_eq_some_iff.mp hentry
  have hnull : key ≠ 0 := by
    rw [show key = cell.value.key from hkey.symm]
    exact key_ne_zero hs cell (Cell.lookup_some hlookup).1
  have hstart : (s.begun (.deregister key)).callStep setup (.new s.next (.deregister key)) .ok =
      some ((Call.new s.next (.deregister key)).goto .reclaim, s.begun (.deregister key)) := by
    simp only [InstanceState.callStep, Call.new, InstanceState.startStep, if_neg hnull]
  have hbegun : (instanceMachine setup).Reachable (s.begun (.deregister key)) :=
    .step (a := .begin (.deregister key)) hs trivial hbegins
  have halone : Alone setup (s.begun (.deregister key)) (.new s.next (.deregister key)) _ _ :=
    .step List.mem_cons_self hstart .refl
  refine ⟨hbegins, _, _, halone, rfl, rfl, rfl, ?_⟩
  intro answers hmemory hanswers htruthful
  have hreached := halone.reachable hbegun
  refine reclaim_alone (i := i) hreached List.mem_cons_self rfl
    (lookupKey_of_mem (mapOk_of_reachable hreached).books hmapped) ?_ ?_ hmemory hanswers htruthful
  · intro d hd
    simp only [InstanceState.begun, hidle, List.erase_cons_head, List.mem_singleton] at hd
    rw [hd]
    simp [Call.goto, Pc.locals, Locals.empty, Locals.refs]
  · intro r hr hri
    exact absurd (by simpa using hri) (List.countP_eq_zero.mp hcopies r hr)

end HipObject
