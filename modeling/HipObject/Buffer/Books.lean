import HipObject.Buffer.Moves

/-!
# Who owns what

Every memory region, staging buffer, file descriptor and event of an instance is
owned by one entry, one call or one record of an abandoned copy, from the time it
is made until it is undone. An entry lives as long as something refers to it, and
its use count is the number of those: the map, the calls that found or hold it,
and the abandoned copies.

`Books` states this over the local variables of the calls, so that a step needs
only the variables of the call that moves.
-/

namespace HipObject

open Verification

variable {s t : InstanceState} {l l' : Locals} {others : List Locals}
variable {lose : StagingCopy → Prop} {good : BufEntry → Prop} {c : Call}

/-- The references to entries: the map's, the abandoned copies', the calls'. -/
def InstanceState.refs (s : InstanceState) (calls : List Locals) : List Nat :=
  s.entries.map Prod.snd ++ s.copies.map Copy.entry ++ calls.flatMap Locals.refs

def InstanceState.heapMrs (s : InstanceState) : List Mr :=
  (s.heap.map Cell.value).map BufEntry.mr

def InstanceState.heapHostBufs (s : InstanceState) : List HostBuf :=
  (s.heap.map Cell.value).flatMap fun e => e.hostBuf.toList

/-! ### Entries -/

/-- The heap has the entries that `refs` refer to, and they own their memory
regions and staging buffers, besides those listed. -/
structure HeapBooks (s : InstanceState) (refs : List Nat) (mrs : List Mr)
    (hostBufs : List HostBuf) : Prop where
  counted : Cell.Counted s.heap refs
  mrs : Balanced s.registered s.deregistered (s.heapMrs ++ mrs)
  hostBufs : Balanced s.allocated (s.freed ++ s.leaked) (s.heapHostBufs ++ hostBufs)

variable {refs : List Nat} {mrs : List Mr} {hostBufs : List HostBuf}

/-- What letting a reference go does. -/
theorem dropRef_eq (s : InstanceState) (i : Nat) :
    ∃ deregistered freed leaked, s.dropRef i = { s with
      heap := (Cell.release s.heap i).1
      deregistered := deregistered
      freed := freed
      leaked := leaked } := by
  unfold InstanceState.dropRef
  cases hlast : (Cell.release s.heap i).2 with
  | none => exact ⟨s.deregistered, s.freed, s.leaked, by simp [hlast]⟩
  | some e => exact ⟨_, _, _, by simp [hlast, InstanceState.destroyEntry]; exact ⟨rfl, rfl, rfl⟩⟩

/-- An entry that nothing refers to any more undoes what it owns. -/
theorem HeapBooks.dropRef {i : Nat} (h : HeapBooks s (i :: refs) mrs hostBufs) :
    HeapBooks (s.dropRef i) refs mrs hostBufs := by
  have hcounted := h.counted.release (.refl _)
  have hvalues := Cell.perm_release s.heap i
  unfold InstanceState.dropRef
  cases hlast : (Cell.release s.heap i).2 with
  | none =>
      rw [hlast] at hvalues
      refine ⟨by simpa [hlast] using hcounted, ?_, ?_⟩
      · simp only [hlast]
        exact h.mrs.congr ((hvalues.map BufEntry.mr).append_right mrs)
      · simp only [hlast]
        exact h.hostBufs.congr ((hvalues.flatMap_right _).append_right hostBufs)
  | some e =>
      rw [hlast] at hvalues
      have hmrs := (hvalues.map BufEntry.mr).append_right mrs
      have hhostBufs := (hvalues.flatMap_right fun e => e.hostBuf.toList).append_right hostBufs
      refine ⟨by simpa [hlast, InstanceState.destroyEntry] using hcounted, ?_, ?_⟩
      · simp only [hlast, InstanceState.destroyEntry]
        exact h.mrs.lose [e.mr] hmrs
      · have hlost := h.hostBufs.lose e.hostBuf.toList
          (by simpa [InstanceState.heapHostBufs] using hhostBufs)
        simp only [hlast, InstanceState.destroyEntry]
        by_cases hleak : e.leakHostBuf = true
        · rw [if_pos hleak, if_pos hleak]
          refine hlost.congr_undone ?_
          rw [← List.append_assoc, ← List.append_assoc]
          exact List.perm_append_comm.append_right s.leaked
        · rw [if_neg hleak, if_neg hleak, List.append_assoc]
          exact hlost

/-! ### Everything -/

/-- Identifiers are handed out in order, so the next one is new. -/
def Below (next : Nat) (ids : List Nat) : Prop := ∀ i ∈ ids, i < next

theorem Below.mono {next : Nat} {ids ids' : List Nat} (h : Below next ids)
    (hids : ∀ i ∈ ids', i ∈ ids) : Below next ids' := fun i hi => h i (hids i hi)

theorem Below.grow {next : Nat} {ids ids' : List Nat} (h : Below next ids)
    (hids : ∀ i ∈ ids', i = next ∨ i ∈ ids) : Below (next + 1) ids' := by
  intro i hi
  obtain rfl | hi := hids i hi
  · exact Nat.lt_succ_self i
  · exact Nat.lt_succ_of_lt (h i hi)

/-- The identifiers in use. -/
def InstanceState.ids (s : InstanceState) (calls : List Locals) : List Nat :=
  s.refs calls ++ s.registered.map Mr.id ++ s.allocated.map HostBuf.id ++ s.opened ++ s.created

/-- The books of an instance, over the local variables of its calls. -/
structure Books (s : InstanceState) (calls : List Locals) : Prop where
  counted : Cell.Counted s.heap (s.refs calls)
  mrs : Balanced s.registered s.deregistered (s.heapMrs ++ calls.flatMap Locals.mrs)
  hostBufs : Balanced s.allocated (s.freed ++ s.leaked)
    (s.heapHostBufs ++ calls.flatMap Locals.hostBufs)
  fds : Balanced s.opened s.closed (calls.flatMap Locals.fds)
  events : Balanced s.created (s.eventsDestroyed ++ s.eventsLeaked)
    (s.copies.map Copy.done ++ calls.flatMap Locals.events)
  fresh : Below s.next (s.ids calls)

namespace Books

theorem initial : Books .initial [] where
  counted := ⟨.nil, nofun, nofun, nofun⟩
  mrs := .nil
  hostBufs := .nil
  fds := .nil
  events := .nil
  fresh := nofun

/-- The order of the calls doesn't matter. -/
theorem congr {calls calls' : List Locals} (h : Books s calls) (hcalls : calls'.Perm calls) :
    Books s calls' := by
  have hrefs : (s.refs calls').Perm (s.refs calls) := (hcalls.flatMap_right _).append_left _
  exact {
    counted := h.counted.congr hrefs
    mrs := h.mrs.congr ((hcalls.flatMap_right _).append_left _).symm
    hostBufs := h.hostBufs.congr ((hcalls.flatMap_right _).append_left _).symm
    fds := h.fds.congr (hcalls.flatMap_right _).symm
    events := h.events.congr ((hcalls.flatMap_right _).append_left _).symm
    fresh := h.fresh.mono fun i hi => by
      simp only [InstanceState.ids, List.mem_append, hrefs.mem_iff] at hi ⊢
      exact hi }

/-- Letting a reference of the moving call go, after an event perhaps. -/
theorem dropRef {i : Nat} (h : Books s (l :: others)) (destroyed : List Nat)
    (hrefs : l.refs.Perm (i :: l'.refs)) (hmrs : l'.mrs = l.mrs)
    (hhostBufs : l'.hostBufs = l.hostBufs) (hfds : l'.fds = l.fds)
    (hevents : Balanced s.created (destroyed ++ s.eventsLeaked)
      (s.copies.map Copy.done ++ (l' :: others).flatMap Locals.events)) :
    Books ({ s with eventsDestroyed := destroyed }.dropRef i) (l' :: others) := by
  have hall : (s.refs (l :: others)).Perm (i :: s.refs (l' :: others)) := by
    simp only [InstanceState.refs, List.flatMap_cons]
    refine .trans ((hrefs.append_right _).append_left _) ?_
    exact List.perm_middle
  have hheap := HeapBooks.dropRef (s := { s with eventsDestroyed := destroyed })
    ⟨h.counted.congr hall.symm, h.mrs, h.hostBufs⟩
  obtain ⟨deregistered, freed, leaked, heq⟩ :=
    dropRef_eq { s with eventsDestroyed := destroyed } i
  rw [heq] at hheap ⊢
  refine ⟨hheap.counted, ?_, ?_, ?_, hevents, ?_⟩
  · simpa only [List.flatMap_cons, hmrs] using hheap.mrs
  · simpa only [List.flatMap_cons, hhostBufs] using hheap.hostBufs
  · simpa only [List.flatMap_cons, hfds] using h.fds
  · refine h.fresh.mono fun j hj => ?_
    have hj : j ∈ s.ids (l' :: others) := hj
    simp only [InstanceState.ids, List.mem_append, hall.mem_iff, List.mem_cons] at hj ⊢
    tauto

/-- An entry takes over what the call that builds it owned. -/
theorem build {entry : BufEntry} (h : Books s (l :: others)) (mr : l.mr = some entry.mr)
    (hostBuf : l.hostBuf = entry.hostBuf) (free : l.entry = none) :
    Books { s with heap := ⟨s.next, 1, entry⟩ :: s.heap, next := s.next + 1 }
      ({ l with mr := none, hostBuf := none, entry := some s.next } :: others) := by
  have hrefs : (s.refs ({ l with mr := none, hostBuf := none, entry := some s.next } ::
      others)).Perm (s.next :: s.refs (l :: others)) := by
    refine List.perm_iff_count.mpr fun i => ?_
    simp only [InstanceState.refs, List.flatMap_cons, Locals.refs, free, List.count_append,
      List.count_cons, Option.toList_some, Option.toList_none, List.count_nil]
    omega
  have hnew : s.next ∉ s.refs (l :: others) := by
    intro hmem
    exact Nat.lt_irrefl _ (h.fresh _ (by simp [InstanceState.ids, hmem]))
  have hmrs := h.mrs
  have hhostBufs := h.hostBufs
  simp only [List.flatMap_cons, Locals.mrs, mr] at hmrs
  simp only [List.flatMap_cons, Locals.hostBufs, hostBuf] at hhostBufs
  refine ⟨(h.counted.alloc hnew).congr hrefs, hmrs.congr List.perm_middle, hhostBufs.congr ?_,
    h.fds, h.events, h.fresh.grow ?_⟩
  · simp only [InstanceState.heapHostBufs, List.map_cons, List.flatMap_cons, Locals.hostBufs,
      Option.toList_none, List.nil_append]
    rw [← List.append_assoc]
    exact List.perm_append_comm.append_right _
  · intro i hi
    have hi : i ∈ s.ids ({ l with mr := none, hostBuf := none, entry := some s.next } ::
      others) := hi
    simp only [InstanceState.ids, List.mem_append, hrefs.mem_iff, List.mem_cons] at hi ⊢
    tauto

/-- A reference that changes hands between the map, the records and the calls. -/
theorem handOver (h : Books s (l :: others)) (hheap : t.heap = s.heap)
    (hmade : t.next = s.next ∧ t.registered = s.registered ∧ t.deregistered = s.deregistered ∧
      t.allocated = s.allocated ∧ t.freed = s.freed ∧ t.leaked = s.leaked ∧
      t.opened = s.opened ∧ t.closed = s.closed ∧ t.created = s.created ∧
      t.eventsDestroyed = s.eventsDestroyed ∧ t.eventsLeaked = s.eventsLeaked)
    (hrefs : (t.refs (l' :: others)).Perm (s.refs (l :: others)))
    (hmrs : l'.mrs = l.mrs) (hhostBufs : l'.hostBufs = l.hostBufs) (hfds : l'.fds = l.fds)
    (hevents : (t.copies.map Copy.done ++ l'.events).Perm (s.copies.map Copy.done ++ l.events)) :
    Books t (l' :: others) := by
  obtain ⟨h1, h2, h3, h4, h5, h6, h7, h8, h9, h10, h11⟩ := hmade
  refine ⟨?_, ?_, ?_, ?_, ?_, ?_⟩
  · rw [hheap]
    exact h.counted.congr hrefs
  · rw [h2, h3, InstanceState.heapMrs, hheap, List.flatMap_cons, hmrs]
    exact h.mrs
  · rw [h4, h5, h6, InstanceState.heapHostBufs, hheap, List.flatMap_cons, hhostBufs]
    exact h.hostBufs
  · rw [h7, h8, List.flatMap_cons, hfds]
    exact h.fds
  · rw [h9, h10, h11, List.flatMap_cons, ← List.append_assoc]
    refine h.events.congr ?_
    rw [List.flatMap_cons, ← List.append_assoc]
    exact (hevents.append_right _).symm
  · rw [h1]
    refine h.fresh.mono fun i hi => ?_
    simp only [InstanceState.ids, List.mem_append, hrefs.mem_iff, h2, h4, h7, h9] at hi ⊢
    exact hi

/-- One more reference to an entry that something refers to. -/
theorem retain {i : Nat} (h : Books s (l :: others)) (hi : i ∈ s.refs (l :: others)) :
    HeapBooks { s with heap := Cell.retain s.heap i } (i :: s.refs (l :: others))
      ((l :: others).flatMap Locals.mrs) ((l :: others).flatMap Locals.hostBufs) := by
  have hvalues := Cell.perm_retain s.heap i
  refine ⟨h.counted.retain hi, h.mrs.congr ?_, h.hostBufs.congr ?_⟩
  · exact ((hvalues.map BufEntry.mr).append_right _).symm
  · exact ((hvalues.flatMap_right _).append_right _).symm

/-- The step lemma: a move of a call keeps the books. -/
theorem move (h : Books s (l :: others)) (hmove : LocalMove lose good c s l l' t) :
    Books t (l' :: others) := by
  cases hmove with
  | quiet queried => exact ⟨h.counted, h.mrs, h.hostBufs, h.fds, h.events, h.fresh⟩
  | openFd free =>
      have hfds := h.fds
      simp only [List.flatMap_cons, Locals.fds, free, Option.toList_none, List.nil_append] at hfds
      have hnew : s.next ∉ s.opened := by
        intro hmem
        exact Nat.lt_irrefl _ (h.fresh _ (by simp [InstanceState.ids, hmem]))
      refine ⟨h.counted, h.mrs, h.hostBufs, hfds.gain hnew, h.events, h.fresh.grow ?_⟩
      intro i hi
      simp only [InstanceState.ids, List.mem_append, List.mem_cons] at hi ⊢
      tauto
  | closeFd has =>
      have hfds := h.fds
      simp only [List.flatMap_cons, Locals.fds, has] at hfds
      exact ⟨h.counted, h.mrs, h.hostBufs, hfds.lose [_] (.refl _), h.events, h.fresh⟩
  | @gainMr mr free fresh =>
      have hmrs := h.mrs
      simp only [List.flatMap_cons, Locals.mrs, free, Option.toList_none, List.nil_append] at hmrs
      have hnew : mr ∉ s.registered := by
        intro hmem
        have := h.fresh mr.id (by simp [InstanceState.ids, List.mem_map_of_mem hmem])
        omega
      refine ⟨h.counted, (hmrs.gain hnew).congr List.perm_middle.symm, h.hostBufs, h.fds, h.events,
        h.fresh.grow ?_⟩
      intro i hi
      simp only [InstanceState.ids, InstanceState.registerMr, List.map_cons, List.mem_append,
        List.mem_cons, fresh] at hi ⊢
      have hi := hi
      tauto
  | loseMr has =>
      have hmrs := h.mrs
      simp only [List.flatMap_cons, Locals.mrs, has] at hmrs
      exact ⟨h.counted, hmrs.lose [_] List.perm_middle, h.hostBufs, h.fds, h.events,
        h.fresh⟩
  | @gainHostBuf hostBuf free fresh =>
      have hhostBufs := h.hostBufs
      simp only [List.flatMap_cons, Locals.hostBufs, free, Option.toList_none,
        List.nil_append] at hhostBufs
      have hnew : hostBuf ∉ s.allocated := by
        intro hmem
        have := h.fresh hostBuf.id (by simp [InstanceState.ids, List.mem_map_of_mem hmem])
        omega
      refine ⟨h.counted, h.mrs, (hhostBufs.gain hnew).congr List.perm_middle.symm, h.fds, h.events,
        h.fresh.grow ?_⟩
      intro i hi
      simp only [InstanceState.ids, List.map_cons, List.mem_append, List.mem_cons, fresh] at hi ⊢
      tauto
  | loseHostBuf has =>
      have hhostBufs := h.hostBufs
      simp only [List.flatMap_cons, Locals.hostBufs, has] at hhostBufs
      exact ⟨h.counted, h.mrs, hhostBufs.lose [_] List.perm_middle, h.fds, h.events,
        h.fresh⟩
  | build mr hostBuf free isGood keyed unmarked => exact h.build mr hostBuf free
  | @insert i has room =>
      refine h.handOver rfl (by simp) ?_ rfl rfl rfl (.refl _)
      refine List.perm_iff_count.mpr fun j => ?_
      simp only [InstanceState.refs, List.map_cons, List.flatMap_cons, Locals.refs, has,
        List.count_append, List.count_cons, Option.toList_some, Option.toList_none, List.count_nil]
      omega
  | @remove i cell free mapped present unused =>
      refine h.handOver rfl (by simp) ?_ rfl rfl rfl (.refl _)
      refine List.perm_iff_count.mpr fun j => ?_
      have hcount := ((List.perm_cons_erase mapped).map Prod.snd).count_eq j
      simp only [List.map_cons, List.count_cons] at hcount
      simp only [InstanceState.refs, List.flatMap_cons, Locals.refs, free, List.count_append,
        List.count_cons, Option.toList_some, Option.toList_none, List.count_nil, hcount]
      omega
  | @find i free mapped isFound =>
      have hi : i ∈ s.refs (l :: others) := by
        simp only [InstanceState.refs, List.mem_append]
        exact .inl (.inl (List.mem_map_of_mem mapped))
      have hheap := h.retain hi
      have hrefs : (s.refs ({ l with buf := some i } :: others)).Perm
          (i :: s.refs (l :: others)) := by
        refine List.perm_iff_count.mpr fun j => ?_
        simp only [InstanceState.refs, List.flatMap_cons, Locals.refs, free, List.count_append,
          List.count_cons, Option.toList_some, Option.toList_none, List.count_nil]
        omega
      refine ⟨hheap.counted.congr hrefs, hheap.mrs, hheap.hostBufs, h.fds, h.events,
        h.fresh.mono ?_⟩
      intro j hj
      have hj : j ∈ s.ids ({ l with buf := some i } :: others) := hj
      simp only [InstanceState.ids, List.mem_append, hrefs.mem_iff, List.mem_cons] at hj ⊢
      have := hi
      grind
  | dropEntry has =>
      refine h.dropRef s.eventsDestroyed ?_ rfl rfl rfl h.events
      refine List.perm_iff_count.mpr fun j => ?_
      simp only [Locals.refs, has, List.count_append, List.count_cons, Option.toList_some,
        Option.toList_none, List.count_nil]
      omega
  | dropBuf has =>
      refine h.dropRef s.eventsDestroyed ?_ rfl rfl rfl h.events
      simp [Locals.refs, has]
  | gainSlot free => exact ⟨h.counted, h.mrs, h.hostBufs, h.fds, h.events, h.fresh⟩
  | loseSlot has => exact ⟨h.counted, h.mrs, h.hostBufs, h.fds, h.events, h.fresh⟩
  | gainEvent free =>
      have hevents := h.events
      simp only [List.flatMap_cons, Locals.events, free, Option.toList_none,
        List.nil_append] at hevents
      have hnew : s.next ∉ s.created := by
        intro hmem
        exact Nat.lt_irrefl _ (h.fresh _ (by simp [InstanceState.ids, hmem]))
      refine ⟨h.counted, h.mrs, h.hostBufs, h.fds,
        (hevents.gain hnew).congr List.perm_middle.symm, h.fresh.grow ?_⟩
      intro i hi
      simp only [InstanceState.ids, List.mem_append, List.mem_cons] at hi ⊢
      tauto
  | loseEvent has =>
      have hevents := h.events
      simp only [List.flatMap_cons, Locals.events, has] at hevents
      exact ⟨h.counted, h.mrs, h.hostBufs, h.fds, hevents.lose [_] List.perm_middle,
        h.fresh⟩
  | startCopy free fresh buf present hostBuf =>
      exact ⟨h.counted, h.mrs, h.hostBufs, h.fds, h.events, h.fresh.grow fun i hi => .inr hi⟩
  | endCopy has ended queried => exact ⟨h.counted, h.mrs, h.hostBufs, h.fds, h.events, h.fresh⟩
  | loseCopy has loses => exact ⟨h.counted, h.mrs, h.hostBufs, h.fds, h.events, h.fresh⟩
  | @add copy buf event slot has =>
      have hi : copy.entry ∈ s.refs (l :: others) := by
        simp [InstanceState.refs, Locals.refs, buf]
      have hheap := h.retain hi
      have hrefs : ((s.addCopy copy).refs ({ l with event := none, slot := false, copy := none } ::
          others)).Perm (copy.entry :: s.refs (l :: others)) := by
        refine List.perm_iff_count.mpr fun j => ?_
        simp only [InstanceState.refs, InstanceState.addCopy, List.map_append, List.map_cons,
          List.map_nil, List.flatMap_cons, Locals.refs, List.count_append, List.count_cons,
          List.count_nil]
        omega
      have hevents := h.events
      simp only [List.flatMap_cons, Locals.events, event, Option.toList_some] at hevents
      refine ⟨hheap.counted.congr hrefs, hheap.mrs, hheap.hostBufs, h.fds, ?_, h.fresh.mono ?_⟩
      · refine hevents.congr ?_
        simp only [InstanceState.addCopy, List.map_append, List.map_cons, List.map_nil,
          List.flatMap_cons, Locals.events, Option.toList_none, List.nil_append, List.append_assoc]
        exact .refl _
      · intro j hj
        simp only [InstanceState.ids, List.mem_append, hrefs.mem_iff, List.mem_cons] at hj ⊢
        have := hi
        grind [InstanceState.addCopy]
  | @release entry answers r _ free released =>
      obtain ⟨hperm, -, rfl⟩ := release_spec released
      refine h.handOver rfl (by simp) ?_ rfl rfl rfl ?_
      · refine List.perm_iff_count.mpr fun j => ?_
        have hcount := (hperm.map Copy.entry).count_eq j
        simp only [List.map_append, List.count_append] at hcount
        simp only [InstanceState.refs, List.flatMap_cons, Locals.refs, free, List.map_nil,
          List.count_append, List.count_nil, hcount]
        omega
      · refine List.perm_iff_count.mpr fun j => ?_
        have hcount := (hperm.map Copy.done).count_eq j
        simp only [List.map_append, List.count_append] at hcount
        simp only [Locals.events, free, List.map_nil, List.count_append, List.count_nil, hcount]
        omega
  | @dropOver copy rest has =>
      have hevents := h.events
      simp only [List.flatMap_cons, Locals.events, has, List.map_cons] at hevents
      refine h.dropRef (copy.done :: s.eventsDestroyed) ?_ rfl rfl rfl ?_
      · refine List.perm_iff_count.mpr fun j => ?_
        simp only [Locals.refs, has, List.map_cons, List.count_append, List.count_cons]
        omega
      · refine hevents.lose [copy.done] ?_
        refine List.perm_iff_count.mpr fun j => ?_
        simp only [List.flatMap_cons, Locals.events, List.count_append, List.count_cons,
          List.count_nil]
        omega

/-- A call that begins, or has returned, owns nothing. -/
theorem cons_empty {calls : List Locals} : Books s (.empty :: calls) ↔ Books s calls := by
  have hrefs : s.refs (.empty :: calls) = s.refs calls := rfl
  constructor
  · intro h
    exact ⟨h.counted, h.mrs, h.hostBufs, h.fds, h.events, h.fresh⟩
  · intro h
    exact ⟨h.counted, h.mrs, h.hostBufs, h.fds, h.events, h.fresh⟩

end Books

end HipObject
