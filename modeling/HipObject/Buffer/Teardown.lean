import HipObject.Buffer.Books

/-!
# Destroying the instance

`~AbandonedCopies` runs first. It marks the entries whose copies are still
running, so that their staging buffers outlive them, and leaks the events of
those copies. Then the records and the map let go of the entries, which
deregisters every memory region and frees every staging buffer that isn't marked.
-/

namespace HipObject

open Verification

variable {s t : InstanceState} {refs : List Nat} {mrs : List Mr} {hostBufs : List HostBuf}
variable {queries : List (Copy × EventStatus)}

/-- The events of the copies that weren't over, and of those that were. -/
def leakedEvents (queries : List (Copy × EventStatus)) : List Nat :=
  (queries.filter fun q => q.2 = .notReady).map fun q => q.1.done

def endedEvents (queries : List (Copy × EventStatus)) : List Nat :=
  (queries.filter fun q => q.2 ≠ .notReady).map fun q => q.1.done

/-- The entries that a copy which wasn't over uses. -/
def leakedEntries (queries : List (Copy × EventStatus)) : List Nat :=
  (queries.filter fun q => q.2 = .notReady).map fun q => q.1.entry

/-! ### Marking -/

/-- Staging buffers, counted by the entries' `hostBuf` fields. -/
theorem heapHostBufs_perm
    (h : ((t.heap.map Cell.value).map BufEntry.hostBuf).Perm
      ((s.heap.map Cell.value).map BufEntry.hostBuf)) :
    t.heapHostBufs.Perm s.heapHostBufs := by
  have hflat := h.flatMap_right fun hostBuf => hostBuf.toList
  simpa only [InstanceState.heapHostBufs, List.flatMap_map] using hflat

/-- Which entries are marked. -/
def Marked (heap : List (Cell BufEntry)) (marked : List Nat) : Prop :=
  ∀ c ∈ heap, c.value.leakHostBuf = true ↔ c.id ∈ marked

theorem markLeaked_spec {marked : List Nat} (q : Copy × EventStatus)
    (h : HeapBooks s refs mrs hostBufs) (hmarked : Marked s.heap marked) :
    HeapBooks (s.markLeaked q) refs mrs hostBufs ∧
      Marked (s.markLeaked q).heap (marked ++ leakedEntries [q]) ∧
      (∀ c ∈ (s.markLeaked q).heap, ∃ d ∈ s.heap, d.id = c.id ∧
        d.value.hostBuf = c.value.hostBuf) ∧
      s.markLeaked q = { s with
        heap := (s.markLeaked q).heap
        eventsLeaked := leakedEvents [q] ++ s.eventsLeaked } := by
  obtain ⟨copy, status⟩ := q
  cases status with
  | notReady =>
      have hheap : (s.markLeaked (copy, .notReady)).heap =
        Cell.modify s.heap copy.entry BufEntry.leak := rfl
      refine ⟨⟨?_, ?_, ?_⟩, ?_, ?_, rfl⟩
      · rw [hheap]
        exact h.counted.modify _ _
      · refine h.mrs.congr (List.Perm.append_right mrs ?_).symm
        rw [InstanceState.heapMrs, hheap]
        exact Cell.perm_modify fun _ => rfl
      · refine h.hostBufs.congr (List.Perm.append_right hostBufs (heapHostBufs_perm ?_)).symm
        rw [hheap]
        exact Cell.perm_modify fun _ => rfl
      · intro c hc
        rw [hheap] at hc
        obtain ⟨d, hd, hid, hvalue⟩ := Cell.of_mem_modify h.counted hc
        have hd := hmarked d hd
        rw [hvalue]
        split
        · rename_i heq
          simp [leakedEntries, heq, BufEntry.leak]
        · rename_i hne
          simp [leakedEntries, hd, hid, hne]
      · intro c hc
        rw [hheap] at hc
        obtain ⟨d, hd, hid, hvalue⟩ := Cell.of_mem_modify h.counted hc
        refine ⟨d, hd, hid, ?_⟩
        rw [hvalue]
        split <;> rfl
  | success =>
      refine ⟨h, ?_, fun c hc => ⟨c, hc, rfl, rfl⟩, rfl⟩
      intro c hc
      simpa [leakedEntries] using hmarked c hc
  | error =>
      refine ⟨h, ?_, fun c hc => ⟨c, hc, rfl, rfl⟩, rfl⟩
      intro c hc
      simpa [leakedEntries] using hmarked c hc

theorem markAll_spec {marked : List Nat} (queries : List (Copy × EventStatus))
    (h : HeapBooks s refs mrs hostBufs) (hmarked : Marked s.heap marked) :
    HeapBooks (queries.foldl InstanceState.markLeaked s) refs mrs hostBufs ∧
      Marked (queries.foldl InstanceState.markLeaked s).heap (marked ++ leakedEntries queries) ∧
      (∀ c ∈ (queries.foldl InstanceState.markLeaked s).heap, ∃ d ∈ s.heap, d.id = c.id ∧
        d.value.hostBuf = c.value.hostBuf) ∧
      queries.foldl InstanceState.markLeaked s = { s with
        heap := (queries.foldl InstanceState.markLeaked s).heap
        eventsLeaked := (leakedEvents queries).reverse ++ s.eventsLeaked } := by
  induction queries generalizing s marked with
  | nil =>
      exact ⟨h, by simpa [leakedEntries] using hmarked, fun c hc => ⟨c, hc, rfl, rfl⟩, rfl⟩
  | cons q rest ih =>
      obtain ⟨hbooks, hq, hkept, heq⟩ := markLeaked_spec q h hmarked
      obtain ⟨hall, hrest, hrest_kept, hrest_eq⟩ := ih hbooks hq
      refine ⟨hall, ?_, ?_, ?_⟩
      · intro c hc
        have hc := hrest c hc
        rw [List.append_assoc] at hc
        simpa [leakedEntries, ← List.map_append, ← List.filter_append] using hc
      · intro c hc
        obtain ⟨d, hd, hid, hvalue⟩ := hrest_kept c hc
        obtain ⟨e, he, heid, hevalue⟩ := hkept d hd
        exact ⟨e, he, heid.trans hid, hevalue.trans hvalue⟩
      · rw [List.foldl_cons, hrest_eq, heq]
        cases hstatus : decide (q.2 = .notReady) <;> simp [leakedEvents, hstatus]

/-! ### Letting go -/

/-- Where a staging buffer ends up: with the entry that has it, or leaked or
freed, as the entry is marked. -/
def Fate (s : InstanceState) (hostBuf : HostBuf) (leak : Bool) : Prop :=
  hostBuf ∈ (if leak then s.leaked else s.freed) ∨
    ∃ c ∈ s.heap, c.value.hostBuf = some hostBuf ∧ c.value.leakHostBuf = leak

theorem Fate.dropRef {hostBuf : HostBuf} {leak : Bool} (h : Fate s hostBuf leak) (i : Nat) :
    Fate (s.dropRef i) hostBuf leak := by
  unfold InstanceState.dropRef
  obtain hgone | ⟨c, hc, hhas, hleak⟩ := h
  · left
    cases hlast : (Cell.release s.heap i).2 with
    | none => simpa [hlast] using hgone
    | some e =>
        cases leak with
        | true =>
            simp only [hlast, InstanceState.destroyEntry, if_true] at hgone ⊢
            split <;> simp [hgone]
        | false =>
            simp only [hlast, InstanceState.destroyEntry, Bool.false_eq_true, if_false] at hgone ⊢
            split <;> simp [hgone]
  · obtain hdead | ⟨d, hd, -, hvalue⟩ := Cell.mem_release (i := i) hc
    · left
      cases leak with
      | true => simp [hdead, InstanceState.destroyEntry, hhas, hleak]
      | false => simp [hdead, InstanceState.destroyEntry, hhas, hleak]
    · right
      refine ⟨d, ?_, by rw [hvalue, hhas], by rw [hvalue, hleak]⟩
      cases hlast : (Cell.release s.heap i).2 with
      | none => simpa [hlast] using hd
      | some e => simpa [hlast, InstanceState.destroyEntry] using hd

/-- Letting all the references of a list go. -/
theorem dropRefs_spec {ι : Type*} (items : List ι) (ref : ι → Nat) (refs : List Nat)
    (h : HeapBooks s (items.map ref ++ refs) mrs hostBufs) :
    HeapBooks (items.foldl (fun s x => s.dropRef (ref x)) s) refs mrs hostBufs ∧
      (∀ hostBuf leak, Fate s hostBuf leak →
        Fate (items.foldl (fun s x => s.dropRef (ref x)) s) hostBuf leak) ∧
      ∃ heap deregistered freed leaked, items.foldl (fun s x => s.dropRef (ref x)) s = { s with
        heap := heap
        deregistered := deregistered
        freed := freed
        leaked := leaked } := by
  induction items generalizing s with
  | nil => exact ⟨h, fun _ _ hfate => hfate, s.heap, s.deregistered, s.freed, s.leaked, rfl⟩
  | cons x rest ih =>
      obtain ⟨hbooks, hfate, heap, deregistered, freed, leaked, heq⟩ :=
        ih (s := s.dropRef (ref x)) (HeapBooks.dropRef h)
      obtain ⟨deregistered', freed', leaked', hdrop⟩ := dropRef_eq s (ref x)
      refine ⟨hbooks, fun b leak hb => hfate b leak (hb.dropRef _), heap, deregistered, freed,
        leaked, ?_⟩
      rw [List.foldl_cons, heq, hdrop]

/-- Letting the records go: the same, with the events that are destroyed. -/
theorem dropRecords_spec (queries : List (Copy × EventStatus))
    (h : HeapBooks s (queries.map (fun q => q.1.entry) ++ refs) mrs hostBufs) :
    HeapBooks (queries.foldl InstanceState.dropRecord s) refs mrs hostBufs ∧
      (∀ hostBuf leak, Fate s hostBuf leak →
        Fate (queries.foldl InstanceState.dropRecord s) hostBuf leak) ∧
      ∃ heap deregistered freed leaked, queries.foldl InstanceState.dropRecord s = { s with
        heap := heap
        deregistered := deregistered
        freed := freed
        leaked := leaked
        eventsDestroyed := (endedEvents queries).reverse ++ s.eventsDestroyed } := by
  induction queries generalizing s with
  | nil => exact ⟨h, fun _ _ hfate => hfate, s.heap, s.deregistered, s.freed, s.leaked, rfl⟩
  | cons q rest ih =>
      -- The event goes first, and has no part in the books of the entries.
      obtain ⟨u, hu, hevents⟩ : ∃ u : InstanceState, s.dropRecord q = u.dropRef q.1.entry ∧
          u = { s with eventsDestroyed := endedEvents [q] ++ s.eventsDestroyed } := by
        obtain ⟨copy, status⟩ := q
        cases status <;> exact ⟨_, rfl, rfl⟩
      have hbooks : HeapBooks u (q.1.entry :: (rest.map (fun q => q.1.entry) ++ refs)) mrs
          hostBufs := by
        rw [hevents]
        exact ⟨h.counted, h.mrs, h.hostBufs⟩
      obtain ⟨hall, hfate, heap, deregistered, freed, leaked, heq⟩ :=
        ih (s := u.dropRef q.1.entry) hbooks.dropRef
      obtain ⟨deregistered', freed', leaked', hdrop⟩ := dropRef_eq u q.1.entry
      rw [List.foldl_cons, hu]
      refine ⟨hall, fun b leak hb => hfate b leak (Fate.dropRef ?_ _), heap, deregistered, freed,
        leaked, ?_⟩
      · rw [hevents]
        exact hb
      · rw [heq, hdrop, hevents]
        cases hstatus : decide (q.2 = .notReady) <;> simp [endedEvents, hstatus]

/-! ### All of it -/

/-- Every record's event is either destroyed or leaked. -/
theorem events_perm (queries : List (Copy × EventStatus)) (destroyed leaked : List Nat) :
    (queries.map (fun q => q.1.done) ++ (destroyed ++ leaked)).Perm
      ((endedEvents queries).reverse ++ destroyed ++
        ((leakedEvents queries).reverse ++ leaked)) := by
  refine List.perm_iff_count.mpr fun event => ?_
  have hsplit := ((List.filter_append_perm (fun q : Copy × EventStatus => q.2 = .notReady)
    queries).map fun q => q.1.done).count_eq event
  simp only [List.map_append, List.count_append] at hsplit
  simp only [List.count_append, List.count_reverse, ← hsplit, leakedEvents, endedEvents,
    decide_not]
  omega

/-- Destroying an instance that no call holds, with no entry marked yet. -/
theorem destroyInstance_spec (h : Books s []) (hmarked : Marked s.heap [])
    (hqueries : queries.map Prod.fst = s.copies) :
    Books (s.destroyInstance queries) [] ∧ (s.destroyInstance queries).heap = [] ∧
      (∀ c ∈ s.heap, ∀ hostBuf, c.value.hostBuf = some hostBuf →
        (c.id ∈ leakedEntries queries → hostBuf ∈ (s.destroyInstance queries).leaked) ∧
        (c.id ∉ leakedEntries queries → hostBuf ∈ (s.destroyInstance queries).freed)) ∧
      (∀ hostBuf ∈ s.freed, hostBuf ∈ (s.destroyInstance queries).freed) ∧
      ∃ deregistered freed leaked, s.destroyInstance queries = { s with
        entries := []
        copies := []
        heap := []
        destroyed := true
        deregistered := deregistered
        freed := freed
        leaked := leaked
        eventsDestroyed := (endedEvents queries).reverse ++ s.eventsDestroyed
        eventsLeaked := (leakedEvents queries).reverse ++ s.eventsLeaked } := by
  have hcopies : ∀ {β : Type} (f : Copy → β), queries.map (fun q => f q.1) = s.copies.map f := by
    intro β f
    rw [← hqueries, List.map_map]
    rfl
  -- Mark, let the records go, let the map's references go.
  have hstart : HeapBooks s (queries.map (fun q => q.1.entry) ++ s.entries.map Prod.snd) [] [] := by
    refine ⟨h.counted.congr ?_, h.mrs, h.hostBufs⟩
    rw [hcopies Copy.entry, InstanceState.refs]
    simpa using List.perm_append_comm
  obtain ⟨hmark, hflags, hkept, hmark_eq⟩ := markAll_spec queries hstart hmarked
  obtain ⟨hdrop, hdrop_fate, heap₁, deregistered₁, freed₁, leaked₁, hdrop_eq⟩ :=
    dropRecords_spec queries hmark
  obtain ⟨hempty, hempty_fate, heap₂, deregistered₂, freed₂, leaked₂, hempty_eq⟩ :=
    dropRefs_spec s.entries Prod.snd [] (by simpa using hdrop)
  have hemptied : s.entries.foldl (fun s e => s.dropRef e.2)
      (queries.foldl InstanceState.dropRecord (queries.foldl InstanceState.markLeaked s)) =
      { s with
        heap := heap₂
        deregistered := deregistered₂
        freed := freed₂
        leaked := leaked₂
        eventsDestroyed := (endedEvents queries).reverse ++ s.eventsDestroyed
        eventsLeaked := (leakedEvents queries).reverse ++ s.eventsLeaked } := by
    rw [hempty_eq, hdrop_eq, hmark_eq]
  rw [hemptied] at hempty hempty_fate
  obtain rfl : heap₂ = [] := hempty.counted.nil_of_no_refs
  have heq : s.destroyInstance queries = { s with
      entries := []
      copies := []
      heap := []
      destroyed := true
      deregistered := deregistered₂
      freed := freed₂
      leaked := leaked₂
      eventsDestroyed := (endedEvents queries).reverse ++ s.eventsDestroyed
      eventsLeaked := (leakedEvents queries).reverse ++ s.eventsLeaked } := by
    rw [InstanceState.destroyInstance, hemptied]
  rw [heq]
  refine ⟨⟨hempty.counted, hempty.mrs, hempty.hostBufs, h.fds, ?_, ?_⟩, rfl, ?_, ?_,
    deregistered₂, freed₂, leaked₂, rfl⟩
  · have hevents := h.events.lose (s.copies.map Copy.done) (.refl _)
    rw [← hcopies Copy.done] at hevents
    exact hevents.congr_undone (events_perm queries s.eventsDestroyed s.eventsLeaked)
  · refine h.fresh.mono fun i hi => ?_
    simp only [InstanceState.ids, InstanceState.refs, List.map_nil, List.nil_append,
      List.flatMap_nil, List.mem_append] at hi ⊢
    tauto
  · intro c hc hostBuf hhas
    -- The entry is in the marked heap too, with the mark it should have.
    obtain ⟨d, hd, hid⟩ := hmark.counted.present c.id (hstart.counted.referred c hc)
    obtain ⟨e, he, heid, hvalue⟩ := hkept d hd
    obtain rfl := h.counted.eq_of_id_eq he hc (heid.trans hid)
    have hflag : d.value.leakHostBuf = true ↔ e.id ∈ leakedEntries queries := by
      simpa [hid] using hflags d hd
    have hend := hempty_fate _ _ (hdrop_fate hostBuf d.value.leakHostBuf
      (.inr ⟨d, hd, hvalue ▸ hhas, rfl⟩))
    obtain hgone | ⟨x, hx, -⟩ := hend
    · constructor
      · intro hmem
        rwa [if_pos (hflag.mpr hmem)] at hgone
      · intro hmem
        rwa [if_neg (mt hflag.mp hmem)] at hgone
    · cases hx
  · intro hostBuf hfreed
    have hstill : Fate (queries.foldl InstanceState.markLeaked s) hostBuf false := by
      rw [hmark_eq]
      exact .inl hfreed
    obtain hgone | ⟨x, hx, -⟩ := hempty_fate _ _ (hdrop_fate hostBuf false hstill)
    · exact hgone
    · cases hx

end HipObject
