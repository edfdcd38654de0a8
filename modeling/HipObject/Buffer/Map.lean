import HipObject.Buffer.Runs

/-!
# The buffer map

The map has one entry for an address and at most `kMaxEntries` in all, and holds
every entry that a call found or that a record of an abandoned copy refers to:
`deregisterBuffer()` takes out only an entry whose use count is one, the map's own
reference. What a call knows about its entry stays true while it holds it.
-/

namespace HipObject

open Verification

variable {setup : Setup} {lose : StagingCopy → Prop} {good : BufEntry → Prop}
variable {s t u : InstanceState} {c c' : Call} {key : BitVec 64}
variable {l l' : Locals} {others : List Locals}

/-- The references that keep an entry in the map: those of the records and of
the calls that found it. -/
def InstanceState.pins (s : InstanceState) (calls : List Locals) : List Nat :=
  s.copies.map Copy.entry ++ calls.flatMap Locals.pins

theorem mem_refs_of_mem_entries {x : BitVec 64 × Nat} (calls : List Locals) (h : x ∈ s.entries) :
    x.2 ∈ s.refs calls := by
  simp only [InstanceState.refs, List.mem_append]
  exact .inl (.inl (List.mem_map_of_mem h))

theorem mem_refs_of_entry {i : Nat} (h : l.entry = some i) : i ∈ s.refs (l :: others) := by
  simp [InstanceState.refs, Locals.refs, h]

/-! ### Keys -/

structure MapBooks (s : InstanceState) (calls : List Locals) : Prop where
  keys : (s.entries.map Prod.fst).Nodup
  size : s.entries.length ≤ kMaxEntries
  pinned : ∀ i ∈ s.pins calls, i ∈ s.entries.map Prod.snd

/-- An address that isn't refused is not in the map, which has room for it. -/
theorem refusal_none (h : s.refusal key = none) :
    key ∉ s.entries.map Prod.fst ∧ s.entries.length < kMaxEntries := by
  unfold InstanceState.refusal at h
  split at h
  · cases h
  · rename_i hfree
    split at h
    · cases h
    · rename_i hroom
      refine ⟨?_, Nat.lt_of_not_le hroom⟩
      intro hmem
      obtain ⟨x, hx, hkey⟩ := List.mem_map.mp hmem
      refine hfree ?_
      rw [InstanceState.lookupKey, Option.isSome_map, List.find?_isSome]
      exact ⟨x, hx, by simpa using hkey⟩

/-- An entry with one reference, the map's, is pinned by nothing. -/
theorem not_pinned_of_unused {calls : List Locals} {i : Nat} {cell : Cell BufEntry}
    (h : Books s calls) (mapped : (key, i) ∈ s.entries)
    (present : Cell.lookup s.heap i = some cell) (unused : cell.useCount ≤ 1) :
    i ∉ s.pins calls := by
  obtain ⟨hcell, rfl⟩ := Cell.lookup_some present
  have hcount := h.counted.useCount cell hcell
  have hmapped : 0 < (s.entries.map Prod.snd).count cell.id :=
    List.count_pos_iff.mpr (List.mem_map_of_mem mapped)
  simp only [InstanceState.refs, List.count_append] at hcount
  intro hmem
  rcases List.mem_append.mp hmem with hrecord | hcall
  · have := List.count_pos_iff.mpr hrecord
    omega
  · have : 0 < (calls.flatMap Locals.refs).count cell.id := by
      rw [List.count_pos_iff]
      obtain ⟨l, hl, hpin⟩ := List.mem_flatMap.mp hcall
      refine List.mem_flatMap.mpr ⟨l, hl, ?_⟩
      simp only [Locals.pins, Locals.refs, List.mem_append] at hpin ⊢
      tauto
    omega

/-- What stays pinned stays in the map, if the entries do. -/
theorem MapBooks.shrink (h : MapBooks s (l :: others)) (hentries : t.entries = s.entries)
    (hpins : ∀ i ∈ t.pins (l' :: others), i ∈ s.pins (l :: others) ∨ i ∈ s.entries.map Prod.snd) :
    MapBooks t (l' :: others) := by
  refine ⟨by rw [hentries]; exact h.keys, by rw [hentries]; exact h.size, ?_⟩
  intro i hi
  rw [hentries]
  obtain hpinned | hmapped := hpins i hi
  · exact h.pinned i hpinned
  · exact hmapped

/-- Letting a reference go changes neither the map nor the records. -/
theorem dropRef_entries (s : InstanceState) (i : Nat) :
    (s.dropRef i).entries = s.entries ∧ (s.dropRef i).copies = s.copies := by
  obtain ⟨deregistered, freed, leaked, heq⟩ := dropRef_eq s i
  simp [heq]

/-- The step lemma: a move of a call keeps the keys apart, the number of entries
bounded, and the pinned entries in the map. -/
theorem MapBooks.move (h : MapBooks s (l :: others)) (hbooks : Books s (l :: others))
    (hmove : LocalMove lose good c s l l' t) : MapBooks t (l' :: others) := by
  cases hmove with
  | @insert i has room =>
      obtain ⟨hfree, hroom⟩ := refusal_none room
      refine ⟨?_, hroom, ?_⟩
      · exact List.nodup_cons.mpr ⟨hfree, h.keys⟩
      · intro j hj
        exact List.mem_cons_of_mem _ (h.pinned j hj)
  | @remove i cell free mapped present unused =>
      have hunpinned := not_pinned_of_unused hbooks mapped present unused
      refine ⟨?_, Nat.le_trans List.length_erase_le h.size, ?_⟩
      · exact (List.erase_sublist.map Prod.fst).nodup h.keys
      · intro j hj
        have hj : j ∈ s.pins (l :: others) := hj
        obtain ⟨⟨k, j⟩, hx, rfl⟩ := List.mem_map.mp (h.pinned j hj)
        refine List.mem_map_of_mem ((List.mem_erase_of_ne ?_).mpr hx)
        rintro heq
        cases heq
        exact hunpinned hj
  | @find i free mapped isFound =>
      refine h.shrink rfl fun j hj => ?_
      have hi : i ∈ s.entries.map Prod.snd := List.mem_map_of_mem mapped
      simp only [InstanceState.pins, List.flatMap_cons, Locals.pins, free, List.mem_append,
        Option.toList_some, Option.toList_none, List.mem_singleton, List.not_mem_nil,
        false_or] at hj ⊢
      rcases hj with hj | (rfl | hj) | hj
      · exact .inl (.inl hj)
      · exact .inr hi
      · exact .inl (.inr (.inl hj))
      · exact .inl (.inr (.inr hj))
  | @dropEntry i has =>
      obtain ⟨hentries, hcopies⟩ := dropRef_entries s i
      refine h.shrink hentries fun j hj => .inl ?_
      simp only [InstanceState.pins, hcopies] at hj ⊢
      exact hj
  | @dropBuf i has =>
      obtain ⟨hentries, hcopies⟩ := dropRef_entries s i
      refine h.shrink hentries fun j hj => .inl ?_
      simp only [InstanceState.pins, List.flatMap_cons, Locals.pins, hcopies, List.mem_append,
        Option.toList_none, List.not_mem_nil, false_or] at hj ⊢
      tauto
  | @add copy buf event slot has =>
      refine h.shrink rfl fun j hj => .inl ?_
      simp only [InstanceState.pins, InstanceState.addCopy, List.map_append, List.map_cons,
        List.map_nil, List.flatMap_cons, Locals.pins, buf, List.mem_append, List.mem_singleton,
        Option.toList_some] at hj ⊢
      tauto
  | @release entry answers r t free released =>
      obtain ⟨hperm, -, rfl⟩ := release_spec released
      refine h.shrink rfl fun j hj => .inl ?_
      have hsplit := (hperm.map Copy.entry).mem_iff (a := j)
      simp only [List.map_append, List.mem_append] at hsplit
      simp only [InstanceState.pins, List.flatMap_cons, Locals.pins, free, List.map_nil,
        List.mem_append, List.not_mem_nil, or_false, hsplit] at hj ⊢
      tauto
  | @dropOver copy rest has =>
      obtain ⟨hentries, hcopies⟩ := dropRef_entries (s.destroyEvent copy.done) copy.entry
      have hcopies : (s.dropCopy copy).copies = s.copies := hcopies
      refine h.shrink hentries fun j hj => .inl ?_
      simp only [InstanceState.pins, hcopies, List.flatMap_cons, Locals.pins, has, List.map_cons,
        List.mem_append, List.mem_cons] at hj ⊢
      tauto
  | _ => exact ⟨h.keys, h.size, h.pinned⟩

/-! ### What a call knows about its entry -/

/-- An entry in the map was there before, or is the one that the call built. -/
theorem LocalMove.entries_from (h : LocalMove lose good c s l l' t) :
    ∀ x ∈ t.entries, x ∈ s.entries ∨
      ∃ i, l.entry = some i ∧ x = (c.op.devPtr, i) ∧ (c.id, x) ∈ t.inserted := by
  intro x hx
  cases h with
  | @insert i has room =>
      rcases List.mem_cons.mp hx with rfl | hx
      · exact .inr ⟨i, has, rfl, List.mem_cons_self⟩
      · exact .inl hx
  | remove free mapped present unused => exact .inl (List.mem_of_mem_erase hx)
  | dropEntry has => exact .inl ((dropRef_entries s _).1 ▸ hx)
  | dropBuf has => exact .inl ((dropRef_entries s _).1 ▸ hx)
  | @dropOver copy rest has =>
      exact .inl ((dropRef_entries (s.destroyEvent copy.done) copy.entry).1 ▸ hx)
  | release free released =>
      obtain ⟨-, -, rfl⟩ := release_spec released
      exact .inl hx
  | _ => exact .inl hx

/-- The entry that a call owns was its own before, or is new, or was in the map. -/
theorem LocalMove.entry_from {i : Nat} (h : LocalMove lose good c s l l' t)
    (hi : l'.entry = some i) : l.entry = some i ∨ i = s.next ∨ (c.op.devPtr, i) ∈ s.entries := by
  cases h with
  | build mr hostBuf free isGood keyed unmarked => exact .inr (.inl (Option.some.inj hi).symm)
  | remove free mapped present unused => exact .inr (.inr (Option.some.inj hi ▸ mapped))
  | insert has room => cases hi
  | dropEntry has => cases hi
  | _ => exact .inl hi

/-- The entry that a call uses was its own before, or it has just found it. -/
theorem LocalMove.buf_from {i : Nat} (h : LocalMove lose good c s l l' t)
    (hi : l'.buf = some i) :
    l.buf = some i ∨ (c.op.devPtr, i) ∈ s.entries ∧ l.buf = none ∧ c.found = s.entryAt i := by
  cases h with
  | find free mapped isFound =>
      cases hi
      exact .inr ⟨mapped, free, isFound⟩
  | dropBuf has => cases hi
  | _ => exact .inl hi

/-- What holds of the map and the calls that use it. -/
structure MapOk (s : InstanceState) : Prop where
  books : MapBooks s s.locals
  keyed : ∀ x ∈ s.entries, ∃ e, s.entryAt x.2 = some e ∧ e.key = x.1
  owned : ∀ c ∈ s.calls, ∀ i, c.pc.locals.entry = some i →
    ∃ e, s.entryAt i = some e ∧ e.key = c.op.devPtr
  found : ∀ c ∈ s.calls, ∀ i, c.pc.locals.buf = some i → s.entryAt i = c.found

theorem mem_refs_of_call {i : Nat} (hc : c ∈ s.calls) (hi : i ∈ c.pc.locals.refs) :
    i ∈ s.refs s.locals := by
  simp only [InstanceState.refs, List.mem_append, List.mem_flatMap]
  exact .inr ⟨c.pc.locals, List.mem_map_of_mem hc, hi⟩

theorem MapOk.step (h : MapOk s) (hs : Owned s) (hc : c ∈ s.calls)
    (hmoves : Moves lose good s c (c', u)) : MapOk { u with calls := c' :: s.calls.erase c } := by
  set others := (s.calls.erase c).map fun d => d.pc.locals with hothers
  have hbefore : Books s (c.pc.locals :: others) := hs.books.congr (locals_perm hc).symm
  have hmap : MapBooks s (c.pc.locals :: others) := by
    refine ⟨h.books.keys, h.books.size, fun i hi => h.books.pinned i ?_⟩
    rw [InstanceState.pins, ((locals_perm hc).flatMap_right Locals.pins).append_left _ |>.mem_iff]
    exact hi
  -- Whatever is referred to before and after the step is the same entry.
  have hsame : ∀ i, i ∈ s.refs (c.pc.locals :: others) → i ∈ u.refs (c'.pc.locals :: others) →
      u.entryAt i = s.entryAt i := fun i => entryAt_move hbefore hmoves.move
  have hother : ∀ d ∈ s.calls.erase c, ∀ i ∈ d.pc.locals.refs, u.entryAt i = s.entryAt i := by
    intro d hd i hi
    have hmem : i ∈ others.flatMap Locals.refs :=
      List.mem_flatMap.mpr ⟨d.pc.locals, List.mem_map_of_mem hd, hi⟩
    exact hsame i (by simp [InstanceState.refs, hmem]) (by simp [InstanceState.refs, hmem])
  have hop : c'.op.devPtr = c.op.devPtr := by rw [hmoves.op]
  refine ⟨?_, ?_, ?_, ?_⟩
  · have hmoved := hmap.move hbefore hmoves.move
    exact ⟨hmoved.keys, hmoved.size, hmoved.pinned⟩
  · intro x hx
    have hx : x ∈ u.entries := hx
    have hafter : x.2 ∈ u.refs (c'.pc.locals :: others) := mem_refs_of_mem_entries _ hx
    obtain hold | ⟨i, hi, rfl, -⟩ := hmoves.move.entries_from x hx
    · obtain ⟨e, he, hkey⟩ := h.keyed x hold
      exact ⟨e, (hsame _ (mem_refs_of_mem_entries _ hold) hafter).trans he, hkey⟩
    · obtain ⟨e, he, hkey⟩ := h.owned c hc i hi
      exact ⟨e, (hsame _ (mem_refs_of_entry hi) hafter).trans he, hkey.trans hop.symm⟩
  · intro d hd i hi
    rcases List.mem_cons.mp hd with rfl | hd
    · have hafter : i ∈ u.refs (d.pc.locals :: others) := mem_refs_of_entry hi
      obtain hold | rfl | hmapped := hmoves.move.entry_from hi
      · obtain ⟨e, he, hkey⟩ := h.owned c hc i hold
        exact ⟨e, (hsame _ (mem_refs_of_entry hold) hafter).trans he, hkey.trans hop.symm⟩
      · -- The new entry is the only one with a new identifier.
        obtain ⟨cell, hcell, hid, hlookup⟩ :=
          (hbefore.move hmoves.move).counted.exists_lookup hafter
        obtain ⟨e, he, heid, -⟩ | ⟨-, -, -, hkey, -⟩ := hmoves.move.heap_from cell hcell
        · have := hbefore.fresh e.id (by simp [InstanceState.ids, hbefore.counted.referred e he])
          omega
        · exact ⟨cell.value, congrArg (Option.map Cell.value) hlookup, hkey⟩
      · obtain ⟨e, he, hkey⟩ := h.keyed _ hmapped
        exact ⟨e, (hsame i (mem_refs_of_mem_entries _ hmapped) hafter).trans he, hkey⟩
    · obtain ⟨e, he, hkey⟩ := h.owned d (List.mem_of_mem_erase hd) i hi
      exact ⟨e, (hother d hd i (by simp [Locals.refs, hi])).trans he, hkey⟩
  · intro d hd i hi
    rcases List.mem_cons.mp hd with rfl | hd
    · have hafter : i ∈ u.refs (d.pc.locals :: others) := by
        simp [InstanceState.refs, Locals.refs, hi]
      obtain hold | ⟨hmapped, -, hfound⟩ := hmoves.move.buf_from hi
      · have hkept : d.found = c.found := by
          refine hmoves.found.resolve_right fun hfind => ?_
          rw [hfind] at hold
          cases hold
        rw [hkept, ← h.found c hc i hold]
        exact hsame i (by simp [InstanceState.refs, Locals.refs, hold]) hafter
      · exact (hsame i (mem_refs_of_mem_entries _ hmapped) hafter).trans hfound.symm
    · rw [← h.found d (List.mem_of_mem_erase hd) i hi]
      exact hother d hd i (by simp [Locals.refs, hi])

/-- The step lemma. -/
theorem MapOk.move (h : MapOk s) (hs : Owned s) (hmove : InstanceMove setup lose good s t) :
    MapOk t := by
  cases hmove with
  | begin current =>
      refine ⟨⟨h.books.keys, h.books.size, h.books.pinned⟩, h.keyed, ?_, ?_⟩
      · intro d hd i hi
        rcases List.mem_cons.mp hd with rfl | hd
        · cases hi
        · exact h.owned d hd i hi
      · intro d hd i hi
        rcases List.mem_cons.mp hd with rfl | hd
        · cases hi
        · exact h.found d hd i hi
  | step mem stepped moves => exact h.step hs mem moves
  | @ret c result mem pc =>
      refine ⟨⟨h.books.keys, h.books.size, ?_⟩, h.keyed,
        fun d hd => h.owned d (List.mem_of_mem_erase hd),
        fun d hd => h.found d (List.mem_of_mem_erase hd)⟩
      intro i hi
      refine h.books.pinned i ?_
      have hpins :=
        ((locals_perm mem).flatMap_right Locals.pins).append_left (s.copies.map Copy.entry)
      rw [InstanceState.pins, hpins.mem_iff]
      rw [pc]
      exact hi
  | finishCopy started => exact ⟨⟨h.books.keys, h.books.size, h.books.pinned⟩, h.keyed, h.owned,
      h.found⟩
  | shutdown => exact ⟨⟨h.books.keys, h.books.size, h.books.pinned⟩, h.keyed, h.owned, h.found⟩
  | destroy retired alive idle all truthful =>
      have hmove : InstanceMove setup lose good s _ := .destroy retired alive idle all truthful
      obtain ⟨-, hcalls, hentries, hcopies, -⟩ := (hs.move hmove).ended rfl
      refine ⟨⟨?_, ?_, ?_⟩, ?_, ?_, ?_⟩
      · rw [hentries]
        exact .nil
      · rw [hentries]
        exact Nat.zero_le _
      · simp [InstanceState.pins, InstanceState.locals, hcopies, hcalls]
      · simp [hentries]
      · simp [hcalls]
      · simp [hcalls]

theorem mapOk_of_reachable (h : (instanceMachine setup).Reachable s) : MapOk s := by
  refine Machine.Reachable.invariant ?_ ?_ h
  · rintro s rfl
    refine ⟨⟨.nil, Nat.zero_le _, ?_⟩, ?_, ?_, ?_⟩
    all_goals simp [InstanceState.initial, InstanceState.pins, InstanceState.locals]
  · intro s a t hreached hs hstep
    exact hs.move (owned_of_reachable hreached) (instanceStep_anyMove hstep)

end HipObject
