import Mathlib.Data.List.Count
import Mathlib.Data.List.Perm.Basic
import Mathlib.Data.List.Nodup

/-!
# Reference-counted cells

A heap of cells with use counts, as behind `std::shared_ptr`: a new cell has one
reference, `retain` adds one, and `release` takes one away and gives up the value
with the last. References are the identifiers of cells, kept by whoever holds
them. `Counted heap refs` says that the counts are those of the references in
`refs`, and each operation keeps it as the references change.
-/

namespace HipObject.Verification

/-- A value with its identifier and use count. -/
structure Cell (α : Type*) where
  id : Nat
  useCount : Nat
  value : α
  deriving DecidableEq

namespace Cell

variable {α : Type*} [DecidableEq α]

/-- The cell a reference refers to. -/
def lookup (heap : List (Cell α)) (i : Nat) : Option (Cell α) := heap.find? fun c => c.id = i

/-- The heap with one cell changed into another. -/
def replace (heap : List (Cell α)) (c c' : Cell α) : List (Cell α) := c' :: heap.erase c

/-- Makes one more reference to a cell. -/
def retain (heap : List (Cell α)) (i : Nat) : List (Cell α) :=
  match lookup heap i with
  | none => heap
  | some c => replace heap c { c with useCount := c.useCount + 1 }

/-- Takes one reference away, and with the last one the cell, whose value is
returned. -/
def release (heap : List (Cell α)) (i : Nat) : List (Cell α) × Option α :=
  match lookup heap i with
  | none => (heap, none)
  | some c =>
      if c.useCount ≤ 1 then (heap.erase c, some c.value)
      else (replace heap c { c with useCount := c.useCount - 1 }, none)

/-- Changes the value of a cell in place. -/
def modify (heap : List (Cell α)) (i : Nat) (f : α → α) : List (Cell α) :=
  match lookup heap i with
  | none => heap
  | some c => replace heap c { c with value := f c.value }

omit [DecidableEq α] in
theorem lookup_some {heap : List (Cell α)} {i : Nat} {c : Cell α}
    (h : lookup heap i = some c) : c ∈ heap ∧ c.id = i := by
  refine ⟨List.mem_of_find?_eq_some h, ?_⟩
  simpa using List.find?_some h

theorem perm_replace {heap : List (Cell α)} {c c' : Cell α} (hc : c ∈ heap) {β : Type*}
    {f : Cell α → β} (hf : f c' = f c) : ((replace heap c c').map f).Perm (heap.map f) := by
  rw [replace, List.map_cons, hf]
  exact ((List.perm_cons_erase hc).map f).symm

/-! ### Counts -/

/-- The heap has exactly the cells that something refers to, with the number of
references as their use counts. -/
structure Counted (heap : List (Cell α)) (refs : List Nat) : Prop where
  nodup : (heap.map Cell.id).Nodup
  useCount : ∀ c ∈ heap, c.useCount = refs.count c.id
  referred : ∀ c ∈ heap, c.id ∈ refs
  present : ∀ i ∈ refs, ∃ c ∈ heap, c.id = i

namespace Counted

variable {heap : List (Cell α)} {refs refs' : List Nat} {i : Nat} {a : α}

omit [DecidableEq α] in
theorem congr (h : Counted heap refs) (hrefs : refs'.Perm refs) : Counted heap refs' where
  nodup := h.nodup
  useCount := fun c hc => by rw [h.useCount c hc, hrefs.count_eq]
  referred := fun c hc => hrefs.mem_iff.mpr (h.referred c hc)
  present := fun i hi => h.present i (hrefs.mem_iff.mp hi)

omit [DecidableEq α] in
/-- Two cells with one identifier are one cell. -/
theorem eq_of_id_eq (h : Counted heap refs) {c d : Cell α} (hc : c ∈ heap) (hd : d ∈ heap)
    (hid : c.id = d.id) : c = d :=
  List.inj_on_of_nodup_map h.nodup hc hd hid

omit [DecidableEq α] in
theorem lookup_eq (h : Counted heap refs) {c : Cell α} (hc : c ∈ heap) :
    lookup heap c.id = some c := by
  cases hfind : lookup heap c.id with
  | none =>
      have := List.find?_eq_none.mp hfind c hc
      simp at this
  | some d =>
      obtain ⟨hd, hid⟩ := lookup_some hfind
      rw [h.eq_of_id_eq hd hc hid]

omit [DecidableEq α] in
theorem exists_lookup (h : Counted heap refs) (hi : i ∈ refs) :
    ∃ c ∈ heap, c.id = i ∧ lookup heap i = some c := by
  obtain ⟨c, hc, hid⟩ := h.present i hi
  exact ⟨c, hc, hid, hid ▸ h.lookup_eq hc⟩

/-- The cells besides a given one have other identifiers. -/
theorem id_ne_of_mem_erase (h : Counted heap refs) {c d : Cell α} (hc : c ∈ heap)
    (hd : d ∈ heap.erase c) : d.id ≠ c.id := by
  have hperm := (List.perm_cons_erase hc).map Cell.id
  have hnodup := hperm.nodup_iff.mp h.nodup
  rw [List.map_cons, List.nodup_cons] at hnodup
  intro heq
  exact hnodup.1 (heq ▸ List.mem_map_of_mem hd)

omit [DecidableEq α] in
theorem alloc (h : Counted heap refs) (hfresh : i ∉ refs) :
    Counted (⟨i, 1, a⟩ :: heap) (i :: refs) := by
  have hnew : ∀ c ∈ heap, c.id ≠ i := fun c hc hid => hfresh (hid ▸ h.referred c hc)
  refine ⟨?_, ?_, ?_, ?_⟩
  · rw [List.map_cons, List.nodup_cons]
    refine ⟨?_, h.nodup⟩
    intro hmem
    obtain ⟨c, hc, hid⟩ := List.mem_map.mp hmem
    exact hnew c hc hid
  · intro c hc
    rcases List.mem_cons.mp hc with rfl | hc
    · simp [List.count_eq_zero_of_not_mem hfresh]
    · rw [List.count_cons_of_ne (hnew c hc).symm]
      exact h.useCount c hc
  · intro c hc
    rcases List.mem_cons.mp hc with rfl | hc
    · simp
    · simp [h.referred c hc]
  · intro j hj
    rcases List.mem_cons.mp hj with rfl | hj
    · exact ⟨⟨j, 1, a⟩, by simp, rfl⟩
    · obtain ⟨c, hc, hid⟩ := h.present j hj
      exact ⟨c, by simp [hc], hid⟩

/-- A cell that is replaced keeps its identifier, and gets the count that the
new references give it. -/
theorem replace (h : Counted heap refs) {c c' : Cell α} (hc : c ∈ heap) (hid : c'.id = c.id)
    (hcount : c'.useCount = refs'.count c.id) (hmem : c.id ∈ refs')
    (hothers : ∀ j, j ≠ c.id → refs'.count j = refs.count j) :
    Counted (Cell.replace heap c c') refs' := by
  have hmem_iff : ∀ j, j ≠ c.id → (j ∈ refs' ↔ j ∈ refs) := by
    intro j hj
    rw [← List.count_pos_iff, ← List.count_pos_iff, hothers j hj]
  refine ⟨?_, ?_, ?_, ?_⟩
  · exact (perm_replace hc hid).nodup_iff.mpr h.nodup
  · intro d hd
    rcases List.mem_cons.mp hd with rfl | hd
    · rw [hcount, hid]
    · rw [hothers _ (h.id_ne_of_mem_erase hc hd)]
      exact h.useCount d (List.mem_of_mem_erase hd)
  · intro d hd
    rcases List.mem_cons.mp hd with rfl | hd
    · rw [hid]
      exact hmem
    · exact (hmem_iff _ (h.id_ne_of_mem_erase hc hd)).mpr (h.referred d (List.mem_of_mem_erase hd))
  · intro j hj
    by_cases hjc : j = c.id
    · exact ⟨c', by simp [Cell.replace], hid.trans hjc.symm⟩
    · obtain ⟨d, hd, hdj⟩ := h.present j ((hmem_iff j hjc).mp hj)
      refine ⟨d, ?_, hdj⟩
      refine List.mem_cons_of_mem _ ((List.mem_erase_of_ne ?_).mpr hd)
      rintro rfl
      exact hjc hdj.symm

theorem retain (h : Counted heap refs) (hi : i ∈ refs) :
    Counted (Cell.retain heap i) (i :: refs) := by
  obtain ⟨c, hc, rfl, hlookup⟩ := h.exists_lookup hi
  rw [Cell.retain, hlookup]
  refine h.replace hc rfl ?_ (by simp) ?_
  · simp [h.useCount c hc]
  · intro j hj
    exact List.count_cons_of_ne hj.symm

theorem modify (h : Counted heap refs) (i : Nat) (f : α → α) :
    Counted (Cell.modify heap i f) refs := by
  unfold Cell.modify
  split
  · exact h
  · rename_i c hlookup
    obtain ⟨hc, rfl⟩ := lookup_some hlookup
    exact h.replace hc rfl (h.useCount c hc) (h.referred c hc) fun _ _ => rfl

/-- Releasing a reference leaves the others, and gives the value up exactly when
there are none. -/
theorem release (h : Counted heap refs) (hrefs : refs.Perm (i :: refs')) :
    Counted (Cell.release heap i).1 refs' := by
  have h' := h.congr hrefs.symm
  obtain ⟨c, hc, rfl, hlookup⟩ := h'.exists_lookup (i := i) (by simp)
  have hcount := h'.useCount c hc
  rw [List.count_cons_self] at hcount
  rw [Cell.release, hlookup]
  dsimp only
  split
  · rename_i hlast
    have hgone : c.id ∉ refs' := by
      rw [← List.count_eq_zero]
      omega
    refine ⟨?_, ?_, ?_, ?_⟩
    · exact (List.erase_sublist.map Cell.id).nodup h'.nodup
    · intro d hd
      have := h'.useCount d (List.mem_of_mem_erase hd)
      rwa [List.count_cons_of_ne (h'.id_ne_of_mem_erase hc hd).symm] at this
    · intro d hd
      have := h'.referred d (List.mem_of_mem_erase hd)
      exact (List.mem_cons.mp this).resolve_left (h'.id_ne_of_mem_erase hc hd)
    · intro j hj
      obtain ⟨d, hd, hdj⟩ := h'.present j (by simp [hj])
      refine ⟨d, (List.mem_erase_of_ne ?_).mpr hd, hdj⟩
      rintro rfl
      exact hgone (hdj ▸ hj)
  · rename_i hmore
    refine h'.replace hc rfl ?_ ?_ ?_
    · dsimp only
      omega
    · rw [← List.count_pos_iff]
      omega
    · intro j hj
      exact (List.count_cons_of_ne hj.symm).symm

omit [DecidableEq α] in
theorem nil_of_no_refs (h : Counted heap []) : heap = [] := by
  cases heap with
  | nil => rfl
  | cons c rest => cases h.referred c (by simp)

end Counted

/-! ### Values -/

variable {heap : List (Cell α)} {i : Nat}

theorem perm_retain (heap : List (Cell α)) (i : Nat) :
    ((retain heap i).map value).Perm (heap.map value) := by
  unfold retain
  split
  · exact .refl _
  · rename_i c hlookup
    exact perm_replace (lookup_some hlookup).1 rfl

/-- A value is in the heap until it is given up. -/
theorem perm_release (heap : List (Cell α)) (i : Nat) :
    (heap.map value).Perm ((release heap i).2.toList ++ (release heap i).1.map value) := by
  unfold release
  split
  · simp
  · rename_i c hlookup
    have hc := (lookup_some hlookup).1
    split
    · exact (List.perm_cons_erase hc).map value
    · exact (perm_replace hc rfl).symm

/-- A cell either gives its value up or keeps it. -/
theorem mem_release {c : Cell α} (hc : c ∈ heap) : (release heap i).2 = some c.value ∨
    ∃ d ∈ (release heap i).1, d.id = c.id ∧ d.value = c.value := by
  unfold release
  split
  · exact .inr ⟨c, hc, rfl, rfl⟩
  · rename_i d hlookup
    by_cases hcd : c = d
    · subst hcd
      split
      · exact .inl rfl
      · exact .inr ⟨_, List.mem_cons_self, rfl, rfl⟩
    · have hrest : c ∈ heap.erase d := (List.mem_erase_of_ne hcd).mpr hc
      split
      · exact .inr ⟨c, hrest, rfl, rfl⟩
      · exact .inr ⟨c, List.mem_cons_of_mem _ hrest, rfl, rfl⟩

/-- Cells keep their identifiers and their values. -/
theorem of_mem_release {c : Cell α} (hc : c ∈ (release heap i).1) :
    ∃ d ∈ heap, d.id = c.id ∧ d.value = c.value := by
  unfold release at hc
  split at hc
  · exact ⟨c, hc, rfl, rfl⟩
  · rename_i d hlookup
    split at hc
    · exact ⟨c, List.mem_of_mem_erase hc, rfl, rfl⟩
    · rcases List.mem_cons.mp hc with rfl | hc
      · exact ⟨d, (lookup_some hlookup).1, rfl, rfl⟩
      · exact ⟨c, List.mem_of_mem_erase hc, rfl, rfl⟩

theorem of_mem_retain {c : Cell α} (hc : c ∈ retain heap i) :
    ∃ d ∈ heap, d.id = c.id ∧ d.value = c.value := by
  unfold retain at hc
  split at hc
  · exact ⟨c, hc, rfl, rfl⟩
  · rename_i d hlookup
    rcases List.mem_cons.mp hc with rfl | hc
    · exact ⟨d, (lookup_some hlookup).1, rfl, rfl⟩
    · exact ⟨c, List.mem_of_mem_erase hc, rfl, rfl⟩

/-- A change of one value changes the cell with that identifier and no other. -/
theorem of_mem_modify {refs : List Nat} (h : Counted heap refs) {f : α → α} {c : Cell α}
    (hc : c ∈ modify heap i f) :
    ∃ d ∈ heap, d.id = c.id ∧ c.value = if c.id = i then f d.value else d.value := by
  unfold modify at hc
  split at hc
  · rename_i hnone
    have hne : ¬ c.id = i := by simpa using List.find?_eq_none.mp hnone c hc
    exact ⟨c, hc, rfl, by rw [if_neg hne]⟩
  · rename_i d hlookup
    obtain ⟨hd, rfl⟩ := lookup_some hlookup
    rcases List.mem_cons.mp hc with rfl | hc
    · exact ⟨d, hd, rfl, by simp⟩
    · refine ⟨c, List.mem_of_mem_erase hc, rfl, ?_⟩
      rw [if_neg (h.id_ne_of_mem_erase hd hc)]

theorem perm_modify {β : Type*} {f : α → α} {g : α → β} (hg : ∀ a, g (f a) = g a) :
    (((modify heap i f).map value).map g).Perm ((heap.map value).map g) := by
  unfold modify
  split
  · exact .refl _
  · rename_i c hlookup
    rw [List.map_map, List.map_map]
    exact perm_replace (lookup_some hlookup).1 (hg c.value)

end Cell
end HipObject.Verification
