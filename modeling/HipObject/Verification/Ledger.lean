import Mathlib.Data.List.Perm.Basic
import Mathlib.Data.List.Nodup

/-!
# Books of what was made, undone and owned

Resources are made and undone; between the two somebody owns them. `Balanced`
says that each one made is either undone or owned, and only one of these, and
only once. It is kept by making something for an owner, by undoing what an owner
has, and by handing it from one owner to another.
-/

namespace HipObject.Verification

variable {α : Type*}

structure Balanced (made undone owned : List α) : Prop where
  nodup : made.Nodup
  perm : made.Perm (undone ++ owned)

namespace Balanced

variable {made undone undone' owned owned' : List α} {a : α}

theorem nil : Balanced ([] : List α) [] [] := ⟨.nil, .refl _⟩

theorem gain (h : Balanced made undone owned) (hfresh : a ∉ made) :
    Balanced (a :: made) undone (a :: owned) where
  nodup := List.nodup_cons.mpr ⟨hfresh, h.nodup⟩
  perm := (h.perm.cons a).trans List.perm_middle.symm

/-- Undoing some of what is owned. -/
theorem lose (h : Balanced made undone owned) (items : List α)
    (howned : owned.Perm (items ++ owned')) : Balanced made (items ++ undone) owned' where
  nodup := h.nodup
  perm := by
    refine (h.perm.trans (howned.append_left undone)).trans ?_
    rw [← List.append_assoc]
    exact List.perm_append_comm.append_right owned'

theorem congr_undone (h : Balanced made undone owned) (hundone : undone.Perm undone') :
    Balanced made undone' owned where
  nodup := h.nodup
  perm := h.perm.trans (hundone.append_right owned)

theorem congr (h : Balanced made undone owned) (howned : owned.Perm owned') :
    Balanced made undone owned' where
  nodup := h.nodup
  perm := h.perm.trans (howned.append_left undone)

theorem mem_made (h : Balanced made undone owned) (ha : a ∈ owned) : a ∈ made :=
  h.perm.mem_iff.mpr (by simp [ha])

/-- What is owned has not been undone. -/
theorem not_mem_undone (h : Balanced made undone owned) (ha : a ∈ owned) : a ∉ undone := by
  have hnodup := h.perm.nodup_iff.mp h.nodup
  exact fun hundone => List.disjoint_of_nodup_append hnodup hundone ha

/-- What was made and not undone is what is owned. -/
theorem live_iff (h : Balanced made undone owned) : a ∈ made ∧ a ∉ undone ↔ a ∈ owned := by
  constructor
  · rintro ⟨hmade, hundone⟩
    exact (List.mem_append.mp (h.perm.mem_iff.mp hmade)).resolve_left hundone
  · exact fun ha => ⟨h.mem_made ha, h.not_mem_undone ha⟩

theorem nodup_undone (h : Balanced made undone owned) : undone.Nodup :=
  (List.nodup_append.mp (h.perm.nodup_iff.mp h.nodup)).1

end Balanced
end HipObject.Verification
