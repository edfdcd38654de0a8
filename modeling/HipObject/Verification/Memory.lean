import Mathlib.Logic.Function.Basic
import Mathlib.Data.List.Basic

/-!
# Memory under stores and moves

A memory gives every address its content. It changes by stores, and by a copy
that moves its items one at a time in any order. Both are kept as lists with the
latest first, so a partial copy is a list like any other.

`stored_lookup` and `moved_dst` say what is found where something went, and
`stored_of_not_mem` and `moved_of_ne` that nothing else changed.
-/

namespace HipObject.Verification

variable {α β : Type*} [DecidableEq α] {m : α → β} {a : α} {b : β}

/-! ### Stores -/

/-- A memory after some stores. -/
def stored (m : α → β) : List (α × β) → α → β
  | [] => m
  | (a, b) :: earlier => Function.update (stored m earlier) a b

/-- What was stored last at an address. -/
def lastStore (stores : List (α × β)) (a : α) : Option β :=
  (stores.find? fun w => w.1 = a).map Prod.snd

theorem stored_lookup {stores : List (α × β)} (h : lastStore stores a = some b) :
    stored m stores a = b := by
  induction stores with
  | nil => cases h
  | cons w earlier ih =>
      obtain ⟨a', b'⟩ := w
      by_cases haddr : a' = a
      · subst haddr
        simp only [lastStore, List.find?_cons, decide_true, Option.map_some,
          Option.some.injEq] at h
        rw [stored, Function.update_self, h]
      · rw [stored, Function.update_of_ne (Ne.symm haddr)]
        refine ih ?_
        simpa only [lastStore, List.find?_cons, haddr, decide_false] using h

theorem stored_of_not_mem {stores : List (α × β)} (h : ∀ w ∈ stores, w.1 ≠ a) :
    stored m stores a = m a := by
  induction stores with
  | nil => rfl
  | cons w earlier ih =>
      rw [stored, Function.update_of_ne (h w (by simp)).symm]
      exact ih fun w hw => h w (by simp [hw])

/-! ### Copies -/

section Copy

variable {dst src : Nat → α} {moves : List Nat}

/-- A memory after some items of a copy have been moved. -/
def moved (dst src : Nat → α) (m : α → β) : List Nat → α → β
  | [] => m
  | i :: earlier =>
      Function.update (moved dst src m earlier) (dst i) (moved dst src m earlier (src i))

theorem moved_of_ne (h : ∀ i ∈ moves, dst i ≠ a) : moved dst src m moves a = m a := by
  induction moves with
  | nil => rfl
  | cons i earlier ih =>
      rw [moved, Function.update_of_ne (h i (by simp)).symm]
      exact ih fun i hi => h i (by simp [hi])

/-- An item that was moved is the one that was at the source, if nothing is moved
to the source or twice to one place. -/
theorem moved_dst {i : Nat} (hi : i ∈ moves) (hsrc : ∀ j ∈ moves, dst j ≠ src i)
    (hdst : ∀ j ∈ moves, dst j = dst i → j = i) : moved dst src m moves (dst i) = m (src i) := by
  induction moves with
  | nil => cases hi
  | cons j earlier ih =>
      have hearlier : ∀ k ∈ earlier, dst k ≠ src i := fun k hk => hsrc k (by simp [hk])
      rw [moved]
      by_cases hsame : j = i
      · subst hsame
        rw [Function.update_self]
        exact moved_of_ne hearlier
      · have hother : dst i ≠ dst j := fun heq => hsame (hdst j (by simp) heq.symm)
        rw [Function.update_of_ne hother]
        refine ih ?_ hearlier fun k hk => hdst k (by simp [hk])
        exact (List.mem_cons.mp hi).resolve_left (Ne.symm hsame)

end Copy

end HipObject.Verification
