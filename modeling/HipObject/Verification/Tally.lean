import Mathlib.Data.Fintype.Card

/-!
# Counting parties by what they are doing

A finite set of parties, each with a status, is a function from parties to
statuses; `tally p f` counts the parties whose status satisfies `p`. When one
party changes its status, the count loses what the old status contributed and
gains what the new one does. This is the only fact about finite sums that a
proof about one step needs, so it is stated once here, in a form that linear
arithmetic can use.
-/

namespace HipObject.Verification

variable {ι α : Type*} [Fintype ι] [DecidableEq ι]

/-- How many parties have a status that satisfies `p`. -/
def tally (p : α → Bool) (f : ι → α) : Nat := (Finset.univ.filter fun i => p (f i) = true).card

omit [DecidableEq ι] in
theorem tally_pos_iff {p : α → Bool} {f : ι → α} : 0 < tally p f ↔ ∃ i, p (f i) = true := by
  simp [tally, Finset.card_pos, Finset.Nonempty]

omit [DecidableEq ι] in
theorem tally_eq_zero_iff {p : α → Bool} {f : ι → α} :
    tally p f = 0 ↔ ∀ i, p (f i) = false := by
  have h := tally_pos_iff (p := p) (f := f)
  rw [Nat.pos_iff_ne_zero] at h
  constructor
  · intro hzero i
    by_contra hi
    exact (h.mpr ⟨i, by simpa using hi⟩) hzero
  · intro hall
    by_contra hne
    obtain ⟨i, hi⟩ := h.mp hne
    rw [hall i] at hi
    cases hi

omit [DecidableEq ι] in
theorem tally_congr {p : α → Bool} {f g : ι → α} (h : ∀ i, p (f i) = p (g i)) :
    tally p f = tally p g := by
  simp only [tally, h]

/-- A change of one party's status, as an equation without subtraction. -/
theorem tally_update (p : α → Bool) (f : ι → α) (i : ι) (a : α) :
    tally p (Function.update f i a) + (p (f i)).toNat = tally p f + (p a).toNat := by
  have hsplit : ∀ g : ι → α, tally p g =
      ((Finset.univ.erase i).filter fun j => p (g j) = true).card + (p (g i)).toNat := by
    intro g
    rw [tally, ← Finset.insert_erase (Finset.mem_univ i), Finset.filter_insert]
    cases hi : p (g i) with
    | false => simp
    | true => simp
  have hrest : ((Finset.univ.erase i).filter fun j => p (Function.update f i a j) = true) =
      (Finset.univ.erase i).filter fun j => p (f j) = true := by
    apply Finset.filter_congr
    intro j hj
    rw [Function.update_of_ne (Finset.ne_of_mem_erase hj)]
  rw [hsplit (Function.update f i a), hsplit f, hrest, Function.update_self]
  omega

end HipObject.Verification
