import HipObject.Verification.Machine
import Mathlib.Algebra.BigOperators.Group.Finset.Basic
import Mathlib.Algebra.Order.BigOperators.Group.Finset

/-!
# Runs that come to an end

What is left to do is measured by a number. If some step that lowers it can be
taken wherever the goal has not been reached, the goal can be reached; if no
step raises it, a run has only so many steps that lower it, however they are
mixed with others.

`total` is the measure of a finite set of parties, each with its own share.
-/

namespace HipObject.Verification

namespace Machine

variable {σ α : Type*} {M : Machine σ α}

/-- A goal is reached if a step that lowers the measure is possible until then. -/
theorem exists_exec_of_progress {I goal : σ → Prop} {may : α → Prop} (left : σ → Nat)
    (progress : ∀ s, I s → ¬ goal s →
      ∃ a t, may a ∧ M.step s a = some t ∧ I t ∧ left t < left s) {s : σ} (hs : I s) :
    ∃ actions t, (∀ a ∈ actions, may a) ∧ M.exec s actions = some t ∧ goal t := by
  induction hleft : left s using Nat.strong_induction_on generalizing s with
  | _ n ih =>
      by_cases hgoal : goal s
      · exact ⟨[], s, by simp, rfl, hgoal⟩
      · obtain ⟨a, t, ha, hstep, ht, hless⟩ := progress s hs hgoal
        obtain ⟨actions, u, hactions, hexec, hu⟩ := ih (left t) (hleft ▸ hless) ht rfl
        refine ⟨a :: actions, u, ?_, ?_, hu⟩
        · intro b hb
          rcases List.mem_cons.mp hb with rfl | hb
          · exact ha
          · exact hactions b hb
        · rw [exec, hstep]
          exact hexec

/-- How many steps of a run are such as `p` says. -/
def countSteps (M : Machine σ α) (p : σ → α → Bool) (s : σ) : List α → Nat
  | [] => 0
  | a :: rest => (p s a).toNat + (M.step s a).elim 0 fun t => M.countSteps p t rest

/-- A run has no more steps that lower the measure than the measure says. -/
theorem countSteps_add_le {p : σ → α → Bool} {may : α → Prop} {left : σ → Nat}
    (lower : ∀ s a t, may a → M.step s a = some t → (p s a).toNat + left t ≤ left s) {s t : σ}
    {actions : List α} (hmay : ∀ a ∈ actions, may a) (hrun : M.exec s actions = some t) :
    M.countSteps p s actions + left t ≤ left s := by
  induction actions generalizing s with
  | nil =>
      cases hrun
      simp [countSteps]
  | cons a rest ih =>
      obtain ⟨middle, hstep, hrest⟩ := Option.bind_eq_some_iff.mp hrun
      have hfirst := lower s a middle (hmay a (by simp)) hstep
      have hlater := ih (fun b hb => hmay b (by simp [hb])) hrest
      rw [countSteps, hstep, Option.elim_some]
      omega

end Machine

/-! ### Shares -/

variable {ι α : Type*} [Fintype ι]

/-- What the parties have to do together. -/
def total (w : α → Nat) (f : ι → α) : Nat := ∑ i, w (f i)

/-- One party's share changes. -/
theorem total_update [DecidableEq ι] (w : α → Nat) (f : ι → α) (i : ι) (a : α) :
    total w (Function.update f i a) + w (f i) = total w f + w a := by
  have hrest : ∑ j ∈ Finset.univ.erase i, w (Function.update f i a j) =
      ∑ j ∈ Finset.univ.erase i, w (f j) := by
    apply Finset.sum_congr rfl
    intro j hj
    rw [Function.update_of_ne (Finset.ne_of_mem_erase hj)]
  have hnew := Finset.add_sum_erase Finset.univ (fun j => w (Function.update f i a j))
    (Finset.mem_univ i)
  have hold := Finset.add_sum_erase Finset.univ (fun j => w (f j)) (Finset.mem_univ i)
  simp only [hrest, Function.update_self] at hnew
  rw [total, total]
  omega

/-- No share grows by more than one. -/
theorem total_le_add_card {w : α → Nat} {f g : ι → α} (h : ∀ i, w (g i) ≤ w (f i) + 1) :
    total w g ≤ total w f + Fintype.card ι := by
  calc total w g ≤ ∑ i, (w (f i) + 1) := Finset.sum_le_sum fun i _ => h i
    _ = total w f + Fintype.card ι := by rw [Finset.sum_add_distrib, total]; simp

end HipObject.Verification
