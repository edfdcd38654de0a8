import HipObject.Verification.Ensures

/-!
# Programs that try again

A loop with a bounded number of rounds, each of which either decides the result
or leaves one that stands if there is no further round. `Ensures.retry` reduces
the loop to one round: what holds before a round holds before the next one.
-/

namespace HipObject.Verification

variable {ε σ α : Type}

/-- How a round ends. -/
inductive Round (α : Type) where
  | done (a : α)
  | again (a : α)

/-- Up to `left` rounds, the next of which is number `i`. -/
def retry (round : Nat → EStateM ε σ (Round α)) : Nat → Nat → α → EStateM ε σ α
  | 0, _, a => pure a
  | left + 1, i, _ => do
      match ← round i with
      | .done a => return a
      | .again a => retry round left (i + 1) a

/-- What a round has to do: `Q` if it decides the result, and `I` if not. -/
def Round.Leaves (Q I : α → σ → Prop) : Round α → σ → Prop
  | .done a => Q a
  | .again a => I a

theorem Ensures.retry {round : Nat → EStateM ε σ (Round α)} {I Q : α → σ → Prop}
    {E : σ → Prop} (hround : ∀ i a s, I a s → Ensures (round i) s (Round.Leaves Q I) E)
    (hend : ∀ a s, I a s → Q a s) (left i : Nat) {a : α} {s : σ} (h : I a s) :
    Ensures (Verification.retry round left i a) s Q E := by
  induction left generalizing i a s with
  | zero => exact hend a s h
  | succ left ih =>
      rw [Verification.retry]
      refine Ensures.bind ((hround i a s h).mono ?_ fun _ h => h)
      intro r t hr
      cases r with
      | done a => exact hr
      | again a => exact ih (i + 1) hr

theorem Along.retry {R : σ → σ → Prop} (hR : Chains R) {round : Nat → EStateM ε σ (Round α)}
    (h : ∀ i, Along R (round i)) (left i : Nat) (a : α) :
    Along R (Verification.retry round left i a) := by
  induction left generalizing i a with
  | zero => exact Along.pure hR a
  | succ left ih =>
      rw [Verification.retry]
      refine Along.bind hR (h i) ?_
      intro r
      cases r with
      | done a => exact Along.pure hR a
      | again a => exact ih (i + 1) a

end HipObject.Verification
