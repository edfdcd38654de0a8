import Mathlib.Logic.Basic

/-!
# Postconditions for programs that can throw

`EStateM` keeps the state when an exception passes, which is how a C++ program
behaves: what was changed before the `throw` stays changed. `Ensures x s Q E`
says that `x` run from `s` either returns with a value and a state in `Q`, or
throws and leaves a state in `E`. The rules below take a program apart at its
binds, so that a caller needs the specification of what it calls and never its
body.
-/

namespace HipObject.Verification

variable {ε σ α β : Type}

/-- `x` from `s` returns inside `Q` or throws inside `E`. -/
def Ensures (x : EStateM ε σ α) (s : σ) (Q : α → σ → Prop) (E : σ → Prop) : Prop :=
  match x s with
  | .ok a t => Q a t
  | .error _ t => E t

namespace Ensures

variable {x : EStateM ε σ α} {f : α → EStateM ε σ β} {s : σ}
variable {Q Q' : α → σ → Prop} {R : β → σ → Prop} {E E' : σ → Prop}

theorem mono (h : Ensures x s Q E) (hQ : ∀ a t, Q a t → Q' a t) (hE : ∀ t, E t → E' t) :
    Ensures x s Q' E' := by
  unfold Ensures at *
  split
  · rename_i a t hx
    rw [hx] at h
    exact hQ a t h
  · rename_i e t hx
    rw [hx] at h
    exact hE t h

/-- Two things that hold of the same run. -/
theorem and (h : Ensures x s Q E) (h' : Ensures x s Q' E') :
    Ensures x s (fun a t => Q a t ∧ Q' a t) (fun t => E t ∧ E' t) := by
  unfold Ensures at *
  split
  · rename_i a t hx
    rw [hx] at h h'
    exact ⟨h, h'⟩
  · rename_i e t hx
    rw [hx] at h h'
    exact ⟨h, h'⟩

theorem of_forall (hQ : ∀ a t, Q a t) (hE : ∀ t, E t) : Ensures x s Q E := by
  unfold Ensures
  split
  · exact hQ _ _
  · exact hE _

theorem pure_iff {a : α} : Ensures (pure a : EStateM ε σ α) s Q E ↔ Q a s := Iff.rfl

/-- A program continues from whatever its first part can leave behind. -/
theorem bind (h : Ensures x s (fun a t => Ensures (f a) t R E) E) :
    Ensures (x >>= f) s R E := by
  unfold Ensures at h ⊢
  change match EStateM.bind x f s with
    | .ok a t => R a t
    | .error _ t => E t
  unfold EStateM.bind
  cases hx : x s with
  | ok a t =>
      rw [hx] at h
      exact h
  | error e t =>
      rw [hx] at h
      exact h

/-- A program whose first part is known to return. -/
theorem bind_ok {a : α} {t : σ} (hx : x s = .ok a t) (h : Ensures (f a) t R E) :
    Ensures (x >>= f) s R E := by
  apply bind
  unfold Ensures
  rw [hx]
  exact h

/-- A program whose first part is known to throw. -/
theorem bind_error {e : ε} {t : σ} (hx : x s = .error e t) (h : E t) :
    Ensures (x >>= f) s R E := by
  apply bind
  unfold Ensures
  rw [hx]
  exact h

theorem get_bind {f : σ → EStateM ε σ β} (h : Ensures (f s) s R E) :
    Ensures (get >>= f) s R E := bind h

theorem modify_bind {g : σ → σ} {f : PUnit → EStateM ε σ β}
    (h : Ensures (f ⟨⟩) (g s) R E) : Ensures (modify g >>= f) s R E := bind h

/-- A handler continues from what was left when the exception was thrown. -/
theorem tryCatch {handler : ε → EStateM ε σ α}
    (h : Ensures x s Q (fun t => ∀ e, Ensures (handler e) t Q E)) :
    Ensures (tryCatch x handler) s Q E := by
  unfold Ensures at h ⊢
  change match EStateM.tryCatch x handler s with
    | .ok a t => Q a t
    | .error _ t => E t
  unfold EStateM.tryCatch
  cases hx : x s with
  | ok a t =>
      rw [hx] at h
      exact h
  | error e t =>
      rw [hx] at h
      exact h e

/-- Both branches of a test. -/
theorem ite {c : Prop} [Decidable c] {y : EStateM ε σ α} (hpos : c → Ensures x s Q E)
    (hneg : ¬c → Ensures y s Q E) : Ensures (if c then x else y) s Q E := by
  by_cases hc : c
  · rw [if_pos hc]
    exact hpos hc
  · rw [if_neg hc]
    exact hneg hc

theorem throw_iff {e : ε} : Ensures (throw e : EStateM ε σ α) s Q E ↔ E s := Iff.rfl

/-- A program with both outcomes followed by what each of them means. -/
theorem ok {a : α} {t : σ} (h : Ensures x s Q E) (hx : x s = .ok a t) : Q a t := by
  unfold Ensures at h
  rwa [hx] at h

theorem ok_iff {a : α} {t : σ} (hx : x s = .ok a t) : Ensures x s Q E ↔ Q a t := by
  unfold Ensures
  rw [hx]

theorem error {e : ε} {t : σ} (h : Ensures x s Q E) (hx : x s = .error e t) : E t := by
  unfold Ensures at h
  rwa [hx] at h

theorem error_iff {e : ε} {t : σ} (hx : x s = .error e t) : Ensures x s Q E ↔ E t := by
  unfold Ensures
  rw [hx]

/-- A postcondition that can be checked is checked by running the program. -/
instance [∀ a t, Decidable (Q a t)] [∀ t, Decidable (E t)] : Decidable (Ensures x s Q E) :=
  match hx : x s with
  | .ok a t => decidable_of_iff (Q a t) (ok_iff hx).symm
  | .error _ t => decidable_of_iff (E t) (error_iff hx).symm

/-- A program that cannot throw returns. -/
theorem exists_ok (h : Ensures x s Q fun _ => False) : ∃ a t, x s = .ok a t ∧ Q a t := by
  cases hx : x s with
  | ok a t => exact ⟨a, t, rfl, h.ok hx⟩
  | error e t => exact (h.error hx).elim

end Ensures

/-- The state a program leaves behind, whether it returns or throws. -/
def finalState : EStateM.Result ε σ α → σ
  | .ok _ t => t
  | .error _ t => t

theorem Ensures.final {x : EStateM ε σ α} {s : σ} {E : σ → Prop}
    (h : Ensures x s (fun _ => E) E) : E (finalState (x s)) := by
  cases hx : x s with
  | ok a t => exact h.ok hx
  | error e t => exact h.error hx

/-! ### Programs that move along a relation -/

/-- A relation between the states before and after a program, which programs one
after the other keep to. -/
structure Chains (R : σ → σ → Prop) : Prop where
  refl : ∀ s, R s s
  trans : ∀ {s t u}, R s t → R t u → R s u

/-- From every state `x` leaves a state that is related to it, also if it throws. -/
def Along (R : σ → σ → Prop) (x : EStateM ε σ α) : Prop :=
  ∀ s, Ensures x s (fun _ t => R s t) (fun t => R s t)

namespace Along

variable {R : σ → σ → Prop} {x y : EStateM ε σ α} {f : α → EStateM ε σ β}

theorem pure (hR : Chains R) (a : α) : Along R (pure a : EStateM ε σ α) := hR.refl

theorem throw (hR : Chains R) (e : ε) : Along R (throw e : EStateM ε σ α) := hR.refl

theorem get (hR : Chains R) : Along R (get : EStateM ε σ σ) := hR.refl

theorem modify {g : σ → σ} (h : ∀ s, R s (g s)) : Along R (modify g : EStateM ε σ PUnit) := h

theorem bind (hR : Chains R) (h : Along R x) (hf : ∀ a, Along R (f a)) : Along R (x >>= f) := by
  intro s
  refine Ensures.bind ((h s).mono ?_ fun _ h => h)
  intro a t ht
  exact (hf a t).mono (fun _ _ hu => hR.trans ht hu) fun _ hu => hR.trans ht hu

theorem tryCatch (hR : Chains R) {handler : ε → EStateM ε σ α} (h : Along R x)
    (hhandler : ∀ e, Along R (handler e)) : Along R (tryCatch x handler) := by
  intro s
  refine Ensures.tryCatch ((h s).mono (fun _ _ h => h) ?_)
  intro t ht e
  exact (hhandler e t).mono (fun _ _ hu => hR.trans ht hu) fun _ hu => hR.trans ht hu

theorem ite {c : Prop} [Decidable c] (hx : Along R x) (hy : Along R y) :
    Along R (if c then x else y) := by
  intro s
  exact Ensures.ite (fun _ => hx s) fun _ => hy s

end Along

end HipObject.Verification
