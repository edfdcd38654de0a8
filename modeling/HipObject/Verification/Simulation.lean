import HipObject.Verification.Ensures
import HipObject.Verification.Machine
import Mathlib.Logic.Relation

/-!
# Programs that take a machine along

One thing can have two models: a program, which runs from its start to its end,
and a machine, of which the program is one party among others. `TakesAlong`
relates them. While the program runs from `s`, the machine has steps from `m`, so
that both are in `Q` when the program returns and in `E` when it throws. How many
steps of the machine a part of the program stands for is left open; which ones they
can be is a condition on their actions.

The rules follow the program, as those of `Ensures` do. `TakesAlong.leads` lets
the machine go ahead.
-/

namespace HipObject.Verification

variable {ε σ μ act α β : Type}

/-- A machine has steps from one state to the other, all with permitted actions. -/
def Machine.Leads (M : Machine μ act) (own : act → Prop) : μ → μ → Prop :=
  Relation.ReflTransGen fun m n => ∃ a, own a ∧ M.step m a = some n

namespace Machine

variable {M : Machine μ act} {own : act → Prop} {m n k : μ} {a : act}

theorem Leads.refl : M.Leads own m m := Relation.ReflTransGen.refl

theorem Leads.single (hown : own a) (h : M.step m a = some n) : M.Leads own m n :=
  Relation.ReflTransGen.single ⟨a, hown, h⟩

theorem Leads.trans (h : M.Leads own m n) (h' : M.Leads own n k) : M.Leads own m k :=
  Relation.ReflTransGen.trans h h'

theorem Reachable.leads (h : M.Reachable m) (hleads : M.Leads own m n) : M.Reachable n := by
  induction hleads with
  | refl => exact h
  | tail _ hstep ih =>
      obtain ⟨a, -, hstep⟩ := hstep
      exact .step ih trivial hstep

end Machine

/-- The machine has steps that end where `x` ends. -/
def TakesAlong (M : Machine μ act) (own : act → Prop) (x : EStateM ε σ α) (s : σ) (m : μ)
    (Q : α → σ → μ → Prop) (E : σ → μ → Prop) : Prop :=
  Ensures x s (fun a t => ∃ n, M.Leads own m n ∧ Q a t n)
    (fun t => ∃ n, M.Leads own m n ∧ E t n)

namespace TakesAlong

variable {M : Machine μ act} {own : act → Prop} {x y : EStateM ε σ α}
variable {f : α → EStateM ε σ β} {s : σ} {m n : μ}
variable {Q Q' : α → σ → μ → Prop} {R : β → σ → μ → Prop} {E E' : σ → μ → Prop}

/-- The machine goes ahead. -/
theorem leads (hleads : M.Leads own m n) (h : TakesAlong M own x s n Q E) :
    TakesAlong M own x s m Q E := by
  refine Ensures.mono h ?_ ?_
  · rintro a t ⟨k, hk, ha⟩
    exact ⟨k, hleads.trans hk, ha⟩
  · rintro t ⟨k, hk, ht⟩
    exact ⟨k, hleads.trans hk, ht⟩

/-- The machine waits until the program has ended. -/
theorem of_ensures {P : α → σ → Prop} {F : σ → Prop} (h : Ensures x s P F)
    (hQ : ∀ a t, P a t → ∃ n, M.Leads own m n ∧ Q a t n)
    (hE : ∀ t, F t → ∃ n, M.Leads own m n ∧ E t n) : TakesAlong M own x s m Q E :=
  Ensures.mono h hQ hE

theorem pure {a : α} (h : Q a s m) : TakesAlong M own (Pure.pure a : EStateM ε σ α) s m Q E :=
  Ensures.pure_iff.mpr ⟨m, .refl, h⟩

theorem throw {e : ε} (h : E s m) :
    TakesAlong M own (MonadExcept.throw e : EStateM ε σ α) s m Q E :=
  Ensures.throw_iff.mpr ⟨m, .refl, h⟩

theorem mono (h : TakesAlong M own x s m Q E) (hQ : ∀ a t n, Q a t n → Q' a t n)
    (hE : ∀ t n, E t n → E' t n) : TakesAlong M own x s m Q' E' := by
  refine Ensures.mono h ?_ ?_
  · rintro a t ⟨n, hn, ha⟩
    exact ⟨n, hn, hQ a t n ha⟩
  · rintro t ⟨n, hn, ht⟩
    exact ⟨n, hn, hE t n ht⟩

theorem bind (h : TakesAlong M own x s m (fun a t n => TakesAlong M own (f a) t n R E) E) :
    TakesAlong M own (x >>= f) s m R E := by
  refine Ensures.bind (Ensures.mono h ?_ fun _ h => h)
  rintro a t ⟨n, hn, ha⟩
  exact ha.leads hn

theorem get_bind {f : σ → EStateM ε σ β} (h : TakesAlong M own (f s) s m R E) :
    TakesAlong M own (get >>= f) s m R E := Ensures.get_bind h

theorem tryCatch {handler : ε → EStateM ε σ α}
    (h : TakesAlong M own x s m Q fun t n => ∀ e, TakesAlong M own (handler e) t n Q E) :
    TakesAlong M own (MonadExcept.tryCatch x handler) s m Q E := by
  refine Ensures.tryCatch (Ensures.mono h (fun _ _ h => h) ?_)
  rintro t ⟨n, hn, ht⟩ e
  exact (ht e).leads hn

theorem ite {c : Prop} [Decidable c] (hpos : c → TakesAlong M own x s m Q E)
    (hneg : ¬c → TakesAlong M own y s m Q E) : TakesAlong M own (if c then x else y) s m Q E :=
  Ensures.ite hpos hneg

end TakesAlong

end HipObject.Verification
