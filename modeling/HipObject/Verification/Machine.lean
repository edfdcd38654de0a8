import Mathlib.Data.List.Basic

/-!
# Machines and the states they reach

A machine has initial states and a partial step function. An action carries
everything that is left open by the state: which party moves, and what its
surroundings answer. A run is a list of actions, so a statement about every
reachable state is a statement about every order of steps and every pattern of
answers.

`ReachableWhere` restricts the steps of a run by a condition on the state
before the step and the action. The unrestricted case is `Reachable`. One rule,
`ReachableWhere.invariant`, turns preservation by a step into a fact about
every reachable state.
-/

namespace HipObject.Verification

/-- A transition system given by its initial states and its step function. -/
structure Machine (σ α : Type*) where
  init : σ → Prop
  step : σ → α → Option σ

namespace Machine

variable {σ α : Type*} {M : Machine σ α} {ok ok' : σ → α → Prop}

/-- The states reached by runs all of whose steps meet `ok`. -/
inductive ReachableWhere (M : Machine σ α) (ok : σ → α → Prop) : σ → Prop where
  | init {s : σ} (start : M.init s) : ReachableWhere M ok s
  | step {s t : σ} {a : α} (reached : ReachableWhere M ok s) (meets : ok s a)
      (step : M.step s a = some t) : ReachableWhere M ok t

/-- The states reached by any run. -/
def Reachable (M : Machine σ α) (s : σ) : Prop := ReachableWhere M (fun _ _ => True) s

/-- What holds initially and is kept by every permitted step holds of every
state that is reached. The step may use that its source is reached. -/
theorem ReachableWhere.invariant {I : σ → Prop} (base : ∀ s, M.init s → I s)
    (keep : ∀ s a t, ReachableWhere M ok s → I s → ok s a → M.step s a = some t → I t) :
    ∀ {s}, ReachableWhere M ok s → I s := by
  intro s h
  induction h with
  | init start => exact base _ start
  | step reached meets step ih => exact keep _ _ _ reached ih meets step

theorem Reachable.invariant {I : σ → Prop} (base : ∀ s, M.init s → I s)
    (keep : ∀ s a t, M.Reachable s → I s → M.step s a = some t → I t) :
    ∀ {s}, M.Reachable s → I s :=
  ReachableWhere.invariant base fun s a t reached hs _ => keep s a t reached hs

theorem ReachableWhere.mono (weaken : ∀ s a, ok s a → ok' s a) {s : σ}
    (h : M.ReachableWhere ok s) : M.ReachableWhere ok' s := by
  induction h with
  | init start => exact .init start
  | step _ meets step ih => exact .step ih (weaken _ _ meets) step

theorem ReachableWhere.reachable {s : σ} (h : M.ReachableWhere ok s) : M.Reachable s :=
  h.mono fun _ _ _ => trivial

/-- The state after a list of actions, or nothing if one of them cannot be taken. -/
def exec (M : Machine σ α) (s : σ) : List α → Option σ
  | [] => some s
  | a :: rest => (M.step s a).bind fun t => M.exec t rest

theorem reachableWhere_of_exec {s t : σ} {actions : List α} (hs : M.ReachableWhere ok s)
    (meets : ∀ s a, a ∈ actions → ok s a) (h : M.exec s actions = some t) :
    M.ReachableWhere ok t := by
  induction actions generalizing s with
  | nil =>
      cases h
      exact hs
  | cons a rest ih =>
      obtain ⟨middle, hstep, hrest⟩ := Option.bind_eq_some_iff.mp h
      exact ih (.step hs (meets s a (by simp)) hstep)
        (fun s b hb => meets s b (by simp [hb])) hrest

/-- A concrete run that can be executed ends in a reachable state with every
property that its last state computes to have. -/
theorem exists_reachableWhere_of_exec (M : Machine σ α) (ok : σ → α → Prop) (actions : List α)
    (p : σ → Bool) {s : σ} (hs : M.init s) (meets : ∀ s a, a ∈ actions → ok s a)
    (h : (M.exec s actions).any p = true) : ∃ t, M.ReachableWhere ok t ∧ p t = true := by
  cases hexec : M.exec s actions with
  | none =>
      rw [hexec] at h
      cases h
  | some t =>
      rw [hexec] at h
      exact ⟨t, reachableWhere_of_exec (.init hs) meets hexec, h⟩

theorem exists_reachable_of_exec (M : Machine σ α) (actions : List α) (p : σ → Bool) {s : σ}
    (hs : M.init s) (h : (M.exec s actions).any p = true) : ∃ t, M.Reachable t ∧ p t = true :=
  exists_reachableWhere_of_exec M _ actions p hs (fun _ _ _ => trivial) h

/-- The state after a list of actions each of which passes a check. -/
def execChecked (M : Machine σ α) (check : σ → α → Bool) (s : σ) : List α → Option σ
  | [] => some s
  | a :: rest => if check s a then (M.step s a).bind fun t => M.execChecked check t rest else none

/-- Where an invariant makes a check sound, a run that passes it meets the
condition. -/
theorem exists_reachableWhere_of_execChecked {I : σ → Prop} (M : Machine σ α)
    (ok : σ → α → Prop) (check : σ → α → Bool) (sound : ∀ s a, I s → check s a = true → ok s a)
    (keep : ∀ s a t, I s → check s a = true → M.step s a = some t → I t) (actions : List α)
    (p : σ → Bool) {s : σ} (hs : M.ReachableWhere ok s) (hI : I s)
    (h : (M.execChecked check s actions).any p = true) :
    ∃ t, M.ReachableWhere ok t ∧ p t = true := by
  induction actions generalizing s with
  | nil => exact ⟨s, hs, h⟩
  | cons a rest ih =>
      unfold execChecked at h
      split at h
      · rename_i hcheck
        cases hstep : M.step s a with
        | none => simp [hstep] at h
        | some t =>
            rw [hstep, Option.bind_some] at h
            exact ih (.step hs (sound s a hI hcheck) hstep) (keep s a t hI hcheck hstep) h
      · cases h

/-- The state after a script, each line of which names an action by what the
state is when its turn comes. -/
def runScript {ι : Type*} (M : Machine σ α) (choose : σ → ι → Option α) (s : σ) :
    List ι → Option σ
  | [] => some s
  | i :: rest => (choose s i).bind fun a => (M.step s a).bind fun t => M.runScript choose t rest

theorem exists_reachableWhere_of_runScript {ι : Type*} (M : Machine σ α) (ok : σ → α → Prop)
    (choose : σ → ι → Option α) (script : List ι) (p : σ → Bool) {s : σ}
    (hs : M.ReachableWhere ok s) (meets : ∀ s a, ∀ i ∈ script, choose s i = some a → ok s a)
    (h : (M.runScript choose s script).any p = true) : ∃ t, M.ReachableWhere ok t ∧ p t = true := by
  induction script generalizing s with
  | nil => exact ⟨s, hs, h⟩
  | cons i rest ih =>
      cases hchoose : choose s i with
      | none => simp [runScript, hchoose] at h
      | some a =>
          cases hstep : M.step s a with
          | none => simp [runScript, hchoose, hstep] at h
          | some t =>
              simp only [runScript, hchoose, hstep, Option.bind_some] at h
              exact ih (.step hs (meets s a i (by simp) hchoose) hstep)
                (fun s b j hj => meets s b j (by simp [hj])) h

theorem exists_reachable_of_runScript {ι : Type*} (M : Machine σ α) (choose : σ → ι → Option α)
    (script : List ι) (p : σ → Bool) {s : σ} (hs : M.init s)
    (h : (M.runScript choose s script).any p = true) : ∃ t, M.Reachable t ∧ p t = true :=
  exists_reachableWhere_of_runScript M _ choose script p (.init hs) (fun _ _ _ _ _ => trivial) h

end Machine
end HipObject.Verification
