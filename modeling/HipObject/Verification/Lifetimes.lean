import Mathlib.Data.List.Perm.Subperm

/-!
# Lifetimes of resources that rest on each other

A trace holds the calls a program makes and, between them, what it acquired and
what it released. `Orderly on H tr H'` says that the trace takes the resources
in `H` to those in `H'`, acquiring a resource only while everything it rests on
is held, and releasing one only while nothing that rests on it is held.

A program that starts and ends with nothing held has then released whatever it
acquired as often as it acquired it (`Orderly.count`), and each resource before
those it rests on (`Orderly.released_before`).
-/

namespace HipObject.Verification

/-- One entry of a trace. -/
inductive Event (κ ρ : Type) where
  | call (c : κ)
  | acquired (r : ρ)
  | released (r : ρ)
  deriving DecidableEq

variable {κ ρ : Type}

/-- The trace takes what is held from `H` to `H'`, in an order that the
resources allow. What is held is a list up to its order. -/
inductive Orderly (on : ρ → ρ → Prop) : List ρ → List (Event κ ρ) → List ρ → Prop where
  | nil {H H'} (hperm : H.Perm H') : Orderly on H [] H'
  | call {H tr H'} (c : κ) (h : Orderly on H tr H') : Orderly on H (.call c :: tr) H'
  | acquire {H tr H'} (r : ρ) (hon : ∀ p, on r p → p ∈ H) (h : Orderly on (r :: H) tr H') :
      Orderly on H (.acquired r :: tr) H'
  | release {H rest tr H'} (r : ρ) (hheld : H.Perm (r :: rest)) (hfree : ∀ q ∈ rest, ¬on q r)
      (h : Orderly on rest tr H') : Orderly on H (.released r :: tr) H'

variable {on : ρ → ρ → Prop} {H H' H'' : List ρ} {tr tr' : List (Event κ ρ)} {q r : ρ}

namespace Orderly

theorem refl (H : List ρ) : Orderly (κ := κ) on H [] H := .nil (.refl H)

/-- Only what is held matters, not the order in which it is listed. -/
theorem perm_left (h : Orderly on H tr H') (hperm : H.Perm H'') : Orderly on H'' tr H' := by
  induction h generalizing H'' with
  | nil hend => exact .nil (hperm.symm.trans hend)
  | call c _ ih => exact .call c (ih hperm)
  | acquire r hon _ ih =>
      refine .acquire r ?_ (ih (hperm.cons r))
      intro p hp
      exact hperm.mem_iff.mp (hon p hp)
  | release r hheld hfree h _ => exact .release r (hperm.symm.trans hheld) hfree h

theorem perm_right (h : Orderly on H tr H') (hperm : H'.Perm H'') : Orderly on H tr H'' := by
  induction h with
  | nil hend => exact .nil (hend.trans hperm)
  | call c _ ih => exact .call c (ih hperm)
  | acquire r hon _ ih => exact .acquire r hon (ih hperm)
  | release r hheld hfree _ ih => exact .release r hheld hfree (ih hperm)

/-- Traces follow each other. -/
theorem append (h : Orderly on H tr H') (h' : Orderly on H' tr' H'') :
    Orderly on H (tr ++ tr') H'' := by
  induction h with
  | nil hend => exact h'.perm_left hend.symm
  | call c _ ih => exact .call c (ih h')
  | acquire r hon _ ih => exact .acquire r hon (ih h')
  | release r hheld hfree _ ih => exact .release r hheld hfree (ih h')

/-- What was held or acquired is released or still held, as many times. -/
theorem count [DecidableEq κ] [DecidableEq ρ] (h : Orderly on H tr H') (r : ρ) :
    tr.count (.acquired r) + H.count r = tr.count (.released r) + H'.count r := by
  induction h with
  | nil hend => simp [hend.count_eq]
  | call c _ ih => simpa using ih
  | acquire r' _ _ ih =>
      simp only [List.count_cons, beq_iff_eq, Event.acquired.injEq, reduceCtorEq, if_false,
        Nat.add_zero] at ih ⊢
      omega
  | release r' hheld _ _ ih =>
      rw [hheld.count_eq]
      simp only [List.count_cons, beq_iff_eq, Event.released.injEq, reduceCtorEq, if_false,
        Nat.add_zero] at ih ⊢
      omega

/-- Whatever the held resources rest on is held. -/
theorem closed (h : Orderly on H tr H') (hclosed : ∀ q ∈ H, ∀ p, on q p → p ∈ H) :
    ∀ q ∈ H', ∀ p, on q p → p ∈ H' := by
  induction h with
  | nil hend =>
      intro q hq p hp
      exact hend.mem_iff.mp (hclosed q (hend.mem_iff.mpr hq) p hp)
  | call c _ ih => exact ih hclosed
  | acquire r hon _ ih =>
      apply ih
      intro q hq p hp
      rcases List.mem_cons.mp hq with rfl | hq
      · exact List.mem_cons_of_mem _ (hon p hp)
      · exact List.mem_cons_of_mem _ (hclosed q hq p hp)
  | release r hheld hfree _ ih =>
      apply ih
      intro q hq p hp
      have hmem := hclosed q (hheld.mem_iff.mpr (List.mem_cons_of_mem r hq)) p hp
      rcases List.mem_cons.mp (hheld.mem_iff.mp hmem) with rfl | hmem
      · exact absurd hp (hfree q hq)
      · exact hmem

/-- What is held was acquired. -/
theorem acquired_of_mem [DecidableEq κ] [DecidableEq ρ] (h : Orderly on [] tr H')
    (hr : r ∈ H') : .acquired r ∈ tr := by
  have hcount := h.count r
  have hpos := List.count_pos_iff.mpr hr
  apply List.count_pos_iff.mp
  simp only [List.count_nil] at hcount
  omega

/-- What is held and will not be held at the end is released. -/
theorem released_of_mem [DecidableEq κ] [DecidableEq ρ] (h : Orderly on H tr [])
    (hr : r ∈ H) : .released r ∈ tr := by
  have hcount := h.count r
  have hpos := List.count_pos_iff.mpr hr
  apply List.count_pos_iff.mp
  simp only [List.count_nil] at hcount
  omega

/-- Of two resources that are held, the one that rests on the other goes first. -/
theorem released_before_of_mem [DecidableEq κ] [DecidableEq ρ] (h : Orderly on H tr [])
    (hne : q ≠ r) (hon : on q r) (hq : q ∈ H) (hr : r ∈ H) :
    List.Sublist [.released q, .released r] tr := by
  generalize hend : ([] : List ρ) = H' at h
  induction h with
  | nil hperm =>
      subst hend
      simp [hperm.eq_nil] at hq
  | call c _ ih => exact (ih hq hr hend).cons _
  | acquire r' _ _ ih =>
      exact (ih (List.mem_cons_of_mem _ hq) (List.mem_cons_of_mem _ hr) hend).cons _
  | release r' hheld hfree htail ih =>
      subst hend
      rcases List.mem_cons.mp (hheld.mem_iff.mp hq) with rfl | hq'
      · -- `q` is released here, with `r` still held
        rcases List.mem_cons.mp (hheld.mem_iff.mp hr) with rfl | hr'
        · exact absurd rfl hne
        · exact (List.singleton_sublist.mpr (htail.released_of_mem hr')).cons_cons _
      · rcases List.mem_cons.mp (hheld.mem_iff.mp hr) with rfl | hr'
        · exact absurd hon (hfree q hq')
        · exact (ih hq' hr' rfl).cons _

/-- Each resource that was acquired is released before those it rests on. -/
theorem released_before [DecidableEq κ] [DecidableEq ρ] (h : Orderly on H tr [])
    (hne : q ≠ r) (hon : on q r) (hq : .acquired q ∈ tr) :
    List.Sublist [.released q, .released r] tr := by
  generalize hend : ([] : List ρ) = H' at h
  induction h with
  | nil _ => simp at hq
  | call c _ ih =>
      simp only [List.mem_cons, reduceCtorEq, false_or] at hq
      exact (ih hq hend).cons _
  | acquire r' hon' htail ih =>
      subst hend
      rcases List.mem_cons.mp hq with heq | hq'
      · cases heq
        have hr := List.mem_cons_of_mem q (hon' r hon)
        exact (htail.released_before_of_mem hne hon List.mem_cons_self hr).cons _
      · exact (ih hq' rfl).cons _
  | release r' _ _ _ ih =>
      simp only [List.mem_cons, reduceCtorEq, false_or] at hq
      exact (ih hq hend).cons _

end Orderly

/-- A whole trace: what it acquired was released exactly once, and before
whatever it rests on. -/
structure Unwound [DecidableEq κ] [DecidableEq ρ] (on : ρ → ρ → Prop)
    (tr : List (Event κ ρ)) : Prop where
  once : ∀ r, .acquired r ∈ tr → tr.count (.released r) = 1
  before : ∀ q r, on q r → .acquired q ∈ tr → List.Sublist [.released q, .released r] tr

/-- A trace that ends with nothing held has unwound, if it never acquires the
same resource twice. -/
theorem Orderly.unwound [DecidableEq κ] [DecidableEq ρ] (h : Orderly on [] tr [])
    (hirrefl : ∀ r, ¬on r r) (hfresh : ∀ r, tr.count (.acquired r) ≤ 1) : Unwound on tr where
  once := by
    intro r hr
    have hcount := h.count r
    have hpos := List.count_pos_iff.mpr hr
    have hle := hfresh r
    simp only [List.count_nil] at hcount
    omega
  before := by
    intro q r hon hq
    refine h.released_before ?_ hon hq
    rintro rfl
    exact hirrefl q hon

end HipObject.Verification
