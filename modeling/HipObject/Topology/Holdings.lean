import HipObject.Topology.Platform

/-!
# What a session holds

`Session.Holds H s` says that the trace of `s` is orderly, that it never acquired
one resource twice, and that `H` is what is held at its end. Each way of calling
the platform has a rule that says how it changes `H`. A session that holds
nothing any more has released everything it acquired, once and in the right
order (`Session.Holds.unwound`).
-/

namespace HipObject

open Verification

/-- The number of a resource is one that the run has used up. -/
def Resource.Below (events log : Nat) : Resource → Prop
  | .deviceList id => id < events
  | .context id => id < events
  | .pd id _ => id < events
  | .cq id _ => id < log
  | .qp id _ _ => id < log

theorem Resource.Below.mono {events events' log log' : Nat} {r : Resource}
    (h : r.Below events log) (hevents : events ≤ events') (hlog : log ≤ log') :
    r.Below events' log' := by
  cases r with
  | deviceList id => exact Nat.lt_of_lt_of_le h hevents
  | context id => exact Nat.lt_of_lt_of_le h hevents
  | pd id context => exact Nat.lt_of_lt_of_le h hevents
  | cq id d => exact Nat.lt_of_lt_of_le h hlog
  | qp id cq d => exact Nat.lt_of_lt_of_le h hlog

namespace Session

structure Holds (H : List Resource) (s : Session) : Prop where
  orderly : Orderly DependsOn [] s.events H
  once : ∀ r, s.events.count (.acquired r) ≤ 1
  below : ∀ r, .acquired r ∈ s.events → r.Below s.events.length s.verbsLog.length

variable {H H' rest : List Resource} {s : Session} {r : Resource}

theorem Holds.start (answers : List Answer) : (Session.start answers).Holds [] where
  orderly := .refl []
  once := by simp [Session.start]
  below := by simp [Session.start]

theorem Holds.perm (h : s.Holds H) (hperm : H.Perm H') : s.Holds H' where
  orderly := h.orderly.perm_right hperm
  once := h.once
  below := h.below

/-- A session that goes on with a trace that acquires only what is new. -/
theorem Holds.extend {t : Session} {tr : List (Event PlatformCall Resource)}
    (h : s.Holds H) (hevents : t.events = s.events ++ tr)
    (hlog : s.verbsLog.length ≤ t.verbsLog.length) (htr : Orderly DependsOn H tr H')
    (honce : ∀ r, tr.count (.acquired r) ≤ 1)
    (hnew : ∀ r, .acquired r ∈ tr → r.Below t.events.length t.verbsLog.length ∧
      ¬r.Below s.events.length s.verbsLog.length) : t.Holds H' where
  orderly := by
    rw [hevents]
    exact h.orderly.append htr
  once := by
    intro r
    rw [hevents, List.count_append]
    by_cases hr : .acquired r ∈ s.events
    · have hnot : .acquired r ∉ tr := fun hmem => (hnew r hmem).2 (h.below r hr)
      rw [List.count_eq_zero.mpr hnot]
      exact h.once r
    · rw [List.count_eq_zero.mpr hr, Nat.zero_add]
      exact honce r
  below := by
    intro r hr
    rw [hevents, List.mem_append] at hr
    rcases hr with hr | hr
    · refine (h.below r hr).mono ?_ hlog
      rw [hevents, List.length_append]
      exact Nat.le_add_right _ _
    · exact (hnew r hr).1

theorem Holds.log (h : s.Holds H) (c : PlatformCall) : (s.log c).Holds H :=
  h.extend rfl (Nat.le_refl _) (.call c (.refl H)) (by simp) (by simp)

theorem Holds.acquire (h : s.Holds H) (hon : ∀ p, DependsOn r p → p ∈ H)
    (hbelow : r.Below (s.events.length + 1) s.verbsLog.length)
    (hnew : ¬r.Below s.events.length s.verbsLog.length) : (s.acquire r).Holds (r :: H) := by
  refine h.extend rfl (Nat.le_refl _) (.acquire r hon (.refl _)) ?_ ?_
  · intro r'
    exact (List.count_le_length).trans (by simp)
  · intro r' hr'
    simp only [List.mem_singleton, Event.acquired.injEq] at hr'
    subst hr'
    refine ⟨?_, hnew⟩
    simpa [Session.acquire] using hbelow

theorem Holds.release (h : s.Holds H) (hheld : H.Perm (r :: rest))
    (hfree : ∀ q ∈ rest, ¬DependsOn q r) : (s.release r).Holds rest :=
  h.extend rfl (Nat.le_refl _) (.release r hheld hfree (.refl _)) (by simp) (by simp)

/-- Nothing that is held rests on a resource that is yet to come. -/
theorem Holds.not_dependsOn (h : s.Holds H)
    (hnew : ¬r.Below s.events.length s.verbsLog.length) : ∀ q ∈ H, ¬DependsOn q r := by
  intro q hq hon
  have hr := h.orderly.closed (by simp) q hq r hon
  exact hnew (h.below r (h.orderly.acquired_of_mem hr))

/-- What is held is what was acquired and not released. -/
theorem Holds.live_iff (h : s.Holds H) (r : Resource) :
    .acquired r ∈ s.events ∧ .released r ∉ s.events ↔ r ∈ H := by
  have hcount := h.orderly.count r
  have honce := h.once r
  simp only [List.count_nil, Nat.add_zero] at hcount
  rw [← List.count_pos_iff, ← List.count_eq_zero, ← List.count_pos_iff]
  omega

/-- Nothing is held any more: all of it was released, once, and in order. -/
theorem Holds.unwound (h : s.Holds []) : Unwound DependsOn s.events :=
  h.orderly.unwound DependsOn.irrefl h.once

end Session

/-! ### Rules for the calls -/

section Rules

variable {α β : Type} {s : Session} {Q : α → Session → Prop} {E : Session → Prop}

theorem query_bind {c : PlatformCall} {answer : Nat → α} {f : α → PlatformM β}
    {R : β → Session → Prop} (h : Ensures (f (answer (s.count c))) (s.log c) R E) :
    Ensures (query c answer >>= f) s R E := Ensures.bind h

/-- A call that acquires something throws, fails, or gives the resource a new
number. -/
theorem acquire_bind {c : PlatformCall} {resource : Nat → Resource}
    {answer : Nat → Acquisition α} {f : Option (Nat × α) → PlatformM β}
    {R : β → Session → Prop}
    (hthrows : answer (s.count c) = .throws → E (s.log c))
    (hfails : answer (s.count c) = .fails → Ensures (f none) (s.log c) R E)
    (hvalue : ∀ a, answer (s.count c) = .value a →
      Ensures (f (some ((s.log c).events.length, a)))
        ((s.log c).acquire (resource (s.log c).events.length)) R E) :
    Ensures (acquire c resource answer >>= f) s R E := by
  apply Ensures.bind
  unfold Ensures acquire
  cases hanswer : answer (s.count c) with
  | throws => exact hthrows hanswer
  | fails => exact hfails hanswer
  | value a => exact hvalue a hanswer

/-- Asking for the devices throws, fails, or gives a list of which the number is that
of the lists before it. -/
theorem getDeviceList_bind {P : Platform}
    {f : Option (Nat × Nat × List (Option (Option (List Codec.Byte)))) → PlatformM β}
    {R : β → Session → Prop}
    (hthrows : P.getDeviceList (s.count .getDeviceList) = .throws → E (s.log .getDeviceList))
    (hfails : P.getDeviceList (s.count .getDeviceList) = .fails →
      Ensures (f none) (s.log .getDeviceList) R E)
    (hvalue : ∀ entries, P.getDeviceList (s.count .getDeviceList) = .value entries →
      Ensures (f (some ((s.log .getDeviceList).events.length, s.count .getDeviceList, entries)))
        ((s.log .getDeviceList).acquire (.deviceList (s.log .getDeviceList).events.length)) R E) :
    Ensures (getDeviceList P >>= f) s R E := by
  apply Ensures.bind
  unfold Ensures getDeviceList acquire
  dsimp only
  cases hanswer : P.getDeviceList (s.count .getDeviceList) with
  | throws => exact hthrows hanswer
  | fails => exact hfails hanswer
  | value entries => exact hvalue entries hanswer

/-- A local variable's resource is released on every way out. -/
theorem holding_spec {r : Resource} {x : PlatformM α}
    (h : Ensures x s (fun a t => Q a (t.release r))
      (fun t => E (if t.diverged then t else t.release r))) : Ensures (holding r x) s Q E := by
  unfold Ensures holding at *
  cases hx : x s with
  | ok a t =>
      rw [hx] at h
      exact h
  | error e t =>
      rw [hx] at h
      exact h

/-- A resource that is moved into the result is released if there is none. -/
theorem handingOver_spec {Q : Option α → Session → Prop} {r : Resource}
    {x : PlatformM (Option α)}
    (h : Ensures x s (fun a t => Q a (if a.isSome then t else t.release r))
      (fun t => E (if t.diverged then t else t.release r))) :
    Ensures (handingOver r x) s Q E := by
  unfold Ensures handingOver at *
  cases hx : x s with
  | ok a t =>
      rw [hx] at h
      cases a with
      | none => exact h
      | some a => exact h
  | error e t =>
      rw [hx] at h
      exact h

end Rules

end HipObject
