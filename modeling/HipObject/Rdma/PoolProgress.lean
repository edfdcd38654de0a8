import HipObject.Rdma.PoolWakeup
import HipObject.Verification.Progress

/-!
# Everyone gets out of a pool

Once no thread starts anything new, what is left to do is measured by `work`:
each lease has to be given back, and each blocked thread may still take one and
give that back too. Every step of a release lowers it, and so does the return of
a notified thread from `wait()`, even if it finds nothing and waits again.

Such a step is possible until every thread is out of the pools, since a thread
that holds a lease never waits. No thread is left behind in `acquire()`, in any
order of the steps.
-/

namespace HipObject

open Verification

variable {P T : Type} [DecidableEq P] [DecidableEq T]

/-! ### What a step does to the leases -/

/-- A thread that winds up starts nothing: no `acquire()`, no move of a lease, no
`close()`. -/
def PoolAction.windsUp : PoolAction P T → Bool
  | .acquire _ _ => false
  | .move _ => false
  | .close _ _ => false
  | _ => true

/-- The steps that bring a thread closer to the end: those of `~Lease`, and the
return from `wait()` of a thread that was notified. -/
def System.advances (s : System P T) : PoolAction P T → Bool
  | .wake i => match s.control i with
      | .notified _ => true
      | _ => false
  | .destroyMoved _ => true
  | .restore _ _ => true
  | .releaseLocked _ => true
  | .notify _ _ => true
  | _ => false

/-- A step, as far as the leases and their destructors are concerned. -/
inductive LeaseStep (s t : System P T) : PoolAction P T → Prop
  | acquire {i : T} {p : P} (running : s.control i = .running) (eq : t = s.acquireLocked i p) :
      LeaseStep s t (.acquire i p)
  | wake {i : T} {p : P} (blocked : s.control i = .waiting p ∨ s.control i = .notified p)
      (eq : t = s.acquireLocked i p) : LeaseStep s t (.wake i)
  | move {l : Lease P T} (use : s.CanUse l)
      (leases : t.leases = { l with pool := none } :: s.leases) (control : t.control = s.control) :
      LeaseStep s t (.move l)
  | destroyMoved {l : Lease P T} (use : s.CanUse l) (moved : l.pool = none)
      (leases : t.leases = s.leases.erase l) (control : t.control = s.control) :
      LeaseStep s t (.destroyMoved l)
  | use {a : PoolAction P T} {l l' : Lease P T} (mem : l ∈ s.leases) (active : l.usable = none)
      (same : l'.pool = l.pool ∧ l'.thread = l.thread ∧ l'.usable = l.usable)
      (leases : t.leases = l' :: s.leases.erase l) (control : t.control = s.control)
      (quiet : s.advances a = false) : LeaseStep s t a
  | restore {l : Lease P T} {answers : List Answer} {usable : Bool} (use : s.CanUse l)
      (pool : l.pool ≠ none)
      (leases : t.leases = { l with usable := some usable } :: s.leases.erase l)
      (control : t.control = Function.update s.control l.thread .releasing) :
      LeaseStep s t (.restore l answers)
  | giveBack {l : Lease P T} {p : P} {signal : Signal} (mem : l ∈ s.leases)
      (releasing : s.control l.thread = .releasing) (pool : l.pool = some p)
      (found : l.usable ≠ none) (leases : t.leases = s.leases.erase l)
      (control : t.control = Function.update s.control l.thread (.notifying p signal true)) :
      LeaseStep s t (.releaseLocked l)
  | notify {i : T} {p : P} {signal : Signal} {ofRelease : Bool} {chosen : Option T}
      {control : T → Control P} (notifying : s.control i = .notifying p signal ofRelease)
      (signalled : Signalled p signal s.control control) (leases : t.leases = s.leases)
      (control : t.control = Function.update control i .running) : LeaseStep s t (.notify i chosen)
  | close {i : T} {p : P} (running : s.control i = .running) (leases : t.leases = s.leases)
      (control : t.control = Function.update s.control i (.notifying p .all false)) :
      LeaseStep s t (.close i p)

variable {s t : System P T} {a : PoolAction P T}

/-! ### The lease that a destructor is about -/

/-- A lease whose destructor is past its restore part, on thread `i`. -/
def Lease.isGoing (i : T) (l : Lease P T) : Bool := l.thread = i ∧ l.usable ≠ none

def System.going (s : System P T) (i : T) : Nat := s.leases.countP (Lease.isGoing i)

/-- A thread is between the two parts of `release()` exactly while one of its
leases is, and that one has a pool. -/
structure Releasing (s : System P T) : Prop where
  count : ∀ i, s.going i = if s.control i = .releasing then 1 else 0
  pool : ∀ l ∈ s.leases, l.usable ≠ none → l.pool ≠ none

namespace Releasing

/-- A lease on a thread that runs is not being destroyed. -/
theorem usable_eq_none (h : Releasing s) {l : Lease P T} (hl : l ∈ s.leases)
    (hrunning : s.control l.thread = .running) : l.usable = none := by
  by_contra husable
  have hzero := h.count l.thread
  rw [hrunning, if_neg (by simp), System.going, List.countP_eq_zero] at hzero
  exact hzero l hl (by simp [Lease.isGoing, husable])

theorem exists_lease (h : Releasing s) {i : T} (hreleasing : s.control i = .releasing) :
    ∃ l ∈ s.leases, l.thread = i ∧ ∃ p usable, l.pool = some p ∧ l.usable = some usable := by
  have hone := h.count i
  rw [if_pos hreleasing] at hone
  have hpos : 0 < s.leases.countP (Lease.isGoing i) := by
    rw [← System.going, hone]
    exact Nat.one_pos
  obtain ⟨l, hl, hgoing⟩ := List.countP_pos_iff.mp hpos
  obtain ⟨hthread, husable⟩ := of_decide_eq_true hgoing
  obtain ⟨p, hp⟩ := Option.ne_none_iff_exists'.mp (h.pool l hl husable)
  obtain ⟨usable, hfound⟩ := Option.ne_none_iff_exists'.mp husable
  exact ⟨l, hl, hthread, p, usable, hp, hfound⟩

/-- A step that begins and ends no release. -/
theorem keep (h : Releasing s) (hgoing : ∀ i, t.going i = s.going i)
    (hcontrol : ∀ i, t.control i = .releasing ↔ s.control i = .releasing)
    (hpool : ∀ l ∈ t.leases, l.usable ≠ none → l.pool ≠ none) : Releasing t where
  count := by
    intro i
    rw [hgoing, h.count]
    simp only [hcontrol]
  pool := hpool

omit [DecidableEq P] in
/-- A thread that was not in `release()` and does not enter it. -/
theorem releasing_update_iff {f : T → Control P} {i : T} {c : Control P}
    (hbefore : f i ≠ .releasing) (hafter : c ≠ .releasing) (j : T) :
    Function.update f i c j = .releasing ↔ f j = .releasing := by
  by_cases hj : j = i
  · rw [hj, Function.update_self]
    exact iff_of_false hafter hbefore
  · rw [Function.update_of_ne hj]

theorem acquire (h : Releasing s) {i : T} {p : P} (hi : s.control i ≠ .releasing) :
    Releasing (s.acquireLocked i p) := by
  obtain ⟨-, -, heq⟩ | ⟨e, -, heq⟩ | ⟨index, pool, -, heq⟩ := acquireLocked_cases s i p
  · rw [heq]
    exact h.keep (fun _ => rfl) (releasing_update_iff hi (by simp)) h.pool
  · rw [heq]
    exact h.keep (fun _ => rfl) (releasing_update_iff hi (by simp)) h.pool
  · rw [heq]
    apply h.keep
    · intro j
      simp [System.going, Lease.isGoing]
    · exact releasing_update_iff hi (by simp)
    · simpa using h.pool

/-- The step lemma. -/
theorem step (h : Releasing s) (hstep : LeaseStep s t a) : Releasing t := by
  have hmem : ∀ l, ∀ l' ∈ s.leases.erase l, l'.usable ≠ none → l'.pool ≠ none := fun l l' hl' =>
    h.pool l' (List.mem_of_mem_erase hl')
  have herase : ∀ i, ∀ l ∈ s.leases, s.going i =
      (s.leases.erase l).countP (Lease.isGoing i) + (if l.isGoing i then 1 else 0) := by
    intro i l hl
    rw [System.going, (List.perm_cons_erase hl).countP_eq, List.countP_cons]
  cases hstep with
  | acquire running eq =>
      rw [eq]
      exact h.acquire (by simp [running])
  | wake blocked eq =>
      rw [eq]
      apply h.acquire
      obtain hi | hi := blocked <;> simp [hi]
  | @move l use leases control =>
      apply h.keep
      · intro i
        simp [System.going, leases, Lease.isGoing, use.2.1]
      · intro i
        rw [control]
      · simpa [leases, use.2.1] using h.pool
  | @destroyMoved l use moved leases control =>
      apply h.keep
      · intro i
        rw [herase i l use.1, System.going, leases]
        simp [Lease.isGoing, use.2.1]
      · intro i
        rw [control]
      · rw [leases]
        exact hmem l
  | @use _ l l' mem active same leases control quiet =>
      obtain ⟨hpool, hthread, husable⟩ := same
      apply h.keep
      · intro i
        rw [herase i l mem, System.going, leases, List.countP_cons]
        simp [Lease.isGoing, husable, active]
      · intro i
        rw [control]
      · rw [leases]
        simpa [husable, active] using hmem l
  | @restore l answers usable use pool leases control =>
      refine ⟨?_, ?_⟩
      · intro i
        have hbefore := h.count i
        rw [herase i l use.1] at hbefore
        rw [System.going, leases, List.countP_cons, control]
        by_cases hi : i = l.thread
        · subst hi
          simpa [Lease.isGoing, use.2.1, use.2.2] using hbefore
        · simpa [Lease.isGoing, use.2.1, hi, Ne.symm hi] using hbefore
      · rw [leases]
        simpa [pool] using hmem l
  | @giveBack l p signal mem releasing pool found leases control =>
      refine ⟨?_, ?_⟩
      · intro i
        have hbefore := h.count i
        rw [herase i l mem] at hbefore
        rw [System.going, leases, control]
        by_cases hi : i = l.thread
        · subst hi
          simpa [Lease.isGoing, found, releasing] using hbefore
        · simpa [Lease.isGoing, hi, Ne.symm hi] using hbefore
      · rw [leases]
        exact hmem l
  | @notify i p signal ofRelease chosen after notifying signalled leases control =>
      have hafter : ∀ j, after j = .releasing ↔ s.control j = .releasing := by
        intro j
        obtain hsame | ⟨hwaiting, hnotified⟩ := signalled.control_eq j
        · rw [hsame]
        · simp [hwaiting, hnotified]
      apply h.keep
      · intro j
        rw [System.going, leases]
        rfl
      · intro j
        rw [control, releasing_update_iff _ (by simp) j, hafter j]
        rw [Ne, hafter i, notifying]
        simp
      · rw [leases]
        exact h.pool
  | close running leases control =>
      apply h.keep
      · intro j
        rw [System.going, leases]
        rfl
      · intro j
        rw [control]
        exact releasing_update_iff (by simp [running]) (by simp) j
      · rw [leases]
        exact h.pool

end Releasing

/-! ### The steps of the machine -/

variable [Fintype T]

theorem poolStep_lease {device : P → RdmaDevice} (h : poolStep device s a = some t) :
    LeaseStep s t a := by
  cases a with
  | acquire i p =>
      simp only [poolStep, System.acquire, Option.ite_none_right_eq_some, Option.some.injEq] at h
      exact .acquire h.1 h.2.symm
  | wake i =>
      simp only [poolStep, System.wake] at h
      split at h
      · rename_i p hwaiting
        exact .wake (.inl hwaiting) (Option.some.inj h).symm
      · rename_i p hnotified
        exact .wake (.inr hnotified) (Option.some.inj h).symm
      · cases h
  | move l =>
      simp only [poolStep, System.move, Option.ite_none_right_eq_some, Option.some.injEq] at h
      obtain ⟨huse, rfl⟩ := h
      exact .move huse rfl rfl
  | destroyMoved l =>
      simp only [poolStep, System.destroyMoved, Option.ite_none_right_eq_some,
        Option.some.injEq] at h
      obtain ⟨⟨huse, hmoved⟩, rfl⟩ := h
      exact .destroyMoved huse hmoved rfl rfl
  | connect l peerToken answers =>
      simp only [poolStep, System.connect, Option.ite_none_right_eq_some] at h
      obtain ⟨huse, h⟩ := h
      obtain ⟨⟨p, conn⟩, -, rfl⟩ := Option.map_eq_some_iff.mp h
      refine .use huse.1 huse.2.1 ?_ rfl rfl rfl
      exact ⟨rfl, rfl, rfl⟩
  | poll l expectedOpcode answers =>
      simp only [poolStep, System.poll, Option.ite_none_right_eq_some] at h
      obtain ⟨huse, h⟩ := h
      obtain ⟨⟨p, conn⟩, -, rfl⟩ := Option.map_eq_some_iff.mp h
      dsimp only
      split <;> exact .use huse.1 huse.2.1 ⟨rfl, rfl, rfl⟩ rfl rfl rfl
  | complete l success opcode =>
      simp only [poolStep, System.complete, Option.ite_none_right_eq_some] at h
      obtain ⟨⟨hl, hactive⟩, h⟩ := h
      obtain ⟨⟨p, conn⟩, -, h⟩ := Option.bind_eq_some_iff.mp h
      simp only [Option.ite_none_right_eq_some, Option.some.injEq] at h
      obtain ⟨-, rfl⟩ := h
      exact .use hl hactive ⟨rfl, rfl, rfl⟩ rfl rfl rfl
  | restore l answers =>
      simp only [poolStep, System.restore, Option.ite_none_right_eq_some] at h
      obtain ⟨huse, h⟩ := h
      obtain ⟨p, hp, h⟩ := Option.bind_eq_some_iff.mp h
      have hpool : l.pool ≠ none := by simp [hp]
      split at h
      · split at h
        · cases h
          exact .restore huse hpool rfl rfl
        · cases h
      · cases h
        exact .restore huse hpool rfl rfl
  | releaseLocked l =>
      simp only [poolStep, System.releaseLocked, Option.ite_none_right_eq_some] at h
      obtain ⟨⟨hl, hreleasing⟩, h⟩ := h
      obtain ⟨p, hp, h⟩ := Option.bind_eq_some_iff.mp h
      obtain ⟨usable, husable, rfl⟩ := Option.map_eq_some_iff.mp h
      exact .giveBack hl hreleasing hp (by simp [husable]) rfl rfl
  | notify i chosen =>
      obtain ⟨p, signal, ofRelease, control, hi, hsignalled, ht⟩ := notify_cases h
      refine .notify hi hsignalled ?_ ?_
      · rw [ht]
        split <;> rfl
      · rw [ht]
        split <;> rfl
  | close i p =>
      simp only [poolStep, System.close, Option.ite_none_right_eq_some, Option.some.injEq] at h
      obtain ⟨hi, rfl⟩ := h
      exact .close hi rfl rfl

theorem releasing_of_reachable {device : P → RdmaDevice}
    (hs : (poolMachine device).Reachable s) : Releasing s := by
  refine Machine.Reachable.invariant ?_ ?_ hs
  · intro s hs
    refine ⟨?_, ?_⟩
    · intro i
      simp [System.going, hs.leases, hs.control i]
    · simp [hs.leases]
  · intro s a t _ hs hstep
    exact hs.step (poolStep_lease hstep)

/-! ### What is left to do -/

/-- A lease that was moved from only has to be destroyed. -/
def Lease.work (n : Nat) (l : Lease P T) : Nat :=
  if l.pool = none then 1 else if l.usable = none then n + 3 else n + 2

/-- A notification may be heard by every one of `n` threads. A thread that waits
may still take a lease. -/
def Control.work (n : Nat) : Control P → Nat
  | .running => 0
  | .releasing => 0
  | .notifying _ _ _ => n + 1
  | .waiting _ => n + 4
  | .notified _ => n + 5

def System.work (s : System P T) : Nat :=
  (s.leases.map (Lease.work (Fintype.card T))).sum +
    total (Control.work (Fintype.card T)) s.control

/-- The threads are out of the pools. -/
def System.AtRest (s : System P T) : Prop := s.leases = [] ∧ ∀ i, s.control i = .running

/-- At the point where the mutex is held, a thread goes on with no more to do
than one that waits. -/
theorem work_acquireLocked (s : System P T) (i : T) (p : P) :
    (s.acquireLocked i p).work + (s.control i).work (Fintype.card T) ≤
      s.work + (Fintype.card T + 4) := by
  have hupdate := total_update (Control.work (Fintype.card T)) s.control i
  obtain ⟨-, -, heq⟩ | ⟨e, -, heq⟩ | ⟨index, pool, -, heq⟩ := acquireLocked_cases s i p
  · have := hupdate (.waiting p)
    rw [heq, System.work, System.work]
    simp only [Control.work] at this ⊢
    omega
  · have := hupdate .running
    rw [heq, System.work, System.work]
    simp only [Control.work] at this ⊢
    omega
  · have := hupdate .running
    rw [heq, System.work, System.work]
    simp only [Control.work, List.map_cons, List.sum_cons] at this ⊢
    simp only [Lease.work, reduceCtorEq, if_false, if_true]
    omega

/-- What a signal adds to the work of those who hear it. -/
theorem work_signalled {p : P} {signal : Signal} {before after : T → Control P}
    (h : Signalled p signal before after) (n : Nat) :
    total (Control.work n) after ≤ total (Control.work n) before + Fintype.card T := by
  apply total_le_add_card
  intro j
  obtain hsame | ⟨hwaiting, hnotified⟩ := h.control_eq j
  · rw [hsame]
    exact Nat.le_succ _
  · rw [hwaiting, hnotified]
    exact Nat.le_refl _

/-- The step lemma: nothing adds to the work, and what advances takes from it. -/
theorem LeaseStep.work_le (h : LeaseStep s t a) (hwinds : a.windsUp = true) :
    (s.advances a).toNat + t.work ≤ s.work := by
  have hleases : ∀ l ∈ s.leases, _ := fun l hl =>
    List.sum_map_erase (Lease.work (P := P) (T := T) (Fintype.card T)) hl
  have hupdate := total_update (Control.work (P := P) (Fintype.card T)) s.control
  cases h with
  | acquire running eq => cases hwinds
  | move use leases control => cases hwinds
  | close running leases control => cases hwinds
  | @wake i p blocked eq =>
      have hwork := work_acquireLocked s i p
      rw [eq]
      obtain hi | hi := blocked
      · simp only [System.advances, hi, Control.work, Bool.toNat_false] at hwork ⊢
        omega
      · simp only [System.advances, hi, Control.work, Bool.toNat_true] at hwork ⊢
        omega
  | @destroyMoved l use moved leases control =>
      have hl := hleases l use.1
      simp only [Lease.work, moved, if_true] at hl
      simp only [System.work, leases, control, System.advances, Bool.toNat_true]
      omega
  | @use _ l l' mem active same leases control quiet =>
      have hl := hleases l mem
      have hsame : l'.work (Fintype.card T) = l.work (Fintype.card T) := by
        rw [Lease.work, Lease.work, same.1, same.2.2]
      simp only [System.work, leases, control, quiet, List.map_cons, List.sum_cons, hsame,
        Bool.toNat_false]
      omega
  | @restore l answers usable use pool leases control =>
      have hl := hleases l use.1
      have hi := hupdate l.thread .releasing
      rw [use.2.2] at hi
      simp only [Lease.work, pool, use.2.1, Control.work, if_true, if_false] at hl hi
      simp only [System.work, leases, control, System.advances, List.map_cons, List.sum_cons,
        Bool.toNat_true, Lease.work, pool, if_false, reduceCtorEq]
      omega
  | @giveBack l p signal mem releasing pool found leases control =>
      have hl := hleases l mem
      have hi := hupdate l.thread (.notifying p signal true)
      rw [releasing] at hi
      simp only [Lease.work, pool, found, Control.work, reduceCtorEq, if_false] at hl hi
      simp only [System.work, leases, control, System.advances, Bool.toNat_true]
      omega
  | @notify i p signal ofRelease chosen after notifying signalled leases control =>
      have hheard := work_signalled signalled (Fintype.card T)
      have hafter : after i = .notifying p signal ofRelease := by
        obtain hsame | ⟨hwaiting, -⟩ := signalled.control_eq i
        · rw [hsame, notifying]
        · rw [notifying] at hwaiting
          cases hwaiting
      have hi := total_update (Control.work (P := P) (Fintype.card T)) after i .running
      rw [hafter] at hi
      simp only [Control.work] at hi
      simp only [System.work, leases, control, System.advances, Bool.toNat_true]
      omega

/-! ### A step is possible -/

/-- The same step, with other answers from the verbs. -/
def PoolAction.answered (answers : List Answer) : PoolAction P T → PoolAction P T
  | .connect l peerToken _ => .connect l peerToken answers
  | .poll l expectedOpcode _ => .poll l expectedOpcode answers
  | .restore l _ => .restore l answers
  | a => a

/-- Some thread can advance, whatever the verbs answer. -/
def CanAdvance (device : P → RdmaDevice) (s : System P T) : Prop :=
  ∃ a, s.advances a = true ∧ ∀ answers, (poolStep device s (a.answered answers)).isSome = true

variable {device : P → RdmaDevice}

theorem canAdvance_of_notified {i : T} {p : P} (hi : s.control i = .notified p) :
    CanAdvance device s := by
  refine ⟨.wake i, ?_, fun _ => ?_⟩
  · simp [System.advances, hi]
  · simp [PoolAction.answered, poolStep, System.wake, hi]

theorem canAdvance_of_notifying {i : T} {p : P} {signal : Signal} {ofRelease : Bool}
    (hi : s.control i = .notifying p signal ofRelease) : CanAdvance device s := by
  have hnotify : ∃ chosen, (s.notify i chosen).isSome = true := by
    cases signal with
    | nothing => exact ⟨none, by simp [System.notify, hi]⟩
    | all => exact ⟨none, by simp [System.notify, hi]⟩
    | one =>
        by_cases hw : ∃ w, s.control w = .waiting p
        · obtain ⟨w, hw⟩ := hw
          exact ⟨some w, by simp [System.notify, System.notifyOne, hi, hw]⟩
        · exact ⟨none, by simp [System.notify, System.notifyOne, hi, not_exists.mp hw]⟩
  obtain ⟨chosen, hsome⟩ := hnotify
  exact ⟨.notify i chosen, rfl, fun _ => hsome⟩

theorem canAdvance_of_releasing (h : Releasing s) {i : T} (hi : s.control i = .releasing) :
    CanAdvance device s := by
  obtain ⟨l, hl, rfl, p, usable, hpool, husable⟩ := h.exists_lease hi
  refine ⟨.releaseLocked l, rfl, fun _ => ?_⟩
  simp [PoolAction.answered, poolStep, System.releaseLocked, hl, hi, hpool, husable]

/-- A lease can be given back by a thread that runs. -/
theorem canAdvance_of_lease (h : Releasing s) {l : Lease P T} (hl : l ∈ s.leases)
    (hrunning : s.control l.thread = .running) : CanAdvance device s := by
  have huse : s.CanUse l := ⟨hl, h.usable_eq_none hl hrunning, hrunning⟩
  cases hpool : l.pool with
  | none =>
      refine ⟨.destroyMoved l, rfl, fun _ => ?_⟩
      simp [PoolAction.answered, poolStep, System.destroyMoved, huse, hpool]
  | some p =>
      refine ⟨.restore l [], rfl, fun answers => ?_⟩
      rw [PoolAction.answered, poolStep, System.restore, if_pos huse, hpool, Option.bind_some]
      split
      · have hspec := ConnectionPool.restore_spec ⟨answers, s.log, (s.pools p).connection l.index⟩
        cases hrun : ConnectionPool.restore ⟨answers, s.log, (s.pools p).connection l.index⟩ with
        | ok usable env =>
            dsimp only
            rw [hrun]
            rfl
        | error e env => exact (hspec.error hrun).elim
      · rfl

/-- If all threads run or wait, a pool on which one waits has a lease, and the
thread that holds it runs. -/
theorem exists_holder (hs : (poolMachine device).Reachable s)
    (hcontrol : ∀ j, s.control j = .running ∨ ∃ q, s.control j = .waiting q) {i : T} {p : P}
    (hi : s.control i = .waiting p) :
    ∃ l ∈ s.leases, s.control l.thread = .running := by
  obtain ⟨hcounted, hawake, -⟩ := sync_of_reachable hs
  have hwaiting : 0 < s.waiting p := by
    refine tally_pos_iff.mpr ⟨i, ?_⟩
    rw [hi]
    exact decide_eq_true rfl
  have hnotified : s.notified p = 0 := by
    refine tally_eq_zero_iff.mpr fun j => ?_
    obtain hj | ⟨q, hj⟩ := hcontrol j <;> rw [hj] <;> rfl
  have hissue : ∀ signal, s.toIssue p signal = 0 := by
    refine fun signal => tally_eq_zero_iff.mpr fun j => ?_
    obtain hj | ⟨q, hj⟩ := hcontrol j <;> rw [hj] <;> rfl
  -- Nobody is to be dismissed, so the pool is open and has connections, all leased.
  have hopen : ¬ ((s.pools p).closed = true ∨ (s.pools p).live = 0) := by
    intro hdismissed
    have := (hawake p).dismissed hwaiting hdismissed
    rw [hissue] at this
    omega
  obtain ⟨hclosed, hlive⟩ := not_or.mp hopen
  have hserved := (hawake p).served hwaiting (by simpa using hclosed) hlive
  rw [hissue, hnotified] at hserved
  have hpart : (s.pools p).live = (s.pools p).free.length + (s.view p).held.length :=
    (partition_of_reachable hs p).live
  obtain ⟨l, hl⟩ := List.exists_mem_of_length_pos (l := (s.view p).held) (by omega)
  obtain ⟨hmem, hpool⟩ := List.mem_filter.mp hl
  refine ⟨l, hmem, ?_⟩
  obtain hrunning | ⟨q, hblocked⟩ := hcontrol l.thread
  · exact hrunning
  · have hnone := hcounted.no_lease ⟨q, .inl hblocked⟩ hmem rfl
    simp [hnone] at hpool

/-- Until the threads are out of the pools, one of them can advance. -/
theorem atRest_or_canAdvance (hs : (poolMachine device).Reachable s) :
    s.AtRest ∨ CanAdvance device s := by
  have hreleasing := releasing_of_reachable hs
  by_cases hcontrol : ∀ j, s.control j = .running ∨ ∃ q, s.control j = .waiting q
  · by_cases hwaiting : ∃ i p, s.control i = .waiting p
    · obtain ⟨i, p, hi⟩ := hwaiting
      obtain ⟨l, hl, hrunning⟩ := exists_holder hs hcontrol hi
      exact .inr (canAdvance_of_lease hreleasing hl hrunning)
    · have hrunning : ∀ i, s.control i = .running := by
        intro i
        exact (hcontrol i).resolve_right fun ⟨p, hp⟩ => hwaiting ⟨i, p, hp⟩
      cases hleases : s.leases with
      | nil => exact .inl ⟨hleases, hrunning⟩
      | cons l rest =>
          exact .inr (canAdvance_of_lease hreleasing (by simp [hleases]) (hrunning l.thread))
  · obtain ⟨j, hj⟩ := not_forall.mp hcontrol
    right
    cases hc : s.control j with
    | running => exact absurd (.inl hc) hj
    | waiting q => exact absurd (.inr ⟨q, hc⟩) hj
    | notified q => exact canAdvance_of_notified hc
    | releasing => exact canAdvance_of_releasing hreleasing hc
    | notifying q signal ofRelease => exact canAdvance_of_notifying hc

/-! ### Runs -/

/-- Once no thread starts anything new, whatever the verbs answer, the hardware
does and `wait()` returns without a reason: the steps of the destructors, and the
returns of notified threads, are at most `work`, and one of them is possible until
no thread is in `acquire()` and no lease is left. Then all connections that are
alive are free again. -/
theorem pools_come_to_rest {device : P → RdmaDevice} {s t : System P T}
    (hs : (poolMachine device).Reachable s) {actions : List (PoolAction P T)}
    (hwinds : ∀ a ∈ actions, a.windsUp = true)
    (hrun : (poolMachine device).exec s actions = some t) :
    (poolMachine device).countSteps System.advances s actions + t.work ≤ s.work ∧
      (CanAdvance device t ∨ t.leases = [] ∧
        (∀ i, t.control i = .running ∧ t.leasesHeld i = 0) ∧
        ∀ p, (t.pools p).free.length = (t.pools p).live) := by
  have ht := Machine.reachableWhere_of_exec hs (fun _ _ _ => trivial) hrun
  constructor
  · refine Machine.countSteps_add_le ?_ hwinds hrun
    intro s a t hwind hstep
    exact (poolStep_lease hstep).work_le hwind
  · obtain ⟨hleases, hrunning⟩ | hadvance := atRest_or_canAdvance ht
    · refine .inr ⟨hleases, ?_, ?_⟩
      · intro i
        have hheld := (sync_of_reachable ht).1.held i
        rw [hrunning i] at hheld
        simpa [System.leaseCount, hleases, Control.uncounting, hrunning i] using hheld
      · intro p
        have hpart : (t.pools p).live = _ := (partition_of_reachable ht p).live
        rw [hpart]
        simp [System.view, hleases]
    · exact .inl hadvance

/-- The thread that has the only connection gives it back, and one of those that
wait takes it. -/
def handoverRun {T : Type} (holder next : T) : List (PoolAction Unit T) :=
  let lease : Lease Unit T := ⟨some (), 0, false, holder, 0, none⟩
  [.restore lease [], .releaseLocked { lease with usable := some true },
    .notify holder (some next), .wake next]

theorem pools_come_to_rest_after_handoverRun :
    ∃ (device : Unit → RdmaDevice) (s t : System Unit (Fin 3)) (holder next last : Fin 3),
      s.control next = .waiting () ∧ s.control last = .waiting () ∧
      (poolMachine device).exec s (handoverRun holder next) = some t ∧
      t.control next = .running ∧ t.control last = .waiting () ∧
      4 + t.work ≤ s.work ∧ CanAdvance device t := by
  obtain ⟨s, hs, hlast⟩ := Machine.exists_reachable_of_exec (poolMachine fun _ => ⟨1, 0, 0⟩)
    waitingRun
    (fun s => s.control 1 = .waiting () ∧ s.control 2 = .waiting () ∧
      ((poolMachine fun _ => ⟨1, 0, 0⟩).exec s (handoverRun 0 1)).any
        (fun t => t.control 1 = .running ∧ t.control 2 = .waiting ()) = true ∧
      (poolMachine fun _ => ⟨1, 0, 0⟩).countSteps System.advances s (handoverRun 0 1) = 4)
    (System.ofPool_initial 1 [.success 16, .success 1, .success 0] (samplePool 1)
      ⟨[], sampleLog 1, ()⟩ rfl)
    (by decide)
  obtain ⟨hfirst, hsecond, hrun, hcount⟩ := of_decide_eq_true hlast
  obtain ⟨t, ht, hend⟩ := (Option.any_eq_true _ _).mp hrun
  obtain ⟨htaken, hstill⟩ := of_decide_eq_true hend
  obtain ⟨hwork, hnext⟩ := pools_come_to_rest hs (by decide) ht
  rw [hcount] at hwork
  refine ⟨_, s, t, 0, 1, 2, hfirst, hsecond, ht, htaken, hstill, hwork, hnext.resolve_right ?_⟩
  rintro ⟨-, hrunning, -⟩
  rw [(hrunning 2).1] at hstill
  cases hstill

end HipObject
