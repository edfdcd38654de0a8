import HipObject.Rdma.PoolInvariant
import HipObject.Verification.Tally

/-!
# What a step does to the waiters

The threads of the pool machine are counted by where they are: blocked on a
pool, notified, or about to notify. `SyncStep` lists what a step can do as far as
waiting is concerned, and `poolStep_sync` says that it can do nothing else.

The first consequence is that `t_leasesHeld` counts what it should, so that a
thread that holds a lease never waits.
-/

namespace HipObject

open Verification

variable {P T : Type}

/-! ### Counting threads by where they are -/

section Counting

variable [DecidableEq P]

def Control.isWaiting (p : P) : Control P → Bool
  | .waiting q => q = p
  | _ => false

def Control.isNotified (p : P) : Control P → Bool
  | .notified q => q = p
  | _ => false

def Control.willSignal (p : P) (signal : Signal) : Control P → Bool
  | .notifying q signal' _ => q = p ∧ signal' = signal
  | _ => false

/-- In the part of `~Lease` after the release's critical section, where the
lease is gone but still counted. -/
def Control.uncounting : Control P → Bool
  | .notifying _ _ ofRelease => ofRelease
  | _ => false

variable [Fintype T]

/-- The threads blocked on a pool and not notified. -/
def System.waiting (s : System P T) (p : P) : Nat := tally (Control.isWaiting p) s.control

/-- The threads notified on a pool and not running yet. -/
def System.notified (s : System P T) (p : P) : Nat := tally (Control.isNotified p) s.control

/-- The notifications of a kind still to be issued on a pool. -/
def System.toIssue (s : System P T) (p : P) (signal : Signal) : Nat :=
  tally (Control.willSignal p signal) s.control

end Counting

/-- The leases a thread has to destroy. -/
def System.leaseCount [DecidableEq T] (s : System P T) (t : T) : Nat :=
  s.leases.countP fun l => l.thread = t ∧ l.pool.isSome

/-! ### What a step does to the waiters -/

variable [DecidableEq P] [DecidableEq T]

/-- At the point of `acquire()` where the mutex is held. -/
def AtDoor (s : System P T) (t : T) (p : P) : Prop :=
  s.control t = .running ∨ s.control t = .waiting p ∨ s.control t = .notified p

/-- A step, as far as waiting is concerned. -/
inductive SyncStep [Fintype T] (s t : System P T) : Prop
  | quiet (pools : ∀ p, (t.pools p).free = (s.pools p).free ∧
        (t.pools p).live = (s.pools p).live ∧ (t.pools p).closed = (s.pools p).closed)
      (control : t.control = s.control ∨ ∃ i, s.control i = .running ∧
        t.control = Function.update s.control i .releasing)
      (leasesHeld : t.leasesHeld = s.leasesHeld) (count : ∀ i, t.leaseCount i = s.leaseCount i)
      (history : t.history = s.history ∨
        ∃ p serial wc result, t.history = .polled p serial wc result :: s.history)
  | acquire {i : T} {p : P} (door : AtDoor s i p) (eq : t = s.acquireLocked i p)
  | giveBack {l : Lease P T} (eq : s.releaseLocked l = some t)
  | notify {i : T} {chosen : Option T} (eq : s.notify i chosen = some t)
  | close {i : T} {p : P} (eq : s.close i p = some t)

section Steps

variable {s t : System P T} {l l' : Lease P T} {p : P}

theorem leaseCount_erase (hl : l ∈ s.leases) (leases : List (Lease P T))
    (hleases : t.leases = leases ++ s.leases.erase l) (i : T) :
    t.leaseCount i + (if l.thread = i ∧ l.pool.isSome then 1 else 0) =
      leases.countP (fun l => l.thread = i ∧ l.pool.isSome) + s.leaseCount i := by
  have h : s.leaseCount i = _ :=
    (List.perm_cons_erase hl).countP_eq fun l : Lease P T => l.thread = i ∧ l.pool.isSome
  rw [System.leaseCount, hleases, List.countP_append, h, List.countP_cons]
  simp only [decide_eq_true_eq]
  omega

variable [Fintype T]

/-- What a lease's holder does to it does not concern any waiter. -/
theorem SyncStep.of_update {slot : Option RcConnection} {log : List VerbsCall}
    {events : List (Event P T)} {control : T → Control P} (hl : l ∈ s.leases)
    (hpool : l'.pool = l.pool) (hthread : l'.thread = l.thread)
    (hevents : events = [] ∨ ∃ p serial wc result, events = [.polled p serial wc result])
    (hcontrol : control = s.control ∨ ∃ i, s.control i = .running ∧
      control = Function.update s.control i .releasing) :
    SyncStep s { s.update p l l' slot log events with control := control } := by
  refine .quiet ?_ hcontrol rfl ?_ ?_
  · intro q
    by_cases hq : q = p
    · subst hq
      simp [System.update]
    · simp [System.update, Function.update_of_ne hq]
  · intro i
    have h := leaseCount_erase (t := { s.update p l l' slot log events with control := control })
      hl [l'] rfl i
    rw [List.countP_singleton, hpool, hthread, Nat.add_comm] at h
    simpa using h
  · obtain rfl | ⟨q, serial, wc, result, rfl⟩ := hevents
    · exact .inl rfl
    · exact .inr ⟨q, serial, wc, result, rfl⟩

theorem poolStep_sync {device : P → RdmaDevice} {a : PoolAction P T}
    (h : poolStep device s a = some t) : SyncStep s t := by
  cases a with
  | acquire i p =>
      simp only [poolStep, System.acquire, Option.ite_none_right_eq_some, Option.some.injEq] at h
      exact .acquire (.inl h.1) h.2.symm
  | wake i =>
      simp only [poolStep, System.wake] at h
      split at h
      · rename_i p hwaiting
        exact .acquire (.inr (.inl hwaiting)) (Option.some.inj h).symm
      · rename_i p hnotified
        exact .acquire (.inr (.inr hnotified)) (Option.some.inj h).symm
      · cases h
  | move l =>
      simp only [poolStep, System.move, Option.ite_none_right_eq_some, Option.some.injEq] at h
      obtain ⟨-, rfl⟩ := h
      exact .quiet (fun _ => ⟨rfl, rfl, rfl⟩) (.inl rfl) rfl (by simp [System.leaseCount])
        (.inl rfl)
  | destroyMoved l =>
      simp only [poolStep, System.destroyMoved, Option.ite_none_right_eq_some,
        Option.some.injEq] at h
      obtain ⟨⟨huse, hmoved⟩, rfl⟩ := h
      refine .quiet (fun _ => ⟨rfl, rfl, rfl⟩) (.inl rfl) rfl ?_ (.inl rfl)
      intro i
      have h := leaseCount_erase (t := { s with leases := s.leases.erase l }) huse.1 [] rfl i
      simpa [hmoved] using h
  | connect l peerToken answers =>
      simp only [poolStep, System.connect, Option.ite_none_right_eq_some] at h
      obtain ⟨huse, h⟩ := h
      obtain ⟨⟨p, conn⟩, hconn, rfl⟩ := Option.map_eq_some_iff.mp h
      exact .of_update huse.1 rfl rfl (.inl rfl) (.inl rfl)
  | poll l expectedOpcode answers =>
      simp only [poolStep, System.poll, Option.ite_none_right_eq_some] at h
      obtain ⟨huse, h⟩ := h
      obtain ⟨⟨p, conn⟩, hconn, rfl⟩ := Option.map_eq_some_iff.mp h
      dsimp only
      split
      · exact .of_update huse.1 rfl rfl (.inr ⟨_, _, _, _, rfl⟩) (.inl rfl)
      · exact .of_update huse.1 rfl rfl (.inl rfl) (.inl rfl)
      · exact .of_update huse.1 rfl rfl (.inl rfl) (.inl rfl)
  | complete l success opcode =>
      simp only [poolStep, System.complete, Option.ite_none_right_eq_some] at h
      obtain ⟨huse, h⟩ := h
      obtain ⟨⟨p, conn⟩, hconn, h⟩ := Option.bind_eq_some_iff.mp h
      simp only [Option.ite_none_right_eq_some, Option.some.injEq] at h
      obtain ⟨-, rfl⟩ := h
      exact .of_update huse.1 rfl rfl (.inl rfl) (.inl rfl)
  | restore l answers =>
      simp only [poolStep, System.restore, Option.ite_none_right_eq_some] at h
      obtain ⟨huse, h⟩ := h
      obtain ⟨p, hp, h⟩ := Option.bind_eq_some_iff.mp h
      split at h
      · split at h
        · cases h
          exact .of_update huse.1 rfl rfl (.inl rfl) (.inr ⟨_, huse.2.2, rfl⟩)
        · cases h
      · cases h
        exact .of_update huse.1 rfl rfl (.inl rfl) (.inr ⟨_, huse.2.2, rfl⟩)
  | releaseLocked l => exact .giveBack h
  | notify i chosen => exact .notify h
  | close i p => exact .close h

omit [Fintype T] in
/-- `acquire()` waits, is refused, or takes the last free index. -/
theorem acquireLocked_cases (s : System P T) (i : T) (p : P) :
    (s.leasesHeld i = 0 ∧ (s.pools p).mustWait = true ∧
      s.acquireLocked i p = { s with control := Function.update s.control i (.waiting p) }) ∨
    (∃ e, (s.pools p).takeFree = .error e ∧
      s.acquireLocked i p = { s with
        control := Function.update s.control i .running
        history := .refused i p e :: s.history }) ∨
    (∃ index pool, (s.pools p).takeFree = .ok (index, pool) ∧
      s.acquireLocked i p = { s with
        pools := Function.update s.pools p pool
        leases := ⟨some p, index, false, i, s.nextSerial, none⟩ :: s.leases
        leasesHeld := Function.update s.leasesHeld i (s.leasesHeld i + 1)
        control := Function.update s.control i .running
        nextSerial := s.nextSerial + 1
        history := .leased i p s.nextSerial ((s.pools p).connection index) :: s.history }) := by
  unfold System.acquireLocked
  split
  · rename_i hwait
    exact .inl ⟨hwait.1, hwait.2, rfl⟩
  · split
    · rename_i e htake
      exact .inr (.inl ⟨e, htake, rfl⟩)
    · rename_i index pool htake
      exact .inr (.inr ⟨index, pool, htake, rfl⟩)

omit [Fintype T] in
theorem releaseLocked_cases (h : s.releaseLocked l = some t) :
    ∃ p usable signal, l ∈ s.leases ∧ s.control l.thread = .releasing ∧ l.pool = some p ∧
      signal = (if usable then .one
        else if ((s.pools p).giveBack l.index usable).live = 0 then .all else .nothing) ∧
      t = { s with
        pools := Function.update s.pools p ((s.pools p).giveBack l.index usable)
        leases := s.leases.erase l
        control := Function.update s.control l.thread (.notifying p signal true) } := by
  unfold System.releaseLocked at h
  split at h
  · rename_i huse
    obtain ⟨p, hp, h⟩ := Option.bind_eq_some_iff.mp h
    obtain ⟨usable, husable, rfl⟩ := Option.map_eq_some_iff.mp h
    exact ⟨p, usable, _, huse.1, huse.2, hp, rfl, rfl⟩
  · cases h

/-- Who is notified by a signal on a pool. -/
def Signalled (p : P) (signal : Signal) (before after : T → Control P) : Prop :=
  match signal with
  | .nothing => after = before
  | .one => (∃ w, before w = .waiting p ∧ after = Function.update before w (.notified p)) ∨
      (∀ w, before w ≠ .waiting p) ∧ after = before
  | .all => after = System.notifyAll before p

theorem notify_cases {i : T} {chosen : Option T} (h : s.notify i chosen = some t) :
    ∃ p signal ofRelease control, s.control i = .notifying p signal ofRelease ∧
      Signalled p signal s.control control ∧
      t = if ofRelease then
          { s with
            control := Function.update control i .running
            leasesHeld := Function.update s.leasesHeld i (s.leasesHeld i - 1) }
        else
          { s with
            control := Function.update control i .running
            history := .closeReturned p :: s.history } := by
  unfold System.notify at h
  split at h
  · rename_i p signal ofRelease hi
    obtain ⟨control, hsignalled, rfl⟩ := Option.map_eq_some_iff.mp h
    refine ⟨p, signal, ofRelease, control, hi, ?_, rfl⟩
    cases signal with
    | nothing => exact (Option.some.inj hsignalled).symm
    | all => exact (Option.some.inj hsignalled).symm
    | one =>
        cases chosen with
        | some w =>
            simp only [System.notifyOne, Option.ite_none_right_eq_some, Option.some.injEq]
              at hsignalled
            exact .inl ⟨w, hsignalled.1, hsignalled.2.symm⟩
        | none =>
            simp only [System.notifyOne, Option.ite_none_right_eq_some, Option.some.injEq]
              at hsignalled
            exact .inr ⟨hsignalled.1, hsignalled.2.symm⟩
  · cases h

omit [Fintype T] in
/-- A signal only moves threads from waiting to notified. -/
theorem Signalled.control_eq {signal : Signal} {before after : T → Control P}
    (h : Signalled p signal before after) (j : T) :
    after j = before j ∨ before j = .waiting p ∧ after j = .notified p := by
  cases signal with
  | nothing =>
      rw [show after = before from h]
      exact .inl rfl
  | one =>
      obtain ⟨w, hw, rfl⟩ | ⟨-, rfl⟩ := h
      · by_cases hj : j = w
        · subst hj
          exact .inr ⟨hw, by simp⟩
        · exact .inl (by simp [Function.update_of_ne hj])
      · exact .inl rfl
  | all =>
      rw [show after = System.notifyAll before p from h, System.notifyAll]
      by_cases hj : before j = .waiting p
      · exact .inr ⟨hj, if_pos hj⟩
      · exact .inl (if_neg hj)

end Steps

/-! ### A thread that waits holds nothing -/

/-- `t_leasesHeld` counts the thread's leases, and the one whose destructor has
not come to the end; a blocked thread has none. -/
structure Counted (s : System P T) : Prop where
  held : ∀ i, s.leasesHeld i = s.leaseCount i + (s.control i).uncounting.toNat
  blocked : ∀ i p, s.control i = .waiting p ∨ s.control i = .notified p → s.leasesHeld i = 0

namespace Counted

variable {s t : System P T}

omit [DecidableEq P] in
/-- Only the thread that moves changes its count, and it isn't blocked after
that unless it has none. -/
theorem of_thread (h : Counted s) (i : T)
    (others : ∀ j, j ≠ i → t.leasesHeld j = s.leasesHeld j ∧ t.leaseCount j = s.leaseCount j ∧
      (t.control j = s.control j ∨
        ∃ p, s.control j = .waiting p ∧ t.control j = .notified p))
    (held : t.leasesHeld i = t.leaseCount i + (t.control i).uncounting.toNat)
    (blocked : ∀ p, t.control i = .waiting p ∨ t.control i = .notified p → t.leasesHeld i = 0) :
    Counted t := by
  refine ⟨?_, ?_⟩
  · intro j
    by_cases hj : j = i
    · rw [hj]
      exact held
    · obtain ⟨hheld, hcount, hcontrol⟩ := others j hj
      rw [hheld, hcount, h.held j]
      obtain hsame | ⟨p, hwaiting, hnotified⟩ := hcontrol
      · rw [hsame]
      · rw [hwaiting, hnotified]
        rfl
  · intro j p hblocked
    by_cases hj : j = i
    · rw [hj] at hblocked ⊢
      exact blocked p hblocked
    · obtain ⟨hheld, -, hcontrol⟩ := others j hj
      rw [hheld]
      obtain hsame | ⟨q, hwaiting, -⟩ := hcontrol
      · exact h.blocked j p (hsame ▸ hblocked)
      · exact h.blocked j q (.inl hwaiting)

theorem acquire (h : Counted s) {i : T} {p : P} (door : AtDoor s i p) :
    Counted (s.acquireLocked i p) := by
  have hi : (s.control i).uncounting = false := by
    obtain hc | hc | hc := door <;> rw [hc] <;> rfl
  have hheld := h.held i
  rw [hi] at hheld
  obtain ⟨hzero, -, heq⟩ | ⟨e, -, heq⟩ | ⟨index, pool, -, heq⟩ := acquireLocked_cases s i p
  · rw [heq]
    refine h.of_thread i (fun j hj => ⟨rfl, rfl, .inl (by simp [hj])⟩) ?_ fun _ _ => hzero
    simpa [Control.uncounting, System.leaseCount] using hheld
  · rw [heq]
    refine h.of_thread i (fun j hj => ⟨rfl, rfl, .inl (by simp [hj])⟩) ?_ (by simp)
    simpa [Control.uncounting, System.leaseCount] using hheld
  · rw [heq]
    refine h.of_thread i ?_ ?_ (by simp)
    · intro j hj
      exact ⟨by simp [hj], by simp [System.leaseCount, Ne.symm hj], .inl (by simp [hj])⟩
    · simpa [Control.uncounting, System.leaseCount] using hheld

theorem giveBack (h : Counted s) {l : Lease P T} (heq : s.releaseLocked l = some t) :
    Counted t := by
  obtain ⟨p, usable, signal, hl, hi, hp, -, rfl⟩ := releaseLocked_cases heq
  have hheld := h.held l.thread
  rw [hi] at hheld
  have hcount := fun j => leaseCount_erase (s := s) (t := { s with leases := s.leases.erase l })
    hl [] rfl j
  refine h.of_thread l.thread ?_ ?_ (by simp)
  · intro j hj
    refine ⟨rfl, ?_, .inl (by simp [hj])⟩
    simpa [Ne.symm hj, System.leaseCount] using hcount j
  · have hcount := hcount l.thread
    simp only [hp, Option.isSome_some, and_self, if_true, List.countP_nil, Nat.zero_add] at hcount
    simp only [Function.update_self, Control.uncounting, Bool.toNat_true] at hheld ⊢
    exact (hheld.trans (by simp)).trans hcount.symm

variable [Fintype T]

theorem notify (h : Counted s) {i : T} {chosen : Option T} (heq : s.notify i chosen = some t) :
    Counted t := by
  obtain ⟨p, signal, ofRelease, control, hi, hsignal, rfl⟩ := notify_cases heq
  have hheld := h.held i
  rw [hi] at hheld
  have hcontrol : ∀ j, j ≠ i → Function.update control i .running j = s.control j ∨
      ∃ q, s.control j = .waiting q ∧ Function.update control i .running j = .notified q := by
    intro j hj
    rw [Function.update_of_ne hj]
    exact (hsignal.control_eq j).imp id fun h => ⟨p, h⟩
  cases ofRelease with
  | true =>
      refine h.of_thread i (fun j hj => ⟨by simp [hj], rfl, hcontrol j hj⟩) ?_ (by simp)
      simp only [if_true, Function.update_self, hheld, Control.uncounting, Bool.toNat_true,
        Bool.toNat_false]
      rfl
  | false =>
      refine h.of_thread i (fun j hj => ⟨rfl, rfl, hcontrol j hj⟩) ?_ (by simp)
      simpa [Control.uncounting, System.leaseCount] using hheld

theorem step (h : Counted s) (hstep : SyncStep s t) : Counted t := by
  cases hstep with
  | quiet pools control leasesHeld count history =>
      obtain hcontrol | ⟨i, hi, hcontrol⟩ := control
      · refine ⟨fun j => ?_, fun j p hj => ?_⟩
        · rw [leasesHeld, count, hcontrol]
          exact h.held j
        · rw [leasesHeld]
          exact h.blocked j p (hcontrol ▸ hj)
      · refine h.of_thread i ?_ ?_ (by simp [hcontrol])
        · intro j hj
          exact ⟨by rw [leasesHeld], count j, .inl (by rw [hcontrol, Function.update_of_ne hj])⟩
        · rw [leasesHeld, count, hcontrol, h.held i, hi]
          simp [Control.uncounting]
  | acquire door eq =>
      rw [eq]
      exact h.acquire door
  | giveBack eq => exact h.giveBack eq
  | notify eq => exact h.notify eq
  | @close i p eq =>
      simp only [System.close, Option.ite_none_right_eq_some, Option.some.injEq] at eq
      obtain ⟨hi, rfl⟩ := eq
      refine h.of_thread i (fun j hj => ⟨rfl, rfl, .inl (by simp [hj])⟩) ?_ (by simp)
      have hheld := h.held i
      rw [hi] at hheld
      simpa [Control.uncounting, System.leaseCount] using hheld

end Counted

end HipObject
