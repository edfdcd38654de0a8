import HipObject.Rdma.PoolSync

/-!
# Waiting for a connection

`acquire()` waits on the pool's condition variable; `release()` and `close()`
notify after they have unlocked the mutex. A waiter must not be left behind: as
long as somebody waits un-notified on an open pool, each free connection has a
notification that was sent and not acted on yet, or is still to be sent. When the
pool is closed, or its last connection is dropped, a `notify_all` is on its way.

A waiter that is dismissed takes no connection, so on a closed pool the free
connections can outnumber the notifications; there the `notify_all` is what
wakes the others up.
-/

namespace HipObject

open Verification

variable {P T : Type} [DecidableEq P] [DecidableEq T]

/-! ### Nobody is left behind -/

section Awake

variable [Fintype T] {s t : System P T} {p q : P}

/-- What a pool owes its waiters. -/
structure Awake (s : System P T) (p : P) : Prop where
  /-- On a pool that can serve them, a notification for each free connection. -/
  served : 0 < s.waiting p → (s.pools p).closed = false → (s.pools p).live ≠ 0 →
    (s.pools p).free.length ≤ s.notified p + s.toIssue p .one
  /-- On a pool that can't, a notification for all of them. -/
  dismissed : 0 < s.waiting p → (s.pools p).closed = true ∨ (s.pools p).live = 0 →
    0 < s.toIssue p .all

/-- The four counts of a pool, when one thread goes from one place to another. -/
theorem counts_update {i : T} {c : Control P}
    (hcontrol : t.control = Function.update s.control i c) (q : P) :
    t.waiting q + ((s.control i).isWaiting q).toNat = s.waiting q + (c.isWaiting q).toNat ∧
    t.notified q + ((s.control i).isNotified q).toNat = s.notified q + (c.isNotified q).toNat ∧
    ∀ signal, t.toIssue q signal + ((s.control i).willSignal q signal).toNat =
      s.toIssue q signal + (c.willSignal q signal).toNat := by
  simp only [System.waiting, System.notified, System.toIssue, hcontrol]
  exact ⟨tally_update _ _ _ _, tally_update _ _ _ _, fun _ => tally_update _ _ _ _⟩

/-- Where a thread can be without concerning a pool. -/
def Control.Elsewhere (q : P) (c : Control P) : Prop :=
  c.isWaiting q = false ∧ c.isNotified q = false ∧
    ∀ signal, signal ≠ .nothing → c.willSignal q signal = false

omit [DecidableEq T] [Fintype T] in
theorem Control.elsewhere_running (q : P) : (Control.running : Control P).Elsewhere q :=
  ⟨rfl, rfl, fun _ _ => rfl⟩

/-- A pool is left alone by a thread that is elsewhere before and after. -/
theorem Awake.elsewhere (h : Awake s q) {i : T} {c : Control P}
    (hcontrol : t.control = Function.update s.control i c) (hpool : t.pools q = s.pools q)
    (before : (s.control i).Elsewhere q) (after : c.Elsewhere q) : Awake t q := by
  obtain ⟨hwaiting, hnotified, hissue⟩ := counts_update hcontrol q
  have hone := hissue .one
  have hall := hissue .all
  rw [before.1, after.1] at hwaiting
  rw [before.2.1, after.2.1] at hnotified
  rw [before.2.2 .one nofun, after.2.2 .one nofun] at hone
  rw [before.2.2 .all nofun, after.2.2 .all nofun] at hall
  simp only [Bool.toNat_false, Nat.add_zero] at hwaiting hnotified hone hall
  refine ⟨?_, ?_⟩
  · rw [hpool, hwaiting, hnotified, hone]
    exact h.served
  · rw [hpool, hwaiting, hall]
    exact h.dismissed

omit [DecidableEq T] [Fintype T] in
theorem AtDoor.elsewhere {i : T} (door : AtDoor s i p) (hq : p ≠ q) :
    (s.control i).Elsewhere q := by
  obtain h | h | h := door <;> rw [h] <;>
    simp [Control.Elsewhere, Control.isWaiting, Control.isNotified, Control.willSignal, hq]

theorem Awake.acquire (h : Awake s q) {i : T} (door : AtDoor s i p) :
    Awake (s.acquireLocked i p) q := by
  have helse : ∀ c : Control P, c = .waiting p ∨ c = .running → p ≠ q → c.Elsewhere q := by
    rintro c (rfl | rfl) hq <;>
      simp [Control.Elsewhere, Control.isWaiting, Control.isNotified, Control.willSignal, hq]
  -- At the door a thread may wait or be notified, and has nothing to issue.
  have hdoor : ((s.control i).isNotified p).toNat ≤ 1 ∧
      ∀ signal, (s.control i).willSignal p signal = false := by
    refine ⟨Bool.toNat_le _, ?_⟩
    obtain h | h | h := door <;> rw [h] <;> simp [Control.willSignal]
  obtain ⟨-, hwait, heq⟩ | ⟨e, htake, heq⟩ | ⟨index, pool, htake, heq⟩ :=
    acquireLocked_cases s i p
  · by_cases hq : p = q
    · subst hq
      rw [heq]
      simp only [ConnectionPool.mustWait, Bool.and_eq_true, Bool.not_eq_true', bne_iff_ne,
        List.isEmpty_iff] at hwait
      obtain ⟨⟨hopen, hfree⟩, hlive⟩ := hwait
      exact ⟨by simp [hfree], by simp [hopen, hlive]⟩
    · exact h.elsewhere (by rw [heq]) (by rw [heq]) (door.elsewhere hq) (helse _ (.inl rfl) hq)
  · by_cases hq : p = q
    · subst hq
      obtain ⟨hwaiting, hnotified, hissue⟩ :=
        counts_update (t := s.acquireLocked i p) (by rw [heq]) p
      have hall := hissue .all
      have hpool : (s.acquireLocked i p).pools = s.pools := by rw [heq]
      have hrunning := Control.elsewhere_running p
      rw [hrunning.1] at hwaiting
      rw [hdoor.2, hrunning.2.2 .all nofun] at hall
      simp only [Bool.toNat_false] at hwaiting hall
      refine ⟨?_, ?_⟩
      · -- An open pool refuses only when there is nothing free.
        intro _ hopen _
        rw [hpool] at hopen ⊢
        simp only [ConnectionPool.takeFree, hopen, Bool.false_eq_true, if_false] at htake
        split at htake
        · rename_i hlast
          simp [List.getLast?_eq_none_iff.mp hlast]
        · cases htake
      · intro hpos hshut
        rw [hpool] at hshut
        have := h.dismissed (by omega) hshut
        omega
    · exact h.elsewhere (by rw [heq]) (by rw [heq]) (door.elsewhere hq) (helse _ (.inr rfl) hq)
  · by_cases hq : p = q
    · subst hq
      obtain ⟨hwaiting, hnotified, hissue⟩ :=
        counts_update (t := s.acquireLocked i p) (by rw [heq]) p
      have hone := hissue .one
      have hall := hissue .all
      obtain ⟨hopen, hfree, hpool⟩ := ConnectionPool.takeFree_ok htake
      have hlength : (s.pools p).free.length = pool.free.length + 1 := by
        rw [hfree, hpool]
        simp
      have hnow : (s.acquireLocked i p).pools p = pool := by rw [heq]; simp
      have hrunning := Control.elsewhere_running p
      rw [hrunning.1] at hwaiting
      rw [hrunning.2.1] at hnotified
      rw [hdoor.2, hrunning.2.2 .one nofun] at hone
      rw [hdoor.2, hrunning.2.2 .all nofun] at hall
      simp only [Bool.toNat_false] at hwaiting hnotified hone hall
      refine ⟨?_, ?_⟩
      · -- The free connection that is taken makes up for the notification that is used.
        intro hpos _ hlive
        rw [hnow] at hlive ⊢
        rw [hpool] at hlive
        have := h.served (by omega) hopen hlive
        have := hdoor.1
        omega
      · intro hpos hshut
        rw [hnow, hpool] at hshut
        have := h.dismissed (by omega) hshut
        omega
    · exact h.elsewhere (by rw [heq]) (by rw [heq]; simp [Ne.symm hq]) (door.elsewhere hq)
        (helse _ (.inr rfl) hq)

theorem Awake.giveBack (h : Awake s q) {l : Lease P T} (heq : s.releaseLocked l = some t) :
    Awake t q := by
  obtain ⟨p, usable, signal, -, hi, -, hsignal, ht⟩ := releaseLocked_cases heq
  by_cases hq : p = q
  · subst hq
    have hpool : t.pools p = (s.pools p).giveBack l.index usable := by
      rw [ht]
      simp
    obtain ⟨hwaiting, hnotified, hissue⟩ := counts_update (s := s) (t := t) (by rw [ht]) p
    have hone := hissue .one
    have hall := hissue .all
    simp only [hi, Control.isWaiting, Control.isNotified, Control.willSignal, Bool.toNat_false,
      true_and] at hwaiting hnotified hone hall
    cases usable with
    | true =>
        -- One more connection is free, and one more notification is to be issued.
        simp only [if_true] at hsignal
        subst hsignal
        simp only [decide_true, Bool.toNat_true] at hone
        refine ⟨?_, ?_⟩
        · intro hpos hopen hlive
          rw [hpool] at hopen hlive ⊢
          have := h.served (by omega) hopen hlive
          simp only [ConnectionPool.giveBack, if_true, List.length_append, List.length_singleton]
          omega
        · intro hpos hshut
          rw [hpool] at hshut
          have := h.dismissed (by omega) hshut
          omega
    | false =>
        simp only [Bool.false_eq_true, if_false] at hsignal
        refine ⟨?_, ?_⟩
        · intro hpos hopen hlive
          rw [hpool] at hopen hlive ⊢
          simp only [ConnectionPool.giveBack, Bool.false_eq_true, if_false] at hopen hlive ⊢
          have := h.served (by omega) hopen (by omega)
          omega
        · intro hpos hshut
          rw [hpool, ConnectionPool.giveBack_closed] at hshut
          obtain hclosed | hlive := hshut
          · have := h.dismissed (by omega) (.inl hclosed)
            omega
          · rw [if_pos hlive] at hsignal
            subst hsignal
            simp only [decide_true, Bool.toNat_true] at hall
            omega
  · refine h.elsewhere (by rw [ht]) (by rw [ht]; simp [Ne.symm hq]) ?_ ?_
    · rw [hi]
      simp [Control.Elsewhere, Control.isWaiting, Control.isNotified, Control.willSignal]
    · simp [Control.Elsewhere, Control.isWaiting, Control.isNotified, Control.willSignal, hq]

theorem Awake.close (h : Awake s q) {i : T} (heq : s.close i p = some t) : Awake t q := by
  simp only [System.close, Option.ite_none_right_eq_some, Option.some.injEq] at heq
  obtain ⟨hi, rfl⟩ := heq
  by_cases hq : p = q
  · subst hq
    obtain ⟨-, -, hissue⟩ := counts_update (s := s) (t := { s with
      pools := Function.update s.pools p { s.pools p with closed := true }
      control := Function.update s.control i (.notifying p .all false) }) rfl p
    have hall := hissue .all
    simp only [hi, Control.willSignal, Bool.toNat_false, true_and, decide_true,
      Bool.toNat_true] at hall
    refine ⟨by simp, fun _ _ => by omega⟩
  · refine h.elsewhere rfl (by simp [Ne.symm hq]) ?_ ?_
    · rw [hi]
      simp [Control.Elsewhere, Control.isWaiting, Control.isNotified, Control.willSignal]
    · simp [Control.Elsewhere, Control.isWaiting, Control.isNotified, Control.willSignal, hq]

/-- What a signal does to the counts of any pool: nothing to what is still to
be issued, and nothing at all to other pools. -/
theorem Signalled.counts {signal : Signal} {control : T → Control P}
    (h : Signalled p signal s.control control) (hcontrol : t.control = control) (q : P) :
    (∀ signal, t.toIssue q signal = s.toIssue q signal) ∧
    (p ≠ q → t.waiting q = s.waiting q ∧ t.notified q = s.notified q) := by
  simp only [System.toIssue, System.waiting, System.notified, hcontrol]
  have hcongr : ∀ f : Control P → Bool, f (.waiting p) = f (.notified p) →
      tally f control = tally f s.control := by
    intro f hf
    refine tally_congr fun j => ?_
    obtain hsame | ⟨hwaiting, hnotified⟩ := h.control_eq j
    · rw [hsame]
    · rw [hwaiting, hnotified, hf]
  refine ⟨fun _ => hcongr _ rfl, fun hq => ⟨hcongr _ ?_, hcongr _ ?_⟩⟩
  · simp [Control.isWaiting, hq]
  · simp [Control.isNotified, hq]

theorem Awake.notify (h : Awake s q) {i : T} {chosen : Option T}
    (heq : s.notify i chosen = some t) : Awake t q := by
  obtain ⟨p, signal, ofRelease, control, hi, hsignal, ht⟩ := notify_cases heq
  have hpools : t.pools = s.pools := by
    rw [ht]
    split <;> rfl
  have hcontrol : t.control = Function.update control i .running := by
    rw [ht]
    split <;> rfl
  -- The state between the signal and the return of whoever issued it.
  obtain ⟨middle, hmiddle⟩ : ∃ m : System P T, m = { s with control := control } := ⟨_, rfl⟩
  have hmcontrol : middle.control = control := by rw [hmiddle]
  have hmpools : middle.pools = s.pools := by rw [hmiddle]
  have hmi : middle.control i = .notifying p signal ofRelease := by
    rw [hmcontrol]
    obtain hsame | ⟨hwaiting, -⟩ := hsignal.control_eq i
    · exact hsame.trans hi
    · rw [hi] at hwaiting
      cases hwaiting
  obtain ⟨hmissue, hmother⟩ := hsignal.counts hmcontrol q
  by_cases hq : p = q
  · subst hq
    obtain ⟨hwaiting, hnotified, hissue⟩ :=
      counts_update (s := middle) (t := t) (by rw [hcontrol, hmcontrol]) p
    have hone := hissue .one
    have hall := hissue .all
    simp only [hmi, hmissue, Control.isWaiting, Control.isNotified, Control.willSignal,
      Bool.toNat_false, true_and] at hwaiting hnotified hone hall
    -- Once nobody waits, nothing is owed.
    have hnobody : (∀ w, control w ≠ .waiting p) → Awake t p := by
      intro hnone
      have hzero : middle.waiting p = 0 := by
        refine tally_eq_zero_iff.mpr fun w => ?_
        rw [hmcontrol]
        cases hw : control w with
        | waiting r =>
            refine decide_eq_false ?_
            rintro rfl
            exact hnone w hw
        | _ => rfl
      exact ⟨fun hpos => by omega, fun hpos => by omega⟩
    cases signal with
    | nothing =>
        have hsame : middle.waiting p = s.waiting p ∧ middle.notified p = s.notified p := by
          rw [System.waiting, System.notified, hmcontrol, show control = s.control from hsignal]
          exact ⟨rfl, rfl⟩
        simp only [reduceCtorEq, decide_false, Bool.toNat_false] at hone hall
        refine ⟨?_, ?_⟩
        · rw [hpools]
          intro hpos hopen hlive
          have := h.served (by omega) hopen hlive
          omega
        · rw [hpools]
          intro hpos hshut
          have := h.dismissed (by omega) hshut
          omega
    | one =>
        obtain ⟨w, hw, hafter⟩ | ⟨hnone, hafter⟩ := hsignal
        · -- The waiter that is notified makes up for the notification.
          obtain ⟨hwait, hnote, -⟩ :=
            counts_update (s := s) (t := middle) (by rw [hmcontrol, hafter]) p
          simp only [hw, Control.isWaiting, Control.isNotified, Bool.toNat_false, decide_true,
            Bool.toNat_true] at hwait hnote
          simp only [reduceCtorEq, decide_false, decide_true, Bool.toNat_false,
            Bool.toNat_true] at hone hall
          refine ⟨?_, ?_⟩
          · rw [hpools]
            intro hpos hopen hlive
            have := h.served (by omega) hopen hlive
            omega
          · rw [hpools]
            intro hpos hshut
            have := h.dismissed (by omega) hshut
            omega
        · exact hnobody (by rw [hafter]; exact hnone)
    | all =>
        refine hnobody fun w => ?_
        rw [show control = System.notifyAll s.control p from hsignal, System.notifyAll]
        split
        · simp
        · assumption
  · obtain ⟨hwaiting, hnotified⟩ := hmother hq
    have hmiddle : Awake middle q := by
      refine ⟨?_, ?_⟩
      · rw [hmpools, hwaiting, hnotified, hmissue]
        exact h.served
      · rw [hmpools, hwaiting, hmissue]
        exact h.dismissed
    refine hmiddle.elsewhere (i := i) (by rw [hcontrol, hmcontrol]) (by rw [hpools, hmpools]) ?_
      (Control.elsewhere_running q)
    rw [hmi]
    simp [Control.Elsewhere, Control.isWaiting, Control.isNotified, Control.willSignal, hq]

theorem Awake.step (h : Awake s q) (hstep : SyncStep s t) : Awake t q := by
  cases hstep with
  | quiet pools control leasesHeld count history =>
      obtain ⟨hfree, hlive, hclosed⟩ := pools q
      have hcounts : t.waiting q = s.waiting q ∧ t.notified q = s.notified q ∧
          ∀ signal, t.toIssue q signal = s.toIssue q signal := by
        obtain hcontrol | ⟨i, hi, hcontrol⟩ := control
        · simp [System.waiting, System.notified, System.toIssue, hcontrol]
        · obtain ⟨hwaiting, hnotified, hissue⟩ := counts_update hcontrol q
          rw [hi] at hwaiting hnotified hissue
          exact ⟨hwaiting, hnotified, hissue⟩
      obtain ⟨hwaiting, hnotified, hissue⟩ := hcounts
      refine ⟨?_, ?_⟩
      · rw [hfree, hlive, hclosed, hwaiting, hnotified, hissue]
        exact h.served
      · rw [hlive, hclosed, hwaiting, hissue]
        exact h.dismissed
  | acquire door eq =>
      rw [eq]
      exact h.acquire door
  | giveBack eq => exact h.giveBack eq
  | notify eq => exact h.notify eq
  | close eq => exact h.close eq

end Awake

/-! ### After the pool is closed -/

section Closing

variable [Fintype T] {s t : System P T} {p : P}

/-- `close()` has closed the pool by the time it notifies, and so when it
returns; and a closed pool leases nothing. -/
structure Closing (s : System P T) : Prop where
  pending : ∀ i p signal, s.control i = .notifying p signal false → (s.pools p).closed = true
  returned : ∀ p, .closeReturned p ∈ s.history → (s.pools p).closed = true
  order : s.history.Pairwise fun later earlier =>
    ∀ i p serial slot, later = .leased i p serial slot → earlier ≠ .closeReturned p

/-- A pool that is closed stays closed. -/
theorem SyncStep.closed (hstep : SyncStep s t) (h : (s.pools p).closed = true) :
    (t.pools p).closed = true := by
  cases hstep with
  | quiet pools control leasesHeld count history =>
      rw [(pools p).2.2]
      exact h
  | @acquire i q door eq =>
      rw [eq]
      obtain ⟨-, -, heq⟩ | ⟨e, -, heq⟩ | ⟨index, pool, htake, heq⟩ := acquireLocked_cases s i q
      · rw [heq]
        exact h
      · rw [heq]
        exact h
      · rw [heq]
        by_cases hq : p = q
        · subst hq
          rw [(ConnectionPool.takeFree_ok htake).1] at h
          cases h
        · simpa [hq] using h
  | @giveBack l eq =>
      obtain ⟨q, usable, signal, -, -, -, -, rfl⟩ := releaseLocked_cases eq
      by_cases hq : p = q
      · subst hq
        simpa using h
      · simpa [hq] using h
  | notify eq =>
      obtain ⟨q, signal, ofRelease, control, -, -, rfl⟩ := notify_cases eq
      split <;> exact h
  | @close i q eq =>
      simp only [System.close, Option.ite_none_right_eq_some, Option.some.injEq] at eq
      obtain ⟨-, rfl⟩ := eq
      by_cases hq : p = q
      · subst hq
        simp
      · simpa [hq] using h

/-- What becomes known in a step: a completion that is polled, a refusal, a
lease of an open pool, or the return of `close()`. -/
theorem SyncStep.history (hstep : SyncStep s t) :
    t.history = s.history ∨ ∃ e, t.history = e :: s.history ∧
      (∀ i p serial slot, e = .leased i p serial slot → (s.pools p).closed = false) ∧
      ∀ p, e = .closeReturned p → ∃ i signal, s.control i = .notifying p signal false := by
  cases hstep with
  | quiet pools control leasesHeld count history =>
      refine history.imp id ?_
      rintro ⟨p, serial, wc, result, hhistory⟩
      exact ⟨_, hhistory, nofun, nofun⟩
  | @acquire i q door eq =>
      rw [eq]
      obtain ⟨-, -, heq⟩ | ⟨e, -, heq⟩ | ⟨index, pool, htake, heq⟩ := acquireLocked_cases s i q
      · rw [heq]
        exact .inl rfl
      · rw [heq]
        exact .inr ⟨_, rfl, nofun, nofun⟩
      · rw [heq]
        refine .inr ⟨_, rfl, ?_, nofun⟩
        intro j p serial slot hleased
        cases hleased
        exact (ConnectionPool.takeFree_ok htake).1
  | giveBack eq =>
      obtain ⟨q, usable, signal, -, -, -, -, rfl⟩ := releaseLocked_cases eq
      exact .inl rfl
  | @notify i chosen eq =>
      obtain ⟨q, signal, ofRelease, control, hi, -, rfl⟩ := notify_cases eq
      cases ofRelease with
      | true => exact .inl rfl
      | false =>
          refine .inr ⟨_, rfl, nofun, ?_⟩
          intro p hreturned
          cases hreturned
          exact ⟨i, signal, hi⟩
  | close eq =>
      simp only [System.close, Option.ite_none_right_eq_some, Option.some.injEq] at eq
      obtain ⟨-, rfl⟩ := eq
      exact .inl rfl

/-- A thread that is about to notify for `close()` was so before, or closes now. -/
theorem SyncStep.pending (hstep : SyncStep s t) {i : T} {signal : Signal}
    (h : t.control i = .notifying p signal false) :
    s.control i = .notifying p signal false ∨ (t.pools p).closed = true := by
  cases hstep with
  | quiet pools control leasesHeld count history =>
      obtain hcontrol | ⟨j, hj, hcontrol⟩ := control
      · exact .inl (hcontrol ▸ h)
      · rw [hcontrol] at h
        by_cases hij : i = j
        · subst hij
          simp at h
        · exact .inl (by rwa [Function.update_of_ne hij] at h)
  | @acquire j q door eq =>
      rw [eq] at h
      by_cases hij : i = j
      · subst hij
        obtain ⟨-, -, heq⟩ | ⟨e, -, heq⟩ | ⟨index, pool, -, heq⟩ := acquireLocked_cases s i q
        all_goals
          rw [heq] at h
          simp at h
      · obtain ⟨-, -, heq⟩ | ⟨e, -, heq⟩ | ⟨index, pool, -, heq⟩ := acquireLocked_cases s j q
        all_goals
          rw [heq] at h
          exact .inl (by simpa [Function.update_of_ne hij] using h)
  | @giveBack l eq =>
      obtain ⟨q, usable, signal', -, -, -, -, rfl⟩ := releaseLocked_cases eq
      by_cases hij : i = l.thread
      · subst hij
        simp at h
      · exact .inl (by simpa [Function.update_of_ne hij] using h)
  | @notify j chosen eq =>
      obtain ⟨q, signal', ofRelease, control, hj, hsignal, ht⟩ := notify_cases eq
      have hcontrol : t.control = Function.update control j .running := by
        rw [ht]
        split <;> rfl
      rw [hcontrol] at h
      by_cases hij : i = j
      · subst hij
        simp at h
      · rw [Function.update_of_ne hij] at h
        obtain hsame | ⟨-, hnotified⟩ := hsignal.control_eq i
        · exact .inl (hsame ▸ h)
        · rw [hnotified] at h
          cases h
  | @close j q eq =>
      simp only [System.close, Option.ite_none_right_eq_some, Option.some.injEq] at eq
      obtain ⟨-, rfl⟩ := eq
      by_cases hij : i = j
      · subst hij
        simp only [Function.update_self, Control.notifying.injEq] at h
        obtain ⟨rfl, -⟩ := h
        exact .inr (by simp)
      · exact .inl (by simpa [Function.update_of_ne hij] using h)

theorem Closing.step (h : Closing s) (hstep : SyncStep s t) : Closing t := by
  have hpending : ∀ i p signal, t.control i = .notifying p signal false →
      (t.pools p).closed = true := by
    intro i p signal hi
    obtain hbefore | hclosed := hstep.pending hi
    · exact hstep.closed (h.pending i p signal hbefore)
    · exact hclosed
  obtain hhistory | ⟨e, hhistory, hleased, hreturned⟩ := hstep.history
  · refine ⟨hpending, ?_, hhistory ▸ h.order⟩
    intro p hp
    exact hstep.closed (h.returned p (hhistory ▸ hp))
  · refine ⟨hpending, ?_, ?_⟩
    · intro p hp
      rw [hhistory] at hp
      obtain hnew | hold := List.mem_cons.mp hp
      · obtain ⟨i, signal, hi⟩ := hreturned p hnew.symm
        exact hstep.closed (h.pending i p signal hi)
      · exact hstep.closed (h.returned p hold)
    · rw [hhistory, List.pairwise_cons]
      refine ⟨?_, h.order⟩
      rintro earlier hearlier i p serial slot he rfl
      have hopen := hleased i p serial slot he
      rw [h.returned p hearlier] at hopen
      cases hopen

end Closing

/-! ### Every reachable state -/

variable [Fintype T]

/-- Blocked in `acquire()`, notified or not. -/
def Control.Blocked (c : Control P) : Prop := ∃ p, c = .waiting p ∨ c = .notified p

omit [DecidableEq P] [Fintype T] in
/-- A thread that is blocked holds no lease of any pool. -/
theorem Counted.no_lease {s : System P T} (h : Counted s) {i : T}
    (hblocked : (s.control i).Blocked) {l : Lease P T} (hl : l ∈ s.leases)
    (hthread : l.thread = i) : l.pool = none := by
  obtain ⟨p, hp⟩ := hblocked
  have hzero := h.blocked i p hp
  rw [h.held i] at hzero
  have hcount : s.leaseCount i = 0 := by omega
  rw [System.leaseCount, List.countP_eq_zero] at hcount
  have hl := hcount l hl
  simpa [hthread] using hl

theorem initial_sync {s : System P T} (hs : s.Initial) :
    Counted s ∧ (∀ p, Awake s p) ∧ Closing s := by
  have hnobody : ∀ p, s.waiting p = 0 := by
    intro p
    refine tally_eq_zero_iff.mpr fun i => ?_
    rw [hs.control i]
    rfl
  refine ⟨⟨?_, ?_⟩, ?_, ⟨?_, ?_, ?_⟩⟩
  · intro i
    simp [hs.leasesHeld, System.leaseCount, hs.leases, hs.control, Control.uncounting]
  · intro i p _
    exact hs.leasesHeld i
  · intro p
    have hzero := hnobody p
    exact ⟨fun hpos => by omega, fun hpos => by omega⟩
  · intro i p signal hi
    rw [hs.control i] at hi
    cases hi
  · simp [hs.history]
  · simp [hs.history]

theorem sync_of_reachable {device : P → RdmaDevice} {s : System P T}
    (hs : (poolMachine device).Reachable s) : Counted s ∧ (∀ p, Awake s p) ∧ Closing s := by
  refine Machine.Reachable.invariant (I := fun s => Counted s ∧ (∀ p, Awake s p) ∧ Closing s)
    (fun s => initial_sync) ?_ hs
  rintro s a t - ⟨hcounted, hawake, hclosing⟩ hstep
  have hsync := poolStep_sync hstep
  exact ⟨hcounted.step hsync, fun p => (hawake p).step hsync, hclosing.step hsync⟩

/-- In every reachable state:
* a thread blocked in `acquire()` holds no lease of any pool;
* while a thread is blocked un-notified on a pool that is open and has a
  connection, the waiters notified but not yet running and the notifications
  still to be issued are at least as many as the free connections, and while it
  is blocked on any other pool a `notify_all` is still to be issued;
* so a thread that is blocked un-notified with nothing pending waits on an open
  pool without a free connection, one of whose leases is held by a thread that
  is not blocked;
* after `close()` has returned, no `acquire()` on that pool has returned a lease. -/
theorem no_lost_wakeup {device : P → RdmaDevice} {s : System P T}
    (hs : (poolMachine device).Reachable s) :
    (∀ l ∈ s.leases, (s.control l.thread).Blocked → l.pool = none) ∧
    (∀ t p, s.control t = .waiting p →
      ((s.pools p).closed = false → (s.pools p).live ≠ 0 → (s.pools p).free.length ≤
        s.notified p + (s.toIssue p .one + s.toIssue p .all)) ∧
      ((s.pools p).closed = true ∨ (s.pools p).live = 0 → 0 < s.toIssue p .all)) ∧
    (∀ t p, s.control t = .waiting p →
      s.notified p + (s.toIssue p .one + s.toIssue p .all) = 0 →
      (s.pools p).closed = false ∧ (s.pools p).free = [] ∧
        ∃ l ∈ s.leases, l.pool = some p ∧ ¬ (s.control l.thread).Blocked) ∧
    (∀ later earlier p, s.history = later ++ .closeReturned p :: earlier →
      ∀ t serial slot, .leased t p serial slot ∉ later) := by
  obtain ⟨hcounted, hawake, hclosing⟩ := sync_of_reachable hs
  have hpos : ∀ t p, s.control t = .waiting p → 0 < s.waiting p := by
    intro t p ht
    refine tally_pos_iff.mpr ⟨t, ?_⟩
    rw [ht]
    exact decide_eq_true rfl
  refine ⟨?_, ?_, ?_, ?_⟩
  · intro l hl hblocked
    exact hcounted.no_lease hblocked hl rfl
  · intro t p ht
    refine ⟨?_, (hawake p).dismissed (hpos t p ht)⟩
    intro hopen hlive
    have := (hawake p).served (hpos t p ht) hopen hlive
    omega
  · intro t p ht hnothing
    have hall : ¬ 0 < s.toIssue p .all := by omega
    have hopen : (s.pools p).closed = false := by
      by_contra hclosed
      exact hall ((hawake p).dismissed (hpos t p ht) (.inl (by simpa using hclosed)))
    have hlive : (s.pools p).live ≠ 0 := by
      intro hdead
      exact hall ((hawake p).dismissed (hpos t p ht) (.inr hdead))
    have hfree : (s.pools p).free = [] := by
      have := (hawake p).served (hpos t p ht) hopen hlive
      exact List.length_eq_zero_iff.mp (by omega)
    -- What is live and not free is leased.
    have hcount : (s.pools p).live = _ := (partition_of_reachable hs p).live
    have hheld : 0 < (s.view p).held.length := by
      rw [System.view, hfree, List.length_nil] at hcount
      rw [System.view]
      omega
    obtain ⟨l, hl⟩ := List.exists_mem_of_length_pos hheld
    obtain ⟨hl, hp⟩ := List.mem_filter.mp hl
    have hp : l.pool = some p := by simpa using hp
    refine ⟨hopen, hfree, l, hl, hp, fun hblocked => ?_⟩
    rw [hcounted.no_lease hblocked hl rfl] at hp
    cases hp
  · intro later earlier p hhistory t serial slot hmem
    have horder := hclosing.order
    rw [hhistory, List.pairwise_append] at horder
    exact horder.2.2 _ hmem (.closeReturned p) (by simp) t p serial slot rfl rfl

/-! ### The run of a pool that is closed -/

/-- Both connections are leased and returned while three threads wait. The two
that are notified find the pool closed. -/
def closingRun : List (PoolAction Unit (Fin 5)) :=
  let first : Lease Unit (Fin 5) := ⟨some (), 1, false, 0, 0, none⟩
  let second : Lease Unit (Fin 5) := ⟨some (), 0, false, 1, 1, none⟩
  [.acquire 0 (), .acquire 1 (), .acquire 2 (), .acquire 3 (), .acquire 4 (),
    .restore first [], .releaseLocked { first with usable := some true }, .notify 0 (some 2),
    .restore second [], .releaseLocked { second with usable := some true }, .notify 1 (some 3),
    .close 0 (), .wake 2, .wake 3]

/-- A thread waits un-notified, and fewer notifications are on their way than
there are free connections. -/
def outnumbered (s : System Unit (Fin 5)) : Bool :=
  s.control 4 = .waiting () ∧
    s.notified () + (s.toIssue () .one + s.toIssue () .all) < (s.pools ()).free.length

theorem closed_pool_outnumbers :
    ¬ ∀ (device : Unit → RdmaDevice) (s : System Unit (Fin 5)),
      (poolMachine device).Reachable s → ∀ t p, s.control t = .waiting p →
        (s.pools p).free.length ≤ s.notified p + (s.toIssue p .one + s.toIssue p .all) := by
  intro hall
  obtain ⟨s, hs, hlast⟩ := Machine.exists_reachable_of_exec (poolMachine fun _ => ⟨1, 0, 0⟩)
    closingRun outnumbered
    (System.ofPool_initial 2
      [.success 16, .success 1, .success 0, .success 16, .success 1, .success 0]
      (samplePool 2) ⟨[], sampleLog 2, ()⟩ rfl)
    (by decide)
  obtain ⟨hwaiting, hfew⟩ := of_decide_eq_true hlast
  have := hall _ s hs 4 () hwaiting
  omega

/-- Two threads wait for the connection that a third one holds. -/
def waitingRun : List (PoolAction Unit (Fin 3)) := [.acquire 0 (), .acquire 1 (), .acquire 2 ()]

theorem no_lost_wakeup_while_leased :
    ∃ s : System Unit (Fin 3), s.control 2 = .waiting () ∧
      ∃ l ∈ s.leases, l.pool = some () ∧ ¬ (s.control l.thread).Blocked := by
  obtain ⟨s, hs, hlast⟩ := Machine.exists_reachable_of_exec (poolMachine fun _ => ⟨1, 0, 0⟩)
    waitingRun
    (fun s => s.control 2 = .waiting () ∧
      s.notified () + (s.toIssue () .one + s.toIssue () .all) = 0)
    (System.ofPool_initial 1 [.success 16, .success 1, .success 0] (samplePool 1)
      ⟨[], sampleLog 1, ()⟩ rfl)
    (by decide)
  obtain ⟨hwaiting, hnothing⟩ := of_decide_eq_true hlast
  exact ⟨s, hwaiting, ((no_lost_wakeup hs).2.2.1 2 () hwaiting hnothing).2.2⟩

end HipObject
