import HipObject.Buffer.Runs
import HipObject.Library.Views

/-!
# The life of an instance

What holds of every instance in every state of the library, by cases on the moves
of its view. An instance lives as long as something refers to it. Its calls are
the frames on it, its leases are those of these frames, its books hold what it
owns until it is destroyed and nothing afterwards, and its pool is closed from
the time that a shutdown has removed it.
-/

namespace HipObject

open Verification

variable {T : Type}

/-! ### Frames of calls -/

/-- The number that the call of a frame has on its instance. -/
def Work.callId : Work → Option Nat
  | .call _ id _ => some id
  | _ => none

/-- The serial number of the lease that the call of a frame holds. -/
def Work.leaseSerial : Work → Option Nat
  | .call _ _ lease => lease
  | _ => none

def InstanceView.callIds (v : InstanceView T) : List Nat := v.works.filterMap Work.callId

def InstanceView.leaseSerials (v : InstanceView T) : List Nat := v.works.filterMap Work.leaseSerial

/-! ### Steps of an instance -/

section Instance

variable {setup : Setup} {s t : InstanceState} {c : Call}

theorem reachable_instanceStep {a : InstanceAction} (h : (instanceMachine setup).Reachable s)
    (hstep : instanceStep setup s a = some t) : (instanceMachine setup).Reachable t :=
  .step (a := a) h trivial hstep

theorem instanceStep_step_frame {reply : Reply}
    (h : instanceStep setup s (.step c reply) = some t) :
    c ∈ s.calls ∧ t.current = s.current ∧ t.destroyed = s.destroyed ∧
      (t.calls.map Call.id).Perm (s.calls.map Call.id) := by
  obtain ⟨hmem, c', u, hstep, rfl⟩ := instanceStep_step_eq h
  have hmoves := callStep_anyMoves hstep
  obtain ⟨hcurrent, hdestroyed, -⟩ := hmoves.move.frame
  refine ⟨hmem, hcurrent, hdestroyed, ?_⟩
  have hid : c'.id = c.id := hmoves.id
  change (c'.id :: (s.calls.erase c).map Call.id).Perm _
  rw [hid]
  exact ((List.perm_cons_erase hmem).map Call.id).symm

theorem instanceStep_destroy_frame {answers : Copy → EventStatus}
    (h : instanceStep setup s (.destroy answers) = some t) :
    s.calls = [] ∧ s.destroyed = false ∧ t.destroyed = true := by
  obtain ⟨-, halive, hidle, -, rfl⟩ := instanceStep_destroy_eq h
  exact ⟨hidle, halive, rfl⟩

end Instance

/-! ### Who keeps an instance alive -/

/-- A published instance, as seen from the frames. -/
structure LivesAs (v : InstanceView T) (a : Published) : Prop where
  reached : (instanceMachine a.setup).Reachable a.state
  current : a.state.current = v.current
  /-- It is destroyed when nothing refers to it any more. -/
  destroyed : a.state.destroyed = !v.held
  calls : v.callIds.Perm (a.state.calls.map Call.id)

structure Lives (v : InstanceView T) : Prop where
  absent : v.pub = none → v.current = false ∧ v.works = [] ∧ v.leases = []
  published : ∀ a, v.pub = some a → LivesAs v a

namespace Lives

variable {p : Nat} {v w : InstanceView T}

theorem held_of_mem {work : Work} (h : work ∈ v.works) : v.held = true := by
  have hne : v.works ≠ [] := List.ne_nil_of_mem h
  simp [InstanceView.held, hne]

theorem held_congr (hcurrent : w.current = v.current) (hworks : w.works.Perm v.works) :
    w.held = v.held := by
  have hempty : w.works.isEmpty = v.works.isEmpty := by
    rw [Bool.eq_iff_iff, List.isEmpty_iff, List.isEmpty_iff]
    exact ⟨fun h => (h ▸ hworks).nil_eq.symm, fun h => (h ▸ hworks).eq_nil⟩
  rw [InstanceView.held, InstanceView.held, hcurrent, hempty]

/-- An instance that has changed, and the frames on it. -/
theorem of_published {a : Published} (hpub : w.pub = some a) (h : LivesAs w a) : Lives w where
  absent := by
    intro hnone
    cases hnone.symm.trans hpub
  published := by
    intro b hb
    cases hb.symm.trans hpub
    exact h

/-- An instance that has just been destroyed, with nothing left that refers to it. -/
theorem of_destroyed {a : Published} {s : InstanceState} {answers : Copy → EventStatus}
    (hpub : w.pub = some a) (hreached : (instanceMachine a.setup).Reachable s)
    (destroyed : instanceStep a.setup s (.destroy answers) = some a.state)
    (removed : w.current = false) (idle : w.works = []) : Lives w := by
  have hreached := reachable_instanceStep hreached destroyed
  obtain ⟨-, -, hover⟩ := instanceStep_destroy_frame destroyed
  obtain ⟨hcurrent, hcalls, -⟩ := (owned_of_reachable hreached).ended hover
  refine of_published hpub ⟨hreached, hcurrent.trans removed.symm, ?_, ?_⟩
  · rw [hover]
    simp [InstanceView.held, removed, idle]
  · rw [hcalls, InstanceView.callIds, idle]
    exact .refl _

theorem move (h : Lives v) (hmove : ViewMove p v w) : Lives w := by
  cases hmove with
  | stay pub current works pool leases nextSerial =>
      constructor
      · intro hnone
        obtain ⟨hcurrent, hworks, hleases⟩ := h.absent (pub ▸ hnone)
        rw [hworks] at works
        rw [hleases] at leases
        exact ⟨current.trans hcurrent, works.eq_nil, leases.eq_nil⟩
      · intro a ha
        have hold := h.published a (pub ▸ ha)
        refine ⟨hold.reached, hold.current.trans current.symm, ?_, ?_⟩
        · rw [hold.destroyed, held_congr current works]
        · exact (works.filterMap Work.callId).trans hold.calls
  | @publish inst session works setup absent isNew same =>
      obtain ⟨-, hworks, -⟩ := h.absent absent
      rw [hworks] at same
      obtain rfl := same.eq_nil
      exact of_published rfl ⟨.init rfl, rfl, rfl, .refl _⟩
  | @begin a s op has current stepped =>
      have hold := h.published a has
      have hreached := reachable_instanceStep hold.reached stepped
      obtain ⟨-, rfl⟩ := instanceStep_begin_eq stepped
      refine of_published rfl ⟨hreached, hold.current, ?_, hold.calls.cons _⟩
      have hheld : v.held = true := by simp [InstanceView.held, current]
      have hstays : a.state.destroyed = false := by rw [hold.destroyed, hheld]; rfl
      rw [held_of_mem List.mem_cons_self]
      exact hstays
  | @step a s c reply lease has mem stepped inside refused =>
      have hold := h.published a has
      obtain ⟨-, hcurrent, hdestroyed, hcalls⟩ := instanceStep_step_frame stepped
      exact of_published rfl ⟨reachable_instanceStep hold.reached stepped,
        hcurrent.trans hold.current, hdestroyed.trans hold.destroyed,
        hold.calls.trans hcalls.symm⟩
  | @ret a s c works has before stepped held =>
      have hold := h.published a has
      have hreached := reachable_instanceStep hold.reached stepped
      obtain ⟨hmem, -, rfl⟩ := instanceStep_ret_eq stepped
      refine of_published rfl ⟨hreached, hold.current, ?_, ?_⟩
      · have hbefore : v.held = true := held_of_mem (before.mem_iff.mpr List.mem_cons_self)
        change a.state.destroyed = !({ v with works := works } : InstanceView T).held
        rw [hold.destroyed, hbefore, held]
      · have hids := (before.filterMap Work.callId).symm.trans
          (hold.calls.trans ((List.perm_cons_erase hmem).map Call.id))
        exact hids.cons_inv
  | @retLast a s u c answers has before removed stepped destroyed =>
      have hold := h.published a has
      have hreached := reachable_instanceStep hold.reached stepped
      exact of_destroyed rfl hreached destroyed removed rfl
  | @lease a s c qpNum t index pool rest has before acquires stepped taken =>
      have hold := h.published a has
      obtain ⟨-, hcurrent, hdestroyed, hcalls⟩ := instanceStep_step_frame stepped
      have hheld : v.held = true := held_of_mem (before.mem_iff.mpr List.mem_cons_self)
      refine of_published rfl ⟨reachable_instanceStep hold.reached stepped,
        hcurrent.trans hold.current, ?_, ?_⟩
      · rw [hdestroyed, hold.destroyed, hheld, held_of_mem List.mem_cons_self]
      · exact (before.filterMap Work.callId).symm.trans (hold.calls.trans hcalls.symm)
  | @use a l l' leases others slot answers rest log has before after key takes keeps =>
      have hold := h.published a has
      exact of_published rfl ⟨hold.reached, hold.current, hold.destroyed, hold.calls⟩
  | @giveBack a c l leases rest usable has mem before outside held =>
      have hold := h.published a has
      have hheld : v.held = true := held_of_mem (before.mem_iff.mpr List.mem_cons_self)
      refine of_published has ⟨hold.reached, hold.current, ?_, ?_⟩
      · rw [hold.destroyed, hheld, held_of_mem List.mem_cons_self]
      · exact (before.filterMap Work.callId).symm.trans hold.calls
  | @finishCopy a s copy has stepped =>
      have hold := h.published a has
      have hreached := reachable_instanceStep hold.reached stepped
      obtain ⟨-, -, rfl⟩ := instanceStep_finishCopy_eq stepped
      exact of_published rfl ⟨hreached, hold.current, hold.destroyed, hold.calls⟩
  | @take a rest has current same =>
      have hold := h.published a has
      have hheld : v.held = true := by simp [InstanceView.held, current]
      have hreached := reachable_instanceStep (a := .shutdown) hold.reached rfl
      refine of_published rfl ⟨hreached, rfl, ?_, ?_⟩
      · rw [held_of_mem List.mem_cons_self]
        exact hold.destroyed.trans (by rw [hheld])
      · exact (same.filterMap Work.callId).trans hold.calls
  | @close a rest has before =>
      have hold := h.published a has
      have hheld : v.held = true := held_of_mem (before.mem_iff.mpr List.mem_cons_self)
      refine of_published has ⟨hold.reached, hold.current, ?_, ?_⟩
      · rw [hold.destroyed, hheld, held_of_mem List.mem_cons_self]
      · exact (before.filterMap Work.callId).symm.trans hold.calls
  | @reset a works has before held =>
      have hold := h.published a has
      have hheld : v.held = true := held_of_mem (before.mem_iff.mpr List.mem_cons_self)
      refine of_published has ⟨hold.reached, hold.current, ?_, ?_⟩
      · rw [hold.destroyed, hheld, held]
      · exact (before.filterMap Work.callId).symm.trans hold.calls
  | @resetLast a u answers has before removed destroyed =>
      have hold := h.published a has
      exact of_destroyed rfl hold.reached destroyed removed rfl

end Lives

/-! ### Leases -/

/-- The pool of an instance, as its own invariants see it. -/
def InstanceView.poolView (v : InstanceView T) : View Nat T := ⟨v.pool, v.leases, []⟩

/-- The leases of an instance are those that the frames on it hold. -/
structure LeasesOk (v : InstanceView T) : Prop where
  partition : Partition v.poolView
  serials : v.leaseSerials.Perm (v.leases.map Lease.serial)
  distinct : (v.leases.map Lease.serial).Nodup
  below : ∀ l ∈ v.leases, l.serial < v.nextSerial

namespace LeasesOk

variable {p : Nat} {v w : InstanceView T}

theorem initial (nextSerial : Nat) :
    LeasesOk (⟨none, false, [], ⟨[], [], 0, 0, false, []⟩, [], nextSerial⟩ : InstanceView T) where
  partition := ⟨.refl _, rfl, Nat.le_refl _⟩
  serials := .refl _
  distinct := .nil
  below := by simp

/-- Nothing but the frames that hold no lease has changed, and the leases are
reordered or change in what they are not known by. -/
theorem congr (h : LeasesOk v) (hserials : w.leaseSerials.Perm v.leaseSerials)
    (hkeys : (w.leases.map Lease.key).Perm (v.leases.map Lease.key))
    (hfree : w.pool.free = v.pool.free) (hdropped : w.pool.dropped = v.pool.dropped)
    (hlive : w.pool.live = v.pool.live) (hslots : w.pool.slots.length = v.pool.slots.length)
    (hcapacity : w.pool.capacity = v.pool.capacity) (hnext : v.nextSerial ≤ w.nextSerial) :
    LeasesOk w := by
  have hindexes : (w.leases.map Lease.index).Perm (v.leases.map Lease.index) := by
    simpa [Lease.key, Function.comp_def] using hkeys.map fun key => key.2.1
  have hserial : (w.leases.map Lease.serial).Perm (v.leases.map Lease.serial) := by
    simpa [Lease.key, Function.comp_def] using hkeys.map fun key => key.2.2
  refine ⟨?_, ?_, ?_, ?_⟩
  · exact h.partition.congr hindexes hfree hdropped hlive hslots hcapacity
  · exact hserials.trans (h.serials.trans hserial.symm)
  · exact hserial.nodup_iff.mpr h.distinct
  · intro l hl
    obtain ⟨k, hk, hkey⟩ := List.mem_map.mp (hserial.mem_iff.mp (List.mem_map_of_mem hl))
    rw [← hkey]
    exact Nat.lt_of_lt_of_le (h.below k hk) hnext

/-- The step concerns frames that hold no lease. -/
theorem ofWorks (h : LeasesOk v) (hserials : w.leaseSerials.Perm v.leaseSerials)
    (hleases : w.leases = v.leases) (hpool : w.pool = v.pool)
    (hnext : w.nextSerial = v.nextSerial) : LeasesOk w :=
  h.congr hserials (by rw [hleases]) (by rw [hpool]) (by rw [hpool]) (by rw [hpool])
    (by rw [hpool]) (by rw [hpool]) (Nat.le_of_eq hnext.symm)

theorem move (h : LeasesOk v) (hlives : Lives v) (hmove : ViewMove p v w) : LeasesOk w := by
  cases hmove with
  | stay pub current works pool leases nextSerial =>
      exact h.congr (works.filterMap _) (leases.map _) (by rw [pool]) (by rw [pool]) (by rw [pool])
        (by rw [pool]) (by rw [pool]) nextSerial
  | @publish inst session works setup absent isNew same =>
      obtain ⟨-, hworks, hleases⟩ := hlives.absent absent
      rw [hworks] at same
      obtain rfl := same.eq_nil
      have hfresh := isNew.fresh
      refine ⟨⟨?_, ?_, hfresh.capacity⟩, ?_, ?_, ?_⟩
      · simp [InstanceView.poolView, View.heldIndexes, hleases, hfresh.free, hfresh.dropped]
      · simp [InstanceView.poolView, hleases, hfresh.free, hfresh.live]
      · simp [InstanceView.leaseSerials, hleases]
      · simp [hleases]
      · simp [hleases]
  | begin has current stepped => exact h.ofWorks (.refl _) rfl rfl rfl
  | step has mem stepped inside refused => exact h.ofWorks (.refl _) rfl rfl rfl
  | ret has before stepped held =>
      exact h.ofWorks (before.filterMap Work.leaseSerial).symm rfl rfl rfl
  | retLast has before removed stepped destroyed =>
      exact h.ofWorks (before.filterMap Work.leaseSerial).symm rfl rfl rfl
  | @lease a s c qpNum t index pool rest has before acquires stepped taken =>
      have hserials := (before.filterMap Work.leaseSerial).symm.trans h.serials
      refine ⟨h.partition.take taken rfl, hserials.cons _, ?_, ?_⟩
      · refine List.nodup_cons.mpr ⟨?_, h.distinct⟩
        intro hmem
        obtain ⟨l, hl, hserial⟩ := List.mem_map.mp hmem
        exact Nat.lt_irrefl _ (hserial ▸ h.below l hl)
      · intro l hl
        rcases List.mem_cons.mp hl with rfl | hl
        · exact Nat.lt_succ_self _
        · exact Nat.lt_succ_of_lt (h.below l hl)
  | @use a l l' leases others slot answers rest log has before after key takes keeps =>
      refine h.congr (.refl _) ?_ rfl rfl rfl (by simp) rfl (Nat.le_refl _)
      refine (after.map Lease.key).trans (.trans ?_ (before.map Lease.key).symm)
      rw [List.map_cons, List.map_cons, key]
  | @giveBack a c l leases rest usable has mem before outside held =>
      have hserials : (l.serial :: rest.filterMap Work.leaseSerial).Perm
          (l.serial :: leases.map Lease.serial) :=
        (before.filterMap Work.leaseSerial).symm.trans (h.serials.trans (held.map Lease.serial))
      have hdistinct : (l.serial :: leases.map Lease.serial).Nodup :=
        (held.map Lease.serial).nodup_iff.mp h.distinct
      refine ⟨h.partition.giveBack rfl held, hserials.cons_inv, hdistinct.of_cons, ?_⟩
      intro k hk
      exact h.below k (held.mem_iff.mpr (List.mem_cons_of_mem _ hk))
  | finishCopy has stepped => exact h.ofWorks (.refl _) rfl rfl rfl
  | take has current same => exact h.ofWorks (same.filterMap _) rfl rfl rfl
  | close has before =>
      exact h.congr (before.filterMap Work.leaseSerial).symm (.refl _) rfl rfl rfl rfl rfl
        (Nat.le_refl _)
  | reset has before held => exact h.ofWorks (before.filterMap Work.leaseSerial).symm rfl rfl rfl
  | resetLast has before removed destroyed =>
      exact h.ofWorks (before.filterMap Work.leaseSerial).symm rfl rfl rfl

end LeasesOk

/-! ### Books -/

/-- The books of an instance hold what it owns, and nothing once it is
destroyed. -/
structure BooksOk (v : InstanceView T) : Prop where
  stocked : ∀ a, v.pub = some a → v.held = true → Stocked a.inst v.pool a.session
  emptied : ∀ a, v.pub = some a → v.held = false → a.session.Has []

/-- The connections of a pool are in its slots, whoever has them. -/
theorem Stocked.congr {inst : Instance} {pool pool' : ConnectionPool} {s : Session}
    (h : Stocked inst pool s) (hslots : pool'.slots = pool.slots) : Stocked inst pool' s := by
  have hconns : pool'.connections = pool.connections := by
    rw [ConnectionPool.connections, hslots]
    rfl
  refine ⟨?_, h.logged.tokenConn, ?_⟩
  · have hhas := h.has
    simp only [Instance.resources, hconns] at hhas ⊢
    exact hhas
  · have hpool := h.logged.pool
    simp only [hconns] at hpool ⊢
    exact hpool

/-- `~Instance` gives back what the books hold. -/
theorem Stocked.destroyed {inst : Instance} {pool : ConnectionPool} {s : Session}
    (h : Stocked inst pool s) :
    (finalState (destroyInstance { inst with pool := pool } s)).Has [] := by
  have hdestroyed := destroyInstance_has { inst with pool := pool } h.has h.logged
  exact (hdestroyed.mono (fun _ _ h => h) fun _ h => h.elim).final

namespace BooksOk

variable {p : Nat} {v w : InstanceView T}

theorem of_held {a : Published} (hpub : w.pub = some a) (hheld : w.held = true)
    (h : Stocked a.inst w.pool a.session) : BooksOk w where
  stocked := by
    intro b hb _
    cases hb.symm.trans hpub
    exact h
  emptied := by
    intro b _ hunheld
    cases hheld.symm.trans hunheld

theorem of_destroyed {a : Published} (hpub : w.pub = some a) (hcurrent : w.current = false)
    (hworks : w.works = []) (h : a.session.Has []) : BooksOk w where
  stocked := by
    intro b _ hheld
    simp [InstanceView.held, hcurrent, hworks] at hheld
  emptied := by
    intro b hb _
    cases hb.symm.trans hpub
    exact h

theorem move (h : BooksOk v) (hleases : LeasesOk v) (hmove : ViewMove p v w) : BooksOk w := by
  have hbefore : ∀ {work rest}, v.works.Perm (work :: rest) → v.held = true :=
    fun hperm => Lives.held_of_mem (hperm.mem_iff.mpr List.mem_cons_self)
  cases hmove with
  | stay pub current works pool leases nextSerial =>
      have hheld := Lives.held_congr current works
      constructor
      · intro a ha hw
        rw [pool]
        exact h.stocked a (pub ▸ ha) (hheld ▸ hw)
      · intro a ha hw
        exact h.emptied a (pub ▸ ha) (hheld ▸ hw)
  | publish setup absent isNew same =>
      exact of_held rfl (by simp [InstanceView.held]) isNew.stocked
  | @begin a s op has current stepped =>
      have hheld : v.held = true := by simp [InstanceView.held, current]
      exact of_held rfl (Lives.held_of_mem List.mem_cons_self) (h.stocked a has hheld)
  | @step a s c reply lease has mem stepped inside refused =>
      have hheld : v.held = true := Lives.held_of_mem mem
      exact of_held rfl hheld (h.stocked a has hheld)
  | @ret a s c works has before stepped held =>
      exact of_held rfl held (h.stocked a has (hbefore before))
  | @retLast a s u c answers has before removed stepped destroyed =>
      exact of_destroyed rfl removed rfl (h.stocked a has (hbefore before)).destroyed
  | @lease a s c qpNum t index pool rest has before acquires stepped taken =>
      obtain ⟨-, -, htaken⟩ := ConnectionPool.takeFree_ok taken
      have hslots : pool.slots = v.pool.slots := by rw [htaken]
      exact of_held rfl (Lives.held_of_mem List.mem_cons_self)
        ((h.stocked a has (hbefore before)).congr hslots)
  | @use a l l' leases others slot answers rest log has before after key takes keeps =>
      -- a lease belongs to a frame, which keeps the instance
      have hmem : l ∈ v.leases := before.mem_iff.mpr List.mem_cons_self
      have hserial : l.serial ∈ v.leaseSerials :=
        hleases.serials.mem_iff.mpr (List.mem_map_of_mem hmem)
      obtain ⟨work, hwork, -⟩ := List.mem_filterMap.mp hserial
      have hheld : v.held = true := Lives.held_of_mem hwork
      have hstocked := h.stocked a has hheld
      have hindex : l.index < v.pool.slots.length := hleases.partition.lt_of_mem_held hmem
      exact of_held rfl hheld
        (hstocked.use hindex (takes _ (hstocked.slotOk hindex answers)))
  | @giveBack a c l leases rest usable has mem before outside held =>
      exact of_held has (Lives.held_of_mem List.mem_cons_self)
        ((h.stocked a has (hbefore before)).congr (ConnectionPool.giveBack_slots ..))
  | @finishCopy a s copy has stepped =>
      constructor
      · intro b hb hheld
        cases hb
        exact h.stocked a has hheld
      · intro b hb hheld
        cases hb
        exact h.emptied a has hheld
  | @take a rest has current same =>
      have hheld : v.held = true := by simp [InstanceView.held, current]
      exact of_held rfl (Lives.held_of_mem List.mem_cons_self) (h.stocked a has hheld)
  | @close a rest has before =>
      exact of_held has (Lives.held_of_mem List.mem_cons_self)
        ((h.stocked a has (hbefore before)).congr rfl)
  | @reset a works has before held => exact of_held has held (h.stocked a has (hbefore before))
  | @resetLast a u answers has before removed destroyed =>
      exact of_destroyed rfl removed rfl (h.stocked a has (hbefore before)).destroyed

end BooksOk

/-! ### A shutdown closes the pool -/

/-- The pool of an instance that was removed is closed, or about to be. -/
def ClosedOk (p : Nat) (v : InstanceView T) : Prop :=
  v.pub.isSome = true → v.current = false → .shutdown (.close p) ∉ v.works →
    v.pool.closed = true

namespace ClosedOk

variable {p : Nat} {v w : InstanceView T}

/-- Frames that close nothing come and go. -/
theorem congr (h : ClosedOk p v) (hpub : w.pub.isSome = v.pub.isSome)
    (hcurrent : w.current = v.current)
    (hworks : .shutdown (.close p) ∉ w.works → .shutdown (.close p) ∉ v.works)
    (hclosed : w.pool.closed = v.pool.closed) : ClosedOk p w := by
  intro hsome hremoved hnone
  rw [hclosed]
  exact h (hpub ▸ hsome) (hcurrent ▸ hremoved) (hworks hnone)

theorem move (h : ClosedOk p v) (hmove : ViewMove p v w) : ClosedOk p w := by
  have hcons : ∀ {work : Work} {rest : List Work}, v.works.Perm (work :: rest) →
      work ≠ .shutdown (.close p) →
      ∀ works : List Work, (.shutdown (.close p) ∉ works → .shutdown (.close p) ∉ rest) →
        .shutdown (.close p) ∉ works → .shutdown (.close p) ∉ v.works := by
    intro work rest hperm hne works hrest hnot hmem
    rcases List.mem_cons.mp (hperm.mem_iff.mp hmem) with heq | hmem
    · exact hne heq.symm
    · exact hrest hnot hmem
  cases hmove with
  | stay pub current works pool leases nextSerial =>
      exact h.congr (by rw [pub]) current (fun hnot hmem => hnot (works.mem_iff.mpr hmem))
        (by rw [pool])
  | publish setup absent isNew same =>
      intro _ hremoved
      cases hremoved
  | begin has current stepped =>
      intro _ hremoved
      cases current.symm.trans hremoved
  | step has mem stepped inside refused => exact h.congr (by rw [has]; rfl) rfl id rfl
  | ret has before stepped held =>
      exact h.congr (by rw [has]; rfl) rfl (hcons before (by simp) _ id) rfl
  | retLast has before removed stepped destroyed =>
      exact h.congr (by rw [has]; rfl) rfl (hcons before (by simp) _ id) rfl
  | lease has before acquires stepped taken =>
      obtain ⟨-, -, htaken⟩ := ConnectionPool.takeFree_ok taken
      exact h.congr (by rw [has]; rfl) rfl (hcons before (by simp) _ (by simp)) (by rw [htaken])
  | use has before after key takes keeps => exact h.congr (by rw [has]; rfl) rfl id rfl
  | giveBack usable has mem before outside held =>
      refine h.congr rfl rfl (hcons before (by simp) _ (by simp)) ?_
      cases usable <;> rfl
  | finishCopy has stepped => exact h.congr (by rw [has]; rfl) rfl id rfl
  | take has current same =>
      intro _ _ hnone
      exact absurd List.mem_cons_self hnone
  | close has before => exact fun _ _ _ => rfl
  | reset has before held => exact h.congr rfl rfl (hcons before (by simp) _ id) rfl
  | resetLast has before removed destroyed =>
      exact h.congr (by rw [has]; rfl) rfl (hcons before (by simp) _ id) rfl

end ClosedOk

end HipObject
