import HipObject.Library.Moves
import Mathlib.Tactic.Convert

/-!
# One instance among the others

`InstanceView` is what concerns one instance: what was published, whether it is
current, the work of the frames that refer to it, its pool, and the leases of
that. `ViewMove` lists what a step can do to it, and `LibraryMove.view` says that
a step does one of these to every instance. Before that come the facts about the
frames of `initWith` and `shutdownInstance`, which exclude each other.
-/

namespace HipObject

open Verification

variable {T : Type}

/-! ### `initMutex` -/

/-- Where `initWith` and `shutdownInstance` have seen that there is no current
instance, or have removed it. -/
def Work.clears : Work → Bool
  | .init .build => true
  | .init (.publish ..) => true
  | .shutdown (.close _) => true
  | .shutdown (.reset _) => true
  | _ => false

theorem Work.hasMutex_of_clears {work : Work} (h : work.clears = true) : work.hasMutex = true := by
  cases work with
  | call p id lease => cases h
  | init stage =>
      cases stage with
      | lock => cases h
      | _ => rfl
  | shutdown stage =>
      cases stage with
      | lock => cases h
      | _ => rfl

/-- What the frames of all threads are busy with. -/
def LibraryState.works (lib : LibraryState T) : List Work := lib.frames.map Frame.work

/-- The same without the innermost frame of a thread. -/
def LibraryState.worksBelow [DecidableEq T] (lib : LibraryState T) (t : T) : List Work :=
  (lib.below t).map Frame.work

theorem works_perm [DecidableEq T] {lib : LibraryState T} {t : T} {f : Frame T}
    (h : lib.top t = some f) : lib.works.Perm (f.work :: lib.worksBelow t) :=
  (frames_perm h).map Frame.work

/-- What `initMutex` protects. -/
structure ControlOk (lib : LibraryState T) : Prop where
  /-- Instances are numbered as they are published. -/
  domain : ∀ p, lib.instances p = none ↔ lib.count ≤ p
  /-- One frame has the mutex while it is locked. -/
  mutex : lib.works.countP Work.hasMutex = lib.initMutex.toNat
  /-- Nobody else publishes an instance in the meantime. -/
  cleared : ∀ w ∈ lib.works, w.clears = true → lib.current = none
  building : ∀ inst setup session, .init (.publish inst setup session) ∈ lib.works →
    NewInstance inst session

namespace ControlOk

variable {lib lib' : LibraryState T}

theorem initial : ControlOk (.initial T) where
  domain := by simp [LibraryState.initial]
  mutex := rfl
  cleared := by simp [LibraryState.initial, LibraryState.works]
  building := by simp [LibraryState.initial, LibraryState.works]

/-- A frame that has the mutex is the only one. -/
theorem alone (h : ControlOk lib) {w : Work} {rest : List Work}
    (hworks : lib.works.Perm (w :: rest)) (hw : w.hasMutex = true) :
    lib.initMutex = true ∧ rest.countP Work.hasMutex = 0 := by
  have hcount := h.mutex
  rw [hworks.countP_eq, List.countP_cons_of_pos hw] at hcount
  have hle := Bool.toNat_le lib.initMutex
  refine ⟨?_, by omega⟩
  cases hmutex : lib.initMutex with
  | true => rfl
  | false => simp [hmutex] at hcount

theorem not_clears {rest : List Work} (h : rest.countP Work.hasMutex = 0) {w : Work}
    (hw : w ∈ rest) : w.clears = false := by
  have hnot := List.countP_eq_zero.mp h w hw
  cases hclears : w.clears with
  | false => rfl
  | true => exact absurd (Work.hasMutex_of_clears hclears) hnot

/-- Some work is replaced by other work that accounts for the mutex. -/
theorem replace (h : ControlOk lib) (before after rest : List Work)
    (hinstances : ∀ p, lib'.instances p = none ↔ lib.instances p = none)
    (hcount : lib'.count = lib.count) (hcurrent : lib'.current = lib.current)
    (hworks : lib.works.Perm (before ++ rest)) (hworks' : lib'.works.Perm (after ++ rest))
    (hmutex : after.countP Work.hasMutex + lib.initMutex.toNat =
      before.countP Work.hasMutex + lib'.initMutex.toNat)
    (hclears : ∀ w ∈ after, w.clears = true → lib.current = none)
    (hbuilding : ∀ inst setup session, .init (.publish inst setup session) ∈ after →
      NewInstance inst session) : ControlOk lib' where
  domain := by
    intro p
    rw [hinstances, hcount]
    exact h.domain p
  mutex := by
    have hbefore := h.mutex
    rw [hworks.countP_eq, List.countP_append] at hbefore
    rw [hworks'.countP_eq, List.countP_append]
    omega
  cleared := by
    intro w hw hclear
    rw [hcurrent]
    rcases List.mem_append.mp (hworks'.mem_iff.mp hw) with hw | hw
    · exact hclears w hw hclear
    · exact h.cleared w (hworks.mem_iff.mpr (List.mem_append_right _ hw)) hclear
  building := by
    intro inst setup session hw
    rcases List.mem_append.mp (hworks'.mem_iff.mp hw) with hw | hw
    · exact hbuilding inst setup session hw
    · exact h.building inst setup session (hworks.mem_iff.mpr (List.mem_append_right _ hw))

/-- The step only concerns calls. -/
theorem same (h : ControlOk lib)
    (hinstances : ∀ p, lib'.instances p = none ↔ lib.instances p = none)
    (hcount : lib'.count = lib.count) (hcurrent : lib'.current = lib.current)
    (hworks : lib'.works = lib.works) (hmutex : lib'.initMutex = lib.initMutex) : ControlOk lib' :=
  h.replace [] [] lib.works hinstances hcount hcurrent (.refl _)
    (by rw [hworks]; exact .refl _) (by rw [hmutex]) (by simp) (by simp)

variable [DecidableEq T]

/-- An instance that has changed is still there. -/
theorem update_none_iff {instances : Nat → Option Published} {p : Nat} {pub pub' : Published}
    (has : instances p = some pub) (q : Nat) :
    Function.update instances p (some pub') q = none ↔ instances q = none := by
  by_cases hq : q = p
  · subst hq
    simp [has]
  · rw [Function.update_of_ne hq]

omit [DecidableEq T] in
theorem letsGo {p : Nat} (h : ControlOk lib) (hmove : LetsGo lib p lib') : ControlOk lib' := by
  cases hmove with
  | kept held => exact h
  | last unheld has stepped => exact h.same (update_none_iff has) rfl rfl rfl rfl

theorem move (h : ControlOk lib) (hmove : LibraryMove lib lib') : ControlOk lib' := by
  cases hmove with
  | notInitialized absent => exact h.same (fun _ => .rfl) rfl rfl rfl rfl
  | @begin t p pub s op current has stepped =>
      exact h.replace [] [.call p pub.state.next none] lib.works
        (update_none_iff has) rfl rfl (.refl _) (.refl _) rfl (by simp [Work.clears]) (by simp)
  | step top has isCall stepped inside refused threads =>
      exact h.same (update_none_iff has) rfl rfl rfl rfl
  | @ret t n p id pub s c _ top has isCall stepped lets =>
      have hpop : ControlOk ((lib.withState p pub s).pop t) :=
        h.replace [.call p id none] [] (lib.worksBelow t)
          (update_none_iff has) rfl rfl (works_perm top) (.refl _) rfl (by simp) (by simp)
      exact hpop.letsGo lets
  | @lease t n p id index pub s c qpNum pool system top has isCall acquires stepped taken pools
      leases nextSerial =>
      exact h.replace [.call p id none] [.call p id (some lib.system.nextSerial)] (lib.worksBelow t)
        (update_none_iff has) rfl rfl (works_perm top) (.refl _) rfl (by simp [Work.clears])
        (by simp)
  | use has uses => exact h.same (update_none_iff has) rfl rfl rfl rfl
  | @giveBack t n p id pub c l system usable top has mem isCall after isPool isHeld pools leases
      nextSerial =>
      exact h.replace [.call p id (some l.serial)] [.call p id none] (lib.worksBelow t)
        (fun _ => .rfl) rfl rfl (works_perm top) (.refl _) rfl
        (by simp [Work.clears]) (by simp)
  | threads same => exact h.same (fun _ => .rfl) rfl rfl rfl rfl
  | finishCopy has stepped => exact h.same (update_none_iff has) rfl rfl rfl rfl
  | enter locks =>
      cases locks with
      | init =>
          exact h.replace [] [.init .lock] lib.works (fun _ => .rfl) rfl rfl (.refl _)
            (.refl _) rfl (by simp [Work.clears]) (by simp)
      | shutdown =>
          exact h.replace [] [.shutdown .lock] lib.works (fun _ => .rfl) rfl rfl
            (.refl _) (.refl _) rfl (by simp [Work.clears]) (by simp)
  | @lock t n work work' top locks unlocked =>
      cases locks with
      | init =>
          exact h.replace [.init .lock] [.init .check] (lib.worksBelow t)
            (fun _ => .rfl) rfl rfl (works_perm top) (.refl _)
            (by rw [unlocked]; rfl) (by simp [Work.clears]) (by simp)
      | shutdown =>
          exact h.replace [.shutdown .lock] [.shutdown .take] (lib.worksBelow t)
            (fun _ => .rfl) rfl rfl (works_perm top) (.refl _)
            (by rw [unlocked]; rfl) (by simp [Work.clears]) (by simp)
  | @already t n top current =>
      have hlocked := (h.alone (works_perm top) rfl).1
      exact h.replace [.init .check] [] (lib.worksBelow t)
        (fun _ => .rfl) rfl rfl (works_perm top) (.refl _) (by rw [hlocked]; rfl) (by simp)
        (by simp)
  | @check t n top absent =>
      exact h.replace [.init .check] [.init .build] (lib.worksBelow t)
        (fun _ => .rfl) rfl rfl (works_perm top) (.refl _) rfl
        (fun _ _ _ => absent) (by simp)
  | @failed t n result top isError =>
      have hlocked := (h.alone (works_perm top) rfl).1
      exact h.replace [.init .build] [] (lib.worksBelow t)
        (fun _ => .rfl) rfl rfl (works_perm top) (.refl _) (by rw [hlocked]; rfl) (by simp)
        (by simp)
  | @built t n inst setup session top isNew =>
      have habsent := h.cleared _ ((works_perm top).mem_iff.mpr List.mem_cons_self) rfl
      refine h.replace [.init .build] [.init (.publish inst setup session)] (lib.worksBelow t)
        (fun _ => .rfl) rfl rfl (works_perm top) (.refl _) rfl
        (fun _ _ _ => habsent) ?_
      intro inst' setup' session' hmem
      cases List.mem_singleton.mp hmem
      exact isNew
  | @publish t n inst setup session top =>
      obtain ⟨-, hrest⟩ := h.alone (works_perm top) rfl
      refine ⟨?_, hrest, ?_, ?_⟩
      · intro q
        change Function.update lib.instances lib.count _ q = none ↔ lib.count + 1 ≤ q
        by_cases hq : q = lib.count
        · subst hq
          simp
        · rw [Function.update_of_ne hq, h.domain]
          omega
      · intro w hw hclears
        rw [not_clears hrest hw] at hclears
        cases hclears
      · intro inst' setup' session' hw
        exact h.building inst' setup' session'
          ((works_perm top).mem_iff.mpr (List.mem_cons_of_mem _ hw))
  | @nothing t n top absent =>
      exact h.replace [.shutdown .take] [.shutdown (.reset none)] (lib.worksBelow t)
        (fun _ => .rfl) rfl rfl (works_perm top) (.refl _) rfl
        (fun _ _ _ => absent) (by simp)
  | @take t n p pub top current has =>
      obtain ⟨hlocked, hrest⟩ := h.alone (works_perm top) rfl
      refine ⟨?_, ?_, fun _ _ _ => rfl, ?_⟩
      · intro q
        change Function.update lib.instances p _ q = none ↔ _
        rw [update_none_iff has]
        exact h.domain q
      · change (Work.shutdown (.close p) :: lib.worksBelow t).countP Work.hasMutex =
          lib.initMutex.toNat
        rw [List.countP_cons_of_pos rfl, hrest, hlocked]
        rfl
      · intro inst' setup' session' hw
        rcases List.mem_cons.mp hw with heq | hw
        · cases heq
        · exact h.building inst' setup' session'
            ((works_perm top).mem_iff.mpr (List.mem_cons_of_mem _ hw))
  | @close t n p pub system top has pools leases nextSerial =>
      have habsent := h.cleared _ ((works_perm top).mem_iff.mpr List.mem_cons_self) rfl
      exact h.replace [.shutdown (.close p)] [.shutdown (.reset (some p))] (lib.worksBelow t)
        (fun _ => .rfl) rfl rfl (works_perm top) (.refl _) rfl
        (fun _ _ _ => habsent) (by simp)
  | @endNothing t n top =>
      have hlocked := (h.alone (works_perm top) rfl).1
      exact h.replace [.shutdown (.reset none)] [] (lib.worksBelow t)
        (fun _ => .rfl) rfl rfl (works_perm top) (.refl _)
        (by rw [hlocked]; rfl) (by simp) (by simp)
  | @endShutdown t n p _ top lets =>
      have hlocked := (h.alone (works_perm top) rfl).1
      have hpop : ControlOk { lib.pop t with initMutex := false } :=
        h.replace [.shutdown (.reset (some p))] [] (lib.worksBelow t)
          (fun _ => .rfl) rfl rfl (works_perm top) (.refl _)
          (by rw [hlocked]; rfl) (by simp) (by simp)
      cases lets with
      | kept held => exact hpop.same (fun _ => .rfl) rfl rfl rfl rfl
      | last unheld has stepped => exact hpop.same (update_none_iff has) rfl rfl rfl rfl

end ControlOk

theorem controlOk_of_reachable [DecidableEq T] [Fintype T] {lib : LibraryState T}
    (h : (libraryMachine T).Reachable lib) : ControlOk lib := by
  refine Machine.Reachable.invariant (I := ControlOk) ?_ ?_ h
  · intro lib hinit
    rw [show lib = .initial T from hinit]
    exact .initial
  · intro lib a lib' _ hlib hstep
    exact hlib.move (libraryStep_move hstep)

/-! ### The view of an instance -/

structure InstanceView (T : Type) where
  pub : Option Published
  current : Bool
  /-- The work of the frames that refer to it. -/
  works : List Work
  pool : ConnectionPool
  leases : List (Lease Nat T)
  nextSerial : Nat

def LibraryState.view (lib : LibraryState T) (p : Nat) : InstanceView T where
  pub := lib.instances p
  current := lib.current = some p
  works := lib.works.filter (Work.holds p)
  pool := lib.system.pools p
  leases := lib.system.leases.filter fun l => l.pool = some p
  nextSerial := lib.system.nextSerial

/-- Whether anything refers to the instance. -/
def InstanceView.held (v : InstanceView T) : Bool := v.current || !v.works.isEmpty

theorem held_eq (lib : LibraryState T) (p : Nat) : lib.held p = (lib.view p).held := by
  have hany : (lib.frames.any fun f => f.work.holds p) =
      !(lib.works.filter (Work.holds p)).isEmpty := by
    rw [LibraryState.works, Bool.eq_iff_iff]
    simp [List.filter_eq_nil_iff]
  rw [LibraryState.held, hany]
  rfl

/-- What a step can do to an instance. -/
inductive ViewMove (p : Nat) (v : InstanceView T) : InstanceView T → Prop
  | stay {w : InstanceView T} (pub : w.pub = v.pub) (current : w.current = v.current)
      (works : w.works.Perm v.works) (pool : w.pool = v.pool) (leases : w.leases.Perm v.leases)
      (nextSerial : v.nextSerial ≤ w.nextSerial) : ViewMove p v w
  | publish {inst : Instance} {session : Session} {works : List Work} (setup : Setup)
      (absent : v.pub = none) (isNew : NewInstance inst session) (same : works.Perm v.works) :
      ViewMove p v { v with
        pub := some ⟨inst, setup, .initial, session⟩
        current := true
        works := works
        pool := inst.pool }
  | begin {a : Published} {s : InstanceState} {op : Op} (has : v.pub = some a)
      (current : v.current = true)
      (stepped : instanceStep a.setup a.state (.begin op) = some s) :
      ViewMove p v { v with
        pub := some { a with state := s }
        works := .call p a.state.next none :: v.works }
  | step {a : Published} {s : InstanceState} {c : Call} {reply : Reply} {lease : Option Nat}
      (has : v.pub = some a) (mem : .call p c.id lease ∈ v.works)
      (stepped : instanceStep a.setup a.state (.step c reply) = some s)
      (inside : lease = none ∨ c.pc.inTransfer = true)
      (refused : c.pc.inAcquire = true → ∃ e, reply = .lease (.error e)) :
      ViewMove p v { v with pub := some { a with state := s } }
  | ret {a : Published} {s : InstanceState} {c : Call} {works : List Work}
      (has : v.pub = some a) (before : v.works.Perm (.call p c.id none :: works))
      (stepped : instanceStep a.setup a.state (.ret c) = some s)
      (held : { v with works := works }.held = true) :
      ViewMove p v { v with pub := some { a with state := s }, works := works }
  | retLast {a : Published} {s u : InstanceState} {c : Call} {answers : Copy → EventStatus}
      (has : v.pub = some a) (before : v.works.Perm [.call p c.id none])
      (removed : v.current = false)
      (stepped : instanceStep a.setup a.state (.ret c) = some s)
      (destroyed : instanceStep a.setup s (.destroy answers) = some u) :
      ViewMove p v { v with
        pub := some { a with
          state := u
          session := finalState (destroyInstance { a.inst with pool := v.pool } a.session) }
        works := [] }
  | lease {a : Published} {s : InstanceState} {c : Call} {qpNum : BitVec 32} {t : T}
      {index : Nat} {pool : ConnectionPool} {rest : List Work}
      (has : v.pub = some a) (before : v.works.Perm (.call p c.id none :: rest))
      (acquires : c.pc.inAcquire = true)
      (stepped : instanceStep a.setup a.state (.step c (.lease (.ok qpNum))) = some s)
      (taken : v.pool.takeFree = .ok (index, pool)) :
      ViewMove p v { v with
        pub := some { a with state := s }
        works := .call p c.id (some v.nextSerial) :: rest
        pool := pool
        leases := ⟨some p, index, false, t, v.nextSerial, none⟩ :: v.leases
        nextSerial := v.nextSerial + 1 }
  | use {a : Published} {l l' : Lease Nat T} {leases others : List (Lease Nat T)}
      {slot : Option RcConnection} {answers rest : List Answer} {log : List VerbsCall}
      (has : v.pub = some a) (before : v.leases.Perm (l :: others))
      (after : leases.Perm (l' :: others)) (key : l'.key = l.key)
      (takes : ∀ H,
        SlotOk a.inst.device.handles H ⟨answers, a.session.verbsLog, v.pool.connection l.index⟩ →
        SlotTakes a.inst.device.handles H
          ⟨answers, a.session.verbsLog, v.pool.connection l.index⟩ ⟨rest, log, slot⟩)
      (keeps : SlotKeeps a.inst.device.handles l
        ⟨answers, a.session.verbsLog, v.pool.connection l.index⟩ ⟨rest, log, slot⟩) :
      ViewMove p v { v with
        pub := some { a with session := a.session.record a.inst.device.handles answers log }
        pool := v.pool.setSlot l.index slot
        leases := leases }
  | giveBack {a : Published} {c : Call} {l : Lease Nat T} {leases : List (Lease Nat T)}
      {rest : List Work} (usable : Bool) (has : v.pub = some a) (mem : c ∈ a.state.calls)
      (before : v.works.Perm (.call p c.id (some l.serial) :: rest))
      (outside : c.pc.inTransfer = false) (held : v.leases.Perm (l :: leases)) :
      ViewMove p v { v with
        works := .call p c.id none :: rest
        pool := v.pool.giveBack l.index usable
        leases := leases }
  | finishCopy {a : Published} {s : InstanceState} {copy : StagingCopy} (has : v.pub = some a)
      (stepped : instanceStep a.setup a.state (.finishCopy copy) = some s) :
      ViewMove p v { v with pub := some { a with state := s } }
  | take {a : Published} {rest : List Work} (has : v.pub = some a) (current : v.current = true)
      (same : rest.Perm v.works) :
      ViewMove p v { v with
        pub := some { a with state := { a.state with current := false } }
        current := false
        works := .shutdown (.close p) :: rest }
  | close {a : Published} {rest : List Work} (has : v.pub = some a)
      (before : v.works.Perm (.shutdown (.close p) :: rest)) :
      ViewMove p v { v with
        works := .shutdown (.reset (some p)) :: rest
        pool := { v.pool with closed := true } }
  | reset {a : Published} {works : List Work} (has : v.pub = some a)
      (before : v.works.Perm (.shutdown (.reset (some p)) :: works))
      (held : { v with works := works }.held = true) : ViewMove p v { v with works := works }
  | resetLast {a : Published} {u : InstanceState} {answers : Copy → EventStatus}
      (has : v.pub = some a) (before : v.works.Perm [.shutdown (.reset (some p))])
      (removed : v.current = false)
      (destroyed : instanceStep a.setup a.state (.destroy answers) = some u) :
      ViewMove p v { v with
        pub := some { a with
          state := u
          session := finalState (destroyInstance { a.inst with pool := v.pool } a.session) }
        works := [] }

/-! ### Every step does one of these to every instance -/

section Steps

variable {lib lib' : LibraryState T} {p q : Nat}

theorem view_eq {v : InstanceView T} (hpub : lib.instances p = v.pub)
    (hcurrent : decide (lib.current = some p) = v.current)
    (hworks : lib.works.filter (Work.holds p) = v.works) (hpool : lib.system.pools p = v.pool)
    (hleases : lib.system.leases.filter (fun l => l.pool = some p) = v.leases)
    (hserial : lib.system.nextSerial = v.nextSerial) : lib.view p = v := by
  rw [LibraryState.view, hpub, hcurrent, hworks, hpool, hleases, hserial]

theorem filter_holds_nil {works : List Work} (h : ∀ w ∈ works, w.holds p = false) :
    works.filter (Work.holds p) = [] := by
  rw [List.filter_eq_nil_iff]
  intro w hw
  simp [h w hw]

/-- A step that concerns no reference to the instance, nor what is behind it. -/
theorem ViewMove.elsewhere (before after rest : List Work)
    (hworks : lib.works.Perm (before ++ rest)) (hworks' : lib'.works = after ++ rest)
    (hbefore : ∀ w ∈ before, w.holds p = false) (hafter : ∀ w ∈ after, w.holds p = false)
    (hinstances : lib'.instances p = lib.instances p)
    (hcurrent : lib'.current = some p ↔ lib.current = some p)
    (hpool : lib'.system.pools p = lib.system.pools p)
    (hleases : (lib'.view p).leases.Perm (lib.view p).leases)
    (hserial : lib.system.nextSerial ≤ lib'.system.nextSerial) :
    ViewMove p (lib.view p) (lib'.view p) := by
  refine .stay hinstances ?_ ?_ hpool hleases hserial
  · simp only [LibraryState.view, hcurrent]
  · have hperm := hworks.filter (Work.holds p)
    rw [List.filter_append, filter_holds_nil hbefore, List.nil_append] at hperm
    simp only [LibraryState.view, hworks', List.filter_append, filter_holds_nil hafter,
      List.nil_append]
    exact hperm.symm

/-- The frames are left alone. -/
theorem ViewMove.unmoved (hworks : lib'.works = lib.works)
    (hinstances : lib'.instances p = lib.instances p)
    (hcurrent : lib'.current = some p ↔ lib.current = some p)
    (hpool : lib'.system.pools p = lib.system.pools p)
    (hleases : (lib'.view p).leases.Perm (lib.view p).leases)
    (hserial : lib.system.nextSerial ≤ lib'.system.nextSerial) :
    ViewMove p (lib.view p) (lib'.view p) :=
  .elsewhere [] [] lib.works (.refl _) hworks (by simp) (by simp) hinstances hcurrent hpool hleases
    hserial

theorem SameLeases.view_leases (h : SameLeases lib.system lib'.system) :
    (lib'.view p).leases.Perm (lib.view p).leases := by
  simp [LibraryState.view, h.leases]

/-- A work on another instance. -/
theorem holds_call_ne (hq : p ≠ q) (id : Nat) (lease : Option Nat) :
    Work.holds p (.call q id lease) = false := by
  simp [Work.holds, Ne.symm hq]

theorem update_ne {instances : Nat → Option Published} {pub : Option Published} (hq : p ≠ q) :
    Function.update instances q pub p = instances p := Function.update_of_ne hq _ _

theorem update_pools_ne {pools : Nat → ConnectionPool} {pool : ConnectionPool} (hq : p ≠ q) :
    Function.update pools q pool p = pools p := Function.update_of_ne hq _ _

variable [DecidableEq T]

/-- A frame that refers to the instance, brought to the front. -/
theorem works_view_perm {t : T} {f : Frame T} (h : lib.top t = some f)
    (hf : f.work.holds p = true) :
    (lib.view p).works.Perm (f.work :: (lib.worksBelow t).filter (Work.holds p)) := by
  have hperm := (works_perm h).filter (Work.holds p)
  rwa [List.filter_cons_of_pos hf] at hperm

theorem PoolUse.view {pub : Published} {l : Lease Nat T} {answers : List Answer}
    {system : System Nat T} (has : lib.instances q = some pub)
    (h : PoolUse q pub.inst.device.handles answers l
      { lib.system with log := pub.session.verbsLog } system) (p : Nat) :
    ViewMove p (lib.view p) ((lib.withSystem q pub answers system).view p) := by
  obtain ⟨l', hkey, hleases⟩ := h.leases
  obtain ⟨slot, rest, hpools, htakes, hkeeps⟩ := h.slot
  have hleases : system.leases = l' :: lib.system.leases.erase l := hleases
  have hpools : system.pools =
      Function.update lib.system.pools q ((lib.system.pools q).setSlot l.index slot) := hpools
  have hpool' : l'.pool = some q := (congrArg Prod.fst hkey).trans h.pool
  have hmem : l ∈ lib.system.leases := h.mem
  by_cases hq : p = q
  · subst hq
    have hbefore : (lib.view p).leases.Perm
        (l :: (lib.system.leases.erase l).filter fun l => l.pool = some p) :=
      held_perm_cons hmem h.pool
    have hafter : (system.leases.filter fun l => l.pool = some p).Perm
        (l' :: (lib.system.leases.erase l).filter fun l => l.pool = some p) := by
      rw [hleases, List.filter_cons_of_pos (by simpa using hpool')]
    have hview : (lib.withSystem p pub answers system).view p = { lib.view p with
        pub := some { pub with
          session := pub.session.record pub.inst.device.handles answers system.log }
        pool := (lib.view p).pool.setSlot l.index slot
        leases := system.leases.filter fun l => l.pool = some p } := by
      refine view_eq (Function.update_self ..) rfl rfl ?_ rfl h.nextSerial
      exact (congrFun hpools p).trans (Function.update_self ..)
    rw [hview]
    exact .use has hbefore hafter hkey htakes hkeeps
  · refine .unmoved rfl (update_ne hq) .rfl ?_ ?_ (Nat.le_of_eq h.nextSerial.symm)
    · exact (congrFun hpools p).trans (update_pools_ne hq)
    · have hne : l.pool ≠ some p := by
        rw [h.pool]
        exact fun heq => hq (Option.some.inj heq).symm
      have hne' : decide (l'.pool = some p) = false := by
        rw [hpool']
        simpa using Ne.symm hq
      simp only [LibraryState.view, LibraryState.withSystem, hleases, List.filter_cons, hne']
      exact held_perm_erase hmem hne

/-- The end of a call, for the instance it was on. -/
theorem ViewMove.ofRet {t : T} {n : Nat} {pub : Published} {s : InstanceState} {c : Call}
    (top : lib.top t = some ⟨t, n, .call p c.id none⟩) (has : lib.instances p = some pub)
    (stepped : instanceStep pub.setup pub.state (.ret c) = some s)
    (lets : LetsGo ((lib.withState p pub s).pop t) p lib') :
    ViewMove p (lib.view p) (lib'.view p) := by
  have hbefore := works_view_perm (p := p) top (by simp [Work.holds])
  have hmid : ((lib.withState p pub s).pop t).view p = { lib.view p with
      pub := some { pub with state := s }
      works := (lib.worksBelow t).filter (Work.holds p) } :=
    view_eq (Function.update_self ..) rfl rfl rfl rfl rfl
  cases lets with
  | kept held =>
      rw [held_eq, hmid] at held
      rw [hmid]
      exact .ret has hbefore stepped held
  | @last pub' u answers unheld has' destroyed =>
      have hpub : ((lib.withState p pub s).pop t).instances p = some { pub with state := s } :=
        Function.update_self ..
      obtain rfl := Option.some.inj (hpub.symm.trans has')
      rw [held_eq, hmid] at unheld
      simp only [InstanceView.held, Bool.or_eq_false_iff, Bool.not_eq_false',
        List.isEmpty_iff] at unheld
      rw [unheld.2] at hbefore
      convert ViewMove.retLast has hbefore unheld.1 stepped destroyed using 1
      exact view_eq (Function.update_self ..) rfl unheld.2 rfl rfl rfl

/-- The end of a shutdown, for the instance it removed. -/
theorem ViewMove.ofReset {t : T} {n : Nat}
    (hlive : ∃ pub, lib.instances p = some pub)
    (top : lib.top t = some ⟨t, n, .shutdown (.reset (some p))⟩)
    (lets : LetsGo (lib.pop t) p lib') :
    ViewMove p (lib.view p) ((lib'.endShutdown (some p)).view p) := by
  obtain ⟨pub, has⟩ := hlive
  have hbefore := works_view_perm (p := p) top (by simp [Work.holds])
  have hmid : (lib.pop t).view p = { lib.view p with
      works := (lib.worksBelow t).filter (Work.holds p) } := view_eq rfl rfl rfl rfl rfl rfl
  cases lets with
  | kept held =>
      rw [held_eq, hmid] at held
      have hview : ((lib.pop t).endShutdown (some p)).view p = (lib.pop t).view p := rfl
      rw [hview, hmid]
      exact .reset has hbefore held
  | @last pub' u answers unheld has' destroyed =>
      obtain rfl := Option.some.inj (has.symm.trans has')
      rw [held_eq, hmid] at unheld
      simp only [InstanceView.held, Bool.or_eq_false_iff, Bool.not_eq_false',
        List.isEmpty_iff] at unheld
      rw [unheld.2] at hbefore
      convert ViewMove.resetLast has hbefore unheld.1 destroyed using 1
      exact view_eq (Function.update_self (f := lib.instances) p _) rfl unheld.2 rfl rfl rfl

omit [DecidableEq T] in
/-- Letting go of an instance does nothing to the others. -/
theorem LetsGo.view_ne (hq : p ≠ q) (h : LetsGo lib q lib') : lib'.view p = lib.view p := by
  cases h with
  | kept held => rfl
  | last unheld has stepped => exact view_eq (update_ne hq) rfl rfl rfl rfl rfl

/-- The frames refer to the instance as before, but for one that never did. -/
theorem works_view_perm_of_not {t : T} {f : Frame T} (h : lib.top t = some f)
    (hf : f.work.holds p = false) :
    ((lib.worksBelow t).filter (Work.holds p)).Perm (lib.view p).works := by
  have hperm := (works_perm h).filter (Work.holds p)
  rw [List.filter_cons_of_neg (by simp [hf])] at hperm
  exact hperm.symm

/-- The innermost frame of a thread goes on or ends, and refers to the instance
neither before nor after. -/
theorem ViewMove.reframed {t : T} {f : Frame T} (top : lib.top t = some f) (after : List Work)
    (hworks : lib'.works = after ++ lib.worksBelow t) (hbefore : f.work.holds p = false)
    (hafter : ∀ w ∈ after, w.holds p = false) (hinstances : lib'.instances = lib.instances)
    (hcurrent : lib'.current = lib.current) (hsystem : lib'.system = lib.system) :
    ViewMove p (lib.view p) (lib'.view p) := by
  refine .elsewhere [f.work] after (lib.worksBelow t) (works_perm top) hworks
    (by simpa using hbefore) hafter ?_ ?_ ?_ ?_ ?_
  · rw [hinstances]
  · rw [hcurrent]
  · rw [hsystem]
  · simp [LibraryState.view, hsystem]
  · rw [hsystem]

theorem LibraryMove.view (h : ControlOk lib)
    (hheld : ∀ q, lib.instances q = none → (lib.view q).works = [])
    (hmove : LibraryMove lib lib') (p : Nat) : ViewMove p (lib.view p) (lib'.view p) := by
  cases hmove with
  | notInitialized absent => exact .unmoved rfl rfl .rfl rfl (.refl _) (Nat.le_refl _)
  | @begin t q pub s op current has stepped =>
      by_cases hq : p = q
      · subst hq
        convert ViewMove.begin (v := lib.view p) has (by simp [LibraryState.view, current]) stepped
          using 1
        refine view_eq (Function.update_self ..) rfl ?_ rfl rfl rfl
        exact List.filter_cons_of_pos (by simp [Work.holds])
      · exact .elsewhere [] [.call q pub.state.next none] lib.works (.refl _) rfl (by simp)
          (by simpa using holds_call_ne hq _ _) (update_ne hq) .rfl rfl (.refl _) (Nat.le_refl _)
  | @step t n q id lease pub s c reply system top has isCall stepped inside refused threads =>
      by_cases hq : p = q
      · subst hq
        subst isCall
        have hmem : .call p c.id lease ∈ (lib.view p).works :=
          (works_view_perm (p := p) top (by simp [Work.holds])).mem_iff.mpr List.mem_cons_self
        convert ViewMove.step has hmem stepped inside refused using 1
        refine view_eq (Function.update_self ..) rfl rfl ?_ ?_ threads.nextSerial
        · exact congrFun threads.pools p
        · exact congrArg (List.filter _) threads.leases
      · exact .unmoved rfl (update_ne hq) .rfl (congrFun threads.pools p) threads.view_leases
          (Nat.le_of_eq threads.nextSerial.symm)
  | @ret t n q id pub s c _ top has isCall stepped lets =>
      by_cases hq : p = q
      · subst hq
        subst isCall
        exact .ofRet top has stepped lets
      · rw [lets.view_ne hq]
        exact .elsewhere [.call q id none] [] (lib.worksBelow t) (works_perm top) rfl
          (by simpa using holds_call_ne hq _ _) (by simp) (update_ne hq) .rfl rfl (.refl _)
          (Nat.le_refl _)
  | @lease t n q id index pub s c qpNum pool system top has isCall acquires stepped taken pools
      leases nextSerial =>
      by_cases hq : p = q
      · subst hq
        subst isCall
        have hbefore := works_view_perm (p := p) top (by simp [Work.holds])
        convert ViewMove.lease (t := t) has hbefore acquires stepped taken using 1
        refine view_eq (Function.update_self ..) rfl ?_ ?_ ?_ nextSerial
        · exact List.filter_cons_of_pos (by simp [Work.holds])
        · exact (congrFun pools p).trans (Function.update_self ..)
        · exact (congrArg (List.filter _) leases).trans (List.filter_cons_of_pos (by simp))
      · refine .elsewhere [.call q id none] [.call q id (some lib.system.nextSerial)]
          (lib.worksBelow t) (works_perm top) rfl (by simpa using holds_call_ne hq _ _)
          (by simpa using holds_call_ne hq _ _) (update_ne hq) .rfl ?_ ?_ ?_
        · exact (congrFun pools p).trans (update_pools_ne hq)
        · have hfilter : system.leases.filter (fun l => l.pool = some p) =
              lib.system.leases.filter fun l => l.pool = some p := by
            rw [leases]
            exact List.filter_cons_of_neg (by simpa using Ne.symm hq)
          exact .of_eq hfilter
        · exact Nat.le_of_lt (Nat.lt_of_lt_of_eq (Nat.lt_succ_self _) nextSerial.symm)
  | use has uses => exact uses.view has p
  | @giveBack t n q id pub c l system usable top has mem isCall after isPool isHeld pools leases
      nextSerial =>
      by_cases hq : p = q
      · subst hq
        subst isCall
        have hbefore := works_view_perm (p := p) top (by simp [Work.holds])
        have hleases : (lib.view p).leases.Perm
            (l :: system.leases.filter fun l => l.pool = some p) := by
          rw [leases]
          exact held_perm_cons isHeld isPool
        convert ViewMove.giveBack usable has mem hbefore after hleases using 1
        refine view_eq rfl rfl ?_ ?_ rfl nextSerial
        · exact List.filter_cons_of_pos (by simp [Work.holds])
        · exact (congrFun pools p).trans (Function.update_self ..)
      · refine .elsewhere [.call q id (some l.serial)] [.call q id none] (lib.worksBelow t)
          (works_perm top) rfl (by simpa using holds_call_ne hq _ _)
          (by simpa using holds_call_ne hq _ _) rfl .rfl ?_ ?_ (Nat.le_of_eq nextSerial.symm)
        · exact (congrFun pools p).trans (update_pools_ne hq)
        · have hne : l.pool ≠ some p := by
            rw [isPool]
            exact fun heq => hq (Option.some.inj heq).symm
          have hperm :
              (system.leases.filter fun l => l.pool = some p).Perm (lib.view p).leases := by
            rw [leases]
            exact held_perm_erase isHeld hne
          exact hperm
  | threads same =>
      exact .unmoved rfl rfl .rfl (congrFun same.pools p) same.view_leases
        (Nat.le_of_eq same.nextSerial.symm)
  | @finishCopy q pub s copy has stepped =>
      by_cases hq : p = q
      · subst hq
        convert ViewMove.finishCopy (v := lib.view p) has stepped using 1
        exact view_eq (Function.update_self ..) rfl rfl rfl rfl rfl
      · exact .unmoved rfl (update_ne hq) .rfl rfl (.refl _) (Nat.le_refl _)
  | enter locks =>
      cases locks with
      | init =>
          exact .elsewhere [] [.init .lock] lib.works (.refl _) rfl (by simp)
            (by simp [Work.holds]) rfl .rfl rfl (.refl _) (Nat.le_refl _)
      | shutdown =>
          exact .elsewhere [] [.shutdown .lock] lib.works (.refl _) rfl (by simp)
            (by simp [Work.holds]) rfl .rfl rfl (.refl _) (Nat.le_refl _)
  | @lock t n work work' top locks unlocked =>
      cases locks with
      | init =>
          exact .reframed top [.init .check] rfl rfl (by simp [Work.holds]) rfl rfl rfl
      | shutdown =>
          exact .reframed top [.shutdown .take] rfl rfl (by simp [Work.holds]) rfl rfl rfl
  | already top current => exact .reframed top [] rfl rfl (by simp) rfl rfl rfl
  | check top absent =>
      exact .reframed top [.init .build] rfl rfl (by simp [Work.holds]) rfl rfl rfl
  | failed top isError => exact .reframed top [] rfl rfl (by simp) rfl rfl rfl
  | @built t n inst setup session top isNew =>
      exact .reframed top [.init (.publish inst setup session)] rfl rfl (by simp [Work.holds])
        rfl rfl rfl
  | @publish t n inst setup session top =>
      have hmem : .init (.publish inst setup session) ∈ lib.works :=
        (works_perm top).mem_iff.mpr List.mem_cons_self
      by_cases hp : p = lib.count
      · have habsent : lib.instances p = none := (h.domain p).mpr (Nat.le_of_eq hp.symm)
        have hsame := works_view_perm_of_not (p := p) top rfl
        convert ViewMove.publish (v := lib.view p) setup habsent
          (h.building inst setup session hmem) hsame using 1
        subst hp
        exact view_eq (Function.update_self ..) (by simp [LibraryState.publish]) rfl
          (Function.update_self ..) rfl rfl
      · have habsent : lib.current = none := h.cleared _ hmem rfl
        refine .elsewhere [.init (.publish inst setup session)] [] (lib.worksBelow t)
          (works_perm top) rfl (by simp [Work.holds]) (by simp) (update_ne hp) ?_
          (update_pools_ne hp) (.refl _) (Nat.le_refl _)
        simpa [LibraryState.publish, habsent] using Ne.symm hp
  | nothing top absent =>
      exact .reframed top [.shutdown (.reset none)] rfl (by simp [Work.holds])
        (by simp [Work.holds]) rfl rfl rfl
  | @take t n q pub top current has =>
      by_cases hq : p = q
      · subst hq
        have hsame := works_view_perm_of_not (p := p) top rfl
        convert ViewMove.take (v := lib.view p) has (by simp [LibraryState.view, current]) hsame
          using 1
        refine view_eq (Function.update_self ..) (by simp) ?_ rfl rfl rfl
        exact List.filter_cons_of_pos (by simp [Work.holds])
      · refine .elsewhere [.shutdown .take] [.shutdown (.close q)] (lib.worksBelow t)
          (works_perm top) rfl (by simp [Work.holds]) (by simpa [Work.holds] using Ne.symm hq)
          (update_ne hq) ?_ rfl (.refl _) (Nat.le_refl _)
        simpa [current] using Ne.symm hq
  | @close t n q pub system top has pools leases nextSerial =>
      by_cases hq : p = q
      · subst hq
        have hbefore := works_view_perm (p := p) top (by simp [Work.holds])
        convert ViewMove.close has hbefore using 1
        refine view_eq rfl rfl ?_ ?_ (congrArg (List.filter _) leases) nextSerial
        · exact List.filter_cons_of_pos (by simp [Work.holds])
        · exact (congrFun pools p).trans (Function.update_self ..)
      · refine .elsewhere [.shutdown (.close q)] [.shutdown (.reset (some q))] (lib.worksBelow t)
          (works_perm top) rfl (by simpa [Work.holds] using Ne.symm hq)
          (by simpa [Work.holds] using Ne.symm hq) rfl .rfl ?_ ?_ (Nat.le_of_eq nextSerial.symm)
        · exact (congrFun pools p).trans (update_pools_ne hq)
        · exact .of_eq (congrArg (List.filter _) leases)
  | endNothing top =>
      exact .reframed top [] rfl (by simp [Work.holds]) (by simp) rfl rfl rfl
  | @endShutdown t n q mid top lets =>
      have hmem : .shutdown (.reset (some q)) ∈ lib.works :=
        (works_perm top).mem_iff.mpr List.mem_cons_self
      by_cases hq : p = q
      · subst hq
        have hview : .shutdown (.reset (some p)) ∈ (lib.view p).works :=
          List.mem_filter.mpr ⟨hmem, by simp [Work.holds]⟩
        refine .ofReset (Option.ne_none_iff_exists'.mp ?_) top lets
        intro hnone
        rw [hheld p hnone] at hview
        cases hview
      · have hview : mid.view p = (lib.pop t).view p := lets.view_ne hq
        change ViewMove p (lib.view p) (mid.view p)
        rw [hview]
        exact .reframed top [] rfl (by simpa [Work.holds] using Ne.symm hq) (by simp) rfl rfl rfl

end Steps

end HipObject
