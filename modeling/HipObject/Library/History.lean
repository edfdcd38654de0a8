import HipObject.Library.Transfers

/-!
# What can happen to the library, in which order

`EventOk` says what an event requires of those before it, and a history is lawful
if each of its events has that. `HistoryOk` ties the history of a library to its
state: which instances were published, removed and destroyed, which one is
current, and what the calls in progress have found. Every move keeps it.
-/

namespace HipObject

open Verification

/-! ### Lawful histories -/

/-- The instance that is current after some events. -/
def currentOf : List LibraryEvent → Option Nat
  | [] => none
  | .published p :: _ => some p
  | .removed _ :: _ => none
  | _ :: older => currentOf older

/-- Whether an instance is current and whether it is destroyed after some events,
once it is published. -/
def flagsOf : List LibraryEvent → Nat → Option (Bool × Bool)
  | [], _ => none
  | .published q :: older, p => if p = q then some (true, false) else flagsOf older p
  | .removed q :: older, p => if p = q then some (false, false) else flagsOf older p
  | .destroyed q :: older, p => if p = q then some (false, true) else flagsOf older p
  | _ :: older, p => flagsOf older p

/-- What an event requires of those before it. -/
def EventOk (older : List LibraryEvent) : LibraryEvent → Prop
  | .found n p => currentOf older = some p ∧ ∀ q, .found n q ∉ older
  | .notInitialized _ => currentOf older = none
  | .used n p => .found n p ∈ older ∧ .destroyed p ∉ older
  | .leased n p => .found n p ∈ older ∧ .destroyed p ∉ older ∧ .shutdownReturned (some p) ∉ older
  | .published p => currentOf older = none ∧ flagsOf older p = none
  | .failed result touched =>
      if (currentOf older).isSome then result = .AlreadyInitialized ∧ touched = false
      else result ≠ .Success ∧ touched = true
  | .removed p => currentOf older = some p ∧ flagsOf older p = some (true, false)
  | .shutdownReturned _ => currentOf older = none
  | .destroyed p => flagsOf older p = some (false, false)

/-- Each event is one that those before it allow. -/
def Lawful : List LibraryEvent → Prop
  | [] => True
  | e :: older => EventOk older e ∧ Lawful older

namespace Lawful

variable {newer older : List LibraryEvent} {e : LibraryEvent}

theorem split (h : Lawful (newer ++ e :: older)) : EventOk older e ∧ Lawful older := by
  induction newer with
  | nil => exact h
  | cons d rest ih => exact ih h.2

/-- From one `initWith` that succeeds to the next shutdown that takes the instance
out, the others find the library initialized. -/
theorem while_current (h : Lawful (newer ++ older)) {p : Nat} (hcurrent : currentOf older = some p)
    (hkept : ∀ q, .removed q ∉ newer) :
    currentOf (newer ++ older) = some p ∧ (∀ q, .published q ∉ newer) ∧
      ∀ result touched, .failed result touched ∈ newer →
        result = .AlreadyInitialized ∧ touched = false := by
  induction newer with
  | nil => exact ⟨hcurrent, by simp, by simp⟩
  | cons e rest ih =>
      obtain ⟨hok, hrest⟩ := h
      obtain ⟨hsame, hpublished, hfailed⟩ :=
        ih hrest fun q hq => hkept q (List.mem_cons_of_mem _ hq)
      cases e with
      | published q =>
          cases hok.1.symm.trans hsame
      | removed q => exact absurd List.mem_cons_self (hkept q)
      | failed result touched =>
          have hthis : result = .AlreadyInitialized ∧ touched = false := by
            change if (currentOf (rest ++ older)).isSome then _ else _ at hok
            rwa [if_pos (by rw [hsame]; rfl)] at hok
          refine ⟨hsame, by simpa using hpublished, ?_⟩
          intro result' touched' hmem
          rcases List.mem_cons.mp hmem with heq | hmem
          · cases heq
            exact hthis
          · exact hfailed result' touched' hmem
      | _ => exact ⟨hsame, by simpa using hpublished, by simpa using hfailed⟩

/-- With no current instance, calls find none until one is published. -/
theorem while_absent (h : Lawful (newer ++ older)) (hnone : currentOf older = none)
    (hlater : ∀ q, .published q ∉ newer) :
    currentOf (newer ++ older) = none ∧ ∀ n p, .found n p ∉ newer := by
  induction newer with
  | nil => exact ⟨hnone, by simp⟩
  | cons e rest ih =>
      obtain ⟨hok, hrest⟩ := h
      obtain ⟨hsame, hfound⟩ := ih hrest fun q hq => hlater q (List.mem_cons_of_mem _ hq)
      cases e with
      | published q => exact absurd List.mem_cons_self (hlater q)
      | found n p => cases hok.1.symm.trans hsame
      | removed q => exact ⟨rfl, by simpa using hfound⟩
      | _ => exact ⟨hsame, by simpa using hfound⟩

/-- A call finds one instance. -/
theorem found_unique {history : List LibraryEvent} (h : Lawful history) {n p q : Nat}
    (hp : .found n p ∈ history) (hq : .found n q ∈ history) : q = p := by
  induction history with
  | nil => cases hp
  | cons e older ih =>
      obtain ⟨hok, hrest⟩ := h
      rcases List.mem_cons.mp hp with heq | hp'
      · subst heq
        rcases List.mem_cons.mp hq with heq | hq'
        · cases heq
          rfl
        · exact absurd hq' (hok.2 q)
      · rcases List.mem_cons.mp hq with heq | hq'
        · subst heq
          exact absurd hp' (hok.2 p)
        · exact ih hrest hp' hq'

/-- What is destroyed stays so. -/
theorem flagsOf_of_destroyed {history : List LibraryEvent} (h : Lawful history) {p : Nat}
    (hmem : .destroyed p ∈ history) : flagsOf history p = some (false, true) := by
  induction history with
  | nil => cases hmem
  | cons e older ih =>
      obtain ⟨hok, hrest⟩ := h
      rcases List.mem_cons.mp hmem with heq | hmem'
      · subst heq
        exact if_pos rfl
      · have hbefore := ih hrest hmem'
        cases e with
        | published q =>
            have hq : p ≠ q := by
              rintro rfl
              cases hok.2.symm.trans hbefore
            exact (if_neg hq).trans hbefore
        | removed q =>
            have hq : p ≠ q := by
              rintro rfl
              cases hok.2.symm.trans hbefore
            exact (if_neg hq).trans hbefore
        | destroyed q =>
            have hq : p ≠ q := by
              rintro rfl
              cases hok.symm.trans hbefore
            exact (if_neg hq).trans hbefore
        | _ => exact hbefore

theorem destroyed_once {history : List LibraryEvent} (h : Lawful history) (p : Nat) :
    history.count (.destroyed p) ≤ 1 := by
  induction history with
  | nil => exact Nat.zero_le _
  | cons e older ih =>
      obtain ⟨hok, hrest⟩ := h
      by_cases heq : e = .destroyed p
      · subst heq
        have hfirst : .destroyed p ∉ older := by
          intro hmem
          cases (flagsOf_of_destroyed hrest hmem).symm.trans hok
        rw [List.count_cons_self, List.count_eq_zero.mpr hfirst]
      · rw [List.count_cons_of_ne heq]
        exact ih hrest

/-- What is not current any more was removed. -/
theorem removed_of_flagsOf {history : List LibraryEvent} (h : Lawful history) {p : Nat}
    {destroyed : Bool} (hflags : flagsOf history p = some (false, destroyed)) :
    .removed p ∈ history := by
  induction history generalizing destroyed with
  | nil => cases hflags
  | cons e older ih =>
      obtain ⟨hok, hrest⟩ := h
      have hlater : ∀ d, flagsOf older p = some (false, d) → .removed p ∈ e :: older :=
        fun d hd => List.mem_cons_of_mem _ (ih hrest hd)
      cases e with
      | published q =>
          by_cases hq : p = q
          · cases (if_pos hq).symm.trans hflags
          · exact hlater _ ((if_neg hq).symm.trans hflags)
      | removed q =>
          by_cases hq : p = q
          · rw [hq]
            exact List.mem_cons_self
          · exact hlater _ ((if_neg hq).symm.trans hflags)
      | destroyed q =>
          by_cases hq : p = q
          · exact hlater false (hq ▸ hok)
          · exact hlater _ ((if_neg hq).symm.trans hflags)
      | _ => exact hlater _ hflags

end Lawful

theorem destroyed_of_flagsOf {history : List LibraryEvent} {p : Nat} {current : Bool}
    (h : flagsOf history p = some (current, true)) : .destroyed p ∈ history := by
  induction history with
  | nil => cases h
  | cons e older ih =>
      cases e with
      | published q =>
          by_cases hq : p = q
          · cases (if_pos hq).symm.trans h
          · exact List.mem_cons_of_mem _ (ih ((if_neg hq).symm.trans h))
      | removed q =>
          by_cases hq : p = q
          · cases (if_pos hq).symm.trans h
          · exact List.mem_cons_of_mem _ (ih ((if_neg hq).symm.trans h))
      | destroyed q =>
          by_cases hq : p = q
          · rw [hq]
            exact List.mem_cons_self
          · exact List.mem_cons_of_mem _ (ih ((if_neg hq).symm.trans h))
      | _ => exact List.mem_cons_of_mem _ (ih h)

/-- The current instance was published, and not removed since. -/
theorem currentOf_eq_some {history : List LibraryEvent} {p : Nat} (h : currentOf history = some p) :
    ∃ newer older, history = newer ++ .published p :: older ∧ ∀ q, .removed q ∉ newer := by
  induction history with
  | nil => cases h
  | cons e rest ih =>
      cases e with
      | published q =>
          cases h
          exact ⟨[], rest, rfl, by simp⟩
      | removed q => cases h
      | _ =>
          obtain ⟨newer, older, rfl, hkept⟩ := ih h
          exact ⟨_ :: newer, older, rfl, by simpa using hkept⟩

/-! ### The history and the state -/

variable {T : Type}

/-- The same of an instance of the library. -/
def LibraryState.flags (lib : LibraryState T) (p : Nat) : Option (Bool × Bool) :=
  (lib.instances p).map fun a => (a.state.current, a.state.destroyed)

structure HistoryOk (lib : LibraryState T) : Prop where
  lawful : Lawful lib.history
  current : currentOf lib.history = lib.current
  flags : ∀ p, flagsOf lib.history p = lib.flags p
  /-- A call in progress is on the instance it found. -/
  found : ∀ f ∈ lib.frames, ∀ p id lease, f.work = .call p id lease →
    .found f.serial p ∈ lib.history
  serials : ∀ n p, .found n p ∈ lib.history → n < lib.nextCall
  closed : ∀ p, .shutdownReturned (some p) ∈ lib.history →
    (lib.flags p).isSome = true ∧ (lib.system.pools p).closed = true

/-- The events that change neither which instance is current nor what became of
one. -/
def LibraryEvent.isMinor : LibraryEvent → Bool
  | .notInitialized _ => true
  | .used .. => true
  | .leased .. => true
  | .failed .. => true
  | _ => false

namespace HistoryOk

variable {lib lib' : LibraryState T}

theorem initial : HistoryOk (.initial T) where
  lawful := trivial
  current := rfl
  flags := fun _ => rfl
  found := by simp [LibraryState.initial]
  serials := by simp [LibraryState.initial]
  closed := by simp [LibraryState.initial]

/-- A step that is not noted. -/
theorem quiet (h : HistoryOk lib) (hhistory : lib'.history = lib.history)
    (hcurrent : lib'.current = lib.current) (hnext : lib.nextCall ≤ lib'.nextCall)
    (hframes : ∀ f ∈ lib'.frames, ∀ p id lease, f.work = .call p id lease →
      .found f.serial p ∈ lib.history)
    (hflags : ∀ p, lib'.flags p = lib.flags p)
    (hclosed : ∀ p, (lib.system.pools p).closed = true → (lib'.system.pools p).closed = true) :
    HistoryOk lib' where
  lawful := hhistory ▸ h.lawful
  current := by rw [hhistory, hcurrent, h.current]
  flags := by
    intro p
    rw [hhistory, hflags]
    exact h.flags p
  found := by
    rw [hhistory]
    exact hframes
  serials := by
    intro n p hmem
    rw [hhistory] at hmem
    exact Nat.lt_of_lt_of_le (h.serials n p hmem) hnext
  closed := by
    intro p hmem
    rw [hhistory] at hmem
    obtain ⟨hsome, hpool⟩ := h.closed p hmem
    exact ⟨hflags p ▸ hsome, hclosed p hpool⟩

theorem note (h : HistoryOk lib) {e : LibraryEvent} (hminor : e.isMinor = true)
    (hok : EventOk lib.history e) : HistoryOk (lib.note e) := by
  have hmem : ∀ d : LibraryEvent, d.isMinor = false → d ∈ e :: lib.history → d ∈ lib.history := by
    intro d hd hmem
    refine (List.mem_cons.mp hmem).resolve_left ?_
    rintro rfl
    cases hd.symm.trans hminor
  refine ⟨⟨hok, h.lawful⟩, ?_, ?_, ?_, ?_, ?_⟩
  · refine Eq.trans ?_ h.current
    cases e with
    | published p => cases hminor
    | removed p => cases hminor
    | _ => rfl
  · intro p
    refine Eq.trans ?_ (h.flags p)
    cases e with
    | published p => cases hminor
    | removed p => cases hminor
    | destroyed p => cases hminor
    | _ => rfl
  · intro f hf p id lease hwork
    exact List.mem_cons_of_mem _ (h.found f hf p id lease hwork)
  · intro n p hfound
    exact h.serials n p (hmem _ rfl hfound)
  · intro p hreturned
    exact h.closed p (hmem _ rfl hreturned)

/-! ### What became of an instance -/

/-- The steps of an instance that leave alone whether it is current or destroyed. -/
theorem flags_withState {p : Nat} {a : Published} {s : InstanceState}
    (has : lib.instances p = some a) (hcurrent : s.current = a.state.current)
    (hdestroyed : s.destroyed = a.state.destroyed) (q : Nat) :
    (lib.withState p a s).flags q = lib.flags q := by
  by_cases hq : q = p
  · subst hq
    simp [LibraryState.flags, LibraryState.withState, has, hcurrent, hdestroyed]
  · simp [LibraryState.flags, LibraryState.withState, Function.update_of_ne hq]

theorem flags_withSystem {p : Nat} {a : Published} {answers : List Answer}
    {system : System Nat T} (has : lib.instances p = some a) (q : Nat) :
    (lib.withSystem p a answers system).flags q = lib.flags q := by
  by_cases hq : q = p
  · subst hq
    simp [LibraryState.flags, LibraryState.withSystem, has]
  · simp [LibraryState.flags, LibraryState.withSystem, Function.update_of_ne hq]

/-- An instance that is referred to is not destroyed. -/
theorem not_destroyed (h : HistoryOk lib) {p : Nat} (hview : ViewOk p (lib.view p))
    (hheld : (lib.view p).held = true) : .destroyed p ∉ lib.history := by
  intro hmem
  have hflags := (h.flags p).symm.trans (h.lawful.flagsOf_of_destroyed hmem)
  obtain ⟨a, has, heq⟩ := Option.map_eq_some_iff.mp hflags
  have hdestroyed := (hview.lives.published a has).destroyed
  have hover : a.state.destroyed = true := congrArg Prod.snd heq
  rw [hheld, hover] at hdestroyed
  cases hdestroyed

/-- A reference goes, and the instance with it if it was the last. -/
theorem letsGo (h : HistoryOk lib) {p : Nat}
    (hreached : ∀ a, lib.instances p = some a → (instanceMachine a.setup).Reachable a.state)
    (hmove : LetsGo lib p lib') : HistoryOk lib' := by
  cases hmove with
  | kept held => exact h
  | @last a s answers unheld has stepped =>
      have hover := (instanceStep_destroy_frame stepped).2.2
      have hreached := reachable_instanceStep (hreached a has) stepped
      have hended := (owned_of_reachable hreached).ended hover
      have hbefore : lib.flags p = some (false, false) := by
        obtain ⟨hretired, halive, -⟩ := instanceStep_destroy_eq stepped
        simp [LibraryState.flags, has, hretired, halive]
      refine ⟨⟨(h.flags p).trans hbefore, h.lawful⟩, h.current, ?_, ?_, ?_, ?_⟩
      · intro q
        by_cases hq : q = p
        · subst hq
          simp [flagsOf, LibraryState.flags, hover, hended.1]
        · simpa [flagsOf, LibraryState.flags, hq] using h.flags q
      · intro f hf q id lease hwork
        exact List.mem_cons_of_mem _ (h.found f hf q id lease hwork)
      · intro n q hfound
        exact h.serials n q (by simpa using hfound)
      · intro q hreturned
        obtain ⟨hsome, hpool⟩ := h.closed q (by simpa using hreturned)
        refine ⟨?_, hpool⟩
        by_cases hq : q = p
        · simp [LibraryState.flags, hq]
        · simpa [LibraryState.flags, hq] using hsome

/-! ### Frames -/

section Frames

variable [DecidableEq T] {t : T} {f : Frame T}

theorem mem_of_top (h : lib.top t = some f) : f ∈ lib.frames := List.mem_of_find?_eq_some h

/-- The frames below the innermost one of a thread. -/
theorem found_below (h : HistoryOk lib) (t : T) :
    ∀ f ∈ lib.below t, ∀ p id lease, f.work = .call p id lease → .found f.serial p ∈ lib.history :=
  fun f hf => h.found f (List.mem_of_mem_eraseP hf)

/-- A frame goes on to other work, on the same instance if it is a call. -/
theorem found_goto (h : HistoryOk lib) {work : Work} (htop : lib.top t = some f)
    (hwork : ∀ p id lease, work = .call p id lease → ∃ id' lease', f.work = .call p id' lease') :
    ∀ g ∈ { f with work := work } :: lib.below f.thread, ∀ p id lease,
      g.work = .call p id lease → .found g.serial p ∈ lib.history := by
  intro g hg p id lease hcall
  rcases List.mem_cons.mp hg with rfl | hg
  · obtain ⟨id', lease', hbefore⟩ := hwork p id lease hcall
    exact h.found f (mem_of_top htop) p id' lease' hbefore
  · exact h.found_below f.thread g hg p id lease hcall

/-- A frame of `initWith` or `shutdownInstance` goes on. -/
theorem goto (h : HistoryOk lib) {work : Work} (htop : lib.top t = some f)
    (hwork : work.callId = none) : HistoryOk (lib.goto f work) := by
  refine h.quiet rfl rfl (Nat.le_refl _) ?_ (fun _ => rfl) fun _ hclosed => hclosed
  refine h.found_goto htop ?_
  rintro p id lease rfl
  cases hwork

theorem pop (h : HistoryOk lib) (t : T) : HistoryOk (lib.pop t) :=
  h.quiet rfl rfl (Nat.le_refl _) (h.found_below t) (fun _ => rfl) fun _ hclosed => hclosed

/-- `initWith` returns an error. -/
theorem failInit (h : HistoryOk lib) {result : OpError} {touched : Bool}
    (hok : EventOk lib.history (.failed result touched)) :
    HistoryOk (lib.failInit t result touched) := by
  have hnoted := (h.pop t).note (e := .failed result touched) rfl hok
  exact hnoted.quiet rfl rfl (Nat.le_refl _) hnoted.found (fun _ => rfl) fun _ hclosed => hclosed

omit [DecidableEq T] in
/-- `shutdownInstance` returns. -/
theorem endShutdown (h : HistoryOk lib) {p : Option Nat} (hcurrent : lib.current = none)
    (hclosed : ∀ q, p = some q → (lib.flags q).isSome = true ∧ (lib.system.pools q).closed = true) :
    HistoryOk (lib.endShutdown p) := by
  refine ⟨⟨h.current.trans hcurrent, h.lawful⟩, h.current, h.flags, ?_, ?_, ?_⟩
  · intro f hf q id lease hwork
    exact List.mem_cons_of_mem _ (h.found f hf q id lease hwork)
  · intro n q hfound
    exact h.serials n q (by simpa [LibraryState.endShutdown, LibraryState.note] using hfound)
  · intro q hreturned
    rcases List.mem_cons.mp hreturned with heq | hreturned
    · cases heq
      exact hclosed q rfl
    · exact h.closed q hreturned

/-- The instance of a call in progress is not destroyed. -/
theorem not_destroyed_of_call (h : HistoryOk lib) {n p id : Nat} {lease : Option Nat}
    (hview : ViewOk p (lib.view p)) (htop : lib.top t = some ⟨t, n, .call p id lease⟩) :
    .destroyed p ∉ lib.history := by
  have hmem : .call p id lease ∈ (lib.view p).works :=
    (works_view_perm (p := p) htop (by simp [Work.holds])).mem_iff.mpr List.mem_cons_self
  exact h.not_destroyed hview (Lives.held_of_mem hmem)

/-- The pool of an instance that a shutdown is about to let go of is closed. -/
theorem closed_of_reset {n p : Nat} (hcontrol : ControlOk lib) (hview : ViewOk p (lib.view p))
    (htop : lib.top t = some ⟨t, n, .shutdown (.reset (some p))⟩) :
    (lib.flags p).isSome = true ∧ (lib.system.pools p).closed = true := by
  have hworks := works_perm htop
  obtain ⟨-, hrest⟩ := hcontrol.alone hworks rfl
  have hmem : .shutdown (.reset (some p)) ∈ (lib.view p).works :=
    List.mem_filter.mpr ⟨hworks.mem_iff.mpr List.mem_cons_self, by simp [Work.holds]⟩
  have hsome : (lib.view p).pub.isSome = true := by
    rw [Option.isSome_iff_ne_none]
    intro hnone
    rw [(hview.lives.absent hnone).2.1] at hmem
    cases hmem
  have hremoved : lib.current = none :=
    hcontrol.cleared _ (hworks.mem_iff.mpr List.mem_cons_self) rfl
  refine ⟨Option.isSome_map.trans hsome, hview.closed hsome ?_ ?_⟩
  · simp [LibraryState.view, hremoved]
  · intro hclose
    -- nobody else has the mutex
    have hclose := hworks.mem_iff.mp (List.mem_filter.mp hclose).1
    rcases List.mem_cons.mp hclose with heq | hclose
    · cases heq
    · exact List.countP_eq_zero.mp hrest _ hclose rfl

omit [DecidableEq T] in
/-- A call finds the current instance. -/
theorem begins (h : HistoryOk lib) {p : Nat} {a : Published} {s : InstanceState} {op : Op}
    (current : lib.current = some p) (has : lib.instances p = some a)
    (stepped : instanceStep a.setup a.state (.begin op) = some s) :
    HistoryOk { (lib.withState p a s).note (.found lib.nextCall p) with
      frames := ⟨t, lib.nextCall, .call p a.state.next none⟩ :: lib.frames
      nextCall := lib.nextCall + 1 } := by
  have hsame : s.current = a.state.current ∧ s.destroyed = a.state.destroyed := by
    rw [(instanceStep_begin_eq stepped).2]
    exact ⟨rfl, rfl⟩
  have hflags := flags_withState has hsame.1 hsame.2
  have hfresh : ∀ q, .found lib.nextCall q ∉ lib.history :=
    fun q hmem => Nat.lt_irrefl _ (h.serials _ q hmem)
  refine ⟨⟨⟨h.current.trans current, hfresh⟩, h.lawful⟩, h.current, ?_, ?_, ?_, ?_⟩
  · intro q
    exact (h.flags q).trans (hflags q).symm
  · intro f hf q id lease hwork
    rcases List.mem_cons.mp hf with rfl | hf
    · cases hwork
      exact List.mem_cons_self
    · exact List.mem_cons_of_mem _ (h.found f hf q id lease hwork)
  · intro n q hfound
    rcases List.mem_cons.mp hfound with heq | hfound
    · cases heq
      exact Nat.lt_succ_self _
    · exact Nat.lt_succ_of_lt (h.serials n q hfound)
  · intro q hreturned
    obtain ⟨hsome, hpool⟩ := h.closed q (List.mem_of_ne_of_mem (by simp) hreturned)
    exact ⟨(hflags q).symm ▸ hsome, hpool⟩

/-- `initWith` publishes an instance that was never one. -/
theorem publishes (h : HistoryOk lib) (hcontrol : ControlOk lib) {inst : Instance} {setup : Setup}
    {session : Session} (hcurrent : lib.current = none) :
    HistoryOk (lib.publish t inst setup session) := by
  have habsent : lib.instances lib.count = none := (hcontrol.domain _).mpr (Nat.le_refl _)
  have hnone : lib.flags lib.count = none := by rw [LibraryState.flags, habsent]; rfl
  refine ⟨⟨⟨h.current.trans hcurrent, (h.flags _).trans hnone⟩, h.lawful⟩, rfl,
    ?_, ?_, ?_, ?_⟩
  · intro q
    by_cases hq : q = lib.count
    · subst hq
      simp [flagsOf, LibraryState.publish, LibraryState.flags, LibraryState.note,
        InstanceState.initial]
    · simpa [flagsOf, LibraryState.publish, LibraryState.flags, LibraryState.note,
        LibraryState.pop, hq] using h.flags q
  · intro f hf p id lease hwork
    exact List.mem_cons_of_mem _ (h.found_below t f hf p id lease hwork)
  · intro k p hfound
    exact h.serials k p (List.mem_of_ne_of_mem (by simp) hfound)
  · intro q hreturned
    obtain ⟨hsome, hpool⟩ := h.closed q (List.mem_of_ne_of_mem (by simp) hreturned)
    have hq : q ≠ lib.count := by
      rintro rfl
      rw [hnone] at hsome
      cases hsome
    simpa [LibraryState.publish, LibraryState.flags, Function.update_of_ne hq] using
      And.intro hsome hpool

/-- `shutdownInstance` takes the current instance out. -/
theorem takes (h : HistoryOk lib) {n p : Nat} {a : Published} (hview : ViewOk p (lib.view p))
    (top : lib.top t = some ⟨t, n, .shutdown .take⟩) (current : lib.current = some p)
    (has : lib.instances p = some a) :
    HistoryOk { ((lib.withState p a { a.state with current := false }).goto
      ⟨t, n, .shutdown .take⟩ (.shutdown (.close p))).note (.removed p) with current := none } := by
  have hlives := hview.lives.published a has
  have hcurrent : a.state.current = true := by
    rw [hlives.current]
    simp [LibraryState.view, current]
  have halive : a.state.destroyed = false := by
    rw [hlives.destroyed]
    simp [InstanceView.held, LibraryState.view, current]
  have hbefore : lib.flags p = some (true, false) := by
    simp [LibraryState.flags, has, hcurrent, halive]
  refine ⟨⟨⟨h.current.trans current, (h.flags p).trans hbefore⟩, h.lawful⟩, rfl, ?_, ?_, ?_, ?_⟩
  · intro q
    by_cases hq : q = p
    · subst hq
      simp [flagsOf, LibraryState.flags, LibraryState.note, LibraryState.goto,
        LibraryState.withState, halive]
    · simpa [flagsOf, LibraryState.flags, LibraryState.note, LibraryState.goto,
        LibraryState.withState, hq] using h.flags q
  · have hmid : HistoryOk (lib.goto ⟨t, n, .shutdown .take⟩ (.shutdown (.close p))) :=
      h.goto top rfl
    intro f hf q id lease hwork
    exact List.mem_cons_of_mem _ (hmid.found f hf q id lease hwork)
  · intro k q hfound
    exact h.serials k q (List.mem_of_ne_of_mem (by simp) hfound)
  · intro q hreturned
    obtain ⟨hsome, hpool⟩ := h.closed q (List.mem_of_ne_of_mem (by simp) hreturned)
    refine ⟨?_, hpool⟩
    by_cases hq : q = p
    · simp [LibraryState.flags, LibraryState.note, LibraryState.goto, LibraryState.withState, hq]
    · simpa [LibraryState.flags, LibraryState.note, LibraryState.goto, LibraryState.withState,
        hq] using hsome

/-- A pool makes way for one that is closed if it was. -/
theorem closed_update {pools : Nat → ConnectionPool} {p : Nat} {pool : ConnectionPool}
    (hpool : (pools p).closed = true → pool.closed = true) (q : Nat)
    (hclosed : (pools q).closed = true) : (Function.update pools p pool q).closed = true := by
  by_cases hq : q = p
  · subst hq
    rw [Function.update_self]
    exact hpool hclosed
  · rw [Function.update_of_ne hq]
    exact hclosed

/-! ### Every move -/

theorem move (h : HistoryOk lib) (hcontrol : ControlOk lib) (hviews : ∀ p, ViewOk p (lib.view p))
    (hmove : LibraryMove lib lib') : HistoryOk lib' := by
  have hcleared : ∀ {t n work}, lib.top t = some ⟨t, n, work⟩ → work.clears = true →
      lib.current = none := fun htop hclears =>
    hcontrol.cleared _ ((works_perm htop).mem_iff.mpr List.mem_cons_self) hclears
  have hreached : ∀ p a, lib.instances p = some a → (instanceMachine a.setup).Reachable a.state :=
    fun p a has => ((hviews p).lives.published a has).reached
  cases hmove with
  | notInitialized absent =>
      have hnoted := h.note (e := .notInitialized lib.nextCall) rfl (h.current.trans absent)
      exact hnoted.quiet rfl rfl (Nat.le_succ _) hnoted.found (fun _ => rfl)
        fun _ hclosed => hclosed
  | begin current has stepped => exact h.begins current has stepped
  | @step t n p id lease a s c reply system top has isCall stepped inside refused threads =>
      obtain ⟨-, hcurrent, hdestroyed, -⟩ := instanceStep_step_frame stepped
      have hmid : HistoryOk ({ lib with system := system }.withState p a s) := by
        refine h.quiet rfl rfl (Nat.le_refl _) h.found ?_ ?_
        · exact @flags_withState T { lib with system := system } p a s has hcurrent hdestroyed
        · intro q hclosed
          rw [← hclosed]
          exact congrArg ConnectionPool.closed (congrFun threads.pools q)
      refine hmid.note rfl ⟨?_, ?_⟩
      · exact h.found _ (mem_of_top top) p id lease rfl
      · exact h.not_destroyed_of_call (hviews p) top
  | @ret t n p id a s c _ top has isCall stepped lets =>
      have hsame : s.current = a.state.current ∧ s.destroyed = a.state.destroyed := by
        rw [(instanceStep_ret_eq stepped).2.2]
        exact ⟨rfl, rfl⟩
      have hmid : HistoryOk (lib.withState p a s) :=
        h.quiet rfl rfl (Nat.le_refl _) h.found (flags_withState has hsame.1 hsame.2)
          fun _ hclosed => hclosed
      refine (hmid.pop t).letsGo ?_ lets
      intro b hb
      have hb : Function.update lib.instances p (some { a with state := s }) p = some b := hb
      rw [Function.update_self] at hb
      cases hb
      exact reachable_instanceStep (hreached p a has) stepped
  | @lease t n p id index a s c qpNum pool system top has isCall acquires stepped taken pools
      leases nextSerial =>
      obtain ⟨-, hcurrent, hdestroyed, -⟩ := instanceStep_step_frame stepped
      obtain ⟨hopen, -, htaken⟩ := ConnectionPool.takeFree_ok taken
      have hmid : HistoryOk (({ lib with system := system }.withState p a s).goto
          ⟨t, n, .call p id none⟩ (.call p id (some lib.system.nextSerial))) := by
        refine h.quiet rfl rfl (Nat.le_refl _) ?_ ?_ ?_
        · refine h.found_goto top ?_
          intro q id' lease hcall
          cases hcall
          exact ⟨id, none, rfl⟩
        · exact @flags_withState T { lib with system := system } p a s has hcurrent hdestroyed
        · intro q hclosed
          change (system.pools q).closed = true
          rw [pools]
          refine closed_update ?_ q hclosed
          intro hbefore
          cases hopen.symm.trans hbefore
      refine hmid.note rfl ⟨?_, ?_, ?_⟩
      · exact h.found _ (mem_of_top top) p id none rfl
      · exact h.not_destroyed_of_call (hviews p) top
      · intro hreturned
        cases hopen.symm.trans (h.closed p hreturned).2
  | @use p a l answers system has uses =>
      obtain ⟨slot, rest, hpools, -⟩ := uses.slot
      refine h.quiet rfl rfl (Nat.le_refl _) h.found (flags_withSystem has) ?_
      intro q hclosed
      change (system.pools q).closed = true
      rw [hpools]
      refine closed_update ?_ q hclosed
      intro hbefore
      exact hbefore
  | @giveBack t n p id a c l system usable top has mem isCall after isPool isHeld pools leases
      nextSerial =>
      refine h.quiet rfl rfl (Nat.le_refl _) ?_ (fun _ => rfl) ?_
      · refine h.found_goto top ?_
        intro q id' lease hcall
        cases hcall
        exact ⟨id, some l.serial, rfl⟩
      · intro q hclosed
        change (system.pools q).closed = true
        rw [pools]
        refine closed_update ?_ q hclosed
        intro hbefore
        cases usable <;> exact hbefore
  | threads same =>
      refine h.quiet rfl rfl (Nat.le_refl _) h.found (fun _ => rfl) ?_
      intro q hclosed
      rw [← hclosed]
      exact congrArg ConnectionPool.closed (congrFun same.pools q)
  | @finishCopy p a s copy has stepped =>
      have hsame : s.current = a.state.current ∧ s.destroyed = a.state.destroyed := by
        rw [(instanceStep_finishCopy_eq stepped).2.2]
        exact ⟨rfl, rfl⟩
      exact h.quiet rfl rfl (Nat.le_refl _) h.found (flags_withState has hsame.1 hsame.2)
        fun _ hclosed => hclosed
  | @enter t work work' locks =>
      refine h.quiet rfl rfl (Nat.le_succ _) ?_ (fun _ => rfl) fun _ hclosed => hclosed
      intro f hf p id lease hwork
      rcases List.mem_cons.mp hf with rfl | hf
      · cases locks <;> cases hwork
      · exact h.found f hf p id lease hwork
  | @lock t n work work' top locks unlocked =>
      have hmid : HistoryOk (lib.goto ⟨t, n, work⟩ work') :=
        h.goto top (by cases locks <;> rfl)
      exact hmid.quiet rfl rfl (Nat.le_refl _) hmid.found (fun _ => rfl) fun _ hclosed => hclosed
  | @already t n top current =>
      refine h.failInit ?_
      change if (currentOf lib.history).isSome then _ else _
      rw [h.current, if_pos current]
      exact ⟨rfl, rfl⟩
  | check top absent => exact h.goto top rfl
  | @failed t n result top isError =>
      refine h.failInit ?_
      change if (currentOf lib.history).isSome then _ else _
      rw [h.current, hcleared top rfl]
      exact ⟨isError, rfl⟩
  | built top isNew => exact h.goto top rfl
  | publish top => exact h.publishes hcontrol (hcleared top rfl)
  | nothing top absent => exact h.goto top rfl
  | take top current has => exact h.takes (hviews _) top current has
  | @close t n p a system top has pools leases nextSerial =>
      refine h.quiet rfl rfl (Nat.le_refl _) ?_ (fun _ => rfl) ?_
      · refine h.found_goto top ?_
        intro q id lease hcall
        cases hcall
      · intro q hclosed
        change (system.pools q).closed = true
        rw [pools]
        exact closed_update (fun _ => rfl) q hclosed
  | @endNothing t n top =>
      refine (h.pop t).endShutdown (hcleared top rfl) ?_
      intro q hq
      cases hq
  | @endShutdown t n p mid top lets =>
      have hclosed := closed_of_reset hcontrol (hviews p) top
      have hmid := (h.pop t).letsGo (hreached p) lets
      have hsame : mid.current = lib.current ∧ mid.system = lib.system ∧
          (mid.flags p).isSome = true := by
        cases lets with
        | kept held => exact ⟨rfl, rfl, hclosed.1⟩
        | last unheld has stepped => exact ⟨rfl, rfl, by simp [LibraryState.flags]⟩
      refine hmid.endShutdown (hsame.1.trans (hcleared top rfl)) ?_
      intro q hq
      cases hq
      rw [hsame.2.1]
      exact ⟨hsame.2.2, hclosed.2⟩

end Frames

end HistoryOk

theorem historyOk_of_reachable [DecidableEq T] [Fintype T] {lib : LibraryState T}
    (h : (libraryMachine T).Reachable lib) : HistoryOk lib := by
  refine Machine.Reachable.invariant (I := HistoryOk) ?_ ?_ h
  · intro lib hinit
    rw [show lib = .initial T from hinit]
    exact .initial
  · intro lib a lib' hreached hlib hstep
    exact hlib.move (controlOk_of_reachable hreached) (viewOk_of_reachable hreached)
      (libraryStep_move hstep)

end HipObject
