import HipObject.Buffer.Abandoned

/-!
# The list of abandoned copies by itself

`AbandonedCopies` as its header describes it, for any program that keeps to the
rules there: any threads reserve room, move and destroy the `Slot`s that hold it,
and have copies taken over; the events complete when they like. Each step is one
critical section of the list's mutex, or something that happens to an object of
one thread.

`std::vector` is modelled by its elements and its capacity. What an allocation
gives is part of the action, and so is where memory runs out; a `size_t` wraps
around. `add` is `noexcept`, so an exception inside it terminates the program.
-/

namespace HipObject

open Verification

/-- `copies_`, its capacity, and `reserved_`. -/
structure AbandonedCopies where
  copies : List Copy
  capacity : Nat
  reserved : Nat

/-- The values of a `size_t`. -/
def sizeCount : Nat := 2 ^ 64

namespace AbandonedCopies

/-- What `reserve()` asks `copies_` to hold. -/
def needed (list : AbandonedCopies) : Nat :=
  (list.copies.length + list.reserved + 1) % sizeCount

/-- `copies_.reserve(n)`: nothing if `n` is more than `max_size()` or there is no
memory, else a capacity of at least `n`. -/
def reserveVector (list : AbandonedCopies) (maxSize n : Nat) (alloc : Option Nat) :
    Option AbandonedCopies :=
  match alloc with
  | none => none
  | some capacity =>
      if n ≤ maxSize ∧ n ≤ capacity ∧ capacity ≤ maxSize then
        some { list with capacity := capacity }
      else none

/-- The critical section of `reserve()`, unless it throws. -/
def reserve (list : AbandonedCopies) (maxSize : Nat) (alloc : Option Nat) :
    Option AbandonedCopies :=
  let grown :=
    if list.needed > list.capacity then
      list.reserveVector maxSize
        (max list.needed ((list.capacity + list.capacity / 2) % sizeCount)) alloc
    else some list
  grown.map fun list => { list with reserved := (list.reserved + 1) % sizeCount }

/-- `--reserved_`, which wraps around at zero. -/
def giveBack (list : AbandonedCopies) : AbandonedCopies :=
  { list with reserved := if list.reserved = 0 then sizeCount - 1 else list.reserved - 1 }

/-- `copies_.push_back`, which allocates when the vector is full. -/
def pushBack (list : AbandonedCopies) (copy : Copy) (alloc : Option Nat) :
    Option AbandonedCopies :=
  if list.copies.length < list.capacity then some { list with copies := list.copies ++ [copy] }
  else alloc.map fun capacity => ⟨list.copies ++ [copy], capacity, list.reserved⟩

/-- The critical section of `add()`, unless it throws. -/
def add (list : AbandonedCopies) (copy : Copy) (alloc : Option Nat) : Option AbandonedCopies :=
  (list.pushBack copy alloc).map giveBack

end AbandonedCopies

/-! ### The machine -/

/-- A `Slot` object: whether its `list_` points to the list, or is null, or the
object has been destroyed. -/
inductive Slot where
  | holds
  | null
  | destroyed
  deriving DecidableEq, Repr

def Slot.isHeld (slot : Slot) : Bool := slot = .holds

/-- The list, every `Slot` made so far, what the events answer, the copies that
were added and the copies that were taken out, and whether the program was
terminated. -/
structure CopyListState where
  list : AbandonedCopies
  slots : List Slot
  status : Nat → EventStatus
  added : List Copy
  released : List Copy
  terminated : Bool

inductive CopyListAction where
  | reserve (alloc : Option Nat)
  | move (slot : Nat)
  | destroy (slot : Nat)
  | add (slot : Nat) (copy : Copy) (alloc : Option Nat)
  /-- `running(entry)`, or `reclaim()` for no entry. -/
  | release (entry : Option Nat) (noMemory : Copy → Bool)
  | complete (event : Nat) (failed : Bool)

namespace CopyListState

variable (s : CopyListState)

/-- The loop of `release()` over the list. -/
def loop (entry : Option Nat) (noMemory : Copy → Bool) : InstanceState.Released :=
  InstanceState.releaseLoop entry (fun copy => ⟨s.status copy.done, noMemory copy, false⟩)
    s.list.copies

/-- `release()`, with what it returns unless it throws. The copies that are over
are destroyed on both ways out. -/
def release (entry : Option Nat) (noMemory : Copy → Bool) : Option Bool × CopyListState :=
  let r := s.loop entry noMemory
  (if r.threw then none else some r.stillRunning,
    { s with
      list := { s.list with copies := r.kept }
      released := s.released ++ r.ended })

/-- A list that was just constructed. -/
def initial : CopyListState := ⟨⟨[], 0, 0⟩, [], fun _ => .notReady, [], [], false⟩

end CopyListState

/-- One step of one thread, or of an event. Only a `Slot` that is there can be
moved or destroyed, and only one that holds room is given to `add()`. -/
def copyListStep (maxSize : Nat) (s : CopyListState) : CopyListAction → Option CopyListState
  | .reserve alloc =>
      match s.list.reserve maxSize alloc with
      | none => some s
      | some list => some { s with list := list, slots := s.slots ++ [.holds] }
  | .move i =>
      match s.slots[i]? with
      | some .holds => some { s with slots := s.slots.set i .null ++ [.holds] }
      | some .null => some { s with slots := s.slots ++ [.null] }
      | _ => none
  | .destroy i =>
      match s.slots[i]? with
      | some .holds =>
          some { s with list := s.list.giveBack, slots := s.slots.set i .destroyed }
      | some .null => some { s with slots := s.slots.set i .destroyed }
      | _ => none
  | .add i copy alloc =>
      match s.slots[i]? with
      | some .holds =>
          match s.list.add copy alloc with
          | none => some { s with terminated := true }
          | some list => some { s with
              list := list
              slots := s.slots.set i .null
              added := s.added ++ [copy] }
      | _ => none
  | .release entry noMemory => some (s.release entry noMemory).2
  | .complete event failed =>
      let answer := if failed then EventStatus.error else EventStatus.success
      some { s with status := Function.update s.status event answer }

def copyListMachine (maxSize : Nat) : Machine CopyListState CopyListAction where
  init s := s = CopyListState.initial
  step := copyListStep maxSize

/-! ### What each operation does -/

section Operations

variable {list list' : AbandonedCopies} {maxSize : Nat} {alloc : Option Nat}

/-- There is room for the copies and for everything that was reserved, and the
vector is no larger than a vector can be. -/
structure AbandonedCopies.Roomy (list : AbandonedCopies) (maxSize : Nat) : Prop where
  room : list.copies.length + list.reserved ≤ list.capacity
  fits : list.capacity ≤ maxSize

namespace AbandonedCopies

theorem Roomy.needed_eq (h : list.Roomy maxSize) (hmax : maxSize < 2 ^ 63) :
    list.needed = list.copies.length + list.reserved + 1 := by
  have hroom := h.room
  have hfits := h.fits
  unfold needed sizeCount
  exact Nat.mod_eq_of_lt (by omega)

theorem reserveVector_eq_some {n : Nat} (h : list.reserveVector maxSize n alloc = some list') :
    ∃ capacity, n ≤ capacity ∧ capacity ≤ maxSize ∧ list' = { list with capacity := capacity } := by
  unfold reserveVector at h
  split at h
  · cases h
  · split at h
    · rename_i capacity hfits
      cases h
      exact ⟨capacity, hfits.2.1, hfits.2.2, rfl⟩
    · cases h

/-- Reserving sets one more aside, and makes room for it. -/
theorem Roomy.reserve (h : list.Roomy maxSize) (hmax : maxSize < 2 ^ 63)
    (hreserve : list.reserve maxSize alloc = some list') :
    list'.Roomy maxSize ∧ list'.copies = list.copies ∧ list'.reserved = list.reserved + 1 := by
  have hroom := h.room
  have hfits := h.fits
  have hcount : (list.reserved + 1) % sizeCount = list.reserved + 1 :=
    Nat.mod_eq_of_lt (by unfold sizeCount; omega)
  unfold AbandonedCopies.reserve at hreserve
  obtain ⟨grown, hgrown, rfl⟩ := Option.map_eq_some_iff.mp hreserve
  rw [h.needed_eq hmax] at hgrown
  split at hgrown
  · obtain ⟨capacity, hneeded, hmost, rfl⟩ := reserveVector_eq_some hgrown
    have hneeded := (Nat.le_max_left _ _).trans hneeded
    refine ⟨⟨?_, hmost⟩, rfl, hcount⟩
    simp only [hcount]
    omega
  · rename_i henough
    cases hgrown
    refine ⟨⟨?_, hfits⟩, rfl, hcount⟩
    simp only [hcount]
    omega

@[simp] theorem giveBack_copies : list.giveBack.copies = list.copies := rfl

@[simp] theorem giveBack_capacity : list.giveBack.capacity = list.capacity := rfl

theorem giveBack_reserved (hpos : 0 < list.reserved) :
    list.giveBack.reserved + 1 = list.reserved := by
  unfold giveBack
  rw [if_neg (Nat.ne_of_gt hpos)]
  exact Nat.succ_pred_eq_of_pos hpos

/-- Giving room back doesn't wrap around while some is set aside. -/
theorem Roomy.giveBack (h : list.Roomy maxSize) (hpos : 0 < list.reserved) :
    list.giveBack.Roomy maxSize := by
  have hroom := h.room
  have hcount := giveBack_reserved hpos
  refine ⟨?_, h.fits⟩
  rw [giveBack_copies, giveBack_capacity]
  omega

/-- Taking over a copy in reserved room allocates nothing. -/
theorem Roomy.add (h : list.Roomy maxSize) (hpos : 0 < list.reserved) (copy : Copy)
    (alloc : Option Nat) :
    ∃ list', list.add copy alloc = some list' ∧ list'.Roomy maxSize ∧
      list'.copies = list.copies ++ [copy] ∧ list'.capacity = list.capacity ∧
      list'.reserved + 1 = list.reserved := by
  have hroom := h.room
  have hcount := giveBack_reserved hpos
  have hfull : list.copies.length < list.capacity := by omega
  have hadd : list.add copy alloc =
      some ⟨list.copies ++ [copy], list.capacity, list.giveBack.reserved⟩ := by
    rw [AbandonedCopies.add, pushBack, if_pos hfull]
    rfl
  refine ⟨_, hadd, ⟨?_, h.fits⟩, rfl, rfl, hcount⟩
  simp only [List.length_append, List.length_singleton]
  omega

end AbandonedCopies
end Operations

/-! ### The list of an instance -/

namespace InstanceState

/-- The list inside an instance. -/
def abandoned (s : InstanceState) : AbandonedCopies := ⟨s.copies, s.capacity, s.reserved⟩

variable {s : InstanceState} {maxSize : Nat}

@[simp] theorem abandoned_copies : s.abandoned.copies = s.copies := rfl

@[simp] theorem abandoned_capacity : s.abandoned.capacity = s.capacity := rfl

@[simp] theorem abandoned_reserved : s.abandoned.reserved = s.reserved := rfl

/-- A call that reserves room does to its instance's list what `reserve()` does. -/
theorem abandoned_reserve (h : s.abandoned.Roomy maxSize) (hmax : maxSize < 2 ^ 62)
    (hfits : s.reserve.capacity ≤ maxSize) :
    s.abandoned.reserve maxSize (some s.reserve.capacity) = some s.reserve.abandoned := by
  have hroom : s.copies.length + s.reserved ≤ s.capacity := h.room
  have hmost : s.capacity ≤ maxSize := h.fits
  have hneeded : s.abandoned.needed = s.copies.length + s.reserved + 1 :=
    h.needed_eq (by omega)
  have hcount : (s.reserved + 1) % sizeCount = s.reserved + 1 :=
    Nat.mod_eq_of_lt (by unfold sizeCount; omega)
  have hhalf : (s.capacity + s.capacity / 2) % sizeCount = s.capacity + s.capacity / 2 :=
    Nat.mod_eq_of_lt (by unfold sizeCount; omega)
  unfold AbandonedCopies.reserve
  simp only [hneeded, abandoned_capacity, hhalf]
  by_cases hgrows : s.copies.length + s.reserved + 1 > s.capacity
  · have hcapacity : s.reserve.capacity =
        max (s.copies.length + s.reserved + 1) (s.capacity + s.capacity / 2) := if_pos hgrows
    have hvector : s.abandoned.reserveVector maxSize s.reserve.capacity
        (some s.reserve.capacity) = some ⟨s.copies, s.reserve.capacity, s.reserved⟩ :=
      if_pos ⟨hfits, Nat.le_refl _, hfits⟩
    rw [if_pos hgrows, ← hcapacity, hvector, Option.map_some, hcount]
    rfl
  · have hcapacity : s.reserve.capacity = s.capacity := if_neg hgrows
    rw [if_neg hgrows, Option.map_some, abandoned_reserved, hcount]
    exact congrArg (fun n => some (⟨s.copies, n, s.reserved + 1⟩ : AbandonedCopies))
      hcapacity.symm

/-- A call that has its copy taken over does to the list what `add()` does. -/
theorem abandoned_addCopy (copy : Copy) (hroom : s.copies.length < s.capacity)
    (hpos : 0 < s.reserved) :
    s.abandoned.add copy none = some (s.addCopy copy).abandoned := by
  have hreserved : s.abandoned.giveBack.reserved = (s.addCopy copy).reserved :=
    if_neg (Nat.ne_of_gt hpos)
  have hroom : s.abandoned.copies.length < s.abandoned.capacity := hroom
  rw [AbandonedCopies.add, AbandonedCopies.pushBack, if_pos hroom]
  exact congrArg (fun n => some (⟨s.copies ++ [copy], s.capacity, n⟩ : AbandonedCopies)) hreserved

end InstanceState

/-! ### Releasing -/

section Release

variable {entry : Option Nat} {answers : Copy → InstanceState.Answer} {copies : List Copy}

/-- Whether `release(entry)` looks at a copy. -/
def Copy.selectedBy (copy : Copy) (entry : Option Nat) : Bool := !entry.any (· ≠ copy.entry)

/-- A loop that ends takes out the copies that it looks at and that are over. -/
theorem releaseLoop_ended (h : (InstanceState.releaseLoop entry answers copies).threw = false) :
    (InstanceState.releaseLoop entry answers copies).ended = copies.filter fun r =>
      r.selectedBy entry && decide ((answers r).status ≠ .notReady) := by
  induction copies with
  | nil => rfl
  | cons copy rest ih =>
      unfold InstanceState.releaseLoop at h ⊢
      rw [List.filter_cons]
      split at h
      · rename_i hother
        have hskipped : copy.selectedBy entry = false := by rw [Copy.selectedBy, hother]; rfl
        rw [if_pos hother, hskipped, Bool.false_and, if_neg Bool.false_ne_true]
        exact ih h
      · rename_i hcopy
        have hselected : copy.selectedBy entry = true := by
          rw [Copy.selectedBy, Bool.eq_false_of_not_eq_true hcopy]
          rfl
        rw [if_neg hcopy, hselected, Bool.true_and]
        split at h
        · cases h
        · rename_i hanswers
          rw [if_neg hanswers]
          split at h
          · rename_i hrunning
            rw [if_neg (by simp [hrunning])]
            exact ih h
          · rename_i hover
            split at h
            · cases h
            · rename_i hmemory
              have htaken : decide ((answers copy).status ≠ .notReady) = true :=
                decide_eq_true hover
              rw [if_neg hmemory, if_pos htaken, ← ih h]

/-- What it finds still running is one of the copies that it looks at. -/
theorem releaseLoop_running
    (h : (InstanceState.releaseLoop entry answers copies).stillRunning = true) :
    ∃ r ∈ copies, r.selectedBy entry = true ∧ (answers r).status = .notReady := by
  induction copies with
  | nil => cases h
  | cons copy rest ih =>
      have hrest : (InstanceState.releaseLoop entry answers rest).stillRunning = true →
          ∃ r ∈ copy :: rest, r.selectedBy entry = true ∧ (answers r).status = .notReady := by
        intro h
        obtain ⟨r, hr, hfacts⟩ := ih h
        exact ⟨r, List.mem_cons_of_mem _ hr, hfacts⟩
      unfold InstanceState.releaseLoop at h
      split at h
      · exact hrest h
      · rename_i hcopy
        split at h
        · cases h
        · split at h
          · rename_i hrunning
            refine ⟨copy, List.mem_cons_self, ?_, hrunning⟩
            rw [Copy.selectedBy, Bool.eq_false_of_not_eq_true hcopy]
            rfl
          · split at h
            · cases h
            · exact hrest h

/-- Also a loop that throws keeps what it keeps in order. -/
theorem releaseLoop_sublist :
    (InstanceState.releaseLoop entry answers copies).kept.Sublist copies := by
  induction copies with
  | nil => exact .slnil
  | cons copy rest ih =>
      unfold InstanceState.releaseLoop
      split
      · exact ih.cons_cons copy
      · split
        · exact List.Sublist.refl _
        · split
          · exact ih.cons_cons copy
          · split
            · exact List.Sublist.refl _
            · exact ih.cons copy

end Release

/-! ### Whole runs -/

section Runs

variable {maxSize : Nat} {s t : CopyListState} {i : Nat}

/-- The number of slots that hold room. -/
def CopyListState.held (s : CopyListState) : Nat := s.slots.countP Slot.isHeld

/-- What holds of the list in every run. -/
structure CopyListState.Booked (maxSize : Nat) (s : CopyListState) : Prop where
  roomy : s.list.Roomy maxSize
  reserved : s.list.reserved = s.held
  alive : s.terminated = false
  kept : s.added.Perm (s.list.copies ++ s.released)

theorem held_pos (h : s.slots[i]? = some .holds) : 0 < s.held :=
  List.countP_pos_iff.mpr ⟨_, List.mem_of_getElem? h, rfl⟩

/-- A slot that held room no longer does. -/
theorem held_set (slot : Slot) (h : s.slots[i]? = some .holds) (hslot : slot.isHeld = false) :
    (s.slots.set i slot).countP Slot.isHeld + 1 = s.held := by
  obtain ⟨hi, hget⟩ := List.getElem?_eq_some_iff.mp h
  have hpos := held_pos h
  unfold CopyListState.held at hpos ⊢
  have hold : Slot.holds.isHeld = true := rfl
  rw [List.countP_set hi, hget, hslot, if_pos hold, if_neg Bool.false_ne_true]
  omega

theorem held_set_null (h : s.slots[i]? = some .null) :
    (s.slots.set i .destroyed).countP Slot.isHeld = s.held := by
  obtain ⟨hi, hget⟩ := List.getElem?_eq_some_iff.mp h
  unfold CopyListState.held
  rw [List.countP_set hi, hget]
  simp [Slot.isHeld]

namespace CopyListState

theorem booked_initial : initial.Booked maxSize where
  roomy := ⟨Nat.le_refl 0, Nat.zero_le maxSize⟩
  reserved := rfl
  alive := rfl
  kept := .refl []

/-- Every step keeps the books. -/
theorem Booked.step {a : CopyListAction} (h : s.Booked maxSize) (hmax : maxSize < 2 ^ 63)
    (hstep : copyListStep maxSize s a = some t) : t.Booked maxSize := by
  cases a with
  | reserve alloc =>
      simp only [copyListStep] at hstep
      split at hstep
      · cases hstep
        exact h
      · rename_i list hreserve
        cases hstep
        obtain ⟨hroomy, hcopies, hreserved⟩ := h.roomy.reserve hmax hreserve
        refine ⟨hroomy, ?_, h.alive, ?_⟩
        · simp only [held, List.countP_append, hreserved, h.reserved]
          rfl
        · simp only [hcopies]
          exact h.kept
  | move i =>
      simp only [copyListStep] at hstep
      split at hstep
      · rename_i hslot
        cases hstep
        refine ⟨h.roomy, ?_, h.alive, h.kept⟩
        have hset := held_set .null hslot rfl
        simp only [held, List.countP_append, h.reserved] at hset ⊢
        rw [← hset]
        rfl
      · cases hstep
        refine ⟨h.roomy, ?_, h.alive, h.kept⟩
        simp only [held, List.countP_append, h.reserved]
        rfl
      · cases hstep
  | destroy i =>
      simp only [copyListStep] at hstep
      split at hstep
      · rename_i hslot
        cases hstep
        have hpos : 0 < s.list.reserved := h.reserved ▸ held_pos hslot
        refine ⟨h.roomy.giveBack hpos, ?_, h.alive, h.kept⟩
        have hset := held_set .destroyed hslot rfl
        have hcount := AbandonedCopies.giveBack_reserved hpos
        rw [h.reserved] at hcount
        simp only [held] at hset hcount ⊢
        omega
      · rename_i hslot
        cases hstep
        refine ⟨h.roomy, ?_, h.alive, h.kept⟩
        exact h.reserved.trans (held_set_null hslot).symm
      · cases hstep
  | add i copy alloc =>
      simp only [copyListStep] at hstep
      split at hstep
      · rename_i hslot
        have hpos : 0 < s.list.reserved := h.reserved ▸ held_pos hslot
        obtain ⟨list, hadd, hroomy, hcopies, -, hcount⟩ := h.roomy.add hpos copy alloc
        rw [hadd] at hstep
        cases hstep
        refine ⟨hroomy, ?_, h.alive, ?_⟩
        · have hset := held_set .null hslot rfl
          rw [h.reserved] at hcount
          simp only [held] at hset hcount ⊢
          omega
        · simp only [hcopies]
          refine (h.kept.append_right [copy]).trans ?_
          rw [List.append_assoc, List.append_assoc]
          exact List.perm_append_comm.append_left _
      · cases hstep
  | release entry noMemory =>
      simp only [copyListStep] at hstep
      cases hstep
      have hperm : s.list.copies.Perm ((s.loop entry noMemory).kept ++
          (s.loop entry noMemory).ended) := releaseLoop_perm
      have hkept : (s.loop entry noMemory).kept.Sublist s.list.copies := releaseLoop_sublist
      refine ⟨⟨?_, h.roomy.fits⟩, h.reserved, h.alive, ?_⟩
      · exact (Nat.add_le_add_right hkept.length_le _).trans h.roomy.room
      · refine (h.kept.trans (hperm.append_right s.released)).trans ?_
        rw [List.append_assoc]
        exact List.perm_append_comm.append_left _
  | complete event failed =>
      simp only [copyListStep] at hstep
      cases hstep
      exact ⟨h.roomy, h.reserved, h.alive, h.kept⟩

theorem booked_of_reachable (hmax : maxSize < 2 ^ 63)
    (h : (copyListMachine maxSize).Reachable s) : s.Booked maxSize := by
  refine Machine.Reachable.invariant (I := Booked maxSize) ?_ ?_ h
  · rintro s rfl
    exact booked_initial
  · intro s a t _ hs hstep
    exact hs.step hmax hstep

/-- Whether `isOver()` finds that a copy is over. -/
def isOver (s : CopyListState) (copy : Copy) : Bool := s.status copy.done ≠ .notReady

/-- A `release()` that returns takes out exactly the copies that it looks at and
that are over, and says whether one that it looks at is still running. -/
theorem release_returns {entry : Option Nat} {noMemory : Copy → Bool} {result : Bool}
    (h : (s.release entry noMemory).1 = some result) :
    (s.release entry noMemory).2.list.copies =
        s.list.copies.filter (fun c => !(c.selectedBy entry && s.isOver c)) ∧
      (s.release entry noMemory).2.released =
        s.released ++ s.list.copies.filter (fun c => c.selectedBy entry && s.isOver c) ∧
      (result = true ↔ ∃ c ∈ s.list.copies, c.selectedBy entry = true ∧ s.isOver c = false) := by
  unfold release at h
  simp only [Option.ite_none_left_eq_some, Option.some.injEq] at h
  obtain ⟨hended, rfl⟩ := h
  have hended : (s.loop entry noMemory).threw = false := Bool.eq_false_of_not_eq_true hended
  refine ⟨?_, ?_, ?_⟩
  · refine (releaseLoop_kept hended).trans (List.filter_congr ?_)
    intro c _
    simp [Copy.selectedBy, isOver]
  · exact congrArg (s.released ++ ·) (releaseLoop_ended hended)
  · constructor
    · intro hrunning
      obtain ⟨c, hc, hselected, hstatus⟩ := releaseLoop_running hrunning
      exact ⟨c, hc, hselected, by simpa [isOver] using hstatus⟩
    · rintro ⟨c, hc, hselected, hover⟩
      refine releaseLoop_stillRunning hended hc ?_ (by simpa [isOver] using hover)
      rwa [Copy.selectedBy, Bool.not_eq_true'] at hselected

/-- `release()` throws only when there is no memory for a copy that is over. -/
theorem exists_release {entry : Option Nat} {noMemory : Copy → Bool}
    (h : ∀ copy, noMemory copy = false) :
    ∃ result, (s.release entry noMemory).1 = some result := by
  refine ⟨(s.loop entry noMemory).stillRunning, if_neg ?_⟩
  intro hthrew
  obtain ⟨copy, -, -, ⟨-, hmemory⟩ | hthrows⟩ := releaseLoop_threw hthrew
  · cases (h copy).symm.trans hmemory
  · cases hthrows

end CopyListState

/-- In every run there is room for the copies and for every slot that holds room,
`reserved_` counts those slots, and every copy that was added is in the list or
was taken out of it once. So a decrement never wraps around, and `add()` never
allocates; a `reserve()` that fails changes nothing; and `release()` takes out
exactly the copies of its entry that are over. -/
theorem abandonedCopies_never_allocate (maxSize : Nat) (hmax : maxSize < 2 ^ 63)
    (s : CopyListState) (h : (copyListMachine maxSize).Reachable s) :
    s.list.copies.length + s.list.reserved ≤ s.list.capacity ∧
    s.list.reserved = s.slots.countP Slot.isHeld ∧
    s.terminated = false ∧
    s.added.Perm (s.list.copies ++ s.released) ∧
    (∀ i : Nat, s.slots[i]? = some .holds → 0 < s.list.reserved) ∧
    (∀ i copy alloc t, copyListStep maxSize s (.add i copy alloc) = some t →
      s.list.copies.length < s.list.capacity ∧ t.list.capacity = s.list.capacity ∧
      t.list.copies = s.list.copies ++ [copy]) ∧
    (∀ alloc, s.list.reserve maxSize alloc = none →
      copyListStep maxSize s (.reserve alloc) = some s) ∧
    (∀ entry noMemory, (s.release entry noMemory).2.list.copies.Sublist s.list.copies ∧
      ((∀ copy, noMemory copy = false) → ∃ result, (s.release entry noMemory).1 = some result) ∧
      ∀ result, (s.release entry noMemory).1 = some result →
        (s.release entry noMemory).2.list.copies =
            s.list.copies.filter (fun c => !(c.selectedBy entry && s.isOver c)) ∧
          (s.release entry noMemory).2.released =
            s.released ++ s.list.copies.filter (fun c => c.selectedBy entry && s.isOver c) ∧
          (result = true ↔
            ∃ c ∈ s.list.copies, c.selectedBy entry = true ∧ s.isOver c = false)) := by
  have hbooked := CopyListState.booked_of_reachable hmax h
  have hpos : ∀ i : Nat, s.slots[i]? = some .holds → 0 < s.list.reserved :=
    fun i hslot => hbooked.reserved ▸ held_pos hslot
  refine ⟨hbooked.roomy.room, hbooked.reserved, hbooked.alive, hbooked.kept, hpos, ?_, ?_, ?_⟩
  · intro i copy alloc t hstep
    simp only [copyListStep] at hstep
    split at hstep
    · rename_i hslot
      have hroom := hbooked.roomy.room
      have hheld := hpos i hslot
      obtain ⟨list, hadd, -, hcopies, hcapacity, -⟩ := hbooked.roomy.add hheld copy alloc
      rw [hadd] at hstep
      cases hstep
      exact ⟨by omega, hcapacity, hcopies⟩
    · cases hstep
  · intro alloc hfails
    simp only [copyListStep, hfails]
  · intro entry noMemory
    exact ⟨releaseLoop_sublist, CopyListState.exists_release,
      fun result hresult => CopyListState.release_returns hresult⟩

end Runs

/-- Two slots, one of them moved before it is used, a `reserve()` that finds no
memory, and a copy that is still running when the other slot is destroyed. -/
def oneCopyRun : List CopyListAction :=
  [.reserve (some 1), .move 0, .reserve (some 2), .reserve none,
    .add 1 ⟨0, 5, ⟨0, 0, ⟨0, 64, 8⟩⟩⟩ none, .complete 4 false, .destroy 2,
    .release none fun _ => false]

theorem oneCopyRun_keeps_room :
    ∃ s, (copyListMachine 8).exec .initial oneCopyRun = some s ∧ s.list.copies.length = 1 ∧
      s.list.copies.length + s.list.reserved ≤ s.list.capacity ∧
      s.list.reserved = s.slots.countP Slot.isHeld ∧ s.terminated = false := by
  obtain ⟨s, hs⟩ : ∃ s, (copyListMachine 8).exec .initial oneCopyRun = some s := ⟨_, rfl⟩
  have hreachable : (copyListMachine 8).Reachable s :=
    Machine.reachableWhere_of_exec (.init rfl) (fun _ _ _ => trivial) hs
  obtain ⟨hroom, hreserved, halive, -⟩ :=
    abandonedCopies_never_allocate 8 (by decide) s hreachable
  refine ⟨s, hs, ?_, hroom, hreserved, halive⟩
  cases hs
  rfl

end HipObject
