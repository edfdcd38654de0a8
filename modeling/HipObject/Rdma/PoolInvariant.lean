import HipObject.Rdma.PoolView
import Mathlib.Data.Fintype.Basic

/-!
# Who holds which connection

The indexes of a pool are always divided between its free list, its leases and
those that were dropped. Since no index has two holders, a property of the slots
survives as long as whoever holds an index keeps it: `SlotRule` says what that
takes, and `SlotsHold.move` carries the property from move to move.

Applied to the state of the queue pairs, this is the pool's promise: a lease has
a connection of its own, which is in INIT when the lease starts.
-/

namespace HipObject

open Verification

variable {P T : Type} {skip : Option RcConnection → Prop} {p : P} {v w : View P T}

def View.heldIndexes (v : View P T) : List Nat := v.held.map Lease.index

/-- Every index is free, leased or dropped, and only one of these. -/
structure Partition (v : View P T) : Prop where
  indexes : (v.pool.free ++ v.heldIndexes ++ v.pool.dropped).Perm
    (List.range v.pool.slots.length)
  live : v.pool.live = v.pool.free.length + v.held.length
  reserved : v.pool.slots.length ≤ v.pool.capacity

namespace Partition

theorem nodup (h : Partition v) : (v.pool.free ++ v.heldIndexes ++ v.pool.dropped).Nodup :=
  h.indexes.nodup_iff.mpr List.nodup_range

theorem lt_of_mem_held (h : Partition v) {l : Lease P T} (hl : l ∈ v.held) :
    l.index < v.pool.slots.length := by
  have hmem : l.index ∈ v.heldIndexes := List.mem_map_of_mem hl
  exact List.mem_range.mp (h.indexes.subset (by simp [hmem]))

theorem free_le_capacity (h : Partition v) : v.pool.free.length ≤ v.pool.capacity := by
  have hlength := h.indexes.length_eq
  have hreserved := h.reserved
  simp only [List.length_append, List.length_range] at hlength
  omega

/-- The holder of an index is its only holder. -/
theorem index_ne_of_mem_free (h : Partition v) {l : Lease P T} {rest : List (Lease P T)}
    (hheld : v.held.Perm (l :: rest)) {index : Nat} (hfree : index ∈ v.pool.free) :
    index ≠ l.index := by
  intro heq
  have hmem : l.index ∈ v.heldIndexes := List.mem_map_of_mem (hheld.mem_iff.mpr (by simp))
  have hnodup := h.nodup
  rw [List.append_assoc] at hnodup
  exact List.disjoint_of_nodup_append hnodup hfree (by simp [heq, hmem])

theorem index_ne_of_mem_rest (h : Partition v) {l l' : Lease P T} {rest : List (Lease P T)}
    (hheld : v.held.Perm (l :: rest)) (hl' : l' ∈ rest) : l'.index ≠ l.index := by
  intro heq
  have hnodup : v.heldIndexes.Nodup :=
    (List.nodup_append.mp (List.nodup_append.mp h.nodup).1).2.1
  have hcons : ((l :: rest).map Lease.index).Nodup := (hheld.map Lease.index).nodup_iff.mp hnodup
  rw [List.map_cons, List.nodup_cons] at hcons
  exact hcons.1 (heq ▸ List.mem_map_of_mem hl')

/-- Only what the pool's lists hold matters, and the leases count by index. -/
theorem congr (h : Partition v) (hindexes : w.heldIndexes.Perm v.heldIndexes)
    (hfree : w.pool.free = v.pool.free) (hdropped : w.pool.dropped = v.pool.dropped)
    (hlive : w.pool.live = v.pool.live) (hslots : w.pool.slots.length = v.pool.slots.length)
    (hcapacity : w.pool.capacity = v.pool.capacity) : Partition w where
  indexes := by
    rw [hfree, hdropped, hslots]
    exact ((hindexes.append_left _).append_right _).trans h.indexes
  live := by
    have hlength : w.held.length = v.held.length := by
      simpa [View.heldIndexes] using hindexes.length_eq
    rw [hlive, hfree, hlength]
    exact h.live
  reserved := by
    rw [hslots, hcapacity]
    exact h.reserved

theorem take (h : Partition v) {t : T} {index serial : Nat}
    (taken : v.pool.takeFree = .ok (index, w.pool))
    (held : w.held = ⟨some p, index, false, t, serial, none⟩ :: v.held) : Partition w := by
  obtain ⟨-, hfree, hpool⟩ := ConnectionPool.takeFree_ok taken
  have hlength : v.pool.free.length = w.pool.free.length + 1 := by
    rw [hfree, hpool]
    simp
  refine ⟨?_, ?_, ?_⟩
  · -- The index moves from the end of the free list to the front of the leases.
    have hindexes := h.indexes
    rw [hfree] at hindexes
    simpa [View.heldIndexes, held, hpool] using hindexes
  · have hlive := h.live
    rw [show w.pool.live = v.pool.live by rw [hpool], held, List.length_cons]
    omega
  · rw [hpool]
    exact h.reserved

theorem giveBack (h : Partition v) {l : Lease P T} {usable : Bool}
    (pool : w.pool = v.pool.giveBack l.index usable) (before : v.held.Perm (l :: w.held)) :
    Partition w := by
  have hindexes : (v.pool.free ++ (l.index :: w.heldIndexes) ++ v.pool.dropped).Perm
      (List.range v.pool.slots.length) :=
    (((before.map Lease.index).symm.append_left _).append_right _).trans h.indexes
  have hheld := before.length_eq
  have hlive := h.live
  simp only [List.length_cons] at hheld
  refine ⟨?_, ?_, ?_⟩
  · rw [pool]
    cases usable with
    | true => simpa [ConnectionPool.giveBack] using hindexes
    | false =>
        refine List.Perm.trans ?_ (by simpa [ConnectionPool.giveBack] using hindexes)
        simp only [ConnectionPool.giveBack, Bool.false_eq_true, if_false, List.append_assoc]
        refine List.Perm.append_left _ ?_
        exact List.perm_middle
  · rw [pool]
    cases usable with
    | true =>
        simp only [ConnectionPool.giveBack, if_true, List.length_append, List.length_singleton]
        omega
    | false =>
        simp only [ConnectionPool.giveBack, Bool.false_eq_true, if_false]
        omega
  · rw [pool]
    simpa using h.reserved

/-- The step lemma: no move loses an index or gives it two holders. -/
theorem move (h : Partition v) (hmove : Move skip p v w) : Partition w := by
  cases hmove with
  | stay pool held history =>
      exact h.congr (held.map _) (by rw [pool]) (by rw [pool]) (by rw [pool]) (by rw [pool])
        (by rw [pool])
  | refuse pool held history =>
      exact h.congr (by rw [View.heldIndexes, held]; rfl) (by rw [pool]) (by rw [pool])
        (by rw [pool]) (by rw [pool]) (by rw [pool])
  | close pool held history =>
      exact h.congr (by rw [View.heldIndexes, held]; rfl) (by rw [pool]) (by rw [pool])
        (by rw [pool]) (by rw [pool]) (by rw [pool])
  | closed pool held history =>
      exact h.congr (by rw [View.heldIndexes, held]; rfl) (by rw [pool]) (by rw [pool])
        (by rw [pool]) (by rw [pool]) (by rw [pool])
  | take t index serial taken held history => exact h.take taken held
  | use used pool before after history =>
      have hindexes : w.heldIndexes.Perm v.heldIndexes := by
        refine .trans ?_ (before.map Lease.index).symm
        rw [View.heldIndexes, after, List.map_cons, List.map_cons, used.index_eq]
      exact h.congr hindexes (by simp [pool]) (by simp [pool]) (by simp [pool]) (by simp [pool])
        (by simp [pool])
  | giveBack found pool before history => exact h.giveBack pool before

end Partition

/-! ### Properties of the slots -/

/-- What it takes to keep a property of the slots: `free` of a slot whose index
is free, `held` of a lease and its slot, and `event` of what becomes known. -/
structure SlotRule (skip : Option RcConnection → Prop) (p : P)
    (free : Option RcConnection → Prop) (held : Lease P T → Option RcConnection → Prop)
    (event : Event P T → Prop) : Prop where
  take : ∀ slot index t serial, free slot →
    held ⟨some p, index, false, t, serial, none⟩ slot ∧ event (.leased t p serial slot)
  use : ∀ l slot l' slot' events, held l slot → Use skip p l slot l' slot' events →
    held l' slot' ∧ ∀ e ∈ events, event e
  giveBack : ∀ l slot, held l slot → l.usable = some true → free slot
  refused : ∀ t e, event (.refused t p e)
  closeReturned : event (.closeReturned p)

structure SlotsHold (free : Option RcConnection → Prop)
    (held : Lease P T → Option RcConnection → Prop) (event : Event P T → Prop)
    (v : View P T) : Prop where
  free : ∀ index ∈ v.pool.free, free (v.pool.connection index)
  held : ∀ l ∈ v.held, held l (v.pool.connection l.index)
  history : ∀ e ∈ v.history, event e

namespace SlotsHold

variable {free : Option RcConnection → Prop} {held : Lease P T → Option RcConnection → Prop}
variable {event : Event P T → Prop}

/-- A move that changes no slot and no list, and adds one harmless event. -/
theorem congr (h : SlotsHold free held event v) (hfree : w.pool.free = v.pool.free)
    (hslots : w.pool.slots = v.pool.slots) (hheld : w.held.Perm v.held)
    (hhistory : ∀ e ∈ w.history, e ∈ v.history ∨ event e) : SlotsHold free held event w := by
  have hconnection : ∀ index, w.pool.connection index = v.pool.connection index := by
    intro index
    rw [ConnectionPool.connection, hslots, ConnectionPool.connection]
  refine ⟨?_, ?_, ?_⟩
  · intro index hindex
    rw [hconnection]
    exact h.free index (hfree ▸ hindex)
  · intro l hl
    rw [hconnection]
    exact h.held l (hheld.mem_iff.mp hl)
  · intro e he
    exact (hhistory e he).elim (h.history e) id

theorem take (rule : SlotRule skip p free held event) (h : SlotsHold free held event v) {t : T}
    {index serial : Nat} (taken : v.pool.takeFree = .ok (index, w.pool))
    (hheld : w.held = ⟨some p, index, false, t, serial, none⟩ :: v.held)
    (hhistory : w.history = .leased t p serial (v.pool.connection index) :: v.history) :
    SlotsHold free held event w := by
  obtain ⟨-, hfree, hpool⟩ := ConnectionPool.takeFree_ok taken
  have hconnection : ∀ i, w.pool.connection i = v.pool.connection i := fun i => by
    rw [hpool]
    rfl
  have htaken : free (v.pool.connection index) := h.free index (by rw [hfree]; simp)
  obtain ⟨hnew, hevent⟩ := rule.take (v.pool.connection index) index t serial htaken
  refine ⟨?_, ?_, ?_⟩
  · intro i hi
    rw [hconnection]
    refine h.free i ?_
    rw [hfree]
    rw [hpool] at hi
    simp [show i ∈ v.pool.free.dropLast from hi]
  · intro l hl
    rw [hconnection]
    rw [hheld] at hl
    rcases List.mem_cons.mp hl with rfl | hl
    · exact hnew
    · exact h.held l hl
  · intro e he
    rw [hhistory] at he
    rcases List.mem_cons.mp he with rfl | he
    · exact hevent
    · exact h.history e he

theorem use (rule : SlotRule skip p free held event) (h : SlotsHold free held event v)
    (hpart : Partition v) {l l' : Lease P T} {rest : List (Lease P T)}
    {slot : Option RcConnection} {events : List (Event P T)}
    (used : Use skip p l (v.pool.connection l.index) l' slot events)
    (pool : w.pool = v.pool.setSlot l.index slot) (before : v.held.Perm (l :: rest))
    (after : w.held = l' :: rest) (history : w.history = events ++ v.history) :
    SlotsHold free held event w := by
  have hl : l ∈ v.held := before.mem_iff.mpr (by simp)
  obtain ⟨hused, hevents⟩ := rule.use l _ l' slot events (h.held l hl) used
  -- Every other index has another holder, so its slot is another one.
  refine ⟨?_, ?_, ?_⟩
  · intro index hindex
    rw [pool, ConnectionPool.setSlot_free] at hindex
    rw [pool, ConnectionPool.connection_setSlot_ne (hpart.index_ne_of_mem_free before hindex)]
    exact h.free index hindex
  · intro k hk
    rw [after] at hk
    rw [pool]
    rcases List.mem_cons.mp hk with rfl | hk
    · rw [used.index_eq, ConnectionPool.connection_setSlot_self (hpart.lt_of_mem_held hl)]
      exact hused
    · rw [ConnectionPool.connection_setSlot_ne (hpart.index_ne_of_mem_rest before hk)]
      exact h.held k (before.mem_iff.mpr (by simp [hk]))
  · intro e he
    rw [history] at he
    exact (List.mem_append.mp he).elim (hevents e) (h.history e)

theorem giveBack (rule : SlotRule skip p free held event) (h : SlotsHold free held event v)
    {l : Lease P T} {usable : Bool} (found : l.usable = some usable)
    (pool : w.pool = v.pool.giveBack l.index usable) (before : v.held.Perm (l :: w.held))
    (history : w.history = v.history) : SlotsHold free held event w := by
  have hl : l ∈ v.held := before.mem_iff.mpr (by simp)
  refine ⟨?_, ?_, ?_⟩
  · intro index hindex
    rw [pool, ConnectionPool.giveBack_connection]
    rw [pool] at hindex
    cases usable with
    | true =>
        have hmem : index ∈ v.pool.free ++ [l.index] := hindex
        rcases List.mem_append.mp hmem with hfree | hnew
        · exact h.free index hfree
        · rw [List.mem_singleton.mp hnew]
          exact rule.giveBack l _ (h.held l hl) found
    | false => exact h.free index hindex
  · intro k hk
    rw [pool, ConnectionPool.giveBack_connection]
    exact h.held k (before.mem_iff.mpr (by simp [hk]))
  · rw [history]
    exact h.history

/-- The step lemma: what every holder keeps, every move keeps. -/
theorem move (rule : SlotRule skip p free held event) (h : SlotsHold free held event v)
    (hpart : Partition v) (hmove : Move skip p v w) : SlotsHold free held event w := by
  cases hmove with
  | stay pool hheld history =>
      exact h.congr (by rw [pool]) (by rw [pool]) hheld fun e he => .inl (history ▸ he)
  | refuse pool hheld history =>
      refine h.congr (by rw [pool]) (by rw [pool]) (by rw [hheld]) fun e he => ?_
      rw [history] at he
      rcases List.mem_cons.mp he with rfl | he
      · exact .inr (rule.refused _ _)
      · exact .inl he
  | close pool hheld history =>
      exact h.congr (by rw [pool]) (by rw [pool]) (by rw [hheld]) fun e he => .inl (history ▸ he)
  | closed pool hheld history =>
      refine h.congr (by rw [pool]) (by rw [pool]) (by rw [hheld]) fun e he => ?_
      rw [history] at he
      rcases List.mem_cons.mp he with rfl | he
      · exact .inr rule.closeReturned
      · exact .inl he
  | take t index serial taken hheld history => exact h.take rule taken hheld history
  | use used pool before after history => exact h.use rule hpart used pool before after history
  | giveBack found pool before history => exact h.giveBack rule found pool before history

end SlotsHold

/-! ### Every reachable state -/

section Reachable

variable [DecidableEq P] [DecidableEq T]

omit [DecidableEq T] in
/-- A pool as its constructor leaves it. -/
theorem initial_view {s : System P T} (hs : s.Initial) (p : P) :
    Partition (s.view p) ∧ (s.view p).held = [] ∧ (s.view p).history = [] ∧
      ∀ index ∈ (s.view p).pool.free, ∃ conn, (s.view p).pool.connection index = some conn ∧
        conn.qp.state = .INIT ∧ conn.cq.completions = [] := by
  obtain ⟨count, answers, log, env, hcreate, -⟩ := hs.created p
  obtain ⟨hfree, hlive, hcapacity, -, hdropped, hslots⟩ :=
    (ConnectionPool.create_spec count ⟨answers, log, ()⟩).ok hcreate
  have hheld : (s.view p).held = [] := by simp [System.view, hs.leases]
  refine ⟨⟨?_, ?_, hcapacity⟩, hheld, by simp [System.view, hs.history], ?_⟩
  · simp [View.heldIndexes, System.view, hs.leases, hfree, hdropped]
  · simp [System.view, hs.leases, hfree, hlive]
  · intro index hindex
    rw [System.view, hfree] at hindex
    exact hslots index (List.mem_range.mp hindex)

variable [Fintype T]

/-- A property of the slots that new connections have and every holder keeps
holds in every state that is reached, if the releases that do not restore their
connection are those that `skip` permits. -/
theorem slotsHold_of_reachable {device : P → RdmaDevice}
    {free : Option RcConnection → Prop} {held : Lease P T → Option RcConnection → Prop}
    {event : Event P T → Prop} {ok : System P T → PoolAction P T → Prop}
    (rule : ∀ p, SlotRule skip p free held event)
    (fresh : ∀ conn : RcConnection, conn.qp.state = .INIT → conn.cq.completions = [] →
      free (some conn))
    (hskip : ∀ s l answers p, ok s (.restore l answers) → l.pool = some p →
      l.connected = false → skip ((s.pools p).connection l.index))
    {s : System P T} (hs : (poolMachine device).ReachableWhere ok s) (p : P) :
    Partition (s.view p) ∧ SlotsHold free held event (s.view p) := by
  refine Machine.ReachableWhere.invariant
    (I := fun s => Partition (s.view p) ∧ SlotsHold free held event (s.view p)) ?_ ?_ hs
  · intro s hs
    obtain ⟨hpart, hheld, hhistory, hslots⟩ := initial_view hs p
    refine ⟨hpart, ?_, by simp [hheld], by simp [hhistory]⟩
    intro index hindex
    obtain ⟨conn, hconn, hinit, hempty⟩ := hslots index hindex
    rw [hconn]
    exact fresh conn hinit hempty
  · rintro s a t - ⟨hpart, hslots⟩ hok hstep
    have hmove : Move skip p (s.view p) (t.view p) := by
      refine poolStep_move hstep ?_ p
      rintro l answers q rfl hq hconnected
      exact hskip s l answers q hok hq hconnected
    exact ⟨hpart.move hmove, hslots.move (rule p) hpart hmove⟩

/-! ### The pool's promise -/

/-- A connection that is ready for a lease. -/
def Ready (slot : Option RcConnection) : Prop := ∃ conn, slot = some conn ∧ conn.qp.state = .INIT

/-- A lease that is not dropping its connection has one, in INIT unless it was
connected and not yet restored. -/
def HasConnection (l : Lease P T) (slot : Option RcConnection) : Prop :=
  l.usable ≠ some false → ∃ conn, slot = some conn ∧
    (l.connected = false ∨ l.usable = some true → conn.qp.state = .INIT)

def StartsReady : Event P T → Prop
  | .leased _ _ _ slot => Ready slot
  | _ => True

omit [DecidableEq P] [DecidableEq T] [Fintype T] in
theorem ready_rule (p : P) :
    SlotRule (T := T) (fun _ => True) p Ready HasConnection StartsReady where
  take := by
    rintro slot index t serial ⟨conn, rfl, hinit⟩
    exact ⟨fun _ => ⟨conn, rfl, fun _ => hinit⟩, conn, rfl, hinit⟩
  use := by
    intro l slot l' slot' events hl used
    cases used with
    | connect active cq => exact ⟨fun _ => ⟨_, rfl, by simp [active]⟩, nofun⟩
    | poll active qp cqe head =>
        obtain ⟨conn, hconn, hinit⟩ := hl (by simp [active])
        cases hconn
        refine ⟨fun _ => ⟨_, rfl, ?_⟩, by simp [StartsReady]⟩
        rw [qp]
        exact hinit
    | pollNothing active => exact ⟨hl, nofun⟩
    | complete active room =>
        obtain ⟨conn, hconn, hinit⟩ := hl (by simp [active])
        cases hconn
        exact ⟨fun _ => ⟨_, rfl, hinit⟩, nofun⟩
    | restored active state drained => exact ⟨fun _ => ⟨_, rfl, fun _ => state⟩, nofun⟩
    | dropped active => exact ⟨fun h => absurd rfl h, nofun⟩
    | untouched active connected skips =>
        obtain ⟨conn, hconn, hinit⟩ := hl (by simp [active])
        exact ⟨fun _ => ⟨conn, hconn, fun _ => hinit (.inl connected)⟩, nofun⟩
  giveBack := by
    intro l slot hl husable
    obtain ⟨conn, hconn, hinit⟩ := hl (by simp [husable])
    exact ⟨conn, hconn, hinit (.inr husable)⟩
  refused := fun _ _ => trivial
  closeReturned := trivial

theorem partition_of_reachable {device : P → RdmaDevice} {s : System P T}
    (hs : (poolMachine device).Reachable s) (p : P) : Partition (s.view p) :=
  (slotsHold_of_reachable ready_rule (fun conn hinit _ => ⟨conn, rfl, hinit⟩)
    (fun _ _ _ _ _ _ _ => trivial) hs p).1

/-- In every reachable state the indexes of a pool are divided between its free
list, its leases (also those whose release is under way) and those that were
dropped. The count of live connections is right and stays positive as long as a
lease can be released; the free list stays within what was reserved. Every
lease has a connection until its release has dropped it, in INIT until it is
connected, and every free index names a connection in INIT, so that a lease
starts with one. -/
theorem pool_exclusive {device : P → RdmaDevice} {s : System P T}
    (hs : (poolMachine device).Reachable s) (p : P) :
    let pool := s.pools p
    let leased := (s.leases.filter fun l => l.pool = some p).map Lease.index
    (pool.free ++ leased ++ pool.dropped).Nodup ∧
    (∀ index, index ∈ pool.free ++ leased ++ pool.dropped ↔ index < pool.slots.length) ∧
    pool.live = pool.free.length + leased.length ∧
    (∀ l ∈ s.leases, l.pool = some p → 0 < pool.live) ∧
    pool.free.length ≤ pool.capacity ∧
    (∀ l ∈ s.leases, l.pool = some p → l.usable ≠ some false →
      ∃ conn, pool.connection l.index = some conn ∧
        (l.connected = false → conn.qp.state = .INIT)) ∧
    (∀ index ∈ pool.free, ∃ conn, pool.connection index = some conn ∧ conn.qp.state = .INIT) ∧
    (∀ t serial slot, .leased t p serial slot ∈ s.history →
      ∃ conn, slot = some conn ∧ conn.qp.state = .INIT) := by
  obtain ⟨hpart, hslots⟩ := slotsHold_of_reachable ready_rule
    (fun conn hinit _ => ⟨conn, rfl, hinit⟩) (fun _ _ _ _ _ _ _ => trivial) hs p
  have hheld : ∀ l ∈ s.leases, l.pool = some p → l ∈ (s.view p).held := by
    intro l hl hp
    exact List.mem_filter.mpr ⟨hl, by simpa using hp⟩
  refine ⟨hpart.nodup, ?_, ?_, ?_, hpart.free_le_capacity, ?_, hslots.free, ?_⟩
  · intro index
    exact hpart.indexes.mem_iff.trans List.mem_range
  · rw [List.length_map]
    exact hpart.live
  · intro l hl hp
    have hlive : (s.pools p).live = _ := hpart.live
    have hpos := List.length_pos_of_mem (hheld l hl hp)
    omega
  · intro l hl hp husable
    obtain ⟨conn, hconn, hinit⟩ := hslots.held l (hheld l hl hp) husable
    exact ⟨conn, hconn, fun h => hinit (.inl h)⟩
  · intro t serial slot hevent
    exact hslots.history _ (List.mem_filter.mpr ⟨hevent, by simp [Event.pool]⟩)

end Reachable

/-- A lease is connected, and neither its reset nor its replacement works. -/
def droppingRun : List (PoolAction Unit (Fin 2)) :=
  let lease : Lease Unit (Fin 2) := ⟨some (), 1, false, 0, 0, none⟩
  let token : RdmaToken := ⟨0, .replicate 16 0, 0, 0, 0, .RC, 0, 0⟩
  [.acquire 0 (), .connect lease token [.success 0, .throws],
    .restore { lease with connected := true } [.success 0, .failure],
    .acquire 1 (),
    .releaseLocked { lease with connected := true, usable := some false }]

theorem pool_exclusive_after_drop :
    ∃ s : System Unit (Fin 2), (s.pools ()).free = [] ∧ (s.pools ()).dropped = [1] ∧
      (s.pools ()).live = 0 + (s.leases.filter fun l => l.pool = some ()).length := by
  obtain ⟨s, hs, hlast⟩ := Machine.exists_reachable_of_exec (poolMachine fun _ => ⟨1, 0, 0⟩)
    droppingRun (fun s => (s.pools ()).free = [] ∧ (s.pools ()).dropped = [1])
    (System.ofPool_initial 2
      [.success 16, .success 1, .success 0, .success 16, .success 1, .success 0]
      (samplePool 2) ⟨[], sampleLog 2, ()⟩ rfl)
    (by decide)
  obtain ⟨hfree, hdropped⟩ := of_decide_eq_true hlast
  have hlive := (pool_exclusive hs ()).2.2.1
  rw [hfree, List.length_map] at hlive
  exact ⟨s, hfree, hdropped, hlive⟩

end HipObject
