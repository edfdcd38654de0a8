import HipObject.Rdma.PoolMachine
import Mathlib.Data.List.Perm.Basic
import Mathlib.Data.List.Nodup
import Mathlib.Tactic.ByContra

/-!
# What a step does to one pool

`View` is what concerns one pool: the pool, the leases of it, and its part of
the history. `Move` lists everything that one step of the machine can do to a
view, and `poolStep_move` says that it can do nothing else. Facts about every
reachable state then need a case for each kind of move, and none of them looks
at the machine again.
-/

namespace HipObject

open Verification

variable {P T : Type}

def Event.pool : Event P T → P
  | .leased _ p _ _ => p
  | .refused _ p _ => p
  | .polled p _ _ _ => p
  | .closeReturned p => p

/-- One pool, the leases of it, and what happened to it. -/
structure View (P T : Type) where
  pool : ConnectionPool
  held : List (Lease P T)
  history : List (Event P T)

def System.view [DecidableEq P] (s : System P T) (p : P) : View P T where
  pool := s.pools p
  held := s.leases.filter fun l => l.pool = some p
  history := s.history.filter fun e => e.pool = p

/-! ### Moves -/

/-- What the holder of a lease, or the hardware while it is held, can do to the
lease and its slot, and what becomes known of it. A release that does not
restore the connection needs `skip`. -/
inductive Use (skip : Option RcConnection → Prop) (p : P) :
    Lease P T → Option RcConnection → Lease P T → Option RcConnection → List (Event P T) → Prop
  | connect {l : Lease P T} {conn conn' : RcConnection} (active : l.usable = none)
      (cq : conn'.cq = conn.cq) :
      Use skip p l (some conn) { l with connected := true } (some conn') []
  | poll {l : Lease P T} {conn conn' : RcConnection} {wc : Completion} {result : Option Bool}
      (active : l.usable = none) (qp : conn'.qp = conn.qp) (cqe : conn'.cq.cqe = conn.cq.cqe)
      (head : conn.cq.completions = wc :: conn'.cq.completions) :
      Use skip p l (some conn) l (some conn') [.polled p l.serial wc result]
  | pollNothing {l : Lease P T} {conn : RcConnection} (active : l.usable = none) :
      Use skip p l (some conn) l (some conn) []
  | complete {l : Lease P T} {conn : RcConnection} {success : Bool} {opcode : Nat}
      (active : l.usable = none) (room : conn.cq.completions.length < conn.cq.cqe) :
      Use skip p l (some conn) l (some { conn with
        cq.completions := conn.cq.completions ++ [⟨success, opcode, l.serial⟩] }) []
  | restored {l : Lease P T} {slot : Option RcConnection} {conn : RcConnection}
      (active : l.usable = none) (state : conn.qp.state = .INIT)
      (drained : (∀ old, slot = some old → old.cq.completions.length ≤ old.cq.cqe) →
        conn.cq.completions = []) :
      Use skip p l slot { l with usable := some true } (some conn) []
  | dropped {l : Lease P T} {slot : Option RcConnection} (active : l.usable = none) :
      Use skip p l slot { l with usable := some false } none []
  | untouched {l : Lease P T} {slot : Option RcConnection} (active : l.usable = none)
      (connected : l.connected = false) (skips : skip slot) :
      Use skip p l slot { l with usable := some true } slot []

/-- What a step can do to a pool. -/
inductive Move (skip : Option RcConnection → Prop) (p : P) : View P T → View P T → Prop
  | stay {v w : View P T} (pool : w.pool = v.pool) (held : w.held.Perm v.held)
      (history : w.history = v.history) : Move skip p v w
  | refuse {v w : View P T} {t : T} {e : AcquireError} (pool : w.pool = v.pool)
      (held : w.held = v.held) (history : w.history = .refused t p e :: v.history) : Move skip p v w
  | close {v w : View P T} (pool : w.pool = { v.pool with closed := true })
      (held : w.held = v.held) (history : w.history = v.history) : Move skip p v w
  | closed {v w : View P T} (pool : w.pool = v.pool)
      (held : w.held = v.held) (history : w.history = .closeReturned p :: v.history) :
      Move skip p v w
  | take {v w : View P T} (t : T) (index serial : Nat)
      (taken : v.pool.takeFree = .ok (index, w.pool))
      (held : w.held = ⟨some p, index, false, t, serial, none⟩ :: v.held)
      (history : w.history = .leased t p serial (v.pool.connection index) :: v.history) :
      Move skip p v w
  | use {v w : View P T} {l l' : Lease P T} {rest : List (Lease P T)}
      {slot : Option RcConnection} {events : List (Event P T)}
      (used : Use skip p l (v.pool.connection l.index) l' slot events)
      (pool : w.pool = v.pool.setSlot l.index slot) (before : v.held.Perm (l :: rest))
      (after : w.held = l' :: rest) (history : w.history = events ++ v.history) : Move skip p v w
  | giveBack {v w : View P T} {l : Lease P T} {usable : Bool} (found : l.usable = some usable)
      (pool : w.pool = v.pool.giveBack l.index usable) (before : v.held.Perm (l :: w.held))
      (history : w.history = v.history) : Move skip p v w

variable {skip : Option RcConnection → Prop} {p : P}

theorem Use.index_eq {l l' : Lease P T} {slot slot' : Option RcConnection}
    {events : List (Event P T)} (h : Use skip p l slot l' slot' events) : l'.index = l.index := by
  cases h <;> rfl

theorem Use.pool_eq {l l' : Lease P T} {slot slot' : Option RcConnection}
    {events : List (Event P T)} (h : Use skip p l slot l' slot' events) : l'.pool = l.pool := by
  cases h <;> rfl

theorem Use.event_pool {l l' : Lease P T} {slot slot' : Option RcConnection}
    {events : List (Event P T)} (h : Use skip p l slot l' slot' events) {e : Event P T}
    (he : e ∈ events) : e.pool = p := by
  cases h with
  | poll =>
      rw [List.mem_singleton.mp he]
      rfl
  | _ => cases he

/-! ### Every step moves a pool in one of these ways -/

section Steps

variable [DecidableEq P] [DecidableEq T]
variable {s t : System P T} {l l' : Lease P T} {q : P}

/-- The leases of a pool, with one of them brought to the front. -/
theorem held_perm_cons (hl : l ∈ s.leases) (hp : l.pool = some p) :
    (s.view p).held.Perm (l :: (s.leases.erase l).filter fun l => l.pool = some p) := by
  have h := (List.perm_cons_erase hl).filter fun l : Lease P T => l.pool = some p
  rwa [List.filter_cons_of_pos (by simpa using hp)] at h

/-- Leases of other pools are not affected when one is taken out. -/
theorem held_perm_erase (hl : l ∈ s.leases) (hq : l.pool ≠ some q) :
    ((s.leases.erase l).filter fun l => l.pool = some q).Perm (s.view q).held := by
  have h := (List.perm_cons_erase hl).filter fun l : Lease P T => l.pool = some q
  rw [List.filter_cons_of_neg (by simpa using hq)] at h
  exact h.symm

/-- An update by a lease's holder is a move of the lease's pool, and leaves the
others where they were. -/
theorem update_move {slot : Option RcConnection} (log : List VerbsCall)
    {events : List (Event P T)} (hl : l ∈ s.leases) (hp : l.pool = some p)
    (used : Use skip p l ((s.pools p).connection l.index) l' slot events) (q : P) :
    Move skip q (s.view q) ((s.update p l l' slot log events).view q) := by
  have hl' : l'.pool = some p := used.pool_eq.trans hp
  by_cases hq : q = p
  · subst hq
    refine .use used ?_ (held_perm_cons hl hp) ?_ ?_
    · simp [System.view, System.update]
    · simp [System.view, System.update, hl']
    · have hevents : events.filter (fun e => e.pool = q) = events :=
        List.filter_eq_self.mpr fun e he => by simpa using used.event_pool he
      simp [System.view, System.update, hevents]
  · have hne : some p ≠ some q := fun h => hq (Option.some.inj h).symm
    refine .stay ?_ ?_ ?_
    · simp [System.view, System.update, Function.update_of_ne hq]
    · have hfront : decide (l'.pool = some q) = false := by
        rw [hl']
        simpa using fun h => hq h.symm
      simp only [System.view, System.update, List.filter_cons, hfront]
      exact held_perm_erase hl (by rw [hp]; exact hne)
    · have hevents : events.filter (fun e => e.pool = q) = [] := by
        refine List.filter_eq_nil_iff.mpr fun e he => ?_
        rw [used.event_pool he]
        simpa using fun h => hq h.symm
      simp [System.view, System.update, hevents]

omit [DecidableEq P] [DecidableEq T] in
theorem connection_eq_some {conn : RcConnection} (h : s.connection l = some (p, conn)) :
    l.pool = some p ∧ (s.pools p).connection l.index = some conn := by
  obtain ⟨r, hr, h⟩ := Option.bind_eq_some_iff.mp h
  obtain ⟨conn', hconn, heq⟩ := Option.map_eq_some_iff.mp h
  cases heq
  exact ⟨hr, hconn⟩

theorem acquireLocked_move (s : System P T) (t : T) (p q : P) :
    Move skip q (s.view q) ((s.acquireLocked t p).view q) := by
  unfold System.acquireLocked
  split
  · exact .stay rfl (.refl _) rfl
  · split
    · rename_i e _
      by_cases hq : p = q
      · subst hq
        refine .refuse (t := t) (e := e) rfl rfl ?_
        simp [System.view, Event.pool]
      · refine .stay rfl (.refl _) ?_
        simp [System.view, Event.pool, hq]
    · rename_i index pool htake
      by_cases hq : p = q
      · subst hq
        refine .take t index s.nextSerial ?_ ?_ ?_
        · simpa [System.view] using htake
        · simp [System.view]
        · simp [System.view, Event.pool]
      · refine .stay ?_ ?_ ?_
        · simp [System.view, Function.update_of_ne (Ne.symm hq)]
        · simp [System.view, hq]
        · simp [System.view, Event.pool, hq]

omit [DecidableEq T] in
/-- A step that leaves pools, leases and history alone is no move at all. -/
theorem Move.of_eq (hpools : t.pools = s.pools) (hleases : t.leases = s.leases)
    (hhistory : t.history = s.history) (q : P) : Move skip q (s.view q) (t.view q) := by
  refine .stay ?_ ?_ ?_
  · simp [System.view, hpools]
  · simp [System.view, hleases]
  · simp [System.view, hhistory]

theorem connect_move {device : P → RdmaDevice} {peerToken : RdmaToken} {answers : List Answer}
    (h : s.connect device l peerToken answers = some t) (q : P) :
    Move skip q (s.view q) (t.view q) := by
  unfold System.connect at h
  split at h
  · rename_i huse
    obtain ⟨⟨p, conn⟩, hconn, rfl⟩ := Option.map_eq_some_iff.mp h
    obtain ⟨hp, hslot⟩ := connection_eq_some hconn
    refine update_move _ huse.1 hp ?_ q
    rw [hslot]
    exact .connect huse.2.1 (connectRcPeer_spec _ _ _).final
  · cases h

theorem poll_move {expectedOpcode : Option Nat} {answers : List Answer}
    (h : s.poll l expectedOpcode answers = some t) (q : P) :
    Move skip q (s.view q) (t.view q) := by
  unfold System.poll at h
  split at h
  · rename_i huse
    obtain ⟨⟨p, conn⟩, hconn, rfl⟩ := Option.map_eq_some_iff.mp h
    obtain ⟨hp, hslot⟩ := connection_eq_some hconn
    have hpoll := pollCq_spec ⟨answers, s.log, conn⟩
    -- Only a poll that finds a completion changes the connection.
    dsimp only
    split
    · rename_i wc env hrun
      obtain ⟨hqp, hcqe, hhead⟩ := hpoll.ok hrun
      refine update_move _ huse.1 hp ?_ q
      rw [hslot]
      exact .poll huse.2.1 hqp hcqe hhead
    · rename_i polled env hnot hrun
      have hsame : env.obj = conn := by
        obtain ⟨-, -, h⟩ := hpoll.ok hrun
        rcases polled with _ | _ | wc
        · exact h
        · exact h.2
        · exact absurd rfl (hnot wc)
      refine update_move _ huse.1 hp ?_ q
      rw [hslot, hsame]
      exact .pollNothing huse.2.1
    · rename_i e env hrun
      have hsame : env.obj = conn := hpoll.error hrun
      refine update_move _ huse.1 hp ?_ q
      rw [hslot, hsame]
      exact .pollNothing huse.2.1
  · cases h

theorem complete_move {success : Bool} {opcode : Nat}
    (h : s.complete l success opcode = some t) (q : P) :
    Move skip q (s.view q) (t.view q) := by
  unfold System.complete at h
  split at h
  · rename_i huse
    obtain ⟨⟨p, conn⟩, hconn, hroom⟩ := Option.bind_eq_some_iff.mp h
    obtain ⟨hp, hslot⟩ := connection_eq_some hconn
    simp only [Option.ite_none_right_eq_some, Option.some.injEq] at hroom
    obtain ⟨hroom, rfl⟩ := hroom
    refine update_move _ huse.1 hp ?_ q
    rw [hslot]
    exact .complete huse.2 hroom
  · cases h

theorem restore_move {answers : List Answer} (h : s.restore l answers = some t)
    (hskip : ∀ p, l.pool = some p → l.connected = false →
      skip ((s.pools p).connection l.index)) (q : P) :
    Move skip q (s.view q) (t.view q) := by
  unfold System.restore at h
  split at h
  · rename_i huse
    obtain ⟨p, hp, h⟩ := Option.bind_eq_some_iff.mp h
    have hrestore := ConnectionPool.restore_spec
      ⟨answers, s.log, (s.pools p).connection l.index⟩
    by_cases hconnected : l.connected = true
    · dsimp only at h
      rw [if_pos hconnected] at h
      split at h
      · rename_i usable env hrun
        cases h
        refine update_move env.log huse.1 hp ?_ q
        have hslot := hrestore.ok hrun
        cases usable with
        | true =>
            obtain ⟨conn, hobj, hinit, hdrained⟩ := hslot
            rw [hobj]
            exact .restored huse.2.1 hinit hdrained
        | false =>
            rw [show env.obj = none from hslot]
            exact .dropped huse.2.1
      · cases h
    · have hconnected : l.connected = false := by simpa using hconnected
      dsimp only at h
      rw [if_neg (by simp [hconnected])] at h
      cases h
      exact update_move s.log huse.1 hp
        (.untouched huse.2.1 hconnected (hskip p hp hconnected)) q
  · cases h

theorem releaseLocked_move (h : s.releaseLocked l = some t) (q : P) :
    Move skip q (s.view q) (t.view q) := by
  unfold System.releaseLocked at h
  split at h
  · rename_i huse
    obtain ⟨p, hp, h⟩ := Option.bind_eq_some_iff.mp h
    obtain ⟨usable, husable, rfl⟩ := Option.map_eq_some_iff.mp h
    by_cases hq : q = p
    · subst hq
      refine .giveBack husable ?_ (held_perm_cons huse.1 hp) rfl
      simp [System.view]
    · refine .stay ?_ (held_perm_erase huse.1 ?_) rfl
      · simp [System.view, Function.update_of_ne hq]
      · rw [hp]
        exact fun h => hq (Option.some.inj h).symm
  · cases h

theorem close_move {thread : T} (h : s.close thread p = some t) (q : P) :
    Move skip q (s.view q) (t.view q) := by
  unfold System.close at h
  split at h
  · cases h
    by_cases hq : q = p
    · subst hq
      exact .close (by simp [System.view]) rfl rfl
    · exact .stay (by simp [System.view, Function.update_of_ne hq]) (.refl _) rfl
  · cases h

theorem notify_move [Fintype T] {thread : T} {chosen : Option T}
    (h : s.notify thread chosen = some t) (q : P) : Move skip q (s.view q) (t.view q) := by
  unfold System.notify at h
  split at h
  · rename_i p signal ofRelease _
    obtain ⟨control, -, rfl⟩ := Option.map_eq_some_iff.mp h
    cases ofRelease with
    | true => exact .of_eq rfl rfl rfl q
    | false =>
        by_cases hq : p = q
        · subst hq
          exact .closed rfl rfl (by simp [System.view, Event.pool])
        · exact .stay rfl (.refl _) (by simp [System.view, Event.pool, hq])
  · cases h

theorem poolStep_move [Fintype T] {device : P → RdmaDevice} {a : PoolAction P T}
    (h : poolStep device s a = some t)
    (hskip : ∀ l answers p, a = .restore l answers → l.pool = some p → l.connected = false →
      skip ((s.pools p).connection l.index)) (q : P) :
    Move skip q (s.view q) (t.view q) := by
  cases a with
  | acquire thread p =>
      simp only [poolStep, System.acquire, Option.ite_none_right_eq_some, Option.some.injEq] at h
      obtain ⟨-, rfl⟩ := h
      exact acquireLocked_move s thread p q
  | wake thread =>
      simp only [poolStep, System.wake] at h
      split at h
      · cases h
        exact acquireLocked_move s thread _ q
      · cases h
        exact acquireLocked_move s thread _ q
      · cases h
  | move l =>
      simp only [poolStep, System.move, Option.ite_none_right_eq_some, Option.some.injEq] at h
      obtain ⟨-, rfl⟩ := h
      exact .stay rfl (by simp [System.view]) rfl
  | destroyMoved l =>
      simp only [poolStep, System.destroyMoved, Option.ite_none_right_eq_some,
        Option.some.injEq] at h
      obtain ⟨⟨huse, hmoved⟩, rfl⟩ := h
      exact .stay rfl (held_perm_erase huse.1 (by simp [hmoved])) rfl
  | connect l peerToken answers => exact connect_move h q
  | poll l expectedOpcode answers => exact poll_move h q
  | complete l success opcode => exact complete_move h q
  | restore l answers => exact restore_move h (fun p => hskip l answers p rfl) q
  | releaseLocked l => exact releaseLocked_move h q
  | notify thread chosen => exact notify_move h q
  | close thread p => exact close_move h q

end Steps

end HipObject
