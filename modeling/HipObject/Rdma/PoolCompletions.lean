import HipObject.Rdma.PoolInvariant

/-!
# Whose completions a transfer sees

`ConnectionPool` gives each connection a completion queue of its own, "so a
transfer only sees its own completions". Between two leases the queue is emptied
by the reset, but only a connection that was connected is reset. A transfer
whose reply names no peer polls the queue all the same, and what is left there
when it ends goes to the next lease.

The promise is kept by every run in which a lease that was never connected ends
with its queue empty, and broken by a run of a pool with one connection.
-/

namespace HipObject

open Verification

variable {P T : Type}

def Drained (slot : Option RcConnection) : Prop :=
  ∀ conn, slot = some conn → conn.cq.completions = []

/-- The queue of a lease in use holds completions of its own transfer only, and
no more than it has room for. It is empty once the connection is restored. -/
def OwnCompletions (l : Lease P T) (slot : Option RcConnection) : Prop :=
  ∀ conn, slot = some conn →
    (l.usable = none → conn.cq.completions.length ≤ conn.cq.cqe ∧
      ∀ wc ∈ conn.cq.completions, wc.transfer = l.serial) ∧
    (l.usable = some true → conn.cq.completions = [])

/-- A lease starts with an empty queue, and a transfer consumes its own. -/
def SeesOwn : Event P T → Prop
  | .leased _ _ _ slot => Drained slot
  | .polled _ serial wc _ => wc.transfer = serial
  | _ => True

theorem ownCompletions_rule (p : P) :
    SlotRule (T := T) Drained p Drained OwnCompletions SeesOwn where
  take := by
    intro slot index t serial hslot
    refine ⟨?_, hslot⟩
    intro conn hconn
    simp [hslot conn hconn]
  use := by
    intro l slot l' slot' events hl used
    cases used with
    | connect active cq =>
        refine ⟨?_, nofun⟩
        intro conn hconn
        cases hconn
        rw [cq]
        exact hl _ rfl
    | @poll conn conn' wc result active qp cqe head =>
        obtain ⟨hroom, hown⟩ := (hl conn rfl).1 active
        rw [head] at hroom hown
        refine ⟨?_, ?_⟩
        · intro other hother
          cases hother
          refine ⟨fun _ => ⟨?_, fun w hw => hown w (by simp [hw])⟩, by simp [active]⟩
          rw [cqe]
          simp only [List.length_cons] at hroom
          omega
        · intro e he
          rw [List.mem_singleton.mp he]
          exact hown wc (by simp)
    | pollNothing active => exact ⟨hl, nofun⟩
    | @complete conn success opcode active room =>
        obtain ⟨-, hown⟩ := (hl conn rfl).1 active
        refine ⟨?_, nofun⟩
        intro other hother
        cases hother
        refine ⟨fun _ => ⟨?_, ?_⟩, by simp [active]⟩
        · simpa using Nat.succ_le_of_lt room
        · intro wc hwc
          rcases List.mem_append.mp hwc with hold | hnew
          · exact hown wc hold
          · rw [List.mem_singleton.mp hnew]
    | restored active state drained =>
        refine ⟨?_, nofun⟩
        intro conn hconn
        cases hconn
        refine ⟨nofun, fun _ => drained ?_⟩
        intro old hold
        exact ((hl old hold).1 active).1
    | dropped active => exact ⟨nofun, nofun⟩
    | untouched active connected skips =>
        exact ⟨fun conn hconn => ⟨nofun, fun _ => skips conn hconn⟩, nofun⟩
  giveBack := fun l slot hl husable conn hconn => (hl conn hconn).2 husable
  refused := fun _ _ => trivial
  closeReturned := trivial

variable [DecidableEq P] [DecidableEq T] [Fintype T]

/-- A step that does not end a lease on which `connect()` was never called while
completions are left in its queue. -/
def LeavesNothing (s : System P T) (a : PoolAction P T) : Prop :=
  ∀ l answers p conn, a = .restore l answers → l.pool = some p → l.connected = false →
    (s.pools p).connection l.index = some conn → conn.cq.completions = []

/-- In every run in which no unconnected lease ends with completions left in its
queue, every lease starts with an empty queue, and every completion that is
polled was added during the lease of the transfer that polls it. -/
theorem own_completions {device : P → RdmaDevice} {s : System P T}
    (hs : (poolMachine device).ReachableWhere LeavesNothing s) :
    (∀ t p serial conn, .leased t p serial (some conn) ∈ s.history →
      conn.cq.completions = []) ∧
    (∀ p serial wc result, .polled p serial wc result ∈ s.history → wc.transfer = serial) := by
  have hview : ∀ p, ∀ e ∈ (s.view p).history, SeesOwn e := by
    intro p
    refine (slotsHold_of_reachable ownCompletions_rule ?_ ?_ hs p).2.history
    · intro conn _ hempty other hother
      cases hother
      exact hempty
    · intro s l answers p hok hp hconnected conn hconn
      exact hok l answers p conn rfl hp hconnected hconn
  have hevent : ∀ e ∈ s.history, SeesOwn e := by
    intro e he
    exact hview e.pool e (List.mem_filter.mpr ⟨he, by simp⟩)
  refine ⟨?_, ?_⟩
  · intro t p serial conn he
    exact hevent _ he conn rfl
  · intro p serial wc result he
    exact hevent _ he

/-- A transfer that is connected, completed and released before another one. -/
def connectedTransfer : List (PoolAction Unit (Fin 1)) :=
  let lease : Lease Unit (Fin 1) := ⟨some (), 0, false, 0, 0, none⟩
  let connected := { lease with connected := true }
  [.acquire 0 (), .connect lease ⟨0, .replicate 16 0, 0, 0, 0, .RC, 0, 0⟩ [.success 0, .success 0],
    .complete connected true 0,
    .restore connected [.success 0, .success 1, .success 0, .success 0],
    .releaseLocked { connected with usable := some true }, .notify 0 none, .acquire 0 ()]

theorem own_completions_after_reset :
    ∃ s : System Unit (Fin 1), s.history.length = 2 ∧
      ∀ t p serial conn, .leased t p serial (some conn) ∈ s.history →
        conn.cq.completions = [] := by
  obtain ⟨s, hs, hlast⟩ := Machine.exists_reachableWhere_of_exec (poolMachine fun _ => ⟨1, 0, 0⟩)
    LeavesNothing connectedTransfer (fun s => s.history.length = 2)
    (System.ofPool_initial 1 [.success 16, .success 1, .success 0] (samplePool 1)
      ⟨[], sampleLog 1, ()⟩ rfl)
    (by
      rintro s a ha l answers p conn rfl - hconnected
      simp [connectedTransfer] at ha
      simp [ha] at hconnected)
    (by decide)
  exact ⟨s, of_decide_eq_true hlast, (own_completions hs).1⟩

/-! ### The run that breaks it -/

/-- The first transfer ends without a poll after its completion was added. -/
def firstTransfer : List (PoolAction Unit (Fin 1)) :=
  let lease : Lease Unit (Fin 1) := ⟨some (), 0, false, 0, 0, none⟩
  [.acquire 0 (), .complete lease true 0, .restore lease [],
    .releaseLocked { lease with usable := some true }, .notify 0 none]

/-- The second transfer polls once, on the same connection. -/
def secondTransfer : List (PoolAction Unit (Fin 1)) :=
  let lease : Lease Unit (Fin 1) := ⟨some (), 0, false, 0, 1, none⟩
  [.acquire 0 (), .poll lease none [.success 1]]

/-- A poll that ended a transfer with another transfer's completion. -/
def endedByAnother : Event Unit (Fin 1) → Bool
  | .polled _ serial wc result => wc.transfer != serial && result == some true
  | _ => false

/-- After a transfer whose reply names no peer, the next one starts with its
completion in the queue, and is told that it succeeded because of it. -/
theorem completion_seen_by_another :
    ¬ ∀ (device : Unit → RdmaDevice) (s : System Unit (Fin 1)),
      (poolMachine device).Reachable s →
      (∀ t p serial conn, .leased t p serial (some conn) ∈ s.history →
        conn.cq.completions = []) ∧
      (∀ p serial wc result, .polled p serial wc result ∈ s.history → wc.transfer = serial) := by
  intro hall
  obtain ⟨s, hs, hlast⟩ := Machine.exists_reachable_of_exec (poolMachine fun _ => ⟨1, 0, 0⟩)
    (firstTransfer ++ secondTransfer) (fun s => s.history.any endedByAnother)
    (System.ofPool_initial 1 [.success 16, .success 1, .success 0] (samplePool 1)
      ⟨[], sampleLog 1, ()⟩ rfl)
    (by decide)
  obtain ⟨e, he, hother⟩ := List.any_eq_true.mp hlast
  cases e with
  | polled p serial wc result =>
      have hown := (hall _ s hs).2 p serial wc result he
      simp [endedByAnother, hown] at hother
  | _ => cases hother

end HipObject
