import HipObject.Rdma.Transport

/-!
# The connection pool

A fixed set of connections for transfers to lease one at a time, following
`rdma/connection-pool.cpp`. Each operation here is one critical section of the
pool's mutex, or a stretch of code that runs without it; how they interleave is
the business of the pool machine.

`dropped` lists the indexes whose connection could not be replaced. The source
keeps no such list: an index that is dropped is in nobody's hands any more.
-/

namespace HipObject

open Verification

/-- Why `acquire()` returned no lease. -/
inductive AcquireError where
  | Closed
  | NoConnections
  | Busy
  deriving DecidableEq, Repr

structure ConnectionPool where
  /-- One per connection the pool created; a dropped slot is empty. -/
  slots : List (Option RcConnection)
  /-- The indexes of the connections that aren't leased. -/
  free : List Nat
  /-- What was reserved for `free`. -/
  capacity : Nat
  /-- The number of slots that haven't been dropped. -/
  live : Nat
  closed : Bool
  dropped : List Nat
  deriving DecidableEq

namespace ConnectionPool

def kCqSize : Nat := 16
def kMaxSendWr : Nat := 8
def kMaxRecvWr : Nat := 8

/-- A connection with the sizes that the pool's connections have. -/
def createConnection {σ : Type} : VerbsM σ (Option RcConnection) :=
  createRcConnection kCqSize kMaxSendWr kMaxRecvWr

/-- The constructor's loop. It stops at the first connection it can't create;
an exception destroys those it has. -/
def createConnections : Nat → List RcConnection → VerbsM Unit (List RcConnection)
  | 0, conns => return conns
  | count + 1, conns => do
      match ← tryCatch createConnection (fun e => do
          conns.forM destroyConnection
          throw e) with
      | none => return conns
      | some conn => createConnections count (conns ++ [conn])

/-- `ConnectionPool::ConnectionPool`. -/
def create (count : Nat) : VerbsM Unit ConnectionPool := do
  let conns ← createConnections count []
  return {
    slots := conns.map some
    free := List.range conns.length
    capacity := count
    live := conns.length
    closed := false
    dropped := [] }

/-! ### Acquiring -/

/-- The condition under which `acquire()` waits. -/
def mustWait (pool : ConnectionPool) : Bool :=
  !pool.closed && pool.free.isEmpty && pool.live != 0

/-- The rest of `acquire()` once it doesn't wait. -/
def takeFree (pool : ConnectionPool) : Except AcquireError (Nat × ConnectionPool) :=
  if pool.closed then .error .Closed
  else match pool.free.getLast? with
    | none => .error (if pool.live = 0 then .NoConnections else .Busy)
    | some index => .ok (index, { pool with free := pool.free.dropLast })

/-! ### Releasing -/

/-- `conn && x(*conn)`. -/
def onSlot (x : VerbsM RcConnection Bool) : VerbsM (Option RcConnection) Bool := fun env =>
  match env.obj with
  | none => .ok false env
  | some conn =>
      match x { env with obj := conn } with
      | .ok a t => .ok a { t with obj := some t.obj }
      | .error e t => .error e { t with obj := some t.obj }

/-- `conn.reset()`, which destroys the queue pair and then the completion queue. -/
def resetSlot : VerbsM (Option RcConnection) Unit :=
  modify fun env => { env with
    obj := none
    log := env.log ++ match env.obj with
      | none => []
      | some conn => [.destroyQp conn.qp.id, .destroyCq conn.cq.id] }

/-- Resets the connection in a slot, or replaces it with a new one. False, with
the slot empty, if neither works. -/
def restore : VerbsM (Option RcConnection) Bool := do
  let restored ← tryCatch
    (do
      if ← onSlot resetRcConnection then return true
      else
        -- The old objects are destroyed before the new ones are created.
        resetSlot
        match ← createConnection with
        | some fresh =>
            modify fun env => { env with obj := some fresh }
            return true
        | none => return false)
    (fun _ => return false)
  if restored then return true
  else
    resetSlot
    return false

/-- The critical section of `release()`. -/
def giveBack (pool : ConnectionPool) (index : Nat) (usable : Bool) : ConnectionPool :=
  if usable then { pool with free := pool.free ++ [index] }
  else { pool with live := pool.live - 1, dropped := index :: pool.dropped }

/-- The connection in a slot, or nothing for an empty slot. -/
def connection (pool : ConnectionPool) (index : Nat) : Option RcConnection :=
  (pool.slots[index]?).join

def size (pool : ConnectionPool) : Nat := pool.live

def available (pool : ConnectionPool) : Nat := pool.free.length

/-- The pool with another connection, or none, in a slot. -/
def setSlot (pool : ConnectionPool) (index : Nat) (conn : Option RcConnection) : ConnectionPool :=
  { pool with slots := pool.slots.set index conn }

/-! ### What each of them does -/

theorem connection_setSlot_self {pool : ConnectionPool} {index : Nat}
    {conn : Option RcConnection} (h : index < pool.slots.length) :
    (pool.setSlot index conn).connection index = conn := by
  simp [connection, setSlot, h]

theorem connection_setSlot_ne {pool : ConnectionPool} {index other : Nat}
    {conn : Option RcConnection} (h : other ≠ index) :
    (pool.setSlot index conn).connection other = pool.connection other := by
  simp [connection, setSlot, List.getElem?_set_ne (Ne.symm h)]

@[simp] theorem setSlot_free (pool : ConnectionPool) (index : Nat) (conn : Option RcConnection) :
    (pool.setSlot index conn).free = pool.free := rfl

@[simp] theorem setSlot_live (pool : ConnectionPool) (index : Nat) (conn : Option RcConnection) :
    (pool.setSlot index conn).live = pool.live := rfl

@[simp] theorem setSlot_closed (pool : ConnectionPool) (index : Nat)
    (conn : Option RcConnection) : (pool.setSlot index conn).closed = pool.closed := rfl

@[simp] theorem setSlot_dropped (pool : ConnectionPool) (index : Nat)
    (conn : Option RcConnection) : (pool.setSlot index conn).dropped = pool.dropped := rfl

@[simp] theorem setSlot_capacity (pool : ConnectionPool) (index : Nat)
    (conn : Option RcConnection) : (pool.setSlot index conn).capacity = pool.capacity := rfl

@[simp] theorem setSlot_length (pool : ConnectionPool) (index : Nat)
    (conn : Option RcConnection) : (pool.setSlot index conn).slots.length = pool.slots.length := by
  simp [setSlot]

@[simp] theorem giveBack_slots (pool : ConnectionPool) (index : Nat) (usable : Bool) :
    (pool.giveBack index usable).slots = pool.slots := by
  cases usable <;> rfl

@[simp] theorem giveBack_capacity (pool : ConnectionPool) (index : Nat) (usable : Bool) :
    (pool.giveBack index usable).capacity = pool.capacity := by
  cases usable <;> rfl

@[simp] theorem giveBack_closed (pool : ConnectionPool) (index : Nat) (usable : Bool) :
    (pool.giveBack index usable).closed = pool.closed := by
  cases usable <;> rfl

@[simp] theorem giveBack_connection (pool : ConnectionPool) (index : Nat) (usable : Bool)
    (i : Nat) : (pool.giveBack index usable).connection i = pool.connection i := by
  simp [connection]

/-- What `acquire()` takes is the last of the free indexes, and only while the
pool is open. -/
theorem takeFree_ok {pool taken : ConnectionPool} {index : Nat}
    (h : pool.takeFree = .ok (index, taken)) :
    pool.closed = false ∧ pool.free = pool.free.dropLast ++ [index] ∧
      taken = { pool with free := pool.free.dropLast } := by
  unfold takeFree at h
  split at h
  · cases h
  · rename_i hclosed
    split at h
    · cases h
    · rename_i last hlast
      cases h
      refine ⟨by simpa using hclosed, ?_, rfl⟩
      exact (List.dropLast_append_getLast? index hlast).symm

/-- A slot whose connection is reset keeps a connection, in INIT. -/
private theorem onSlot_spec (env : Env (Option RcConnection)) :
    Ensures (onSlot resetRcConnection) env
      (fun reset t => reset = true → ∃ old conn, env.obj = some old ∧ t.obj = some conn ∧
        conn.qp.state = .INIT ∧
        (old.cq.completions.length ≤ old.cq.cqe → conn.cq.completions = []))
      (fun _ => True) := by
  unfold Ensures onSlot
  cases hobj : env.obj with
  | none => exact nofun
  | some old =>
      have hreset := resetRcConnection_spec ⟨env.answers, env.log, old⟩
      cases hrun : resetRcConnection ⟨env.answers, env.log, old⟩ with
      | ok reset t =>
          simp only [hrun]
          intro hok
          obtain ⟨hinit, hempty⟩ := hreset.ok hrun hok
          exact ⟨old, t.obj, rfl, rfl, hinit, hempty⟩
      | error e t => simp only [hrun]

/-- What the code inside `restore`'s `try` leaves: the same as `restore`, but a
failure says nothing about the slot. -/
private theorem resetOrReplace_spec (env : Env (Option RcConnection)) :
    Ensures (do
      if ← onSlot resetRcConnection then return true
      else
        resetSlot
        match ← createConnection with
        | some fresh =>
            modify fun env => { env with obj := some fresh }
            return true
        | none => return false) env
      (fun restored t => restored = true → ∃ conn, t.obj = some conn ∧ conn.qp.state = .INIT ∧
        ((∀ old, env.obj = some old → old.cq.completions.length ≤ old.cq.cqe) →
          conn.cq.completions = []))
      (fun _ => True) := by
  refine Ensures.bind ((onSlot_spec env).mono ?_ fun _ _ => trivial)
  intro reset t ht
  cases reset with
  | true =>
      intro _
      obtain ⟨old, conn, hold, hconn, hinit, hempty⟩ := ht rfl
      exact ⟨conn, hconn, hinit, fun hroom => hempty (hroom old hold)⟩
  | false =>
      refine Ensures.modify_bind (Ensures.bind ((createRcConnection_spec _ _ _).mono ?_
        fun _ _ => trivial))
      rintro (_ | fresh) u ⟨-, hfresh⟩
      · exact nofun
      · refine Ensures.modify_bind ?_
        rw [Ensures.pure_iff]
        intro _
        exact ⟨fresh, rfl, (hfresh fresh rfl).1, fun _ => (hfresh fresh rfl).2⟩

/-- A slot that is restored holds a connection in INIT, with nothing completed
on it if its queue held no more than its capacity; a slot that is not is empty.
No exception leaves. -/
theorem restore_spec (env : Env (Option RcConnection)) :
    Ensures restore env
      (fun usable t =>
        if usable then ∃ conn, t.obj = some conn ∧ conn.qp.state = .INIT ∧
          ((∀ old, env.obj = some old → old.cq.completions.length ≤ old.cq.cqe) →
            conn.cq.completions = [])
        else t.obj = none)
      (fun _ => False) := by
  unfold restore
  refine Ensures.bind (Ensures.tryCatch ((resetOrReplace_spec env).mono ?_ ?_))
  · intro restored t ht
    cases restored with
    | true => exact ht rfl
    | false => exact rfl
  · intro t _ _
    exact rfl

/-- The loop only adds connections in INIT with nothing completed. -/
theorem createConnections_spec (count : Nat) (conns : List RcConnection) (env : Env Unit)
    (hconns : ∀ conn ∈ conns, conn.qp.state = .INIT ∧ conn.cq.completions = []) :
    Ensures (createConnections count conns) env
      (fun made _ => made.length ≤ conns.length + count ∧
        ∀ conn ∈ made, conn.qp.state = .INIT ∧ conn.cq.completions = [])
      (fun _ => True) := by
  induction count generalizing conns env with
  | zero => exact ⟨Nat.le_refl _, hconns⟩
  | succ count ih =>
      refine Ensures.bind (Ensures.tryCatch ((createRcConnection_spec _ _ _).mono ?_ ?_))
      · rintro (_ | fresh) t ⟨-, hfresh⟩
        · exact ⟨Nat.le_add_right _ _, hconns⟩
        · refine (ih (conns ++ [fresh]) t ?_).mono ?_ fun _ h => h
          · intro conn hmem
            rcases List.mem_append.mp hmem with hold | hnew
            · exact hconns conn hold
            · rw [List.mem_singleton.mp hnew]
              exact hfresh fresh rfl
          · rintro made u ⟨hlen, hmade⟩
            refine ⟨?_, hmade⟩
            simp only [List.length_append, List.length_singleton] at hlen
            omega
      · intro t _ e
        exact Ensures.bind (Ensures.of_forall (fun _ _ => trivial) fun _ => trivial)

/-- A new pool has all its indexes free, on connections in INIT with nothing
completed. -/
theorem create_spec (count : Nat) (env : Env Unit) :
    Ensures (create count) env
      (fun pool _ => pool.free = List.range pool.slots.length ∧ pool.live = pool.slots.length ∧
        pool.slots.length ≤ pool.capacity ∧ pool.closed = false ∧ pool.dropped = [] ∧
        ∀ index, index < pool.slots.length → ∃ conn, pool.connection index = some conn ∧
          conn.qp.state = .INIT ∧ conn.cq.completions = [])
      (fun _ => True) := by
  unfold create
  refine Ensures.bind ((createConnections_spec count [] env (by simp)).mono ?_ fun _ h => h)
  rintro made t ⟨hlen, hmade⟩
  rw [Ensures.pure_iff]
  refine ⟨by simp, by simp, by simpa using hlen, rfl, rfl, ?_⟩
  intro index hindex
  have hlt : index < made.length := by simpa using hindex
  refine ⟨made[index], by simp [connection, hlt], hmade _ (List.getElem_mem hlt)⟩

end ConnectionPool
end HipObject
