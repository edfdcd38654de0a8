import HipObject.Rdma.Token
import HipObject.Verification.Ensures

/-!
# Reliable connections

A connection is a queue pair and the completion queue its work completes on.
This module follows `rdma/transport.cpp`: creating a connection in INIT,
connecting it to a peer through RTR and RTS, polling it, and moving it back to
INIT through RESET with its completions drained.

Every verbs call takes its answer from a script, so a statement for all scripts
is a statement for every pattern of successes, failures and exceptions. A queue
pair changes its state only through a successful `modify_qp`. The calls are
logged in order, with the objects they name. The vendor attributes that
`applyVendorQpAttrs` sets are not modelled, since no result depends on them.
-/

namespace HipObject

open Codec Verification

/-- `ibv_qp_state`. The library moves a queue pair to one of the first four; the
device can move it to one of the others. -/
inductive QpState where
  | RESET
  | INIT
  | RTR
  | RTS
  | SQD
  | SQE
  | ERR
  deriving DecidableEq, Repr

/-- Where a queue pair in RTR is aimed: the fields of the address handle and
`dest_qp_num` that come from the peer. -/
structure Destination where
  qpNum : BitVec 32
  gid : Gid
  lid : BitVec 16
  deriving DecidableEq

/-- A work completion: whether its status is `IBV_WC_SUCCESS`, its opcode, and
the transfer during which it was added, which the library cannot see. -/
structure Completion where
  success : Bool
  opcode : Nat
  transfer : Nat
  deriving DecidableEq, Repr

/-- A completion queue, with room for `cqe` completions. -/
structure Cq where
  id : Nat
  cqe : Nat
  completions : List Completion
  deriving DecidableEq

structure Qp where
  id : Nat
  qpNum : BitVec 32
  state : QpState
  dest : Option Destination
  deriving DecidableEq

/-- A reliable-connected queue pair and its completion queue. -/
structure RcConnection where
  cq : Cq
  qp : Qp
  deriving DecidableEq

/-- An open RDMA device: the port and GID that connections on it use. -/
structure RdmaDevice where
  portNum : BitVec 8
  gidIndex : Int
  localGid : Gid

/-! ### Verbs -/

/-- The opcodes of the work requests that a server posts. -/
inductive WrOpcode where
  | RDMA_WRITE
  | RDMA_READ
  deriving DecidableEq, Repr

/-- A send work request: the length of its one scatter/gather element, and the
memory of the peer that it names. -/
structure SendWr where
  opcode : WrOpcode
  length : BitVec 32
  remoteAddr : BitVec 64
  rkey : BitVec 32
  deriving DecidableEq

/-- A call of libibverbs, with the object it is made on. -/
inductive VerbsCall where
  | createCq (cqSize : Nat)
  | createQp (cq maxSendWr maxRecvWr : Nat)
  | modifyQp (qp : Nat) (target : QpState) (dest : Option Destination)
  | pollCq (cq : Nat)
  | postSend (qp : Nat) (wr : SendWr)
  | destroyQp (qp : Nat)
  | destroyCq (cq : Nat)
  deriving DecidableEq

/-- What a verbs call does. The value of a success is the capacity of a new
completion queue or the number of a new queue pair, and is not read otherwise. -/
inductive Answer where
  | success (value : Nat)
  | failure
  | throws
  deriving DecidableEq, Repr

/-- The surroundings of a piece of code that makes verbs calls: the answers to
come, the calls made so far, and the object that it changes. -/
structure Env (σ : Type) where
  answers : List Answer
  log : List VerbsCall
  obj : σ

/-- An exception. What it carries is never read. -/
inductive Thrown where
  | thrown

/-- Code that makes verbs calls on an object it holds a reference to. -/
abbrev VerbsM (σ α : Type) := EStateM Thrown (Env σ) α

variable {σ : Type}

/-- One verbs call. A script that has run out answers with a failure. -/
def call (c : VerbsCall) : VerbsM σ Answer := fun env =>
  let log := env.log ++ [c]
  match env.answers with
  | [] => .ok .failure { env with log }
  | .throws :: answers => .error .thrown { env with answers, log }
  | a :: answers => .ok a { env with answers, log }

/-- The deleters ignore what the verb returns, so destroying cannot fail. -/
def destroyConnection (conn : RcConnection) : VerbsM σ Unit :=
  modify fun env => { env with log := env.log ++ [.destroyQp conn.qp.id, .destroyCq conn.cq.id] }

/-- Runs code on a connection that is a local variable: an exception that
passes destroys it. -/
def onLocal {α : Type} (conn : RcConnection) (x : VerbsM RcConnection α) :
    VerbsM σ (α × RcConnection) := fun env =>
  match x ⟨env.answers, env.log, conn⟩ with
  | .ok a t => .ok (a, t.obj) { env with answers := t.answers, log := t.log }
  | .error e t => .error e { env with
      answers := t.answers
      log := t.log ++ [.destroyQp t.obj.qp.id, .destroyCq t.obj.cq.id] }

/-- A queue pair moved to `target`, and aimed at `dest` if that is given. -/
def Qp.moveTo (qp : Qp) (target : QpState) (dest : Option Destination) : Qp :=
  { qp with state := target, dest := dest <|> qp.dest }

/-- `modify_qp`: a success moves the queue pair, anything else leaves it. -/
def modifyQp (target : QpState) (dest : Option Destination) : VerbsM RcConnection Bool := do
  let env ← get
  match ← call (.modifyQp env.obj.qp.id target dest) with
  | .success _ =>
      modify fun env => { env with obj.qp := env.obj.qp.moveTo target dest }
      return true
  | _ => return false

/-- `poll_cq` for one completion: an error, an empty queue, or the completion
at the front of the queue. -/
def pollCq : VerbsM RcConnection (Option (Option Completion)) := do
  let env ← get
  match ← call (.pollCq env.obj.cq.id) with
  | .success _ =>
      match env.obj.cq.completions with
      | [] => return some none
      | wc :: rest =>
          modify fun env => { env with obj.cq.completions := rest }
          return some (some wc)
  | _ => return none

/-! ### Creating a connection -/

def transitionQpToInit : VerbsM RcConnection Bool := modifyQp .INIT none

/-- A connection with its queue pair in INIT. When a step fails, what was
created is destroyed again, the queue pair before the completion queue. -/
def createRcConnection (cqSize maxSendWr maxRecvWr : Nat) : VerbsM σ (Option RcConnection) := do
  let cqId := (← get).log.length
  match ← call (.createCq cqSize) with
  | .success cqe =>
      let cq : Cq := ⟨cqId, cqe, []⟩
      let qpId := (← get).log.length
      match ← tryCatch (call (.createQp cq.id maxSendWr maxRecvWr))
          (fun e => do
            modify fun env => { env with log := env.log ++ [.destroyCq cq.id] }
            throw e) with
      | .success qpNum =>
          let conn : RcConnection := ⟨cq, ⟨qpId, BitVec.ofNat 32 qpNum, .RESET, none⟩⟩
          let (moved, conn) ← onLocal conn transitionQpToInit
          if moved then return some conn
          else
            destroyConnection conn
            return none
      | _ =>
          modify fun env => { env with log := env.log ++ [.destroyCq cq.id] }
          return none
  | _ => return none

/-! ### Connecting -/

/-- The address handle stores the GID index in 8 bits, so an index outside
them is refused. -/
def transitionQpToRtr (device : RdmaDevice) (destQpNum : BitVec 32) (destLid : BitVec 16)
    (destGid : Gid) : VerbsM RcConnection Bool :=
  if 0 ≤ device.gidIndex ∧ device.gidIndex ≤ 255 then
    modifyQp .RTR (some ⟨destQpNum, destGid, destLid⟩)
  else return false

def transitionQpToRts : VerbsM RcConnection Bool := modifyQp .RTS none

def connectRcPeer (device : RdmaDevice) (peerToken : RdmaToken) : VerbsM RcConnection Bool := do
  if peerToken.transport ≠ .RC then return false
  else if !(← transitionQpToRtr device peerToken.qpNum peerToken.lid peerToken.gid) then
    return false
  else transitionQpToRts

/-! ### Resetting -/

def transitionQpToReset : VerbsM RcConnection Bool := modifyQp .RESET none

/-- At most `left` more polls, ending early when the queue is empty. -/
def drainLoop : Nat → VerbsM RcConnection Bool
  | 0 => return true
  | left + 1 => do
      match ← pollCq with
      | none => return false
      | some none => return true
      | some (some _) => drainLoop left

/-- Polls the completion queue until it is empty, at most as often as it can
hold completions. -/
def drainCompletions : VerbsM RcConnection Bool := do
  let env ← get
  drainLoop env.obj.cq.cqe

def resetRcConnection : VerbsM RcConnection Bool := do
  if !(← transitionQpToReset) then return false
  else if !(← drainCompletions) then return false
  else transitionQpToInit

/-! ### Polling for a completion -/

/-- What one round of `pollCompletion` makes of a poll: nothing decided yet, or
its result. -/
def roundResult (expectedOpcode : Option Nat) : Option (Option Completion) → Option Bool
  | none => some false
  | some none => none
  | some (some wc) =>
      if !wc.success then some false
      else if expectedOpcode.all (· == wc.opcode) then some true
      else none

/-- `pollCompletion`, with the number of rounds that start before the deadline. -/
def pollCompletion (expectedOpcode : Option Nat) : Nat → VerbsM RcConnection Bool
  | 0 => return false
  | rounds + 1 => do
      match roundResult expectedOpcode (← pollCq) with
      | some result => return result
      | none => pollCompletion expectedOpcode rounds

/-! ### What each of them leaves behind -/

variable {env : Env σ}

theorem call_spec (c : VerbsCall) :
    Ensures (call c) env (fun _ t => t.obj = env.obj) (fun t => t.obj = env.obj) := by
  unfold Ensures call
  cases env.answers with
  | nil => rfl
  | cons a answers => cases a <;> rfl

theorem onLocal_spec {α : Type} {conn : RcConnection} {x : VerbsM RcConnection α}
    {Q : α → RcConnection → Prop}
    (h : ∀ answers log, Ensures x ⟨answers, log, conn⟩ (fun a t => Q a t.obj) (fun _ => True)) :
    Ensures (onLocal conn x) env (fun r t => t.obj = env.obj ∧ Q r.1 r.2)
      (fun t => t.obj = env.obj) := by
  have hx := h env.answers env.log
  unfold Ensures onLocal
  cases hrun : x ⟨env.answers, env.log, conn⟩ with
  | ok a t => exact ⟨rfl, hx.ok hrun⟩
  | error e t => rfl

theorem modifyQp_spec (target : QpState) (dest : Option Destination) (env : Env RcConnection) :
    Ensures (modifyQp target dest) env
      (fun moved t =>
        t.obj = if moved then ⟨env.obj.cq, env.obj.qp.moveTo target dest⟩ else env.obj)
      (fun t => t.obj = env.obj) := by
  unfold modifyQp
  refine Ensures.get_bind (Ensures.bind ((call_spec _).mono ?_ fun _ h => h))
  intro a t ht
  cases a with
  | success value =>
      refine Ensures.modify_bind ?_
      rw [Ensures.pure_iff]
      simp [ht]
  | failure => exact ht
  | throws => exact ht

theorem pollCq_spec (env : Env RcConnection) :
    Ensures pollCq env
      (fun polled t => t.obj.qp = env.obj.qp ∧ t.obj.cq.cqe = env.obj.cq.cqe ∧
        match polled with
        | some (some wc) => env.obj.cq.completions = wc :: t.obj.cq.completions
        | some none => env.obj.cq.completions = [] ∧ t.obj = env.obj
        | none => t.obj = env.obj)
      (fun t => t.obj = env.obj) := by
  unfold pollCq
  refine Ensures.get_bind (Ensures.bind ((call_spec _).mono ?_ fun _ h => h))
  intro a t ht
  cases a with
  | success value =>
      cases hqueue : env.obj.cq.completions with
      | nil =>
          rw [Ensures.pure_iff]
          simp [ht]
      | cons wc rest =>
          refine Ensures.modify_bind ?_
          rw [Ensures.pure_iff]
          simp [ht]
  | failure =>
      rw [Ensures.pure_iff]
      simp [ht]
  | throws =>
      rw [Ensures.pure_iff]
      simp [ht]

/-- A connection that is created is in INIT, with nothing completed yet. -/
theorem createRcConnection_spec (cqSize maxSendWr maxRecvWr : Nat) :
    Ensures (createRcConnection cqSize maxSendWr maxRecvWr) env
      (fun created t => t.obj = env.obj ∧
        ∀ conn, created = some conn → conn.qp.state = .INIT ∧ conn.cq.completions = [])
      (fun t => t.obj = env.obj) := by
  unfold createRcConnection
  refine Ensures.get_bind (Ensures.bind ((call_spec _).mono ?_ fun _ h => h))
  intro a t ht
  cases a with
  | success cqe =>
      refine Ensures.get_bind (Ensures.bind (Ensures.tryCatch ((call_spec _).mono ?_ ?_)))
      · intro b u hu
        have hu := hu.trans ht
        cases b with
        | success qpNum =>
            refine Ensures.bind ((onLocal_spec
              (Q := fun moved conn => moved = true → conn.qp.state = .INIT ∧
                conn.cq.completions = []) ?_).mono ?_ fun v hv => hv.trans hu)
            · intro answers log
              refine (modifyQp_spec .INIT none _).mono ?_ fun _ _ => trivial
              intro moved v hv hmoved
              rw [hv, hmoved]
              exact ⟨rfl, rfl⟩
            · rintro ⟨moved, conn⟩ v ⟨hv, hinit⟩
              have hv := hv.trans hu
              cases moved with
              | true =>
                  refine ⟨hv, ?_⟩
                  intro conn' hconn
                  cases hconn
                  exact hinit rfl
              | false => exact ⟨hv, nofun⟩
        | failure => exact ⟨hu, nofun⟩
        | throws => exact ⟨hu, nofun⟩
      · intro u hu e
        exact hu.trans ht
  | failure => exact ⟨ht, nofun⟩
  | throws => exact ⟨ht, nofun⟩

/-- Connecting moves the queue pair and leaves the completion queue alone. -/
theorem connectRcPeer_spec (device : RdmaDevice) (peerToken : RdmaToken)
    (env : Env RcConnection) :
    Ensures (connectRcPeer device peerToken) env (fun _ t => t.obj.cq = env.obj.cq)
      (fun t => t.obj.cq = env.obj.cq) := by
  have hmodify : ∀ (target : QpState) (dest : Option Destination) (s : Env RcConnection),
      Ensures (modifyQp target dest) s (fun _ t => t.obj.cq = s.obj.cq)
        (fun t => t.obj.cq = s.obj.cq) := by
    intro target dest s
    refine (modifyQp_spec target dest s).mono ?_ fun t ht => by rw [ht]
    intro moved t ht
    rw [ht]
    cases moved <;> rfl
  unfold connectRcPeer
  split
  · rfl
  · refine Ensures.bind (Ensures.mono (Q := fun _ t => t.obj.cq = env.obj.cq)
      (E := fun t => t.obj.cq = env.obj.cq) ?_ ?_ fun _ h => h)
    · unfold transitionQpToRtr
      split
      · exact hmodify _ _ env
      · rfl
    · intro moved t ht
      cases moved with
      | false => exact ht
      | true => exact (hmodify .RTS none t).mono (fun _ u hu => hu.trans ht) fun u hu => hu.trans ht

/-- Enough polls empty the queue. -/
theorem drainLoop_spec (left : Nat) (env : Env RcConnection) :
    Ensures (drainLoop left) env
      (fun drained t => drained = true → env.obj.cq.completions.length ≤ left →
        t.obj.cq.completions = [])
      (fun _ => True) := by
  induction left generalizing env with
  | zero =>
      intro _ hlen
      exact List.length_eq_zero_iff.mp (Nat.le_zero.mp hlen)
  | succ left ih =>
      refine Ensures.bind ((pollCq_spec env).mono ?_ fun _ _ => trivial)
      rintro (_ | _ | wc) t ⟨-, -, h⟩
      · exact nofun
      · intro _ _
        rw [h.2, h.1]
      · refine (ih t).mono ?_ fun _ h => h
        intro drained u hdrained hok hlen
        refine hdrained hok ?_
        rw [h] at hlen
        simpa using hlen

/-- A reset that succeeds leaves the queue pair in INIT, and the completion
queue empty if it held no more than its capacity. -/
theorem resetRcConnection_spec (env : Env RcConnection) :
    Ensures resetRcConnection env
      (fun reset t => reset = true → t.obj.qp.state = .INIT ∧
        (env.obj.cq.completions.length ≤ env.obj.cq.cqe → t.obj.cq.completions = []))
      (fun _ => True) := by
  unfold resetRcConnection
  refine Ensures.bind ((modifyQp_spec .RESET none env).mono ?_ fun _ _ => trivial)
  intro moved t ht
  cases moved with
  | false => exact nofun
  | true =>
      -- The first move leaves the completion queue as it was.
      have hcq : t.obj.cq = env.obj.cq := by rw [ht]; rfl
      refine Ensures.bind (Ensures.get_bind ((drainLoop_spec t.obj.cq.cqe t).mono ?_
        fun _ _ => trivial))
      intro drained u hu
      cases drained with
      | false => exact nofun
      | true =>
          refine (modifyQp_spec .INIT none u).mono ?_ fun _ _ => trivial
          intro ready v hv hready
          rw [hv, hready]
          refine ⟨rfl, fun hlen => ?_⟩
          rw [hcq] at hu
          exact hu rfl hlen

end HipObject
