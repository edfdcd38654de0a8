import HipObject.Rdma.ConnectionPool

/-!
# Resetting a connection, call by call

`resetRcConnection` returns true only if every verb that it called succeeded, and
then it made at most as many polls as the completion queue has room for. When it
returns false, or throws, `ConnectionPool::restore` destroys the old objects
before it makes new ones, and leaves either a new connection or nothing.
-/

namespace HipObject

open Verification

variable {σ τ υ : Type}

/-! ### Calls that succeed -/

/-- The code from `env` to `t` made these calls, and each of them succeeded. -/
def Succeeds (env : Env σ) (t : Env τ) (calls : List VerbsCall) : Prop :=
  t.log = env.log ++ calls ∧ ∃ values : List Nat, values.length = calls.length ∧
    env.answers = values.map Answer.success ++ t.answers

theorem Succeeds.refl (env : Env σ) : Succeeds env env [] :=
  ⟨(List.append_nil _).symm, [], rfl, rfl⟩

theorem Succeeds.trans {env : Env σ} {t : Env τ} {u : Env υ} {calls calls' : List VerbsCall}
    (h : Succeeds env t calls) (h' : Succeeds t u calls') : Succeeds env u (calls ++ calls') := by
  obtain ⟨hlog, values, hlen, hanswers⟩ := h
  obtain ⟨hlog', values', hlen', hanswers'⟩ := h'
  refine ⟨by rw [hlog', hlog, List.append_assoc], values ++ values', by simp [hlen, hlen'], ?_⟩
  rw [hanswers, hanswers', List.map_append, List.append_assoc]

/-- A call of the code from `env` to `t` was not answered with a success. -/
def SomeCallFails (env : Env σ) (t : Env τ) : Prop :=
  ∃ i < t.log.length - env.log.length, ∀ value, env.answers[i]? ≠ some (.success value)

theorem Succeeds.not_someCallFails {env : Env σ} {t : Env τ} {calls : List VerbsCall}
    (h : Succeeds env t calls) : ¬SomeCallFails env t := by
  obtain ⟨hlog, values, hlen, hanswers⟩ := h
  rintro ⟨i, hi, hfails⟩
  have hi : i < values.length := by
    rw [hlog, List.length_append] at hi
    omega
  apply hfails values[i]
  rw [hanswers, List.getElem?_append_left (by simpa using hi)]
  simp [hi]

/-- The polls among some calls. -/
def VerbsCall.isPoll : VerbsCall → Bool
  | .pollCq _ => true
  | _ => false

/-! ### What each verb asks -/

theorem call_succeeds (c : VerbsCall) (env : Env σ) :
    Ensures (call c) env
      (fun a t => t.log = env.log ++ [c] ∧ ∀ value, a = .success value → Succeeds env t [c])
      (fun t => t.log = env.log ++ [c]) := by
  unfold Ensures call
  cases hanswers : env.answers with
  | nil =>
      refine ⟨rfl, ?_⟩
      intro value h
      cases h
  | cons a answers =>
      cases a with
      | success v => exact ⟨rfl, fun value h => ⟨rfl, [v], rfl, hanswers⟩⟩
      | failure =>
          refine ⟨rfl, ?_⟩
          intro value h
          cases h
      | throws => rfl

/-- Code on a connection that keeps its two objects, and only adds to the log. -/
structure KeepsObjects (env t : Env RcConnection) : Prop where
  qp : t.obj.qp.id = env.obj.qp.id
  cq : t.obj.cq.id = env.obj.cq.id
  log : env.log <+: t.log

theorem KeepsObjects.refl (env : Env RcConnection) : KeepsObjects env env :=
  ⟨rfl, rfl, List.prefix_refl _⟩

theorem KeepsObjects.trans {env t u : Env RcConnection} (h : KeepsObjects env t)
    (h' : KeepsObjects t u) : KeepsObjects env u :=
  ⟨h'.qp.trans h.qp, h'.cq.trans h.cq, h.log.trans h'.log⟩

theorem call_keeps (c : VerbsCall) (env : Env RcConnection) :
    Ensures (call c) env
      (fun a t => KeepsObjects env t ∧ t.obj = env.obj ∧
        ∀ value, a = .success value → Succeeds env t [c])
      (fun t => KeepsObjects env t) := by
  refine ((call_succeeds c env).and (call_spec c)).mono ?_ ?_
  · rintro a t ⟨⟨hlog, hok⟩, hobj⟩
    exact ⟨⟨by rw [hobj], by rw [hobj], ⟨[c], hlog.symm⟩⟩, hobj, hok⟩
  · rintro t ⟨hlog, hobj⟩
    exact ⟨by rw [hobj], by rw [hobj], ⟨[c], hlog.symm⟩⟩

theorem modifyQp_succeeds (target : QpState) (dest : Option Destination)
    (env : Env RcConnection) :
    Ensures (modifyQp target dest) env
      (fun moved t => KeepsObjects env t ∧
        (moved = true → Succeeds env t [.modifyQp env.obj.qp.id target dest]))
      (fun t => KeepsObjects env t) := by
  unfold modifyQp
  refine Ensures.get_bind (Ensures.bind ((call_keeps _ env).mono ?_ fun _ h => h))
  rintro a t ⟨hkeeps, -, hok⟩
  cases a with
  | success value =>
      refine Ensures.modify_bind ?_
      exact ⟨⟨hkeeps.qp, hkeeps.cq, hkeeps.log⟩, fun _ => hok value rfl⟩
  | failure =>
      refine ⟨hkeeps, ?_⟩
      intro h
      cases h
  | throws =>
      refine ⟨hkeeps, ?_⟩
      intro h
      cases h

theorem pollCq_succeeds (env : Env RcConnection) :
    Ensures pollCq env
      (fun polled t => KeepsObjects env t ∧
        (polled.isSome = true → Succeeds env t [.pollCq env.obj.cq.id]))
      (fun t => KeepsObjects env t) := by
  unfold pollCq
  refine Ensures.get_bind (Ensures.bind ((call_keeps _ env).mono ?_ fun _ h => h))
  rintro a t ⟨hkeeps, -, hok⟩
  cases a with
  | success value =>
      cases env.obj.cq.completions with
      | nil => exact ⟨hkeeps, fun _ => hok value rfl⟩
      | cons wc rest =>
          refine Ensures.modify_bind ?_
          exact ⟨⟨hkeeps.qp, hkeeps.cq, hkeeps.log⟩, fun _ => hok value rfl⟩
  | failure =>
      refine ⟨hkeeps, ?_⟩
      intro h
      cases h
  | throws =>
      refine ⟨hkeeps, ?_⟩
      intro h
      cases h

/-! ### The reset -/

/-- A drain that succeeds made no more polls than it was allowed. -/
theorem drainLoop_succeeds (left : Nat) (env : Env RcConnection) :
    Ensures (drainLoop left) env
      (fun drained t => KeepsObjects env t ∧ (drained = true →
        ∃ k ≤ left, Succeeds env t (List.replicate k (.pollCq env.obj.cq.id))))
      (fun t => KeepsObjects env t) := by
  induction left generalizing env with
  | zero => exact ⟨.refl env, fun _ => ⟨0, Nat.le_refl 0, .refl env⟩⟩
  | succ left ih =>
      refine Ensures.bind ((pollCq_succeeds env).mono ?_ fun _ h => h)
      rintro (_ | _ | wc) t ⟨hkeeps, hok⟩
      · refine ⟨hkeeps, ?_⟩
        intro h
        cases h
      · exact ⟨hkeeps, fun _ => ⟨1, Nat.succ_le_succ (Nat.zero_le left), hok rfl⟩⟩
      · refine (ih t).mono ?_ fun u hu => hkeeps.trans hu
        rintro drained u ⟨hkeeps', hdrained⟩
        refine ⟨hkeeps.trans hkeeps', ?_⟩
        intro h
        obtain ⟨k, hk, hsucceeds⟩ := hdrained h
        refine ⟨k + 1, Nat.succ_le_succ hk, ?_⟩
        rw [hkeeps.cq] at hsucceeds
        exact (hok rfl).trans hsucceeds

/-- The calls of a reset that makes `k` polls. -/
def resetCalls (conn : RcConnection) (k : Nat) : List VerbsCall :=
  .modifyQp conn.qp.id .RESET none ::
    (List.replicate k (.pollCq conn.cq.id) ++ [.modifyQp conn.qp.id .INIT none])

theorem countP_resetCalls (conn : RcConnection) (k : Nat) :
    (resetCalls conn k).countP VerbsCall.isPoll = k := by
  simp [resetCalls, VerbsCall.isPoll, List.countP_replicate]

theorem resetRcConnection_succeeds (env : Env RcConnection) :
    Ensures resetRcConnection env
      (fun reset t => KeepsObjects env t ∧ (reset = true →
        ∃ k ≤ env.obj.cq.cqe, Succeeds env t (resetCalls env.obj k)))
      (fun t => KeepsObjects env t) := by
  have hnot : ∀ t, KeepsObjects env t → KeepsObjects env t ∧ (false = true →
      ∃ k ≤ env.obj.cq.cqe, Succeeds env t (resetCalls env.obj k)) := by
    intro t h
    refine ⟨h, ?_⟩
    intro hfalse
    cases hfalse
  unfold resetRcConnection
  refine Ensures.bind (((modifyQp_succeeds .RESET none env).and
    (modifyQp_spec .RESET none env)).mono ?_ fun _ h => h.1)
  rintro moved t ⟨⟨hkeeps, hreset⟩, hobj⟩
  cases moved with
  | false => exact hnot t hkeeps
  | true =>
      have hcqe : t.obj.cq.cqe = env.obj.cq.cqe := by rw [hobj]; rfl
      refine Ensures.bind (Ensures.get_bind ((drainLoop_succeeds t.obj.cq.cqe t).mono ?_
        fun _ hu => hkeeps.trans hu))
      rintro drained u ⟨hkeeps', hdrained⟩
      have hkeptTo := hkeeps.trans hkeeps'
      cases drained with
      | false => exact hnot u hkeptTo
      | true =>
          obtain ⟨k, hk, hpolls⟩ := hdrained rfl
          refine (modifyQp_succeeds .INIT none u).mono ?_ fun _ hv => hkeptTo.trans hv
          rintro ready v ⟨hkeeps'', hinit⟩
          refine ⟨hkeptTo.trans hkeeps'', ?_⟩
          intro hready
          refine ⟨k, hcqe ▸ hk, ?_⟩
          have hinit := hinit hready
          rw [hkeptTo.qp] at hinit
          rw [hkeeps.cq] at hpolls
          exact (hreset rfl).trans (hpolls.trans hinit)

/-! ### The replacement -/

/-- Code on a local variable, followed to where it leaves the variable. -/
theorem onLocal_run {α : Type} {conn : RcConnection} {x : VerbsM RcConnection α} {env : Env σ}
    {Q : α → Env RcConnection → Prop} {E : Env RcConnection → Prop}
    (h : Ensures x ⟨env.answers, env.log, conn⟩ Q E) :
    Ensures (onLocal conn x) env
      (fun r t => ∃ u, Q r.1 u ∧ r.2 = u.obj ∧ t.log = u.log ∧ t.answers = u.answers)
      (fun t => ∃ u, E u ∧ t.log = u.log ++ [.destroyQp u.obj.qp.id, .destroyCq u.obj.cq.id]) := by
  unfold Ensures onLocal
  cases hrun : x ⟨env.answers, env.log, conn⟩ with
  | ok a u => exact ⟨u, h.ok hrun, rfl, rfl, rfl⟩
  | error e u => exact ⟨u, h.error hrun, rfl⟩

/-- The calls that make a connection, from a log of this length. Its objects are
named by the positions of the calls that make them. -/
def createCalls (conn : RcConnection) (cqSize maxSendWr maxRecvWr : Nat) : List VerbsCall :=
  [.createCq cqSize, .createQp conn.cq.id maxSendWr maxRecvWr, .modifyQp conn.qp.id .INIT none]

/-- A connection is made by its own three calls, and whatever else happens only
adds to the log. -/
theorem createRcConnection_log (cqSize maxSendWr maxRecvWr : Nat) (env : Env σ) :
    Ensures (createRcConnection cqSize maxSendWr maxRecvWr) env
      (fun created t => env.log <+: t.log ∧ ∀ conn, created = some conn →
        conn.cq.id = env.log.length ∧ conn.qp.id = env.log.length + 1 ∧
        t.log = env.log ++ createCalls conn cqSize maxSendWr maxRecvWr)
      (fun t => env.log <+: t.log) := by
  have hnone : ∀ t : Env σ, env.log <+: t.log → env.log <+: t.log ∧
      ∀ conn, (none : Option RcConnection) = some conn → conn.cq.id = env.log.length ∧
        conn.qp.id = env.log.length + 1 ∧
        t.log = env.log ++ createCalls conn cqSize maxSendWr maxRecvWr := by
    intro t h
    refine ⟨h, ?_⟩
    intro conn hconn
    cases hconn
  unfold createRcConnection
  refine Ensures.get_bind (Ensures.bind ((call_succeeds _ env).mono ?_
    fun _ h => ⟨_, h.symm⟩))
  rintro a t ⟨ht, -⟩
  have hgrows : env.log <+: t.log := ⟨_, ht.symm⟩
  cases a with
  | success cqe =>
      refine Ensures.get_bind (Ensures.bind (Ensures.tryCatch ((call_succeeds _ t).mono ?_ ?_)))
      · rintro b u ⟨hu, -⟩
        have hgrows' : env.log <+: u.log := hgrows.trans ⟨_, hu.symm⟩
        cases b with
        | success qpNum =>
            refine Ensures.bind ((onLocal_run (modifyQp_succeeds .INIT none _)).mono ?_ ?_)
            · rintro ⟨moved, conn⟩ v ⟨w, ⟨hkeeps, hmoved⟩, rfl, hv, -⟩
              have hgrows'' : env.log <+: v.log := hv ▸ hgrows'.trans hkeeps.log
              cases moved with
              | false => exact hnone _ (hgrows''.trans (List.prefix_append _ _))
              | true =>
                  refine ⟨hgrows'', ?_⟩
                  intro conn hconn
                  cases hconn
                  refine ⟨hkeeps.cq, by simp [hkeeps.qp, ht], ?_⟩
                  rw [hv, (hmoved rfl).1, createCalls, hkeeps.cq, hkeeps.qp]
                  simp [hu, ht]
            · rintro v ⟨w, hkeeps, hv⟩
              rw [hv]
              exact (hgrows'.trans hkeeps.log).trans (List.prefix_append _ _)
        | failure => exact hnone _ (hgrows'.trans (List.prefix_append _ _))
        | throws => exact hnone _ (hgrows'.trans (List.prefix_append _ _))
      · intro u hu e
        exact (hgrows.trans ⟨_, hu.symm⟩).trans (List.prefix_append _ _)
  | failure => exact hnone t hgrows
  | throws => exact hnone t hgrows

namespace ConnectionPool

/-- What `conn.reset()` destroys. -/
def destroyCalls (conn : RcConnection) : List VerbsCall :=
  [.destroyQp conn.qp.id, .destroyCq conn.cq.id]

/-- The slot after a reset of `old` that ended with the log `log` and without
success: empty, or with a connection that was made after `old` was destroyed. -/
inductive Replaced (old : RcConnection) (log : List VerbsCall) (t : Env (Option RcConnection)) :
    Bool → Prop
  | fresh (conn : RcConnection) (slot : t.obj = some conn) (init : conn.qp.state = .INIT)
      (empty : conn.cq.completions = [])
      (made : t.log = log ++ destroyCalls old ++
        createCalls conn kCqSize kMaxSendWr kMaxRecvWr) : Replaced old log t true
  | dropped (slot : t.obj = none) (destroyed : log ++ destroyCalls old <+: t.log) :
      Replaced old log t false

/-- Making a new connection in a slot that was emptied of `old`. -/
theorem replace_spec {old : RcConnection} {log : List VerbsCall}
    {env : Env (Option RcConnection)} (hlog : env.log = log ++ destroyCalls old)
    (hslot : env.obj = none) :
    Ensures (do
      match ← createConnection with
      | some fresh =>
          modify fun env => { env with obj := some fresh }
          return true
      | none => return false : VerbsM (Option RcConnection) Bool) env
      (fun restored t => if restored = true then Replaced old log t true
        else t.obj = none ∧ log ++ destroyCalls old <+: t.log)
      (fun t => t.obj = none ∧ log ++ destroyCalls old <+: t.log) := by
  refine Ensures.bind (((createRcConnection_spec _ _ _).and
    (createRcConnection_log _ _ _ env)).mono ?_ ?_)
  · rintro (_ | fresh) t ⟨⟨hobj, hfresh⟩, hgrows, hmade⟩
    · exact ⟨hobj.trans hslot, hlog ▸ hgrows⟩
    · obtain ⟨hinit, hempty⟩ := hfresh fresh rfl
      obtain ⟨-, -, hcalls⟩ := hmade fresh rfl
      refine Ensures.modify_bind ?_
      exact .fresh fresh rfl hinit hempty (by rw [← hlog]; exact hcalls)
  · rintro t ⟨hobj, hgrows⟩
    exact ⟨hobj.trans hslot, hlog ▸ hgrows⟩

section Slot

variable {env : Env (Option RcConnection)} {old : RcConnection} {u : Env RcConnection}
variable {x : VerbsM RcConnection Bool} {a : Bool} {e : Thrown}

theorem onSlot_ok (hold : env.obj = some old) (hx : x ⟨env.answers, env.log, old⟩ = .ok a u) :
    onSlot x env = .ok a ⟨u.answers, u.log, some u.obj⟩ := by
  unfold onSlot
  simp only [hold, hx]

theorem onSlot_error (hold : env.obj = some old)
    (hx : x ⟨env.answers, env.log, old⟩ = .error e u) :
    onSlot x env = .error e ⟨u.answers, u.log, some u.obj⟩ := by
  unfold onSlot
  simp only [hold, hx]

/-- A slot whose connection was reset keeps it. -/
theorem restore_of_reset (hold : env.obj = some old)
    (hreset : resetRcConnection ⟨env.answers, env.log, old⟩ = .ok true u) :
    Ensures restore env (fun usable t => usable = true ∧ t = ⟨u.answers, u.log, some u.obj⟩)
      (fun _ => False) := by
  unfold restore
  refine Ensures.bind (Ensures.tryCatch (Ensures.bind_ok (onSlot_ok hold hreset) ?_))
  exact ⟨rfl, rfl⟩

/-- A slot whose connection could not be reset is given a new one or emptied. -/
theorem restore_of_not_reset (hold : env.obj = some old)
    (hreset : resetRcConnection ⟨env.answers, env.log, old⟩ = .ok false u) :
    Ensures restore env (fun usable t => Replaced old u.log t usable) (fun _ => False) := by
  have hkeeps := ((resetRcConnection_succeeds ⟨env.answers, env.log, old⟩).ok hreset).1
  have hlog : u.log ++ destroyCalls u.obj = u.log ++ destroyCalls old := by
    rw [destroyCalls, destroyCalls, hkeeps.qp, hkeeps.cq]
  unfold restore
  refine Ensures.bind (Ensures.tryCatch (Ensures.bind_ok (onSlot_ok hold hreset)
    (Ensures.modify_bind ((replace_spec hlog rfl).mono ?_ ?_))))
  · intro restored t ht
    cases restored with
    | true => exact ht
    | false => exact .dropped rfl (ht.2.trans (List.prefix_append _ _))
  · intro t ht _
    exact .dropped rfl (ht.2.trans (List.prefix_append _ _))

/-- A slot whose reset throws is emptied. -/
theorem restore_of_throw (hold : env.obj = some old)
    (hreset : resetRcConnection ⟨env.answers, env.log, old⟩ = .error e u) :
    Ensures restore env (fun usable t => usable = false ∧ Replaced old u.log t false)
      (fun _ => False) := by
  have hkeeps := (resetRcConnection_succeeds ⟨env.answers, env.log, old⟩).error hreset
  have hlog : u.log ++ destroyCalls u.obj = u.log ++ destroyCalls old := by
    rw [destroyCalls, destroyCalls, hkeeps.qp, hkeeps.cq]
  unfold restore
  refine Ensures.bind (Ensures.tryCatch (Ensures.bind_error (onSlot_error hold hreset) ?_))
  intro _
  exact ⟨rfl, .dropped rfl (hlog ▸ List.prefix_refl _)⟩

end Slot

/-- A reset that returns true leaves the queue pair in INIT and the queue empty,
after at most `cqe` polls, if no more than `cqe` completions were on it. If a
call fails it returns false. Then, and if it throws, `restore` returns, and the
slot holds a connection that was made after the old one was destroyed, in INIT
and with nothing completed, or it is empty. -/
theorem reset_empties_or_restore_replaces :
    (∀ env : Env RcConnection, env.obj.cq.completions.length ≤ env.obj.cq.cqe →
      ∀ t, resetRcConnection env = .ok true t →
        t.obj.qp.state = .INIT ∧ t.obj.cq.completions = [] ∧
        ∃ calls, t.log = env.log ++ calls ∧ calls.countP VerbsCall.isPoll ≤ env.obj.cq.cqe) ∧
    (∀ (env : Env RcConnection) (reset : Bool) (t : Env RcConnection),
      resetRcConnection env = .ok reset t → SomeCallFails env t → reset = false) ∧
    (∀ (env : Env (Option RcConnection)) (old : RcConnection), env.obj = some old →
      (∀ u, resetRcConnection ⟨env.answers, env.log, old⟩ = .ok true u →
        restore env = .ok true ⟨u.answers, u.log, some u.obj⟩) ∧
      (∀ u, resetRcConnection ⟨env.answers, env.log, old⟩ = .ok false u →
        ∃ usable t, restore env = .ok usable t ∧ Replaced old u.log t usable) ∧
      (∀ e u, resetRcConnection ⟨env.answers, env.log, old⟩ = .error e u →
        ∃ t, restore env = .ok false t ∧ Replaced old u.log t false)) := by
  refine ⟨?_, ?_, ?_⟩
  · intro env hroom t ht
    obtain ⟨hinit, hempty⟩ := (resetRcConnection_spec env).ok ht rfl
    obtain ⟨k, hk, hcalls, -⟩ := ((resetRcConnection_succeeds env).ok ht).2 rfl
    exact ⟨hinit, hempty hroom, _, hcalls, (countP_resetCalls env.obj k).trans_le hk⟩
  · intro env reset t ht hfails
    cases reset with
    | false => rfl
    | true =>
        obtain ⟨k, -, hcalls⟩ := ((resetRcConnection_succeeds env).ok ht).2 rfl
        exact absurd hfails hcalls.not_someCallFails
  · intro env old hold
    refine ⟨?_, fun u hu => (restore_of_not_reset hold hu).exists_ok, ?_⟩
    · intro u hu
      obtain ⟨usable, t, ht, rfl, rfl⟩ := (restore_of_reset hold hu).exists_ok
      exact ht
    · intro e u hu
      obtain ⟨usable, t, ht, rfl, hreplaced⟩ := (restore_of_throw hold hu).exists_ok
      exact ⟨t, ht, hreplaced⟩

/-- A connection whose queue is full: a success, and an error that moved the queue
pair to ERR. -/
def fullQueue : RcConnection where
  cq := ⟨0, 2, [⟨true, 0, 0⟩, ⟨false, 0, 0⟩]⟩
  qp := ⟨1, 7, .ERR, none⟩

/-- Two polls empty a full queue of two. When the second poll fails instead, the
reset fails, and a script that makes a connection has the slot filled again. -/
theorem fullQueue_empties :
    (∃ t, resetRcConnection ⟨List.replicate 4 (.success 0), [], fullQueue⟩ = .ok true t ∧
      t.obj.qp.state = .INIT ∧ t.obj.cq.completions = [] ∧
      ∃ calls, t.log = [] ++ calls ∧ calls.countP VerbsCall.isPoll ≤ 2) ∧
    (∃ u usable t, resetRcConnection ⟨[.success 0, .success 0, .failure, .success 16, .success 8,
        .success 0], [], fullQueue⟩ = .ok false u ∧
      restore ⟨[.success 0, .success 0, .failure, .success 16, .success 8, .success 0], [],
        some fullQueue⟩ = .ok usable t ∧ Replaced fullQueue u.log t usable) := by
  refine ⟨⟨_, rfl, reset_empties_or_restore_replaces.1 ⟨List.replicate 4 (.success 0), [],
    fullQueue⟩ (by decide) _ rfl⟩, ?_⟩
  have hrestore := (reset_empties_or_restore_replaces.2.2 ⟨[.success 0, .success 0, .failure,
    .success 16, .success 8, .success 0], [], some fullQueue⟩ fullQueue rfl).2.1 _ rfl
  obtain ⟨usable, t, ht, hreplaced⟩ := hrestore
  exact ⟨_, usable, t, rfl, ht, hreplaced⟩

end ConnectionPool
end HipObject
