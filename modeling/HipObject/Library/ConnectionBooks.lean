import HipObject.Topology.Holdings

/-!
# What making and destroying connections holds

The calls on connections are logged without their answers. `Takes` reads a
stretch of that log together with the script of answers, and says how it changes
what is held; `onVerbs_spec` carries that over to sessions. A connection that is
made holds its queue pair and its completion queue, a step that fails gives back
what it made, and a list of connections that is destroyed gives back all of
theirs.
-/

namespace HipObject

open Verification

/-- The answers that are left after the calls in a log. -/
def answersAfter : List Answer → List VerbsCall → List Answer
  | answers, [] => answers
  | answers, c :: log => answersAfter (if c.asks then answers.tail else answers) log

section Log

variable (d : Handles)

theorem answersAfter_append (answers : List Answer) (log log' : List VerbsCall) :
    answersAfter answers (log ++ log') = answersAfter (answersAfter answers log) log' := by
  induction log generalizing answers with
  | nil => rfl
  | cons c log ih => exact ih _

theorem verbsEvents_append (past : List VerbsCall) (answers : List Answer)
    (log log' : List VerbsCall) :
    verbsEvents d past answers (log ++ log') = verbsEvents d past answers log ++
      verbsEvents d (past ++ log) (answersAfter answers log) log' := by
  induction log generalizing past answers with
  | nil => simp [verbsEvents, answersAfter]
  | cons c log ih =>
      rw [List.cons_append, verbsEvents, ih, verbsEvents, answersAfter, List.append_assoc,
        List.cons_append, List.append_assoc]
      simp

/-- One call acquires at most one object, whose number is its own. -/
theorem acquired_of_mem_verbsEvent {past : List VerbsCall} {answer : Option Answer}
    {c : VerbsCall} {r : Resource} (h : .acquired r ∈ verbsEvent d past answer c) :
    verbsEvent d past answer c = [.acquired r] ∧
      (r = .cq past.length d ∨ ∃ cq, r = .qp past.length cq d) := by
  cases c with
  | createCq size =>
      rcases answer with _ | v | _ | _
      · simp [verbsEvent] at h
      · simp only [verbsEvent, List.mem_singleton, Event.acquired.injEq] at h
        subst h
        exact ⟨rfl, .inl rfl⟩
      · simp [verbsEvent] at h
      · simp [verbsEvent] at h
  | createQp cq send recv =>
      rcases answer with _ | v | _ | _
      · simp [verbsEvent] at h
      · simp only [verbsEvent, List.mem_singleton, Event.acquired.injEq] at h
        subst h
        exact ⟨rfl, .inr ⟨cq, rfl⟩⟩
      · simp [verbsEvent] at h
      · simp [verbsEvent] at h
  | modifyQp qp target dest => simp [verbsEvent] at h
  | pollCq cq => simp [verbsEvent] at h
  | postSend qp wr => simp [verbsEvent] at h
  | destroyQp qp => simp [verbsEvent] at h
  | destroyCq cq => simp [verbsEvent] at h

/-- A resource with a number from a stretch of the log. -/
def NumberedIn (low high : Nat) : Resource → Prop
  | .cq id _ => low ≤ id ∧ id < high
  | .qp id _ _ => low ≤ id ∧ id < high
  | _ => False

theorem acquired_of_mem_verbsEvents {past : List VerbsCall} {answers : List Answer}
    {log : List VerbsCall} {r : Resource} (h : .acquired r ∈ verbsEvents d past answers log) :
    NumberedIn past.length (past.length + log.length) r := by
  induction log generalizing past answers with
  | nil => simp [verbsEvents] at h
  | cons c log ih =>
      simp only [verbsEvents, List.cons_append, List.mem_cons, reduceCtorEq, List.mem_append,
        false_or] at h
      rcases h with h | h
      · rcases (acquired_of_mem_verbsEvent d h).2 with rfl | ⟨cq, rfl⟩
        · exact ⟨Nat.le_refl _, by simp⟩
        · exact ⟨Nat.le_refl _, by simp⟩
      · have hlater := ih h
        simp only [List.length_append, List.length_cons, List.length_nil] at hlater
        cases r with
        | cq id d => exact ⟨by have := hlater.1; omega, by have := hlater.2; simp; omega⟩
        | qp id cq d => exact ⟨by have := hlater.1; omega, by have := hlater.2; simp; omega⟩
        | deviceList id => exact hlater
        | context id => exact hlater
        | pd id context => exact hlater

theorem count_acquired_verbsEvents (past : List VerbsCall) (answers : List Answer)
    (log : List VerbsCall) (r : Resource) :
    (verbsEvents d past answers log).count (.acquired r) ≤ 1 := by
  induction log generalizing past answers with
  | nil => simp [verbsEvents]
  | cons c log ih =>
      simp only [verbsEvents, List.cons_append, List.count_cons, List.count_append, beq_iff_eq,
        reduceCtorEq, if_false, Nat.add_zero]
      by_cases h : .acquired r ∈ verbsEvent d past answers.head? c
      · -- a later call cannot get the same number
        obtain ⟨hevent, hnumber⟩ := acquired_of_mem_verbsEvent d h
        have hlater : (verbsEvents d (past ++ [c])
            (if c.asks then answers.tail else answers) log).count (.acquired r) = 0 := by
          apply List.count_eq_zero.mpr
          intro hmem
          have hnumbered := acquired_of_mem_verbsEvents d hmem
          rw [List.length_append, List.length_singleton] at hnumbered
          rcases hnumber with rfl | ⟨cq, rfl⟩
          · exact absurd hnumbered.1 (by omega)
          · exact absurd hnumbered.1 (by omega)
        rw [hlater, hevent]
        simp
      · rw [List.count_eq_zero.mpr h, Nat.zero_add]
        exact ih _ _

end Log

/-! ### Stretches of the log -/

/-- The calls between two environments take what is held from `H` to `H'`. -/
def Takes {σ τ : Type} (d : Handles) (env : Env σ) (t : Env τ) (H H' : List Resource) : Prop :=
  ∃ log, t.log = env.log ++ log ∧ t.answers = answersAfter env.answers log ∧
    Orderly DependsOn H (verbsEvents d env.log env.answers log) H'

section Takes

variable {σ τ υ : Type} {d : Handles} {env : Env σ} {t : Env τ} {u : Env υ}
variable {H H' H'' : List Resource}

theorem Takes.refl {t : Env τ} (hlog : t.log = env.log) (hanswers : t.answers = env.answers) :
    Takes d env t H H := ⟨[], by simp [hlog], by simp [hanswers, answersAfter], .refl H⟩

theorem Takes.trans (h : Takes d env t H H') (h' : Takes d t u H' H'') :
    Takes d env u H H'' := by
  obtain ⟨log, hlog, hanswers, horderly⟩ := h
  obtain ⟨log', hlog', hanswers', horderly'⟩ := h'
  refine ⟨log ++ log', ?_, ?_, ?_⟩
  · rw [hlog', hlog, List.append_assoc]
  · rw [hanswers', hanswers, answersAfter_append]
  · rw [verbsEvents_append, ← hlog, ← hanswers]
    exact horderly.append horderly'

theorem Takes.perm_right (h : Takes d env t H H') (hperm : H'.Perm H'') :
    Takes d env t H H'' := by
  obtain ⟨log, hlog, hanswers, horderly⟩ := h
  exact ⟨log, hlog, hanswers, horderly.perm_right hperm⟩

theorem Takes.length_le (h : Takes d env t H H') : env.log.length ≤ t.log.length := by
  obtain ⟨log, hlog, -, -⟩ := h
  rw [hlog, List.length_append]
  exact Nat.le_add_right _ _

/-- One more call. -/
theorem Takes.one (c : VerbsCall) (hlog : t.log = env.log ++ [c])
    (hanswers : t.answers = if c.asks then env.answers.tail else env.answers)
    (hevent : Orderly DependsOn H (verbsEvent d env.log env.answers.head? c) H') :
    Takes d env t H H' := by
  refine ⟨[c], hlog, hanswers, ?_⟩
  rw [verbsEvents, verbsEvents, List.append_nil]
  exact .call _ hevent

end Takes

/-- A call that asks for an answer. -/
theorem call_log {σ : Type} (c : VerbsCall) (env : Env σ) :
    Ensures (call c) env
      (fun a t => t.log = env.log ++ [c] ∧ t.answers = env.answers.tail ∧
        (a = .failure → ∀ v, env.answers.head? ≠ some (.success v)) ∧
        (∀ v, a = .success v → env.answers.head? = some (.success v)) ∧ a ≠ .throws)
      (fun t => t.log = env.log ++ [c] ∧ t.answers = env.answers.tail ∧
        env.answers.head? = some .throws) := by
  unfold Ensures call
  cases hanswers : env.answers with
  | nil => exact ⟨rfl, rfl, by simp, by simp, by simp⟩
  | cons a answers =>
      cases a with
      | success v => exact ⟨rfl, rfl, by simp, by simp, by simp⟩
      | failure => exact ⟨rfl, rfl, by simp, by simp, by simp⟩
      | throws => exact ⟨rfl, rfl, rfl⟩

/-! ### Connections -/

/-- What a connection holds. -/
def RcConnection.resources (d : Handles) (conn : RcConnection) : List Resource :=
  [.qp conn.qp.id conn.cq.id d, .cq conn.cq.id d]

/-- The log has the creation of a connection. -/
structure RcConnection.MadeIn (conn : RcConnection) (log : List VerbsCall) : Prop where
  qp : ∃ send recv, log[conn.qp.id]? = some (.createQp conn.cq.id send recv)
  cq : conn.cq.id < log.length

theorem RcConnection.MadeIn.mono {conn : RcConnection} {log log' : List VerbsCall}
    (h : conn.MadeIn log) (hlog : log <+: log') : conn.MadeIn log' where
  qp := by
    obtain ⟨send, recv, hqp⟩ := h.qp
    obtain ⟨rest, rfl⟩ := hlog
    obtain ⟨hlt, -⟩ := List.getElem?_eq_some_iff.mp hqp
    exact ⟨send, recv, by rwa [List.getElem?_append_left hlt]⟩
  cq := Nat.lt_of_lt_of_le h.cq hlog.length_le

theorem RcConnection.MadeIn.cqOf_eq {conn : RcConnection} {log : List VerbsCall}
    (h : conn.MadeIn log) : cqOf log conn.qp.id = conn.cq.id := by
  obtain ⟨send, recv, hqp⟩ := h.qp
  simp [cqOf, hqp]

/-- The device is held, and nothing rests on completion queues from number `n`
on. -/
structure Room (d : Handles) (n : Nat) (H : List Resource) : Prop where
  context : .context d.context ∈ H
  pd : .pd d.pd d.context ∈ H
  free : ∀ m, n ≤ m → ∀ r ∈ H, ¬DependsOn r (.cq m d)

section Connections

variable {σ τ : Type} {d : Handles} {H : List Resource}

/-- Destroying a connection gives back both of its objects. -/
theorem Takes.destroy {env : Env σ} {t : Env τ} {conn : RcConnection} (hmade : conn.MadeIn env.log)
    (hfree : ∀ r ∈ H, ¬DependsOn r (.cq conn.cq.id d))
    (hlog : t.log = env.log ++ [.destroyQp conn.qp.id, .destroyCq conn.cq.id])
    (hanswers : t.answers = env.answers) : Takes d env t (conn.resources d ++ H) H := by
  refine ⟨_, hlog, hanswers, ?_⟩
  simp only [verbsEvents, verbsEvent, hmade.cqOf_eq, List.append_nil]
  refine .call _ (.release _ (.refl _) ?_ (.call _ (.release _ (.refl _) hfree (.refl H))))
  intro q _ hq
  cases hq

/-- A completion queue is made on the device. -/
theorem Takes.createCq {env : Env σ} {t : Env τ} {size v : Nat} (hroom : Room d env.log.length H)
    (hlog : t.log = env.log ++ [.createCq size]) (hanswers : t.answers = env.answers.tail)
    (hsuccess : env.answers.head? = some (.success v)) :
    Takes d env t H (.cq env.log.length d :: H) := by
  refine Takes.one _ hlog hanswers ?_
  rw [hsuccess]
  refine .acquire _ ?_ (.refl _)
  intro p hp
  cases hp with
  | cqPd _ _ => exact hroom.pd
  | cqContext _ _ => exact hroom.context

/-- A queue pair is made on its completion queue and the device. -/
theorem Takes.createQp {env : Env σ} {t : Env τ} {cq send recv v : Nat}
    (hcontext : .context d.context ∈ H) (hpd : .pd d.pd d.context ∈ H) (hcq : .cq cq d ∈ H)
    (hlog : t.log = env.log ++ [.createQp cq send recv]) (hanswers : t.answers = env.answers.tail)
    (hsuccess : env.answers.head? = some (.success v)) :
    Takes d env t H (.qp env.log.length cq d :: H) := by
  refine Takes.one _ hlog hanswers ?_
  rw [hsuccess]
  refine .acquire _ ?_ (.refl _)
  intro p hp
  cases hp with
  | qpCq _ _ _ => exact hcq
  | qpPd _ _ _ => exact hpd
  | qpContext _ _ _ => exact hcontext

/-- A call that makes nothing. -/
theorem Takes.nothing {env : Env σ} {t : Env τ} {c : VerbsCall} (hasks : c.asks = true)
    (hlog : t.log = env.log ++ [c]) (hanswers : t.answers = env.answers.tail)
    (hnone : (∀ v, env.answers.head? ≠ some (.success v)) ∨ ∃ qp target dest,
      c = .modifyQp qp target dest) : Takes d env t H H := by
  refine Takes.one c hlog ?_ ?_
  · rw [hanswers, if_pos hasks]
  · have hevent : verbsEvent d env.log env.answers.head? c = [] := by
      rcases hnone with hnone | ⟨qp, target, dest, rfl⟩
      · cases c with
        | createCq size =>
            cases hhead : env.answers.head? with
            | none => rfl
            | some a =>
                cases a with
                | success v => exact absurd hhead (hnone v)
                | failure => rfl
                | throws => rfl
        | createQp cq send recv =>
            cases hhead : env.answers.head? with
            | none => rfl
            | some a =>
                cases a with
                | success v => exact absurd hhead (hnone v)
                | failure => rfl
                | throws => rfl
        | modifyQp qp target dest => rfl
        | pollCq cq => rfl
        | postSend qp wr => rfl
        | destroyQp qp => cases hasks
        | destroyCq cq => cases hasks
      · rfl
    rw [hevent]
    exact .refl H

/-- A completion queue that is destroyed before a queue pair is made on it. -/
theorem Takes.destroyCq {env : Env σ} {t : Env τ} {cq : Nat}
    (hfree : ∀ r ∈ H, ¬DependsOn r (.cq cq d)) (hlog : t.log = env.log ++ [.destroyCq cq])
    (hanswers : t.answers = env.answers) : Takes d env t (.cq cq d :: H) H :=
  Takes.one _ hlog hanswers (.release _ (.refl _) hfree (.refl H))

/-- Moving the queue pair of a local connection makes nothing, and an exception
destroys the connection. -/
theorem onLocal_takes {env : Env σ} {conn : RcConnection} (hmade : conn.MadeIn env.log)
    (hfree : ∀ r ∈ H, ¬DependsOn r (.cq conn.cq.id d)) :
    Ensures (onLocal conn transitionQpToInit) env
      (fun r t => Takes d env t (conn.resources d ++ H) (conn.resources d ++ H) ∧
        r.2.qp.id = conn.qp.id ∧ r.2.cq.id = conn.cq.id ∧ env.log <+: t.log)
      (fun t => Takes d env t (conn.resources d ++ H) H) := by
  have hmodify : Ensures transitionQpToInit (⟨env.answers, env.log, conn⟩ : Env RcConnection)
      (fun _ t => Takes d env t (conn.resources d ++ H) (conn.resources d ++ H) ∧
        t.obj.qp.id = conn.qp.id ∧ t.obj.cq.id = conn.cq.id ∧ env.log <+: t.log)
      (fun t => Takes d env t (conn.resources d ++ H) (conn.resources d ++ H) ∧
        t.obj = conn ∧ env.log <+: t.log) := by
    have hnothing : ∀ t : Env RcConnection,
        t.log = env.log ++ [.modifyQp conn.qp.id .INIT none] → t.answers = env.answers.tail →
        Takes d env t (conn.resources d ++ H) (conn.resources d ++ H) ∧ env.log <+: t.log := by
      intro t hlog hanswers
      refine ⟨Takes.nothing rfl hlog hanswers (.inr ⟨_, _, _, rfl⟩), ?_⟩
      rw [hlog]
      exact List.prefix_append _ _
    have hobj : Ensures (call (.modifyQp conn.qp.id .INIT none))
        (⟨env.answers, env.log, conn⟩ : Env RcConnection) (fun _ t => t.obj = conn)
        (fun t => t.obj = conn) := call_spec _
    unfold transitionQpToInit modifyQp
    refine Ensures.get_bind (Ensures.bind (((call_log _ _).and hobj).mono ?_ ?_))
    · rintro a t ⟨⟨hlog, hanswers, -⟩, hobj⟩
      obtain ⟨htakes, hprefix⟩ := hnothing t hlog hanswers
      cases a with
      | success v =>
          refine Ensures.modify_bind ?_
          rw [Ensures.pure_iff]
          refine ⟨htakes, ?_, ?_, hprefix⟩
          · simp [hobj, Qp.moveTo]
          · simp [hobj]
      | failure => exact ⟨htakes, by rw [hobj], by rw [hobj], hprefix⟩
      | throws => exact ⟨htakes, by rw [hobj], by rw [hobj], hprefix⟩
    · rintro t ⟨⟨hlog, hanswers, -⟩, hobj⟩
      obtain ⟨htakes, hprefix⟩ := hnothing t hlog hanswers
      exact ⟨htakes, hobj, hprefix⟩
  unfold Ensures onLocal
  cases hrun : transitionQpToInit (⟨env.answers, env.log, conn⟩ : Env RcConnection) with
  | ok moved t =>
      obtain ⟨htakes, hqp, hcq, hprefix⟩ := hmodify.ok hrun
      exact ⟨htakes, hqp, hcq, hprefix⟩
  | error e t =>
      obtain ⟨htakes, hobj, hprefix⟩ := hmodify.error hrun
      exact htakes.trans (Takes.destroy (hmade.mono hprefix) hfree (by rw [hobj]) rfl)

/-- A new connection holds its two objects, and a failure holds nothing. -/
theorem createRcConnection_takes (env : Env σ) (cqSize maxSendWr maxRecvWr : Nat)
    (hroom : Room d env.log.length H) :
    Ensures (createRcConnection cqSize maxSendWr maxRecvWr) env
      (fun created t =>
        (created = none → Takes d env t H H) ∧
        ∀ conn, created = some conn → Takes d env t H (conn.resources d ++ H) ∧
          conn.MadeIn t.log ∧ env.log.length ≤ conn.cq.id)
      (fun t => Takes d env t H H) := by
  have hfree : ∀ r ∈ H, ¬DependsOn r (.cq env.log.length d) := hroom.free _ (Nat.le_refl _)
  unfold createRcConnection
  refine Ensures.get_bind (Ensures.bind ((call_log _ env).mono ?_ ?_))
  · rintro a t ⟨hlog, hanswers, hfailed, hsuccess, hcalm⟩
    cases a with
    | throws => exact absurd rfl hcalm
    | failure => exact ⟨fun _ => Takes.nothing rfl hlog hanswers (.inl (hfailed rfl)), by simp⟩
    | success cqe =>
        have hcq := Takes.createCq hroom hlog hanswers (hsuccess cqe rfl)
        -- whatever comes next, a failure destroys the completion queue
        have hundo : ∀ u v : Env σ, Takes d t u (.cq env.log.length d :: H)
            (.cq env.log.length d :: H) → v.log = u.log ++ [.destroyCq env.log.length] →
            v.answers = u.answers → Takes d env v H H := by
          intro u v hu hvlog hvanswers
          exact (hcq.trans hu).trans (Takes.destroyCq hfree hvlog hvanswers)
        refine Ensures.get_bind (Ensures.bind (Ensures.tryCatch ((call_log _ t).mono ?_ ?_)))
        · rintro b u ⟨hulog, huanswers, hufailed, husuccess, hucalm⟩
          cases b with
          | throws => exact absurd rfl hucalm
          | failure =>
              refine Ensures.modify_bind ⟨fun _ => ?_, by simp⟩
              exact hundo u _ (Takes.nothing rfl hulog huanswers (.inl (hufailed rfl))) rfl rfl
          | success qpNum =>
              have hqp := hcq.trans (Takes.createQp (List.mem_cons_of_mem _ hroom.context)
                (List.mem_cons_of_mem _ hroom.pd) List.mem_cons_self hulog huanswers
                (husuccess qpNum rfl))
              set conn : RcConnection := ⟨⟨env.log.length, cqe, []⟩,
                ⟨t.log.length, BitVec.ofNat 32 qpNum, .RESET, none⟩⟩ with hconn
              have hmade : conn.MadeIn u.log := by
                refine ⟨⟨maxSendWr, maxRecvWr, ?_⟩, ?_⟩
                · rw [hulog]
                  simp [hconn]
                · rw [hulog, hlog]
                  simp only [hconn, List.length_append, List.length_singleton]
                  omega
              refine Ensures.bind ((onLocal_takes hmade hfree).mono ?_ ?_)
              · rintro ⟨moved, made⟩ v ⟨htakes, hqpId, hcqId, hprefix⟩
                have hqpId : made.qp.id = conn.qp.id := hqpId
                have hcqId : made.cq.id = conn.cq.id := hcqId
                have hresources : made.resources d = conn.resources d := by
                  simp only [RcConnection.resources, hqpId, hcqId]
                have hmade' : made.MadeIn v.log := by
                  have hgrown := hmade.mono hprefix
                  exact ⟨by rw [hqpId, hcqId]; exact hgrown.qp, by rw [hcqId]; exact hgrown.cq⟩
                have hdone := hqp.trans htakes
                cases moved with
                | true =>
                    refine ⟨by simp, ?_⟩
                    intro conn' hconn'
                    cases hconn'
                    refine ⟨by rw [hresources]; exact hdone, hmade', ?_⟩
                    rw [hcqId]
                | false =>
                    refine Ensures.modify_bind ⟨fun _ => ?_, by simp⟩
                    rw [← hresources] at hdone
                    exact hdone.trans (Takes.destroy hmade' (by rw [hcqId]; exact hfree) rfl rfl)
              · intro v hv
                exact hqp.trans hv
        · rintro u ⟨hulog, huanswers, huthrows⟩ e
          refine Ensures.modify_bind ?_
          exact hundo u _ (Takes.nothing rfl hulog huanswers (.inl (by simp [huthrows]))) rfl rfl
  · rintro t ⟨hlog, hanswers, hthrows⟩
    exact Takes.nothing rfl hlog hanswers (.inl (by simp [hthrows]))

/-- Connections that were made after call number `n`, each on a completion queue
of its own. -/
structure Stock (n : Nat) (log : List VerbsCall) (conns : List RcConnection) : Prop where
  made : ∀ conn ∈ conns, conn.MadeIn log
  distinct : (conns.map (·.cq.id)).Nodup
  later : ∀ conn ∈ conns, n ≤ conn.cq.id

/-- What a list of connections holds. -/
def stockResources (d : Handles) (conns : List RcConnection) : List Resource :=
  conns.flatMap (·.resources d)

theorem Stock.mono {n : Nat} {log log' : List VerbsCall} {conns : List RcConnection}
    (h : Stock n log conns) (hlog : log <+: log') : Stock n log' conns where
  made := fun conn hconn => (h.made conn hconn).mono hlog
  distinct := h.distinct
  later := h.later

/-- A queue pair of a list of connections is on a completion queue of theirs. -/
theorem not_dependsOn_stockResources {conns : List RcConnection} {cq : Nat}
    (h : ∀ conn ∈ conns, conn.cq.id ≠ cq) :
    ∀ r ∈ stockResources d conns, ¬DependsOn r (.cq cq d) := by
  intro r hr hon
  obtain ⟨conn, hconn, hr⟩ := List.mem_flatMap.mp hr
  simp only [RcConnection.resources, List.mem_cons, List.not_mem_nil, or_false] at hr
  rcases hr with rfl | rfl
  · cases hon with
    | qpCq _ _ _ => exact h conn hconn rfl
  · cases hon

/-- There is room for more connections after those that were made. -/
theorem Room.stock {n : Nat} {log : List VerbsCall} {conns : List RcConnection}
    (hroom : Room d n H) (hstock : Stock n log conns) (hlog : n ≤ log.length) :
    Room d log.length (stockResources d conns ++ H) where
  context := List.mem_append_right _ hroom.context
  pd := List.mem_append_right _ hroom.pd
  free := by
    intro m hm r hr
    rcases List.mem_append.mp hr with hr | hr
    · apply not_dependsOn_stockResources ?_ r hr
      intro conn hconn
      have := (hstock.made conn hconn).cq
      omega
    · exact hroom.free m (Nat.le_trans hlog hm) r hr

theorem destroyConnections_takes {n : Nat} (conns : List RcConnection) (env : Env σ)
    (hstock : Stock n env.log conns)
    (hfree : ∀ conn ∈ conns, ∀ r ∈ H, ¬DependsOn r (.cq conn.cq.id d)) :
    Ensures (conns.forM destroyConnection) env
      (fun _ t => Takes d env t (stockResources d conns ++ H) H) (fun _ => False) := by
  induction conns generalizing env with
  | nil => exact Takes.refl rfl rfl
  | cons conn conns ih =>
      obtain ⟨hnot, hdistinct⟩ := List.nodup_cons.mp hstock.distinct
      have hrest : ∀ r ∈ stockResources d conns ++ H, ¬DependsOn r (.cq conn.cq.id d) := by
        intro r hr
        rcases List.mem_append.mp hr with hr | hr
        · apply not_dependsOn_stockResources ?_ r hr
          intro other hother heq
          exact hnot (List.mem_map.mpr ⟨other, hother, heq⟩)
        · exact hfree conn List.mem_cons_self r hr
      change Ensures (destroyConnection conn >>= fun _ => conns.forM destroyConnection) env _ _
      refine Ensures.modify_bind ?_
      set t : Env σ := { env with
        log := env.log ++ [.destroyQp conn.qp.id, .destroyCq conn.cq.id] } with ht
      have hfirst : Takes d env t (stockResources d (conn :: conns) ++ H)
          (stockResources d conns ++ H) := by
        have hdestroy := Takes.destroy (t := t) (hstock.made conn List.mem_cons_self) hrest rfl rfl
        rwa [← List.append_assoc] at hdestroy
      refine (ih t ?_ fun other hother => hfree other (List.mem_cons_of_mem _ hother)).mono ?_
        fun _ h => h
      · have hothers : Stock n env.log conns := by
          refine ⟨?_, hdistinct, ?_⟩
          · exact fun other hother => hstock.made other (List.mem_cons_of_mem _ hother)
          · exact fun other hother => hstock.later other (List.mem_cons_of_mem _ hother)
        exact hothers.mono (List.prefix_append _ _)
      · intro _ u hu
        exact hfirst.trans hu

/-- The constructor's loop holds what its connections hold, and an exception
gives all of it back. -/
theorem createConnections_takes {n : Nat} (count : Nat) (conns : List RcConnection)
    (env : Env Unit) (hroom : Room d n H) (hstock : Stock n env.log conns)
    (hlog : n ≤ env.log.length) :
    Ensures (ConnectionPool.createConnections count conns) env
      (fun made t => Takes d env t (stockResources d conns ++ H) (stockResources d made ++ H) ∧
        Stock n t.log made)
      (fun t => Takes d env t (stockResources d conns ++ H) H) := by
  induction count generalizing conns env with
  | zero => exact ⟨Takes.refl rfl rfl, hstock⟩
  | succ count ih =>
      refine Ensures.bind (Ensures.tryCatch
        ((createRcConnection_takes env _ _ _ (hroom.stock hstock hlog)).mono ?_ ?_))
      · rintro (_ | fresh) t ⟨hnone, hsome⟩
        · have htakes := hnone rfl
          obtain ⟨log, hgrown, -, -⟩ := htakes
          refine ⟨hnone rfl, hstock.mono ⟨log, hgrown.symm⟩⟩
        · obtain ⟨htakes, hmade, hlater⟩ := hsome fresh rfl
          have hprefix : env.log <+: t.log := by
            obtain ⟨log, hgrown, -, -⟩ := htakes
            exact ⟨log, hgrown.symm⟩
          have hstock' : Stock n t.log (conns ++ [fresh]) := by
            refine ⟨?_, ?_, ?_⟩
            · intro conn hconn
              rcases List.mem_append.mp hconn with hconn | hconn
              · exact (hstock.made conn hconn).mono hprefix
              · rw [List.mem_singleton.mp hconn]
                exact hmade
            · rw [List.map_append, List.map_singleton]
              refine List.nodup_append.mpr ⟨hstock.distinct, by simp, ?_⟩
              intro id hid id' hid'
              obtain ⟨conn, hconn, rfl⟩ := List.mem_map.mp hid
              have hbefore := (hstock.made conn hconn).cq
              rw [List.mem_singleton] at hid'
              omega
            · intro conn hconn
              rcases List.mem_append.mp hconn with hconn | hconn
              · exact hstock.later conn hconn
              · rw [List.mem_singleton.mp hconn]
                omega
          have hperm : (fresh.resources d ++ (stockResources d conns ++ H)).Perm
              (stockResources d (conns ++ [fresh]) ++ H) := by
            have hlist : stockResources d (conns ++ [fresh]) =
                stockResources d conns ++ fresh.resources d := by
              simp [stockResources]
            rw [hlist, ← List.append_assoc]
            exact List.perm_append_comm.append_right H
          have htakes := htakes.perm_right hperm
          refine (ih (conns ++ [fresh]) t hstock' (Nat.le_trans hlog htakes.length_le)).mono ?_ ?_
          · rintro made u ⟨hu, hmade'⟩
            exact ⟨htakes.trans hu, hmade'⟩
          · intro u hu
            exact htakes.trans hu
      · intro t htakes e
        have hprefix : env.log <+: t.log := by
          obtain ⟨log, hgrown, -, -⟩ := htakes
          exact ⟨log, hgrown.symm⟩
        have hdestroy := destroyConnections_takes (d := d) (H := H) conns t (hstock.mono hprefix)
          fun conn hconn => hroom.free _ (hstock.later conn hconn)
        refine Ensures.bind (hdestroy.mono ?_ fun _ h => h.elim)
        intro _ u hu
        exact htakes.trans hu

end Connections

/-! ### In a session -/

/-- The books after a stretch of the log. -/
theorem Session.Holds.takes {σ τ : Type} {d : Handles} {H H' : List Resource} {s : Session}
    {answers rest : List Answer} {a : σ} {t : Env τ} (hholds : s.Holds H)
    (h : Takes d (⟨answers, s.verbsLog, a⟩ : Env σ) t H H') :
    Session.Holds H' { s with
      events := s.events ++ verbsEvents d s.verbsLog answers (t.log.drop s.verbsLog.length)
      answers := rest
      verbsLog := t.log } := by
  obtain ⟨log, hlog, -, horderly⟩ := h
  have hlog : t.log = s.verbsLog ++ log := hlog
  have hdrop : t.log.drop s.verbsLog.length = log := by rw [hlog, List.drop_left]
  rw [hdrop]
  refine hholds.extend rfl ?_ horderly (count_acquired_verbsEvents d _ _ log) ?_
  · rw [hlog, List.length_append]
    exact Nat.le_add_right _ _
  · intro r hr
    have hnumbered := acquired_of_mem_verbsEvents d hr
    rw [← List.length_append, ← hlog] at hnumbered
    cases r with
    | cq id d => exact ⟨hnumbered.2, Nat.not_lt.mpr hnumbered.1⟩
    | qp id cq d => exact ⟨hnumbered.2, Nat.not_lt.mpr hnumbered.1⟩
    | deviceList id => exact hnumbered.elim
    | context id => exact hnumbered.elim
    | pd id context => exact hnumbered.elim

theorem onVerbs_spec {α : Type} {d : Handles} {H : List Resource} {s : Session}
    {x : VerbsM Unit α} {Q : α → List VerbsCall → List Resource → Prop}
    {E : List VerbsCall → List Resource → Prop} (hholds : s.Holds H)
    (hx : Ensures x ⟨s.answers, s.verbsLog, ()⟩
      (fun a t => ∃ H', Takes d (⟨s.answers, s.verbsLog, ()⟩ : Env Unit) t H H' ∧ Q a t.log H')
      (fun t => ∃ H', Takes d (⟨s.answers, s.verbsLog, ()⟩ : Env Unit) t H H' ∧ E t.log H')) :
    Ensures (onVerbs d x) s
      (fun a t => ∃ H', t.Holds H' ∧ t.diverged = s.diverged ∧ Q a t.verbsLog H')
      (fun t => ∃ H', t.Holds H' ∧ t.diverged = s.diverged ∧ E t.verbsLog H') := by
  unfold Ensures onVerbs
  cases hrun : x ⟨s.answers, s.verbsLog, ()⟩ with
  | ok a t =>
      obtain ⟨H', htakes, hQ⟩ := hx.ok hrun
      exact ⟨H', hholds.takes htakes, rfl, hQ⟩
  | error e t =>
      obtain ⟨H', htakes, hE⟩ := hx.error hrun
      exact ⟨H', hholds.takes htakes, rfl, hE⟩

end HipObject
