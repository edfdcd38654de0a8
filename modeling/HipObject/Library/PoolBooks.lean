import HipObject.Library.Machine
import HipObject.Rdma.PoolInvariant

/-!
# What the pool of an instance holds

The users of a lease connect it and poll it, which makes and destroys nothing,
and its release keeps the connection, replaces it or drops it. `SlotTakes` says
how what is held changes with the slot. The books of an instance then hold what
its connections own after every step of its pool.
-/

namespace HipObject

open Verification

/-! ### Code that makes nothing -/

section Quiet

variable {d : Handles}

/-- Code on a connection that keeps its objects, and makes no others. -/
structure Quiet (d : Handles) (env t : Env RcConnection) : Prop where
  takes : ∀ H, Takes d env t H H
  qp : t.obj.qp.id = env.obj.qp.id
  cq : t.obj.cq.id = env.obj.cq.id

theorem Quiet.refl (env : Env RcConnection) : Quiet d env env :=
  ⟨fun _ => Takes.refl rfl rfl, rfl, rfl⟩

theorem Quiet.trans {env t u : Env RcConnection} (h : Quiet d env t) (h' : Quiet d t u) :
    Quiet d env u :=
  ⟨fun H => (h.takes H).trans (h'.takes H), h'.qp.trans h.qp, h'.cq.trans h.cq⟩

/-- A verb that creates and destroys nothing. -/
theorem call_quiet (c : VerbsCall) (env : Env RcConnection) (hasks : c.asks = true)
    (hnothing : ∀ past answer, verbsEvent d past answer c = []) :
    Ensures (call c) env (fun _ t => Quiet d env t ∧ t.obj = env.obj)
      (fun t => Quiet d env t ∧ t.obj = env.obj) := by
  have hquiet : ∀ t : Env RcConnection, t.log = env.log ++ [c] → t.answers = env.answers.tail →
      t.obj = env.obj → Quiet d env t ∧ t.obj = env.obj := by
    intro t hlog hanswers hobj
    refine ⟨⟨fun H => Takes.one c hlog ?_ ?_, by rw [hobj], by rw [hobj]⟩, hobj⟩
    · rw [hanswers, if_pos hasks]
    · rw [hnothing]
      exact .refl H
  refine ((call_log c env).and (call_spec c)).mono ?_ ?_
  · rintro a t ⟨⟨hlog, hanswers, -⟩, hobj⟩
    exact hquiet t hlog hanswers hobj
  · rintro t ⟨⟨hlog, hanswers, -⟩, hobj⟩
    exact hquiet t hlog hanswers hobj

theorem modifyQp_quiet (target : QpState) (dest : Option Destination) (env : Env RcConnection) :
    Ensures (modifyQp target dest) env (fun _ t => Quiet d env t) (fun t => Quiet d env t) := by
  unfold modifyQp
  refine Ensures.get_bind (Ensures.bind ((call_quiet _ env rfl fun _ _ => rfl).mono ?_
    fun _ h => h.1))
  rintro a t ⟨hquiet, -⟩
  cases a with
  | success value =>
      refine Ensures.modify_bind ?_
      rw [Ensures.pure_iff]
      exact ⟨fun H => (hquiet.takes H).trans (Takes.refl rfl rfl), hquiet.qp, hquiet.cq⟩
  | failure => exact hquiet
  | throws => exact hquiet

theorem pollCq_quiet (env : Env RcConnection) :
    Ensures pollCq env (fun _ t => Quiet d env t) (fun t => Quiet d env t) := by
  unfold pollCq
  refine Ensures.get_bind (Ensures.bind ((call_quiet _ env rfl fun _ _ => rfl).mono ?_
    fun _ h => h.1))
  rintro a t ⟨hquiet, -⟩
  cases a with
  | success value =>
      cases env.obj.cq.completions with
      | nil => exact hquiet
      | cons wc rest =>
          refine Ensures.modify_bind ?_
          rw [Ensures.pure_iff]
          exact ⟨fun H => (hquiet.takes H).trans (Takes.refl rfl rfl), hquiet.qp, hquiet.cq⟩
  | failure => exact hquiet
  | throws => exact hquiet

/-- What follows quiet code is quiet. -/
theorem Quiet.then {α : Type} {x : VerbsM RcConnection α} {env t : Env RcConnection}
    (h : Quiet d env t) (hx : Ensures x t (fun _ u => Quiet d t u) (fun u => Quiet d t u)) :
    Ensures x t (fun _ u => Quiet d env u) (fun u => Quiet d env u) :=
  hx.mono (fun _ _ hu => h.trans hu) fun _ hu => h.trans hu

theorem connectRcPeer_quiet (device : RdmaDevice) (peerToken : RdmaToken)
    (env : Env RcConnection) :
    Ensures (connectRcPeer device peerToken) env (fun _ t => Quiet d env t)
      (fun t => Quiet d env t) := by
  unfold connectRcPeer
  refine Ensures.ite (fun _ => Quiet.refl env) fun _ => ?_
  refine Ensures.bind (Ensures.mono (Q := fun _ t => Quiet d env t)
    (E := fun t => Quiet d env t) ?_ ?_ fun _ h => h)
  · unfold transitionQpToRtr
    exact Ensures.ite (fun _ => modifyQp_quiet _ _ env) fun _ => Quiet.refl env
  · intro moved t ht
    cases moved with
    | false => exact ht
    | true => exact ht.then (modifyQp_quiet .RTS none t)

theorem drainLoop_quiet (left : Nat) (env : Env RcConnection) :
    Ensures (drainLoop left) env (fun _ t => Quiet d env t) (fun t => Quiet d env t) := by
  induction left generalizing env with
  | zero => exact Quiet.refl env
  | succ left ih =>
      refine Ensures.bind ((pollCq_quiet env).mono ?_ fun _ h => h)
      rintro (_ | _ | wc) t ht
      · exact ht
      · exact ht
      · exact ht.then (ih t)

theorem resetRcConnection_quiet (env : Env RcConnection) :
    Ensures resetRcConnection env (fun _ t => Quiet d env t) (fun t => Quiet d env t) := by
  unfold resetRcConnection
  refine Ensures.bind ((modifyQp_quiet .RESET none env).mono ?_ fun _ h => h)
  intro moved t ht
  cases moved with
  | false => exact ht
  | true =>
      refine Ensures.bind (Ensures.get_bind ((ht.then (drainLoop_quiet _ t)).mono ?_
        fun _ h => h))
      intro drained u hu
      cases drained with
      | false => exact hu
      | true => exact hu.then (modifyQp_quiet .INIT none u)

end Quiet

/-! ### The slot of a lease -/

section Slot

variable {d : Handles} {H : List Resource}

theorem Room.mono {n m : Nat} (h : Room d n H) (hnm : n ≤ m) : Room d m H where
  context := h.context
  pd := h.pd
  free := fun k hk => h.free k (Nat.le_trans hnm hk)

/-- Code that may change the connection in a slot takes what the slot owns along.
The connection it leaves is the one that was there, or a new one. -/
structure SlotTakes (d : Handles) (H : List Resource) (env t : Env (Option RcConnection)) :
    Prop where
  takes : Takes d env t (stockResources d env.obj.toList ++ H) (stockResources d t.obj.toList ++ H)
  made : ∀ conn, t.obj = some conn → conn.MadeIn t.log
  cq : ∀ conn, t.obj = some conn →
    (∃ old, env.obj = some old ∧ conn.cq.id = old.cq.id) ∨ env.log.length ≤ conn.cq.id

/-- What the slot has to be like before. -/
structure SlotOk (d : Handles) (H : List Resource) (env : Env (Option RcConnection)) : Prop where
  room : Room d env.log.length H
  made : ∀ conn, env.obj = some conn → conn.MadeIn env.log
  free : ∀ conn, env.obj = some conn → ∀ r ∈ H, ¬DependsOn r (.cq conn.cq.id d)

theorem Takes.isPrefix {σ τ : Type} {env : Env σ} {t : Env τ} {H' : List Resource}
    (h : Takes d env t H H') : env.log <+: t.log := by
  obtain ⟨log, hlog, -, -⟩ := h
  exact ⟨log, hlog.symm⟩

theorem SlotOk.refl {env : Env (Option RcConnection)} (h : SlotOk d H env) :
    SlotTakes d H env env where
  takes := Takes.refl rfl rfl
  made := h.made
  cq := fun conn hconn => .inl ⟨conn, hconn, rfl⟩

/-- Nothing rests on the completion queue of the connection that is left. -/
theorem SlotTakes.free {env t : Env (Option RcConnection)} (hok : SlotOk d H env)
    (h : SlotTakes d H env t) {conn : RcConnection} (hconn : t.obj = some conn) :
    ∀ r ∈ H, ¬DependsOn r (.cq conn.cq.id d) := by
  rcases h.cq conn hconn with ⟨old, hold, hid⟩ | hlater
  · rw [hid]
    exact hok.free old hold
  · exact hok.room.free _ hlater

/-- Quiet code on the connection in a slot. -/
theorem Quiet.slot {conn : RcConnection} {answers : List Answer} {log : List VerbsCall}
    {t : Env RcConnection} (hok : SlotOk d H ⟨answers, log, some conn⟩)
    (h : Quiet d ⟨answers, log, conn⟩ t) :
    SlotTakes d H ⟨answers, log, some conn⟩ ⟨t.answers, t.log, some t.obj⟩ := by
  have hqp : t.obj.qp.id = conn.qp.id := h.qp
  have hcq : t.obj.cq.id = conn.cq.id := h.cq
  have hresources : t.obj.resources d = conn.resources d := by
    simp only [RcConnection.resources, hqp, hcq]
  refine ⟨?_, ?_, ?_⟩
  · obtain ⟨calls, hlog, hanswers, horderly⟩ := h.takes (conn.resources d ++ H)
    refine ⟨calls, hlog, hanswers, ?_⟩
    simpa [stockResources, hresources] using horderly
  · intro made hmade
    cases hmade
    have hgrown := (hok.made conn rfl).mono (h.takes H).isPrefix
    exact ⟨by rw [hqp, hcq]; exact hgrown.qp, by rw [hcq]; exact hgrown.cq⟩
  · intro made hmade
    cases hmade
    exact .inl ⟨conn, rfl, hcq⟩

theorem onSlot_takes (env : Env (Option RcConnection)) (hok : SlotOk d H env) :
    Ensures (ConnectionPool.onSlot resetRcConnection) env (fun _ t => SlotTakes d H env t)
      (fun t => SlotTakes d H env t) := by
  obtain ⟨answers, log, slot⟩ := env
  unfold Ensures ConnectionPool.onSlot
  cases slot with
  | none => exact hok.refl
  | some conn =>
      have hreset := resetRcConnection_quiet (d := d) ⟨answers, log, conn⟩
      cases hrun : resetRcConnection ⟨answers, log, conn⟩ with
      | ok reset t =>
          simp only [hrun]
          exact (hreset.ok hrun).slot hok
      | error e t =>
          simp only [hrun]
          exact (hreset.error hrun).slot hok

/-- Emptying a slot gives back what it owns. -/
theorem resetSlot_takes {env t : Env (Option RcConnection)} (hok : SlotOk d H env)
    (h : SlotTakes d H env t) :
    Ensures ConnectionPool.resetSlot t
      (fun _ u => u.obj = none ∧ Takes d env u (stockResources d env.obj.toList ++ H) H)
      (fun _ => False) := by
  refine ⟨rfl, h.takes.trans ?_⟩
  cases hobj : t.obj with
  | none =>
      simp only [hobj]
      exact Takes.refl (by simp) rfl
  | some conn =>
      simp only [hobj]
      have hdestroy := Takes.destroy (t := { t with
        obj := (none : Option RcConnection)
        log := t.log ++ [.destroyQp conn.qp.id, .destroyCq conn.cq.id] })
        (h.made conn hobj) (h.free hok hobj) rfl rfl
      simpa [stockResources] using hdestroy

/-- A slot is reset, gets a new connection, or is emptied. -/
theorem restore_takes (env : Env (Option RcConnection)) (hok : SlotOk d H env) :
    Ensures ConnectionPool.restore env (fun _ t => SlotTakes d H env t) (fun _ => False) := by
  have hdropped : ∀ t, SlotTakes d H env t →
      Ensures (ConnectionPool.resetSlot >>= fun _ => pure false) t
        (fun _ u => SlotTakes d H env u) (fun _ => False) := by
    intro t ht
    refine Ensures.bind ((resetSlot_takes hok ht).mono ?_ fun _ h => h)
    rintro _ u ⟨hnone, hu⟩
    refine ⟨?_, by simp [hnone], by simp [hnone]⟩
    rw [hnone]
    exact hu
  unfold ConnectionPool.restore
  -- an exception can come before or after the old connection is destroyed
  refine Ensures.bind (Ensures.tryCatch (Ensures.mono (Q := fun restored t =>
    SlotTakes d H env t) (E := fun t => SlotTakes d H env t) ?_ ?_ ?_))
  · refine Ensures.bind ((onSlot_takes env hok).mono ?_ fun _ h => h)
    intro reset t ht
    cases reset with
    | true => exact ht
    | false =>
        refine Ensures.bind ((resetSlot_takes hok ht).mono ?_ fun _ h => h.elim)
        rintro _ u ⟨hnone, hu⟩
        have hroom := hok.room.mono hu.length_le
        have hcreate := (createRcConnection_takes u ConnectionPool.kCqSize
          ConnectionPool.kMaxSendWr ConnectionPool.kMaxRecvWr hroom).and
          (createRcConnection_spec _ _ _)
        have hempty : ∀ v : Env (Option RcConnection), Takes d u v H H → v.obj = none →
            SlotTakes d H env v := by
          intro v hv hobj
          refine ⟨?_, by simp [hobj], by simp [hobj]⟩
          rw [hobj]
          exact hu.trans hv
        refine Ensures.bind (hcreate.mono ?_ ?_)
        · rintro (_ | fresh) v ⟨⟨hfailed, hsome⟩, hobj, -⟩
          · exact hempty v (hfailed rfl) (hobj.trans hnone)
          · obtain ⟨hv, hmade, hlater⟩ := hsome fresh rfl
            refine Ensures.modify_bind ⟨?_, ?_, ?_⟩
            · refine hu.trans (hv.trans ?_)
              have hsame : Takes d v { v with obj := some fresh } (fresh.resources d ++ H)
                  (fresh.resources d ++ H) := Takes.refl rfl rfl
              simpa [stockResources] using hsame
            · intro conn hconn
              cases hconn
              exact hmade
            · intro conn hconn
              cases hconn
              exact .inr (Nat.le_trans hu.length_le hlater)
        · rintro v ⟨hv, hobj⟩
          exact hempty v hv (hobj.trans hnone)
  · intro restored t ht
    cases restored with
    | true => exact ht
    | false => exact hdropped t ht
  · intro t ht e
    exact hdropped t ht

end Slot

/-! ### The books of an instance -/

/-- The books of an instance whose pool has come to be `pool`: they hold what it
owns. -/
structure Stocked (inst : Instance) (pool : ConnectionPool) (s : Session) : Prop where
  has : s.Has { inst with pool := pool }.resources
  logged : { inst with pool := pool }.LoggedIn s.verbsLog

section Books

variable {inst : Instance} {pool : ConnectionPool} {s : Session} {i : Nat}

/-- The connections besides the one in a slot. -/
def ConnectionPool.others (pool : ConnectionPool) (i : Nat) : List RcConnection :=
  (pool.slots.eraseIdx i).reduceOption

theorem connections_perm (h : i < pool.slots.length) :
    pool.connections.Perm ((pool.connection i).toList ++ pool.others i) := by
  have hperm := (List.getElem_cons_eraseIdx_perm h).symm.filterMap id
  have hslot : pool.connection i = pool.slots[i] := by simp [ConnectionPool.connection, h]
  rw [hslot]
  cases hget : pool.slots[i] with
  | none =>
      rw [hget] at hperm
      exact hperm
  | some conn =>
      rw [hget] at hperm
      exact hperm

theorem setSlot_connections_perm (h : i < pool.slots.length) (slot : Option RcConnection) :
    (pool.setSlot i slot).connections.Perm (slot.toList ++ pool.others i) := by
  have hperm := (List.set_perm_cons_eraseIdx h slot).filterMap id
  cases slot with
  | none => exact hperm
  | some conn => exact hperm

theorem Stock.perm {n : Nat} {log : List VerbsCall} {conns conns' : List RcConnection}
    (h : Stock n log conns) (hperm : conns.Perm conns') : Stock n log conns' where
  made := fun conn hconn => h.made conn (hperm.mem_iff.mpr hconn)
  distinct := (hperm.map _).nodup_iff.mp h.distinct
  later := fun conn hconn => h.later conn (hperm.mem_iff.mpr hconn)

/-- The resources of an instance besides those of a slot. -/
def Instance.rest (inst : Instance) (others : List RcConnection) : List Resource :=
  stockResources inst.device.handles others ++
    (inst.tokenConn.resources inst.device.handles ++ inst.device.resources)

theorem Stocked.slotOk (h : Stocked inst pool s) (hi : i < pool.slots.length)
    (answers : List Answer) :
    SlotOk inst.device.handles (inst.rest (pool.others i))
      ⟨answers, s.verbsLog, pool.connection i⟩ := by
  have hstock := h.logged.pool.perm (connections_perm hi)
  have hdevice : ∀ r ∈ inst.device.resources, r ∈ { inst with pool := pool }.resources := by
    intro r hr
    exact List.mem_append_right _ (List.mem_append_right _ hr)
  have hroom := h.has.room (d := inst.device.handles) (hdevice _ (by
    simp [OpenedDevice.resources, OpenedDevice.handles])) (hdevice _ (by
    simp [OpenedDevice.resources, OpenedDevice.handles]))
  refine ⟨⟨?_, ?_, ?_⟩, ?_, ?_⟩
  · simp [Instance.rest, OpenedDevice.resources, OpenedDevice.handles]
  · simp [Instance.rest, OpenedDevice.resources, OpenedDevice.handles]
  · intro m hm r hr
    refine hroom.free m hm r ?_
    rcases List.mem_append.mp hr with hr | hr
    · obtain ⟨conn, hconn, hr⟩ := List.mem_flatMap.mp hr
      refine List.mem_append_left _ (List.mem_flatMap.mpr ⟨conn, ?_, hr⟩)
      exact (connections_perm hi).mem_iff.mpr (List.mem_append_right _ hconn)
    · exact List.mem_append_right _ hr
  · intro conn hconn
    have hconn : pool.connection i = some conn := hconn
    exact hstock.made conn (by simp [hconn])
  · intro conn hconn r hr
    have hconn : pool.connection i = some conn := hconn
    rcases List.mem_append.mp hr with hr | hr
    · apply not_dependsOn_stockResources ?_ r hr
      intro other hother heq
      have hdistinct := hstock.distinct
      rw [hconn] at hdistinct
      simp only [Option.toList_some, List.cons_append, List.nil_append, List.map_cons,
        List.nodup_cons] at hdistinct
      exact hdistinct.1 (List.mem_map.mpr ⟨other, hother, heq⟩)
    · exact not_dependsOn_tokenConn hstock conn (by simp [hconn]) r hr

/-- The books follow whatever happens to the connection in a slot. -/
theorem Stocked.use {answers rest : List Answer} {log : List VerbsCall}
    {slot : Option RcConnection} (h : Stocked inst pool s) (hi : i < pool.slots.length)
    (htakes : SlotTakes inst.device.handles (inst.rest (pool.others i))
      ⟨answers, s.verbsLog, pool.connection i⟩ ⟨rest, log, slot⟩) :
    Stocked inst (pool.setSlot i slot) (s.record inst.device.handles answers log) := by
  have hbefore := connections_perm hi
  have hafter := setSlot_connections_perm hi slot
  have hstock := h.logged.pool.perm hbefore
  have hprefix : s.verbsLog <+: log := htakes.takes.isPrefix
  have hheld : ∀ (slot : Option RcConnection) (q : ConnectionPool),
      q.connections.Perm (slot.toList ++ pool.others i) →
      { inst with pool := q }.resources.Perm
        (stockResources inst.device.handles slot.toList ++ inst.rest (pool.others i)) := by
    intro slot q hperm
    have hconns := hperm.flatMap_right (RcConnection.resources inst.device.handles)
    rw [List.flatMap_append] at hconns
    rw [Instance.rest, ← List.append_assoc]
    exact hconns.append_right _
  refine ⟨?_, ?_, ?_⟩
  · have hhas := h.has.perm (hheld _ pool hbefore)
    exact ⟨(hhas.holds.takes htakes.takes).perm (hheld slot _ hafter).symm, h.has.going⟩
  · exact h.logged.tokenConn.mono hprefix
  · -- the new connection has a completion queue that no other one has
    refine Stock.perm ?_ hafter.symm
    have hothers : Stock (inst.tokenConn.cq.id + 1) log (pool.others i) := by
      refine ⟨?_, ?_, ?_⟩
      · intro conn hconn
        exact (hstock.made conn (List.mem_append_right _ hconn)).mono hprefix
      · have hdistinct := hstock.distinct
        rw [List.map_append] at hdistinct
        exact (List.nodup_append.mp hdistinct).2.1
      · intro conn hconn
        exact hstock.later conn (List.mem_append_right _ hconn)
    cases slot with
    | none => exact hothers
    | some conn =>
        refine ⟨?_, ?_, ?_⟩
        · intro other hother
          rcases List.mem_cons.mp hother with rfl | hother
          · exact htakes.made _ rfl
          · exact hothers.made other hother
        · refine List.nodup_cons.mpr ⟨?_, hothers.distinct⟩
          intro hmem
          obtain ⟨other, hother, heq⟩ := List.mem_map.mp hmem
          rcases htakes.cq conn rfl with ⟨old, hold, hid⟩ | hlater
          · have hold : pool.connection i = some old := hold
            have hdistinct := hstock.distinct
            rw [hold] at hdistinct
            simp only [Option.toList_some, List.cons_append, List.nil_append, List.map_cons,
              List.nodup_cons] at hdistinct
            exact hdistinct.1 (List.mem_map.mpr ⟨other, hother, heq.trans hid⟩)
          · have hlater : s.verbsLog.length ≤ conn.cq.id := hlater
            have hmade := (hstock.made other (List.mem_append_right _ hother)).cq
            have heq : other.cq.id = conn.cq.id := heq
            omega
        · intro other hother
          rcases List.mem_cons.mp hother with rfl | hother
          · rcases htakes.cq _ rfl with ⟨old, hold, hid⟩ | hlater
            · have hold : pool.connection i = some old := hold
              rw [hid]
              exact hstock.later old (by simp [hold])
            · exact Nat.lt_of_lt_of_le h.logged.tokenConn.cq hlater
          · exact hothers.later other hother

end Books

/-! ### Steps of the pool -/

section Steps

variable {P T : Type} [DecidableEq P] [DecidableEq T]
variable {p : P} {d : Handles} {answers : List Answer} {s t : System P T} {l : Lease P T}

/-- What a lease is known by. -/
def Lease.key (l : Lease P T) : Option P × Nat × Nat := (l.pool, l.index, l.serial)

/-- The end of a lease whose connection could not be reset, by an error or an
exception. It is gone from its slot then. -/
structure Discards (l : Lease P T) (conn : RcConnection)
    (before after : Env (Option RcConnection)) : Prop where
  connected : l.connected = true
  restored : ∃ usable, ConnectionPool.restore before = .ok usable after
  stuck : ∀ env, resetRcConnection { before with obj := conn } ≠ .ok true env

/-- The objects of the connection in a slot stay, or its lease ends and it could
not be reset. -/
def SlotKeeps (d : Handles) (l : Lease P T) (before after : Env (Option RcConnection)) : Prop :=
  ∀ conn, before.obj = some conn →
    (∃ kept, after.obj = some kept ∧ kept.resources d = conn.resources d) ∨
      Discards l conn before after

/-- A step by which a lease, or the hardware while it is held, changes the slot
that the lease names. -/
structure PoolUse (p : P) (d : Handles) (answers : List Answer) (l : Lease P T)
    (s t : System P T) : Prop where
  mem : l ∈ s.leases
  pool : l.pool = some p
  leases : ∃ l', l'.key = l.key ∧ t.leases = l' :: s.leases.erase l
  nextSerial : t.nextSerial = s.nextSerial
  slot : ∃ slot rest,
    t.pools = Function.update s.pools p ((s.pools p).setSlot l.index slot) ∧
    (∀ H, SlotOk d H ⟨answers, s.log, (s.pools p).connection l.index⟩ →
      SlotTakes d H ⟨answers, s.log, (s.pools p).connection l.index⟩ ⟨rest, t.log, slot⟩) ∧
    SlotKeeps d l ⟨answers, s.log, (s.pools p).connection l.index⟩ ⟨rest, t.log, slot⟩

theorem PoolUse.update {l' : Lease P T} {slot : Option RcConnection} {log : List VerbsCall}
    (events : List (Event P T)) (rest : List Answer) (hl : l ∈ s.leases) (hp : l.pool = some p)
    (hkey : l'.key = l.key)
    (htakes : ∀ H, SlotOk d H ⟨answers, s.log, (s.pools p).connection l.index⟩ →
      SlotTakes d H ⟨answers, s.log, (s.pools p).connection l.index⟩ ⟨rest, log, slot⟩)
    (hkeeps : SlotKeeps d l ⟨answers, s.log, (s.pools p).connection l.index⟩ ⟨rest, log, slot⟩) :
    PoolUse p d answers l s (s.update p l l' slot log events) :=
  ⟨hl, hp, ⟨l', hkey, rfl⟩, rfl, slot, rest, rfl, htakes, hkeeps⟩

omit [DecidableEq P] [DecidableEq T] in
theorem Quiet.keeps {conn : RcConnection} {log : List VerbsCall} {t : Env RcConnection}
    (h : Quiet d ⟨answers, log, conn⟩ t) :
    SlotKeeps d l ⟨answers, log, some conn⟩ ⟨t.answers, t.log, some t.obj⟩ := by
  rintro _ ⟨⟩
  have hqp : t.obj.qp.id = conn.qp.id := h.qp
  have hcq : t.obj.cq.id = conn.cq.id := h.cq
  exact .inl ⟨t.obj, rfl, by simp only [RcConnection.resources, hqp, hcq]⟩

/-- A connection that can be reset stays in its slot. -/
theorem restore_of_reset {conn : RcConnection} {env : Env RcConnection} {log : List VerbsCall}
    (h : resetRcConnection ⟨answers, log, conn⟩ = .ok true env) :
    ConnectionPool.restore ⟨answers, log, some conn⟩ =
      .ok true ⟨env.answers, env.log, some env.obj⟩ := by
  have hslot : ConnectionPool.onSlot resetRcConnection ⟨answers, log, some conn⟩ =
      .ok true ⟨env.answers, env.log, some env.obj⟩ := by
    simp only [ConnectionPool.onSlot, h]
  unfold ConnectionPool.restore
  simp [bind, EStateM.bind, tryCatch, tryCatchThe, MonadExceptOf.tryCatch, EStateM.tryCatch, hslot,
    pure, EStateM.pure]

omit [DecidableEq P] [DecidableEq T] in
theorem restore_keeps {slot : Option RcConnection} {log : List VerbsCall} {usable : Bool}
    {env : Env (Option RcConnection)} (hconnected : l.connected = true)
    (h : ConnectionPool.restore ⟨answers, log, slot⟩ = .ok usable env) :
    SlotKeeps d l ⟨answers, log, slot⟩ env := by
  rintro conn rfl
  by_cases hreset : ∃ t, resetRcConnection ⟨answers, log, conn⟩ = .ok true t
  · obtain ⟨t, hreset⟩ := hreset
    rw [restore_of_reset hreset] at h
    cases h
    exact ((resetRcConnection_quiet _).ok hreset).keeps conn rfl
  · exact .inr ⟨hconnected, ⟨usable, h⟩, fun t ht => hreset ⟨t, ht⟩⟩

/-- Quiet code on the connection of a lease. -/
theorem PoolUse.quiet {l' : Lease P T} {conn : RcConnection} {env : Env RcConnection}
    (events : List (Event P T)) (hl : l ∈ s.leases) (hp : l.pool = some p)
    (hslot : (s.pools p).connection l.index = some conn) (hkey : l'.key = l.key)
    (hquiet : Quiet d ⟨answers, s.log, conn⟩ env) :
    PoolUse p d answers l s (s.update p l l' (some env.obj) env.log events) := by
  refine PoolUse.update events env.answers hl hp hkey ?_ ?_
  · intro H hok
    rw [hslot] at hok ⊢
    exact hquiet.slot hok
  · rw [hslot]
    exact hquiet.keeps

theorem connect_use {device : P → RdmaDevice} {peerToken : RdmaToken}
    (h : s.connect device l peerToken answers = some t) (hp : l.pool = some p) :
    PoolUse p d answers l s t := by
  unfold System.connect at h
  split at h
  · rename_i huse
    obtain ⟨⟨q, conn⟩, hconn, rfl⟩ := Option.map_eq_some_iff.mp h
    obtain ⟨hq, hslot⟩ := connection_eq_some hconn
    obtain rfl : p = q := Option.some.inj (hp.symm.trans hq)
    exact PoolUse.quiet [] huse.1 hp hslot rfl (connectRcPeer_quiet _ _ _).final
  · cases h

theorem poll_use {expectedOpcode : Option Nat} (h : s.poll l expectedOpcode answers = some t)
    (hp : l.pool = some p) : PoolUse p d answers l s t := by
  unfold System.poll at h
  split at h
  · rename_i huse
    obtain ⟨⟨q, conn⟩, hconn, rfl⟩ := Option.map_eq_some_iff.mp h
    obtain ⟨hq, hslot⟩ := connection_eq_some hconn
    obtain rfl : p = q := Option.some.inj (hp.symm.trans hq)
    have hquiet := pollCq_quiet (d := d) ⟨answers, s.log, conn⟩
    dsimp only
    split
    · rename_i wc env hrun
      exact PoolUse.quiet _ huse.1 hp hslot rfl (hquiet.ok hrun)
    · rename_i polled env _ hrun
      exact PoolUse.quiet _ huse.1 hp hslot rfl (hquiet.ok hrun)
    · rename_i e env hrun
      exact PoolUse.quiet _ huse.1 hp hslot rfl (hquiet.error hrun)
  · cases h

theorem complete_use {success : Bool} {opcode : Nat} (h : s.complete l success opcode = some t)
    (hp : l.pool = some p) : PoolUse p d answers l s t := by
  unfold System.complete at h
  split at h
  · rename_i huse
    obtain ⟨⟨q, conn⟩, hconn, hroom⟩ := Option.bind_eq_some_iff.mp h
    obtain ⟨hq, hslot⟩ := connection_eq_some hconn
    obtain rfl : p = q := Option.some.inj (hp.symm.trans hq)
    simp only [Option.ite_none_right_eq_some, Option.some.injEq] at hroom
    obtain ⟨-, rfl⟩ := hroom
    have hquiet : Quiet d ⟨answers, s.log, conn⟩ ⟨answers, s.log, { conn with
        cq.completions := conn.cq.completions ++ [⟨success, opcode, l.serial⟩] }⟩ :=
      ⟨fun _ => Takes.refl rfl rfl, rfl, rfl⟩
    exact PoolUse.quiet [] huse.1 hp hslot rfl hquiet
  · cases h

theorem restore_use (h : s.restore l answers = some t) (hp : l.pool = some p) :
    PoolUse p d answers l s t := by
  unfold System.restore at h
  split at h
  · rename_i huse
    obtain ⟨q, hq, h⟩ := Option.bind_eq_some_iff.mp h
    obtain rfl : p = q := Option.some.inj (hp.symm.trans hq)
    by_cases hconnected : l.connected = true
    · dsimp only at h
      rw [if_pos hconnected] at h
      split at h
      · rename_i usable env hrun
        cases h
        refine ⟨huse.1, hp, ⟨{ l with usable := some usable }, rfl, rfl⟩, rfl, env.obj,
          env.answers, rfl, ?_, restore_keeps (d := d) hconnected hrun⟩
        intro H hok
        exact (restore_takes _ hok).ok hrun
      · cases h
    · dsimp only at h
      rw [if_neg hconnected] at h
      cases h
      refine ⟨huse.1, hp, ⟨{ l with usable := some true }, rfl, rfl⟩, rfl, _, answers, rfl, ?_, ?_⟩
      · intro H hok
        exact hok.refl
      · exact fun conn hconn => .inl ⟨conn, hconn, rfl⟩
  · cases h

end Steps

end HipObject
