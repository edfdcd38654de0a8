import HipObject.Library.ConnectionBooks
import HipObject.Library.Init

/-!
# What the steps of initialization hold

Each step that builds an instance is given a rule that says what is held after
it: the same as before if it fails or throws, and what its result owns on top of
that if it succeeds. `buildInstance_has` puts them together.
-/

namespace HipObject

open Codec Verification

/-- A session that goes on, and holds `H`. -/
structure Session.Has (H : List Resource) (s : Session) : Prop where
  holds : s.Holds H
  going : s.diverged = false

/-- What is held after a step: what its result owns, on top of `H`. -/
def heldWith {α : Type} (owns : α → List Resource) (H : List Resource) : Option α → List Resource
  | none => H
  | some a => owns a ++ H

namespace Session.Has

variable {H H' rest : List Resource} {s : Session} {r : Resource}

theorem log (h : s.Has H) (c : PlatformCall) : (s.log c).Has H := ⟨h.holds.log c, h.going⟩

theorem perm (h : s.Has H) (hperm : H.Perm H') : s.Has H' := ⟨h.holds.perm hperm, h.going⟩

theorem acquire (h : s.Has H) (hon : ∀ p, DependsOn r p → p ∈ H)
    (hbelow : r.Below (s.events.length + 1) s.verbsLog.length)
    (hnew : ¬r.Below s.events.length s.verbsLog.length) : (s.acquire r).Has (r :: H) :=
  ⟨h.holds.acquire hon hbelow hnew, h.going⟩

theorem release (h : s.Has H) (hheld : H.Perm (r :: rest))
    (hfree : ∀ q ∈ rest, ¬DependsOn q r) : (s.release r).Has rest :=
  ⟨h.holds.release hheld hfree, h.going⟩

/-- There is always room for connections on a device that is held. -/
theorem room (h : s.Has H) {d : Handles} (hcontext : .context d.context ∈ H)
    (hpd : .pd d.pd d.context ∈ H) : Room d s.verbsLog.length H where
  context := hcontext
  pd := hpd
  free := fun _ hm => h.holds.not_dependsOn (Nat.not_lt.mpr hm)

end Session.Has

/-! ### Opening the device -/

section Open

variable {P : Platform} {H : List Resource} {s : Session}

theorem gidLoop_has (P : Platform) (ctx : Context) (portNum : BitVec 8) (left i : Nat)
    (candidates : List GidCandidate) (s : Session) (h : s.Has H) :
    Ensures (gidLoop P ctx portNum left i candidates) s (fun _ t => t.Has H)
      (fun _ => False) := by
  induction left generalizing i candidates s with
  | zero => exact h
  | succ left ih =>
      rw [gidLoop]
      refine query_bind ?_
      have hlog := h.log (.queryGid ctx portNum i)
      cases P.queryGid ctx.device portNum i (s.count (.queryGid ctx portNum i)) with
      | none => exact ih _ _ _ hlog
      | some gid =>
          cases hconf : isConfiguredGid gid with
          | false =>
              simp only [hconf, Bool.not_false, if_true]
              exact ih _ _ _ hlog
          | true =>
              simp only [hconf, Bool.not_true, Bool.false_eq_true, if_false]
              exact query_bind (ih _ _ _ (hlog.log _))

theorem selectBestGid_has (P : Platform) (ctx : Context) (portNum : BitVec 8) (h : s.Has H) :
    Ensures (selectBestGid P ctx portNum) s (fun _ t => t.Has H) (fun _ => False) := by
  unfold selectBestGid autoSelectGidIndex
  refine query_bind ?_
  have hlog := h.log (.queryPort ctx portNum)
  cases P.queryPort ctx.device portNum (s.count (.queryPort ctx portNum)) with
  | none => exact hlog
  | some attr =>
      refine Ensures.bind ((gidLoop_has P ctx portNum _ 0 [] _ hlog).mono ?_ fun _ h => h)
      intro candidates t ht
      exact ht

/-- The protection domain is what the device owns besides its context. -/
theorem openOnContext_has (ctx : Context) (h : s.Has H) (hctx : .context ctx.id ∈ H) :
    Ensures (openOnContext P ctx) s
      (fun r t => t.Has (heldWith (fun o => [.pd o.pd ctx.id]) H r) ∧
        ∀ o, r = some o → o.context = ctx)
      (fun t => t.Has H) := by
  unfold openOnContext
  have hasked := h.log (.allocPd ctx)
  refine acquire_bind (fun _ => hasked) (fun _ => ⟨hasked, by simp⟩) ?_
  intro _ _
  set pd := (s.log (.allocPd ctx)).events.length
  have hfree : ∀ q ∈ H, ¬DependsOn q (.pd pd ctx.id) :=
    hasked.holds.not_dependsOn (Nat.lt_irrefl _)
  have hpd : ((s.log (.allocPd ctx)).acquire (.pd pd ctx.id)).Has (.pd pd ctx.id :: H) := by
    refine hasked.acquire ?_ (Nat.lt_succ_self _) (Nat.lt_irrefl _)
    intro p hp
    cases hp
    exact hctx
  -- a failure gives the protection domain back
  have hfailed : ∀ t : Session, t.Has (.pd pd ctx.id :: H) →
      (t.release (.pd pd ctx.id)).Has H := by
    intro t ht
    exact ht.release (.refl _) hfree
  refine handingOver_spec (query_bind ?_)
  have hqueried := hpd.log (.queryPort ctx kPortNum)
  cases P.queryPort ctx.device kPortNum _ with
  | none => exact ⟨hfailed _ hqueried, by simp⟩
  | some attr =>
      refine Ensures.bind ((selectBestGid_has P ctx kPortNum hqueried).mono ?_
        fun _ h => h.elim)
      intro chosen t ht
      refine query_bind ?_
      have hgid := ht.log (.queryGid ctx kPortNum (chosen.getD 0))
      cases P.queryGid ctx.device kPortNum (chosen.getD 0) _ with
      | none => exact ⟨hfailed _ hgid, by simp⟩
      | some gid =>
          refine query_bind ⟨hgid.log _, ?_⟩
          intro o ho
          cases ho
          rfl

/-- What a device that is open owns. -/
def OpenedDevice.resources (o : OpenedDevice) : List Resource :=
  [.pd o.pd o.context.id, .context o.context.id]

theorem not_dependsOn_deviceList (q : Resource) (id : Nat) : ¬DependsOn q (.deviceList id) := by
  intro h
  cases h

/-- A device list that a local variable owns. -/
theorem Session.Has.getDeviceList (h : s.Has H) (c : PlatformCall) :
    ((s.log c).acquire (.deviceList (s.log c).events.length)).Has
      (.deviceList (s.log c).events.length :: H) := by
  refine (h.log c).acquire ?_ (Nat.lt_succ_self _) (Nat.lt_irrefl _)
  intro p hp
  cases hp

theorem openRdmaDevice_has (nicIndex : Int) (h : s.Has H) :
    Ensures (openRdmaDevice P nicIndex) s
      (fun r t => t.Has (heldWith OpenedDevice.resources H r)) (fun t => t.Has H) := by
  unfold openRdmaDevice
  have hasked := h.log .getDeviceList
  refine getDeviceList_bind (fun _ => hasked) (fun _ => hasked) ?_
  intro entries _
  have hlist := h.getDeviceList .getDeviceList
  set id := (s.log .getDeviceList).events.length
  -- the list goes when the device has been opened, or has not
  have hfreed : ∀ (t : Session) (H' : List Resource), t.Has H' →
      H'.Perm (.deviceList id :: H) → (t.release (.deviceList id)).Has H := by
    intro t H' ht hperm
    exact ht.release hperm fun q _ => not_dependsOn_deviceList q id
  refine Ensures.bind (holding_spec ?_)
  cases deviceAt (s.count .getDeviceList) entries nicIndex with
  | none => exact hfreed _ _ hlist (.refl _)
  | some dev =>
      have hopening := hlist.log (.openDevice dev)
      refine acquire_bind ?_ (fun _ => hfreed _ _ hopening (.refl _)) ?_
      · intro _
        simp only [hopening.going]
        exact hfreed _ _ hopening (.refl _)
      · intro _ _
        set u := ((s.log .getDeviceList).acquire (.deviceList id)).log (.openDevice dev)
        have hfree : ∀ q ∈ H, ¬DependsOn q (.context u.events.length) := by
          intro q hq
          exact hopening.holds.not_dependsOn (r := .context u.events.length) (Nat.lt_irrefl _) q
            (List.mem_cons_of_mem _ hq)
        have hopened : ((u.acquire (.context u.events.length)).release (.deviceList id)).Has
            (.context u.events.length :: H) := by
          have hboth : (u.acquire (.context u.events.length)).Has
              (.context u.events.length :: .deviceList id :: H) := by
            refine hopening.acquire ?_ (Nat.lt_succ_self _) (Nat.lt_irrefl _)
            intro p hp
            cases hp
          exact hboth.release (.swap _ _ _) fun q _ => not_dependsOn_deviceList q id
        refine handingOver_spec ((openOnContext_has ⟨u.events.length, dev⟩ hopened
          List.mem_cons_self).mono ?_ ?_)
        · rintro r t ⟨ht, hcontext⟩
          cases r with
          | none => exact ht.release (.refl _) hfree
          | some o =>
              have hctx := hcontext o rfl
              have ho : heldWith OpenedDevice.resources H (some o) =
                  heldWith (fun o => [.pd o.pd u.events.length])
                    (.context u.events.length :: H) (some o) := by
                simp [heldWith, OpenedDevice.resources, hctx]
              rw [ho]
              exact ht
        · intro t ht
          simp only [ht.going]
          exact ht.release (.refl _) hfree

theorem findByName_has (list : Nat) (devName : List Byte) (i : Nat)
    (entries : List (Option (Option (List Byte)))) (s : Session) (h : s.Has H) :
    Ensures (findByName list devName i entries) s (fun _ t => t.Has H) (fun _ => False) := by
  induction entries generalizing i s with
  | nil => exact h
  | cons entry rest ih =>
      rw [findByName]
      refine query_bind ?_
      split
      · exact h.log _
      · exact ih (i + 1) _ (h.log _)

theorem openRdmaDeviceByName_has (devName : List Byte) (h : s.Has H) :
    Ensures (openRdmaDeviceByName P devName) s
      (fun r t => t.Has (heldWith OpenedDevice.resources H r)) (fun t => t.Has H) := by
  unfold openRdmaDeviceByName
  split
  · exact h
  · have hasked := h.log .getDeviceList
    refine getDeviceList_bind (fun _ => hasked) (fun _ => hasked) ?_
    intro entries _
    have hlist := h.getDeviceList .getDeviceList
    set id := (s.log .getDeviceList).events.length
    refine holding_spec (Ensures.bind ((findByName_has _ devName 0 entries _ hlist).mono ?_
      fun _ h => h.elim))
    intro found t ht
    cases found with
    | none => exact ht.release (.refl _) fun q _ => not_dependsOn_deviceList q id
    | some nicIndex =>
        refine (openRdmaDevice_has nicIndex ht).mono ?_ ?_
        · intro r u hu
          have hperm : (heldWith OpenedDevice.resources (.deviceList id :: H) r).Perm
              (.deviceList id :: heldWith OpenedDevice.resources H r) := by
            cases r with
            | none => exact .refl _
            | some o => exact List.perm_middle
          exact hu.release hperm fun q _ => not_dependsOn_deviceList q id
        · intro u hu
          simp only [hu.going]
          exact hu.release (.refl _) fun q _ => not_dependsOn_deviceList q id

end Open

/-! ### Building the instance -/

/-- The connections of a pool. -/
def ConnectionPool.connections (pool : ConnectionPool) : List RcConnection :=
  pool.slots.reduceOption

/-- What an instance owns. -/
def Instance.resources (inst : Instance) : List Resource :=
  stockResources inst.device.handles inst.pool.connections ++
    (inst.tokenConn.resources inst.device.handles ++ inst.device.resources)

/-- A complete instance: its token connection and exactly `maxTransfers`
connections of the pool, all in INIT. -/
structure Instance.Complete (inst : Instance) (maxTransfers : Nat) : Prop where
  tokenConn : inst.tokenConn.qp.state = .INIT
  slots : inst.pool.slots.length = maxTransfers
  size : inst.pool.live = maxTransfers
  connection : ∀ index, index < maxTransfers →
    ∃ conn, inst.pool.connection index = some conn ∧ conn.qp.state = .INIT

/-- The objects of an instance are in the log, the token connection's first. -/
structure Instance.LoggedIn (inst : Instance) (log : List VerbsCall) : Prop where
  tokenConn : inst.tokenConn.MadeIn log
  pool : Stock (inst.tokenConn.cq.id + 1) log inst.pool.connections

section Build

variable {P : Platform} {H : List Resource} {s : Session} {d : Handles}

theorem guarding_spec {α : Type} {Q : Option α → Session → Prop} {E : Session → Prop}
    {cleanup : PlatformM Unit} {x : PlatformM (Option α)}
    (h : Ensures x s (fun a t => Q a (if a.isSome then t else finalState (cleanup t)))
      (fun t => E (if t.diverged then t else finalState (cleanup t)))) :
    Ensures (guarding cleanup x) s Q E := by
  unfold Ensures guarding at *
  cases hx : x s with
  | ok a t =>
      rw [hx] at h
      cases a with
      | none => exact h
      | some a => exact h
  | error e t =>
      rw [hx] at h
      exact h

theorem destroyDevice_has (o : OpenedDevice) (h : s.Has o.resources) :
    (finalState (destroyDevice o s)).Has [] := by
  have hpd : (s.release (.pd o.pd o.context.id)).Has [.context o.context.id] := by
    refine h.release (.refl _) ?_
    intro q hq hon
    rw [List.mem_singleton.mp hq] at hon
    cases hon
  exact hpd.release (.refl _) (by simp)

/-- Destroying connections gives back what they hold. -/
theorem destroyConnections_has {n : Nat} (conns : List RcConnection)
    (h : s.Has (stockResources d conns ++ H)) (hstock : Stock n s.verbsLog conns)
    (hfree : ∀ conn ∈ conns, ∀ r ∈ H, ¬DependsOn r (.cq conn.cq.id d)) :
    Ensures (onVerbs d (conns.forM destroyConnection)) s
      (fun _ t => t.Has H ∧ s.verbsLog <+: t.verbsLog) (fun _ => False) := by
  have hdestroy := destroyConnections_takes (d := d) (H := H) conns
    (⟨s.answers, s.verbsLog, ()⟩ : Env Unit) hstock hfree
  refine (onVerbs_spec (Q := fun _ log H' => H' = H ∧ s.verbsLog <+: log) (E := fun _ _ => False)
    h.holds (hdestroy.mono ?_ fun _ h => h.elim)).mono ?_ ?_
  · rintro _ t ht
    obtain ⟨log, hlog, -, -⟩ := id ht
    exact ⟨H, ht, rfl, log, hlog.symm⟩
  · rintro _ t ⟨H', hholds, hgoing, rfl, hprefix⟩
    exact ⟨⟨hholds, hgoing.trans h.going⟩, hprefix⟩
  · rintro t ⟨-, -, -, hfalse⟩
    exact hfalse

/-- A connection in INIT on top of what is held. -/
theorem createConnection_has (h : s.Has H) (hcontext : .context d.context ∈ H)
    (hpd : .pd d.pd d.context ∈ H) :
    Ensures (onVerbs d ConnectionPool.createConnection) s
      (fun r t => t.Has (heldWith (RcConnection.resources d) H r) ∧
        ∀ conn, r = some conn → conn.MadeIn t.verbsLog ∧ conn.qp.state = .INIT)
      (fun t => t.Has H) := by
  have hcreate := (createRcConnection_takes (⟨s.answers, s.verbsLog, ()⟩ : Env Unit)
    ConnectionPool.kCqSize ConnectionPool.kMaxSendWr ConnectionPool.kMaxRecvWr
    (h.room hcontext hpd)).and (createRcConnection_spec _ _ _)
  refine (onVerbs_spec (Q := fun r log H' => H' = heldWith (RcConnection.resources d) H r ∧
    ∀ conn, r = some conn → conn.MadeIn log ∧ conn.qp.state = .INIT) (E := fun _ H' => H' = H)
    h.holds (hcreate.mono ?_ ?_)).mono ?_ ?_
  · rintro (_ | conn) t ⟨⟨hnone, hsome⟩, -, hinit⟩
    · exact ⟨H, hnone rfl, rfl, by simp⟩
    · obtain ⟨htakes, hmade, -⟩ := hsome conn rfl
      refine ⟨_, htakes, rfl, ?_⟩
      intro conn' hconn'
      cases hconn'
      exact ⟨hmade, (hinit conn rfl).1⟩
  · rintro t ⟨htakes, -⟩
    exact ⟨H, htakes, rfl⟩
  · rintro r t ⟨H', hholds, hgoing, rfl, hconn⟩
    exact ⟨⟨hholds, hgoing.trans h.going⟩, hconn⟩
  · rintro t ⟨H', hholds, hgoing, rfl⟩
    exact ⟨hholds, hgoing.trans h.going⟩

/-- A pool of connections in INIT on top of what is held. -/
theorem createPool_has (count : Nat) (h : s.Has H) (hcontext : .context d.context ∈ H)
    (hpd : .pd d.pd d.context ∈ H) :
    Ensures (onVerbs d (ConnectionPool.create count)) s
      (fun pool t => t.Has (stockResources d pool.connections ++ H) ∧
        Stock s.verbsLog.length t.verbsLog pool.connections ∧ s.verbsLog <+: t.verbsLog ∧
        pool.live = pool.slots.length ∧ ∀ index, index < pool.slots.length →
          ∃ conn, pool.connection index = some conn ∧ conn.qp.state = .INIT)
      (fun t => t.Has H ∧ s.verbsLog <+: t.verbsLog) := by
  have hcreate : Ensures (ConnectionPool.create count) (⟨s.answers, s.verbsLog, ()⟩ : Env Unit)
      (fun pool t => Takes d (⟨s.answers, s.verbsLog, ()⟩ : Env Unit) t H
          (stockResources d pool.connections ++ H) ∧
        Stock s.verbsLog.length t.log pool.connections)
      (fun t => Takes d (⟨s.answers, s.verbsLog, ()⟩ : Env Unit) t H H) := by
    have hloop := createConnections_takes count [] (⟨s.answers, s.verbsLog, ()⟩ : Env Unit)
      (h.room hcontext hpd) ⟨by simp, by simp, by simp⟩ (Nat.le_refl _)
    refine Ensures.bind (hloop.mono ?_ fun _ h => h)
    rintro made t ⟨htakes, hstock⟩
    have hmade : ConnectionPool.connections ⟨made.map some, List.range made.length, count,
        made.length, false, []⟩ = made := by
      change List.filterMap id (made.map some) = made
      rw [List.filterMap_map]
      exact List.filterMap_some
    refine ⟨?_, ?_⟩
    · rw [hmade]
      exact htakes
    · rw [hmade]
      exact hstock
  refine (onVerbs_spec (Q := fun pool log H' => H' = stockResources d pool.connections ++ H ∧
    Stock s.verbsLog.length log pool.connections ∧ s.verbsLog <+: log ∧
    pool.live = pool.slots.length ∧ ∀ index, index < pool.slots.length →
      ∃ conn, pool.connection index = some conn ∧ conn.qp.state = .INIT)
    (E := fun log H' => H' = H ∧ s.verbsLog <+: log)
    h.holds ((hcreate.and (ConnectionPool.create_spec count _)).mono ?_ ?_)).mono ?_ ?_
  · rintro pool t ⟨⟨htakes, hstock⟩, -, hlive, -, -, -, hconns⟩
    obtain ⟨log, hlog, -, -⟩ := id htakes
    refine ⟨_, htakes, rfl, hstock, ⟨log, hlog.symm⟩, hlive, ?_⟩
    intro index hindex
    obtain ⟨conn, hconn, hinit, -⟩ := hconns index hindex
    exact ⟨conn, hconn, hinit⟩
  · rintro t ⟨htakes, -⟩
    obtain ⟨log, hlog, -, -⟩ := id htakes
    exact ⟨H, htakes, rfl, log, hlog.symm⟩
  · rintro pool t ⟨H', hholds, hgoing, rfl, hrest⟩
    exact ⟨⟨hholds, hgoing.trans h.going⟩, hrest⟩
  · rintro t ⟨H', hholds, hgoing, rfl, hprefix⟩
    exact ⟨⟨hholds, hgoing.trans h.going⟩, hprefix⟩

/-- A token connection that goes last, with the pool destroyed before it. -/
theorem destroyTokenConn_has (conn : RcConnection) (o : OpenedDevice)
    (h : s.Has (conn.resources o.handles ++ o.resources)) (hmade : conn.MadeIn s.verbsLog) :
    Ensures (onVerbs o.handles (destroyConnection conn)) s (fun _ t => t.Has o.resources)
      (fun _ => False) := by
  have hstock : Stock conn.cq.id s.verbsLog [conn] := by
    refine ⟨?_, by simp, ?_⟩
    · intro other hother
      rw [List.mem_singleton.mp hother]
      exact hmade
    · intro other hother
      rw [List.mem_singleton.mp hother]
  have hfree : ∀ other ∈ [conn], ∀ r ∈ o.resources,
      ¬DependsOn r (.cq other.cq.id o.handles) := by
    intro other _ r hr hon
    simp only [OpenedDevice.resources, List.mem_cons, List.not_mem_nil, or_false] at hr
    rcases hr with rfl | rfl
    · cases hon
    · cases hon
  exact (destroyConnections_has [conn] h hstock hfree).mono (fun _ _ ht => ht.1) fun _ h => h

/-- The pool's connections do not rest on the token connection's. -/
theorem not_dependsOn_tokenConn {conn : RcConnection} {o : OpenedDevice} {log : List VerbsCall}
    {conns : List RcConnection} (hstock : Stock (conn.cq.id + 1) log conns) :
    ∀ other ∈ conns, ∀ r ∈ conn.resources o.handles ++ o.resources,
      ¬DependsOn r (.cq other.cq.id o.handles) := by
  intro other hother r hr hon
  have hlater := hstock.later other hother
  obtain ⟨id, rfl⟩ := hon.eq_qp
  simp only [RcConnection.resources, OpenedDevice.resources, List.cons_append, List.nil_append,
    List.mem_cons, List.not_mem_nil, or_false, reduceCtorEq, Resource.qp.injEq] at hr
  omega

/-- Building an instance holds what the instance owns, or nothing. -/
theorem buildInstance_has (config : ResolvedConfig) (name : List Byte) (maxTransfers : Nat)
    (lockThrows : Bool) (h : s.Has []) :
    Ensures (buildInstance P config name maxTransfers lockThrows) s
      (fun r t => t.Has (heldWith Instance.resources [] r) ∧
        ∀ inst, r = some inst → inst.Complete maxTransfers ∧ inst.LoggedIn t.verbsLog)
      (fun t => t.Has []) := by
  unfold buildInstance
  refine Ensures.bind ((openRdmaDeviceByName_has name h).mono ?_ fun _ h => h)
  intro opened t ht
  cases opened with
  | none => exact ⟨ht, by simp⟩
  | some o =>
      have ht : t.Has o.resources := by simpa [heldWith] using ht
      have hcontext : .context o.handles.context ∈ o.resources := by
        simp [OpenedDevice.resources, OpenedDevice.handles]
      have hpd : .pd o.handles.pd o.handles.context ∈ o.resources := by
        simp [OpenedDevice.resources, OpenedDevice.handles]
      refine guarding_spec (Ensures.bind ((createConnection_has ht hcontext hpd).mono ?_ ?_))
      · rintro created u ⟨hu, hmade⟩
        cases created with
        | none => exact ⟨destroyDevice_has o hu, by simp⟩
        | some tokenConn =>
            obtain ⟨hmade, hinit⟩ := hmade tokenConn rfl
            -- what is left when the token connection is destroyed is the device
            have htoken : ∀ v : Session, v.Has (tokenConn.resources o.handles ++ o.resources) →
                tokenConn.MadeIn v.verbsLog → (finalState
                  (onVerbs o.handles (destroyConnection tokenConn) v)).Has o.resources := by
              intro v hv hvmade
              exact ((destroyTokenConn_has tokenConn o hv hvmade).mono (fun _ _ h => h)
                fun _ h => h.elim).final
            refine guarding_spec (Ensures.bind ((createPool_has maxTransfers hu
              (List.mem_append_right _ hcontext) (List.mem_append_right _ hpd)).mono ?_ ?_))
            · rintro pool v ⟨hv, hstock, hprefix, hlive, hconns⟩
              have hvmade := hmade.mono hprefix
              have hstock : Stock (tokenConn.cq.id + 1) v.verbsLog pool.connections :=
                ⟨hstock.made, hstock.distinct, fun conn hconn =>
                  Nat.le_trans hmade.cq (hstock.later conn hconn)⟩
              -- the pool's connections are destroyed first
              have hempty : ∀ w : Session, w = v →
                  (finalState (destroyPool o pool w)).Has
                    (tokenConn.resources o.handles ++ o.resources) ∧
                  tokenConn.MadeIn (finalState (destroyPool o pool w)).verbsLog := by
                rintro w rfl
                have hdestroyed := ((destroyConnections_has pool.connections hv hstock
                  (not_dependsOn_tokenConn hstock)).mono (fun _ _ h => h) fun _ h => h.elim).final
                exact ⟨hdestroyed.1, hvmade.mono hdestroyed.2⟩
              obtain ⟨hpool, hpoolMade⟩ := hempty v rfl
              refine guarding_spec ?_
              split
              · exact ⟨destroyDevice_has o (htoken _ hpool hpoolMade), by simp⟩
              · rename_i hsize
                have hsize : pool.live = maxTransfers := by simpa using hsize
                cases lockThrows with
                | true =>
                    simp only [if_true, Ensures.throw_iff, hv.going, Bool.false_eq_true, if_false,
                      hpool.going, (htoken _ hpool hpoolMade).going]
                    exact destroyDevice_has o (htoken _ hpool hpoolMade)
                | false =>
                    refine ⟨hv.perm (by simp [heldWith, Instance.resources]), ?_⟩
                    intro inst hinst
                    cases hinst
                    rw [← hlive, hsize] at hconns
                    exact ⟨⟨hinit, hlive.symm.trans hsize, hsize, hconns⟩, hvmade, hstock⟩
            · rintro v ⟨hv, hprefix⟩
              have hdevice := htoken v hv (hmade.mono hprefix)
              simp only [hv.going, Bool.false_eq_true, if_false, hdevice.going]
              exact destroyDevice_has o hdevice
      · intro u hu
        simp only [hu.going]
        exact destroyDevice_has o hu

end Build

end HipObject
