import HipObject.Library.InitBooks

/-!
# Initialization is all or nothing

For every topology that gives back what it takes, `initWith` publishes a complete
instance, or it leaves the current one as it was and has released whatever it
acquired, once and in the right order. `shutdownInstance` then releases what a
published instance owns.
-/

namespace HipObject

open Codec Verification

/-! ### Topologies -/

/-- A topology: what lists the NICs gives back whatever it acquires, however it
ends. -/
structure NicTopology where
  enumerate : Enumerate
  neat : ∀ (hcaList : List Byte) (s : Session) (H : List Resource), s.Has H →
    Ensures (enumerate hcaList) s (fun _ t => t.Has H) (fun t => t.Has H)

/-- A topology of which only its answers are known: it lists NICs, lists none, or
throws. -/
def NicTopology.answering (answer : List Byte → Acquisition (List NicInfo)) : NicTopology where
  enumerate := fun hcaList s =>
    match answer hcaList with
    | .value nics => .ok nics (s.log (.enumerate hcaList))
    | .fails => .ok [] (s.log (.enumerate hcaList))
    | .throws => .error .thrown (s.log (.enumerate hcaList))
  neat := by
    intro hcaList s H h
    unfold Ensures
    cases answer hcaList with
    | value nics => exact h.log _
    | fails => exact h.log _
    | throws => exact h.log _

section Sysfs

variable {P : Platform} {H : List Resource}

/-- With fewer than 255 ports the port loop ends, whatever the answers are. -/
theorem portLoop_has (ctx : Context) (cnt : BitVec 8) (hcnt : cnt ≠ 255) (fuel k : Nat)
    (s : Session) (hk : k ≤ 255) (hfuel : cnt.toNat + 1 - k < fuel) (h : s.Has H) :
    Ensures (portLoop P ctx cnt fuel (BitVec.ofNat 8 k)) s (fun _ t => t.Has H)
      (fun _ => False) := by
  induction fuel generalizing k s with
  | zero => omega
  | succ fuel ih =>
      rw [portLoop]
      split
      · rename_i hle
        rw [ofNat_le_iff hk] at hle
        have hlt : k < 255 := by
          have hcnt' : cnt.toNat ≠ 255 := fun heq => hcnt (BitVec.eq_of_toNat_eq heq)
          have := cnt.isLt
          omega
        have hnext := ih (k + 1) (s.log (.queryPort ctx (BitVec.ofNat 8 k))) (by omega) (by omega)
          (h.log _)
        rw [← ofNat_succ] at hnext
        refine query_bind ?_
        cases P.queryPort ctx.device (BitVec.ofNat 8 k) _ with
        | none => exact hnext
        | some attr =>
            cases hactive : attr.state.isActive with
            | true =>
                simp only [hactive, if_true]
                exact h.log _
            | false =>
                simp only [hactive]
                exact hnext
      · exact h

theorem enumerateDevice_has (hports : ∀ dev attr, P.queryDevice dev = some attr →
    attr.physPortCnt ≠ 255) (hcaList : List Byte) (dev : Device) (s : Session) (h : s.Has H) :
    Ensures (enumerateDevice P 257 hcaList dev) s (fun _ t => t.Has H) (fun t => t.Has H) := by
  unfold enumerateDevice
  refine query_bind ?_
  have hnamed := h.log (.getDeviceName dev)
  cases dev.name with
  | none => exact hnamed
  | some name =>
      cases hallows : allows hcaList name with
      | false =>
          simp only [hallows, Bool.not_false, if_true]
          exact hnamed
      | true =>
          simp only [hallows, Bool.not_true, Bool.false_eq_true, if_false]
          have hasked := hnamed.log (.openDevice dev)
          refine acquire_bind (fun _ => hasked) (fun _ => hasked) ?_
          intro _ _
          set u := (s.log (.getDeviceName dev)).log (.openDevice dev)
          have hfree : ∀ q ∈ H, ¬DependsOn q (.context u.events.length) :=
            hasked.holds.not_dependsOn (Nat.lt_irrefl _)
          have hopened : (u.acquire (.context u.events.length)).Has
              (.context u.events.length :: H) := by
            refine hasked.acquire ?_ (Nat.lt_succ_self _) (Nat.lt_irrefl _)
            intro p hp
            cases hp
          have hqueried := hopened.log (.queryDevice ⟨u.events.length, dev⟩)
          refine holding_spec (query_bind ?_)
          cases hattr : P.queryDevice dev with
          | none => exact hqueried.release (.refl _) hfree
          | some attr =>
              have hlt := attr.physPortCnt.isLt
              refine Ensures.bind ((portLoop_has ⟨u.events.length, dev⟩ attr.physPortCnt
                (hports dev attr hattr) 257 1 _ (by omega) (by omega) hqueried).mono ?_
                  fun _ h => h.elim)
              intro port t ht
              have hclosed := ht.release (.refl _) hfree
              cases port with
              | none => exact hclosed
              | some p => exact hclosed

theorem enumerateLoop_has (hports : ∀ dev attr, P.queryDevice dev = some attr →
    attr.physPortCnt ≠ 255) (hcaList : List Byte) (devs : List Device) (result : List NicInfo)
    (s : Session) (h : s.Has H) :
    Ensures (enumerateLoop P 257 hcaList devs result) s (fun _ t => t.Has H)
      (fun t => t.Has H) := by
  induction devs generalizing result s with
  | nil => exact h
  | cons dev rest ih =>
      refine Ensures.bind ((enumerateDevice_has hports hcaList dev s h).mono ?_ fun _ h => h)
      intro found t ht
      exact ih _ t ht

/-- `SysfsTopology`, on a platform where no device reports 255 ports. -/
def NicTopology.sysfs (P : Platform) (hports : ∀ dev attr, P.queryDevice dev = some attr →
    attr.physPortCnt ≠ 255) : NicTopology where
  enumerate := HipObject.enumerate P 257
  neat := by
    intro hcaList s H h
    unfold HipObject.enumerate
    have hasked := h.log .getDeviceList
    refine getDeviceList_bind (fun _ => hasked) (fun _ => hasked) ?_
    intro entries _
    have hlist := h.getDeviceList .getDeviceList
    refine holding_spec ((enumerateLoop_has hports hcaList _ [] _ hlist).mono ?_ ?_)
    · intro _ t ht
      exact ht.release (.refl _) fun q _ => not_dependsOn_deviceList q _
    · intro t ht
      simp only [ht.going]
      exact ht.release (.refl _) fun q _ => not_dependsOn_deviceList q _

end Sysfs

/-! ### `initWith` -/

section Init

variable {P : Platform} {H : List Resource}

/-- Code on the session leaves the current instance alone. -/
theorem onSession_spec {α : Type} {x : PlatformM α} (lib : Library)
    {Q : α → Session → Prop} {E : Session → Prop} (h : Ensures x lib.session Q E) :
    Ensures (onSession x) lib (fun a l => Q a l.session ∧ l.current = lib.current)
      (fun l => E l.session ∧ l.current = lib.current) := by
  unfold Ensures onSession at *
  cases hx : x lib.session with
  | ok a t =>
      rw [hx] at h
      exact ⟨h, rfl⟩
  | error e t =>
      rw [hx] at h
      exact ⟨h, rfl⟩

/-- Finding the GPU holds nothing, and an error it finds is an error. -/
theorem resolveGpu_has (config : Config) {s : Session} (h : s.Has H) :
    Ensures (resolveGpu P config) s
      (fun r t => t.Has H ∧ ∀ err, r = .error err → err.opError ≠ .Success)
      (fun _ => False) := by
  unfold resolveGpu
  split
  · refine query_bind ?_
    have hlog := h.log .getDevice
    cases P.getDevice with
    | ok gpuDevice => exact ⟨hlog, by simp⟩
    | error err =>
        refine Ensures.ite (fun _ => ?_) (fun _ => ?_)
        · exact ⟨hlog, by simp [makeError]⟩
        · exact ⟨hlog, by simp⟩
  · refine query_bind ?_
    have hlog := h.log .getDeviceCount
    cases P.getDeviceCount with
    | ok deviceCount =>
        refine Ensures.ite (fun _ => ?_) (fun _ => ?_)
        · exact ⟨hlog, by simp [makeError]⟩
        · exact ⟨hlog, by simp⟩
    | error err =>
        refine Ensures.ite (fun _ => ?_) (fun _ => ?_)
        · exact ⟨hlog, by simp [makeError]⟩
        · exact ⟨hlog, by simp [makeError]⟩

theorem chooseNic_has (topology : NicTopology) (gpuDevice : Int) (nicHint : List Byte)
    {s : Session} (h : s.Has H) :
    Ensures (chooseNic P topology.enumerate gpuDevice nicHint) s (fun _ t => t.Has H)
      (fun t => t.Has H) := by
  unfold chooseNic
  have hnic : Ensures (if gpuDevice ≥ 0 then
      getClosestNicToGpu P topology.enumerate gpuDevice nicHint else pure none) s
      (fun _ t => t.Has H) (fun t => t.Has H) := by
    split
    · unfold getClosestNicToGpu
      refine query_bind ?_
      have hlog := h.log (.deviceGetPCIBusId gpuDevice)
      cases P.deviceGetPCIBusId gpuDevice with
      | none => exact hlog
      | some gpuBus =>
          exact Ensures.bind ((topology.neat nicHint _ H hlog).mono (fun _ _ ht => ht)
            fun _ h => h)
    · exact h
  refine Ensures.bind (hnic.mono ?_ fun _ h => h)
  intro nic t ht
  cases nic with
  | some nic => exact ht
  | none =>
      cases nicHint.isEmpty with
      | true => exact ht
      | false => exact ht

/-- Either a complete instance is built, or nothing is held. -/
theorem startInstance_has (topology : NicTopology) (config : Config) (maxTransfers : Nat)
    (lockThrows : Bool) {s : Session} (h : s.Has []) :
    Ensures (startInstance P topology.enumerate config maxTransfers lockThrows) s
      (fun r t =>
        (∀ inst, r = .ok inst → inst.Complete maxTransfers ∧ inst.LoggedIn t.verbsLog ∧
          t.Has inst.resources) ∧
        ∀ err, r = .error err → err.opError ≠ .Success ∧ t.Has [])
      (fun t => t.Has []) := by
  unfold startInstance
  refine Ensures.bind ((resolveGpu_has config h).mono ?_ fun _ h => h.elim)
  rintro resolved s₁ ⟨h₁, herr⟩
  cases resolved with
  | error err =>
      refine ⟨by simp, ?_⟩
      intro err' heq
      cases heq
      exact ⟨herr err rfl, h₁⟩
  | ok gpuDevice =>
      refine Ensures.bind ((chooseNic_has topology gpuDevice config.nicHint h₁).mono ?_
        fun _ h => h)
      intro nic s₂ h₂
      cases nic with
      | none => exact ⟨by simp, by simpa [makeError] using h₂⟩
      | some nic =>
          refine Ensures.bind ((buildInstance_has ⟨gpuDevice, config.nicHint, nic.index⟩ nic.name
            maxTransfers lockThrows h₂).mono ?_ fun _ h => h)
          rintro built s₃ ⟨h₃, hbuilt⟩
          cases built with
          | none => exact ⟨by simp, by simpa [makeError, heldWith] using h₃⟩
          | some inst =>
              obtain ⟨hcomplete, hlogged⟩ := hbuilt inst rfl
              refine ⟨?_, by simp⟩
              intro inst' heq
              cases heq
              exact ⟨hcomplete, hlogged, h₃.perm (by simp [heldWith])⟩

/-- `initWith` asks for the current instance, starts one if there is none, and
publishes it. -/
theorem initWith_eq (enumerate : Enumerate) (config : Config) (maxTransfers : Nat)
    (lockThrows : Bool) (lib : Library) :
    initWith P enumerate config maxTransfers lockThrows lib =
      if lib.current.isSome then .ok (makeError .AlreadyInitialized 0) lib
      else match startInstance P enumerate config maxTransfers lockThrows lib.session with
        | .ok (.ok inst) t => .ok (makeError .Success 0) ⟨t, some inst⟩
        | .ok (.error err) t => .ok err { lib with session := t }
        | .error e t => .error e { lib with session := t } := by
  have hbind {σ α β : Type} (x : EStateM Thrown σ α) (f : α → EStateM Thrown σ β) (s : σ) :
      (x >>= f) s = match x s with
        | .ok a t => f a t
        | .error e t => .error e t := by
    change EStateM.bind x f s = _
    unfold EStateM.bind
    cases x s with
    | ok a t => rfl
    | error e t => rfl
  have hget (f : Library → LibraryM HipObjError) : (get >>= f) lib = f lib lib := rfl
  unfold initWith
  rw [hget]
  cases hcur : lib.current.isSome with
  | true => rfl
  | false =>
      -- both programs make the same calls, one of them on the library's session
      simp only [Bool.false_eq_true, if_false, startInstance, hbind, onSession]
      cases hgpu : resolveGpu P config lib.session with
      | error e t => rfl
      | ok resolved t =>
          cases resolved with
          | error err => rfl
          | ok gpuDevice =>
              simp only [hbind, onSession]
              cases hnic : chooseNic P enumerate gpuDevice config.nicHint t with
              | error e u => rfl
              | ok nic u =>
                  cases nic with
                  | none => rfl
                  | some nic =>
                      simp only [hbind, onSession]
                      cases hbuilt : buildInstance P ⟨gpuDevice, config.nicHint, nic.index⟩
                          nic.name maxTransfers lockThrows u with
                      | error e v => rfl
                      | ok built v =>
                          cases built with
                          | none => rfl
                          | some inst => rfl

/-- Either a complete instance is published, or nothing has changed and nothing
is held. -/
theorem initWith_spec (topology : NicTopology) (config : Config) (maxTransfers : Nat)
    (lockThrows : Bool) (lib : Library) (h : lib.session.Has []) :
    Ensures (initWith P topology.enumerate config maxTransfers lockThrows) lib
      (fun err l =>
        (err.opError = .Success ∧ ∃ inst, l.current = some inst ∧
          inst.Complete maxTransfers ∧ inst.LoggedIn l.session.verbsLog ∧
          l.session.Has inst.resources) ∨
        (err.opError ≠ .Success ∧ l.current = lib.current ∧ l.session.Has []))
      (fun l => l.current = lib.current ∧ l.session.Has []) := by
  have hstart := startInstance_has topology config maxTransfers lockThrows h (P := P)
  unfold Ensures
  rw [initWith_eq]
  cases hcur : lib.current.isSome with
  | true => exact .inr ⟨by simp [makeError], rfl, h⟩
  | false =>
      cases hrun : startInstance P topology.enumerate config maxTransfers lockThrows
          lib.session with
      | error e t => exact ⟨rfl, hstart.error hrun⟩
      | ok r t =>
          obtain ⟨hok, herror⟩ := hstart.ok hrun
          cases r with
          | error err => exact .inr ⟨(herror err rfl).1, rfl, (herror err rfl).2⟩
          | ok inst => exact .inl ⟨rfl, inst, rfl, hok inst rfl⟩

/-- Destroying an instance gives back what it owns. -/
theorem destroyInstance_has (inst : Instance) {s : Session} (h : s.Has inst.resources)
    (hlogged : inst.LoggedIn s.verbsLog) :
    Ensures (destroyInstance inst) s (fun _ t => t.Has []) (fun _ => False) := by
  unfold destroyInstance destroyPool
  refine Ensures.bind ((destroyConnections_has inst.pool.connections h hlogged.pool
    (not_dependsOn_tokenConn hlogged.pool)).mono ?_ fun _ h => h)
  rintro _ t ⟨ht, hprefix⟩
  refine Ensures.bind ((destroyTokenConn_has inst.tokenConn inst.device ht
    (hlogged.tokenConn.mono hprefix)).mono ?_ fun _ h => h)
  intro _ u hu
  exact destroyDevice_has inst.device hu

theorem shutdownInstance_spec (inst : Instance) (lib : Library) (hcur : lib.current = some inst)
    (h : lib.session.Has inst.resources) (hlogged : inst.LoggedIn lib.session.verbsLog) :
    Ensures shutdownInstance lib (fun _ l => l.current = none ∧ l.session.Has [])
      (fun _ => False) := by
  obtain ⟨session, current⟩ := lib
  obtain rfl : current = some inst := hcur
  unfold shutdownInstance
  refine Ensures.get_bind (Ensures.bind ?_)
  refine (onSession_spec ⟨session, none⟩ (destroyInstance_has inst h hlogged)).mono ?_ ?_
  · rintro _ l ⟨hl, hcurrent⟩
    exact ⟨hcurrent, hl⟩
  · rintro l ⟨hfalse, -⟩
    exact hfalse

/-- `initWith` publishes a complete instance that owns exactly what was acquired
and not released, and that `shutdownInstance` gives back; or it leaves the
current instance as it was, and everything it acquired was released once, and
before whatever it rests on. -/
theorem initWith_allOrNothing (P : Platform) (topology : NicTopology) (config : Config)
    (maxTransfers : Nat) (lockThrows : Bool) (answers : List Answer)
    (current : Option Instance) :
    Ensures (initWith P topology.enumerate config maxTransfers lockThrows)
      ⟨.start answers, current⟩
      (fun err lib =>
        (err.opError = .Success ∧ ∃ inst, lib.current = some inst ∧
          inst.Complete maxTransfers ∧
          (∀ r, .acquired r ∈ lib.session.events ∧ .released r ∉ lib.session.events ↔
            r ∈ inst.resources) ∧
          Ensures shutdownInstance lib
            (fun _ lib' => lib'.current = none ∧ Unwound DependsOn lib'.session.events)
            (fun _ => False)) ∨
        (err.opError ≠ .Success ∧ lib.current = current ∧
          Unwound DependsOn lib.session.events))
      (fun lib => lib.current = current ∧ Unwound DependsOn lib.session.events) := by
  refine (initWith_spec topology config maxTransfers lockThrows _ ⟨.start answers, rfl⟩).mono ?_ ?_
  · rintro err lib (⟨hok, inst, hcur, hcomplete, hlogged, hhas⟩ | ⟨hfailed, hcur, hhas⟩)
    · refine .inl ⟨hok, inst, hcur, hcomplete, hhas.holds.live_iff, ?_⟩
      refine (shutdownInstance_spec inst lib hcur hhas hlogged).mono ?_ fun _ h => h
      rintro _ lib' ⟨hnone, hhas'⟩
      exact ⟨hnone, hhas'.holds.unwound⟩
    · exact .inr ⟨hfailed, hcur, hhas.holds.unwound⟩
  · rintro lib ⟨hcur, hhas⟩
    exact ⟨hcur, hhas.holds.unwound⟩

end Init

end HipObject
