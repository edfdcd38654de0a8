import HipObject.Topology.Enumerate

/-!
# What enumerating devices does

One device after the other: `Tidy` is what holds between two of them. A device
whose ports are left in time is reported as it should be, and one that is `Stuck`
makes the run ask for port 0 or go on for ever. `Enumerates` collects what a run
of `enumerate` should do, and the last theorem says for which platforms it does.
-/

namespace HipObject

open Codec Verification

/-! ### One device -/

/-- A device that the loop over its ports does not leave in time. -/
def Stuck (P : Platform) (hcaList : List Byte) (dev : Device) : Prop :=
  wanted hcaList dev = true ∧ P.openDevice dev = .value () ∧
    ∃ attr, P.queryDevice dev = some attr ∧ attr.physPortCnt = 255 ∧
      ∀ p ∈ portsFrom 1 255, P.portActive dev p = false

/-- A wanted device whose `open_device` throws. -/
def throwsAt (P : Platform) (hcaList : List Byte) (dev : Device) : Bool :=
  wanted hcaList dev && (P.openDevice dev).isThrow

/-- A session in which the devices before position `pos` have been dealt with. -/
structure Tidy (P : Platform) (H : List Resource) (pos : Nat) (s : Session) : Prop where
  holds : s.Holds H
  going : s.diverged = false
  earlier : ∀ ctx p, .call (.queryPort ctx p) ∈ s.events → ctx.device.position < pos
  asks : ∀ dev, portQueries dev s.events <+: P.ports dev

namespace Tidy

variable {P : Platform} {H : List Resource} {pos : Nat} {s : Session}

theorem start (answers : List Answer) : Tidy P [] 0 (Session.start answers) where
  holds := .start answers
  going := rfl
  earlier := by simp [Session.start]
  asks := fun _ => List.nil_prefix

theorem mono (h : Tidy P H pos s) {pos' : Nat} (hle : pos ≤ pos') : Tidy P H pos' s where
  holds := h.holds
  going := h.going
  earlier := fun ctx p hmem => Nat.lt_of_lt_of_le (h.earlier ctx p hmem) hle
  asks := h.asks

/-- A trace that does not query ports adds nothing to the queries. -/
theorem portQueries_append_of_forall {dev : Device} {tr tr' : List (Event PlatformCall Resource)}
    (h : ∀ ctx p, .call (.queryPort ctx p) ∈ tr' → ctx.device ≠ dev) :
    portQueries dev (tr ++ tr') = portQueries dev tr := by
  have hnil : portQueries dev tr' = [] := by
    unfold portQueries
    rw [List.filterMap_eq_nil_iff]
    intro e he
    split
    · rename_i ctx p
      exact if_neg (h ctx p he)
    · rfl
  unfold portQueries at hnil ⊢
  rw [List.filterMap_append, hnil, List.append_nil]

/-- An event that is not the query of a port. -/
theorem event {H' : List Resource} {t : Session} {e : Event PlatformCall Resource}
    (h : Tidy P H pos s) (hevents : t.events = s.events ++ [e])
    (he : ∀ ctx p, e ≠ .call (.queryPort ctx p)) (hgoing : t.diverged = s.diverged)
    (hholds : t.Holds H') : Tidy P H' pos t where
  holds := hholds
  going := hgoing.trans h.going
  earlier := by
    intro ctx p hmem
    rw [hevents, List.mem_append, List.mem_singleton] at hmem
    rcases hmem with hmem | hmem
    · exact h.earlier ctx p hmem
    · exact absurd hmem.symm (he ctx p)
  asks := by
    intro dev
    rw [hevents, portQueries_append_of_forall]
    · exact h.asks dev
    · intro ctx p hmem
      exact absurd (List.mem_singleton.mp hmem).symm (he ctx p)

theorem log (h : Tidy P H pos s) (c : PlatformCall) (hc : ∀ ctx p, c ≠ .queryPort ctx p) :
    Tidy P H pos (s.log c) := by
  refine h.event rfl ?_ rfl (h.holds.log c)
  intro ctx p heq
  cases heq
  exact hc ctx p rfl

/-- The ports of one device, which was not asked about before. -/
theorem logs (h : Tidy P H pos s) (ctx : Context) (hpos : ctx.device.position = pos)
    {asked : List (BitVec 8)} (hasked : asked <+: P.ports ctx.device) :
    Tidy P H (pos + 1) (s.logs (asked.map (.queryPort ctx))) where
  holds := by
    refine h.holds.extend rfl (Nat.le_refl _) ?_ ?_ (by simp)
    · induction asked.map (PlatformCall.queryPort ctx) with
      | nil => exact .refl H
      | cons c cs ih => exact .call c ih
    · intro r
      rw [List.count_eq_zero.mpr (by simp)]
      exact Nat.zero_le 1
  going := h.going
  earlier := by
    intro c p hmem
    simp only [Session.logs, List.mem_append, List.mem_map] at hmem
    rcases hmem with hmem | ⟨-, ⟨q, -, rfl⟩, hcall⟩
    · exact Nat.lt_succ_of_lt (h.earlier c p hmem)
    · cases hcall
      omega
  asks := by
    intro dev
    by_cases hdev : ctx.device = dev
    · -- nothing was asked about this device before
      have hbefore : portQueries dev s.events = [] := by
        unfold portQueries
        rw [List.filterMap_eq_nil_iff]
        intro e he
        split
        · rename_i c p
          have hlt := h.earlier c p he
          rw [if_neg]
          rintro rfl
          rw [← hdev, hpos] at hlt
          exact Nat.lt_irrefl _ hlt
        · rfl
      have hnow : portQueries dev ((asked.map (PlatformCall.queryPort ctx)).map .call) =
          asked := by
        unfold portQueries
        rw [List.map_map, List.filterMap_map]
        simp only [Function.comp_def, hdev, if_true]
        exact List.filterMap_some
      unfold portQueries at hbefore hnow ⊢
      simp only [Session.logs, List.filterMap_append]
      rw [hbefore, hnow, List.nil_append, ← hdev]
      exact hasked
    · simp only [Session.logs]
      rw [portQueries_append_of_forall]
      · exact h.asks dev
      · intro c p hmem
        simp only [List.mem_map] at hmem
        obtain ⟨-, ⟨q, -, rfl⟩, hcall⟩ := hmem
        cases hcall
        exact hdev

/-- Nothing was asked about a device at the current position. -/
theorem count_queryPort (h : Tidy P H pos s) {ctx : Context} (hpos : ctx.device.position = pos)
    (p : BitVec 8) : s.count (.queryPort ctx p) = 0 := by
  apply List.count_eq_zero.mpr
  intro hmem
  have hlt := h.earlier ctx p hmem
  rw [hpos] at hlt
  exact Nat.lt_irrefl _ hlt

/-- Opening and closing a context of its own leaves a session tidy. -/
theorem openContext (h : Tidy P H pos s) (id : Nat) (hid : id = s.events.length) :
    Tidy P (.context id :: H) pos (s.acquire (.context id)) := by
  subst hid
  refine h.event rfl (by simp) rfl (h.holds.acquire ?_ ?_ ?_)
  · intro p hp
    cases hp
  · exact Nat.lt_succ_self _
  · exact Nat.lt_irrefl _

theorem closeContext {id : Nat} (h : Tidy P (.context id :: H) pos s)
    (hfree : ∀ q ∈ H, ¬DependsOn q (.context id)) : Tidy P H pos (s.release (.context id)) :=
  h.event rfl (by simp) rfl (h.holds.release (.refl _) hfree)

end Tidy

section Devices

variable {P : Platform} {H : List Resource} {pos fuel : Nat} {s : Session}
variable {hcaList : List Byte} {dev : Device}

/-- A device whose ports the loop leaves in time is reported as it should be. -/
theorem enumerateDevice_spec (h : Tidy P H pos s) (hpos : dev.position = pos)
    (hfuel : 256 < fuel) (hfine : ¬Stuck P hcaList dev) :
    Ensures (enumerateDevice P fuel hcaList dev) s
      (fun found t => found = reportOf P hcaList dev ∧ throwsAt P hcaList dev = false ∧
        Tidy P H (pos + 1) t)
      (fun t => throwsAt P hcaList dev = true ∧ Tidy P H (pos + 1) t) := by
  unfold enumerateDevice
  refine query_bind ?_
  have hnamed := h.log (.getDeviceName dev) (by simp)
  cases hname : dev.name with
  | none =>
      refine ⟨?_, ?_, hnamed.mono (Nat.le_succ pos)⟩
      · simp [reportOf, hname]
      · simp [throwsAt, wanted, hname]
  | some name =>
      cases hallows : allows hcaList name with
      | false =>
          simp only [hallows, Bool.not_false, if_true]
          refine ⟨?_, ?_, hnamed.mono (Nat.le_succ pos)⟩
          · cases hopen : P.openDevice dev <;> simp [reportOf, hname, hallows, hopen]
          · simp [throwsAt, wanted, hname, hallows]
      | true =>
          have hwanted : wanted hcaList dev = true := by simp [wanted, hname, hallows]
          simp only [hallows, Bool.not_true, Bool.false_eq_true, if_false]
          have hasked := hnamed.log (.openDevice dev) (by simp)
          refine acquire_bind ?_ ?_ ?_
          · intro hopen
            refine ⟨?_, hasked.mono (Nat.le_succ pos)⟩
            simp [throwsAt, hwanted, hopen, Acquisition.isThrow]
          · intro hopen
            refine ⟨?_, ?_, hasked.mono (Nat.le_succ pos)⟩
            · simp [reportOf, hname, hopen]
            · simp [throwsAt, hopen, Acquisition.isThrow]
          · intro _ hopen
            have hcalm : throwsAt P hcaList dev = false := by
              simp [throwsAt, hopen, Acquisition.isThrow]
            set id := ((s.log (.getDeviceName dev)).log (.openDevice dev)).events.length with hid
            have hopened := hasked.openContext id rfl
            have hfree : ∀ q ∈ H, ¬DependsOn q (.context id) :=
              hasked.holds.not_dependsOn (Nat.lt_irrefl _)
            have hqueried := hopened.log (.queryDevice ⟨id, dev⟩) (by simp)
            refine holding_spec (query_bind ?_)
            cases hattr : P.queryDevice dev with
            | none =>
                refine ⟨?_, hcalm, (hqueried.mono (Nat.le_succ pos)).closeContext hfree⟩
                simp [reportOf, hname, hopen, hallows, Platform.ports, hattr]
            | some attr =>
                have hends : attr.physPortCnt = 255 →
                    ∃ p ∈ portsFrom 1 attr.physPortCnt, P.portActive dev p = true := by
                  intro hcnt
                  by_contra hnone
                  refine hfine ⟨hwanted, hopen, attr, hattr, hcnt, ?_⟩
                  intro p hp
                  rw [← hcnt] at hp
                  cases hactive : P.portActive dev p with
                  | false => rfl
                  | true => exact absurd ⟨p, hp, hactive⟩ hnone
                have hcnt := attr.physPortCnt.isLt
                obtain ⟨asked, hprefix, hrun⟩ := portLoop_spec P ⟨id, dev⟩ attr.physPortCnt fuel 1
                  _ (by omega) (by omega) (fun p _ => hqueried.count_queryPort hpos p) hends
                have hports : P.ports dev = portsFrom 1 attr.physPortCnt := by
                  simp [Platform.ports, hattr]
                have hasked : asked <+: P.ports dev := hports.symm ▸ hprefix
                have hdone := (hqueried.logs ⟨id, dev⟩ hpos hasked).closeContext hfree
                refine Ensures.bind_ok hrun ?_
                have hreport : reportOf P hcaList dev = ((portsFrom 1 attr.physPortCnt).find?
                    (P.portActive dev)).map (nicInfo P dev name) := by
                  simp [reportOf, hname, hopen, hallows, hports]
                rw [hreport]
                cases (portsFrom 1 attr.physPortCnt).find? (P.portActive dev) with
                | none => exact ⟨rfl, hcalm, hdone⟩
                | some p => exact ⟨rfl, hcalm, hdone⟩

/-- The trace of `t` goes on from that of `s`, and asks only for ports of `dev`. -/
def Continues (dev : Device) (s t : Session) : Prop :=
  ∃ tr, t.events = s.events ++ tr ∧
    ∀ ctx p, .call (.queryPort ctx p) ∈ tr → ctx.device = dev

theorem Continues.refl (dev : Device) (s : Session) : Continues dev s s :=
  ⟨[], (List.append_nil _).symm, by simp⟩

theorem Continues.append {t u : Session} {tr : List (Event PlatformCall Resource)}
    (h : Continues dev s t) (hevents : u.events = t.events ++ tr)
    (htr : ∀ ctx p, .call (.queryPort ctx p) ∈ tr → ctx.device = dev) : Continues dev s u := by
  obtain ⟨tr₀, ht, htr₀⟩ := h
  refine ⟨tr₀ ++ tr, by rw [hevents, ht, List.append_assoc], ?_⟩
  intro ctx p hmem
  rcases List.mem_append.mp hmem with hmem | hmem
  · exact htr₀ ctx p hmem
  · exact htr ctx p hmem

theorem Continues.earlier {t : Session} (h : Continues dev s t)
    (hearlier : ∀ ctx p, .call (.queryPort ctx p) ∈ s.events → ctx.device.position < pos)
    (hpos : dev.position = pos) :
    ∀ ctx p, .call (.queryPort ctx p) ∈ t.events → ctx.device.position < pos + 1 := by
  obtain ⟨tr, ht, htr⟩ := h
  intro ctx p hmem
  rw [ht] at hmem
  rcases List.mem_append.mp hmem with hmem | hmem
  · exact Nat.lt_succ_of_lt (hearlier ctx p hmem)
  · rw [htr ctx p hmem, hpos]
    exact Nat.lt_succ_self pos

/-- With any fuel, and whatever the device is: ports are asked for on this device
only, and an exception is one of `open_device`. -/
theorem enumerateDevice_continues (P : Platform) (fuel : Nat) (hcaList : List Byte)
    (dev : Device) (s : Session) :
    Ensures (enumerateDevice P fuel hcaList dev) s (fun _ t => Continues dev s t)
      (fun t => Continues dev s t ∧ (t.diverged = true ∨ throwsAt P hcaList dev = true)) := by
  unfold enumerateDevice
  refine query_bind ?_
  have hnamed : Continues dev s (s.log (.getDeviceName dev)) :=
    (Continues.refl dev s).append rfl (by simp)
  cases hname : dev.name with
  | none => exact hnamed
  | some name =>
      cases hallows : allows hcaList name with
      | false =>
          simp only [hallows, Bool.not_false, if_true]
          exact hnamed
      | true =>
          simp only [hallows, Bool.not_true, Bool.false_eq_true, if_false]
          have hasked : Continues dev s ((s.log (.getDeviceName dev)).log (.openDevice dev)) :=
            hnamed.append rfl (by simp)
          refine acquire_bind ?_ (fun _ => hasked) ?_
          · intro hopen
            refine ⟨hasked, .inr ?_⟩
            simp [throwsAt, wanted, hname, hallows, hopen, Acquisition.isThrow]
          · intro _ _
            set u := (s.log (.getDeviceName dev)).log (.openDevice dev)
            have hopened : Continues dev s (u.acquire (.context u.events.length)) :=
              hasked.append rfl (by simp)
            have hqueried : Continues dev s ((u.acquire (.context u.events.length)).log
                (.queryDevice ⟨u.events.length, dev⟩)) := hopened.append rfl (by simp)
            refine holding_spec (query_bind ?_)
            cases P.queryDevice dev with
            | none => exact hqueried.append rfl (by simp)
            | some attr =>
                have hports : ∀ asked : List (BitVec 8), ∀ ctx p, .call (.queryPort ctx p) ∈
                    asked.map (fun p => Event.call (PlatformCall.queryPort
                      ⟨u.events.length, dev⟩ p) (ρ := Resource)) → ctx.device = dev := by
                  intro asked ctx p hmem
                  obtain ⟨q, -, hq⟩ := List.mem_map.mp hmem
                  cases hq
                  rfl
                refine Ensures.bind ((portLoop_asks P ⟨u.events.length, dev⟩ _ fuel 1 _).mono ?_ ?_)
                · rintro port t ⟨asked, hevents⟩
                  have hdone : Continues dev s (t.release (.context u.events.length)) :=
                    (hqueried.append hevents (hports asked)).append rfl (by simp)
                  cases port with
                  | none => exact hdone
                  | some p => exact hdone
                · rintro t ⟨hdiverged, asked, hevents⟩
                  simp only [hdiverged, if_true]
                  exact ⟨hqueried.append hevents (hports asked), .inl trivial⟩

/-- A device that is stuck makes the run ask for port 0, or go on for ever. -/
theorem enumerateDevice_stuck (hpos : dev.position = pos)
    (hearlier : ∀ ctx p, .call (.queryPort ctx p) ∈ s.events → ctx.device.position < pos)
    (hstuck : Stuck P hcaList dev) :
    Ensures (enumerateDevice P fuel hcaList dev) s
      (fun _ t => ∃ ctx, .call (.queryPort ctx 0) ∈ t.events) (fun t => t.diverged = true) := by
  obtain ⟨hwanted, hopen, attr, hattr, hcnt, hnone⟩ := hstuck
  unfold enumerateDevice
  refine query_bind ?_
  cases hname : dev.name with
  | none => simp [wanted, hname] at hwanted
  | some name =>
      have hallows : allows hcaList name = true := by simpa [wanted, hname] using hwanted
      simp only [hallows, Bool.not_true, Bool.false_eq_true, if_false]
      refine acquire_bind ?_ ?_ ?_
      · intro hthrows
        cases hopen.symm.trans hthrows
      · intro hfails
        cases hopen.symm.trans hfails
      · intro _ _
        set u := (s.log (.getDeviceName dev)).log (.openDevice dev)
        refine holding_spec (query_bind ?_)
        rw [hattr]
        have hnew : ∀ p ∈ portsFrom 1 attr.physPortCnt,
            ((u.acquire (.context u.events.length)).log (.queryDevice ⟨u.events.length, dev⟩)).count
              (.queryPort ⟨u.events.length, dev⟩ p) = 0 := by
          intro p _
          apply List.count_eq_zero.mpr
          intro hmem
          have hbefore : .call (.queryPort ⟨u.events.length, dev⟩ p) ∈ s.events := by
            simpa [u, Session.log, Session.acquire] using hmem
          have hlt := hearlier _ p hbefore
          rw [hpos] at hlt
          exact Nat.lt_irrefl _ hlt
        refine Ensures.bind ((portLoop_wraps P ⟨u.events.length, dev⟩ attr.physPortCnt fuel 1 _
          (by omega) hcnt hnew (by rwa [hcnt])).mono ?_ ?_)
        · intro port t hmem
          have hdone : .call (.queryPort ⟨u.events.length, dev⟩ 0) ∈
              (t.release (.context u.events.length)).events := List.mem_append_left _ hmem
          cases port with
          | none => exact ⟨_, hdone⟩
          | some p => exact ⟨_, hdone⟩
        · intro t hdiverged
          rw [hdiverged, if_pos rfl]
          exact hdiverged

end Devices

/-! ### All devices -/

/-- The devices up to the first one at which an exception is thrown. -/
def reached (P : Platform) (hcaList : List Byte) (devs : List Device) : List Device :=
  devs.takeWhile fun dev => !throwsAt P hcaList dev

section Loop

variable {P : Platform} {H : List Resource} {fuel list : Nat} {hcaList : List Byte}

theorem enumerateLoop_spec (hfuel : 256 < fuel) (entries : List (Option (Option (List Byte))))
    (pos : Nat) (result : List NicInfo) (s : Session) (h : Tidy P H pos s)
    (hfine : ∀ dev ∈ reached P hcaList (devicesOf list pos entries), ¬Stuck P hcaList dev) :
    Ensures (enumerateLoop P fuel hcaList (devicesOf list pos entries) result) s
      (fun r t => r = result ++ (devicesOf list pos entries).filterMap (reportOf P hcaList) ∧
        ∃ pos', Tidy P H pos' t)
      (fun t => (∃ dev ∈ devicesOf list pos entries, throwsAt P hcaList dev = true) ∧
        ∃ pos', Tidy P H pos' t) := by
  induction entries generalizing pos result s with
  | nil => exact ⟨(List.append_nil _).symm, pos, h⟩
  | cons entry rest ih =>
      cases entry with
      | none => exact ⟨(List.append_nil _).symm, pos, h⟩
      | some name =>
          rw [devicesOf] at hfine ⊢
          have hdev : ¬Stuck P hcaList ⟨list, pos, name⟩ := by
            intro hstuck
            refine hfine ⟨list, pos, name⟩ ?_ hstuck
            have hcalm : throwsAt P hcaList ⟨list, pos, name⟩ = false := by
              simp [throwsAt, hstuck.2.1, Acquisition.isThrow]
            simp [reached, hcalm]
          refine Ensures.bind ((enumerateDevice_spec h rfl hfuel hdev).mono ?_ ?_)
          · rintro found t ⟨hfound, hcalm, htidy⟩
            refine (ih (pos + 1) (result ++ found.toList) t htidy ?_).mono ?_ ?_
            · intro dev hmem
              apply hfine dev
              simp only [reached, List.takeWhile_cons, hcalm, Bool.not_false, if_true]
              exact List.mem_cons_of_mem _ hmem
            · rintro r u ⟨rfl, hdone⟩
              refine ⟨?_, hdone⟩
              rw [hfound, List.append_assoc, List.filterMap_cons]
              cases reportOf P hcaList ⟨list, pos, name⟩ <;> rfl
            · rintro u ⟨⟨dev, hmem, hthrows⟩, hdone⟩
              exact ⟨⟨dev, List.mem_cons_of_mem _ hmem, hthrows⟩, hdone⟩
          · rintro t ⟨hthrows, htidy⟩
            exact ⟨⟨_, List.mem_cons_self, hthrows⟩, pos + 1, htidy⟩

/-- The loop only adds to the trace. -/
theorem enumerateLoop_grows (devs : List Device) (result : List NicInfo) (s : Session) :
    Ensures (enumerateLoop P fuel hcaList devs result) s (fun _ t => s.events <+: t.events)
      (fun t => s.events <+: t.events) := by
  induction devs generalizing result s with
  | nil => exact List.prefix_refl _
  | cons dev rest ih =>
      refine Ensures.bind ((enumerateDevice_continues P fuel hcaList dev s).mono ?_ ?_)
      · rintro found t ⟨tr, ht, -⟩
        have hgrow : s.events <+: t.events := ⟨tr, ht.symm⟩
        exact (ih _ t).mono (fun _ u hu => hgrow.trans hu) fun u hu => hgrow.trans hu
      · rintro t ⟨⟨tr, ht, -⟩, -⟩
        exact ⟨tr, ht.symm⟩

/-- A stuck device that is reached spoils the run. -/
theorem enumerateLoop_stuck (entries : List (Option (Option (List Byte)))) (pos : Nat)
    (result : List NicInfo) (s : Session)
    (hearlier : ∀ ctx p, .call (.queryPort ctx p) ∈ s.events → ctx.device.position < pos)
    (hstuck : ∃ dev ∈ reached P hcaList (devicesOf list pos entries), Stuck P hcaList dev) :
    Ensures (enumerateLoop P fuel hcaList (devicesOf list pos entries) result) s
      (fun _ t => ∃ ctx, .call (.queryPort ctx 0) ∈ t.events)
      (fun t => t.diverged = true ∨ ∃ ctx, .call (.queryPort ctx 0) ∈ t.events) := by
  induction entries generalizing pos result s with
  | nil => simp [devicesOf, reached] at hstuck
  | cons entry rest ih =>
      cases entry with
      | none => simp [devicesOf, reached] at hstuck
      | some name =>
          obtain ⟨dev, hmem, hdev⟩ := hstuck
          rw [devicesOf] at hmem ⊢
          have hcalm : throwsAt P hcaList ⟨list, pos, name⟩ = false := by
            by_contra hthrows
            simp [reached, hthrows] at hmem
          simp only [reached, List.takeWhile_cons, hcalm, Bool.not_false, if_true] at hmem
          by_cases hfirst : Stuck P hcaList ⟨list, pos, name⟩
          · refine Ensures.bind ((enumerateDevice_stuck rfl hearlier hfirst).mono ?_
              fun t ht => .inl ht)
            rintro found t ⟨ctx, hzero⟩
            exact (enumerateLoop_grows _ _ t).mono (fun _ u hu => ⟨ctx, hu.subset hzero⟩)
              fun u hu => .inr ⟨ctx, hu.subset hzero⟩
          · refine Ensures.bind ((enumerateDevice_continues P fuel hcaList _ s).mono ?_ ?_)
            · intro found t ht
              refine ih (pos + 1) _ t (ht.earlier hearlier rfl) ⟨dev, ?_, hdev⟩
              rcases List.mem_cons.mp hmem with rfl | hmem
              · exact absurd hdev hfirst
              · exact hmem
            · rintro t ⟨-, hdiverged | hthrows⟩
              · exact .inl hdiverged
              · cases hcalm.symm.trans hthrows

end Loop

/-! ### The whole of it -/

/-- No call that acquires something throws. -/
def Calm (P : Platform) (hcaList : List Byte) : Prop :=
  (P.getDeviceList 0).isThrow = false ∧ ∀ dev ∈ listed P, throwsAt P hcaList dev = false

/-- What a run of `enumerate` should do: it ends; it asks a device for its ports
from 1 to `phys_port_cnt`, at most once each and in order; whatever it opened it
has closed, once; and it returns the devices that `nics` lists, if no call
throws. -/
structure Enumerates (P : Platform) (hcaList : List Byte) (fuel : Nat) : Prop where
  ends : (finalState (enumerate P fuel hcaList (.start []))).diverged = false
  asks : ∀ dev, portQueries dev (finalState (enumerate P fuel hcaList (.start []))).events <+:
    P.ports dev
  closes : Unwound DependsOn (finalState (enumerate P fuel hcaList (.start []))).events
  reports : Calm P hcaList → ∃ t, enumerate P fuel hcaList (.start []) = .ok (nics P hcaList) t

/-- The first list is the one that `listed` reads. -/
theorem count_start (answers : List Answer) (c : PlatformCall) :
    (Session.start answers).count c = 0 := by
  simp [Session.count, Session.start]

/-- A device list of its own leaves a session tidy. -/
theorem Tidy.freeDeviceList {P : Platform} {H : List Resource} {pos id : Nat} {s : Session}
    (h : Tidy P (.deviceList id :: H) pos s) : Tidy P H pos (s.release (.deviceList id)) := by
  refine h.event rfl (by simp) rfl (h.holds.release (.refl _) ?_)
  intro q _ hq
  cases hq

theorem Tidy.getDeviceList {P : Platform} {H : List Resource} {pos : Nat} {s : Session}
    (h : Tidy P H pos s) (id : Nat) (hid : id = s.events.length) :
    Tidy P (.deviceList id :: H) pos (s.acquire (.deviceList id)) := by
  subst hid
  refine h.event rfl (by simp) rfl (h.holds.acquire ?_ ?_ ?_)
  · intro p hp
    cases hp
  · exact Nat.lt_succ_self _
  · exact Nat.lt_irrefl _

section Whole

variable {P : Platform} {hcaList : List Byte} {fuel : Nat}

theorem enumerate_spec {H : List Resource} {s : Session} (hfuel : 256 < fuel)
    (htidy : Tidy P H 0 s) (hfirst : s.count .getDeviceList = 0)
    (hfine : ∀ dev ∈ reached P hcaList (listed P), ¬Stuck P hcaList dev) :
    Ensures (enumerate P fuel hcaList) s
      (fun r t => r = nics P hcaList ∧ ∃ pos, Tidy P H pos t)
      (fun t => ¬Calm P hcaList ∧ ∃ pos, Tidy P H pos t) := by
  have hstart : Tidy P H 0 (s.log .getDeviceList) := htidy.log .getDeviceList (by simp)
  unfold enumerate
  refine getDeviceList_bind ?_ ?_ ?_
  · intro hlist
    refine ⟨?_, 0, hstart⟩
    rintro ⟨hcalm, -⟩
    rw [hfirst] at hlist
    rw [hlist] at hcalm
    cases hcalm
  · intro hlist
    refine ⟨?_, 0, hstart⟩
    rw [hfirst] at hlist
    simp [nics, listed, hlist]
  · intro entries hlist
    rw [hfirst] at hlist ⊢
    have hlisted : listed P = devicesOf 0 0 entries := by simp [listed, hlist]
    rw [hlisted] at hfine
    refine holding_spec ((enumerateLoop_spec hfuel entries 0 [] _
      (hstart.getDeviceList _ rfl) hfine).mono ?_ ?_)
    · rintro r t ⟨rfl, pos, htidy⟩
      refine ⟨?_, pos, htidy.freeDeviceList⟩
      rw [nics, hlisted]
      rfl
    · rintro t ⟨⟨dev, hmem, hthrows⟩, pos, htidy⟩
      rw [htidy.going, if_neg (by decide)]
      refine ⟨?_, pos, htidy.freeDeviceList⟩
      rintro ⟨-, hcalm⟩
      rw [← hlisted] at hmem
      cases (hcalm dev hmem).symm.trans hthrows

theorem enumerates_of_fine (hfuel : 256 < fuel)
    (hfine : ∀ dev ∈ reached P hcaList (listed P), ¬Stuck P hcaList dev) :
    Enumerates P hcaList fuel := by
  have hspec := enumerate_spec hfuel (Tidy.start []) (count_start [] _) hfine
  have htidy : ∃ pos, Tidy P [] pos (finalState (enumerate P fuel hcaList (.start []))) :=
    (hspec.mono (fun _ t ht => ht.2) fun t ht => ht.2).final
  obtain ⟨pos, htidy⟩ := htidy
  refine ⟨htidy.going, htidy.asks, htidy.holds.unwound, ?_⟩
  intro hcalm
  cases hrun : enumerate P fuel hcaList (.start []) with
  | ok r t => exact ⟨t, by rw [(hspec.ok hrun).1]⟩
  | error e t => exact absurd hcalm (hspec.error hrun).1

theorem zero_not_mem_portsFrom (cnt : BitVec 8) : 0 ∉ portsFrom 1 cnt := by
  intro h
  obtain ⟨k, hk, heq⟩ := List.mem_map.mp h
  have hcnt := cnt.isLt
  rw [List.mem_range'_1] at hk
  have hnat := congrArg BitVec.toNat heq
  rw [BitVec.toNat_ofNat] at hnat
  have hzero : (0 : BitVec 8).toNat = 0 := rfl
  omega

/-- A stuck device that is reached spoils every run. -/
theorem not_enumerates_of_stuck
    (hstuck : ∃ dev ∈ reached P hcaList (listed P), Stuck P hcaList dev) :
    ¬Enumerates P hcaList fuel := by
  intro h
  obtain ⟨entries, hlist⟩ : ∃ entries, P.getDeviceList 0 = .value entries := by
    obtain ⟨dev, hmem, -⟩ := hstuck
    unfold listed at hmem
    cases hlist : P.getDeviceList 0 with
    | value entries => exact ⟨entries, rfl⟩
    | fails => simp [hlist, reached] at hmem
    | throws => simp [hlist, reached] at hmem
  have hlisted : listed P = devicesOf 0 0 entries := by simp [listed, hlist]
  rw [hlisted] at hstuck
  have hspoilt : Ensures (enumerate P fuel hcaList) (.start [])
      (fun _ t => t.diverged = true ∨ ∃ ctx, .call (.queryPort ctx 0) ∈ t.events)
      (fun t => t.diverged = true ∨ ∃ ctx, .call (.queryPort ctx 0) ∈ t.events) := by
    unfold enumerate
    refine getDeviceList_bind ?_ ?_ ?_
    · intro hthrows
      rw [count_start, hlist] at hthrows
      cases hthrows
    · intro hfails
      rw [count_start, hlist] at hfails
      cases hfails
    · intro entries' hvalue
      rw [count_start, hlist] at hvalue
      cases hvalue
      refine holding_spec ((enumerateLoop_stuck entries 0 [] _ ?_ hstuck).mono ?_ ?_)
      · simp [Session.start, Session.log, Session.acquire]
      · rintro _ t ⟨ctx, hzero⟩
        exact .inr ⟨ctx, List.mem_append_left _ hzero⟩
      · rintro t (hdiverged | ⟨ctx, hzero⟩)
        · rw [hdiverged, if_pos rfl]
          exact .inl hdiverged
        · refine .inr ⟨ctx, ?_⟩
          split
          · exact hzero
          · exact List.mem_append_left _ hzero
  rcases hspoilt.final with hdiverged | ⟨ctx, hzero⟩
  · rw [h.ends] at hdiverged
    cases hdiverged
  · have hasked : (0 : BitVec 8) ∈ portQueries ctx.device
        (finalState (enumerate P fuel hcaList (.start []))).events :=
      List.mem_filterMap.mpr ⟨_, hzero, if_pos rfl⟩
    have hport := (h.asks ctx.device).subset hasked
    unfold Platform.ports at hport
    cases hattr : P.queryDevice ctx.device with
    | none => simp [hattr] at hport
    | some attr =>
        rw [hattr] at hport
        exact zero_not_mem_portsFrom _ hport

/-- `enumerate` does what it should exactly when no device that it reaches
reports 255 ports of which none is active. -/
theorem enumerates_iff (P : Platform) (hcaList : List Byte) :
    (∃ fuel, Enumerates P hcaList fuel) ↔
      ∀ dev ∈ reached P hcaList (listed P), ¬Stuck P hcaList dev := by
  constructor
  · rintro ⟨fuel, h⟩ dev hmem hstuck
    exact not_enumerates_of_stuck ⟨dev, hmem, hstuck⟩ h
  · intro hfine
    exact ⟨257, enumerates_of_fine (by omega) hfine⟩

end Whole

/-- One device with 255 ports, none of which is active. -/
def deadPorts : Platform where
  getDevice := .ok 0
  getDeviceCount := .ok 1
  deviceGetPCIBusId := fun _ => none
  getDeviceList := fun _ => .value [some (some [ascii 'a'])]
  openDevice := fun _ => .value ()
  allocPd := fun _ => .value ()
  queryDevice := fun _ => some ⟨255, 0⟩
  queryPort := fun _ _ _ => some ⟨.DOWN, 1⟩
  queryGid := fun _ _ _ _ => none
  roceVersion := fun _ _ _ => .Unknown
  sysfsBusId := fun _ => none
  sysfsNumaNode := fun _ => none

/-- The loop over its ports never ends. -/
theorem deadPorts_not_enumerates : ¬∃ fuel, Enumerates deadPorts [] fuel := by
  rintro ⟨fuel, h⟩
  refine not_enumerates_of_stuck ⟨⟨0, 0, some [ascii 'a']⟩, ?_, ?_⟩ h
  · decide
  · refine ⟨rfl, rfl, ⟨255, 0⟩, rfl, rfl, ?_⟩
    intro p _
    rfl

end HipObject
