import HipObject.Library.InitBooks
import HipObject.Topology.EnumerateRuns

/-!
# Which device is opened

`initWith` gets up to three device lists: one to enumerate the NICs that the hint
allows, one to look up the index of the chosen name, and one to open the device
at that index. `Chosen` says which name is looked up in which list, and `Looks`
which device is then opened.
-/

namespace HipObject

open Codec Verification

/-! ### What the code leaves alone -/

/-- Nothing happened to connections, and no device list was asked for. -/
structure Session.Quiet (s t : Session) : Prop where
  answers : t.answers = s.answers
  verbsLog : t.verbsLog = s.verbsLog
  lists : t.count .getDeviceList = s.count .getDeviceList

namespace Session.Quiet

variable {s t u : Session}

theorem refl (s : Session) : s.Quiet s := ⟨rfl, rfl, rfl⟩

theorem trans (h : s.Quiet t) (h' : t.Quiet u) : s.Quiet u :=
  ⟨h'.answers.trans h.answers, h'.verbsLog.trans h.verbsLog, h'.lists.trans h.lists⟩

theorem log (h : s.Quiet t) (c : PlatformCall) (hc : c ≠ .getDeviceList) : s.Quiet (t.log c) :=
  ⟨h.answers, h.verbsLog, (t.count_log_of_ne hc).trans h.lists⟩

theorem acquire (h : s.Quiet t) (r : Resource) : s.Quiet (t.acquire r) := by
  refine ⟨h.answers, h.verbsLog, ?_⟩
  rw [← h.lists]
  simp [Session.count, Session.acquire]

theorem release (h : s.Quiet t) (r : Resource) : s.Quiet (t.release r) := by
  refine ⟨h.answers, h.verbsLog, ?_⟩
  rw [← h.lists]
  simp [Session.count, Session.release]

end Session.Quiet

/-! ### Looking a device up and opening it -/

/-- Whatever a device is asked for, it gives. -/
structure Platform.Generous (P : Platform) : Prop where
  allocPd : ∀ dev, P.allocPd dev = .value ()
  queryPort : ∀ dev port n, (P.queryPort dev port n).isSome = true
  queryGid : ∀ dev port index n, (P.queryGid dev port index n).isSome = true

/-- The answers to `get_device_list`, one after the other. -/
abbrev DeviceLists := Nat → Acquisition (List (Option (Option (List Byte))))

/-- The device at an index of list `n`. -/
def Opens (lists : DeviceLists) (n : Nat) (nicIndex : Int) (dev : Device) : Prop :=
  ∃ entries, lists n = .value entries ∧ deviceAt n entries nicIndex = some dev

/-- The device at the index of the next list at which list `n` has a name
first. -/
def Looks (lists : DeviceLists) (n : Nat) (name : List Byte) (dev : Device) : Prop :=
  ∃ entries i, lists n = .value entries ∧
    entries.findIdx? (· == some (some name)) = some i ∧ Opens lists (n + 1) (i : Nat) dev

/-- There is only one such device. -/
theorem Looks.unique {lists : DeviceLists} {n : Nat} {name : List Byte} {dev dev' : Device}
    (h : Looks lists n name dev) (h' : Looks lists n name dev') : dev = dev' := by
  obtain ⟨entries, i, hlist, hi, next, hnext, hdev⟩ := h
  obtain ⟨entries', i', hlist', hi', next', hnext', hdev'⟩ := h'
  cases hlist.symm.trans hlist'
  cases hi.symm.trans hi'
  cases hnext.symm.trans hnext'
  cases hdev.symm.trans hdev'
  rfl

/-- A device that opens, on a platform that refuses nothing after that. -/
def Willing (P : Platform) (dev : Device) : Prop := P.Generous ∧ P.openDevice dev = .value ()

section Open

variable {P : Platform}

theorem gidLoop_quiet (ctx : Context) (portNum : BitVec 8) (left i : Nat)
    (candidates : List GidCandidate) (s : Session) :
    Ensures (gidLoop P ctx portNum left i candidates) s (fun _ t => s.Quiet t)
      (fun _ => False) := by
  induction left generalizing i candidates s with
  | zero => exact .refl s
  | succ left ih =>
      have hasked : s.Quiet (s.log (.queryGid ctx portNum i)) :=
        (Session.Quiet.refl s).log _ (by simp)
      rw [gidLoop]
      refine query_bind ?_
      cases P.queryGid ctx.device portNum i _ with
      | none => exact (ih _ _ _).mono (fun _ _ ht => hasked.trans ht) fun _ h => h
      | some gid =>
          cases hconf : isConfiguredGid gid with
          | false =>
              simp only [hconf, Bool.not_false, if_true]
              exact (ih _ _ _).mono (fun _ _ ht => hasked.trans ht) fun _ h => h
          | true =>
              simp only [hconf, Bool.not_true, Bool.false_eq_true, if_false]
              refine query_bind ((ih _ _ _).mono ?_ fun _ h => h)
              intro _ t ht
              exact (hasked.log (.roceVersion ctx portNum i) (by simp)).trans ht

theorem selectBestGid_quiet (ctx : Context) (portNum : BitVec 8) (s : Session) :
    Ensures (selectBestGid P ctx portNum) s (fun _ t => s.Quiet t) (fun _ => False) := by
  have hasked : s.Quiet (s.log (.queryPort ctx portNum)) :=
    (Session.Quiet.refl s).log _ (by simp)
  unfold selectBestGid autoSelectGidIndex
  refine query_bind ?_
  cases P.queryPort ctx.device portNum _ with
  | none => exact hasked
  | some attr =>
      refine Ensures.bind ((gidLoop_quiet ctx portNum _ 0 [] _).mono ?_ fun _ h => h)
      intro candidates t ht
      exact hasked.trans ht

theorem openOnContext_quiet (ctx : Context) (s : Session) :
    Ensures (openOnContext P ctx) s
      (fun r t => s.Quiet t ∧ (∀ o, r = some o → o.context = ctx) ∧
        (P.Generous → r.isSome = true))
      (fun _ => ¬P.Generous) := by
  have hasked : s.Quiet (s.log (.allocPd ctx)) := (Session.Quiet.refl s).log _ (by simp)
  unfold openOnContext
  refine acquire_bind ?_ ?_ ?_
  · intro hthrows hgen
    cases (hgen.allocPd ctx.device).symm.trans hthrows
  · intro hfails
    refine ⟨hasked, by simp, ?_⟩
    intro hgen
    cases (hgen.allocPd ctx.device).symm.trans hfails
  · intro _ _
    set u := (s.log (.allocPd ctx)).acquire (.pd (s.log (.allocPd ctx)).events.length ctx.id)
    have hpd : s.Quiet (u.log (.queryPort ctx kPortNum)) :=
      (hasked.acquire _).log (.queryPort ctx kPortNum) (by simp)
    refine handingOver_spec (query_bind ?_)
    cases hport : P.queryPort ctx.device kPortNum _ with
    | none =>
        refine ⟨hpd.release _, by simp, ?_⟩
        intro hgen
        have hsome := hgen.queryPort ctx.device kPortNum (u.count (.queryPort ctx kPortNum))
        rw [hport] at hsome
        cases hsome
    | some attr =>
        refine Ensures.bind ((selectBestGid_quiet ctx kPortNum _).mono ?_ fun _ h => h.elim)
        intro chosen t ht
        have hgid := (hpd.trans ht).log (.queryGid ctx kPortNum (chosen.getD 0)) (by simp)
        refine query_bind ?_
        cases hlocal : P.queryGid ctx.device kPortNum (chosen.getD 0) _ with
        | none =>
            refine ⟨hgid.release _, by simp, ?_⟩
            intro hgen
            have hsome := hgen.queryGid ctx.device kPortNum (chosen.getD 0)
              (t.count (.queryGid ctx kPortNum (chosen.getD 0)))
            rw [hlocal] at hsome
            cases hsome
        | some gid =>
            refine query_bind ⟨hgid.log _ (by simp), ?_, fun _ => rfl⟩
            intro o ho
            cases ho
            rfl

/-- The device that is opened is the one at the index of the list that is asked
for. -/
theorem openRdmaDevice_opens (nicIndex : Int) (s : Session) :
    Ensures (openRdmaDevice P nicIndex) s
      (fun r t => t.answers = s.answers ∧ t.verbsLog = s.verbsLog ∧
        (∀ o, r = some o →
          Opens P.getDeviceList (s.count .getDeviceList) nicIndex o.context.device) ∧
        ∀ dev, Opens P.getDeviceList (s.count .getDeviceList) nicIndex dev → Willing P dev →
          r.isSome = true)
      (fun _ => ∀ dev, Opens P.getDeviceList (s.count .getDeviceList) nicIndex dev →
        ¬Willing P dev) := by
  unfold openRdmaDevice
  refine getDeviceList_bind ?_ ?_ ?_
  · rintro hthrows dev ⟨entries, hlist, -⟩ -
    rw [hlist] at hthrows
    cases hthrows
  · intro hfails
    refine ⟨rfl, rfl, by simp, ?_⟩
    rintro dev ⟨entries, hlist, -⟩ -
    rw [hlist] at hfails
    cases hfails
  · intro entries hlist
    have hsame : ∀ dev, Opens P.getDeviceList (s.count .getDeviceList) nicIndex dev →
        deviceAt (s.count .getDeviceList) entries nicIndex = some dev := by
      rintro dev ⟨entries', hlist', hdev⟩
      cases hlist.symm.trans hlist'
      exact hdev
    refine Ensures.bind (holding_spec ?_)
    cases hdev : deviceAt (s.count .getDeviceList) entries nicIndex with
    | none =>
        refine ⟨rfl, rfl, by simp, ?_⟩
        intro dev hopens
        cases hdev.symm.trans (hsame dev hopens)
    | some dev =>
        have hdevice : ∀ dev', Opens P.getDeviceList (s.count .getDeviceList) nicIndex dev' →
            dev' = dev := by
          intro dev' hopens
          cases hdev.symm.trans (hsame dev' hopens)
          rfl
        refine acquire_bind ?_ ?_ ?_
        · intro hthrows dev' hopens hwilling
          rw [hdevice dev' hopens] at hwilling
          cases hwilling.2.symm.trans hthrows
        · intro hfails
          refine ⟨rfl, rfl, by simp, ?_⟩
          intro dev' hopens hwilling
          rw [hdevice dev' hopens] at hwilling
          cases hwilling.2.symm.trans hfails
        · intro _ _
          refine handingOver_spec ((openOnContext_quiet _ _).mono ?_ ?_)
          · rintro r t ⟨hquiet, hcontext, hsome⟩
            refine ⟨?_, ?_, ?_, fun _ _ hwilling => hsome hwilling.1⟩
            · cases r with
              | none => exact hquiet.answers
              | some o => exact hquiet.answers
            · cases r with
              | none => exact hquiet.verbsLog
              | some o => exact hquiet.verbsLog
            · intro o ho
              rw [hcontext o ho]
              exact ⟨entries, hlist, hdev⟩
          · intro t hnot dev' _ hwilling
            exact hnot hwilling.1

theorem findByName_spec (list : Nat) (devName : List Byte) (i : Nat)
    (entries : List (Option (Option (List Byte)))) (s : Session) :
    Ensures (findByName list devName i entries) s
      (fun r t => r = (entries.findIdx? (· == some (some devName))).map (· + i) ∧ s.Quiet t)
      (fun _ => False) := by
  induction entries generalizing i s with
  | nil => exact ⟨rfl, .refl s⟩
  | cons entry rest ih =>
      have hasked : s.Quiet (s.log (.getDeviceName ⟨list, i, entry.join⟩)) :=
        (Session.Quiet.refl s).log _ (by simp)
      have hname : entry.join = some devName ↔ (entry == some (some devName)) = true := by
        rw [beq_iff_eq]
        cases entry with
        | none => simp
        | some name => simp
      rw [findByName]
      refine query_bind (Ensures.ite (fun hfound => ?_) (fun hother => ?_))
      · refine ⟨?_, hasked⟩
        rw [List.findIdx?_cons, if_pos (hname.mp hfound)]
        simp
      · refine (ih (i + 1) _).mono ?_ fun _ h => h
        rintro r t ⟨rfl, hquiet⟩
        refine ⟨?_, hasked.trans hquiet⟩
        rw [List.findIdx?_cons, if_neg fun h => hother (hname.mpr h), Option.map_map]
        congr 1
        funext k
        simp only [Function.comp_apply]
        omega

/-- A name is looked up in one list, and its index used in the next. -/
theorem openRdmaDeviceByName_looks (devName : List Byte) (hname : devName ≠ []) (s : Session) :
    Ensures (openRdmaDeviceByName P devName) s
      (fun r t => t.answers = s.answers ∧ t.verbsLog = s.verbsLog ∧
        (∀ o, r = some o →
          Looks P.getDeviceList (s.count .getDeviceList) devName o.context.device) ∧
        ∀ dev, Looks P.getDeviceList (s.count .getDeviceList) devName dev → Willing P dev →
          r.isSome = true)
      (fun _ => ∀ dev, Looks P.getDeviceList (s.count .getDeviceList) devName dev →
        ¬Willing P dev) := by
  unfold openRdmaDeviceByName
  refine Ensures.ite (fun h => absurd h hname) fun _ => ?_
  refine getDeviceList_bind ?_ ?_ ?_
  · rintro hthrows dev ⟨entries, i, hlist, -⟩ -
    rw [hlist] at hthrows
    cases hthrows
  · intro hfails
    refine ⟨rfl, rfl, by simp, ?_⟩
    rintro dev ⟨entries, i, hlist, -⟩ -
    rw [hlist] at hfails
    cases hfails
  · intro entries hlist
    set u := (s.log .getDeviceList).acquire
      (.deviceList (s.log .getDeviceList).events.length) with hu
    have hcount : u.count .getDeviceList = s.count .getDeviceList + 1 := by
      simp [hu, Session.count, Session.log, Session.acquire]
    refine holding_spec (Ensures.bind ((findByName_spec _ devName 0 entries u).mono ?_
      fun _ h => h.elim))
    rintro found t ⟨rfl, hquiet⟩
    have hnext : t.count .getDeviceList = s.count .getDeviceList + 1 :=
      hquiet.lists.trans hcount
    cases hfound : entries.findIdx? (· == some (some devName)) with
    | none =>
        refine ⟨hquiet.answers, hquiet.verbsLog, by simp, ?_⟩
        rintro dev ⟨entries', i, hlist', hi, -⟩
        cases hlist.symm.trans hlist'
        cases hfound.symm.trans hi
    | some i =>
        have hlooks : ∀ dev, Looks P.getDeviceList (s.count .getDeviceList) devName dev ↔
            Opens P.getDeviceList (t.count .getDeviceList) (i : Nat) dev := by
          intro dev
          rw [hnext]
          constructor
          · rintro ⟨entries', j, hlist', hj, hopens⟩
            cases hlist.symm.trans hlist'
            cases hfound.symm.trans hj
            exact hopens
          · intro hopens
            exact ⟨entries, i, hlist, hfound, hopens⟩
        refine (openRdmaDevice_opens (i : Nat) t).mono ?_ ?_
        · rintro r v ⟨hanswers, hlog, hopened, hwilling⟩
          refine ⟨hanswers.trans hquiet.answers, hlog.trans hquiet.verbsLog, ?_, ?_⟩
          · intro o ho
            exact (hlooks _).mpr (hopened o ho)
          · intro dev hdev
            exact hwilling dev ((hlooks dev).mp hdev)
        · intro v hv dev hdev
          exact hv dev ((hlooks dev).mp hdev)

end Open

/-! ### Choosing the NIC -/

section Choose

variable {P : Platform}

theorem portLoop_quiet (ctx : Context) (cnt : BitVec 8) (fuel : Nat) (p : BitVec 8)
    (s : Session) :
    Ensures (portLoop P ctx cnt fuel p) s (fun _ t => s.Quiet t) (fun _ => True) := by
  induction fuel generalizing p s with
  | zero => trivial
  | succ fuel ih =>
      have hasked : s.Quiet (s.log (.queryPort ctx p)) := (Session.Quiet.refl s).log _ (by simp)
      have hnext := (ih (p + 1) (s.log (.queryPort ctx p))).mono
        (fun _ t (ht : (s.log (.queryPort ctx p)).Quiet t) => hasked.trans ht) fun _ h => h
      rw [portLoop]
      refine Ensures.ite (fun _ => query_bind ?_) fun _ => .refl s
      cases P.queryPort ctx.device p _ with
      | none => exact hnext
      | some attr => exact Ensures.ite (fun _ => hasked) fun _ => hnext

/-- A NIC is reported under the name of its device, which the list allows. -/
theorem enumerateDevice_names (fuel : Nat) (hcaList : List Byte) (dev : Device) (s : Session) :
    Ensures (enumerateDevice P fuel hcaList dev) s
      (fun found t => s.Quiet t ∧ ∀ nic, found = some nic →
        dev.name = some nic.devName ∧ allows hcaList nic.devName = true)
      (fun _ => True) := by
  have hnamed : s.Quiet (s.log (.getDeviceName dev)) := (Session.Quiet.refl s).log _ (by simp)
  unfold enumerateDevice
  refine query_bind ?_
  cases hname : dev.name with
  | none => exact ⟨hnamed, by simp⟩
  | some name =>
      refine Ensures.ite (fun _ => ⟨hnamed, by simp⟩) fun hallows => ?_
      have hasked := hnamed.log (.openDevice dev) (by simp)
      refine acquire_bind (fun _ => trivial) (fun _ => ⟨hasked, by simp⟩) ?_
      intro _ _
      set u := (s.log (.getDeviceName dev)).log (.openDevice dev)
      have hqueried := (hasked.acquire (.context u.events.length)).log
        (.queryDevice ⟨u.events.length, dev⟩) (by simp)
      refine holding_spec (query_bind ?_)
      cases P.queryDevice dev with
      | none => exact ⟨hqueried.release _, by simp⟩
      | some attr =>
          refine Ensures.bind ((portLoop_quiet _ _ fuel 1 _).mono ?_ fun _ h => h)
          intro port t ht
          have hdone := (hqueried.trans ht).release (.context u.events.length)
          cases port with
          | none => exact ⟨hdone, by simp⟩
          | some p =>
              refine ⟨hdone, ?_⟩
              have hallows : allows hcaList name = true := by simpa using hallows
              intro nic hnic
              cases hnic
              exact ⟨rfl, hallows⟩

theorem enumerateLoop_names (fuel : Nat) (hcaList : List Byte) (devs : List Device)
    (result : List NicInfo) (s : Session) :
    Ensures (enumerateLoop P fuel hcaList devs result) s
      (fun r t => s.Quiet t ∧ ∀ nic ∈ r, nic ∈ result ∨ ∃ dev ∈ devs,
        dev.name = some nic.devName ∧ allows hcaList nic.devName = true)
      (fun _ => True) := by
  induction devs generalizing result s with
  | nil => exact ⟨.refl s, fun nic hnic => .inl hnic⟩
  | cons dev rest ih =>
      refine Ensures.bind ((enumerateDevice_names fuel hcaList dev s).mono ?_ fun _ h => h)
      rintro found t ⟨hquiet, hfound⟩
      refine (ih (result ++ found.toList) t).mono ?_ fun _ h => h
      rintro r u ⟨hquiet', hnics⟩
      refine ⟨hquiet.trans hquiet', ?_⟩
      intro nic hnic
      rcases hnics nic hnic with hnic | ⟨other, hother, hname⟩
      · rcases List.mem_append.mp hnic with hnic | hnic
        · exact .inl hnic
        · exact .inr ⟨dev, List.mem_cons_self, hfound nic (Option.mem_toList.mp hnic)⟩
      · exact .inr ⟨other, List.mem_cons_of_mem _ hother, hname⟩

/-- The first list has a device with this name, and the hint allows it. -/
def Offered (lists : DeviceLists) (nicHint name : List Byte) : Prop :=
  ∃ entries, lists 0 = .value entries ∧ ∃ dev ∈ devicesOf 0 0 entries,
    dev.name = some name ∧ allows nicHint name = true

theorem enumerate_names (fuel : Nat) (hcaList : List Byte) (s : Session)
    (hfirst : s.count .getDeviceList = 0) :
    Ensures (enumerate P fuel hcaList) s
      (fun r t => t.answers = s.answers ∧ t.verbsLog = s.verbsLog ∧
        t.count .getDeviceList = 1 ∧ (P.getDeviceList 0).isThrow = false ∧
        ∀ nic ∈ r, Offered P.getDeviceList hcaList nic.devName)
      (fun _ => True) := by
  have hcount : (s.log .getDeviceList).count .getDeviceList = 1 := by
    unfold Session.count at hfirst ⊢
    simp [Session.log, hfirst]
  unfold enumerate
  refine getDeviceList_bind (fun _ => trivial) ?_ ?_
  · intro hfails
    rw [hfirst] at hfails
    exact ⟨rfl, rfl, hcount, by rw [hfails]; rfl, by simp⟩
  · intro entries hlist
    rw [hfirst] at hlist ⊢
    refine holding_spec ((enumerateLoop_names fuel hcaList _ [] _).mono ?_ fun _ h => h)
    rintro r t ⟨hquiet, hnics⟩
    have hquiet := hquiet.release (.deviceList (s.log .getDeviceList).events.length)
    have hlists : ((s.log .getDeviceList).acquire
        (.deviceList (s.log .getDeviceList).events.length)).count .getDeviceList = 1 := by
      rw [← hcount]
      simp [Session.count, Session.acquire]
    refine ⟨hquiet.answers, hquiet.verbsLog, hquiet.lists.trans hlists, by rw [hlist]; rfl, ?_⟩
    intro nic hnic
    rcases hnics nic hnic with hnic | ⟨dev, hdev, hname⟩
    · simp at hnic
    · exact ⟨entries, hlist, dev, hdev, hname⟩

theorem minElement_mem (distance : NicInfo → Int) (nics : List NicInfo) (i : Nat)
    (best : Nat × NicInfo) : (minElement distance nics i best).2 ∈ best.2 :: nics := by
  induction nics generalizing i best with
  | nil => exact List.mem_cons_self
  | cons nic rest ih =>
      rw [minElement]
      have hmem := ih (i + 1) (if distance nic < distance best.2 then (i, nic) else best)
      rcases List.mem_cons.mp hmem with heq | hmem
      · rw [heq]
        split
        · exact List.mem_cons_of_mem _ List.mem_cons_self
        · exact List.mem_cons_self
      · exact List.mem_cons_of_mem _ (List.mem_cons_of_mem _ hmem)

/-- The closest NIC is one of those listed. -/
theorem closestNic_name {gpuBus : List Byte} {nics : List NicInfo} {nic : RdmaNic}
    (h : closestNic gpuBus nics = some nic) : ∃ n ∈ nics, n.devName = nic.name := by
  cases nics with
  | nil => cases h
  | cons first rest =>
      unfold closestNic at h
      dsimp only at h
      split at h
      · cases h
      · cases h
        exact ⟨_, minElement_mem _ _ _ _, rfl⟩

/-- The names that can be looked up, and how many lists were asked for before
that: the hint itself, without or after enumerating the NICs, or a name that was
enumerated. -/
inductive Chosen (lists : DeviceLists) (nicHint : List Byte) : Nat → List Byte → Prop where
  | unlisted : Chosen lists nicHint 0 nicHint
  | hint (h : (lists 0).isThrow = false) : Chosen lists nicHint 1 nicHint
  | offered (name : List Byte) (h : Offered lists nicHint name) : Chosen lists nicHint 1 name

theorem chooseNic_chosen (fuel : Nat) (gpuDevice : Int) (nicHint : List Byte) (s : Session)
    (hfirst : s.count .getDeviceList = 0) :
    Ensures (chooseNic P (enumerate P fuel) gpuDevice nicHint) s
      (fun r t => t.answers = s.answers ∧ t.verbsLog = s.verbsLog ∧ ∀ nic, r = some nic →
        Chosen P.getDeviceList nicHint (t.count .getDeviceList) nic.name)
      (fun _ => True) := by
  have hclosest : Ensures (if gpuDevice ≥ 0 then
      getClosestNicToGpu P (enumerate P fuel) gpuDevice nicHint else pure none) s
      (fun r t => t.answers = s.answers ∧ t.verbsLog = s.verbsLog ∧
        Chosen P.getDeviceList nicHint (t.count .getDeviceList) nicHint ∧
        ∀ nic, r = some nic → Chosen P.getDeviceList nicHint (t.count .getDeviceList) nic.name)
      (fun _ => True) := by
    refine Ensures.ite (fun _ => ?_) fun _ => ⟨rfl, rfl, by rw [hfirst]; exact .unlisted, by simp⟩
    unfold getClosestNicToGpu
    refine query_bind ?_
    have hlog : (s.log (.deviceGetPCIBusId gpuDevice)).count .getDeviceList = 0 :=
      (s.count_log_of_ne (by simp)).trans hfirst
    cases P.deviceGetPCIBusId gpuDevice with
    | none => exact ⟨rfl, rfl, by rw [hlog]; exact .unlisted, by simp⟩
    | some gpuBus =>
        refine Ensures.bind ((enumerate_names fuel nicHint _ hlog).mono ?_ fun _ h => h)
        rintro nics t ⟨hanswers, hverbs, hcount, hcalm, hnics⟩
        refine ⟨hanswers, hverbs, by rw [hcount]; exact .hint hcalm, ?_⟩
        intro nic hnic
        obtain ⟨n, hn, hname⟩ := closestNic_name hnic
        rw [hcount, ← hname]
        exact .offered _ (hnics n hn)
  unfold chooseNic
  refine Ensures.bind (hclosest.mono ?_ fun _ h => h)
  rintro nic t ⟨hanswers, hverbs, hhint, hchosen⟩
  cases nic with
  | some nic => exact ⟨hanswers, hverbs, hchosen⟩
  | none =>
      refine Ensures.ite (fun _ => ⟨hanswers, hverbs, by simp⟩) fun _ => ⟨hanswers, hverbs, ?_⟩
      intro nic hnic
      cases hnic
      exact hhint

end Choose

end HipObject
