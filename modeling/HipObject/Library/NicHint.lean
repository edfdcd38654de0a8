import HipObject.Library.InitRuns
import HipObject.Library.NicChoice

/-!
# The NIC hint

A published instance has opened the device at the index at which the chosen name
was found, but in a device list of its own: `openRdmaDeviceByName` looks the name
up in one list, and `openRdmaDevice` uses the index in the next. The hint is
obeyed exactly when the lists keep the places of the names that can be chosen,
which they do if they never change.
-/

namespace HipObject

open Codec Verification

/-- The name of the device is a field of the hint. -/
def Obeys (nicHint : List Byte) (dev : Device) : Prop :=
  ∃ name, dev.name = some name ∧ name ∈ hcaFields nicHint

section Published

variable {P : Platform}

/-- Whatever is done on a device that is open, the instance has that device. -/
theorem buildInstance_device (config : ResolvedConfig) (name : List Byte) (maxTransfers : Nat)
    (lockThrows : Bool) (s : Session) :
    Ensures (buildInstance P config name maxTransfers lockThrows) s
      (fun r _ => ∀ inst, r = some inst → name ≠ [] ∧
        Looks P.getDeviceList (s.count .getDeviceList) name inst.device.context.device)
      (fun _ => True) := by
  unfold buildInstance
  by_cases hname : name = []
  · subst hname
    have hnone : openRdmaDeviceByName P [] s = .ok none s := rfl
    refine Ensures.bind_ok hnone ?_
    exact fun inst hinst => by cases hinst
  · refine Ensures.bind ((openRdmaDeviceByName_looks name hname s).mono ?_ fun _ _ => trivial)
    rintro opened t ⟨-, -, hlooks, -⟩
    cases opened with
    | none => exact fun inst hinst => by cases hinst
    | some o =>
        refine guarding_spec (Ensures.bind (Ensures.of_forall ?_ fun _ => trivial))
        intro tokenConn u
        cases tokenConn with
        | none => exact fun inst hinst => by cases hinst
        | some tokenConn =>
            refine guarding_spec (Ensures.bind (Ensures.of_forall ?_ fun _ => trivial))
            intro pool v
            refine guarding_spec (Ensures.ite (fun _ inst hinst => by cases hinst) fun _ => ?_)
            refine Ensures.ite (fun _ => trivial) fun _ => ?_
            intro inst hinst
            cases hinst
            exact ⟨hname, hlooks o rfl⟩

/-- The device of a published instance. -/
theorem initWith_published (fuel : Nat) (config : Config) (maxTransfers : Nat)
    (lockThrows : Bool) (answers : List Answer) :
    Ensures (initWith P (enumerate P fuel) config maxTransfers lockThrows)
      ⟨.start answers, none⟩
      (fun _ lib => ∀ inst, lib.current = some inst → ∃ n name,
        Chosen P.getDeviceList config.nicHint n name ∧ name ≠ [] ∧
        Looks P.getDeviceList n name inst.device.context.device)
      (fun _ => True) := by
  have hstart : (Session.start answers).count .getDeviceList = 0 := count_start answers _
  -- finding the GPU asks for no list
  have hgpu : Ensures (resolveGpu P config) (Session.start answers)
      (fun _ t => t.count .getDeviceList = 0) (fun _ => True) := by
    have hlog : ∀ c, c ≠ .getDeviceList →
        ((Session.start answers).log c).count .getDeviceList = 0 := fun c hc =>
      ((Session.start answers).count_log_of_ne hc).trans hstart
    unfold resolveGpu
    refine Ensures.ite (fun _ => query_bind ?_) fun _ => query_bind ?_
    · cases P.getDevice with
      | ok gpuDevice => exact hlog _ (by simp)
      | error err => exact Ensures.ite (fun _ => hlog _ (by simp)) fun _ => hlog _ (by simp)
    · cases P.getDeviceCount with
      | ok count => exact Ensures.ite (fun _ => hlog _ (by simp)) fun _ => hlog _ (by simp)
      | error err => exact Ensures.ite (fun _ => hlog _ (by simp)) fun _ => hlog _ (by simp)
  unfold initWith
  refine Ensures.get_bind (Ensures.bind ((onSession_spec _ hgpu).mono ?_ fun _ _ => trivial))
  rintro resolved l₁ ⟨hcount, hcur₁⟩
  have hnothing : ∀ lib : Library, lib.current = none → ∀ inst : Instance,
      lib.current = some inst → ∃ n name, Chosen P.getDeviceList config.nicHint n name ∧
        name ≠ [] ∧ Looks P.getDeviceList n name inst.device.context.device := by
    intro lib hnone inst hinst
    cases hnone.symm.trans hinst
  cases resolved with
  | error err => exact hnothing l₁ hcur₁
  | ok gpuDevice =>
      refine Ensures.bind ((onSession_spec l₁ (chooseNic_chosen fuel gpuDevice config.nicHint _
        hcount)).mono ?_ fun _ _ => trivial)
      rintro nic l₂ ⟨⟨-, -, hchosen⟩, hcur₂⟩
      have hcur₂ := hcur₂.trans hcur₁
      cases nic with
      | none => exact hnothing l₂ hcur₂
      | some nic =>
          refine Ensures.bind ((onSession_spec l₂ (buildInstance_device
            ⟨gpuDevice, config.nicHint, nic.index⟩ nic.name maxTransfers lockThrows _)).mono ?_
              fun _ _ => trivial)
          rintro built l₃ ⟨hbuilt, hcur₃⟩
          cases built with
          | none => exact hnothing l₃ (hcur₃.trans hcur₂)
          | some inst =>
              refine Ensures.modify_bind ?_
              intro inst' hinst'
              cases hinst'
              obtain ⟨hname, hlooks⟩ := hbuilt inst rfl
              exact ⟨_, nic.name, hchosen nic rfl, hname, hlooks⟩

end Published

/-! ### A platform that opens what was chosen -/

/-- Three calls that succeed make a connection. -/
def kThreeSuccesses : List Answer := [.success 16, .success 1, .success 0]

/-- The bus id of a GPU, which fills its buffer. -/
def kGpuBusId : Vector Byte kPciBusIdBufLen := .replicate kPciBusIdBufLen 1

/-- A platform with given device lists. In the first list only devices named
`openable` open; all else succeeds. -/
def choosing (lists : DeviceLists) (getDevice : Except Int Int) (openable : Option (List Byte)) :
    Platform where
  getDevice := getDevice
  getDeviceCount := .ok 0
  deviceGetPCIBusId := fun _ => some kGpuBusId
  getDeviceList := lists
  openDevice := fun dev =>
    if dev.list = 0 then
      if openable.isSome ∧ dev.name = openable then .value () else .fails
    else .value ()
  allocPd := fun _ => .value ()
  queryDevice := fun _ => some ⟨1, 0⟩
  queryPort := fun _ _ _ => some ⟨.ACTIVE, 0⟩
  queryGid := fun _ _ _ _ => some (.replicate 16 0)
  roceVersion := fun _ _ _ => .Unknown
  sysfsBusId := fun _ => some [0]
  sysfsNumaNode := fun _ => none

section Choosing

variable {lists : DeviceLists} {getDevice : Except Int Int} {openable : Option (List Byte)}

theorem choosing_generous : (choosing lists getDevice openable).Generous where
  allocPd := fun _ => rfl
  queryPort := fun _ _ _ => rfl
  queryGid := fun _ _ _ _ => rfl

theorem choosing_willing {n : Nat} {name : List Byte} {dev : Device}
    (h : Looks lists n name dev) : Willing (choosing lists getDevice openable) dev := by
  obtain ⟨entries, i, -, -, next, -, hdev⟩ := h
  refine ⟨choosing_generous, ?_⟩
  have hlist : dev.list = n + 1 := by
    unfold deviceAt at hdev
    split at hdev
    · cases hdev
    · split at hdev
      · cases hdev
        rfl
      · cases hdev
  simp [choosing, hlist]

/-- With three successes for the token connection and an empty pool, the instance
is built on the device that is looked up. -/
theorem choosing_builds (config : ResolvedConfig) {name : List Byte} (hname : name ≠ [])
    {dev : Device} (s : Session) (hanswers : s.answers = kThreeSuccesses)
    (hlooks : Looks lists (s.count .getDeviceList) name dev) :
    Ensures (buildInstance (choosing lists getDevice openable) config name 0 false) s
      (fun r _ => ∃ inst, r = some inst ∧ inst.device.context.device = dev)
      (fun _ => False) := by
  unfold buildInstance
  refine Ensures.bind ((openRdmaDeviceByName_looks name hname s).mono ?_ ?_)
  · rintro opened t ⟨ht, -, hdev, hopened⟩
    cases opened with
    | none => cases hopened dev hlooks (choosing_willing hlooks)
    | some o =>
        have hdev : o.context.device = dev := (hdev o rfl).unique hlooks
        have hconn : ∃ conn u, onVerbs o.handles ConnectionPool.createConnection t =
            .ok (some conn) u := by
          unfold onVerbs
          rw [ht, hanswers]
          exact ⟨_, _, rfl⟩
        obtain ⟨conn, u, hconn⟩ := hconn
        have hpool : ∃ pool v, onVerbs o.handles (ConnectionPool.create 0) u = .ok pool v ∧
            pool.live = 0 := ⟨_, _, rfl, rfl⟩
        obtain ⟨pool, v, hpool, hlive⟩ := hpool
        refine guarding_spec (Ensures.bind_ok hconn (guarding_spec (Ensures.bind_ok hpool ?_)))
        refine guarding_spec (Ensures.ite (fun hne => absurd hlive hne) fun _ => ?_)
        exact ⟨_, rfl, hdev⟩
  · intro t ht
    exact ht dev hlooks (choosing_willing hlooks)

theorem list_of_mem_devicesOf {list position : Nat}
    {entries : List (Option (Option (List Byte)))} {dev : Device}
    (h : dev ∈ devicesOf list position entries) : dev.list = list := by
  induction entries generalizing position with
  | nil => simp [devicesOf] at h
  | cons entry rest ih =>
      cases entry with
      | none => simp [devicesOf] at h
      | some name =>
          rcases List.mem_cons.mp h with rfl | h
          · rfl
          · exact ih h

/-- The devices of the first list that open are those named `openable`. -/
theorem choosing_openDevice {dev : Device}
    (hdev : dev ∈ listed (choosing lists getDevice openable)) :
    (choosing lists getDevice openable).openDevice dev =
      if openable.isSome ∧ dev.name = openable then .value () else .fails := by
  have hlist : dev.list = 0 := by
    unfold listed at hdev
    split at hdev
    · exact list_of_mem_devicesOf hdev
    · simp at hdev
  simp [choosing, hlist]

/-- Enumerating gives what the answers say it should. -/
theorem choosing_enumerates (nicHint : List Byte) (hcalm : (lists 0).isThrow = false)
    {s : Session} (htidy : Tidy (choosing lists getDevice openable) [] 0 s)
    (hfirst : s.count .getDeviceList = 0) :
    Ensures (enumerate (choosing lists getDevice openable) 257 nicHint) s
      (fun r t => r = nics (choosing lists getDevice openable) nicHint ∧
        t.answers = s.answers ∧ t.count .getDeviceList = 1) (fun _ => False) := by
  have hfine : ∀ dev ∈ reached (choosing lists getDevice openable) nicHint
      (listed (choosing lists getDevice openable)),
      ¬Stuck (choosing lists getDevice openable) nicHint dev := by
    rintro dev - ⟨-, -, attr, hattr, hcnt, -⟩
    cases hattr
    exact absurd hcnt (by decide)
  have hcalm : Calm (choosing lists getDevice openable) nicHint := by
    refine ⟨hcalm, ?_⟩
    intro dev hdev
    unfold throwsAt
    rw [choosing_openDevice hdev]
    split <;> simp [Acquisition.isThrow]
  refine ((enumerate_spec (by omega) htidy hfirst hfine).and
    (enumerate_names 257 nicHint s hfirst)).mono ?_ ?_
  · rintro r t ⟨⟨hnics, -⟩, hanswers, -, hcount, -⟩
    exact ⟨hnics, hanswers, hcount⟩
  · rintro t ⟨⟨hnot, -⟩, -⟩
    exact hnot hcalm

theorem choosing_nics_none (nicHint : List Byte) :
    nics (choosing lists getDevice none) nicHint = [] := by
  unfold nics
  rw [List.filterMap_eq_nil_iff]
  intro dev hdev
  unfold reportOf
  rw [choosing_openDevice hdev]
  cases dev.name <;> simp

theorem choosing_nics_offered (getDevice : Except Int Int) {nicHint name : List Byte}
    (h : Offered lists nicHint name) :
    nics (choosing lists getDevice (some name)) nicHint ≠ [] ∧
      ∀ nic ∈ nics (choosing lists getDevice (some name)) nicHint,
        nic.devName = name ∧ nic.pcieBusId = [0] := by
  constructor
  · obtain ⟨entries, hlist, dev, hdev, hname, hallows⟩ := h
    have hmem : dev ∈ listed (choosing lists getDevice (some name)) := by
      simpa [listed, choosing, hlist] using hdev
    have hreport : reportOf (choosing lists getDevice (some name)) nicHint dev =
        some (nicInfo (choosing lists getDevice (some name)) dev name 1) := by
      unfold reportOf
      rw [choosing_openDevice hmem, hname]
      simp only [Option.isSome_some, and_self, if_true, hallows]
      rfl
    exact List.ne_nil_of_mem (List.mem_filterMap.mpr ⟨dev, hmem, hreport⟩)
  · intro nic hnic
    obtain ⟨dev, hdev, hreport⟩ := List.mem_filterMap.mp hnic
    unfold reportOf at hreport
    rw [choosing_openDevice hdev] at hreport
    by_cases hname : dev.name = some name
    · rw [hname] at hreport
      simp only [Option.isSome_some, and_self, if_true] at hreport
      split at hreport
      · obtain ⟨port, -, rfl⟩ := Option.map_eq_some_iff.mp hreport
        exact ⟨rfl, rfl⟩
      · cases hreport
    · simp only [hname, and_false, if_false] at hreport
      cases hother : dev.name with
      | none => simp [hother] at hreport
      | some other => simp [hother] at hreport

/-- If all NICs have the same name and a known bus id, that name is chosen. -/
theorem closestNic_of_forall {nicList : List NicInfo} {name : List Byte} (hne : nicList ≠ [])
    (hall : ∀ nic ∈ nicList, nic.devName = name ∧ nic.pcieBusId = [0]) :
    ∃ index, closestNic (busIdText kGpuBusId) nicList = some ⟨index, name⟩ := by
  cases nicList with
  | nil => exact absurd rfl hne
  | cons first rest =>
      obtain ⟨hname, hbus⟩ := hall _ (minElement_mem
        (fun nic => getBusIdDistance nic.pcieBusId (busIdText kGpuBusId)) rest 1 (0, first))
      have hknown : ¬getBusIdDistance (minElement
          (fun nic => getBusIdDistance nic.pcieBusId (busIdText kGpuBusId))
          rest 1 (0, first)).2.pcieBusId (busIdText kGpuBusId) = intMax := by
        rw [hbus]
        decide
      unfold closestNic
      dsimp only
      rw [if_neg hknown, hname]
      exact ⟨_, rfl⟩

/-- Each name that can be chosen is chosen on some platform with these lists. -/
theorem exists_chooses {nicHint name : List Byte} {n : Nat} (hhint : nicHint ≠ [])
    (hchosen : Chosen lists nicHint n name) :
    ∃ getDevice openable gpuDevice,
      resolveGpu (choosing lists getDevice openable) ⟨-1, nicHint⟩ (.start kThreeSuccesses) =
        .ok (.ok gpuDevice) ((Session.start kThreeSuccesses).log .getDevice) ∧
      Ensures (chooseNic (choosing lists getDevice openable)
          (enumerate (choosing lists getDevice openable) 257) gpuDevice nicHint)
        ((Session.start kThreeSuccesses).log .getDevice)
        (fun r t => (∃ index, r = some ⟨index, name⟩) ∧ t.answers = kThreeSuccesses ∧
          t.count .getDeviceList = n) (fun _ => False) := by
  have hempty : nicHint.isEmpty = false := by simpa using hhint
  have hfirst : ∀ c, c ≠ .getDeviceList → ((Session.start kThreeSuccesses).log c).count
      .getDeviceList = 0 := fun c hc =>
    ((Session.start kThreeSuccesses).count_log_of_ne hc).trans (count_start _ _)
  cases hchosen with
  | unlisted =>
      refine ⟨.error hipErrorNoDevice, none, -1, ?_, ?_⟩
      · unfold resolveGpu
        rw [hempty]
        rfl
      · unfold chooseNic
        rw [if_neg (by decide), hempty]
        exact ⟨⟨0, rfl⟩, rfl, hfirst _ (by simp)⟩
  | hint hcalm =>
      refine ⟨.ok 0, none, 0, rfl, ?_⟩
      unfold chooseNic getClosestNicToGpu
      rw [if_pos (by decide)]
      refine Ensures.bind (query_bind (Ensures.bind ((choosing_enumerates nicHint hcalm
        (((Tidy.start _).log _ (by simp)).log _ (by simp)) ?_).mono ?_ fun _ h => h)))
      · exact (Session.count_log_of_ne _ (by simp)).trans (hfirst _ (by simp))
      · rintro r t ⟨rfl, hanswers, hcount⟩
        rw [choosing_nics_none, hempty]
        exact ⟨⟨0, rfl⟩, hanswers, hcount⟩
  | offered _ hoffered =>
      have hcalm : (lists 0).isThrow = false := by
        obtain ⟨entries, hlist, -⟩ := hoffered
        rw [hlist]
        rfl
      refine ⟨.ok 0, some name, 0, rfl, ?_⟩
      unfold chooseNic getClosestNicToGpu
      rw [if_pos (by decide)]
      refine Ensures.bind (query_bind (Ensures.bind ((choosing_enumerates nicHint hcalm
        (((Tidy.start _).log _ (by simp)).log _ (by simp)) ?_).mono ?_ fun _ h => h)))
      · exact (Session.count_log_of_ne _ (by simp)).trans (hfirst _ (by simp))
      · rintro r t ⟨rfl, hanswers, hcount⟩
        have hnics := choosing_nics_offered (.ok 0) hoffered
        obtain ⟨index, hclosest⟩ := closestNic_of_forall hnics.1 hnics.2
        rw [Ensures.pure_iff, hclosest]
        exact ⟨⟨index, rfl⟩, hanswers, hcount⟩

end Choosing

/-! ### When the hint is obeyed -/

/-- On every platform with these device lists, each instance that is published
has a device that the hint names. -/
def HintObeyed (nicHint : List Byte) (lists : DeviceLists) : Prop :=
  ∀ P : Platform, P.getDeviceList = lists →
    ∀ gpuDevice maxTransfers lockThrows fuel answers err lib inst,
      initWith P (enumerate P fuel) ⟨gpuDevice, nicHint⟩ maxTransfers lockThrows
        ⟨.start answers, none⟩ = .ok err lib →
      lib.current = some inst → Obeys nicHint inst.device.context.device

/-- If a name that can be chosen is in a list, then the next list has at that
index, if it has a device there, one that the hint names. -/
def KeepsPlaces (nicHint : List Byte) (lists : DeviceLists) : Prop :=
  ∀ n name dev, Chosen lists nicHint n name → name ≠ [] → Looks lists n name dev →
    Obeys nicHint dev

section Obeyed

variable {lists : DeviceLists} {nicHint : List Byte}

theorem hintObeyed_of_keepsPlaces (h : KeepsPlaces nicHint lists) :
    HintObeyed nicHint lists := by
  rintro P rfl gpuDevice maxTransfers lockThrows fuel answers err lib inst hrun hinst
  have hspec := initWith_published fuel ⟨gpuDevice, nicHint⟩ maxTransfers lockThrows answers
    (P := P)
  unfold Ensures at hspec
  rw [hrun] at hspec
  obtain ⟨n, name, hchosen, hname, hlooks⟩ := hspec inst hinst
  exact h n name _ hchosen hname hlooks

/-- Each device that can be looked up is published on some platform. -/
theorem exists_published {name : List Byte} {n : Nat} {dev : Device} (hhint : nicHint ≠ [])
    (hchosen : Chosen lists nicHint n name) (hname : name ≠ [])
    (hlooks : Looks lists n name dev) :
    ∃ P : Platform, P.getDeviceList = lists ∧ ∃ err lib inst,
      initWith P (enumerate P 257) ⟨-1, nicHint⟩ 0 false ⟨.start kThreeSuccesses, none⟩ =
        .ok err lib ∧
      lib.current = some inst ∧ inst.device.context.device = dev := by
  obtain ⟨getDevice, openable, gpuDevice, hgpu, hnic⟩ := exists_chooses hhint hchosen
  refine ⟨choosing lists getDevice openable, rfl, ?_⟩
  have hrun : Ensures (initWith (choosing lists getDevice openable)
      (enumerate (choosing lists getDevice openable) 257) ⟨-1, nicHint⟩ 0 false)
      ⟨.start kThreeSuccesses, none⟩
      (fun _ lib => ∃ inst, lib.current = some inst ∧ inst.device.context.device = dev)
      (fun _ => False) := by
    unfold initWith
    refine Ensures.get_bind (Ensures.bind_ok (a := .ok gpuDevice)
      (t := ⟨(Session.start kThreeSuccesses).log .getDevice, none⟩) ?_ ?_)
    · unfold onSession
      rw [hgpu]
    refine Ensures.bind ((onSession_spec _ hnic).mono ?_ fun _ h => h.1)
    rintro nic l ⟨⟨⟨index, rfl⟩, hanswers, hcount⟩, -⟩
    have hlooks : Looks lists (l.session.count .getDeviceList) name dev := by
      rw [hcount]
      exact hlooks
    refine Ensures.bind ((onSession_spec l (choosing_builds ⟨gpuDevice, nicHint, index⟩ hname
      l.session hanswers hlooks)).mono ?_ fun _ h => h.1)
    rintro built l' ⟨⟨inst, rfl, hdev⟩, -⟩
    exact Ensures.modify_bind ⟨inst, rfl, hdev⟩
  unfold Ensures at hrun
  cases hinit : initWith (choosing lists getDevice openable)
      (enumerate (choosing lists getDevice openable) 257) ⟨-1, nicHint⟩ 0 false
      ⟨.start kThreeSuccesses, none⟩ with
  | error e lib =>
      rw [hinit] at hrun
      exact hrun.elim
  | ok err lib =>
      rw [hinit] at hrun
      obtain ⟨inst, hinst, hdev⟩ := hrun
      exact ⟨err, lib, inst, rfl, hinst, hdev⟩

/-- The loop over the fields of the hint is exact, and the hint is obeyed if and
only if the device lists keep the places of the names that can be chosen. -/
theorem nicHint_obeyed_iff (nicHint : List Byte) (lists : DeviceLists) (hhint : nicHint ≠ []) :
    (∀ hcaList devName, hcaListIncludes hcaList devName = true ↔ devName ∈ hcaFields hcaList) ∧
      (HintObeyed nicHint lists ↔ KeepsPlaces nicHint lists) := by
  refine ⟨hcaListIncludes_iff, ?_, hintObeyed_of_keepsPlaces⟩
  intro hobeyed n name dev hchosen hname hlooks
  obtain ⟨P, hlists, err, lib, inst, hrun, hinst, rfl⟩ :=
    exists_published hhint hchosen hname hlooks
  exact hobeyed P hlists _ _ _ _ _ _ _ _ hrun hinst

/-- Two devices that change places after the first list. -/
def swappingLists : DeviceLists := fun n =>
  if n = 0 then .value [some (some [ascii 'a']), some (some [ascii 'b'])]
  else .value [some (some [ascii 'b']), some (some [ascii 'a'])]

/-- The hint names `a`, no GPU is there, and `b` is opened. -/
theorem swappingLists_not_obeyed : ¬HintObeyed [ascii 'a'] swappingLists := by
  intro hobeyed
  have hlooks : Looks swappingLists 0 [ascii 'a'] ⟨1, 0, some [ascii 'b']⟩ :=
    ⟨_, 0, rfl, by decide, _, rfl, by decide⟩
  obtain ⟨P, hlists, err, lib, inst, hrun, hinst, hdev⟩ :=
    exists_published (by decide) .unlisted (by decide) hlooks
  obtain ⟨name, hname, hfield⟩ := hobeyed P hlists _ _ _ _ _ _ _ _ hrun hinst
  rw [hdev] at hname
  cases hname
  exact absurd hfield (by decide)

/-- A device name has no commas in it and no blanks before it. -/
def IsDeviceName (name : List Byte) : Prop :=
  ascii ',' ∉ name ∧ name.head?.all (!isBlank ·) = true

theorem hcaFields_of_isDeviceName {name : List Byte} (h : IsDeviceName name) (hne : name ≠ []) :
    hcaFields name = [name] := by
  cases name with
  | nil => exact absurd rfl hne
  | cons c rest =>
      have hc : isBlank c = false := by simpa using h.2
      have htrim : trimField (c :: rest) = c :: rest := by simp [trimField, hc]
      rw [hcaFields, List.splitOn_eq_singleton h.1, List.map_singleton, htrim]

theorem name_of_looks {n : Nat} {name : List Byte} {dev : Device}
    (hsame : lists (n + 1) = lists n) (h : Looks lists n name dev) :
    dev.name = some name ∧ ∃ entries, lists n = .value entries ∧ some (some name) ∈ entries := by
  obtain ⟨entries, i, hlist, hi, next, hnext, hdev⟩ := h
  cases (hsame.trans hlist).symm.trans hnext
  obtain ⟨hlt, hentry, -⟩ := List.findIdx?_eq_some_iff_getElem.mp hi
  have hentry : entries[i] = some (some name) := by simpa using hentry
  refine ⟨?_, entries, hlist, hentry ▸ List.getElem_mem hlt⟩
  unfold deviceAt at hdev
  rw [if_neg (by omega), Int.toNat_natCast, List.getElem?_eq_getElem hlt, hentry] at hdev
  cases hdev
  rfl

/-- Lists that do not change keep the places of the devices. -/
theorem keepsPlaces_of_unchanged (hhint : nicHint ≠ []) (hsame : ∀ n, lists (n + 1) = lists n)
    (hnames : ∀ n entries, lists n = .value entries → ∀ name, some (some name) ∈ entries →
      IsDeviceName name) : KeepsPlaces nicHint lists := by
  intro n name dev hchosen hname hlooks
  obtain ⟨hdev, entries, hlist, hentry⟩ := name_of_looks (hsame n) hlooks
  refine ⟨name, hdev, ?_⟩
  have hself : name = nicHint → name ∈ hcaFields nicHint := by
    rintro rfl
    rw [hcaFields_of_isDeviceName (hnames n entries hlist name hentry) hname]
    exact List.mem_singleton_self name
  cases hchosen with
  | unlisted => exact hself rfl
  | hint => exact hself rfl
  | offered _ hoffered =>
      obtain ⟨-, -, -, -, -, hallows⟩ := hoffered
      have hempty : nicHint.isEmpty = false := by simpa using hhint
      rw [allows, hempty, Bool.false_or] at hallows
      exact (hcaListIncludes_iff _ _).mp hallows

/-- The hint `b` with the same two devices in every list. -/
theorem nicHint_obeyed_second :
    [ascii 'b'] ≠ [] ∧ HintObeyed [ascii 'b'] fun _ =>
      .value [some (some [ascii 'a']), some (some [ascii 'b'])] := by
  refine ⟨by decide, ?_⟩
  refine (nicHint_obeyed_iff [ascii 'b'] _ (by decide)).2.mpr ?_
  refine keepsPlaces_of_unchanged (by decide) (fun _ => rfl) ?_
  intro n entries hentries name hname
  cases hentries
  have hname : name = [ascii 'a'] ∨ name = [ascii 'b'] := by simpa using hname
  rcases hname with rfl | rfl
  · exact ⟨by decide, rfl⟩
  · exact ⟨by decide, rfl⟩

end Obeyed

end HipObject
