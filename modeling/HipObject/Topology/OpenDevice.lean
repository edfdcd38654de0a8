import HipObject.Topology.Gid
import HipObject.Topology.Holdings

/-!
# Opening a device

`openRdmaDevice` and `openRdmaDeviceByName` of `rdma/transport.cpp`, with the
choice of the GID by `SelectBestGid`. A device list is kept by a local variable
of the function that asked for it; the context and the protection domain move
into the device that is returned.

The GID index is chosen from the whole table, however long it is, while an
address handle has 8 bits for it. `opensUsable_iff` says for which tables the
chosen index can be used.
-/

namespace HipObject

open Codec Verification

/-- The entry of a device list at an index, unless it is null or there is none. -/
def deviceAt (list : Nat) (entries : List (Option (Option (List Byte)))) (index : Int) :
    Option Device :=
  if index < 0 then none
  else match entries[index.toNat]? with
    | some (some name) => some ⟨list, index.toNat, name⟩
    | _ => none

/-- `for (int i = 0; i < port_attr.gid_tbl_len; ++i)`. -/
def gidLoop (P : Platform) (ctx : Context) (portNum : BitVec 8) :
    Nat → Nat → List GidCandidate → PlatformM (List GidCandidate)
  | 0, _, candidates => return candidates
  | left + 1, i, candidates => do
      match ← query (.queryGid ctx portNum i) (P.queryGid ctx.device portNum i) with
      | none => gidLoop P ctx portNum left (i + 1) candidates
      | some gid =>
          if !isConfiguredGid gid then gidLoop P ctx portNum left (i + 1) candidates
          else
            let roceVersion ← query (.roceVersion ctx portNum i)
              (fun _ => P.roceVersion ctx.device portNum i)
            gidLoop P ctx portNum left (i + 1) (candidates ++ [⟨i, gid, roceVersion⟩])

def autoSelectGidIndex (P : Platform) (ctx : Context) (portNum : BitVec 8) :
    PlatformM (Option Int) := do
  match ← query (.queryPort ctx portNum) (P.queryPort ctx.device portNum) with
  | none => return none
  | some attr => return pickBestGid (← gidLoop P ctx portNum attr.gidTblLen.toNat 0 [])

def selectBestGid (P : Platform) (ctx : Context) (portNum : BitVec 8) : PlatformM (Option Int) :=
  autoSelectGidIndex P ctx portNum

/-- A device that was opened: what connections read of it, and what it owns. -/
structure OpenedDevice where
  device : RdmaDevice
  context : Context
  pd : Nat

def OpenedDevice.handles (o : OpenedDevice) : Handles := ⟨o.context.id, o.pd⟩

/-- Connections use the device's first port. -/
def kPortNum : BitVec 8 := 1

/-- The part of `openRdmaDevice` with a context. -/
def openOnContext (P : Platform) (ctx : Context) : PlatformM (Option OpenedDevice) := do
  match ← acquire (.allocPd ctx) (.pd · ctx.id) (fun _ => P.allocPd ctx.device) with
  | none => return none
  | some (pd, _) =>
      handingOver (.pd pd ctx.id) do
        match ← query (.queryPort ctx kPortNum) (P.queryPort ctx.device kPortNum) with
        | none => return none
        | some _ =>
            -- the first entry, when none is preferred
            let gidIndex := (← selectBestGid P ctx kPortNum).getD 0
            match ← query (.queryGid ctx kPortNum gidIndex)
                (P.queryGid ctx.device kPortNum gidIndex) with
            | none => return none
            | some localGid =>
                -- for the vendor id, which a device need not report
                let _ ← query (.queryDevice ctx) (fun _ => P.queryDevice ctx.device)
                return some ⟨⟨kPortNum, gidIndex, localGid⟩, ctx, pd⟩

def openRdmaDevice (P : Platform) (nicIndex : Int) : PlatformM (Option OpenedDevice) := do
  match ← getDeviceList P with
  | none => return none
  | some (listId, list, entries) =>
      match ← holding (.deviceList listId) (do
          match deviceAt list entries nicIndex with
          | none => return none
          | some dev =>
              match ← acquire (.openDevice dev) .context (fun _ => P.openDevice dev) with
              | none => return none
              | some (id, _) => return some ({ id, device := dev } : Context)) with
      | none => return none
      | some ctx => handingOver (.context ctx.id) (openOnContext P ctx)

/-- The index of the first device with a name. A null entry has no name. -/
def findByName (list : Nat) (devName : List Byte) :
    Nat → List (Option (Option (List Byte))) → PlatformM (Option Nat)
  | _, [] => return none
  | i, entry :: rest => do
      let name ← query (.getDeviceName ⟨list, i, entry.join⟩) (fun _ => entry.join)
      if name = some devName then return some i
      else findByName list devName (i + 1) rest

def openRdmaDeviceByName (P : Platform) (devName : List Byte) :
    PlatformM (Option OpenedDevice) := do
  if devName = [] then return none
  else match ← getDeviceList P with
    | none => return none
    | some (listId, list, entries) =>
        holding (.deviceList listId) do
          match ← findByName list devName 0 entries with
          | none => return none
          | some nicIndex => openRdmaDevice P nicIndex

/-! ### The GID of an open device -/

/-- The GID table that a platform reports for a device. -/
def Platform.gidTable (P : Platform) (dev : Device) : GidTable where
  gid := fun index => P.queryGid dev kPortNum index 0
  roceVersion := P.roceVersion dev kPortNum

/-- The table, and its length, do not change while the device is opened. -/
structure StableTable (P : Platform) (dev : Device) (len : Int) : Prop where
  gid : ∀ index n, P.queryGid dev kPortNum index n = (P.gidTable dev).gid index
  len : ∀ n attr, P.queryPort dev kPortNum n = some attr → attr.gidTblLen = len

/-- The index that is chosen, given the answer to the query of the port. -/
def GidTable.choice (table : GidTable) (attr : Option PortAttr) : Int :=
  (attr.bind fun attr => pickBestGid (table.candidates attr.gidTblLen.toNat)).getD 0

/-- What connections will read of a device, given the answers to the two queries
of its port. -/
def GidTable.opened (table : GidTable) (first second : Option PortAttr) : Option RdmaDevice :=
  match first with
  | none => none
  | some _ =>
      (table.gid (table.choice second)).map fun gid => ⟨kPortNum, table.choice second, gid⟩

section Gid

variable {P : Platform} {ctx : Context} {len : Int}

theorem gidLoop_spec (hstable : StableTable P ctx.device len) (left i : Nat)
    (candidates : List GidCandidate) (s : Session) :
    Ensures (gidLoop P ctx kPortNum left i candidates) s
      (fun r _ => r = candidates ++ (List.range' i left).filterMap
        fun j : Nat => (P.gidTable ctx.device).candidate j) (fun _ => False) := by
  induction left generalizing i candidates s with
  | zero => exact (List.append_nil _).symm
  | succ left ih =>
      rw [gidLoop, List.range'_succ, List.filterMap_cons]
      refine query_bind ?_
      rw [hstable.gid]
      cases hgid : (P.gidTable ctx.device).gid i with
      | none =>
          have hnone : (P.gidTable ctx.device).candidate i = none := by
            simp [GidTable.candidate, hgid]
          rw [hnone]
          exact ih (i + 1) candidates _
      | some gid =>
          cases hconf : isConfiguredGid gid with
          | false =>
              have hnone : (P.gidTable ctx.device).candidate i = none := by
                simp [GidTable.candidate, hgid, hconf]
              simp only [hconf, hnone, Bool.not_false, if_true]
              exact ih (i + 1) candidates _
          | true =>
              have hsome : (P.gidTable ctx.device).candidate i =
                  some ⟨i, gid, P.roceVersion ctx.device kPortNum i⟩ := by
                unfold GidTable.candidate
                rw [hgid]
                simp only [hconf, if_true]
                rfl
              simp only [hconf, hsome, Bool.not_true, Bool.false_eq_true, if_false]
              refine query_bind ((ih (i + 1) _ _).mono ?_ fun _ h => h)
              rintro r t rfl
              rw [List.append_assoc]
              rfl

theorem selectBestGid_spec (hstable : StableTable P ctx.device len) (s : Session) :
    Ensures (selectBestGid P ctx kPortNum) s
      (fun r _ => r.getD 0 = (P.gidTable ctx.device).choice
        (P.queryPort ctx.device kPortNum (s.count (.queryPort ctx kPortNum))))
      (fun _ => False) := by
  unfold selectBestGid autoSelectGidIndex
  refine query_bind ?_
  cases P.queryPort ctx.device kPortNum (s.count (.queryPort ctx kPortNum)) with
  | none => rfl
  | some attr =>
      refine Ensures.bind ((gidLoop_spec hstable _ 0 [] _).mono ?_ fun _ h => h)
      rintro candidates t rfl
      rw [Ensures.pure_iff, List.nil_append]
      simp [GidTable.choice, GidTable.candidates, List.range_eq_range']

/-- The device is the one that the answers give, and is opened unless a query
fails. -/
theorem openOnContext_device (hstable : StableTable P ctx.device len) (s : Session)
    (hpd : P.allocPd ctx.device = .value ()) (hnew : s.count (.queryPort ctx kPortNum) = 0) :
    Ensures (openOnContext P ctx) s
      (fun r _ => r.map OpenedDevice.device = (P.gidTable ctx.device).opened
        (P.queryPort ctx.device kPortNum 0) (P.queryPort ctx.device kPortNum 1))
      (fun _ => False) := by
  unfold openOnContext
  refine acquire_bind ?_ ?_ ?_
  · intro hthrows
    cases hpd.symm.trans hthrows
  · intro hfails
    cases hpd.symm.trans hfails
  · intro _ _
    set u := (s.log (.allocPd ctx)).acquire (.pd (s.log (.allocPd ctx)).events.length ctx.id)
    have hfirst : u.count (.queryPort ctx kPortNum) = 0 := by
      rw [← hnew]
      simp [u, Session.count, Session.log, Session.acquire]
    have hsecond : (u.log (.queryPort ctx kPortNum)).count (.queryPort ctx kPortNum) = 1 := by
      unfold Session.count at hfirst ⊢
      simp [Session.log, hfirst]
    refine handingOver_spec (query_bind ?_)
    rw [hfirst]
    unfold GidTable.opened
    cases P.queryPort ctx.device kPortNum 0 with
    | none => rfl
    | some attr =>
        refine Ensures.bind ((selectBestGid_spec hstable _).mono ?_ fun _ h => h.elim)
        rintro chosen t hchosen
        rw [hsecond] at hchosen
        rw [hchosen]
        refine query_bind ?_
        rw [hstable.gid]
        cases (P.gidTable ctx.device).gid _ with
        | none => rfl
        | some gid => exact query_bind rfl

/-- The same for `openRdmaDevice` on a device of the list it gets. -/
theorem openRdmaDevice_device {nicIndex : Int} {dev : Device}
    {entries : List (Option (Option (List Byte)))} (answers : List Answer)
    (hlist : P.getDeviceList 0 = .value entries) (hdev : deviceAt 0 entries nicIndex = some dev)
    (hopen : P.openDevice dev = .value ()) (hpd : P.allocPd dev = .value ())
    (hstable : StableTable P dev len) :
    Ensures (openRdmaDevice P nicIndex) (.start answers)
      (fun r _ => r.map OpenedDevice.device = (P.gidTable dev).opened
        (P.queryPort dev kPortNum 0) (P.queryPort dev kPortNum 1)) (fun _ => False) := by
  have hcount : (Session.start answers).count .getDeviceList = 0 := by
    simp [Session.count, Session.start]
  unfold openRdmaDevice
  refine getDeviceList_bind ?_ ?_ ?_
  · intro hthrows
    rw [hcount, hlist] at hthrows
    cases hthrows
  · intro hfails
    rw [hcount, hlist] at hfails
    cases hfails
  · intro entries' hvalue
    rw [hcount, hlist] at hvalue
    cases hvalue
    refine Ensures.bind (holding_spec ?_)
    rw [hcount, hdev]
    refine acquire_bind ?_ ?_ ?_
    · intro hthrows
      cases hopen.symm.trans hthrows
    · intro hfails
      cases hopen.symm.trans hfails
    · intro _ _
      refine handingOver_spec ((openOnContext_device hstable _ hpd ?_).mono ?_ fun _ h => h)
      · simp [Session.count, Session.log, Session.acquire, Session.release, Session.start]
      · intro r t hr
        exact hr

/-- An open device was opened on the entry of the list at its index, and all
that opening acquires was acquired. -/
theorem openRdmaDevice_opened {nicIndex : Int} {answers : List Answer} {o : OpenedDevice}
    {t : Session} (hrun : openRdmaDevice P nicIndex (.start answers) = .ok (some o) t) :
    ∃ entries dev, P.getDeviceList 0 = .value entries ∧
      deviceAt 0 entries nicIndex = some dev ∧ P.openDevice dev = .value () ∧
      P.allocPd dev = .value () := by
  have hcount : (Session.start answers).count .getDeviceList = 0 := by
    simp [Session.count, Session.start]
  have hspec : Ensures (openRdmaDevice P nicIndex) (.start answers)
      (fun r _ => r.isSome = true → ∃ entries dev, P.getDeviceList 0 = .value entries ∧
        deviceAt 0 entries nicIndex = some dev ∧ P.openDevice dev = .value () ∧
        P.allocPd dev = .value ()) (fun _ => True) := by
    unfold openRdmaDevice
    refine getDeviceList_bind (fun _ => trivial) (fun _ h => by cases h) ?_
    intro entries hlist
    rw [hcount] at hlist ⊢
    refine Ensures.bind (holding_spec ?_)
    cases hdev : deviceAt 0 entries nicIndex with
    | none => exact fun h => by cases h
    | some dev =>
        refine acquire_bind (fun _ => trivial) (fun _ h => by cases h) ?_
        intro _ hopen
        refine handingOver_spec (acquire_bind (fun _ => trivial) (fun _ h => by cases h) ?_)
        intro _ hpd
        refine Ensures.of_forall ?_ fun _ => trivial
        intro _ _ _
        exact ⟨entries, dev, hlist, hdev, hopen, hpd⟩
  exact hspec.ok hrun rfl

end Gid

/-! ### A GID that connecting can use -/

/-- What an open device promises: its index fits the 8 bits that an address
handle has, so the range check on connecting never refuses it; no entry that
could have been chosen there is preferred to it; and its GID is the table's. -/
structure OpensUsable (table : GidTable) (len : Int) (device : RdmaDevice) : Prop where
  inRange : 0 ≤ device.gidIndex ∧ device.gidIndex ≤ 255
  connects : ∀ qpNum lid gid, transitionQpToRtr device qpNum lid gid =
    modifyQp .RTR (some ⟨qpNum, gid, lid⟩)
  best : ∀ i, 0 ≤ i → i ≤ 255 → i < len →
    (table.priority i).value ≤ (table.priority device.gidIndex).value
  localGid : table.gid device.gidIndex = some device.localGid

/-- The tables for which it holds, given the answer to the second query of the
port. If that succeeds, no entry beyond the first 256 is preferred to all of
them; if it fails, no entry among them is preferred to the first. -/
def UsableTable (table : GidTable) (len : Int) : Option PortAttr → Prop
  | some _ => ∀ i, 255 < i → i < len → table.priority i ≠ .Unknown →
      ∃ j, 0 ≤ j ∧ j ≤ 255 ∧ j < len ∧ (table.priority i).value ≤ (table.priority j).value
  | none => ∀ i, 0 ≤ i → i ≤ 255 → i < len →
      (table.priority i).value ≤ (table.priority 0).value

theorem transitionQpToRtr_of_inRange {device : RdmaDevice}
    (h : 0 ≤ device.gidIndex ∧ device.gidIndex ≤ 255) (qpNum : BitVec 32) (lid : BitVec 16)
    (gid : Gid) : transitionQpToRtr device qpNum lid gid =
      modifyQp .RTR (some ⟨qpNum, gid, lid⟩) := if_pos h

section Usable

variable {table : GidTable} {len : Int} {first second : Option PortAttr} {device : RdmaDevice}

theorem GidTable.opened_eq_some (h : table.opened first second = some device) :
    device.gidIndex = table.choice second ∧ table.gid device.gidIndex = some device.localGid := by
  unfold GidTable.opened at h
  cases first with
  | none => cases h
  | some _ =>
      obtain ⟨gid, hgid, rfl⟩ := Option.map_eq_some_iff.mp h
      exact ⟨rfl, hgid⟩

/-- With the table read, the earliest of the best entries was chosen, or the
first if there is none. -/
theorem usable_iff_of_some {attr : PortAttr} (hlen : attr.gidTblLen = len)
    (h : table.opened first (some attr) = some device) :
    OpensUsable table len device ↔ UsableTable table len (some attr) := by
  obtain ⟨hindex, hlocal⟩ := GidTable.opened_eq_some h
  have hpicked := table.picked len.toNat
  have hchoice : table.choice (some attr) =
      ((table.candidates len.toNat).foldl pickStep (none, .Unknown)).1.getD 0 := by
    rw [← hlen]
    rfl
  rw [hchoice] at hindex
  generalize (table.candidates len.toNat).foldl pickStep (none, .Unknown) = best at *
  cases hpicked with
  | nothing hunknown =>
      have hunknown : ∀ i, 0 ≤ i → i < len → table.priority i = .Unknown := by
        intro i h0 hi
        have := hunknown i.toNat (by omega)
        rwa [Int.toNat_of_nonneg h0] at this
      have hindex : device.gidIndex = 0 := hindex
      have hrange : 0 ≤ device.gidIndex ∧ device.gidIndex ≤ 255 := by omega
      refine iff_of_true ⟨hrange, transitionQpToRtr_of_inRange hrange, ?_, hlocal⟩ ?_
      · intro i h0 _ hi
        rw [hunknown i h0 hi]
        exact GidPriority.unknown_le _
      · intro i hlow hi hknown
        exact absurd (hunknown i (by omega) hi) hknown
  | entry k hk hknown hbefore hbest =>
      have hbest : ∀ i, 0 ≤ i → i < len →
          (table.priority i).value ≤ (table.priority k).value := by
        intro i h0 hi
        have := hbest i.toNat (by omega)
        rwa [Int.toNat_of_nonneg h0] at this
      have hindex : device.gidIndex = k := hindex
      constructor
      · intro husable i hlow hi _
        have hrange := husable.inRange
        rw [hindex] at hrange
        exact ⟨k, hrange.1, hrange.2, by omega, hbest i (by omega) hi⟩
      · intro husable
        have hk255 : (k : Int) ≤ 255 := by
          by_contra hbig
          obtain ⟨j, h0, hj, -, hle⟩ := husable k (by omega) (by omega) hknown
          have hlt := hbefore j.toNat (by omega)
          rw [Int.toNat_of_nonneg h0] at hlt
          omega
        have hrange : 0 ≤ device.gidIndex ∧ device.gidIndex ≤ 255 := by omega
        refine ⟨hrange, transitionQpToRtr_of_inRange hrange, ?_, hlocal⟩
        intro i h0 _ hi
        rw [hindex]
        exact hbest i h0 hi

/-- With the table not read, the first entry was chosen. -/
theorem usable_iff_of_none (h : table.opened first none = some device) :
    OpensUsable table len device ↔ UsableTable table len none := by
  obtain ⟨hindex, hlocal⟩ := GidTable.opened_eq_some h
  have hindex : device.gidIndex = 0 := hindex
  have hrange : 0 ≤ device.gidIndex ∧ device.gidIndex ≤ 255 := by omega
  constructor
  · intro husable i h0 h255 hi
    have hle := husable.best i h0 h255 hi
    rwa [hindex] at hle
  · intro husable
    refine ⟨hrange, transitionQpToRtr_of_inRange hrange, ?_, hlocal⟩
    intro i h0 h255 hi
    rw [hindex]
    exact husable i h0 h255 hi

end Usable

/-- A device that was opened has a GID that connecting can use exactly when its
table is one that allows it. -/
theorem opensUsable_iff (P : Platform) (nicIndex len : Int) (answers : List Answer)
    (entries : List (Option (Option (List Byte)))) (dev : Device) (o : OpenedDevice) (t : Session)
    (hlist : P.getDeviceList 0 = .value entries) (hdev : deviceAt 0 entries nicIndex = some dev)
    (hstable : StableTable P dev len)
    (hrun : openRdmaDevice P nicIndex (.start answers) = .ok (some o) t) :
    OpensUsable (P.gidTable dev) len o.device ↔
      UsableTable (P.gidTable dev) len (P.queryPort dev kPortNum 1) := by
  obtain ⟨entries', dev', hlist', hdev', hopen, hpd⟩ := openRdmaDevice_opened hrun
  cases hlist.symm.trans hlist'
  cases hdev.symm.trans hdev'
  have hopened := ((openRdmaDevice_device answers hlist hdev hopen hpd hstable).ok hrun).symm
  cases hsecond : P.queryPort dev kPortNum 1 with
  | none =>
      rw [hsecond] at hopened
      exact usable_iff_of_none hopened
  | some attr =>
      rw [hsecond] at hopened
      exact usable_iff_of_some (hstable.len 1 attr hsecond) hopened

/-- A platform with one device, and a GID table that has a RoCE v2 entry for an
IPv4 address at one index, and no other entry. -/
def oneGid (index : Nat) (len : Int) : Platform where
  getDevice := .ok 0
  getDeviceCount := .ok 1
  deviceGetPCIBusId := fun _ => none
  getDeviceList := fun _ => .value [some (some [ascii 'a'])]
  openDevice := fun _ => .value ()
  allocPd := fun _ => .value ()
  queryDevice := fun _ => some ⟨1, 0⟩
  queryPort := fun _ _ _ => some ⟨.ACTIVE, len⟩
  queryGid := fun _ _ i _ =>
    if i = index then some #v[0, 0, 0, 0, 0, 0, 0, 0, 0, 0, 0xff, 0xff, 10, 0, 0, 1] else none
  roceVersion := fun _ _ _ => .V2
  sysfsBusId := fun _ => none
  sysfsNumaNode := fun _ => none

theorem oneGid_stable (index : Nat) (len : Int) (dev : Device) :
    StableTable (oneGid index len) dev len where
  gid := fun _ _ => rfl
  len := by
    rintro n attr ⟨⟩
    rfl

theorem opensUsable_oneGid_three :
    ∃ o t, openRdmaDevice (oneGid 3 4) 0 (.start []) = .ok (some o) t ∧
      OpensUsable ((oneGid 3 4).gidTable ⟨0, 0, some [ascii 'a']⟩) 4 o.device := by
  refine ⟨_, _, rfl, (opensUsable_iff (oneGid 3 4) 0 4 [] _ _ _ _ rfl rfl
    (oneGid_stable 3 4 _) rfl).mpr ?_⟩
  intro i hlow hi
  omega

/-- The only known entry is the one that is chosen. -/
theorem oneGid_choice (index : Nat) (len : Int) (dev : Device) (hlen : index < len)
    (attr : PortAttr) (hattr : attr.gidTblLen = len) :
    ((oneGid index len).gidTable dev).choice (some attr) = index := by
  have hother : ∀ j : Int, j ≠ index → ((oneGid index len).gidTable dev).priority j = .Unknown := by
    intro j hj
    simp [GidTable.priority, Platform.gidTable, oneGid, hj]
  have hknown : ((oneGid index len).gidTable dev).priority index = .RoceV2Ipv4 := by
    simp only [GidTable.priority, Platform.gidTable, oneGid, if_true]
    decide
  have hpicked := ((oneGid index len).gidTable dev).picked len.toNat
  have hchoice : ((oneGid index len).gidTable dev).choice (some attr) =
      ((((oneGid index len).gidTable dev).candidates len.toNat).foldl pickStep
        (none, .Unknown)).1.getD 0 := by
    rw [← hattr]
    rfl
  rw [hchoice]
  generalize (((oneGid index len).gidTable dev).candidates len.toNat).foldl pickStep
    (none, .Unknown) = best at *
  cases hpicked with
  | nothing hunknown =>
      cases hknown.symm.trans (hunknown index (by omega))
  | entry k _ hk _ _ =>
      by_contra hne
      exact hk (hother k hne)

theorem oneGid_opens (index : Nat) (len : Int) (hlen : index < len) :
    ∃ o t, openRdmaDevice (oneGid index len) 0 (.start []) = .ok (some o) t ∧
      o.device.gidIndex = index := by
  have hdevice : Ensures (openRdmaDevice (oneGid index len) 0) (.start [])
      (fun r _ => r.map OpenedDevice.device = ((oneGid index len).gidTable
        ⟨0, 0, some [ascii 'a']⟩).opened (some ⟨.ACTIVE, len⟩) (some ⟨.ACTIVE, len⟩))
      (fun _ => False) :=
    openRdmaDevice_device [] rfl rfl rfl rfl (oneGid_stable index len _)
  have hchoice := oneGid_choice index len ⟨0, 0, some [ascii 'a']⟩ hlen ⟨.ACTIVE, len⟩ rfl
  cases hrun : openRdmaDevice (oneGid index len) 0 (.start []) with
  | error e t => exact (hdevice.error hrun).elim
  | ok r t =>
      have hopened := hdevice.ok hrun
      cases r with
      | none =>
          rw [GidTable.opened, hchoice] at hopened
          simp [Platform.gidTable, oneGid] at hopened
      | some o =>
          refine ⟨o, t, rfl, ?_⟩
          rw [(GidTable.opened_eq_some hopened.symm).1, hchoice]

/-- In a table of 257 entries whose last is the only one configured, that one is
chosen, and no connection can use it. -/
theorem oneGid_not_opensUsable :
    ∃ o t, openRdmaDevice (oneGid 256 257) 0 (.start []) = .ok (some o) t ∧
      ¬OpensUsable ((oneGid 256 257).gidTable ⟨0, 0, some [ascii 'a']⟩) 257 o.device := by
  obtain ⟨o, t, hrun, hindex⟩ := oneGid_opens 256 257 (by decide)
  refine ⟨o, t, hrun, ?_⟩
  intro husable
  have hrange := husable.inRange.2
  rw [hindex] at hrange
  exact absurd hrange (by decide)

end HipObject
