import HipObject.Topology.HcaList
import HipObject.Topology.Holdings

/-!
# The devices with an active port

`SysfsTopology::enumerate` of `common/rdma-topology.cpp`. It opens each named
device that the list of names allows, and asks for one port after the other until
one is active. The port counter and the port count it is compared with are both
8 bits wide, so after port 255 the counter is 0 again: for a device with 255
ports and no active one the loop does not end. `enumerate` therefore takes fuel
for this loop.

`nics` says what the result should be, from the answers alone. Here are the code
and what its port loop does.
-/

namespace HipObject

open Codec Verification

structure NicInfo where
  devName : List Byte
  pcieBusId : List Byte
  numaNode : Int
  portNum : Int
  deriving DecidableEq

/-- A port that can be used. -/
def PortState.isActive (state : PortState) : Bool :=
  state == .ACTIVE || state == .ACTIVE_DEFER

/-- What is reported of a device: the bus id is empty if sysfs has none, and the
NUMA node is -1 if it has none, and otherwise not negative. -/
def nicInfo (P : Platform) (device : Device) (name : List Byte) (port : BitVec 8) : NicInfo where
  devName := name
  pcieBusId := (P.sysfsBusId device).getD []
  numaNode :=
    match P.sysfsNumaNode device with
    | none => -1
    | some node => max node 0
  portNum := port.toNat

/-- The names that `hcaList` allows: those it includes, or all if it is empty. -/
def allows (hcaList name : List Byte) : Bool := hcaList.isEmpty || hcaListIncludes hcaList name

/-- `for (uint8_t p = 1; p <= attr.phys_port_cnt; ++p)`, up to the first active
port. -/
def portLoop (P : Platform) (ctx : Context) (physPortCnt : BitVec 8) :
    Nat → BitVec 8 → PlatformM (Option (BitVec 8))
  | 0, _ => diverge
  | fuel + 1, p => do
      if p ≤ physPortCnt then
        match ← query (.queryPort ctx p) (P.queryPort ctx.device p) with
        | none => portLoop P ctx physPortCnt fuel (p + 1)
        | some attr =>
            if attr.state.isActive then return some p
            else portLoop P ctx physPortCnt fuel (p + 1)
      else return none

/-- One round of the loop over the devices. -/
def enumerateDevice (P : Platform) (fuel : Nat) (hcaList : List Byte) (dev : Device) :
    PlatformM (Option NicInfo) := do
  match ← query (.getDeviceName dev) (fun _ => dev.name) with
  | none => return none
  | some name =>
      if !allows hcaList name then return none
      else match ← acquire (.openDevice dev) .context (fun _ => P.openDevice dev) with
        | none => return none
        | some (id, _) =>
            let ctx : Context := ⟨id, dev⟩
            holding (.context id) do
              match ← query (.queryDevice ctx) (fun _ => P.queryDevice dev) with
              | none => return none
              | some attr =>
                  match ← portLoop P ctx attr.physPortCnt fuel 1 with
                  | none => return none
                  | some p => return some (nicInfo P dev name p)

/-- The devices of a list before its first null. -/
def devicesOf (list : Nat) : Nat → List (Option (Option (List Byte))) → List Device
  | _, [] => []
  | _, none :: _ => []
  | position, some name :: rest => ⟨list, position, name⟩ :: devicesOf list (position + 1) rest

/-- The loop over the devices. -/
def enumerateLoop (P : Platform) (fuel : Nat) (hcaList : List Byte) :
    List Device → List NicInfo → PlatformM (List NicInfo)
  | [], result => return result
  | dev :: rest, result => do
      let found ← enumerateDevice P fuel hcaList dev
      enumerateLoop P fuel hcaList rest (result ++ found.toList)

/-- `SysfsTopology::enumerate`. -/
def enumerate (P : Platform) (fuel : Nat) (hcaList : List Byte) : PlatformM (List NicInfo) := do
  match ← getDeviceList P with
  | none => return []
  | some (id, list, entries) =>
      holding (.deviceList id) (enumerateLoop P fuel hcaList (devicesOf list 0 entries) [])

/-! ### What it should do -/

/-- The answer to the first query of a port is that it can be used. -/
def Platform.portActive (P : Platform) (dev : Device) (port : BitVec 8) : Bool :=
  match P.queryPort dev port 0 with
  | none => false
  | some attr => attr.state.isActive

/-- The ports from `first` to `cnt`. -/
def portsFrom (first : Nat) (cnt : BitVec 8) : List (BitVec 8) :=
  (List.range' first (cnt.toNat + 1 - first)).map (BitVec.ofNat 8)

/-- The ports that a device has, which are counted from 1. -/
def Platform.ports (P : Platform) (dev : Device) : List (BitVec 8) :=
  match P.queryDevice dev with
  | none => []
  | some attr => portsFrom 1 attr.physPortCnt

/-- A device that has a name, and one that the list allows. -/
def wanted (hcaList : List Byte) (dev : Device) : Bool :=
  match dev.name with
  | none => false
  | some name => allows hcaList name

/-- What should be reported of a device: its first active port, if the device is
wanted, opens, answers `query_device` and has one. -/
def reportOf (P : Platform) (hcaList : List Byte) (dev : Device) : Option NicInfo :=
  match dev.name, P.openDevice dev with
  | some name, .value _ =>
      if allows hcaList name then
        ((P.ports dev).find? (P.portActive dev)).map (nicInfo P dev name)
      else none
  | _, _ => none

/-- The devices before the first null of the list that `enumerate` gets. -/
def listed (P : Platform) : List Device :=
  match P.getDeviceList 0 with
  | .value entries => devicesOf 0 0 entries
  | _ => []

/-- What `enumerate` should return. -/
def nics (P : Platform) (hcaList : List Byte) : List NicInfo :=
  (listed P).filterMap (reportOf P hcaList)

/-- The ports of `dev` that a trace queries, in order. -/
def portQueries (dev : Device) (tr : List (Event PlatformCall Resource)) : List (BitVec 8) :=
  tr.filterMap fun
    | .call (.queryPort ctx p) => if ctx.device = dev then some p else none
    | _ => none

/-! ### The port loop -/

/-- Calls that only report something leave everything but the trace as it is. -/
def Session.logs (s : Session) (cs : List PlatformCall) : Session :=
  { s with events := s.events ++ cs.map .call }

theorem Session.logs_nil (s : Session) : s.logs [] = s := by simp [Session.logs]

theorem Session.log_logs (s : Session) (c : PlatformCall) (cs : List PlatformCall) :
    (s.log c).logs cs = s.logs (c :: cs) := by simp [Session.logs, Session.log]

theorem Session.count_log_of_ne (s : Session) {c c' : PlatformCall} (h : c ≠ c') :
    (s.log c).count c' = s.count c' := by
  simp [Session.count, Session.log, h]

theorem portsFrom_of_le {k : Nat} {cnt : BitVec 8} (h : k ≤ cnt.toNat) :
    portsFrom k cnt = BitVec.ofNat 8 k :: portsFrom (k + 1) cnt := by
  have hlen : cnt.toNat + 1 - k = (cnt.toNat + 1 - (k + 1)) + 1 := by omega
  unfold portsFrom
  rw [hlen, List.range'_succ, List.map_cons]

theorem portsFrom_of_lt {k : Nat} {cnt : BitVec 8} (h : cnt.toNat < k) : portsFrom k cnt = [] := by
  have hlen : cnt.toNat + 1 - k = 0 := by omega
  unfold portsFrom
  rw [hlen]
  rfl

theorem ofNat_le_iff {k : Nat} {cnt : BitVec 8} (hk : k ≤ 255) :
    BitVec.ofNat 8 k ≤ cnt ↔ k ≤ cnt.toNat := by
  rw [BitVec.le_def, BitVec.toNat_ofNat, Nat.mod_eq_of_lt (by omega)]

theorem ofNat_succ (k : Nat) : BitVec.ofNat 8 k + 1 = BitVec.ofNat 8 (k + 1) := by
  rw [BitVec.ofNat_add]
  rfl

/-- The ports that are still to come are not the one just asked for. -/
theorem ofNat_not_mem_portsFrom {k : Nat} {cnt : BitVec 8} (hk : k ≤ 255) :
    BitVec.ofNat 8 k ∉ portsFrom (k + 1) cnt := by
  intro h
  obtain ⟨j, hj, heq⟩ := List.mem_map.mp h
  have hcnt := cnt.isLt
  rw [List.mem_range'_1] at hj
  have hnat := congrArg BitVec.toNat heq
  rw [BitVec.toNat_ofNat, BitVec.toNat_ofNat] at hnat
  omega

section PortLoop

variable (P : Platform) (ctx : Context) (cnt : BitVec 8)

/-- One round: the port is asked for, and the loop ends if it is active. -/
theorem portLoop_succ (fuel k : Nat) (s : Session) (hk : k ≤ cnt.toNat)
    (hnew : s.count (.queryPort ctx (BitVec.ofNat 8 k)) = 0) :
    portLoop P ctx cnt (fuel + 1) (BitVec.ofNat 8 k) s =
      if P.portActive ctx.device (BitVec.ofNat 8 k) then
        .ok (some (BitVec.ofNat 8 k)) (s.log (.queryPort ctx (BitVec.ofNat 8 k)))
      else portLoop P ctx cnt fuel (BitVec.ofNat 8 (k + 1))
        (s.log (.queryPort ctx (BitVec.ofNat 8 k))) := by
  have hcnt := cnt.isLt
  have hle : BitVec.ofNat 8 k ≤ cnt := (ofNat_le_iff (by omega)).mpr hk
  rw [portLoop, if_pos hle, ofNat_succ]
  change (match P.queryPort ctx.device (BitVec.ofNat 8 k) (s.count _) with
    | none => portLoop P ctx cnt fuel (BitVec.ofNat 8 (k + 1))
    | some attr => if attr.state.isActive then pure (some (BitVec.ofNat 8 k))
        else portLoop P ctx cnt fuel (BitVec.ofNat 8 (k + 1)) : PlatformM _)
      (s.log (.queryPort ctx (BitVec.ofNat 8 k))) = _
  rw [hnew]
  unfold Platform.portActive
  cases P.queryPort ctx.device (BitVec.ofNat 8 k) 0 with
  | none => rfl
  | some attr =>
      cases hactive : attr.state.isActive with
      | true => simp only [hactive, if_true]; rfl
      | false => simp only [hactive]; rfl

/-- While the counter does not wrap around, the loop asks for one port after the
other and finds the first active one. -/
theorem portLoop_spec (fuel k : Nat) (s : Session) (hk : k ≤ 255)
    (hfuel : cnt.toNat + 1 - k < fuel)
    (hnew : ∀ p ∈ portsFrom k cnt, s.count (.queryPort ctx p) = 0)
    (hends : cnt = 255 → ∃ p ∈ portsFrom k cnt, P.portActive ctx.device p = true) :
    ∃ asked, asked <+: portsFrom k cnt ∧
      portLoop P ctx cnt fuel (BitVec.ofNat 8 k) s =
        .ok ((portsFrom k cnt).find? (P.portActive ctx.device))
          (s.logs (asked.map (.queryPort ctx))) := by
  induction fuel generalizing k s with
  | zero => omega
  | succ fuel ih =>
      by_cases hle : k ≤ cnt.toNat
      · rw [portsFrom_of_le hle] at hnew hends ⊢
        rw [portLoop_succ P ctx cnt fuel k s hle (hnew _ List.mem_cons_self), List.find?_cons]
        cases hactive : P.portActive ctx.device (BitVec.ofNat 8 k) with
        | true =>
            refine ⟨[BitVec.ofNat 8 k], by simp, ?_⟩
            rfl
        | false =>
            -- the counter is below 255, or the last port would be active
            have hlt : k < 255 := by
              by_contra hnot
              have hcntlt := cnt.isLt
              have hcnt : cnt = 255 := by
                apply BitVec.eq_of_toNat_eq
                rw [show (255 : BitVec 8).toNat = 255 from rfl]
                omega
              obtain ⟨p, hp, hpactive⟩ := hends hcnt
              rw [portsFrom_of_lt (by omega), List.mem_singleton] at hp
              rw [hp, hactive] at hpactive
              cases hpactive
            have hnew' : ∀ p ∈ portsFrom (k + 1) cnt,
                (s.log (.queryPort ctx (BitVec.ofNat 8 k))).count (.queryPort ctx p) = 0 := by
              intro p hp
              rw [Session.count_log_of_ne]
              · exact hnew p (List.mem_cons_of_mem _ hp)
              · intro heq
                cases heq
                exact ofNat_not_mem_portsFrom (by omega) hp
            have hends' : cnt = 255 →
                ∃ p ∈ portsFrom (k + 1) cnt, P.portActive ctx.device p = true := by
              intro hcnt
              obtain ⟨p, hp, hpactive⟩ := hends hcnt
              rcases List.mem_cons.mp hp with rfl | hp
              · rw [hactive] at hpactive
                cases hpactive
              · exact ⟨p, hp, hpactive⟩
            obtain ⟨asked, hasked, hrun⟩ := ih (k + 1) _ (by omega) (by omega) hnew' hends'
            refine ⟨BitVec.ofNat 8 k :: asked, by simpa using hasked, ?_⟩
            rw [if_neg (by decide), hrun, Session.log_logs, List.map_cons]
      · have hgt : ¬BitVec.ofNat 8 k ≤ cnt := by rwa [ofNat_le_iff hk]
        rw [portsFrom_of_lt (by omega)]
        refine ⟨[], List.nil_prefix, ?_⟩
        rw [portLoop, if_neg hgt, List.map_nil, Session.logs_nil]
        rfl

/-- The trace goes on with queries of ports. -/
def AsksPorts (ctx : Context) (s t : Session) : Prop :=
  ∃ asked : List (BitVec 8), t.events = s.events ++ asked.map fun p => .call (.queryPort ctx p)

/-- With any fuel, the loop only asks for ports. -/
theorem portLoop_asks (fuel : Nat) (p : BitVec 8) (s : Session) :
    Ensures (portLoop P ctx cnt fuel p) s (fun _ t => AsksPorts ctx s t)
      (fun t => t.diverged = true ∧ AsksPorts ctx s t) := by
  induction fuel generalizing p s with
  | zero => exact ⟨rfl, [], (List.append_nil _).symm⟩
  | succ fuel ih =>
      have hfirst : ∀ t, AsksPorts ctx (s.log (.queryPort ctx p)) t → AsksPorts ctx s t := by
        rintro t ⟨asked, hevents⟩
        refine ⟨p :: asked, ?_⟩
        rw [hevents]
        simp [Session.log]
      have hnext : Ensures (portLoop P ctx cnt fuel (p + 1)) (s.log (.queryPort ctx p))
          (fun _ t => AsksPorts ctx s t) (fun t => t.diverged = true ∧ AsksPorts ctx s t) :=
        (ih (p + 1) (s.log (.queryPort ctx p))).mono (fun _ t ht => hfirst t ht)
          fun t ht => ⟨ht.1, hfirst t ht.2⟩
      rw [portLoop]
      split
      · refine query_bind ?_
        cases P.queryPort ctx.device p (s.count (.queryPort ctx p)) with
        | none => exact hnext
        | some attr =>
            cases hactive : attr.state.isActive with
            | true =>
                simp only [hactive, if_true]
                exact ⟨[p], rfl⟩
            | false =>
                simp only [hactive]
                exact hnext
      · exact ⟨[], (List.append_nil _).symm⟩

/-- With 255 ports and no active one among them, the counter wraps around to
port 0, unless the run is cut short. -/
theorem portLoop_wraps (fuel k : Nat) (s : Session) (hk : k ≤ 255) (hcnt : cnt = 255)
    (hnew : ∀ p ∈ portsFrom k cnt, s.count (.queryPort ctx p) = 0)
    (hnone : ∀ p ∈ portsFrom k cnt, P.portActive ctx.device p = false) :
    Ensures (portLoop P ctx cnt fuel (BitVec.ofNat 8 k)) s
      (fun _ t => .call (.queryPort ctx 0) ∈ t.events) (fun t => t.diverged = true) := by
  induction fuel generalizing k s with
  | zero => rfl
  | succ fuel ih =>
      have hle : k ≤ cnt.toNat := by
        rw [hcnt, show (255 : BitVec 8).toNat = 255 from rfl]
        exact hk
      rw [portsFrom_of_le hle] at hnew hnone
      unfold Ensures
      rw [portLoop_succ P ctx cnt fuel k s hle (hnew _ List.mem_cons_self),
        hnone _ List.mem_cons_self, if_neg (by decide)]
      change Ensures (portLoop P ctx cnt fuel (BitVec.ofNat 8 (k + 1)))
        (s.log (.queryPort ctx (BitVec.ofNat 8 k))) _ _
      by_cases hlt : k < 255
      · refine ih (k + 1) _ (by omega) ?_ fun p hp => hnone p (List.mem_cons_of_mem _ hp)
        intro p hp
        rw [Session.count_log_of_ne]
        · exact hnew p (List.mem_cons_of_mem _ hp)
        · intro heq
          cases heq
          exact ofNat_not_mem_portsFrom hk hp
      · -- the counter is 0 now
        have hzero : BitVec.ofNat 8 (k + 1) = 0 := by
          rw [show k = 255 by omega]
          rfl
        rw [hzero]
        cases fuel with
        | zero => rfl
        | succ fuel =>
            have hzeroLe : (0 : BitVec 8) ≤ cnt := by rw [hcnt]; decide
            rw [portLoop, if_pos hzeroLe]
            refine query_bind ?_
            have hasked : ∀ t, AsksPorts ctx ((s.log (.queryPort ctx (BitVec.ofNat 8 k))).log
                (.queryPort ctx 0)) t → .call (.queryPort ctx 0) ∈ t.events := by
              rintro t ⟨asked, hevents⟩
              rw [hevents]
              simp [Session.log]
            have hnext := (portLoop_asks P ctx cnt fuel (0 + 1)
              ((s.log (.queryPort ctx (BitVec.ofNat 8 k))).log (.queryPort ctx 0))).mono
                (fun _ t ht => hasked t ht) fun _ ht => ht.1
            cases P.queryPort ctx.device 0 _ with
            | none => exact hnext
            | some attr =>
                cases hactive : attr.state.isActive with
                | true =>
                    simp only [hactive, if_true]
                    exact hasked _ ⟨[], (List.append_nil _).symm⟩
                | false =>
                    simp only [hactive]
                    exact hnext

end PortLoop

end HipObject
