import HipObject.Buffer.Args
import HipObject.Topology.Enumerate
import HipObject.Topology.OpenDevice

/-!
# Initialization

`initWith` and `shutdownInstance` of `state.cpp`, with the choice of the NIC from
`common/rdma-topology.cpp`. The device, the token connection and the pool are
built one on the other in local variables, which release what they hold, newest
first, when a later step fails or throws; the instance is only published at the
end.

Which NICs there are is a parameter, since the topology is an interface. Nothing
else takes the locks here; how calls interleave is the business of the library
machine.
-/

namespace HipObject

open Codec Verification

/-! ### The closest NIC -/

/-- A bus id up to its last colon, or all of it. -/
def extractBusNumber (pcieBusId : List Byte) : List Byte :=
  if ascii ':' ∈ pcieBusId then
    ((pcieBusId.reverse.dropWhile (· != ascii ':')).drop 1).reverse
  else pcieBusId

/-- How many characters two texts have in common at their start. -/
def commonLength : List Byte → List Byte → Nat
  | a :: as, b :: bs => if a = b then commonLength as bs + 1 else 0
  | _, _ => 0

/-- `std::numeric_limits<int>::max()`. -/
def intMax : Int := 2147483647

def getBusIdDistance (busA busB : List Byte) : Int :=
  if busA.isEmpty || busB.isEmpty then intMax
  else
    let a := extractBusNumber busA
    let b := extractBusNumber busB
    if a = b then 0
    else
      let i := commonLength a b
      ((a.length - i : Nat) : Int) + ((b.length - i : Nat) : Int)

/-- `std::ranges::min_element`: the first of the smallest. -/
def minElement (distance : NicInfo → Int) : List NicInfo → Nat → Nat × NicInfo → Nat × NicInfo
  | [], _, best => best
  | nic :: rest, i, best =>
      minElement distance rest (i + 1) (if distance nic < distance best.2 then (i, nic) else best)

structure RdmaNic where
  index : Int
  name : List Byte
  deriving DecidableEq

/-- The first of the closest NICs, if one has a known bus id. -/
def closestNic (gpuBus : List Byte) : List NicInfo → Option RdmaNic
  | [] => none
  | nic :: rest =>
      let distance (nic : NicInfo) := getBusIdDistance nic.pcieBusId gpuBus
      let best := minElement distance rest 1 (0, nic)
      if distance best.2 = intMax then none else some ⟨best.1, best.2.devName⟩

/-- A bus id in its buffer: up to the first NUL, or the whole buffer if there is
none. -/
def busIdText (busId : Vector Byte kPciBusIdBufLen) : List Byte :=
  busId.toList.takeWhile (· ≠ 0)

/-- The NICs that a topology lists for a list of names. -/
abbrev Enumerate := List Byte → PlatformM (List NicInfo)

def getClosestNicToGpu (P : Platform) (enumerate : Enumerate) (gpuIndex : Int)
    (hcaList : List Byte) : PlatformM (Option RdmaNic) := do
  match ← query (.deviceGetPCIBusId gpuIndex) (fun _ => P.deviceGetPCIBusId gpuIndex) with
  | none => return none
  | some gpuBusId => return closestNic (busIdText gpuBusId) (← enumerate hcaList)

/-! ### Instances -/

/-- What `hipObjInit` takes: a GPU, where -1 stands for the current one, and the
names of the NICs to choose from, which are all NICs if it is empty. -/
structure Config where
  gpuDevice : Int
  nicHint : List Byte

structure ResolvedConfig where
  gpuDevice : Int
  nicHint : List Byte
  nicIndex : Int

structure Instance where
  maxTransfers : Nat
  config : ResolvedConfig
  device : OpenedDevice
  tokenConn : RcConnection
  pool : ConnectionPool

/-- Destroying an `RdmaDevice`: its protection domain, and then its context. -/
def destroyDevice (device : OpenedDevice) : PlatformM Unit := do
  release (.pd device.pd device.context.id)
  release (.context device.context.id)

/-- Destroying the connections of a pool. -/
def destroyPool (device : OpenedDevice) (pool : ConnectionPool) : PlatformM Unit :=
  onVerbs device.handles (pool.slots.reduceOption.forM destroyConnection)

/-- Destroying an instance: its members, the last one first. -/
def destroyInstance (inst : Instance) : PlatformM Unit := do
  destroyPool inst.device inst.pool
  onVerbs inst.device.handles (destroyConnection inst.tokenConn)
  destroyDevice inst.device

/-- Code with local variables that `cleanup` destroys, unless they are moved into
the result. -/
def guarding {α : Type} (cleanup : PlatformM Unit) (x : PlatformM (Option α)) :
    PlatformM (Option α) := fun s =>
  match x s with
  | .ok (some a) t => .ok (some a) t
  | .ok none t => .ok none (finalState (cleanup t))
  | .error e t => .error e (if t.diverged then t else finalState (cleanup t))

/-- Opens the device, and builds the instance on it. `lockThrows` says that
taking the lock to publish the instance throws. -/
def buildInstance (P : Platform) (config : ResolvedConfig) (name : List Byte) (maxTransfers : Nat)
    (lockThrows : Bool) : PlatformM (Option Instance) := do
  match ← openRdmaDeviceByName P name with
  | none => return none
  | some device =>
      guarding (destroyDevice device) do
        match ← onVerbs device.handles ConnectionPool.createConnection with
        | none => return none
        | some tokenConn =>
            guarding (onVerbs device.handles (destroyConnection tokenConn)) do
              let pool ← onVerbs device.handles (ConnectionPool.create maxTransfers)
              guarding (destroyPool device pool) do
                -- the pool stops at the first connection it can't create
                if pool.live ≠ maxTransfers then return none
                else if lockThrows then throw .thrown
                else return some { maxTransfers, config, device, tokenConn, pool }

/-! ### The library -/

/-- `hipObjError_t`. -/
structure HipObjError where
  opError : OpError
  hipError : Int
  deriving DecidableEq

def makeError (opError : OpError) (hipError : Int) : HipObjError := ⟨opError, hipError⟩

structure Library where
  session : Session
  current : Option Instance

abbrev LibraryM (α : Type) := EStateM Thrown Library α

/-- Runs code that does not touch the current instance. -/
def onSession {α : Type} (x : PlatformM α) : LibraryM α := fun lib =>
  match x lib.session with
  | .ok a t => .ok a { lib with session := t }
  | .error e t => .error e { lib with session := t }

/-- The GPU to use: the current one if none is given, which may be missing if
there is a NIC hint, and otherwise one that exists. -/
def resolveGpu (P : Platform) (config : Config) : PlatformM (Except HipObjError Int) := do
  if config.gpuDevice < 0 then
    match ← query .getDevice (fun _ => P.getDevice) with
    | .ok gpuDevice => return .ok gpuDevice
    | .error err =>
        if err ≠ hipErrorNoDevice ∨ config.nicHint.isEmpty then
          return .error (makeError .RdmaError err)
        else return .ok (-1)
  else
    match ← query .getDeviceCount (fun _ => P.getDeviceCount) with
    | .ok deviceCount =>
        if config.gpuDevice ≥ deviceCount then return .error (makeError .InvalidValue 0)
        else return .ok config.gpuDevice
    | .error err =>
        if err = hipErrorNoDevice then return .error (makeError .InvalidValue 0)
        else return .error (makeError .RdmaError err)

/-- The NIC closest to the GPU, or the one that the hint names. -/
def chooseNic (P : Platform) (enumerate : Enumerate) (gpuDevice : Int) (nicHint : List Byte) :
    PlatformM (Option RdmaNic) := do
  let closest : PlatformM (Option RdmaNic) :=
    if gpuDevice ≥ 0 then getClosestNicToGpu P enumerate gpuDevice nicHint else pure none
  match ← closest with
  | some nic => return some nic
  | none => if nicHint.isEmpty then return none else return some ⟨0, nicHint⟩

/-- `initWith` from where it has found that there is no instance, up to where it
publishes the one it has built. -/
def startInstance (P : Platform) (enumerate : Enumerate) (config : Config) (maxTransfers : Nat)
    (lockThrows : Bool) : PlatformM (Except HipObjError Instance) := do
  match ← resolveGpu P config with
  | .error err => return .error err
  | .ok gpuDevice =>
      match ← chooseNic P enumerate gpuDevice config.nicHint with
      | none => return .error (makeError .NicNotFound 0)
      | some nic =>
          let resolved : ResolvedConfig := ⟨gpuDevice, config.nicHint, nic.index⟩
          match ← buildInstance P resolved nic.name maxTransfers lockThrows with
          | none => return .error (makeError .RdmaError 0)
          | some inst => return .ok inst

def initWith (P : Platform) (enumerate : Enumerate) (config : Config) (maxTransfers : Nat)
    (lockThrows : Bool) : LibraryM HipObjError := do
  if (← get).current.isSome then return makeError .AlreadyInitialized 0
  else match ← onSession (resolveGpu P config) with
    | .error err => return err
    | .ok gpuDevice =>
        match ← onSession (chooseNic P enumerate gpuDevice config.nicHint) with
        | none => return makeError .NicNotFound 0
        | some nic =>
            let resolved : ResolvedConfig := ⟨gpuDevice, config.nicHint, nic.index⟩
            match ← onSession (buildInstance P resolved nic.name maxTransfers lockThrows) with
            | none => return makeError .RdmaError 0
            | some inst =>
                modify fun lib => { lib with current := some inst }
                return makeError .Success 0

/-- `shutdownInstance`, when nothing else holds the instance. Closing the pool
makes no platform call. -/
def shutdownInstance : LibraryM Unit := do
  let lib ← get
  set { lib with current := none }
  match lib.current with
  | none => return ()
  | some inst => onSession (destroyInstance inst)

end HipObject
