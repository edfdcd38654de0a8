import HipObject.Rdma.ConnectionPool

/-!
# Arguments of the buffer calls

The checks of `hipobj.cpp` and `buffer.cpp` on pointers, sizes and offsets, and
the token that is built from them. A pointer and a `size_t` are 64 bits wide, and
an `off_t` is the same bits read as a signed number. The checks compare without
computing a sum that could wrap; each has a lemma that says what it means in
exact arithmetic.
-/

namespace HipObject

/-- `hipObjOpError_t`. -/
inductive OpError where
  | Success
  | InvalidValue
  | NotInitialized
  | AlreadyInitialized
  | RdmaError
  | S3Error
  | BufNotRegistered
  | BufAlreadyRegistered
  | NicNotFound
  | DmabufNotSupported
  | SizeTooLarge
  | InternalError
  | Busy
  deriving DecidableEq, Repr

/-- `MAX_MR_SIZE`, 4 GiB. -/
def MAX_MR_SIZE : BitVec 64 := 4 * 1024 * 1024 * 1024

/-- True when the `size` bytes at `offset` lie inside a registration of
`regSize` bytes. -/
def rangeInRegistration (offset size regSize : BitVec 64) : Bool :=
  if offset.toInt < 0 ∨ offset.toInt > regSize.toNat then false
  else decide (size ≤ regSize - offset)

/-- Checks the arguments to a call that registers `size` bytes at `ptr`. -/
def checkRegistrationArgs (ptr size : BitVec 64) : OpError :=
  if ptr = 0 ∨ size = 0 then .InvalidValue
  else if size > MAX_MR_SIZE then .SizeTooLarge
  else if size > BitVec.allOnes 64 - ptr then .InvalidValue
  else .Success

/-- What the buffer map did. -/
inductive RegisterResult where
  | Registered
  | AlreadyRegistered
  | Failed
  deriving DecidableEq, Repr

/-- What a registration call returns for what the buffer map did. -/
def registrationError : RegisterResult → OpError
  | .Registered => .Success
  | .AlreadyRegistered => .BufAlreadyRegistered
  | .Failed => .RdmaError

/-- What a transfer returns when it can't lease a connection. -/
def acquireError : AcquireError → OpError
  | .Closed => .NotInitialized
  | .Busy => .Busy
  | .NoConnections => .RdmaError

/-- How HIP classifies a pointer. -/
inductive MemoryType where
  | device
  | other
  deriving DecidableEq, Repr

/-- A pointer that HIP can't classify doesn't count as device memory. -/
def isDevicePointer (attr : Option MemoryType) : Bool := attr == some .device

/-- What HIP says about a pointer: its attributes, and the start and the size of
the allocation that holds it. -/
structure PointerInfo where
  attr : Option MemoryType
  range : Option (BitVec 64 × BitVec 64)
  deriving DecidableEq

/-- False when HIP reports `ptr` as device memory and the `size` bytes at it
don't fit inside the allocation that holds it, or that can't be found. -/
def isValidDeviceRange (info : PointerInfo) (ptr size : BitVec 64) : Bool :=
  if !isDevicePointer info.attr then true
  else match info.range with
    | none => false
    | some (base, allocSize) =>
        if ptr < base ∨ ptr - base ≥ allocSize then false
        else decide (size ≤ allocSize - (ptr - base))

/-! ### Registrations -/

/-- A memory region, with the range it was registered over. -/
structure Mr where
  id : Nat
  addr : BitVec 64
  length : BitVec 64
  rkey : BitVec 32
  deriving DecidableEq

/-- A host staging buffer. -/
structure HostBuf where
  id : Nat
  addr : BitVec 64
  size : BitVec 64
  deriving DecidableEq

/-- `BufferMap::BufEntry`. It is only built with an MR, so `mr` is never null.
The last two say which call built it: the address it was registered at, and what
HIP said about it if that was `hipObjBufRegister`. -/
structure BufEntry where
  /-- `none` when the NIC reaches the caller's memory directly. -/
  hostBuf : Option HostBuf
  mr : Mr
  size : BitVec 64
  isDmabuf : Bool
  /-- The address to advertise to the peer. -/
  remoteAddr : BitVec 64
  leakHostBuf : Bool
  key : BitVec 64
  info : Option PointerInfo
  deriving DecidableEq

/-- The entry with its staging buffer to be leaked. -/
def BufEntry.leak (e : BufEntry) : BufEntry := { e with leakHostBuf := true }

/-- Checks the arguments to a call that uses part of the buffer registered at
`devPtr`, where `buf` is what the map holds for it. -/
def checkBufferArgs (devPtr : BitVec 64) (buf : Option BufEntry) (size offset : BitVec 64) :
    OpError :=
  if devPtr = 0 ∨ size = 0 ∨ offset.toInt < 0 then .InvalidValue
  else match buf with
    | none => .BufNotRegistered
    | some buf =>
        if !rangeInRegistration offset size buf.size then .InvalidValue
        else .Success

/-- The token for part of a registration, on a connection of the given device. -/
def buildRdmaToken (device : RdmaDevice) (qpNum : BitVec 32) (buf : BufEntry)
    (size offset : BitVec 64) : Option RdmaToken :=
  if !rangeInRegistration offset size buf.size then none
  else some {
    qpNum := qpNum
    gid := device.localGid
    rkey := buf.mr.rkey
    remoteAddr := buf.remoteAddr + offset
    length := size
    transport := .RC
    portNum := device.portNum
    lid := 0 }

/-- What a call finds: an instance, the buffer that is registered at the address,
and whether a staging copy of it that timed out is still running. -/
structure Lookup where
  initialized : Bool
  buf : Option BufEntry
  running : Bool

/-- `checkNoAbandonedCopy`. -/
def Lookup.checkNoAbandonedCopy (look : Lookup) (buf : BufEntry) : OpError :=
  if buf.hostBuf.isSome && look.running then .Busy else .Success

/-! ### In exact arithmetic -/

theorem toNat_of_toInt_nonneg {x : BitVec 64} (h : 0 ≤ x.toInt) : (x.toNat : Int) = x.toInt := by
  rw [BitVec.toInt_eq_toNat_cond] at h ⊢
  split at h <;> omega

theorem rangeInRegistration_iff {offset size regSize : BitVec 64} :
    rangeInRegistration offset size regSize = true ↔
      0 ≤ offset.toInt ∧ offset.toInt + size.toNat ≤ regSize.toNat := by
  unfold rangeInRegistration
  split
  · rename_i hout
    simp only [Bool.false_eq_true, false_iff]
    omega
  · rename_i hin
    have hnonneg : 0 ≤ offset.toInt := by omega
    have hoffset := toNat_of_toInt_nonneg hnonneg
    have hsub : (regSize - offset).toNat = regSize.toNat - offset.toNat := by
      rw [BitVec.toNat_sub]
      have := regSize.isLt
      omega
    rw [decide_eq_true_iff, BitVec.le_def, hsub]
    omega

/-- An accepted registration is not empty, at most 4 GiB, and ends before the
end of the address space. -/
theorem checkRegistrationArgs_success {ptr size : BitVec 64}
    (h : checkRegistrationArgs ptr size = .Success) :
    0 < size.toNat ∧ size.toNat ≤ 2 ^ 32 ∧ ptr.toNat + size.toNat < 2 ^ 64 := by
  unfold checkRegistrationArgs at h
  split at h
  · cases h
  · rename_i hnull
    split at h
    · cases h
    · rename_i hlarge
      split at h
      · cases h
      · rename_i hwrap
        have hpos : size.toNat ≠ 0 := by
          intro hzero
          exact hnull (.inr (BitVec.eq_of_toNat_eq hzero))
        have hmax : MAX_MR_SIZE.toNat = 2 ^ 32 := by decide
        have hones : (BitVec.allOnes 64 - ptr).toNat = 2 ^ 64 - 1 - ptr.toNat := by
          rw [BitVec.toNat_sub, BitVec.toNat_allOnes]
          have := ptr.isLt
          omega
        rw [gt_iff_lt, BitVec.lt_def, hmax] at hlarge
        rw [gt_iff_lt, BitVec.lt_def, hones] at hwrap
        have := ptr.isLt
        omega

/-- Device memory that is accepted lies inside its allocation. -/
theorem isValidDeviceRange_device {info : PointerInfo} {ptr size : BitVec 64}
    (h : isValidDeviceRange info ptr size = true) (hdevice : isDevicePointer info.attr = true) :
    ∃ base allocSize, info.range = some (base, allocSize) ∧ base.toNat ≤ ptr.toNat ∧
      ptr.toNat + size.toNat ≤ base.toNat + allocSize.toNat := by
  unfold isValidDeviceRange at h
  rw [hdevice] at h
  simp only [Bool.not_true, Bool.false_eq_true, if_false] at h
  split at h
  · cases h
  · rename_i base allocSize hrange
    split at h
    · cases h
    · rename_i hin
      refine ⟨base, allocSize, hrange, ?_⟩
      rw [not_or, BitVec.lt_def, ge_iff_le, BitVec.le_def] at hin
      have hoffset : (ptr - base).toNat = ptr.toNat - base.toNat := by
        rw [BitVec.toNat_sub]
        have := ptr.isLt
        omega
      have hleft : (allocSize - (ptr - base)).toNat = allocSize.toNat - (ptr - base).toNat := by
        rw [BitVec.toNat_sub]
        have := allocSize.isLt
        omega
      rw [decide_eq_true_iff, BitVec.le_def, hleft] at h
      omega

theorem checkBufferArgs_success {devPtr size offset : BitVec 64} {buf : Option BufEntry}
    (h : checkBufferArgs devPtr buf size offset = .Success) :
    devPtr ≠ 0 ∧ 0 < size.toNat ∧ ∃ entry, buf = some entry ∧ 0 ≤ offset.toInt ∧
      offset.toInt + size.toNat ≤ entry.size.toNat := by
  unfold checkBufferArgs at h
  split at h
  · cases h
  · rename_i hargs
    cases buf with
    | none => cases h
    | some entry =>
        dsimp only at h
        split at h
        · cases h
        · rename_i hrange
          have hrange : rangeInRegistration offset size entry.size = true := by simpa using hrange
          refine ⟨fun hnull => hargs (.inl hnull), ?_, entry, rfl,
            rangeInRegistration_iff.mp hrange⟩
          refine Nat.pos_of_ne_zero fun hzero => hargs (.inr (.inl ?_))
          exact BitVec.eq_of_toNat_eq hzero

/-- A token that is built covers what was asked for. -/
theorem buildRdmaToken_some {device : RdmaDevice} {qpNum : BitVec 32} {buf : BufEntry}
    {size offset : BitVec 64} {token : RdmaToken}
    (h : buildRdmaToken device qpNum buf size offset = some token) :
    0 ≤ offset.toInt ∧ offset.toInt + size.toNat ≤ buf.size.toNat ∧
      token.rkey = buf.mr.rkey ∧ token.remoteAddr = buf.remoteAddr + offset ∧
      token.length = size := by
  unfold buildRdmaToken at h
  split at h
  · cases h
  · rename_i hrange
    have hrange : rangeInRegistration offset size buf.size = true := by simpa using hrange
    cases h
    exact ⟨(rangeInRegistration_iff.mp hrange).1, (rangeInRegistration_iff.mp hrange).2, rfl, rfl,
      rfl⟩

end HipObject
