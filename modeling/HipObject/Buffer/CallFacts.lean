import HipObject.Buffer.Map

/-!
# What a call has done, and knows

`PcOk` says for each program counter what a call there has done so far: whether
its arguments were accepted, what it found, what the outside has seen of it. From
it follow what a call returns, and that every entry covers what it was registered
for. This module has the facts, and what a call takes along when it goes on or
returns.
-/

namespace HipObject

open Verification

variable {setup : Setup} {s t u : InstanceState} {c c' : Call} {reply : Reply}
variable {inserted : List (Nat × BitVec 64 × Nat)} {locals : Locals} {result : OpError}
variable {info : Option PointerInfo}

/-- Whether a call registers memory, or uses a buffer that is registered. -/
def Op.registers : Op → Bool
  | register .. => true
  | registerHost .. => true
  | _ => false

def Op.usesBuffer : Op → Bool
  | register .. => false
  | registerHost .. => false
  | deregister .. => false
  | _ => true

/-! ### Entries -/

/-- An entry in exact arithmetic: what its memory region covers, and where that
lies. -/
structure EntryOk (e : BufEntry) : Prop where
  pos : 0 < e.size.toNat
  small : e.size.toNat ≤ 2 ^ 32
  keyEnd : e.key.toNat + e.size.toNat < 2 ^ 64
  remoteEnd : e.remoteAddr.toNat + e.size.toNat < 2 ^ 64
  mr : e.mr.addr = e.remoteAddr ∧ e.mr.length = e.size
  direct : e.hostBuf = none → e.remoteAddr = e.key
  staged : ∀ hostBuf, e.hostBuf = some hostBuf →
    hostBuf.addr = e.remoteAddr ∧ hostBuf.size = e.size ∧ e.info.isSome
  device : ∀ info, e.info = some info → isDevicePointer info.attr = true →
    ∃ base allocSize, info.range = some (base, allocSize) ∧ base.toNat ≤ e.key.toNat ∧
      e.key.toNat + e.size.toNat ≤ base.toNat + allocSize.toNat

/-- The bytes that a call asks for lie inside an entry. -/
def Fits (op : Op) (e : BufEntry) : Prop :=
  0 < op.size.toNat ∧ 0 ≤ op.offset.toInt ∧ op.offset.toInt + op.size.toNat ≤ e.size.toNat

/-! ### Calls -/

namespace Call

/-- It hasn't done anything yet. -/
structure Fresh (inserted : List (Nat × BitVec 64 × Nat)) (c : Call) : Prop where
  effects : c.effects = []
  found : c.found = none
  blocked : c.blocked = false
  notInserted : c.id ∉ inserted.map Prod.fst

/-- It registers memory, and its arguments were accepted. -/
structure Registering (inserted : List (Nat × BitVec 64 × Nat)) (c : Call)
    (info : Option PointerInfo) : Prop where
  fresh : c.Fresh inserted
  op : c.op.registers = true
  args : checkRegistrationArgs c.op.devPtr c.op.size = .Success
  range : ∀ i, info = some i → isValidDeviceRange i c.op.devPtr c.op.size = true

/-- It has found the entry of its address. -/
def Found (c : Call) : Prop := ∀ e, c.found = some e → EntryOk e ∧ e.key = c.op.devPtr

/-- It uses a buffer that holds what it asks for. -/
structure Using (c : Call) : Prop where
  op : c.op.usesBuffer = true
  found : c.Found
  fits : ∃ e, c.found = some e ∧ Fits c.op e

/-- Nothing was in its way, and every token it minted is for the buffer it found. -/
structure Working (c : Call) : Prop extends Using c where
  blocked : c.blocked = false
  tokens : ∀ token, .minted token ∈ c.effects → ∃ e device qpNum, c.found = some e ∧
    buildRdmaToken device qpNum e c.op.size c.op.offset = some token

/-- It returns, or is about to. -/
structure Ended (inserted : List (Nat × BitVec 64 × Nat)) (c : Call) (locals : Locals)
    (result : OpError) : Prop where
  found : c.Found
  effects : c.effects ≠ [] → c.Working
  success : c.op.usesBuffer = true → result = .Success → c.Working
  blocked : c.blocked = true → result = .Busy
  registered : c.op.registers = true →
    (result = .Success ↔ ∃ i, c.built = some i ∧ (c.id, c.op.devPtr, i) ∈ inserted)
  owns : locals.mr.isSome ∨ locals.hostBuf.isSome ∨ locals.fd.isSome → c.op.registers = true
  /-- Only a deregistration and a registration that fails have a memory region, or an
  entry of their own, to give up. -/
  gives : locals.mr.isSome ∨ locals.entry.isSome → c.op.usesBuffer = false ∧
    (c.op.registers = true → result ≠ .Success)
  copy : locals.copy = none

end Call

/-- What a call at a program counter has done. -/
def PcOk (inserted : List (Nat × BitVec 64 × Nat)) (c : Call) : Pc → Prop
  | .start => c.Fresh inserted
  | .precheck info => c.Registering inserted info
  | .exportDmabuf info => c.Registering inserted info
  | .regDmabufMr info _ => c.Registering inserted info
  | .closeDmabuf info _ mr => c.Registering inserted info ∧
      ∀ m, mr = some m → EntryOk (InstanceState.newEntry c info m none)
  | .regMr info => c.Registering inserted info
  | .hostMalloc info => c.Registering inserted info ∧ info.isSome
  | .regStagingMr info hostBuf => c.Registering inserted info ∧ info.isSome ∧
      hostBuf.size = c.op.size ∧ hostBuf.addr.toNat + c.op.size.toNat < 2 ^ 64
  | .build info mr hostBuf => c.Registering inserted info ∧
      EntryOk (InstanceState.newEntry c info mr hostBuf)
  | .insert i => c.Fresh inserted ∧ c.op.registers = true ∧ c.built = some i
  | .reclaim => c.Fresh inserted ∧ c.op.registers = false ∧ c.op.usesBuffer = false
  | .remove _ => c.Fresh inserted ∧ c.op.registers = false ∧ c.op.usesBuffer = false
  | .find => c.Fresh inserted ∧ c.op.usesBuffer = true
  | .checkBufferArgs buf => c.op.usesBuffer = true ∧ c.Found ∧ c.effects = [] ∧
      c.blocked = false ∧ (buf = none → c.found = none)
  | .checkNoAbandonedCopy _ => c.Using ∧ c.effects = [] ∧ c.blocked = false
  | .checked _ _ stillRunning => c.Using ∧ c.effects = [] ∧ c.blocked = stillRunning
  | .eventRecord buf _ copy => c.Working ∧ .startedCopy copy ∈ c.effects ∧ copy.entry = buf
  | .eventQuery buf _ copy => c.Working ∧ .startedCopy copy ∈ c.effects ∧ copy.entry = buf
  | .add buf _ copy => c.Working ∧ .startedCopy copy ∈ c.effects ∧ copy.entry = buf
  | .unwind locals result => c.Ended inserted locals result
  | _ => c.Working

/-- A call hasn't been seen by the outside and isn't blocked, or works, or has
just been checked, or ends. -/
theorem PcOk.phase (h : PcOk inserted c c.pc) :
    c.effects = [] ∧ c.blocked = false ∨ c.Working ∨
      (∃ buf ended stillRunning, c.pc = .checked buf ended stillRunning ∧ c.effects = [] ∧
        c.blocked = stillRunning) ∨
      ∃ locals result, c.pc = .unwind locals result ∧ c.Ended inserted locals result := by
  cases hpc : c.pc with
  | start =>
      rw [hpc] at h
      exact .inl ⟨Call.Fresh.effects h, Call.Fresh.blocked h⟩
  | precheck _ | exportDmabuf _ | regDmabufMr _ _ | regMr _ =>
      rw [hpc] at h
      have hfresh := Call.Registering.fresh h
      exact .inl ⟨hfresh.effects, hfresh.blocked⟩
  | closeDmabuf _ _ _ | hostMalloc _ | regStagingMr _ _ | build _ _ _ =>
      rw [hpc] at h
      exact .inl ⟨h.1.fresh.effects, h.1.fresh.blocked⟩
  | insert _ | reclaim | remove _ | find =>
      rw [hpc] at h
      exact .inl ⟨h.1.effects, h.1.blocked⟩
  | checkBufferArgs buf =>
      rw [hpc] at h
      exact .inl ⟨h.2.2.1, h.2.2.2.1⟩
  | checkNoAbandonedCopy buf =>
      rw [hpc] at h
      exact .inl h.2
  | checked buf ended stillRunning =>
      rw [hpc] at h
      exact .inr (.inr (.inl ⟨buf, ended, stillRunning, rfl, h.2⟩))
  | eventRecord _ _ _ | eventQuery _ _ _ | add _ _ _ =>
      rw [hpc] at h
      exact .inr (.inl h.1)
  | unwind locals result =>
      rw [hpc] at h
      exact .inr (.inr (.inr ⟨locals, result, rfl, h⟩))
  | _ =>
      rw [hpc] at h
      exact .inr (.inl h)

/-! ### Going on -/

namespace Call

theorem Fresh.goto (h : c.Fresh inserted) (pc : Pc) : (c.goto pc).Fresh inserted :=
  ⟨h.effects, h.found, h.blocked, h.notInserted⟩

theorem Registering.goto (h : c.Registering inserted info) (pc : Pc) :
    (c.goto pc).Registering inserted info :=
  ⟨h.fresh.goto pc, h.op, h.args, h.range⟩

theorem Using.goto (h : c.Using) (pc : Pc) : (c.goto pc).Using := ⟨h.op, h.found, h.fits⟩

theorem Working.goto (h : c.Working) (pc : Pc) : (c.goto pc).Working :=
  ⟨h.toUsing.goto pc, h.blocked, h.tokens⟩

/-- The outside sees something of a call that works. -/
theorem Working.note (h : c.Working) (effect : Effect)
    (htoken : ∀ token, effect = .minted token → ∃ e device qpNum, c.found = some e ∧
      buildRdmaToken device qpNum e c.op.size c.op.offset = some token) :
    (c.note effect).Working where
  toUsing := ⟨h.op, h.found, h.fits⟩
  blocked := h.blocked
  tokens := by
    intro token hmem
    rcases List.mem_cons.mp hmem with heq | hmem
    · exact htoken token heq.symm
    · exact h.tokens token hmem

end Call

/-! ### Building an entry -/

/-- An entry for memory that the NIC reaches. -/
theorem Call.Registering.direct (h : c.Registering inserted info) {mr : Mr}
    (haddr : mr.addr = c.op.devPtr) (hlength : mr.length = c.op.size) :
    EntryOk (InstanceState.newEntry c info mr none) := by
  obtain ⟨hpos, hsmall, hend⟩ := checkRegistrationArgs_success h.args
  exact {
    pos := hpos
    small := hsmall
    keyEnd := hend
    remoteEnd := hend
    mr := ⟨haddr, hlength⟩
    direct := fun _ => rfl
    staged := nofun
    device := fun i hi => isValidDeviceRange_device (h.range i hi) }

/-- An entry with a staging buffer. -/
theorem Call.Registering.staged (h : c.Registering inserted info) {mr : Mr} {hostBuf : HostBuf}
    (hinfo : info.isSome = true) (hsize : hostBuf.size = c.op.size)
    (hwrap : hostBuf.addr.toNat + c.op.size.toNat < 2 ^ 64) (haddr : mr.addr = hostBuf.addr)
    (hlength : mr.length = c.op.size) :
    EntryOk (InstanceState.newEntry c info mr (some hostBuf)) := by
  obtain ⟨hpos, hsmall, hend⟩ := checkRegistrationArgs_success h.args
  exact {
    pos := hpos
    small := hsmall
    keyEnd := hend
    remoteEnd := hwrap
    mr := ⟨haddr, hlength⟩
    direct := nofun
    staged := by
      rintro b hb
      cases hb
      exact ⟨rfl, hsize, hinfo⟩
    device := fun i hi => isValidDeviceRange_device (h.range i hi) }

/-! ### Returning -/

theorem registers_false_of_usesBuffer {op : Op} (h : op.usesBuffer = true) :
    op.registers = false := by
  cases op <;> first | rfl | cases h

theorem usesBuffer_false_of_registers {op : Op} (h : op.registers = true) :
    op.usesBuffer = false := by
  cases op <;> first | rfl | cases h

/-- A call that returns before it has done anything. -/
theorem Call.Fresh.ended (h : c.Fresh inserted)
    (hsuccess : result = .Success → c.op.registers = false ∧ c.op.usesBuffer = false)
    (howns : locals.mr.isSome ∨ locals.hostBuf.isSome ∨ locals.fd.isSome → c.op.registers = true)
    (hgives : locals.mr.isSome ∨ locals.entry.isSome → c.op.usesBuffer = false)
    (hcopy : locals.copy = none) : (c.ret locals result).Ended inserted locals result where
  found := fun e he => by cases h.found.symm.trans he
  effects := fun hne => absurd h.effects hne
  success := fun huses hok => by cases (hsuccess hok).2.symm.trans huses
  blocked := fun hblocked => by cases h.blocked.symm.trans hblocked
  registered := fun hop => by
    constructor
    · intro hok
      cases (hsuccess hok).1.symm.trans hop
    · rintro ⟨i, -, hmem⟩
      exact absurd (List.mem_map_of_mem (f := Prod.fst) hmem) h.notInserted
  owns := howns
  gives := fun hsome => ⟨hgives hsome, fun hop hok => by
    cases (hsuccess hok).1.symm.trans hop⟩
  copy := hcopy

/-- A registration that fails. -/
theorem Call.Registering.ended (h : c.Registering inserted info) (hresult : result ≠ .Success)
    (hcopy : locals.copy = none) : (c.ret locals result).Ended inserted locals result :=
  h.fresh.ended (fun hok => absurd hok hresult) (fun _ => h.op)
    (fun _ => usesBuffer_false_of_registers h.op) hcopy

/-- A call that returns while it uses its buffer. -/
theorem Call.Working.ended (h : c.Working) (hmr : locals.mr = none)
    (hhostBuf : locals.hostBuf = none) (hfd : locals.fd = none) (hentry : locals.entry = none)
    (hcopy : locals.copy = none) : (c.ret locals result).Ended inserted locals result where
  found := h.found
  effects := fun _ => ⟨⟨h.op, h.found, h.fits⟩, h.blocked, h.tokens⟩
  success := fun _ _ => ⟨⟨h.op, h.found, h.fits⟩, h.blocked, h.tokens⟩
  blocked := fun hblocked => by cases h.blocked.symm.trans hblocked
  registered := fun hop => by cases (registers_false_of_usesBuffer h.op).symm.trans hop
  owns := by simp [hmr, hhostBuf, hfd]
  gives := by simp [hmr, hentry]
  copy := hcopy

/-- A call that returns with an error before the outside has seen anything. -/
theorem Call.ended_of_error (hop : c.op.usesBuffer = true) (hfound : c.Found)
    (heffects : c.effects = []) (hresult : result ≠ .Success)
    (hblocked : c.blocked = true → result = .Busy) (hmr : locals.mr = none)
    (hhostBuf : locals.hostBuf = none) (hfd : locals.fd = none) (hentry : locals.entry = none)
    (hcopy : locals.copy = none) : (c.ret locals result).Ended inserted locals result where
  found := hfound
  effects := fun hne => absurd heffects hne
  success := fun _ hok => absurd hok hresult
  blocked := hblocked
  registered := fun hregisters => by
    cases (registers_false_of_usesBuffer hop).symm.trans hregisters
  owns := by simp [hmr, hhostBuf, hfd]
  gives := by simp [hmr, hentry]
  copy := hcopy

end HipObject
