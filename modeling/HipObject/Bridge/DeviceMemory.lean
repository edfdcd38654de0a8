import HipObject.Bridge.GetObject

/-!
# Host code and device memory

`Client::PutObject` and `Client::GetObject` look at where the caller's buffer is
before they fall back to HTTP after a failed transfer, but not before they fall
back because the library could not be initialized. So host code touches device
memory exactly when that first fallback is taken for it.
-/

namespace HipObject.Bridge

open HipObject Codec Verification

/-! ### What the transfers do to the caller's buffer -/

/-- Nothing of what `ClientEvent` lists happened in between. -/
def SameEvents (s t : State) : Prop := t.events = s.events

theorem sameEvents_chains : Chains SameEvents where
  refl := fun _ => rfl
  trans := fun h h' => h'.trans h

/-- Code that does nothing of what `ClientEvent` lists. -/
def Quietly {α : Type} (x : BridgeM α) : Prop := Along SameEvents x

namespace Quietly

variable {α β : Type} {x : BridgeM α}

theorem pure (a : α) : Quietly (pure a) := Along.pure sameEvents_chains a

theorem bind {f : α → BridgeM β} (h : Quietly x) (hf : ∀ a, Quietly (f a)) :
    Quietly (x >>= f) := Along.bind sameEvents_chains h hf

theorem ite {c : Prop} [Decidable c] {y : BridgeM α} (hx : Quietly x) (hy : Quietly y) :
    Quietly (if c then x else y) := Along.ite hx hy

end Quietly

theorem execute_quietly (a : Attempt) (req : Request) : Quietly (execute a req) := by
  refine Quietly.bind (Along.get sameEvents_chains) ?_
  intro s
  cases a.execute req s.memory with
  | none => exact Along.throw sameEvents_chains _
  | some answer => exact Quietly.bind (Along.modify fun _ => rfl) fun _ => Quietly.pure _

theorem finishPut_quietly (a : Attempt) (res : Response) (size : BitVec 64) :
    Quietly (finishPut a res size) := by
  have hetag : ∀ etag, Quietly (setEtag etag) := fun _ => Along.modify fun _ => rfl
  have hchecksum : ∀ checksum, Quietly (setChecksum checksum) :=
    fun _ => Along.modify fun _ => rfl
  unfold finishPut
  refine Quietly.ite (Quietly.pure _) (Quietly.ite ?_ (Quietly.ite (Quietly.pure _)
    (Quietly.ite (Quietly.pure _) ?_)))
  · exact Quietly.bind (hetag _) fun _ => Quietly.pure _
  · refine Quietly.ite (Quietly.bind (hchecksum _) fun _ => ?_) ?_
    · exact Quietly.bind (hetag _) fun _ => Quietly.pure _
    · exact Quietly.bind (hetag _) fun _ => Quietly.pure _

theorem rdmaPut_quietly (a : Attempt) (token : List Byte) (size : BitVec 64) :
    Quietly (rdmaPut a token size) := by
  unfold rdmaPut
  cases a.fetch with
  | none => exact Along.throw sameEvents_chains _
  | some sessionToken =>
      refine Quietly.bind (Along.get sameEvents_chains) fun s => Quietly.ite (Quietly.pure _) ?_
      cases a.buildUrl with
      | none => exact Quietly.pure _
      | some host =>
          exact Quietly.bind (execute_quietly _ _) fun res => finishPut_quietly a res size

theorem rdmaGet_quietly (a : Attempt) (token : List Byte) (size : BitVec 64) :
    Quietly (rdmaGet a token size) := by
  unfold rdmaGet
  cases a.fetch with
  | none => exact Along.throw sameEvents_chains _
  | some sessionToken =>
      cases a.buildUrl with
      | none => exact Quietly.pure _
      | some host => exact Quietly.bind (execute_quietly _ _) fun res => Quietly.pure _

section Retry

variable (device : RdmaDevice) (tokenQpNum : BitVec 32) (attempts : Nat → Attempt)
variable (buf size : BitVec 64)

theorem bufSync_quietly (a : Attempt) (direction : Int) :
    Quietly (bufSync buf size a direction) :=
  Quietly.bind (Along.get sameEvents_chains) fun _ =>
    Quietly.bind (Along.modify fun _ => rfl) fun _ =>
    Quietly.pure _

theorem rdmaPutWithRetry_quietly :
    Quietly (rdmaPutWithRetry device tokenQpNum attempts buf size) := by
  refine Along.retry sameEvents_chains ?_ _ _ _
  intro i
  unfold putAttempt
  cases hipObjGetRdmaToken device tokenQpNum (attempts i).tokenLookup (attempts i).allocates buf
      size HIPOBJ_RDMA_OP_PUT with
  | error err => exact Quietly.pure _
  | ok token =>
      refine Quietly.bind (bufSync_quietly _ _ _ _) fun _ => Quietly.ite (Quietly.pure _) ?_
      exact Quietly.bind (rdmaPut_quietly _ _ _) fun ret =>
        Quietly.ite (Quietly.pure _) (Quietly.pure _)

theorem rdmaGetWithRetry_quietly :
    Quietly (rdmaGetWithRetry device tokenQpNum attempts buf size) := by
  refine Along.retry sameEvents_chains ?_ _ _ _
  intro i
  unfold getAttempt
  cases hipObjGetRdmaToken device tokenQpNum (attempts i).tokenLookup (attempts i).allocates buf
      size HIPOBJ_RDMA_OP_GET with
  | error err => exact Quietly.pure _
  | ok token =>
      refine Quietly.bind (rdmaGet_quietly _ _ _) fun ret => Quietly.ite ?_
        (Quietly.ite (Quietly.pure _) (Quietly.pure _))
      exact Quietly.bind (bufSync_quietly _ _ _ _) fun _ =>
        Quietly.ite (Quietly.pure _) (Quietly.pure _)

end Retry

/-! ### Keeping off device memory -/

/-- Host code that reads or writes bytes of the caller's buffer. -/
def ClientEvent.touchesBuf : ClientEvent → Bool
  | .readBuf bytes => bytes ≠ 0
  | .writeBuf _ data => !data.isEmpty
  | _ => false

/-- Whether the host touched the caller's buffer. -/
def State.touchesBuf (s : State) : Bool := s.events.any ClientEvent.touchesBuf

def PutResponse.isError : PutResponse → Bool
  | .error _ => true
  | .http answer => !answer.toBool
  | .rdma _ => false

def PutResponse.isRdma : PutResponse → Bool
  | .rdma _ => true
  | _ => false

def GetResponse.isError : GetResponse → Bool
  | .error _ => true
  | .http answer => !answer.toBool
  | .rdma _ => false

def GetResponse.isRdma : GetResponse → Bool
  | .rdma _ => true
  | _ => false

/-- The host keeps off the buffer if it is device memory. -/
def KeepsOff (attr : Option MemoryType) (s : State) : Prop :=
  s.touchesBuf = true → isDevicePointer attr = false

/-- And then a transfer that didn't go by RDMA is reported as an error. -/
def Reported (attr : Option MemoryType) (isRdma isError : Bool) : Prop :=
  isDevicePointer attr = true → isRdma = false → isError = true

section Rules

variable {α : Type} {x : BridgeM α} {s t : State} {attr : Option MemoryType}

theorem KeepsOff.of_events (h : KeepsOff attr s) (heq : t.events = s.events) :
    KeepsOff attr t := by
  unfold KeepsOff State.touchesBuf at *
  rwa [heq]

/-- One more event that touches nothing. -/
theorem KeepsOff.note (h : KeepsOff attr s) {e : ClientEvent} (he : e.touchesBuf = false) :
    KeepsOff attr { s with events := s.events ++ [e] } := by
  unfold KeepsOff State.touchesBuf at *
  simpa [he] using h

/-- Host memory may be touched. -/
theorem keepsOff_of_host (hattr : isDevicePointer attr = false) : KeepsOff attr s :=
  fun _ => hattr

theorem Reported.of_host {isRdma isError : Bool} (hattr : isDevicePointer attr = false) :
    Reported attr isRdma isError := by
  intro hdevice
  cases hattr.symm.trans hdevice

/-- Undoing the registration touches nothing. -/
theorem owning_keepsOff {registered : Bool} {Q : α → Prop}
    (h : Ensures x s (fun a t => KeepsOff attr t ∧ Q a) (KeepsOff attr)) :
    Ensures (owning registered x) s (fun a t => KeepsOff attr t ∧ Q a) (KeepsOff attr) := by
  unfold owning
  cases hx : x s with
  | ok a t =>
      obtain ⟨hkeeps, ha⟩ := h.ok hx
      unfold Ensures
      cases registered with
      | false => simpa [hx] using ⟨hkeeps, ha⟩
      | true => simpa [hx] using ⟨hkeeps.note (e := .deregister) rfl, ha⟩
  | error e t =>
      have hkeeps := h.error hx
      unfold Ensures
      cases registered with
      | false => simpa [hx] using hkeeps
      | true => simpa [hx] using hkeeps.note (e := .deregister) rfl

end Rules

/-! ### PutObject -/

section Put

variable {device : RdmaDevice} {tokenQpNum : BitVec 32} {c : PutCall} {buf size : BitVec 64}
variable {s : State}

/-- The arguments are accepted and the library can't be initialized. -/
def PutCall.Uninitialized (c : PutCall) (size : BitVec 64) : Prop :=
  c.validate = none ∧ c.size = some size ∧ size.toNat < 2 ^ 63 ∧ c.ensureInit ≠ .Success

theorem putObject_of_uninitialized (hbuf : c.buf = some buf) (h : c.Uninitialized size) :
    putObject device tokenQpNum c s =
      .ok (.http c.http)
        { s with events := s.events ++ [.readBuf size] ++ [.countHttpPut size] } := by
  obtain ⟨hvalidate, hsize, hfits, hinit⟩ := h
  unfold putObject
  rw [hvalidate, hbuf, hsize]
  simp only [ge_iff_le, Nat.not_le.mpr hfits, if_false, if_pos hinit]
  rfl

theorem putRegistered_keepsOff (hs : KeepsOff c.attr s) :
    Ensures (putRegistered device tokenQpNum c buf size) s
      (fun r t => KeepsOff c.attr t ∧ Reported c.attr r.isRdma r.isError) (KeepsOff c.attr) := by
  have hreport : ∀ err, Reported c.attr (PutResponse.error err).isRdma
      (PutResponse.error err).isError := fun _ _ _ => rfl
  unfold putRegistered
  cases c.getRegion with
  | none => exact hs
  | some region =>
      cases region with
      | error text => exact ⟨hs, hreport _⟩
      | ok region =>
          refine Ensures.modify_bind (Ensures.bind ((rdmaPutWithRetry_quietly device tokenQpNum
            c.attempts buf size _).mono ?_ fun t ht => hs.of_events ht))
          intro ret t ht
          have hkeeps : KeepsOff c.attr t := hs.of_events ht
          refine Ensures.ite (fun _ => Ensures.modify_bind ?_) fun _ => ?_
          · refine ⟨hkeeps.note rfl, ?_⟩
            intro _ hnot
            cases hnot
          refine Ensures.ite (fun _ => ⟨hkeeps, hreport _⟩) fun hhost => ?_
          have hhost : isDevicePointer c.attr = false := Bool.eq_false_of_not_eq_true hhost
          exact Ensures.modify_bind (Ensures.modify_bind ⟨keepsOff_of_host hhost, .of_host hhost⟩)

theorem putObject_keepsOff (hbuf : c.buf = some buf) (h : ∀ size, ¬c.Uninitialized size)
    (hs : KeepsOff c.attr s) :
    Ensures (putObject device tokenQpNum c) s
      (fun r t => KeepsOff c.attr t ∧ Reported c.attr r.isRdma r.isError) (KeepsOff c.attr) := by
  have hreport : ∀ err, Reported c.attr (PutResponse.error err).isRdma
      (PutResponse.error err).isError := fun _ _ _ => rfl
  unfold putObject
  cases hvalidate : c.validate with
  | some text => exact ⟨hs, hreport _⟩
  | none =>
      rw [hbuf]
      cases hsize : c.size with
      | none => exact ⟨hs, hreport _⟩
      | some size =>
          refine Ensures.ite (fun _ => ⟨hs, hreport _⟩) fun hfits => ?_
          refine Ensures.ite (fun hinit => ?_) fun _ => ?_
          · exact absurd ⟨hvalidate, hsize, Nat.lt_of_not_le hfits, hinit⟩ (h size)
          refine Ensures.ite (fun _ => ⟨hs, hreport _⟩) fun _ => ?_
          exact owning_keepsOff (putRegistered_keepsOff hs)

/-- When a `PutObject` keeps off device memory. -/
def PutCall.Spared (c : PutCall) : Prop :=
  ∀ size, c.Uninitialized size → isDevicePointer c.attr = true →
    size = 0 ∧ c.http.toBool = false

theorem putObject_keepsOff_iff (hbuf : c.buf = some buf) (hs : s.events = []) :
    Ensures (putObject device tokenQpNum c) s
      (fun r t => KeepsOff c.attr t ∧ Reported c.attr r.isRdma r.isError) (KeepsOff c.attr) ↔
    c.Spared := by
  by_cases hfallback : ∃ size, c.Uninitialized size
  · obtain ⟨size, hsize⟩ := hfallback
    have hspared : c.Spared ↔
        (isDevicePointer c.attr = true → size = 0 ∧ c.http.toBool = false) := by
      constructor
      · exact fun h => h size hsize
      · intro h size' hsize'
        cases hsize.2.1.symm.trans hsize'.2.1
        exact h
    rw [Ensures.ok_iff (putObject_of_uninitialized hbuf hsize), hspared]
    simp only [KeepsOff, Reported, State.touchesBuf, hs, PutResponse.isError, PutResponse.isRdma]
    cases isDevicePointer c.attr with
    | false => simp
    | true => simp [ClientEvent.touchesBuf]
  · have hnot : ∀ size, ¬c.Uninitialized size := fun size h => hfallback ⟨size, h⟩
    refine iff_of_true (putObject_keepsOff hbuf hnot ?_) fun size h => absurd h (hnot size)
    intro htouches
    simp [State.touchesBuf, hs] at htouches

end Put

/-! ### GetObject -/

section Get

variable {device : RdmaDevice} {tokenQpNum : BitVec 32} {c : GetCall} {buf size : BitVec 64}
variable {s : State}

/-- The arguments are accepted and the library can't be initialized. -/
def GetCall.Uninitialized (c : GetCall) : Prop :=
  c.validate = none ∧ c.size.isSome = true ∧ c.ensureInit ≠ .Success

/-- What the first fallback does: it copies nothing if the GET fails. -/
theorem httpGetIntoBuffer_keepsOff_iff (attr : Option MemoryType) (http : HttpGet)
    (hs : s.events = []) :
    Ensures (httpGetIntoBuffer http size) s
      (fun r t => KeepsOff attr t ∧ Reported attr r.isRdma r.isError) (KeepsOff attr) ↔
    (isDevicePointer attr = true → http.answer.toBool = false) := by
  unfold httpGetIntoBuffer
  cases hanswer : http.answer with
  | error text =>
      refine iff_of_true (Ensures.modify_bind ⟨?_, fun _ _ => rfl⟩) fun _ => rfl
      intro htouches
      simp [State.touchesBuf, hs, ClientEvent.touchesBuf] at htouches
  | ok etag =>
      constructor
      · intro h hdevice
        exact absurd (h.2 hdevice rfl) Bool.false_ne_true
      · intro h
        have hhost : isDevicePointer attr = false := by
          by_contra hdevice
          cases h (Bool.eq_true_of_not_eq_false hdevice)
        exact ⟨keepsOff_of_host hhost, .of_host hhost⟩

theorem getRegistered_keepsOff (hs : KeepsOff c.attr s) :
    Ensures (getRegistered device tokenQpNum c buf size) s
      (fun r t => KeepsOff c.attr t ∧ Reported c.attr r.isRdma r.isError) (KeepsOff c.attr) := by
  have hreport : ∀ err, Reported c.attr (GetResponse.error err).isRdma
      (GetResponse.error err).isError := fun _ _ _ => rfl
  unfold getRegistered
  cases c.getRegion with
  | none => exact hs
  | some region =>
      cases region with
      | error text => exact ⟨hs, hreport _⟩
      | ok region =>
          refine Ensures.modify_bind (Ensures.bind ((rdmaGetWithRetry_quietly device tokenQpNum
            c.attempts buf size _).mono ?_ fun t ht => hs.of_events ht))
          intro ret t ht
          have hkeeps : KeepsOff c.attr t := hs.of_events ht
          refine Ensures.ite (fun _ => Ensures.modify_bind ?_) fun _ => ?_
          · refine ⟨hkeeps.note rfl, ?_⟩
            intro _ hnot
            cases hnot
          refine Ensures.ite (fun _ => ⟨hkeeps, hreport _⟩) fun hhost => ?_
          have hhost : isDevicePointer c.attr = false := Bool.eq_false_of_not_eq_true hhost
          exact Ensures.of_forall (fun _ _ => ⟨keepsOff_of_host hhost, .of_host hhost⟩)
            fun _ => keepsOff_of_host hhost

/-- When a `GetObject` keeps off device memory. -/
def GetCall.Spared (c : GetCall) : Prop :=
  c.Uninitialized → isDevicePointer c.attr = true → c.http.answer.toBool = false

theorem getObject_keepsOff_iff (hbuf : c.buf = some buf) (hs : s.events = []) :
    Ensures (getObject device tokenQpNum c) s
      (fun r t => KeepsOff c.attr t ∧ Reported c.attr r.isRdma r.isError) (KeepsOff c.attr) ↔
    c.Spared := by
  have hreport : ∀ err, Reported c.attr (GetResponse.error err).isRdma
      (GetResponse.error err).isError := fun _ _ _ => rfl
  have hkeeps : KeepsOff c.attr s := by
    intro htouches
    simp [State.touchesBuf, hs] at htouches
  have hspared : ¬c.Uninitialized → c.Spared := fun hnot h => absurd h hnot
  unfold getObject
  cases hvalidate : c.validate with
  | some text =>
      refine iff_of_true ⟨hkeeps, hreport _⟩ (hspared ?_)
      rintro ⟨hnone, -⟩
      cases hnone.symm.trans hvalidate
  | none =>
      rw [hbuf]
      cases hsize : c.size with
      | none =>
          refine iff_of_true ⟨hkeeps, hreport _⟩ (hspared ?_)
          rintro ⟨-, hsome, -⟩
          rw [hsize] at hsome
          cases hsome
      | some size =>
          by_cases hinit : c.ensureInit ≠ .Success
          · have huninitialized : c.Uninitialized := ⟨hvalidate, by rw [hsize]; rfl, hinit⟩
            simp only [if_pos hinit]
            rw [httpGetIntoBuffer_keepsOff_iff c.attr c.http hs]
            exact ⟨fun h _ => h, fun h => h huninitialized⟩
          · simp only [if_neg hinit]
            refine iff_of_true (Ensures.ite (fun _ => ⟨hkeeps, hreport _⟩) fun _ =>
              owning_keepsOff (getRegistered_keepsOff hkeeps)) (hspared ?_)
            exact fun h => hinit h.2.2

end Get

/-- For every `PutObject` and `GetObject` with a buffer and whatever the outside
answers: the host keeps off device memory, and reports a transfer of it that
didn't go by RDMA as an error, exactly when the first fallback is not taken for
device memory, or comes to nothing there. It does for a PUT of no bytes that
fails, and for a GET that fails. -/
theorem bridge_keepsOff_device_iff (device : RdmaDevice) (tokenQpNum : BitVec 32)
    (sctx : S3RdmaContext) (memory : Memory) (buf : BitVec 64) :
    (∀ c : PutCall, c.buf = some buf →
      (Ensures (putObject device tokenQpNum c) ⟨sctx, memory, [], []⟩
        (fun r t => KeepsOff c.attr t ∧ Reported c.attr r.isRdma r.isError) (KeepsOff c.attr) ↔
      c.Spared)) ∧
    (∀ c : GetCall, c.buf = some buf →
      (Ensures (getObject device tokenQpNum c) ⟨sctx, memory, [], []⟩
        (fun r t => KeepsOff c.attr t ∧ Reported c.attr r.isRdma r.isError) (KeepsOff c.attr) ↔
      c.Spared)) :=
  ⟨fun _ hbuf => putObject_keepsOff_iff hbuf rfl, fun _ hbuf => getObject_keepsOff_iff hbuf rfl⟩

/-- One byte of device memory, on a machine where the library finds no NIC. -/
def deviceByte : PutCall := { plainPut with ensureInit := .NicNotFound, attr := some .device }

def deviceByteGet : GetCall where
  validate := none
  buf := some 16
  size := some 1
  ensureInit := .NicNotFound
  register := .Success
  getRegion := some (.ok [])
  attempts := fun _ => plainAttempt
  attr := some .device
  http := ⟨[[7]], .ok []⟩

/-- The PUT reads the byte and reports a success, and the GET writes it. -/
theorem deviceByte_touched :
    (¬Ensures (putObject plainDevice 1 deviceByte) ⟨⟨[], 0, [], []⟩, fun _ => 0, [], []⟩
      (fun r t => KeepsOff deviceByte.attr t ∧ Reported deviceByte.attr r.isRdma r.isError)
      (KeepsOff deviceByte.attr)) ∧
    ¬Ensures (getObject plainDevice 1 deviceByteGet) ⟨⟨[], 0, [], []⟩, fun _ => 0, [], []⟩
      (fun r t => KeepsOff deviceByteGet.attr t ∧ Reported deviceByteGet.attr r.isRdma r.isError)
      (KeepsOff deviceByteGet.attr) := by
  constructor
  · intro h
    cases (h.ok rfl).1 rfl
  · intro h
    cases (h.ok rfl).1 rfl

/-- The same calls with host memory use the fallback as they should. -/
theorem hostByte_spared :
    (Ensures (putObject plainDevice 1 { deviceByte with attr := none })
      ⟨⟨[], 0, [], []⟩, fun _ => 0, [], []⟩
      (fun r t => KeepsOff none t ∧ Reported none r.isRdma r.isError) (KeepsOff none)) ∧
    Ensures (getObject plainDevice 1 { deviceByteGet with attr := none })
      ⟨⟨[], 0, [], []⟩, fun _ => 0, [], []⟩
      (fun r t => KeepsOff none t ∧ Reported none r.isRdma r.isError) (KeepsOff none) := by
  obtain ⟨hput, hget⟩ :=
    bridge_keepsOff_device_iff plainDevice 1 ⟨[], 0, [], []⟩ (fun _ => 0) 16
  constructor
  · refine (hput { deviceByte with attr := none } rfl).mpr ?_
    intro size _ hdevice
    cases hdevice
  · refine (hget { deviceByteGet with attr := none } rfl).mpr ?_
    intro _ hdevice
    cases hdevice

end HipObject.Bridge
