import HipObject.Bridge.PutObject

/-!
# A GET over HTTP

`Client::GetObject` of the MinIO bridge. When RDMA is not there at all,
`HttpGetIntoBuffer` collects the object in a string and copies it to the caller's
buffer at the end; when a transfer fails, the chunks of the object are copied as
they arrive, each behind the last. The two leave the same bytes.

minio-cpp is outside: it gives each chunk of the body to the client's function,
in order, and then answers.
-/

namespace HipObject.Bridge

open HipObject Codec Verification

/-! ### The client -/

/-- What minio-cpp's own `GetObject` does: the chunks that it delivers, and what it
answers, an error or an etag. -/
structure HttpGet where
  chunks : List (List Byte)
  answer : Except (List Byte) (List Byte)

/-- The errors that `GetObject` makes itself, or passes on. -/
inductive GetError where
  | validate (text : List Byte)
  /-- "size must be set when buf is set" -/
  | sizeMissing
  /-- "hipObjBufRegister failed: " and the error -/
  | registerFailed (err : OpError)
  | region (text : List Byte)
  /-- "RDMA GET failed (" the failure ") and the destination is device memory; no
  HTTP fallback is possible" -/
  | deviceMemory (failure : Failure)
  deriving DecidableEq

inductive GetResponse where
  | error (err : GetError)
  | http (answer : Except (List Byte) (List Byte))
  | rdma (etag : List Byte)

/-- The arguments of a `GetObject` and what the outside answers. -/
structure GetCall where
  validate : Option (List Byte)
  buf : Option (BitVec 64)
  size : Option (BitVec 64)
  ensureInit : OpError
  register : OpError
  /-- `GetRegion`, if it returns: an error, or a region. -/
  getRegion : Option (Except (List Byte) (List Byte))
  attempts : Nat → Attempt
  attr : Option MemoryType
  http : HttpGet

/-- Copies what was received only if the GET succeeds. `received.reserve(size)` only
takes memory: it refuses sizes from `2 ^ 63` on, and no buffer of such a size
exists. -/
def httpGetIntoBuffer (http : HttpGet) (size : BitVec 64) : BridgeM GetResponse := do
  let received := http.chunks.flatten
  match http.answer with
  | .error _ => pure ()
  | .ok _ => note (.writeBuf 0 (received.take size.toNat))
  note (.countHttpGet size)
  return .http http.answer

/-- The fallback's function for a chunk, over the chunks: each is cut to what is
left of the buffer behind `offset`. -/
def streamChunks (size : Nat) : Nat → List (List Byte) → BridgeM Unit
  | _, [] => return
  | offset, chunk :: rest => do
      if offset ≤ size then
        let data := chunk.take (size - offset)
        note (.writeBuf offset data)
        streamChunks size (offset + data.length) rest
      else note .subspanOutOfRange

def httpGetStreaming (http : HttpGet) (size : BitVec 64) : BridgeM GetResponse := do
  note (.countHttpGet size)
  streamChunks size.toNat 0 http.chunks
  return .http http.answer

section Client

variable (device : RdmaDevice) (tokenQpNum : BitVec 32)

/-- `GetObject` once the buffer is registered. -/
def getRegistered (c : GetCall) (buf size : BitVec 64) : BridgeM GetResponse := do
  match c.getRegion with
  | none => throw .thrown
  | some (.error text) => return .error (.region text)
  | some (.ok _) =>
      modify fun s => { s with sctx := ⟨[], 0, [], []⟩ }
      let ret ← rdmaGetWithRetry device tokenQpNum c.attempts buf size
      if ret.status = .Ok ∧ ret.bytes > 0 then
        note (.countRdmaGet ret.bytes)
        return .rdma (← get).sctx.etag
      else if isDevicePointer c.attr then return .error (.deviceMemory (describeFailure ret))
      else httpGetStreaming c.http size

def getObject (c : GetCall) : BridgeM GetResponse := do
  match c.validate, c.buf, c.size with
  | some text, _, _ => return .error (.validate text)
  | none, none, _ => return .http c.http.answer
  | none, some _, none => return .error .sizeMissing
  | none, some buf, some size =>
      if c.ensureInit ≠ .Success then
        -- the object is copied before the buffer's memory is looked at
        httpGetIntoBuffer c.http size
      else if c.register ≠ .Success ∧ c.register ≠ .BufAlreadyRegistered then
        return .error (.registerFailed c.register)
      else owning (c.register = .Success) (getRegistered device tokenQpNum c buf size)

end Client

/-! ### The buffer -/

/-- A buffer after a copy to it. -/
def writeAt (dst : List Byte) (offset : Nat) (data : List Byte) : List Byte :=
  dst.take offset ++ (data ++ dst.drop (offset + data.length))

def ClientEvent.onBuffer (dst : List Byte) : ClientEvent → List Byte
  | .writeBuf offset data => writeAt dst offset data
  | _ => dst

/-- A buffer after what the host code did. -/
def bufferAfter (dst : List Byte) (events : List ClientEvent) : List Byte :=
  events.foldl ClientEvent.onBuffer dst

/-- A buffer that holds as much of a body as it can, and is unchanged behind it. -/
def filledWith (dst body : List Byte) : List Byte :=
  body.take (min dst.length body.length) ++ dst.drop (min dst.length body.length)

theorem filledWith_nil (dst : List Byte) : filledWith dst [] = dst := by
  simp [filledWith]

/-- A body that does not reach the end is there whole. -/
theorem filledWith_of_le {dst body : List Byte} (h : body.length ≤ dst.length) :
    filledWith dst body = body ++ dst.drop body.length := by
  rw [filledWith, Nat.min_eq_right h, List.take_length]

/-- A body that reaches the end fills the buffer. -/
theorem filledWith_of_ge {dst body : List Byte} (h : dst.length ≤ body.length) :
    filledWith dst body = body.take dst.length := by
  rw [filledWith, Nat.min_eq_left h, List.drop_length, List.append_nil]

theorem writeAt_nil (dst : List Byte) (offset : Nat) : writeAt dst offset [] = dst := by
  simp [writeAt]

/-- One more chunk, behind the bytes that are there, cut to what is left. -/
theorem writeAt_filledWith (dst body chunk : List Byte) :
    writeAt (filledWith dst body) (min dst.length body.length)
        (chunk.take (dst.length - min dst.length body.length)) =
      filledWith dst (body ++ chunk) := by
  rcases Nat.le_total dst.length body.length with hfull | hroom
  · -- the buffer is full, and the chunk is dropped
    rw [Nat.min_eq_left hfull, Nat.sub_self, List.take_zero, writeAt_nil, filledWith_of_ge hfull,
      filledWith_of_ge (by rw [List.length_append]; omega), List.take_append_of_le_length hfull]
  · rw [Nat.min_eq_right hroom, filledWith_of_le hroom, writeAt, List.take_left,
      List.drop_append, List.drop_of_length_le (by omega), List.nil_append, List.drop_drop]
    rcases Nat.le_total (body ++ chunk).length dst.length with hfits | hlong
    · rw [filledWith_of_le hfits, List.take_of_length_le (by simp at hfits; omega),
        List.append_assoc, List.length_append]
      congr 3
      omega
    · rw [filledWith_of_ge hlong, List.take_append, List.take_of_length_le hroom]
      rw [List.length_append] at hlong
      rw [List.drop_of_length_le (by rw [List.length_take]; omega), List.append_nil]

/-- What a copy of a whole body leaves. -/
theorem writeAt_zero (dst body : List Byte) :
    writeAt dst 0 (body.take dst.length) = filledWith dst body := by
  have h := writeAt_filledWith dst [] body
  rwa [filledWith_nil, List.length_nil, Nat.min_zero, Nat.sub_zero, List.nil_append] at h

/-! ### The two paths -/

/-- Host code that stays inside a buffer of `n` bytes. -/
def ClientEvent.StaysIn (n : Nat) : ClientEvent → Prop
  | .writeBuf offset data => offset + data.length ≤ n
  | .subspanOutOfRange => False
  | _ => True

/-- The loop over the chunks that are left, behind the part of the body that has
arrived. The offset is the length of that part, or the end of the buffer. -/
theorem streamChunks_spec (dst body : List Byte) (chunks : List (List Byte)) (s : State) :
    Ensures (streamChunks dst.length (min dst.length body.length) chunks) s
      (fun _ t => ∃ events, t = { s with events := s.events ++ events } ∧
        bufferAfter (filledWith dst body) events = filledWith dst (body ++ chunks.flatten) ∧
        ∀ e ∈ events, e.StaysIn dst.length)
      (fun _ => False) := by
  induction chunks generalizing body s with
  | nil => exact ⟨[], by simp, by simp [bufferAfter], by simp⟩
  | cons chunk rest ih =>
      have hoffset : min dst.length body.length ≤ dst.length := Nat.min_le_left _ _
      have hnext : min dst.length body.length +
          (chunk.take (dst.length - min dst.length body.length)).length =
          min dst.length (body ++ chunk).length := by
        rw [List.length_take, List.length_append]
        omega
      rw [streamChunks]
      refine Ensures.ite (fun _ => Ensures.modify_bind ?_) fun hout => absurd hoffset hout
      rw [hnext]
      refine (ih (body ++ chunk) _).mono ?_ fun _ h => h
      rintro _ t ⟨events, rfl, hbuffer, hstays⟩
      refine ⟨.writeBuf (min dst.length body.length)
        (chunk.take (dst.length - min dst.length body.length)) :: events, by simp, ?_, ?_⟩
      · rw [List.flatten_cons, ← List.append_assoc, ← hbuffer, ← writeAt_filledWith dst body chunk]
        rfl
      · intro e he
        rcases List.mem_cons.mp he with rfl | he
        · exact hnext.trans_le (Nat.min_le_left _ _)
        · exact hstays e he

/-- The events that a GET adds leave the buffer with as much of the body as fits. -/
def Fills (dst body : List Byte) (s t : State) : Prop :=
  ∃ events, t.events = s.events ++ events ∧ bufferAfter dst events = filledWith dst body ∧
    ∀ e ∈ events, e.StaysIn dst.length

theorem httpGetIntoBuffer_fills {dst : List Byte} {size : BitVec 64} {http : HttpGet}
    {etag : List Byte} (hsize : dst.length = size.toNat) (hok : http.answer = .ok etag)
    (s : State) :
    Ensures (httpGetIntoBuffer http size) s
      (fun r t => r = .http (.ok etag) ∧ Fills dst http.chunks.flatten s t) (fun _ => False) := by
  unfold httpGetIntoBuffer
  rw [hok]
  refine Ensures.modify_bind (Ensures.modify_bind ⟨rfl, [.writeBuf 0
    (http.chunks.flatten.take size.toNat), .countHttpGet size], by simp, ?_, ?_⟩)
  · rw [← hsize]
    exact writeAt_zero dst http.chunks.flatten
  · intro e he
    simp only [List.mem_cons, List.not_mem_nil, or_false] at he
    rcases he with rfl | rfl
    · rw [ClientEvent.StaysIn, Nat.zero_add, List.length_take, ← hsize]
      exact Nat.min_le_left _ _
    · trivial

theorem httpGetStreaming_fills {dst : List Byte} {size : BitVec 64}
    (hsize : dst.length = size.toNat) (http : HttpGet) (s : State) :
    Ensures (httpGetStreaming http size) s
      (fun r t => r = .http http.answer ∧ Fills dst http.chunks.flatten s t)
      (fun _ => False) := by
  unfold httpGetStreaming
  rw [← hsize]
  have hloop := streamChunks_spec dst [] http.chunks
    { s with events := s.events ++ [.countHttpGet size] }
  rw [List.length_nil, Nat.min_zero, filledWith_nil, List.nil_append] at hloop
  refine Ensures.modify_bind (Ensures.bind (hloop.mono ?_ fun _ h => h))
  rintro _ t ⟨events, rfl, hbuffer, hstays⟩
  refine ⟨rfl, .countHttpGet size :: events, by simp, hbuffer, ?_⟩
  intro e he
  rcases List.mem_cons.mp he with rfl | he
  · trivial
  · exact hstays e he

/-- For every buffer, every body in any chunks and an answer that is a success, the
two paths return the same and leave the same buffer: the bytes of the body up to
the end of the shorter one, and behind them what was there. The offset of the
streaming path stays inside the buffer, so its `subspan` is always in range. -/
theorem httpGets_agree (dst : List Byte) (size : BitVec 64) (hsize : dst.length = size.toNat)
    (http : HttpGet) (etag : List Byte) (hok : http.answer = .ok etag) (s : State) :
    ∃ t u events events',
      httpGetIntoBuffer http size s = .ok (.http (.ok etag)) t ∧
      httpGetStreaming http size s = .ok (.http (.ok etag)) u ∧
      t.events = s.events ++ events ∧ u.events = s.events ++ events' ∧
      bufferAfter dst events = bufferAfter dst events' ∧
      bufferAfter dst events' =
        http.chunks.flatten.take (min dst.length http.chunks.flatten.length) ++
          dst.drop (min dst.length http.chunks.flatten.length) ∧
      .subspanOutOfRange ∉ events' ∧
      ∀ offset data, .writeBuf offset data ∈ events' → offset + data.length ≤ size.toNat := by
  obtain ⟨r, t, ht, rfl, events, hevents, hbuffer, -⟩ :=
    (httpGetIntoBuffer_fills hsize hok s).exists_ok
  obtain ⟨r', u, hu, rfl, events', hevents', hbuffer', hstays⟩ :=
    (httpGetStreaming_fills hsize http s).exists_ok
  refine ⟨t, u, events, events', ht, hok ▸ hu, hevents, hevents', hbuffer.trans hbuffer'.symm,
    hbuffer', fun hout => hstays _ hout, ?_⟩
  intro offset data hwrite
  exact hsize ▸ hstays _ hwrite

/-- A body of four bytes in three chunks, one of them empty and one that crosses the
end of a buffer of three. -/
def crossingGet : HttpGet := ⟨[[9], [], [8, 7, 6]], .ok []⟩

theorem crossingGet_agrees :
    ∃ t u events events',
      httpGetIntoBuffer crossingGet 3 ⟨⟨[], 0, [], []⟩, fun _ => 0, [], []⟩ =
        .ok (.http (.ok [])) t ∧
      httpGetStreaming crossingGet 3 ⟨⟨[], 0, [], []⟩, fun _ => 0, [], []⟩ =
        .ok (.http (.ok [])) u ∧
      t.events = [] ++ events ∧ u.events = [] ++ events' ∧
      bufferAfter [1, 2, 3] events = bufferAfter [1, 2, 3] events' ∧
      bufferAfter [1, 2, 3] events' = [9, 8, 7] := by
  obtain ⟨t, u, events, events', ht, hu, hevents, hevents', hsame, hbuffer, -⟩ :=
    httpGets_agree [1, 2, 3] 3 rfl crossingGet [] rfl ⟨⟨[], 0, [], []⟩, fun _ => 0, [], []⟩
  exact ⟨t, u, events, events', ht, hu, hevents, hevents', hsame, hbuffer⟩

end HipObject.Bridge
