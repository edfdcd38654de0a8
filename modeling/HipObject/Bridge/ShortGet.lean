import HipObject.Bridge.Requests
import HipObject.Buffer.Landing
import HipObject.Rdma.TokenCodec

/-!
# A GET of an object that is shorter than the buffer

The server writes the object to the start of the token's window and says how long
it is. For a direct registration the window is the caller's memory, so nothing
else changes. For a staged one the window is in the staging buffer, and
`rdmaGetWithRetry` copies all `size` bytes of it back, not only those that the
server wrote: the rest of the caller's buffer becomes what the staging buffer had
there before.
-/

namespace HipObject.Bridge

open HipObject Codec Verification

/-! ### The server -/

/-- The token in a request. -/
def Request.token (req : Request) : Option RdmaToken :=
  (req.headers.lookup .rdmaToken).bind decodeRdmaTokenHex

/-- The address of a byte of the token's window. -/
def byteAt (token : RdmaToken) (j : Nat) : BitVec 64 := token.remoteAddr + BitVec.ofNat 64 j

/-- The first `k` bytes of the window are the server's, and nothing else has
changed. -/
structure Writes (data : Nat → Byte) (k : Nat) (token : RdmaToken) (m m' : Memory) : Prop where
  inside : ∀ j < k, m' (byteAt token j) = data j
  outside : ∀ a, (∀ j < k, byteAt token j ≠ a) → m' a = m a

/-- The response to a GET says that the server did the transfer. -/
def Response.Delivers (res : Response) : Prop :=
  res.error = [] ∧
    (parseRdmaReply (res.headers.getFront .rdmaReply) = some kRdmaReplySuccess ∨
      parseRdmaReply (res.headers.getFront .rdmaReply) = some kRdmaReplyPartialContent)

/-- A server that has an object of `n` bytes. It writes a first part of it to the
window of the token that it is given, and all of it before it says so. -/
def Serves (data : Nat → Byte) (n : Nat) (a : Attempt) : Prop :=
  ∀ req m res m', a.execute req m = some (res, m') → ∀ token, req.token = some token →
    ∃ k ≤ n, Writes data k token m m' ∧ (res.Delivers → k = n)

/-! ### What an attempt does to the memory -/

theorem delivers_of_finishGet {res : Response} {size : BitVec 64}
    (h : (finishGet res size).status = .Ok) : res.Delivers := by
  unfold finishGet at h
  split at h
  · cases h
  rename_i herror
  dsimp only at h
  split at h
  · cases h
  split at h
  · cases h
  rename_i hcode
  rw [not_and_or, not_not, not_not] at hcode
  exact ⟨by simpa using herror, hcode⟩

/-- What the caller's buffer is registered as, and what the server has. -/
structure Transfers (e : BufEntry) (buf size : BitVec 64) (n : Nat) : Prop where
  ok : EntryOk e
  key : e.key = buf
  apart : e.Apart
  short : n ≤ size.toNat

/-- Every attempt finds the same registration, and is served by the same server. -/
structure Steady (e : BufEntry) (data : Nat → Byte) (n : Nat) (a : Attempt) : Prop where
  token : a.tokenLookup.buf = some e
  sync : a.syncLookup.buf = some e
  serves : Serves data n a

/-- The address of a byte of the memory region. -/
def regionAt (e : BufEntry) (j : Nat) : BitVec 64 := e.remoteAddr + BitVec.ofNat 64 j

/-- The server has at most written a first part of its object, perhaps in several
attempts. -/
def Touched (e : BufEntry) (data : Nat → Byte) (n : Nat) (m m' : Memory) : Prop :=
  ∀ a, m' a = m a ∨ ∃ j < n, a = regionAt e j ∧ m' a = data j

/-- The server has written all of its object. -/
structure Filled (e : BufEntry) (data : Nat → Byte) (n : Nat) (m m' : Memory) : Prop where
  inside : ∀ j < n, m' (regionAt e j) = data j
  outside : ∀ a, (∀ j < n, regionAt e j ≠ a) → m' a = m a

section Attempts

variable {device : RdmaDevice} {tokenQpNum : BitVec 32} {buf size : BitVec 64} {e : BufEntry}
variable {data : Nat → Byte} {n : Nat} {m m' m'' : Memory} {a : Attempt}

theorem Touched.refl : Touched e data n m m := fun _ => .inl rfl

theorem Touched.writes {token : RdmaToken} {k : Nat} (h : Touched e data n m m')
    (haddr : token.remoteAddr = e.remoteAddr) (hk : k ≤ n) (hw : Writes data k token m' m'') :
    Touched e data n m m'' := by
  intro a
  by_cases hwritten : ∃ j < k, byteAt token j = a
  · obtain ⟨j, hj, rfl⟩ := hwritten
    refine .inr ⟨j, by omega, ?_, hw.inside j hj⟩
    rw [byteAt, regionAt, haddr]
  · have hsame : m'' a = m' a := hw.outside a fun j hj heq => hwritten ⟨j, hj, heq⟩
    rw [hsame]
    exact h a

/-- A whole object covers what earlier attempts left. -/
theorem Touched.filled {token : RdmaToken} (h : Touched e data n m m')
    (haddr : token.remoteAddr = e.remoteAddr) (hw : Writes data n token m' m'') :
    Filled e data n m m'' := by
  have hbyte : ∀ j, byteAt token j = regionAt e j := by
    intro j
    rw [byteAt, regionAt, haddr]
  refine ⟨fun j hj => hbyte j ▸ hw.inside j hj, ?_⟩
  intro a ha
  rw [hw.outside a fun j hj => hbyte j ▸ ha j hj]
  rcases h a with hsame | ⟨j, hj, rfl, -⟩
  · exact hsame
  · exact absurd rfl (ha j hj)

/-- The token that goes into the request names the start of the memory region. -/
theorem token_of_request {token : RdmaToken} (host date sessionToken : List Byte)
    (h : buildRdmaToken device tokenQpNum e size 0 = some token) :
    (getRequest host date (encodeRdmaToken token) sessionToken).token = some token ∧
      token.remoteAddr = e.remoteAddr := by
  obtain ⟨-, -, -, haddr, -⟩ := buildRdmaToken_some h
  refine ⟨?_, by rw [haddr]; exact BitVec.add_zero _⟩
  have htransport : token.HasTransport := by
    unfold buildRdmaToken at h
    split at h
    · cases h
    · cases h
      exact .inr rfl
  have hlookup : (getRequest host date (encodeRdmaToken token) sessionToken).headers.lookup
      .rdmaToken = some (encodeRdmaToken token) := rfl
  rw [Request.token, hlookup, Option.bind_some]
  exact decodeRdmaTokenHex_encode htransport

/-- One request touches the memory at most as the server does. -/
theorem rdmaGet_spec {token : RdmaToken} (hserves : Serves data n a)
    (htoken : buildRdmaToken device tokenQpNum e size 0 = some token) (s : State)
    (h : Touched e data n m s.memory) :
    Ensures (rdmaGet a (encodeRdmaToken token) size) s
      (fun r t => Touched e data n m t.memory ∧ (r.status = .Ok → Filled e data n m t.memory))
      (fun _ => True) := by
  unfold rdmaGet
  cases a.fetch with
  | none => trivial
  | some sessionToken =>
      cases a.buildUrl with
      | none =>
          refine ⟨h, fun hok => ?_⟩
          cases hok
      | some host =>
          refine Ensures.bind (Ensures.get_bind ?_)
          cases hexec : a.execute _ s.memory with
          | none => trivial
          | some answer =>
              obtain ⟨hreq, haddr⟩ := token_of_request host a.date sessionToken htoken
              obtain ⟨k, hk, hwrites, hall⟩ := hserves _ _ _ _ hexec token hreq
              refine Ensures.modify_bind ⟨h.writes haddr hk hwrites, fun hok => ?_⟩
              obtain rfl := hall (delivers_of_finishGet hok)
              exact h.filled haddr hwrites

/-- What `hipObjBufSync` to the device does when it returns success. -/
def Synced (e : BufEntry) (buf size : BitVec 64) (m m' : Memory) : Prop :=
  match e.hostBuf with
  | none => m' = m
  | some hostBuf =>
      m' = moved (stageToDevice buf hostBuf size 0).dstAt (stageToDevice buf hostBuf size 0).srcAt
        m (List.range size.toNat)

theorem hipObjBufSync_success {look : Lookup} {outcome : CopyOutcome}
    (hbuf : look.buf = some e)
    (h : (hipObjBufSync look outcome buf size 0 HIPOBJ_SYNC_TO_DEVICE m).1 = .Success) :
    Synced e buf size m (hipObjBufSync look outcome buf size 0 HIPOBJ_SYNC_TO_DEVICE m).2 := by
  unfold hipObjBufSync at h ⊢
  split at h
  · cases h
  rename_i hinit
  rw [if_neg hinit]
  rw [if_neg (by decide)] at h ⊢
  cases hargs : checkBufferArgs buf look.buf size 0 with
  | Success =>
      rw [hbuf] at h hargs ⊢
      rw [hargs] at h
      dsimp only at h ⊢
      split at h
      · rename_i hrunning
        exact absurd h hrunning
      rename_i hrunning
      rw [if_neg hrunning]
      unfold Synced
      cases hhost : e.hostBuf with
      | none => rfl
      | some hostBuf =>
          rw [hhost] at h
          dsimp only at h ⊢
          split at h
          · cases h
          rename_i hrange
          rw [if_neg hrange]
          rw [if_pos rfl] at h ⊢
          cases outcome with
          | success => rfl
          | failed moves => cases h
  | _ =>
      rw [hargs] at h
      cases h

/-- An attempt that ends with some bytes has let the server write its object and
then staged the whole buffer. -/
theorem getAttempt_spec (ha : Steady e data n a) (s : State) (h : Touched e data n m s.memory) :
    Ensures (getAttempt device tokenQpNum buf size a) s
      (Round.Leaves
        (fun r t => r.status = .Ok → r.bytes ≠ 0 → size.toNat ≤ e.size.toNat ∧
          ∃ m', Filled e data n m m' ∧ Synced e buf size m' t.memory)
        (fun r t => Touched e data n m t.memory ∧ (r.status = .Ok → r.bytes = 0)))
      (fun _ => True) := by
  have hfailed : RdmaResult.failed.status = .Ok → False := fun hok => by cases hok
  unfold getAttempt
  cases htoken : hipObjGetRdmaToken device tokenQpNum a.tokenLookup a.allocates buf size
      HIPOBJ_RDMA_OP_GET with
  | error err => exact fun hok => (hfailed hok).elim
  | ok text =>
      obtain ⟨-, buf', token, hbuf, hfits, hbuilt, rfl⟩ := hipObjGetRdmaToken_ok htoken
      cases ha.token.symm.trans hbuf
      refine Ensures.bind ((rdmaGet_spec ha.serves hbuilt s h).mono ?_ fun _ h => h)
      rintro r t ⟨htouched, hfilled⟩
      refine Ensures.ite (fun hok => ?_) fun hok => ?_
      · refine Ensures.bind (Ensures.get_bind (Ensures.modify_bind ?_))
        refine Ensures.ite (fun _ hok => (hfailed hok).elim) fun hsync _ _ => ?_
        refine ⟨hfits, t.memory, hfilled hok.1, ?_⟩
        exact hipObjBufSync_success ha.sync (not_not.mp hsync)
      · refine Ensures.ite (fun hnot hstatus => ?_) fun _ => ⟨htouched, fun hstatus => ?_⟩
        · cases hnot.symm.trans hstatus
        · by_contra hbytes
          exact hok ⟨hstatus, r.bytes.pos_iff_ne_zero.mpr hbytes⟩

theorem rdmaGetWithRetry_spec {attempts : Nat → Attempt}
    (h : ∀ i, Steady e data n (attempts i)) (s : State) :
    Ensures (rdmaGetWithRetry device tokenQpNum attempts buf size) s
      (fun r t => r.status = .Ok → r.bytes ≠ 0 → size.toNat ≤ e.size.toNat ∧
        ∃ m', Filled e data n s.memory m' ∧ Synced e buf size m' t.memory)
      (fun _ => True) := by
  refine Ensures.retry (I := fun r t => Touched e data n s.memory t.memory ∧
    (r.status = .Ok → r.bytes = 0)) ?_ ?_ _ _ ?_
  · rintro i r t ⟨htouched, -⟩
    exact getAttempt_spec (h i) t htouched
  · rintro r t ⟨-, hbytes⟩ hok hne
    exact absurd (hbytes hok) hne
  · refine ⟨.refl, fun hok => ?_⟩
    cases hok

end Attempts

/-! ### What reaches the caller -/

/-- The first `n` bytes of the caller's buffer are the server's, and the rest of
the caller's memory is as it was. -/
def OnlySent (e : BufEntry) (buf : BitVec 64) (data : Nat → Byte) (n : Nat) (m m' : Memory) :
    Prop :=
  (∀ j < n, m' (buf + BitVec.ofNat 64 j) = data j) ∧
    ∀ a, e.Callers a → (∀ j < n, buf + BitVec.ofNat 64 j ≠ a) → m' a = m a

/-- A staging buffer, if there is one, has after the object what the caller's
buffer has there. -/
def StagingMatches (e : BufEntry) (buf size : BitVec 64) (n : Nat) (m : Memory) : Prop :=
  ∀ hostBuf, e.hostBuf = some hostBuf → ∀ j, n ≤ j → j < size.toNat →
    m (hostBuf.addr + BitVec.ofNat 64 j) = m (buf + BitVec.ofNat 64 j)

section Reaches

variable {buf size : BitVec 64} {e : BufEntry} {data : Nat → Byte} {n : Nat} {m m' t : Memory}

theorem Transfers.spans (h : Transfers e buf size n) (hfits : size.toNat ≤ e.size.toNat) :
    Spans (.get buf size 0 true) e :=
  ⟨h.ok, h.key, by simpa [Op.offset, Op.size] using hfits⟩

/-- All of the window is copied back, and nothing else. -/
theorem Synced.copies (h : Synced e buf size m' t) (hspans : Spans (.get buf size 0 true) e)
    (hapart : e.Apart) {hostBuf : HostBuf} (hstaged : e.hostBuf = some hostBuf) :
    (∀ j < size.toNat, t (buf + BitVec.ofNat 64 j) = m' (regionAt e j)) ∧
      ∀ a, (∀ j < size.toNat, buf + BitVec.ofNat 64 j ≠ a) → t a = m' a := by
  obtain ⟨haddr, -⟩ := hspans.ok.staged hostBuf hstaged
  have hdst : ∀ j, (stageToDevice buf hostBuf size 0).dstAt j = buf + BitVec.ofNat 64 j := by
    intro j
    simp [Memcpy.dstAt, stageToDevice]
  have hsrc : ∀ j, (stageToDevice buf hostBuf size 0).srcAt j = regionAt e j := by
    intro j
    simp [Memcpy.srcAt, stageToDevice, regionAt, haddr]
  have hne : ∀ i < size.toNat, ∀ j < size.toNat, buf + BitVec.ofNat 64 i ≠ regionAt e j := by
    intro i hi j hj heq
    refine hspans.ne_of_staged hapart hstaged hi hj ?_
    simpa [Op.devPtr, Op.offset, regionAt] using heq.symm
  have hinj : ∀ i < size.toNat, ∀ j < size.toNat,
      buf + BitVec.ofNat 64 i = buf + BitVec.ofNat 64 j → i = j := by
    intro i hi j hj heq
    refine hspans.asked_inj hi hj ?_
    simpa [Op.devPtr, Op.offset] using heq
  unfold Synced at h
  rw [hstaged] at h
  dsimp only at h
  subst h
  constructor
  · intro j hj
    rw [← hdst j, ← hsrc j]
    refine moved_dst (List.mem_range.mpr hj) ?_ ?_
    · intro i hi
      rw [hdst, hsrc]
      exact hne i (List.mem_range.mp hi) j hj
    · intro i hi heq
      rw [hdst, hdst] at heq
      exact hinj i (List.mem_range.mp hi) j hj heq
  · intro a ha
    refine moved_of_ne fun j hj => ?_
    rw [hdst]
    exact ha j (List.mem_range.mp hj)

theorem Filled.onlySent_direct (h : Filled e data n m m') (htransfers : Transfers e buf size n)
    (hdirect : e.hostBuf = none) : OnlySent e buf data n m m' := by
  have hbyte : ∀ j, regionAt e j = buf + BitVec.ofNat 64 j := by
    intro j
    rw [regionAt, htransfers.ok.direct hdirect, htransfers.key]
  refine ⟨fun j hj => hbyte j ▸ h.inside j hj, ?_⟩
  intro a _ ha
  exact h.outside a fun j hj => hbyte j ▸ ha j hj

/-- What the staging buffer has after the object is what the caller gets there. -/
theorem Filled.onlySent_staged_iff (h : Filled e data n m m')
    (htransfers : Transfers e buf size n) (hfits : size.toNat ≤ e.size.toNat)
    {hostBuf : HostBuf} (hstaged : e.hostBuf = some hostBuf) (hsynced : Synced e buf size m' t) :
    OnlySent e buf data n m t ↔ StagingMatches e buf size n m := by
  have hspans := htransfers.spans hfits
  have hshort := htransfers.short
  obtain ⟨haddr, -⟩ := hspans.ok.staged hostBuf hstaged
  obtain ⟨hcopied, hkept⟩ := hsynced.copies hspans htransfers.apart hstaged
  -- after the object, the region is as it was
  have hrest : ∀ j, n ≤ j → j < size.toNat → m' (regionAt e j) = m (regionAt e j) := by
    intro j hnj hj
    refine h.outside _ fun i hi heq => ?_
    have hij : i = j := by
      refine hspans.remote_inj (by simp only [Op.size]; omega) hj ?_
      simpa [Op.offset, regionAt] using heq
    omega
  have hcallers : ∀ j < size.toNat, e.Callers (buf + BitVec.ofNat 64 j) := by
    intro j hj
    have hasked := hspans.callers_of_asks htransfers.apart (hspans.asks hj)
    simpa [Op.devPtr, Op.offset] using hasked
  constructor
  · rintro ⟨-, hsame⟩ hostBuf' hstaged' j hnj hj
    cases hstaged.symm.trans hstaged'
    have hother : ∀ i < n, buf + BitVec.ofNat 64 i ≠ buf + BitVec.ofNat 64 j := by
      intro i hi heq
      have hij : i = j := by
        refine hspans.asked_inj (by simp only [Op.size]; omega) hj ?_
        simpa [Op.devPtr, Op.offset] using heq
      omega
    rw [← hsame _ (hcallers j hj) hother, hcopied j hj, hrest j hnj hj, haddr]
    rfl
  · intro hmatches
    constructor
    · intro j hj
      rw [hcopied j (by omega), h.inside j hj]
    · intro a ha hother
      by_cases hasked : ∃ j < size.toNat, buf + BitVec.ofNat 64 j = a
      · obtain ⟨j, hj, rfl⟩ := hasked
        have hnj : n ≤ j := by
          by_contra hlt
          exact hother j (by omega) rfl
        rw [hcopied j hj, hrest j hnj hj, ← hmatches hostBuf hstaged j hnj hj, haddr]
        rfl
      · rw [hkept a fun j hj heq => hasked ⟨j, hj, heq⟩]
        refine h.outside a fun j hj heq => ?_
        refine hspans.not_callers_of_window hstaged (a := a) ?_ ha
        have hwindow := hspans.window (i := j) (by simp only [Op.size]; omega)
        rw [← heq]
        simpa [Op.offset, regionAt] using hwindow

/-- A GET of `n` bytes into a larger buffer changes only what the server sent if
and only if the buffer is registered directly, or the staging buffer has after
the object what the caller has there. -/
theorem shortGet_iff (device : RdmaDevice) (tokenQpNum : BitVec 32) (e : BufEntry)
    (buf size n : BitVec 64) (data : Nat → Byte) (attempts : Nat → Attempt)
    (sctx : S3RdmaContext) (memory : Memory) (hn : 0 < n)
    (htransfers : Transfers e buf size n.toNat)
    (hsteady : ∀ i, Steady e data n.toNat (attempts i)) :
    Ensures (rdmaGetWithRetry device tokenQpNum attempts buf size) ⟨sctx, memory, [], []⟩
      (fun result t => result = ⟨.Ok, n⟩ →
        (OnlySent e buf data n.toNat memory t.memory ↔
          e.hostBuf = none ∨ StagingMatches e buf size n.toNat memory))
      (fun _ => True) := by
  refine (rdmaGetWithRetry_spec hsteady _).mono ?_ fun _ h => h
  rintro result t hresult rfl
  obtain ⟨hfits, m', hfilled, hsynced⟩ := hresult rfl (n.pos_iff_ne_zero.mp hn)
  cases hhost : e.hostBuf with
  | none =>
      refine iff_of_true ?_ (.inl rfl)
      unfold Synced at hsynced
      rw [hhost] at hsynced
      rw [hsynced]
      exact hfilled.onlySent_direct htransfers hhost
  | some hostBuf =>
      rw [hfilled.onlySent_staged_iff htransfers hfits hhost hsynced]
      simp

end Reaches

/-! ### An object of one byte -/

/-- A staged buffer of two bytes. -/
def twoBytes : BufEntry where
  hostBuf := some ⟨0, 64, 2⟩
  mr := ⟨1, 64, 2, 0⟩
  size := 2
  isDmabuf := false
  remoteAddr := 64
  leakHostBuf := false
  key := 16
  info := some ⟨none, none⟩

/-- The server's answer for an object of one byte. -/
def oneByteResponse : Response where
  error := []
  statusCode := 200
  headers := fun name =>
    if name = .rdmaReply then [[ascii '2', ascii '0', ascii '0']]
    else if name = .rdmaBytesTransferred then [[ascii '1']]
    else []

/-- An attempt in which everything works and the object is the byte 7. -/
def oneByteAttempt : Attempt where
  tokenLookup := ⟨true, some twoBytes, false⟩
  allocates := true
  syncLookup := ⟨true, some twoBytes, false⟩
  copy := .success
  date := []
  fetch := some []
  buildUrl := some []
  execute := fun req memory => req.token.map fun token =>
    (oneByteResponse, Function.update memory (byteAt token 0) 7)
  trimQuotes := id

theorem twoBytes_transfers : Transfers twoBytes 16 2 (1 : BitVec 64).toNat where
  ok := by
    refine ⟨by decide, by decide, by decide, by decide, ⟨rfl, rfl⟩, by decide, ?_, ?_⟩
    · intro hostBuf hstaged
      cases hstaged
      exact ⟨rfl, rfl, rfl⟩
    · intro info hinfo hdevice
      cases hinfo
      cases hdevice
  key := rfl
  apart := by
    intro a hstart hend hostBuf hstaged
    cases hstaged
    have hend : a.toNat < 18 := hend
    intro hin
    have hstart : 64 ≤ a.toNat := hin.1
    omega
  short := by decide

theorem oneByteAttempt_steady :
    Steady twoBytes (fun _ => 7) (1 : BitVec 64).toNat oneByteAttempt where
  token := rfl
  sync := rfl
  serves := by
    intro req m res m' hexec token htoken
    simp only [oneByteAttempt, htoken, Option.map_some, Option.some.injEq, Prod.mk.injEq] at hexec
    obtain ⟨-, rfl⟩ := hexec
    refine ⟨1, by decide, ⟨?_, ?_⟩, fun _ => rfl⟩
    · intro j hj
      obtain rfl : j = 0 := by omega
      exact Function.update_self ..
    · intro a ha
      exact Function.update_of_ne (ha 0 (by omega)).symm ..

/-- The GET of that object, from a memory. -/
def oneByteGet (memory : Memory) : EStateM.Result Thrown State RdmaResult :=
  rdmaGetWithRetry ⟨1, 0, .replicate 16 0⟩ 1 (fun _ => oneByteAttempt) 16 2
    ⟨⟨[], 0, [], []⟩, memory, [], []⟩

/-- The number of bytes that it reports, and the second byte of the caller's
buffer. -/
def secondByte (memory : Memory) : Option (BitVec 64 × Byte) :=
  match oneByteGet memory with
  | .ok ⟨.Ok, bytes⟩ t => some (bytes, t.memory 17)
  | _ => none

theorem oneByteGet_of_secondByte {memory : Memory} {bytes : BitVec 64} {byte : Byte}
    (h : secondByte memory = some (bytes, byte)) :
    ∃ t, oneByteGet memory = .ok ⟨.Ok, bytes⟩ t ∧ t.memory 17 = byte := by
  unfold secondByte at h
  split at h
  · rename_i bytes' t hrun
    cases h
    exact ⟨t, hrun, rfl⟩
  · cases h

/-- With a 9 left in the staging buffer, the caller gets it. -/
theorem shortGet_leaks :
    ¬∀ (e : BufEntry) (buf size n : BitVec 64) (data : Nat → Byte) (attempts : Nat → Attempt)
      (sctx : S3RdmaContext) (memory : Memory), 0 < n → Transfers e buf size n.toNat →
      (∀ i, Steady e data n.toNat (attempts i)) →
      Ensures (rdmaGetWithRetry ⟨1, 0, .replicate 16 0⟩ 1 attempts buf size)
        ⟨sctx, memory, [], []⟩
        (fun result t => result = ⟨.Ok, n⟩ → OnlySent e buf data n.toNat memory t.memory)
        (fun _ => True) := by
  intro h
  have hleak : secondByte (fun a => if a = 65 then 9 else 0) = some (1, 9) := by decide +kernel
  obtain ⟨t, hrun, hbyte⟩ := oneByteGet_of_secondByte hleak
  have hsent := h twoBytes 16 2 1 (fun _ => 7) (fun _ => oneByteAttempt) ⟨[], 0, [], []⟩
    (fun a => if a = 65 then 9 else 0) (by decide) twoBytes_transfers
    fun _ => oneByteAttempt_steady
  unfold oneByteGet at hrun
  obtain ⟨-, hsame⟩ := hsent.ok hrun rfl
  have hcallers : twoBytes.Callers 17 :=
    twoBytes_transfers.apart 17 (by decide) (by decide)
  have hkept := hsame 17 hcallers (by decide)
  rw [hbyte] at hkept
  exact absurd hkept (by decide)

/-- With nothing left there, the second byte stays as it was. -/
theorem shortGet_keeps :
    secondByte (fun _ => 0) = some (1, 0) ∧
      Ensures (rdmaGetWithRetry ⟨1, 0, .replicate 16 0⟩ 1 (fun _ => oneByteAttempt) 16 2)
        ⟨⟨[], 0, [], []⟩, fun _ => 0, [], []⟩
        (fun result t => result = ⟨.Ok, 1⟩ →
          (OnlySent twoBytes 16 (fun _ => 7) (1 : BitVec 64).toNat (fun _ => 0) t.memory ↔
            twoBytes.hostBuf = none ∨
              StagingMatches twoBytes 16 2 (1 : BitVec 64).toNat fun _ => 0))
        (fun _ => True) := by
  refine ⟨by decide +kernel, ?_⟩
  exact shortGet_iff ⟨1, 0, .replicate 16 0⟩ 1 twoBytes 16 2 1 (fun _ => 7)
    (fun _ => oneByteAttempt) ⟨[], 0, [], []⟩ (fun _ => 0) (by decide) twoBytes_transfers
    fun _ => oneByteAttempt_steady

end HipObject.Bridge
