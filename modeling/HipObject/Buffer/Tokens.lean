import HipObject.Buffer.Ownership

/-!
# Tokens stay inside their registration

The peer reads and writes what a token describes, so a token has to describe
memory inside the range that the NIC was given. The checks are made in 64-bit
arithmetic with signed offsets; the statements here are about exact numbers.
-/

namespace HipObject

open Verification

variable {setup : Setup} {s : InstanceState} {c : Call} {e : BufEntry} {token : RdmaToken}
variable {inserted : List (Nat × BitVec 64 × Nat)}

/-- What a token for a call describes, given the entry that the call found. -/
structure TokenInside (op : Op) (e : BufEntry) (token : RdmaToken) : Prop where
  pos : 0 < token.length.toNat
  small : token.length.toNat ≤ 4 * 1024 * 1024 * 1024
  noWrap : token.remoteAddr.toNat + token.length.toNat < 2 ^ 64
  starts : e.mr.addr.toNat ≤ token.remoteAddr.toNat
  ends : token.remoteAddr.toNat + token.length.toNat ≤ e.mr.addr.toNat + e.mr.length.toNat
  offset : (token.remoteAddr.toNat : Int) - e.mr.addr.toNat = op.offset.toInt
  length : token.length = op.size
  rkey : token.rkey = e.mr.rkey

/-- The memory that an entry's memory region was registered over. -/
structure RegisteredOver (op : Op) (e : BufEntry) : Prop where
  direct : e.hostBuf = none → e.mr.addr = op.devPtr ∧ e.mr.length = e.size
  staged : ∀ hostBuf, e.hostBuf = some hostBuf →
    e.mr.addr = hostBuf.addr ∧ e.mr.length = hostBuf.size ∧ e.size = hostBuf.size
  device : ∀ info, e.info = some info → isDevicePointer info.attr = true →
    ∃ base allocSize, info.range = some (base, allocSize) ∧ base.toNat ≤ op.devPtr.toNat ∧
      op.devPtr.toNat + e.size.toNat ≤ base.toNat + allocSize.toNat

theorem EntryOk.registeredOver (h : EntryOk e) {op : Op} (hkey : e.key = op.devPtr) :
    RegisteredOver op e where
  direct := fun hnone => ⟨by rw [h.mr.1, h.direct hnone, hkey], h.mr.2⟩
  staged := fun hostBuf hhas => by
    obtain ⟨haddr, hsize, -⟩ := h.staged hostBuf hhas
    exact ⟨by rw [h.mr.1, haddr], by rw [h.mr.2, hsize], hsize.symm⟩
  device := fun info hinfo hdevice => by
    rw [← hkey]
    exact h.device info hinfo hdevice

/-- Adding an offset that lies inside a registration doesn't wrap. -/
theorem toNat_add_of_inside {base offset size : BitVec 64} (hoffset : 0 ≤ offset.toInt)
    (hinside : offset.toInt ≤ size.toNat) (hend : base.toNat + size.toNat < 2 ^ 64) :
    ((base + offset).toNat : Int) = base.toNat + offset.toInt := by
  have hnat := toNat_of_toInt_nonneg hoffset
  have hsmall : base.toNat + offset.toNat < 2 ^ 64 := by omega
  rw [BitVec.toNat_add, Nat.mod_eq_of_lt hsmall]
  omega

/-- A token that is built for a range that fits is inside. -/
theorem EntryOk.tokenInside (h : EntryOk e) {op : Op} (hfits : Fits op e) {device : RdmaDevice}
    {qpNum : BitVec 32} (htoken : buildRdmaToken device qpNum e op.size op.offset = some token) :
    TokenInside op e token := by
  obtain ⟨hpos, hnonneg, hend⟩ := hfits
  obtain ⟨-, -, hrkey, haddr, hlength⟩ := buildRdmaToken_some htoken
  have hwide := h.remoteEnd
  have hsmall := h.small
  have hexact : (token.remoteAddr.toNat : Int) = e.remoteAddr.toNat + op.offset.toInt := by
    rw [haddr]
    exact toNat_add_of_inside hnonneg (by omega) hwide
  exact {
    pos := by rw [hlength]; exact hpos
    small := by rw [hlength]; omega
    noWrap := by rw [hlength]; omega
    starts := by rw [h.mr.1]; omega
    ends := by rw [hlength, h.mr.1, h.mr.2]; omega
    offset := by rw [h.mr.1]; omega
    length := hlength
    rkey := hrkey }

/-! ### Calls -/

/-- The outside sees only calls whose range fits. -/
theorem working_of_effects (h : PcOk inserted c c.pc) (heffects : c.effects ≠ []) : c.Working := by
  obtain ⟨hnone, -⟩ | hworking | ⟨buf, ended, stillRunning, -, hnone, -⟩ |
    ⟨locals, result, -, hended⟩ := h.phase
  · exact absurd hnone heffects
  · exact hworking
  · exact absurd hnone heffects
  · exact hended.effects heffects

/-- A call that succeeds used a buffer that its range fits. -/
theorem working_of_success (h : PcOk inserted c c.pc) (huses : c.op.usesBuffer = true)
    (hresult : c.result = some .Success) : c.Working := by
  unfold Call.result at hresult
  split at hresult
  · rename_i locals result hpc
    cases hresult
    rw [hpc] at h
    exact Call.Ended.success h huses rfl
  · cases hresult

/-- A call whose range doesn't fit in what it found returns with an error right
after it has looked. -/
theorem checkBufferArgs_refuses {buf : Option Nat} (hpc : c.pc = .checkBufferArgs buf)
    (hbuf : ∀ i, buf = some i → s.entryAt i = c.found)
    (hout : ∀ e, c.found = some e →
      ¬ (0 ≤ c.op.offset.toInt ∧ c.op.offset.toInt + c.op.size.toNat ≤ e.size.toNat))
    (reply : Reply) : ∃ error, error ≠ .Success ∧
      s.callStep setup c reply = some (c.ret { Locals.empty with buf := buf } error, s) := by
  have hrefused : checkBufferArgs c.op.devPtr (buf.bind s.entryAt) c.op.size c.op.offset ≠
      .Success := by
    intro hok
    obtain ⟨-, -, entry, hentry, hnonneg, hend⟩ := checkBufferArgs_success hok
    obtain ⟨i, hi, hentry⟩ := Option.bind_eq_some_iff.mp hentry
    exact hout entry ((hbuf i hi).symm.trans hentry) ⟨hnonneg, hend⟩
  refine ⟨_, hrefused, ?_⟩
  simp only [InstanceState.callStep, hpc, InstanceState.checkBufferArgsStep]
  split
  · rename_i hok
    exact absurd hok hrefused
  · rfl

/-- In every state of every run, every token that a call has minted lies inside
the range that the NIC was given for the entry that the call found, in exact
arithmetic, and that range is the caller's memory or its staging buffer. A call
whose range doesn't fit in the entry it found, if it found one, is not seen by
the outside and doesn't succeed: it goes from its checks straight to returning an
error. While a call holds an entry, the memory region behind its tokens is
registered. -/
theorem minted_tokens_inside (h : (instanceMachine setup).Reachable s) :
    (∀ c ∈ s.allCalls, ∀ token, .minted token ∈ c.effects →
      ∃ e, c.found = some e ∧ e.key = c.op.devPtr ∧ TokenInside c.op e token ∧
        RegisteredOver c.op e) ∧
    (∀ c ∈ s.allCalls, c.op.usesBuffer = true →
      (∀ e, c.found = some e →
        ¬ (0 ≤ c.op.offset.toInt ∧ c.op.offset.toInt + c.op.size.toNat ≤ e.size.toNat)) →
      c.effects = [] ∧ c.result ≠ some .Success ∧
        ∀ buf, c ∈ s.calls → c.pc = .checkBufferArgs buf → ∀ reply, ∃ error, error ≠ .Success ∧
          s.callStep setup c reply = some (c.ret { Locals.empty with buf := buf } error, s)) ∧
    (∀ c ∈ s.calls, ∀ i, c.pc.locals.buf = some i → ∀ e, c.found = some e →
      s.entryAt i = some e ∧ s.LiveMr e.mr) := by
  have howned := owned_of_reachable h
  have hmap := mapOk_of_reachable h
  have hcalls := callsOk_of_reachable h
  refine ⟨?_, ?_, ?_⟩
  · intro c hc token htoken
    have hworking := working_of_effects (hcalls.calls c hc) (List.ne_nil_of_mem htoken)
    obtain ⟨e, device, qpNum, hfound, hbuilt⟩ := hworking.tokens token htoken
    obtain ⟨hok, hkey⟩ := hworking.found e hfound
    obtain ⟨e', hfound', hfits⟩ := hworking.fits
    obtain rfl : e = e' := Option.some.inj (hfound.symm.trans hfound')
    exact ⟨e, hfound, hkey, hok.tokenInside hfits hbuilt, hok.registeredOver hkey⟩
  · intro c hc huses hout
    have hnot : ¬ c.Working := by
      intro hworking
      obtain ⟨e, hfound, -, hnonneg, hend⟩ := hworking.fits
      exact hout e hfound ⟨hnonneg, hend⟩
    refine ⟨?_, ?_, ?_⟩
    · by_contra heffects
      exact hnot (working_of_effects (hcalls.calls c hc) heffects)
    · exact fun hresult => hnot (working_of_success (hcalls.calls c hc) huses hresult)
    · intro buf hcall hpc
      refine checkBufferArgs_refuses hpc (fun i hi => hmap.found c hcall i ?_) hout
      rw [hpc]
      exact hi
  · intro c hc i hi e hfound
    have hentry := (hmap.found c hc i hi).trans hfound
    have hheld : s.Held i := .inr ⟨c, hc, by simp [Locals.pins, hi]⟩
    obtain ⟨e', he', -, hlive, -⟩ := held_live howned hmap hcalls hheld
    obtain rfl : e' = e := Option.some.inj (he'.symm.trans hentry)
    exact ⟨hentry, hlive⟩

/-- A staged registration, and a transfer of its middle part up to the request. -/
def stagedTransfer : List ScriptLine :=
  [.begin (.register 0x1000 64), .step 0 (.pointer ⟨some .device, some (0x800, 0x1000)⟩),
    .step 0 .ok, .step 0 .fail, .step 0 (.memory (some .device) (some 0x7000)), .step 0 (.mr 7),
    .step 0 .ok, .step 0 .ok, .ret 0, .begin (.get 0x1000 16 8 true), .step 4 .ok, .step 4 .ok,
    .step 4 .ok, .step 4 (.statuses fun _ => ⟨.notReady, false, false⟩), .step 4 .ok,
    .step 4 (.lease (.ok 9)), .step 4 .ok, .step 4 .ok]

/-- A token for the middle part. -/
def Effect.mintsMiddle : Effect → Bool
  | .minted token => token.remoteAddr = 0x7008
  | _ => false

theorem minted_tokens_after_stagedTransfer :
    ∃ (s : InstanceState) (c : Call) (token : RdmaToken) (e : BufEntry),
      c ∈ s.calls ∧ .minted token ∈ c.effects ∧ token.remoteAddr = 0x7008 ∧ c.found = some e ∧
        TokenInside c.op e token ∧ RegisteredOver c.op e := by
  obtain ⟨s, hs, hlast⟩ := Machine.exists_reachable_of_runScript (instanceMachine sampleSetup)
    ScriptLine.action stagedTransfer
    (fun s => s.calls.any fun c => c.effects.any Effect.mintsMiddle) rfl (by decide)
  obtain ⟨c, hc, hlast⟩ := List.any_eq_true.mp hlast
  obtain ⟨effect, heffect, haddr⟩ := List.any_eq_true.mp hlast
  cases effect with
  | minted token =>
      obtain ⟨e, hfound, -, hinside, hover⟩ :=
        (minted_tokens_inside hs).1 c (List.mem_append_left _ hc) token heffect
      exact ⟨s, c, token, e, hc, heffect, of_decide_eq_true haddr, hfound, hinside, hover⟩
  | _ => cases haddr

end HipObject
