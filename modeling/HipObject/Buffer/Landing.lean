import HipObject.Buffer.Alone
import HipObject.Buffer.Staging
import HipObject.Buffer.Tokens

/-!
# Data lands where the caller asked

The peer sees the memory region's addresses, the caller its own. For a direct
registration they are the same; for a staged one the staging copy carries the
bytes across, after the transfer of a `hipObjGet` and before that of a
`hipObjPut`, and its two spans start at the same offset as the token.

`TransferOk` says what is in the memory: what the caller had, with the peer's
writes on top, and then what the staging copy has moved. It says so of the places
where no earlier copy writes, so that nothing may be left on its way to the buffer
when the call begins. `checkNoAbandonedCopy` sees to that only for copies that have
a record. A copy whose event could not be recorded has none, and
`lost_copy_spoils_get` is what becomes of a `hipObjGet` after one.
-/

namespace HipObject

open Verification

variable {setup : Setup} {s u : InstanceState} {c c' : Call} {reply : Reply} {t t' : Transfer}
variable {e : BufEntry} {memory : Memory} {inserted : List (Nat × BitVec 64 × Nat)}
variable {lands : BitVec 64 → Prop}

/-! ### Where bytes are -/

/-- The bytes of the memory region that a call asks for. -/
def BufEntry.Window (e : BufEntry) (op : Op) (a : BitVec 64) : Prop :=
  e.remoteAddr.toNat + op.offset.toNat ≤ a.toNat ∧
    a.toNat < e.remoteAddr.toNat + op.offset.toNat + op.size.toNat

/-- The caller's bytes that a call asks for. -/
def Op.Asks (op : Op) (a : BitVec 64) : Prop :=
  op.devPtr.toNat + op.offset.toNat ≤ a.toNat ∧
    a.toNat < op.devPtr.toNat + op.offset.toNat + op.size.toNat

/-- The caller's memory is everything but the staging buffer. -/
def BufEntry.Callers (e : BufEntry) (a : BitVec 64) : Prop :=
  ∀ hostBuf, e.hostBuf = some hostBuf →
    ¬ (hostBuf.addr.toNat ≤ a.toNat ∧ a.toNat < hostBuf.addr.toNat + hostBuf.size.toNat)

/-- The registered memory is the caller's: `hostMalloc` gave memory that nobody
had. -/
def BufEntry.Apart (e : BufEntry) : Prop :=
  ∀ a : BitVec 64, e.key.toNat ≤ a.toNat → a.toNat < e.key.toNat + e.size.toNat → e.Callers a

/-- Nothing lands in the registered memory or in the staging buffer. -/
def BufEntry.Quiet (e : BufEntry) (lands : BitVec 64 → Prop) : Prop :=
  ∀ a, lands a → e.Callers a ∧ ¬ (e.key.toNat ≤ a.toNat ∧ a.toNat < e.key.toNat + e.size.toNat)

/-- Where the bytes that a call asks for start, in exact numbers. -/
structure Spans (op : Op) (e : BufEntry) : Prop where
  ok : EntryOk e
  key : e.key = op.devPtr
  fits : op.offset.toNat + op.size.toNat ≤ e.size.toNat

namespace Spans

variable {op : Op} {i j : Nat} {a : BitVec 64}

theorem byteAt {base : BitVec 64} (h : Spans op e) (hbase : base.toNat + e.size.toNat < 2 ^ 64)
    (hi : i < op.size.toNat) :
    (base + op.offset + BitVec.ofNat 64 i).toNat = base.toNat + op.offset.toNat + i := by
  have hfits := h.fits
  have hlt : i < 2 ^ 64 := by omega
  rw [BitVec.toNat_add, BitVec.toNat_add, BitVec.toNat_ofNat, Nat.mod_eq_of_lt hlt,
    Nat.mod_eq_of_lt (a := base.toNat + op.offset.toNat) (by omega), Nat.mod_eq_of_lt (by omega)]

theorem asked (h : Spans op e) (hi : i < op.size.toNat) :
    (op.devPtr + op.offset + BitVec.ofNat 64 i).toNat = op.devPtr.toNat + op.offset.toNat + i :=
  h.byteAt (h.key ▸ h.ok.keyEnd) hi

theorem remote (h : Spans op e) (hi : i < op.size.toNat) :
    (e.remoteAddr + op.offset + BitVec.ofNat 64 i).toNat =
      e.remoteAddr.toNat + op.offset.toNat + i :=
  h.byteAt h.ok.remoteEnd hi

theorem asks (h : Spans op e) (hi : i < op.size.toNat) :
    op.Asks (op.devPtr + op.offset + BitVec.ofNat 64 i) := by
  rw [Op.Asks, h.asked hi]
  omega

theorem window (h : Spans op e) (hi : i < op.size.toNat) :
    e.Window op (e.remoteAddr + op.offset + BitVec.ofNat 64 i) := by
  rw [BufEntry.Window, h.remote hi]
  omega

theorem callers_of_asks (h : Spans op e) (hapart : e.Apart) (ha : op.Asks a) : e.Callers a := by
  obtain ⟨hstart, hend⟩ := ha
  have hfits := h.fits
  refine hapart a ?_ ?_ <;> rw [h.key] <;> omega

/-- The window of a staged entry is in its staging buffer. -/
theorem not_callers_of_window (h : Spans op e) {hostBuf : HostBuf}
    (hstaged : e.hostBuf = some hostBuf) (ha : e.Window op a) : ¬ e.Callers a := by
  intro hcallers
  obtain ⟨haddr, hsize, -⟩ := h.ok.staged hostBuf hstaged
  obtain ⟨hstart, hend⟩ := ha
  have hfits := h.fits
  refine hcallers hostBuf hstaged ⟨?_, ?_⟩ <;> rw [haddr]
  · omega
  · rw [hsize]
    omega

theorem quiet_asks (h : Spans op e) (hquiet : e.Quiet lands) (ha : op.Asks a) : ¬ lands a := by
  intro hlands
  obtain ⟨hstart, hend⟩ := ha
  have hfits := h.fits
  refine (hquiet a hlands).2 ⟨?_, ?_⟩ <;> rw [h.key] <;> omega

theorem quiet_window (h : Spans op e) (hquiet : e.Quiet lands) (ha : e.Window op a) :
    ¬ lands a := by
  cases hhostBuf : e.hostBuf with
  | none =>
      refine h.quiet_asks hquiet ?_
      rwa [BufEntry.Window, h.ok.direct hhostBuf, h.key] at ha
  | some hostBuf => exact fun hlands => h.not_callers_of_window hhostBuf ha (hquiet a hlands).1

theorem asked_inj (h : Spans op e) (hi : i < op.size.toNat) (hj : j < op.size.toNat)
    (heq : op.devPtr + op.offset + BitVec.ofNat 64 i = op.devPtr + op.offset + BitVec.ofNat 64 j) :
    i = j := by
  have hnat := congrArg BitVec.toNat heq
  rw [h.asked hi, h.asked hj] at hnat
  omega

theorem remote_inj (h : Spans op e) (hi : i < op.size.toNat) (hj : j < op.size.toNat)
    (heq : e.remoteAddr + op.offset + BitVec.ofNat 64 i =
      e.remoteAddr + op.offset + BitVec.ofNat 64 j) : i = j := by
  have hnat := congrArg BitVec.toNat heq
  rw [h.remote hi, h.remote hj] at hnat
  omega

end Spans

/-! ### What holds during a transfer -/

theorem spans_of_working (h : c.Working) (hfound : c.found = some e) : Spans c.op e := by
  obtain ⟨hok, hkey⟩ := h.found e hfound
  obtain ⟨e', hfound', -, hnonneg, hend⟩ := h.fits
  obtain rfl : e = e' := Option.some.inj (hfound.symm.trans hfound')
  have hnat := toNat_of_toInt_nonneg hnonneg
  exact ⟨hok, hkey, by omega⟩

namespace Transfer

/-- The memory after what the staging copy has moved. -/
def after (t : Transfer) (m : Memory) : Memory :=
  match t.memcpy with
  | none => m
  | some copy => moved copy.dstAt copy.srcAt m t.moves

theorem after_idle (hcopy : t.call.copy = none) (m : Memory) : t.after m = m := by
  rw [after, memcpy, hcopy, Option.bind_none]

end Transfer

/-- What the staging copy has come to. -/
def StagingOk (e : BufEntry) (t : Transfer) : Staging → Prop
  | .pending => t.call.copy = none
  | .running => t.call.copy.isSome = true
  | .settled => e.hostBuf = none ∧ t.call.copy = none ∨
      t.call.copy.isSome = true ∧ t.landed = true
  | .failed => True

/-- The call has found the entry, or is about to, or failed before that. -/
def FindsEntry (e : BufEntry) (s : InstanceState) (c : Call) : Prop :=
  c.found = some e ∨ c.found = none ∧ (staging c.op c.pc = .failed ∨
    (c.pc = .start ∨ c.pc = .find) ∧
      ∃ i, s.lookupKey c.op.devPtr = some i ∧ s.entryAt i = some e)

/-- What has come of a transfer, and what is where nothing else lands. -/
structure TransferOk (lands : BitVec 64 → Prop) (op : Op) (e : BufEntry) (memory : Memory)
    (t : Transfer) : Prop where
  same : t.call.op = op
  finds : FindsEntry e t.state t.call
  idle : t.call.copy = none → t.moves = []
  copy : ∀ k, t.call.copy = some k → e.hostBuf = some k.hostBuf
  moves : ∀ i ∈ t.moves, i < op.size.toNat
  content : ∀ a, ¬ lands a → t.memory a = t.after (stored memory t.writes) a
  writes : ∀ w ∈ t.writes, op.isGet = true ∧ e.Window op w.1
  reads : ∀ r ∈ t.reads, ∀ i < op.size.toNat,
    r.1 = e.remoteAddr + op.offset + BitVec.ofNat 64 i →
      r.2 = memory (op.devPtr + op.offset + BitVec.ofNat 64 i)
  progress : StagingOk e t (staging op t.call.pc)

section Contents

variable {op : Op}

theorem effects_of_copy {k : StagingCopy} (h : c.copy = some k) : c.effects ≠ [] := by
  intro hnone
  rw [Call.copy, hnone] at h
  cases h

/-- A call that has done something has found the entry. -/
theorem TransferOk.spans (h : TransferOk lands op e memory t) (hworking : t.call.Working) :
    Spans op e := by
  obtain hfound | ⟨hnone, -⟩ := h.finds
  · exact h.same ▸ spans_of_working hworking hfound
  · obtain ⟨e', hfound, -⟩ := hworking.fits
    cases hnone.symm.trans hfound

/-- A byte of the staging buffer isn't a byte that the caller asked for. -/
theorem Spans.ne_of_staged (h : Spans op e) (hapart : e.Apart) {hostBuf : HostBuf}
    (hstaged : e.hostBuf = some hostBuf) {i j : Nat} (hi : i < op.size.toNat)
    (hj : j < op.size.toNat) :
    e.remoteAddr + op.offset + BitVec.ofNat 64 j ≠ op.devPtr + op.offset + BitVec.ofNat 64 i := by
  intro heq
  exact h.not_callers_of_window hstaged (h.window hj) (heq ▸ h.callers_of_asks hapart (h.asks hi))

/-- The copy of a `hipObjGet` goes from the window to what the caller asked for. -/
theorem get_memcpy {hostBuf : HostBuf} (hget : op.isGet = true) (hspans : Spans op e)
    (hstaged : e.hostBuf = some hostBuf) : ∃ copy, op.memcpy hostBuf = some copy ∧
      copy.size = op.size ∧
      (∀ i, copy.dstAt i = op.devPtr + op.offset + BitVec.ofNat 64 i) ∧
      ∀ i, copy.srcAt i = e.remoteAddr + op.offset + BitVec.ofNat 64 i := by
  obtain ⟨haddr, -⟩ := hspans.ok.staged hostBuf hstaged
  cases op with
  | get devPtr size offset ops =>
      refine ⟨_, rfl, rfl, fun _ => rfl, fun i => ?_⟩
      rw [← haddr]
      rfl
  | _ => cases hget

/-- The copy of a `hipObjPut` goes the other way. -/
theorem put_memcpy {hostBuf : HostBuf} (hput : op.isPut = true) (hspans : Spans op e)
    (hstaged : e.hostBuf = some hostBuf) : ∃ copy, op.memcpy hostBuf = some copy ∧
      copy.size = op.size ∧
      (∀ i, copy.dstAt i = e.remoteAddr + op.offset + BitVec.ofNat 64 i) ∧
      ∀ i, copy.srcAt i = op.devPtr + op.offset + BitVec.ofNat 64 i := by
  obtain ⟨haddr, -⟩ := hspans.ok.staged hostBuf hstaged
  cases op with
  | put devPtr size offset ops =>
      refine ⟨_, rfl, rfl, fun i => ?_, fun _ => rfl⟩
      rw [← haddr]
      rfl
  | _ => cases hput

theorem Transfer.after_copy {k : StagingCopy} {copy : Memcpy} (hk : t.call.copy = some k)
    (hcopy : t.call.op.memcpy k.hostBuf = some copy) (m : Memory) :
    t.after m = moved copy.dstAt copy.srcAt m t.moves := by
  rw [Transfer.after, Transfer.memcpy, hk, Option.bind_some, hcopy]

theorem Transfer.landed_iff {k : StagingCopy} {copy : Memcpy} (hk : t.call.copy = some k)
    (hcopy : t.call.op.memcpy k.hostBuf = some copy) :
    t.landed = true ↔ ∀ i < copy.size.toNat, i ∈ t.moves := by
  rw [Transfer.landed, Transfer.memcpy, hk, Option.bind_some, hcopy, Option.all_some,
    decide_eq_true_iff]

theorem TransferOk.no_writes (h : TransferOk lands op e memory t) (hput : op.isPut = true) :
    t.writes = [] := by
  refine List.eq_nil_iff_forall_not_mem.mpr fun w hw => ?_
  have hget := (h.writes w hw).1
  cases op with
  | put _ _ _ _ => cases hget
  | _ => cases hput

/-- Once a `hipObjPut` has staged, the window has what the caller's memory had. -/
theorem TransferOk.staged_put (h : TransferOk lands op e memory t) (hspans : Spans op e)
    (hapart : e.Apart) (hquiet : e.Quiet lands) (hput : op.isPut = true)
    (hsettled : StagingOk e t .settled) :
    ∀ i < op.size.toNat, t.memory (e.remoteAddr + op.offset + BitVec.ofNat 64 i) =
      memory (op.devPtr + op.offset + BitVec.ofNat 64 i) := by
  intro i hi
  rw [h.content _ (hspans.quiet_window hquiet (hspans.window hi)), h.no_writes hput, stored]
  obtain ⟨hdirect, hnone⟩ | ⟨hsome, hlanded⟩ := hsettled
  · rw [Transfer.after_idle hnone, hspans.ok.direct hdirect, hspans.key]
  · obtain ⟨k, hk⟩ := Option.isSome_iff_exists.mp hsome
    have hstaged := h.copy k hk
    obtain ⟨copy, hcopy, hsize, hdst, hsrc⟩ := put_memcpy hput hspans hstaged
    rw [← h.same] at hcopy
    rw [Transfer.landed_iff hk hcopy, hsize] at hlanded
    rw [Transfer.after_copy hk hcopy, ← hdst, ← hsrc]
    refine moved_dst (hlanded i hi) ?_ ?_
    · intro j hj
      rw [hdst, hsrc]
      exact hspans.ne_of_staged hapart hstaged hi (h.moves j hj)
    · intro j hj heq
      rw [hdst, hdst] at heq
      exact hspans.remote_inj (h.moves j hj) hi heq

/-- A `hipObjPut` doesn't change the caller's memory. -/
theorem TransferOk.kept_put (h : TransferOk lands op e memory t)
    (hworking : t.call.effects ≠ [] → t.call.Working) (hput : op.isPut = true) {a : BitVec 64}
    (ha : e.Callers a) (hlands : ¬ lands a) : t.memory a = memory a := by
  rw [h.content a hlands, h.no_writes hput, stored]
  cases hk : t.call.copy with
  | none => rw [Transfer.after_idle hk]
  | some k =>
      have hspans := h.spans (hworking (effects_of_copy hk))
      have hstaged := h.copy k hk
      obtain ⟨copy, hcopy, -, hdst, -⟩ := put_memcpy hput hspans hstaged
      rw [← h.same] at hcopy
      rw [Transfer.after_copy hk hcopy]
      refine moved_of_ne fun j hj heq => ?_
      rw [hdst] at heq
      exact hspans.not_callers_of_window hstaged (hspans.window (h.moves j hj)) (heq ▸ ha)

/-- Once a `hipObjGet` has staged, the caller's memory has what was written. -/
theorem TransferOk.staged_get (h : TransferOk lands op e memory t) (hspans : Spans op e)
    (hapart : e.Apart) (hquiet : e.Quiet lands) (hget : op.isGet = true)
    (hsettled : StagingOk e t .settled) :
    (∀ i < op.size.toNat, t.memory (op.devPtr + op.offset + BitVec.ofNat 64 i) =
      stored memory t.writes (e.remoteAddr + op.offset + BitVec.ofNat 64 i)) ∧
    ∀ a, e.Callers a → ¬ op.Asks a → ¬ lands a → t.memory a = memory a := by
  have hquiet : ∀ i < op.size.toNat, ¬ lands (op.devPtr + op.offset + BitVec.ofNat 64 i) :=
    fun i hi => hspans.quiet_asks hquiet (hspans.asks hi)
  obtain ⟨hdirect, hnone⟩ | ⟨hsome, hlanded⟩ := hsettled
  · have haddr : e.remoteAddr = op.devPtr := (hspans.ok.direct hdirect).trans hspans.key
    refine ⟨fun i hi => ?_, fun a _ hasks hlands => ?_⟩
    · rw [h.content _ (hquiet i hi), Transfer.after_idle hnone, haddr]
    rw [h.content a hlands, Transfer.after_idle hnone]
    refine stored_of_not_mem fun w hw heq => ?_
    have hwindow := (h.writes w hw).2
    rw [BufEntry.Window, haddr, heq] at hwindow
    exact hasks hwindow
  · obtain ⟨k, hk⟩ := Option.isSome_iff_exists.mp hsome
    have hstaged := h.copy k hk
    obtain ⟨copy, hcopy, hsize, hdst, hsrc⟩ := get_memcpy hget hspans hstaged
    rw [← h.same] at hcopy
    rw [Transfer.landed_iff hk hcopy, hsize] at hlanded
    refine ⟨fun i hi => ?_, fun a hcallers hasks hlands => ?_⟩
    · rw [h.content _ (hquiet i hi), Transfer.after_copy hk hcopy, ← hdst, ← hsrc]
      refine moved_dst (hlanded i hi) ?_ ?_
      · intro j hj
        rw [hdst, hsrc]
        exact (hspans.ne_of_staged hapart hstaged (h.moves j hj) hi).symm
      · intro j hj heq
        rw [hdst, hdst] at heq
        exact hspans.asked_inj (h.moves j hj) hi heq
    · rw [h.content a hlands, Transfer.after_copy hk hcopy, moved_of_ne, stored_of_not_mem]
      · intro w hw heq
        exact hspans.not_callers_of_window hstaged (h.writes w hw).2 (heq ▸ hcallers)
      · intro j hj heq
        rw [hdst] at heq
        exact hasks (heq ▸ hspans.asks (h.moves j hj))

end Contents

/-! ### Runs of a transfer -/

section Runs

variable {op : Op}

/-- What a step of a transfer does. -/
inductive TransferMove (setup : Setup) (t : Transfer) : Transfer → Prop
  | step {reply : Reply} {c' : Call} {u : InstanceState} (allowed : t.allows reply = true)
      (taken : t.state.callStep setup t.call reply = some (c', u)) :
      TransferMove setup t { t with
        state := { u with calls := c' :: t.state.calls.erase t.call }
        call := c' }
  | write {addr : BitVec 64} {byte : BitVec 8} (get : t.call.op.isGet = true)
      (serves : t.call.serves addr = true) :
      TransferMove setup t { t with
        memory := Function.update t.memory addr byte
        writes := (addr, byte) :: t.writes }
  | read {addr : BitVec 64} (put : t.call.op.isPut = true) (serves : t.call.serves addr = true) :
      TransferMove setup t { t with reads := (addr, t.memory addr) :: t.reads }
  | move {flight : StagingCopy × Memcpy} {i : Nat} (running : flight ∈ t.state.inFlight)
      (bound : i < flight.2.size.toNat) :
      TransferMove setup t { t with
        memory := Function.update t.memory (flight.2.dstAt i) (t.memory (flight.2.srcAt i))
        moves := if t.call.flight = some flight then i :: t.moves else t.moves }
  | finishCopy {copy : StagingCopy} (taken : instanceStep setup t.state (.finishCopy copy) =
      some { t.state with finished := copy :: t.state.finished }) :
      TransferMove setup t { t with
        state := { t.state with finished := copy :: t.state.finished } }

theorem transferMove_of_step {a : TransferAction}
    (h : (transferMachine setup s c memory).step t a = some t') : TransferMove setup t t' := by
  cases a with
  | step reply =>
      simp only [transferMachine, Transfer.step, Option.ite_none_right_eq_some,
        Option.map_eq_some_iff, Prod.exists] at h
      obtain ⟨hallows, c', u, htaken, rfl⟩ := h
      exact .step hallows htaken
  | write addr byte =>
      simp only [transferMachine, Transfer.step, Option.ite_none_right_eq_some,
        Bool.and_eq_true, Option.some.injEq] at h
      obtain ⟨⟨hget, hserves⟩, rfl⟩ := h
      exact .write hget hserves
  | read addr =>
      simp only [transferMachine, Transfer.step, Option.ite_none_right_eq_some,
        Bool.and_eq_true, Option.some.injEq] at h
      obtain ⟨⟨hput, hserves⟩, rfl⟩ := h
      exact .read hput hserves
  | move flight i =>
      simp only [transferMachine, Transfer.step, Option.ite_none_right_eq_some,
        Option.some.injEq] at h
      obtain ⟨⟨hrunning, hi⟩, rfl⟩ := h
      exact .move hrunning hi
  | finishCopy copy =>
      simp only [transferMachine, Transfer.step, Option.map_eq_some_iff] at h
      obtain ⟨u, htaken, rfl⟩ := h
      obtain ⟨-, -, rfl⟩ := instanceStep_finishCopy_eq htaken
      exact .finishCopy htaken

/-- A transfer is a run of its instance. -/
theorem transfer_reachable (hs : (instanceMachine setup).Reachable s) (hc : c ∈ s.calls)
    (h : (transferMachine setup s c memory).Reachable t) :
    (instanceMachine setup).Reachable t.state ∧ t.call ∈ t.state.calls := by
  refine Machine.Reachable.invariant
    (I := fun t => (instanceMachine setup).Reachable t.state ∧ t.call ∈ t.state.calls) ?_ ?_ h
  · rintro t rfl
    exact ⟨hs, hc⟩
  · rintro t a t' - ⟨hreached, hmem⟩ hstep
    cases transferMove_of_step hstep with
    | @step reply c' u _ htaken =>
        exact ⟨.step (a := .step t.call reply) hreached trivial (instanceStep_step hmem htaken),
          List.mem_cons_self⟩
    | write _ _ | read _ _ | move _ _ => exact ⟨hreached, hmem⟩
    | @finishCopy copy htaken =>
        exact ⟨.step (a := .finishCopy copy) hreached trivial htaken, hmem⟩

/-- The other calls stay as they were, and what is finished stays finished. -/
theorem transfer_others (hc : c ∈ s.calls) (h : (transferMachine setup s c memory).Reachable t) :
    t.state.calls.Perm (t.call :: s.calls.erase c) ∧ t.state.returned = s.returned ∧
      ∀ k ∈ s.finished, k ∈ t.state.finished := by
  refine Machine.Reachable.invariant (I := fun t => t.state.calls.Perm (t.call :: s.calls.erase c) ∧
    t.state.returned = s.returned ∧ ∀ k ∈ s.finished, k ∈ t.state.finished) ?_ ?_ h
  · rintro t rfl
    exact ⟨List.perm_cons_erase hc, rfl, fun _ hk => hk⟩
  · rintro t a t' - ⟨hcalls, hreturned, hfinished⟩ hstep
    cases transferMove_of_step hstep with
    | @step reply c' u _ htaken =>
        obtain ⟨-, -, hkept, hsame, -⟩ := (callStep_anyMoves htaken).move.frame
        refine ⟨?_, hkept.trans hreturned, fun k hk => hsame ▸ hfinished k hk⟩
        have hothers := hcalls.erase t.call
        rw [List.erase_cons_head] at hothers
        exact hothers.cons c'
    | write _ _ | read _ _ | move _ _ => exact ⟨hcalls, hreturned, hfinished⟩
    | finishCopy _ =>
        exact ⟨hcalls, hreturned, fun k hk => List.mem_cons_of_mem _ (hfinished k hk)⟩

/-- A copy on its way is the call's own, or was on its way before. -/
theorem own_or_earlier (hc : c ∈ s.calls) (h : (transferMachine setup s c memory).Reachable t)
    {flight : StagingCopy × Memcpy} (hflight : flight ∈ t.state.inFlight) :
    t.call.flight = some flight ∨ flight ∈ s.inFlight := by
  obtain ⟨hcalls, hreturned, hfinished⟩ := transfer_others hc h
  obtain ⟨hmem, hrunning⟩ := List.mem_filter.mp hflight
  obtain ⟨d, hd, hstarted⟩ := List.mem_filterMap.mp hmem
  have hearlier : d ∈ s.allCalls → flight ∈ s.inFlight := by
    intro hd
    refine List.mem_filter.mpr ⟨List.mem_filterMap.mpr ⟨d, hd, hstarted⟩, ?_⟩
    exact decide_eq_true fun hover => of_decide_eq_true hrunning (hfinished _ hover)
  rcases List.mem_append.mp hd with hd | hd
  · rcases List.mem_cons.mp (hcalls.mem_iff.mp hd) with rfl | hd
    · exact .inl hstarted
    · exact .inr (hearlier (List.mem_append_left _ (List.mem_of_mem_erase hd)))
  · exact .inr (hearlier (List.mem_append_right _ (hreturned ▸ hd)))

/-- What the peer can reach is in the window. -/
theorem window_of_serves {a : BitVec 64} (hserves : c.serves a = true)
    (hworking : c.effects ≠ [] → c.Working) (hfound : ∀ e', c.found = some e' → e' = e) :
    e.Window c.op a := by
  obtain ⟨-, hopens⟩ := Bool.and_eq_true_iff.mp hserves
  obtain ⟨effect, hmem, hopens⟩ := List.any_eq_true.mp hopens
  cases effect with
  | minted token =>
      obtain ⟨e', device, qpNum, he', hbuilt⟩ :=
        (hworking (List.ne_nil_of_mem hmem)).tokens token hmem
      obtain rfl := hfound e' he'
      have hspans := spans_of_working (hworking (List.ne_nil_of_mem hmem)) he'
      obtain ⟨-, -, -, haddr, hlength⟩ := buildRdmaToken_some hbuilt
      have hfits := hspans.fits
      have hend := hspans.ok.remoteEnd
      have hexact : token.remoteAddr.toNat = e'.remoteAddr.toNat + c.op.offset.toNat := by
        rw [haddr, BitVec.toNat_add, Nat.mod_eq_of_lt (by omega)]
      simpa only [BufEntry.Window, Effect.opens, RdmaToken.covers, hexact, hlength,
        Bool.and_eq_true, decide_eq_true_iff] using hopens
  | _ => cases hopens

theorem staging_serving {pc : Pc} (h : pc.serving = true) :
    staging op pc = if op.isPut then .settled else .pending := by
  cases pc with
  | sendRequest _ | recvReply _ | finishTransfer _ => rfl
  | _ => cases h

theorem TransferOk.found (h : TransferOk lands op e memory t) {e' : BufEntry}
    (hfound : t.call.found = some e') : e' = e := by
  obtain heq | ⟨hnone, -⟩ := h.finds
  · exact Option.some.inj (hfound.symm.trans heq)
  · cases hnone.symm.trans hfound

theorem TransferOk.write {addr : BitVec 64} {byte : BitVec 8} (h : TransferOk lands op e memory t)
    (hworking : t.call.effects ≠ [] → t.call.Working) (hget : op.isGet = true)
    (hserves : t.call.serves addr = true) :
    TransferOk lands op e memory { t with
      memory := Function.update t.memory addr byte
      writes := (addr, byte) :: t.writes } := by
  have hidle : t.call.copy = none := by
    have hprogress := h.progress
    rw [staging_serving (Bool.and_eq_true_iff.mp hserves).1] at hprogress
    cases op with
    | get _ _ _ _ => exact hprogress
    | _ => cases hget
  refine ⟨h.same, h.finds, h.idle, h.copy, h.moves, ?_, ?_, h.reads, h.progress⟩
  · intro a hlands
    have hbefore := h.content a hlands
    rw [Transfer.after_idle hidle] at hbefore
    refine Eq.trans ?_ (congrFun (Transfer.after_idle (t := { t with
      memory := Function.update t.memory addr byte
      writes := (addr, byte) :: t.writes }) hidle _) a).symm
    show Function.update t.memory addr byte a =
      Function.update (stored memory t.writes) addr byte a
    by_cases ha : a = addr
    · rw [ha, Function.update_self, Function.update_self]
    · rw [Function.update_of_ne ha, Function.update_of_ne ha, hbefore]
  · intro w hw
    rcases List.mem_cons.mp hw with rfl | hw
    · exact ⟨hget, h.same ▸ window_of_serves hserves hworking fun e' he' => h.found he'⟩
    · exact h.writes w hw

theorem TransferOk.read {addr : BitVec 64} (h : TransferOk lands op e memory t) (hapart : e.Apart)
    (hquiet : e.Quiet lands) (hworking : t.call.effects ≠ [] → t.call.Working)
    (hput : op.isPut = true) (hserves : t.call.serves addr = true) :
    TransferOk lands op e memory { t with reads := (addr, t.memory addr) :: t.reads } := by
  have hsettled : StagingOk e t .settled := by
    have hprogress := h.progress
    rwa [staging_serving (Bool.and_eq_true_iff.mp hserves).1, if_pos hput] at hprogress
  have heffects : t.call.effects ≠ [] := by
    intro hnone
    simp [Call.serves, hnone] at hserves
  refine ⟨h.same, h.finds, h.idle, h.copy, h.moves, h.content, h.writes, ?_, h.progress⟩
  intro r hr i hi haddr
  rcases List.mem_cons.mp hr with rfl | hr
  · obtain rfl : addr = _ := haddr
    exact h.staged_put (h.spans (hworking heffects)) hapart hquiet hput hsettled i hi
  · exact h.reads r hr i hi haddr

theorem memcpy_size {hostBuf : HostBuf} {copy : Memcpy} (h : op.memcpy hostBuf = some copy) :
    copy.size = op.size := by
  unfold Op.memcpy at h
  split at h
  · cases h
    rfl
  · cases h
    rfl
  · split at h <;> cases h <;> rfl
  · cases h

/-- What a transfer's copy reads lies where nothing else lands. -/
theorem TransferOk.quiet_src {i : Nat} {k : StagingCopy} {copy : Memcpy}
    (h : TransferOk lands op e memory t) (hop : op.isGet = true ∨ op.isPut = true)
    (hquiet : e.Quiet lands) (hworking : t.call.effects ≠ [] → t.call.Working)
    (hk : t.call.copy = some k) (hcopy : op.memcpy k.hostBuf = some copy)
    (hi : i < op.size.toNat) : ¬ lands (copy.srcAt i) := by
  have hspans := h.spans (hworking (effects_of_copy hk))
  have hstaged := h.copy k hk
  obtain hget | hput := hop
  · obtain ⟨copy', hcopy', -, -, hsrc⟩ := get_memcpy hget hspans hstaged
    obtain rfl : copy' = copy := Option.some.inj (hcopy'.symm.trans hcopy)
    rw [hsrc]
    exact hspans.quiet_window hquiet (hspans.window hi)
  · obtain ⟨copy', hcopy', -, -, hsrc⟩ := put_memcpy hput hspans hstaged
    obtain rfl : copy' = copy := Option.some.inj (hcopy'.symm.trans hcopy)
    rw [hsrc]
    exact hspans.quiet_asks hquiet (hspans.asks hi)

/-- Another copy moves a byte. -/
theorem TransferOk.elsewhere (h : TransferOk lands op e memory t) {a : BitVec 64}
    (hlands : lands a) (byte : BitVec 8) :
    TransferOk lands op e memory { t with memory := Function.update t.memory a byte } := by
  refine ⟨h.same, h.finds, h.idle, h.copy, h.moves, fun b hb => ?_, h.writes, h.reads, h.progress⟩
  have hne : b ≠ a := by
    rintro rfl
    exact hb hlands
  exact (Function.update_of_ne hne _ _).trans (h.content b hb)

/-- The call's own copy moves a byte. -/
theorem TransferOk.move {i : Nat} {k : StagingCopy} {copy : Memcpy}
    (h : TransferOk lands op e memory t) (hop : op.isGet = true ∨ op.isPut = true)
    (hquiet : e.Quiet lands) (hworking : t.call.effects ≠ [] → t.call.Working)
    (hk : t.call.copy = some k) (hcopy : t.call.op.memcpy k.hostBuf = some copy)
    (hi : i < copy.size.toNat) :
    TransferOk lands op e memory { t with
      memory := Function.update t.memory (copy.dstAt i) (t.memory (copy.srcAt i))
      moves := i :: t.moves } := by
  have hsize : copy.size = op.size := h.same ▸ memcpy_size hcopy
  refine ⟨h.same, h.finds, ?_, h.copy, ?_, ?_, h.writes, h.reads, ?_⟩
  · intro hnone
    cases hnone.symm.trans hk
  · intro j hj
    rcases List.mem_cons.mp hj with rfl | hj
    · exact hsize ▸ hi
    · exact h.moves j hj
  · intro a ha
    have hsrc := h.quiet_src hop hquiet hworking hk (h.same ▸ hcopy) (hsize ▸ hi)
    have hbefore : ∀ b, ¬ lands b → t.memory b =
        moved copy.dstAt copy.srcAt (stored memory t.writes) t.moves b := by
      intro b hb
      rw [h.content b hb, Transfer.after_copy hk hcopy]
    refine Eq.trans ?_ (congrFun (Transfer.after_copy (t := { t with
      memory := Function.update t.memory (copy.dstAt i) (t.memory (copy.srcAt i))
      moves := i :: t.moves }) hk hcopy _) a).symm
    show Function.update t.memory (copy.dstAt i) (t.memory (copy.srcAt i)) a =
      moved copy.dstAt copy.srcAt (stored memory t.writes) (i :: t.moves) a
    rw [moved]
    by_cases hdst : a = copy.dstAt i
    · rw [hdst, Function.update_self, Function.update_self, hbefore _ hsrc]
    · rw [Function.update_of_ne hdst, Function.update_of_ne hdst, hbefore a ha]
  · have hprogress := h.progress
    show StagingOk e _ (staging op t.call.pc)
    cases hstaging : staging op t.call.pc with
    | pending | running | failed =>
        rw [hstaging] at hprogress
        exact hprogress
    | settled =>
        rw [hstaging] at hprogress
        obtain hdirect | ⟨hsome, hlanded⟩ := hprogress
        · exact .inl hdirect
        refine .inr ⟨hsome, ?_⟩
        rw [Transfer.landed_iff hk hcopy] at hlanded
        exact (Transfer.landed_iff (t := { t with moves := i :: t.moves }) hk hcopy).mpr
          fun j hj => List.mem_cons_of_mem i (hlanded j hj)

/-- The start of a transfer, before it looks for its buffer. -/
theorem startStep_finds (hop : c.op.isGet = true ∨ c.op.isPut = true)
    (h : s.startStep c reply = some (c', u)) :
    u = s ∧ c'.found = c.found ∧ (c'.pc = .find ∨ staging c.op c'.pc = .failed) := by
  unfold InstanceState.startStep at h
  cases hc : c.op with
  | get _ _ _ _ | put _ _ _ _ =>
      simp only [hc] at h
      split at h
      · cases h
        exact ⟨rfl, rfl, .inl rfl⟩
      · cases h
        exact ⟨rfl, rfl, .inr rfl⟩
  | _ => simp [hc, Op.isGet, Op.isPut] at hop

theorem FindsEntry.step (h : FindsEntry e s c) (hop : c.op.isGet = true ∨ c.op.isPut = true)
    (hok : PcOk inserted c c.pc) (hsame : c'.op = c.op) (hfound : c'.found = c.found ∨ c.pc = .find)
    (hstaging : StagingStep reply c c') (hstep : s.callStep setup c reply = some (c', u))
    (calls : List Call) : FindsEntry e { u with calls := calls } c' := by
  obtain hsome | ⟨hnone, hfailed | ⟨hstart | hfind, i, hkey, hentry⟩⟩ := h
  · refine .inl ((hfound.resolve_right fun hfind => ?_).trans hsome)
    rw [hfind] at hok
    cases hok.1.found.symm.trans hsome
  · have hpc : c.pc ≠ .find := by
      intro hfind
      rw [hfind] at hfailed
      cases hfailed
    refine .inr ⟨(hfound.resolve_right hpc).trans hnone, .inl ?_⟩
    rw [hsame]
    cases hstaging with
    | stays copy after => exact after.trans hfailed
    | failed copy after => exact after
    | skipped copy before found direct after => cases before.symm.trans hfailed
    | started copy before found staged after => cases before.symm.trans hfailed
    | ended copy before landed after => cases before.symm.trans hfailed
  · rw [InstanceState.callStep, hstart] at hstep
    obtain ⟨rfl, hkept, hnext⟩ := startStep_finds hop hstep
    refine .inr ⟨hkept.trans hnone, ?_⟩
    rw [hsame]
    exact hnext.elim (fun hfind => .inr ⟨.inr hfind, i, hkey, hentry⟩) .inl
  · rw [InstanceState.callStep, hfind] at hstep
    simp only [InstanceState.findStep, hkey, Option.some.injEq, Prod.mk.injEq] at hstep
    obtain ⟨rfl, -⟩ := hstep
    exact .inl hentry

/-- A step that leaves the copy alone leaves alone what it has moved. -/
theorem Transfer.memcpy_congr (hcopy : t'.call.copy = t.call.copy)
    (hop : t'.call.op = t.call.op) : t'.memcpy = t.memcpy := by
  rw [Transfer.memcpy, Transfer.memcpy, hcopy, hop]

theorem StagingOk.congr {x : Staging} (h : StagingOk e t x) (hcopy : t'.call.copy = t.call.copy)
    (hop : t'.call.op = t.call.op) (hmoves : t'.moves = t.moves) : StagingOk e t' x := by
  have hlanded : t'.landed = t.landed := by
    rw [Transfer.landed, Transfer.landed, Transfer.memcpy_congr hcopy hop, hmoves]
  cases x with
  | pending => exact hcopy.trans h
  | running =>
      show t'.call.copy.isSome = true
      rw [hcopy]
      exact h
  | settled =>
      rw [StagingOk, hcopy, hlanded]
      exact h
  | failed => trivial

theorem TransferOk.step (h : TransferOk lands op e memory t)
    (hop : op.isGet = true ∨ op.isPut = true) (hok : PcOk inserted t.call t.call.pc)
    (hbuf : ∀ i, t.call.pc.locals.buf = some i → t.state.entryAt i = t.call.found)
    (hallows : t.allows reply = true) (hstep : t.state.callStep setup t.call reply = some (c', u))
    (calls : List Call) :
    TransferOk lands op e memory { t with state := { u with calls := calls }, call := c' } := by
  obtain rfl := h.same
  have hmoves := callStep_anyMoves hstep
  have hstaging := callStep_staging hop hok hbuf hstep
  have hfinds := h.finds.step hop hok hmoves.op hmoves.found hstaging hstep calls
  -- Either the copy is as it was, or it has just started and moved nothing yet.
  have hkept : c'.copy = t.call.copy →
      StagingOk e { t with state := { u with calls := calls }, call := c' }
        (staging t.call.op c'.pc) →
      TransferOk lands t.call.op e memory
        { t with state := { u with calls := calls }, call := c' } := by
    intro hcopy hprogress
    refine ⟨hmoves.op, hfinds, ?_, ?_, h.moves, ?_, h.writes, h.reads, hprogress⟩
    · exact fun hnone => h.idle (hcopy.symm.trans hnone)
    · exact fun k hk => h.copy k (hcopy.symm.trans hk)
    · rw [Transfer.after, Transfer.memcpy_congr (t := t) hcopy hmoves.op]
      exact h.content
  have hprogress := h.progress
  cases hstaging with
  | stays copy after =>
      refine hkept copy ?_
      rw [after]
      exact hprogress.congr copy hmoves.op rfl
  | failed copy after =>
      refine hkept copy ?_
      rw [after]
      trivial
  | skipped copy before found direct after =>
      refine hkept copy ?_
      rw [before] at hprogress
      rw [after]
      exact .inl ⟨h.found found ▸ direct, copy.trans hprogress⟩
  | @started e' k copy before found staged after =>
      rw [before] at hprogress
      have hidle := h.idle hprogress
      refine ⟨hmoves.op, hfinds, ?_, ?_, h.moves, ?_, h.writes, h.reads, ?_⟩
      · intro hnone
        cases hnone.symm.trans copy
      · intro k' hk'
        obtain rfl : k = k' := Option.some.inj (copy.symm.trans hk')
        exact h.found found ▸ staged
      · intro a ha
        have hnothing : ∀ m, Transfer.after { t with
            state := { u with calls := calls }, call := c' } m = m := by
          intro m
          rw [Transfer.after]
          split
          · rfl
          · simp only [hidle, moved]
        rw [hnothing, ← h.content a ha |>.trans (congrFun (Transfer.after_idle hprogress _) a)]
      · show StagingOk e _ (staging t.call.op c'.pc)
        rw [after]
        exact Option.isSome_iff_exists.mpr ⟨k, copy⟩
  | ended copy before landed after =>
      refine hkept copy ?_
      rw [before] at hprogress
      rw [after]
      subst landed
      have hsettled : StagingOk e t .settled := .inr ⟨hprogress, hallows⟩
      exact hsettled.congr copy hmoves.op rfl

/-- The run lemma. -/
theorem transferOk_of_reachable {i : Nat} (hs : (instanceMachine setup).Reachable s)
    (hc : c ∈ s.calls) (hpc : c.pc = .start) (hop : c.op.isGet = true ∨ c.op.isPut = true)
    (hkey : s.lookupKey c.op.devPtr = some i) (he : s.entryAt i = some e) (hapart : e.Apart)
    (hquiet : e.Quiet s.Lands) (h : (transferMachine setup s c memory).Reachable t) :
    TransferOk s.Lands c.op e memory t := by
  refine Machine.Reachable.invariant ?_ ?_ h
  · rintro t rfl
    have hfresh := (callsOk_of_reachable hs).calls c (List.mem_append_left _ hc)
    rw [hpc] at hfresh
    have hnone : c.copy = none := by rw [Call.copy, Call.Fresh.effects hfresh, List.findSome?_nil]
    refine ⟨rfl, .inr ⟨Call.Fresh.found hfresh, .inr ⟨.inl hpc, i, hkey, he⟩⟩, fun _ => rfl, ?_,
      nofun, fun a _ => (congrFun (Transfer.after_idle hnone _) a).symm, nofun, nofun, ?_⟩
    · intro k hk
      cases hnone.symm.trans hk
    · rw [hpc]
      exact hnone
  · intro t a t' hreached ht hstep
    obtain ⟨hstate, hmem⟩ := transfer_reachable hs hc hreached
    have hok := (callsOk_of_reachable hstate).calls t.call (List.mem_append_left _ hmem)
    cases transferMove_of_step hstep with
    | step hallows htaken =>
        exact ht.step hop hok ((mapOk_of_reachable hstate).found t.call hmem) hallows htaken _
    | write hget hserves => exact ht.write (working_of_effects hok) (ht.same ▸ hget) hserves
    | read hput hserves =>
        exact ht.read hapart hquiet (working_of_effects hok) (ht.same ▸ hput) hserves
    | @move flight i hflight hi =>
        by_cases hown : t.call.flight = some flight
        · simp only [if_pos hown]
          obtain ⟨k, hk, hmoves⟩ := Option.bind_eq_some_iff.mp hown
          obtain ⟨copy, hcopy, rfl⟩ := Option.map_eq_some_iff.mp hmoves
          exact ht.move hop hquiet (working_of_effects hok) hk hcopy hi
        · simp only [if_neg hown]
          have hearlier := (own_or_earlier hc hreached hflight).resolve_left hown
          exact ht.elsewhere ⟨flight, hearlier, i, hi, rfl⟩ _
    | finishCopy _ =>
        exact ⟨ht.same, ht.finds, ht.idle, ht.copy, ht.moves, ht.content, ht.writes, ht.reads,
          ht.progress⟩

end Runs

/-! ### What it comes to -/

/-- Let a transfer of a registered buffer, whose staging buffer is apart from it,
run alone with a peer that stays inside the token's window, at a time when no
earlier copy is on its way to the buffer. If a `hipObjGet` returns success, every
byte that the peer wrote is in the caller's memory at the place asked for, with
its last value, and the rest of the caller's memory is as it was. What the peer
reads during a `hipObjPut` is what the caller's memory had at the place asked for
when the call began, and all of it is as it was. Other buffers' copies that are
still on their way change what they write. -/
theorem data_lands_where_asked {i : Nat} (hs : (instanceMachine setup).Reachable s)
    (hc : c ∈ s.calls) (hpc : c.pc = .start) (hkey : s.lookupKey c.op.devPtr = some i)
    (he : s.entryAt i = some e) (hapart : e.Apart) (hquiet : e.Quiet s.Lands)
    (h : (transferMachine setup s c memory).Reachable t) :
    (c.op.isGet = true → t.call.result = some .Success →
      (∀ token, .minted token ∈ t.call.effects → ∀ j < c.op.size.toNat, ∀ byte,
        lastStore t.writes (token.remoteAddr + BitVec.ofNat 64 j) = some byte →
          t.memory (c.op.devPtr + c.op.offset + BitVec.ofNat 64 j) = byte) ∧
      ∀ a, e.Callers a → ¬ c.op.Asks a → ¬ s.Lands a → t.memory a = memory a) ∧
    (c.op.isPut = true →
      (∀ token, .minted token ∈ t.call.effects → ∀ j < c.op.size.toNat, ∀ byte,
        (token.remoteAddr + BitVec.ofNat 64 j, byte) ∈ t.reads →
          byte = memory (c.op.devPtr + c.op.offset + BitVec.ofNat 64 j)) ∧
      ∀ a, e.Callers a → ¬ s.Lands a → t.memory a = memory a) := by
  obtain ⟨hstate, hmem⟩ := transfer_reachable hs hc h
  have hok := (callsOk_of_reachable hstate).calls t.call (List.mem_append_left _ hmem)
  have htoken : ∀ ht : TransferOk s.Lands c.op e memory t, ∀ token, .minted token ∈ t.call.effects →
      token.remoteAddr = e.remoteAddr + c.op.offset := by
    intro ht token hminted
    have hworking := working_of_effects hok (List.ne_nil_of_mem hminted)
    obtain ⟨e', device, qpNum, he', hbuilt⟩ := hworking.tokens token hminted
    obtain rfl := ht.found he'
    rw [← ht.same]
    exact (buildRdmaToken_some hbuilt).2.2.2.1
  refine ⟨?_, ?_⟩
  · intro hget hresult
    have ht := transferOk_of_reachable hs hc hpc (.inl hget) hkey he hapart hquiet h
    have huses : t.call.op.usesBuffer = true :=
      usesBuffer_of_transfers (.inl (ht.same ▸ hget))
    have hspans := ht.spans (working_of_success hok huses hresult)
    have hsettled : StagingOk e t .settled := by
      have hprogress := ht.progress
      unfold Call.result at hresult
      split at hresult
      · rename_i locals result hunwind
        cases hresult
        rwa [hunwind] at hprogress
      · cases hresult
    obtain ⟨hlanded, hrest⟩ := ht.staged_get hspans hapart hquiet hget hsettled
    refine ⟨?_, hrest⟩
    intro token hminted j hj byte hlast
    rw [hlanded j hj]
    exact stored_lookup (htoken ht token hminted ▸ hlast)
  · intro hput
    have ht := transferOk_of_reachable hs hc hpc (.inr hput) hkey he hapart hquiet h
    refine ⟨?_, fun a ha => ht.kept_put (working_of_effects hok) hput ha⟩
    intro token hminted j hj byte hread
    exact ht.reads _ hread j hj (by rw [htoken ht token hminted])

/-- The staging copy of the two bytes at offset 8. -/
def flightBack (id : Nat) : StagingCopy × Memcpy :=
  (⟨id, 3, ⟨1, 0x7000, 64⟩⟩, ⟨0x1008, 0x7008, 2⟩)

/-- A `hipObjGet` of two bytes of a staged buffer, the first of which the peer writes
twice. -/
def stagedGet : List TransferAction :=
  [.step .ok, .step .ok, .step .ok, .step (.statuses fun _ => ⟨.notReady, false, false⟩), .step .ok,
    .step (.lease (.ok 9)), .step .ok, .write 0x7008 1, .step .ok, .write 0x7009 2,
    .write 0x7008 3, .step .ok, .step .ok, .step .ok, .step .ok, .step .ok, .step .ok,
    .move (flightBack 6) 1, .move (flightBack 6) 0, .finishCopy (flightBack 6).1,
    .step (.status .success false), .step .ok, .step .ok]

/-- What the run comes to, before the memory is looked at. -/
def getsStaged (s : InstanceState) (c : Call) (e : BufEntry) (t : Transfer) : Bool :=
  c.op = .get 0x1000 2 8 true ∧ c.pc = .start ∧ (s.lookupKey c.op.devPtr).bind s.entryAt = some e ∧
    e.key = 0x1000 ∧ e.size = 64 ∧ e.hostBuf = some ⟨1, 0x7000, 64⟩ ∧ s.inFlight = [] ∧
    t.call.result = some .Success ∧ lastStore t.writes 0x7008 = some 3 ∧
    t.call.effects.any Effect.mintsMiddle

/-- Nothing lands where nothing is on its way. -/
theorem quiet_of_none (h : s.inFlight = []) : e.Quiet s.Lands := by
  rintro a ⟨flight, hflight, -⟩
  rw [h] at hflight
  cases hflight

/-- The buffer of `stagedRegistration` is apart from its staging buffer. -/
theorem apart_of_staged (hkey : e.key = 0x1000) (hsize : e.size = 64)
    (hhostBuf : e.hostBuf = some ⟨1, 0x7000, 64⟩) : e.Apart := by
  intro a hstart hend hostBuf hhas
  obtain rfl : (⟨1, 0x7000, 64⟩ : HostBuf) = hostBuf := Option.some.inj (hhostBuf.symm.trans hhas)
  have hkey : e.key.toNat = 0x1000 := by rw [hkey]; rfl
  have hsize : e.size.toNat = 64 := by rw [hsize]; rfl
  have haddr : (0x7000 : BitVec 64).toNat = 0x7000 := rfl
  dsimp only
  omega

theorem data_lands_after_stagedGet :
    ∃ (s : InstanceState) (c : Call) (t : Transfer), c.op = .get 0x1000 2 8 true ∧
      (transferMachine sampleSetup s c fun _ => 0).Reachable t ∧
      t.call.result = some .Success ∧ lastStore t.writes 0x7008 = some 3 ∧
      t.memory 0x1008 = 3 ∧ t.memory 0x1007 = 0 := by
  obtain ⟨s, hs, hlast⟩ := Machine.exists_reachable_of_runScript (instanceMachine sampleSetup)
    ScriptLine.action (stagedRegistration ++ [.begin (.get 0x1000 2 8 true)])
    (fun s => s.calls.any fun c => s.heap.any fun cell =>
      ((transferMachine sampleSetup s c fun _ => 0).exec ⟨s, c, fun _ => 0, [], [], []⟩
        stagedGet).any (getsStaged s c cell.value)) rfl (by decide)
  obtain ⟨c, hc, hlast⟩ := List.any_eq_true.mp hlast
  obtain ⟨⟨i, useCount, e⟩, -, hlast⟩ := List.any_eq_true.mp hlast
  obtain ⟨t, ht, hlast⟩ := Machine.exists_reachable_of_exec _ _ _ rfl hlast
  obtain ⟨hop, hpc, hentry, hkey, hsize, hhostBuf, hnone, hresult, hwritten, hminted⟩ :=
    of_decide_eq_true hlast
  obtain ⟨i, hlookup, he⟩ := Option.bind_eq_some_iff.mp hentry
  have hquiet : e.Quiet s.Lands := quiet_of_none hnone
  obtain ⟨hget, -⟩ := data_lands_where_asked hs hc hpc hlookup he
    (apart_of_staged hkey hsize hhostBuf) hquiet ht
  obtain ⟨hlanded, hrest⟩ := hget (by rw [hop]; rfl) hresult
  obtain ⟨effect, heffect, haddr⟩ := List.any_eq_true.mp hminted
  refine ⟨s, c, t, hop, ht, hresult, hwritten, ?_, ?_⟩
  · cases effect with
    | minted token =>
        have haddr : token.remoteAddr = 0x7008 := of_decide_eq_true haddr
        have hbyte := hlanded token heffect 0 (by rw [hop]; decide) 3
          (by rw [haddr]; exact hwritten)
        rw [hop] at hbyte
        exact hbyte
    | _ => cases haddr
  · refine hrest 0x1007 ?_ ?_ ?_
    · intro hostBuf hhas
      obtain rfl : (⟨1, 0x7000, 64⟩ : HostBuf) = hostBuf :=
        Option.some.inj (hhostBuf.symm.trans hhas)
      decide
    · rw [hop]
      unfold Op.Asks
      decide
    · rintro ⟨flight, hflight, -⟩
      rw [hnone] at hflight
      cases hflight

/-! ### After a copy that was lost -/

/-- A copy from the device whose event can't be recorded. -/
def lostSyncToHost : List ScriptLine :=
  [.begin (.sync 0x1000 16 0 HIPOBJ_SYNC_TO_HOST), .step 4 .ok, .step 4 .ok, .step 4 .ok,
    .step 4 (.statuses fun _ => ⟨.notReady, false, false⟩), .step 4 .ok, .step 4 .ok, .step 4 .ok,
    .step 4 .ok, .step 4 .fail, .step 4 .ok, .step 4 .ok, .step 4 .ok, .ret 4]

/-- The copy that is lost. -/
def lostFlight : StagingCopy × Memcpy := (⟨6, 3, ⟨1, 0x7000, 64⟩⟩, ⟨0x7000, 0x1000, 16⟩)

/-- A `hipObjGet` of two bytes. The lost copy moves the first one's place in the staging
buffer after the peer has written there. -/
def spoiledGet : List TransferAction :=
  [.step .ok, .step .ok, .step .ok, .step (.statuses fun _ => ⟨.notReady, false, false⟩), .step .ok,
    .step (.lease (.ok 9)), .step .ok, .write 0x7008 1, .write 0x7009 2, .step .ok, .step .ok,
    .step .ok, .move lostFlight 8, .step .ok, .step .ok, .step .ok, .step .ok,
    .move (flightBack 9) 1, .move (flightBack 9) 0, .finishCopy (flightBack 9).1,
    .step (.status .success false), .step .ok, .step .ok]

/-- What the run comes to: no call is there but the one that gets, no copy has a record,
and the byte that was written last isn't in the caller's memory. -/
def getsOld (s : InstanceState) (c : Call) (e : BufEntry) (t : Transfer) : Bool :=
  s.calls = [c] ∧ s.copies = [] ∧ c.op = .get 0x1000 2 8 true ∧ c.pc = .start ∧
    (s.lookupKey c.op.devPtr).bind s.entryAt = some e ∧
    e.key = 0x1000 ∧ e.size = 64 ∧ e.hostBuf = some ⟨1, 0x7000, 64⟩ ∧
    t.call.result = some .Success ∧ lastStore t.writes 0x7008 = some 1 ∧
    t.call.effects.any Effect.mintsMiddle ∧ t.memory 0x1008 = 0

/-- After a `hipObjBufSync` that has lost its copy, a `hipObjGet` by the only call there is
returns success, and a byte that the peer wrote isn't where it was asked for. -/
theorem lost_copy_spoils_get :
    ∃ (s : InstanceState) (c : Call) (i : Nat) (e : BufEntry) (t : Transfer) (token : RdmaToken),
      (instanceMachine sampleSetup).Reachable s ∧ s.calls = [c] ∧ s.copies = [] ∧ c.pc = .start ∧
      c.op = .get 0x1000 2 8 true ∧ s.lookupKey c.op.devPtr = some i ∧ s.entryAt i = some e ∧
      e.Apart ∧ (transferMachine sampleSetup s c fun _ => 0).Reachable t ∧
      t.call.result = some .Success ∧ .minted token ∈ t.call.effects ∧
      lastStore t.writes (token.remoteAddr + BitVec.ofNat 64 0) = some 1 ∧
      t.memory (c.op.devPtr + c.op.offset + BitVec.ofNat 64 0) ≠ 1 := by
  obtain ⟨s, hs, hlast⟩ := Machine.exists_reachable_of_runScript (instanceMachine sampleSetup)
    ScriptLine.action
    (stagedRegistration ++ lostSyncToHost ++ [.begin (.get 0x1000 2 8 true)])
    (fun s => s.calls.any fun c => s.heap.any fun cell =>
      ((transferMachine sampleSetup s c fun _ => 0).exec ⟨s, c, fun _ => 0, [], [], []⟩
        spoiledGet).any (getsOld s c cell.value)) rfl (by decide)
  obtain ⟨c, -, hlast⟩ := List.any_eq_true.mp hlast
  obtain ⟨⟨i, useCount, e⟩, -, hlast⟩ := List.any_eq_true.mp hlast
  obtain ⟨t, ht, hlast⟩ := Machine.exists_reachable_of_exec _ _ _ rfl hlast
  obtain ⟨hcalls, hcopies, hop, hpc, hentry, hkey, hsize, hhostBuf, hresult, hwritten, hminted,
    hold⟩ := of_decide_eq_true hlast
  obtain ⟨i, hlookup, he⟩ := Option.bind_eq_some_iff.mp hentry
  obtain ⟨effect, heffect, haddr⟩ := List.any_eq_true.mp hminted
  cases effect with
  | minted token =>
      have haddr : token.remoteAddr = 0x7008 := of_decide_eq_true haddr
      refine ⟨s, c, i, e, t, token, hs, hcalls, hcopies, hpc, hop, hlookup, he,
        apart_of_staged hkey hsize hhostBuf, ht, hresult, heffect, ?_, ?_⟩
      · rw [haddr]
        exact hwritten
      · have hzero : t.memory (0x1000 + 8 + BitVec.ofNat 64 0) = 0 := hold
        rw [hop, Op.devPtr, Op.offset, hzero]
        decide
  | _ => cases haddr

end HipObject
