import HipObject.Buffer.Ownership

/-!
# Staging copies and what tracks them

From when the runtime accepts a staging copy until it is over, the copy needs the
staging buffer. Either the call that started it is still there to wait for it, or
a record of the abandoned copies keeps the entry. `stageCopyWithDeadline` leaves
one gap: when `eventRecord` fails after `memcpyAsync` was accepted, it returns
without a record, as if the copy had not started.
-/

namespace HipObject

open Verification

variable {setup : Setup} {lose : StagingCopy → Prop} {good : BufEntry → Prop}
variable {s t u : InstanceState} {c c' : Call} {l l' : Locals} {others : List Locals}

/-! ### Records and copies -/

/-- An entry that is there after a move was there before, or is new. -/
theorem entryAt_from {i : Nat} {e : BufEntry} (h : Books s (l :: others))
    (hmove : LocalMove lose good c s l l' t) (he : t.entryAt i = some e) :
    s.entryAt i = some e ∨ i = s.next := by
  obtain ⟨d, hlookup, rfl⟩ := Option.map_eq_some_iff.mp he
  obtain ⟨hd, rfl⟩ := Cell.lookup_some hlookup
  obtain ⟨e, he, hid, hvalue⟩ | ⟨hnew, -⟩ := hmove.heap_from d hd
  · left
    rw [InstanceState.entryAt, ← hid, h.counted.lookup_eq he, Option.map_some, hvalue]
  · exact .inr hnew

theorem dropRef_started (s : InstanceState) (i : Nat) : (s.dropRef i).started = s.started := by
  obtain ⟨deregistered, freed, leaked, heq⟩ := dropRef_eq s i
  rw [heq]

/-- A copy that has started was started before, or by this call just now. -/
theorem LocalMove.started_from (h : LocalMove lose good c s l l' t) :
    ∀ k ∈ t.started, k ∈ s.started ∨ l'.copy = some k ∧ l.buf = some k.entry ∧
      ∃ e, s.entryAt k.entry = some e ∧ e.hostBuf = some k.hostBuf := by
  intro k hk
  cases h with
  | @startCopy copy entry free fresh buf present hostBuf =>
      rcases List.mem_cons.mp hk with rfl | hk
      · exact .inr ⟨rfl, buf, entry, present, hostBuf⟩
      · exact .inl hk
  | dropEntry has => exact .inl (dropRef_started s _ ▸ hk)
  | dropBuf has => exact .inl (dropRef_started s _ ▸ hk)
  | @dropOver copy rest has =>
      exact .inl (dropRef_started (s.destroyEvent copy.done) copy.entry ▸ hk)
  | release free released =>
      obtain ⟨-, -, rfl⟩ := release_spec released
      exact .inl hk
  | _ => exact .inl hk

theorem LocalMove.started_subset (h : LocalMove lose good c s l l' t) :
    ∀ k ∈ s.started, k ∈ t.started := by
  intro k hk
  cases h with
  | startCopy free fresh buf present hostBuf => exact List.mem_cons_of_mem _ hk
  | dropEntry has => exact (dropRef_started s _).symm ▸ hk
  | dropBuf has => exact (dropRef_started s _).symm ▸ hk
  | @dropOver copy rest has =>
      exact (dropRef_started (s.destroyEvent copy.done) copy.entry).symm ▸ hk
  | release free released =>
      obtain ⟨-, -, rfl⟩ := release_spec released
      exact hk
  | _ => exact hk

/-- A record was there before, or is of the copy that the call waited for. -/
theorem LocalMove.copies_from (h : LocalMove lose good c s l l' t) :
    ∀ r ∈ t.copies, r ∈ s.copies ∨ l.buf = some r.entry ∧ l.copy = some r.copy := by
  intro r hr
  cases h with
  | @add copy buf event slot has =>
      rcases List.mem_append.mp hr with hr | hr
      · exact .inl hr
      · rw [List.mem_singleton] at hr
        subst hr
        exact .inr ⟨buf, has⟩
  | dropEntry has => exact .inl ((dropRef_entries s _).2 ▸ hr)
  | dropBuf has => exact .inl ((dropRef_entries s _).2 ▸ hr)
  | @dropOver copy rest has =>
      exact .inl ((dropRef_entries (s.destroyEvent copy.done) copy.entry).2 ▸ hr)
  | release free released =>
      obtain ⟨hperm, -, rfl⟩ := release_spec released
      exact .inl (hperm.mem_iff.mpr (List.mem_append_left _ hr))
  | _ => exact .inl hr

/-- A call waits for a copy that it has started. -/
theorem copy_of_pcOk {inserted : List (Nat × BitVec 64 × Nat)} {k : StagingCopy}
    (h : PcOk inserted c c.pc) (hk : c.pc.locals.copy = some k) :
    c.pc.locals.buf = some k.entry ∧ .startedCopy k ∈ c.effects := by
  cases hpc : c.pc with
  | eventRecord buf event copy =>
      rw [hpc] at h hk
      cases hk
      exact ⟨congrArg some h.2.2.symm, h.2.1⟩
  | eventQuery buf event copy =>
      rw [hpc] at h hk
      cases hk
      exact ⟨congrArg some h.2.2.symm, h.2.1⟩
  | add buf event copy =>
      rw [hpc] at h hk
      cases hk
      exact ⟨congrArg some h.2.2.symm, h.2.1⟩
  | unwind locals result =>
      rw [hpc] at h hk
      cases (Call.Ended.copy h).symm.trans hk
  | _ => simp [hpc, Pc.locals, Locals.empty] at hk

/-- What holds of the copies that have started. -/
structure CopiesOk (s : InstanceState) : Prop where
  records : ∀ r ∈ s.copies, r.entry = r.copy.entry ∧ r.copy ∈ s.started
  waited : ∀ c ∈ s.calls, ∀ k, c.pc.locals.copy = some k → k ∈ s.started
  hostBuf : ∀ k ∈ s.started, ∀ e, s.entryAt k.entry = some e → e.hostBuf = some k.hostBuf
  below : ∀ k ∈ s.started, k.entry < s.next

theorem LocalMove.copy_from {k : StagingCopy} (h : LocalMove lose good c s l l' t)
    (hk : l'.copy = some k) : l.copy = some k ∨ k ∈ t.started := by
  cases h with
  | startCopy free fresh buf present hostBuf =>
      cases hk
      exact .inr List.mem_cons_self
  | endCopy has ended queried => cases hk
  | loseCopy has loses => cases hk
  | add buf event slot has => cases hk
  | _ => exact .inl hk

theorem CopiesOk.step (h : CopiesOk s) (hs : Owned s) (hcalls : CallsOk s) (hc : c ∈ s.calls)
    (hmoves : Moves lose good s c (c', u)) :
    CopiesOk { u with calls := c' :: s.calls.erase c } := by
  have hbefore : Books s (c.pc.locals :: (s.calls.erase c).map fun d => d.pc.locals) :=
    hs.books.congr (locals_perm hc).symm
  have hnext : s.next ≤ u.next := hmoves.move.frame.2.2.2.2
  have hsubset := hmoves.move.started_subset
  have hheld : ∀ i, c.pc.locals.buf = some i → i < s.next := by
    intro i hi
    exact hbefore.fresh i (by simp [InstanceState.ids, InstanceState.refs, Locals.refs, hi])
  refine ⟨?_, ?_, ?_, ?_⟩
  · intro r hr
    obtain hold | ⟨hbuf, hcopy⟩ := hmoves.move.copies_from r hr
    · exact ⟨(h.records r hold).1, hsubset _ (h.records r hold).2⟩
    · have hwaits := (copy_of_pcOk (hcalls.calls c (List.mem_append_left _ hc)) hcopy).1
      exact ⟨Option.some.inj (hbuf.symm.trans hwaits), hsubset _ (h.waited c hc _ hcopy)⟩
  · intro d hd k hk
    rcases List.mem_cons.mp hd with rfl | hd
    · obtain hold | hnew := hmoves.move.copy_from hk
      · exact hsubset k (h.waited c hc k hold)
      · exact hnew
    · exact hsubset k (h.waited d (List.mem_of_mem_erase hd) k hk)
  · intro k hk e he
    obtain hentry | hnew := entryAt_from hbefore hmoves.move he
    · obtain hold | ⟨-, -, e', he', hhas⟩ := hmoves.move.started_from k hk
      · exact h.hostBuf k hold e hentry
      · obtain rfl : e' = e := Option.some.inj (he'.symm.trans hentry)
        exact hhas
    · obtain hold | ⟨-, hbuf, -⟩ := hmoves.move.started_from k hk
      · have := h.below k hold
        omega
      · have := hheld _ hbuf
        omega
  · intro k hk
    obtain hold | ⟨-, hbuf, -⟩ := hmoves.move.started_from k hk
    · exact Nat.lt_of_lt_of_le (h.below k hold) hnext
    · exact Nat.lt_of_lt_of_le (hheld _ hbuf) hnext

theorem CopiesOk.move (h : CopiesOk s) (hs : Owned s) (hcalls : CallsOk s)
    (hmove : InstanceMove setup lose good s t) : CopiesOk t := by
  cases hmove with
  | begin current =>
      refine ⟨h.records, ?_, h.hostBuf, fun k hk => Nat.lt_succ_of_lt (h.below k hk)⟩
      intro d hd k hk
      rcases List.mem_cons.mp hd with rfl | hd
      · cases hk
      · exact h.waited d hd k hk
  | step mem stepped moves => exact h.step hs hcalls mem moves
  | ret mem pc =>
      exact ⟨h.records, fun d hd => h.waited d (List.mem_of_mem_erase hd), h.hostBuf, h.below⟩
  | finishCopy started => exact ⟨h.records, h.waited, h.hostBuf, h.below⟩
  | shutdown => exact ⟨h.records, h.waited, h.hostBuf, h.below⟩
  | @destroy queries retired alive idle all truthful =>
      have hlocals : s.locals = [] := by rw [InstanceState.locals, idle, List.map_nil]
      obtain ⟨-, -, -, -, deregistered, freed, leaked, heq⟩ :=
        destroyInstance_spec (hlocals ▸ hs.books) hs.unmarked all
      rw [heq]
      exact ⟨by simp, h.waited, by simp [InstanceState.entryAt, Cell.lookup], h.below⟩

theorem copiesOk_of_reachable (h : (instanceMachine setup).Reachable s) : CopiesOk s := by
  refine Machine.Reachable.invariant ?_ ?_ h
  · rintro s rfl
    refine ⟨?_, ?_, ?_, ?_⟩
    all_goals simp [InstanceState.initial]
  · intro s a t hreached hs hstep
    exact hs.move (owned_of_reachable hreached) (callsOk_of_reachable hreached)
      (instanceStep_anyMove hstep)

/-! ### Tracking -/

/-- Every copy that isn't over has a call that waits for it, or a record, or has
outlived the instance with its staging buffer leaked. -/
def Tracked (s : InstanceState) : Prop :=
  ∀ k ∈ s.started, k ∉ s.finished →
    (∃ c ∈ s.calls, c.pc.locals.copy = some k) ∨ (∃ r ∈ s.copies, r.copy = k) ∨
      s.destroyed = true ∧ k.hostBuf ∈ s.leaked

/-- Whenever `eventRecord` fails, the copy that was started is over, and so it is
when `eventRecord` or `eventQuery` throws. -/
def InstanceState.recordsEvent (s : InstanceState) : InstanceAction → Bool
  | .step c reply => (c.pc.leaves reply).all fun copy => copy ∈ s.finished
  | _ => true

def RecordsEvent (s : InstanceState) (a : InstanceAction) : Prop := s.recordsEvent a = true

theorem RecordsEvent.ended {a : InstanceAction} (h : RecordsEvent s a) : ∀ c reply copy,
    a = .step c reply → c.pc.leaves reply = some copy → copy ∈ s.finished := by
  rintro c reply copy rfl hleaves
  simpa [RecordsEvent, InstanceState.recordsEvent, hleaves] using h

/-- A call stops waiting for a copy that isn't over only when it adds a record. -/
theorem LocalMove.keeps_copy {k : StagingCopy}
    (h : LocalMove (fun k => k ∈ s.finished) good c s l l' t) (hrunning : k ∉ s.finished)
    (hk : l.copy = some k) : l'.copy = some k ∨ ∃ r ∈ t.copies, r.copy = k := by
  cases h with
  | startCopy free fresh buf present hostBuf => cases free.symm.trans hk
  | endCopy has ended queried =>
      obtain rfl := Option.some.inj (has.symm.trans hk)
      exact absurd ended hrunning
  | loseCopy has loses =>
      obtain rfl := Option.some.inj (has.symm.trans hk)
      exact absurd loses hrunning
  | @add copy buf event slot has =>
      refine .inr ⟨copy, List.mem_append_right _ List.mem_cons_self, ?_⟩
      exact Option.some.inj (has.symm.trans hk)
  | _ => exact .inl hk

/-- The record of a copy that isn't over stays. -/
theorem LocalMove.keeps_record {r : Copy} (h : LocalMove lose good c s l l' t)
    (hrunning : r.copy ∉ s.finished) (hr : r ∈ s.copies) : r ∈ t.copies := by
  cases h with
  | add buf event slot has => exact List.mem_append_left _ hr
  | dropEntry has => exact (dropRef_entries s _).2.symm ▸ hr
  | dropBuf has => exact (dropRef_entries s _).2.symm ▸ hr
  | @dropOver copy rest has =>
      exact (dropRef_entries (s.destroyEvent copy.done) copy.entry).2.symm ▸ hr
  | release free released =>
      obtain ⟨hperm, hover, rfl⟩ := release_spec released
      refine (List.mem_append.mp (hperm.mem_iff.mp hr)).resolve_right ?_
      exact fun hmem => hrunning (hover r hmem)
  | _ => exact hr

theorem Tracked.step (h : Tracked s) (hs : Owned s) (hc : c ∈ s.calls)
    (hmoves : Moves (fun k => k ∈ s.finished) good s c (c', u)) :
    Tracked { u with calls := c' :: s.calls.erase c } := by
  obtain ⟨-, hdestroyed, -, hfinished, -⟩ : u.current = s.current ∧ u.destroyed = s.destroyed ∧
      u.returned = s.returned ∧ u.finished = s.finished ∧ s.next ≤ u.next := hmoves.move.frame
  intro k hk hunfinished
  have hrunning : k ∉ s.finished := hfinished ▸ hunfinished
  obtain hold | ⟨hcopy, -⟩ := hmoves.move.started_from k hk
  · obtain ⟨d, hd, hcopy⟩ | ⟨r, hr, rfl⟩ | ⟨hover, hleaked⟩ := h k hold hrunning
    · by_cases hdc : d = c
      · subst hdc
        obtain hstill | hrecord := hmoves.move.keeps_copy hrunning hcopy
        · exact .inl ⟨c', List.mem_cons_self, hstill⟩
        · exact .inr (.inl hrecord)
      · exact .inl ⟨d, List.mem_cons_of_mem _ ((List.mem_erase_of_ne hdc).mpr hd), hcopy⟩
    · exact .inr (.inl ⟨r, hmoves.move.keeps_record hrunning hr, rfl⟩)
    · refine .inr (.inr ⟨hdestroyed.trans hover, ?_⟩)
      exact (hmoves.move.leaked hs.unmarked).1 ▸ hleaked
  · exact .inl ⟨c', List.mem_cons_self, hcopy⟩

/-- Destroying the instance leaks the staging buffer of a record whose copy isn't
over. -/
theorem destroy_leaks {queries : List (Copy × EventStatus)} (hs : Owned s) (hcopies : CopiesOk s)
    (idle : s.calls = []) (all : queries.map Prod.fst = s.copies) {r : Copy} (hr : r ∈ s.copies)
    (hstatus : (r, .notReady) ∈ queries) :
    r.copy.hostBuf ∈ (s.destroyInstance queries).leaked := by
  have hlocals : s.locals = [] := by rw [InstanceState.locals, idle, List.map_nil]
  obtain ⟨-, -, hfate, -⟩ := destroyInstance_spec (hlocals ▸ hs.books) hs.unmarked all
  have hrefs : r.entry ∈ s.refs s.locals := by
    simp only [InstanceState.refs, List.mem_append]
    exact .inl (.inr (List.mem_map_of_mem hr))
  obtain ⟨cell, hcell, hid, hlookup⟩ := hs.books.counted.exists_lookup hrefs
  obtain ⟨hentry, hstarted⟩ := hcopies.records r hr
  have hhas : cell.value.hostBuf = some r.copy.hostBuf := by
    refine hcopies.hostBuf r.copy hstarted cell.value ?_
    rw [← hentry, InstanceState.entryAt, hlookup, Option.map_some]
  refine (hfate cell hcell _ hhas).1 ?_
  rw [hid]
  exact List.mem_map.mpr ⟨_, List.mem_filter.mpr ⟨hstatus, by simp⟩, rfl⟩

theorem Tracked.move (h : Tracked s) (hs : Owned s) (hcopies : CopiesOk s)
    (hmove : InstanceMove setup (fun k => k ∈ s.finished) good s t) : Tracked t := by
  cases hmove with
  | begin current =>
      intro k hk hrunning
      obtain ⟨d, hd, hcopy⟩ | hrest := h k hk hrunning
      · exact .inl ⟨d, List.mem_cons_of_mem _ hd, hcopy⟩
      · exact .inr hrest
  | step mem stepped moves => exact h.step hs mem moves
  | @ret c result mem pc =>
      intro k hk hrunning
      obtain ⟨d, hd, hcopy⟩ | hrest := h k hk hrunning
      · refine .inl ⟨d, (List.mem_erase_of_ne ?_).mpr hd, hcopy⟩
        rintro rfl
        rw [pc] at hcopy
        cases hcopy
      · exact .inr hrest
  | finishCopy started =>
      intro k hk hrunning
      exact h k hk fun hmem => hrunning (List.mem_cons_of_mem _ hmem)
  | shutdown => exact h
  | @destroy queries retired alive idle all truthful =>
      have hlocals : s.locals = [] := by rw [InstanceState.locals, idle, List.map_nil]
      obtain ⟨-, -, -, -, deregistered, freed, leaked, heq⟩ :=
        destroyInstance_spec (hlocals ▸ hs.books) hs.unmarked all
      intro k hk hrunning
      have hk : k ∈ s.started := by simpa only [heq] using hk
      have hrunning : k ∉ s.finished := by simpa only [heq] using hrunning
      obtain ⟨d, hd, -⟩ | ⟨r, hr, rfl⟩ | ⟨hover, -⟩ := h k hk hrunning
      · rw [idle] at hd
        cases hd
      · refine .inr (.inr ⟨rfl, destroy_leaks hs hcopies idle all hr ?_⟩)
        obtain ⟨⟨r', status⟩, hmem, rfl⟩ := List.mem_map.mp (all ▸ hr)
        -- The event of a copy that isn't over can only say so.
        obtain rfl : status = .notReady := by
          by_contra hne
          exact hrunning (truthful _ hmem hne)
        exact hmem
      · cases alive.symm.trans hover

theorem tracked_of_reachable (h : (instanceMachine setup).ReachableWhere RecordsEvent s) :
    Tracked s := by
  refine Machine.ReachableWhere.invariant ?_ ?_ h
  · rintro s rfl k hk
    simp [InstanceState.initial] at hk
  · intro s a t hreached hs hok hstep
    have hmove : InstanceMove setup (fun k => k ∈ s.finished) (fun _ => True) s t :=
      instanceStep_move hstep hok.ended (fun _ _ _ _ _ _ => trivial)
    exact hs.move (owned_of_reachable hreached.reachable)
      (copiesOk_of_reachable hreached.reachable) hmove

/-! ### What it comes to -/

/-- In every run in which `eventRecord` fails, and it or `eventQuery` throws, only for
copies that are already over: as long as the instance exists, a copy that isn't over has a call that
started it and hasn't returned, or a record with its entry; once the instance is
destroyed its staging buffer is leaked; and its staging buffer is never freed. -/
theorem staging_copies_tracked (h : (instanceMachine setup).ReachableWhere RecordsEvent s) :
    ∀ k ∈ s.started, k ∉ s.finished →
      (s.destroyed = false → (∃ c ∈ s.calls, .startedCopy k ∈ c.effects) ∨
        ∃ r ∈ s.copies, r.copy = k ∧ r.entry = k.entry) ∧
      (s.destroyed = true → k.hostBuf ∈ s.leaked) ∧ k.hostBuf ∉ s.freed := by
  have hs := owned_of_reachable h.reachable
  have hcalls := callsOk_of_reachable h.reachable
  have hcopies := copiesOk_of_reachable h.reachable
  intro k hk hrunning
  -- Whatever refers to the entry keeps its staging buffer.
  have hkept : k.entry ∈ s.refs s.locals → k.hostBuf ∉ s.freed := by
    intro hrefs
    obtain ⟨cell, hcell, hid, hlookup⟩ := hs.books.counted.exists_lookup hrefs
    have hentry : s.entryAt k.entry = some cell.value := by
      rw [InstanceState.entryAt, hlookup, Option.map_some]
    have hlive := (liveHostBuf_iff hs hcalls k.hostBuf).mpr
      (.inl ⟨k.entry, cell.value, ⟨hentry, mem_refs_iff.mp hrefs⟩, hcopies.hostBuf k hk _ hentry⟩)
    exact fun hfreed => hlive.2 (List.mem_append_left _ hfreed)
  obtain ⟨c, hc, hcopy⟩ | ⟨r, hr, rfl⟩ | ⟨hover, hleaked⟩ := tracked_of_reachable h k hk hrunning
  · obtain ⟨hbuf, hstarted⟩ := copy_of_pcOk (hcalls.calls c (List.mem_append_left _ hc)) hcopy
    refine ⟨fun _ => .inl ⟨c, hc, hstarted⟩, ?_, ?_⟩
    · intro hover
      rw [(hs.ended hover).2.1] at hc
      cases hc
    · exact hkept (mem_refs_of_call hc (by simp [Locals.refs, hbuf]))
  · have hentry := (hcopies.records r hr).1
    refine ⟨fun _ => .inr ⟨r, hr, rfl, hentry⟩, ?_, ?_⟩
    · intro hover
      rw [(hs.ended hover).2.2.2.1] at hr
      cases hr
    · refine hkept ?_
      rw [← hentry]
      simp only [InstanceState.refs, List.mem_append]
      exact .inl (.inr (List.mem_map_of_mem hr))
  · refine ⟨?_, fun _ => hleaked, ?_⟩
    · intro halive
      cases halive.symm.trans hover
    · intro hfreed
      exact List.disjoint_of_nodup_append hs.books.hostBufs.nodup_undone hfreed hleaked

/-- A staged registration of 64 bytes. -/
def stagedRegistration : List ScriptLine :=
  [.begin (.register 0x1000 64), .step 0 (.pointer ⟨some .device, some (0x800, 0x1000)⟩),
    .step 0 .ok, .step 0 .fail, .step 0 (.memory (some .device) (some 0x7000)), .step 0 (.mr 7),
    .step 0 .ok, .step 0 .ok, .ret 0]

/-- A copy to the device that is abandoned. -/
def abandonedSync : List ScriptLine :=
  [.begin (.sync 0x1000 16 0 HIPOBJ_SYNC_TO_DEVICE), .step 4 .ok, .step 4 .ok, .step 4 .ok,
    .step 4 (.statuses fun _ => ⟨.notReady, false, false⟩), .step 4 .ok, .step 4 .ok, .step 4 .ok,
    .step 4 .ok, .step 4 .ok, .step 4 (.status .notReady true), .step 4 .ok, .step 4 .ok, .ret 4]

theorem staging_copies_tracked_after_timeout :
    ∃ (s : InstanceState) (k : StagingCopy), k ∈ s.started ∧ k ∉ s.finished ∧ s.calls = [] ∧
      (∃ r ∈ s.copies, r.copy = k ∧ r.entry = k.entry) ∧ k.hostBuf ∉ s.freed := by
  obtain ⟨s, hs, hlast⟩ := Machine.exists_reachableWhere_of_runScript
    (instanceMachine sampleSetup) RecordsEvent
    (fun s line => (line.action s).filter s.recordsEvent) (stagedRegistration ++ abandonedSync)
    (fun s => s.destroyed = false ∧ s.calls = [] ∧ s.finished = [] ∧ s.started ≠ [])
    (.init rfl) (fun s a line _ h => (Option.filter_eq_some_iff.mp h).2) (by decide)
  obtain ⟨halive, hcalls, hfinished, hstarted⟩ := of_decide_eq_true hlast
  obtain ⟨k, hk⟩ := List.exists_mem_of_ne_nil _ hstarted
  have hrunning : k ∉ s.finished := by simp [hfinished]
  obtain ⟨htracked, -, hfreed⟩ := staging_copies_tracked hs k hk hrunning
  refine ⟨s, k, hk, hrunning, hcalls, ?_, hfreed⟩
  refine (htracked halive).resolve_left ?_
  rintro ⟨c, hc, -⟩
  rw [hcalls] at hc
  cases hc

/-! ### The copy that is lost -/

/-- A copy to the device whose event can't be recorded, and the end of the
registration after it. -/
def lostSync : List ScriptLine :=
  [.begin (.sync 0x1000 16 0 HIPOBJ_SYNC_TO_DEVICE), .step 4 .ok, .step 4 .ok, .step 4 .ok,
    .step 4 (.statuses fun _ => ⟨.notReady, false, false⟩), .step 4 .ok, .step 4 .ok, .step 4 .ok,
    .step 4 .ok, .step 4 .fail, .step 4 .ok, .step 4 .ok, .step 4 .ok, .ret 4,
    .begin (.deregister 0x1000), .step 7 .ok,
    .step 7 (.statuses fun _ => ⟨.notReady, false, false⟩), .step 7 .ok, .step 7 .ok, .ret 7]

/-- With the instance alive, a copy that isn't over is neither waited for nor
recorded, and its staging buffer has been freed. -/
theorem staging_copy_lost :
    ∃ (s : InstanceState) (k : StagingCopy), (instanceMachine sampleSetup).Reachable s ∧
      s.destroyed = false ∧ k ∈ s.started ∧ k ∉ s.finished ∧
      (¬ ∃ c ∈ s.calls, .startedCopy k ∈ c.effects) ∧ (¬ ∃ r ∈ s.copies, r.copy = k) ∧
      k.hostBuf ∈ s.freed := by
  obtain ⟨s, hs, hlast⟩ := Machine.exists_reachable_of_runScript (instanceMachine sampleSetup)
    ScriptLine.action (stagedRegistration ++ lostSync)
    (fun s => s.destroyed = false ∧ s.finished = [] ∧ s.calls = [] ∧ s.copies = [] ∧
      s.started.any fun k => k.hostBuf ∈ s.freed) rfl (by decide)
  obtain ⟨halive, hfinished, hcalls, hcopies, hlost⟩ := of_decide_eq_true hlast
  obtain ⟨k, hk, hfreed⟩ := List.any_eq_true.mp hlost
  refine ⟨s, k, hs, halive, hk, ?_, ?_, ?_, of_decide_eq_true hfreed⟩
  · simp [hfinished]
  · simp [hcalls]
  · simp [hcopies]

end HipObject
