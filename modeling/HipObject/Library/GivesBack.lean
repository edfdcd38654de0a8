import HipObject.Library.Transfers

/-!
# Calls give back what they took

Connections, references to entries, and room for abandoned copies, in every state
of the library. Each of them is accounted for by the calls in progress, so an
instance that no call is on has them all back. The buffers that are registered
are changed by calls that register and deregister, and by nothing that a transfer
does.
-/

namespace HipObject

open Codec Verification

variable {T : Type}

/-- A call on an instance that has acquired a lease and not released it. -/
structure LibraryState.HasLease (lib : LibraryState T) (p : Nat) (c : Call) (l : Lease Nat T) :
    Prop where
  mem : l ∈ lib.system.leases
  pool : l.pool = some p
  frame : .call p c.id (some l.serial) ∈ lib.works

/-- An index that is neither free nor dropped. -/
structure ConnectionPool.Leased (pool : ConnectionPool) (index : Nat) : Prop where
  slot : index < pool.slots.length
  notFree : index ∉ pool.free
  notDropped : index ∉ pool.dropped

/-- What the calls on an instance have taken. -/
structure Accounted (lib : LibraryState T) (p : Nat) (a : Published) : Prop where
  /-- The leased indexes are those of the transfers that have a lease. -/
  leased : ∀ index, (lib.system.pools p).Leased index ↔
    ∃ c ∈ a.state.calls, ∃ l, c.op.transfers = true ∧ lib.HasLease p c l ∧ l.index = index
  /-- Only transfers have leases, and they have one from `acquire()` on. -/
  transfers : ∀ c ∈ a.state.calls, ∀ l, lib.HasLease p c l → c.op.transfers = true
  inTransfer : ∀ c ∈ a.state.calls, c.op.transfers = true → c.pc.inTransfer = true →
    ∃ l, lib.HasLease p c l
  /-- An entry of the map is referred to by the map, by the calls that found it,
  and by the abandoned copies of it, in the list or taken out of it. -/
  mapped : ∀ key i, (key, i) ∈ a.state.entries → ∃ cell, Cell.lookup a.state.heap i = some cell ∧
    cell.useCount = 1 + a.state.finders i + (a.state.abandonedOf i + a.state.releasing i)
  /-- An entry outside the map is referred to by the call that has it. -/
  unmapped : ∀ cell ∈ a.state.heap, cell.id ∉ a.state.entries.map Prod.snd →
    cell.useCount = 1 ∧ a.state.keepers cell.id = 1
  /-- Room is set aside for the staging copies in progress. -/
  reserved : a.state.reserved = a.state.calls.countP fun c => c.pc.locals.slot
  /-- With no call in progress there is nothing to account for. -/
  idle : (∀ work ∈ lib.works, work.holds p = false) →
    (lib.system.pools p).available = (lib.system.pools p).size ∧ a.state.reserved = 0 ∧
      ∀ key i, (key, i) ∈ a.state.entries → a.state.abandonedOf i = 0 →
        Deregisters a.setup a.state key

section Accounts

variable {lib : LibraryState T} {p : Nat} {a : Published}

theorem mem_view_leases {l : Lease Nat T} :
    l ∈ (lib.view p).leases ↔ l ∈ lib.system.leases ∧ l.pool = some p := by
  simp [LibraryState.view]

theorem mem_view_works {id : Nat} {lease : Option Nat} :
    .call p id lease ∈ (lib.view p).works ↔ .call p id lease ∈ lib.works := by
  simp [LibraryState.view, Work.holds]

/-- A work that names a call of an instance. -/
theorem call_of_callId {work : Work} {id : Nat} (hwork : work ∈ (lib.view p).works)
    (hid : work.callId = some id) : ∃ lease, work = .call p id lease := by
  have hholds := (List.mem_filter.mp hwork).2
  cases work with
  | call q id' lease =>
      obtain rfl : q = p := by simpa [Work.holds] using hholds
      obtain rfl := Option.some.inj hid
      exact ⟨lease, rfl⟩
  | init stage => cases hid
  | shutdown stage => cases hid

theorem call_of_leaseSerial {work : Work} {serial : Nat} (hwork : work ∈ (lib.view p).works)
    (hserial : work.leaseSerial = some serial) : ∃ id, work = .call p id (some serial) := by
  have hholds := (List.mem_filter.mp hwork).2
  cases work with
  | call q id lease =>
      obtain rfl : q = p := by simpa [Work.holds] using hholds
      obtain rfl : lease = some serial := hserial
      exact ⟨id, rfl⟩
  | init stage => cases hserial
  | shutdown stage => cases hserial

/-- A lease of the pool is in a frame on the instance. -/
theorem hasLease_of_mem (h : ViewOk p (lib.view p)) (hpub : lib.instances p = some a)
    {l : Lease Nat T} (hl : l ∈ (lib.view p).leases) :
    ∃ c ∈ a.state.calls, lib.HasLease p c l := by
  have hlives := h.lives.published a hpub
  have hserial : l.serial ∈ (lib.view p).leaseSerials :=
    h.leases.serials.mem_iff.mpr (List.mem_map_of_mem hl)
  obtain ⟨work, hwork, hserial⟩ := List.mem_filterMap.mp hserial
  obtain ⟨id, rfl⟩ := call_of_leaseSerial hwork hserial
  have hid : id ∈ (lib.view p).callIds := List.mem_filterMap.mpr ⟨_, hwork, rfl⟩
  obtain ⟨c, hc, rfl⟩ := List.mem_map.mp (hlives.calls.mem_iff.mp hid)
  obtain ⟨hmem, hpool⟩ := mem_view_leases.mp hl
  exact ⟨c, hc, hmem, hpool, mem_view_works.mp hwork⟩

theorem leased_iff_mem (h : ViewOk p (lib.view p)) (index : Nat) :
    (lib.system.pools p).Leased index ↔ index ∈ (lib.view p).leases.map Lease.index := by
  have hindexes := h.leases.partition.indexes
  have hnodup := h.leases.partition.nodup
  have hmem : ∀ i, i ∈ (lib.system.pools p).free ++ (lib.view p).leases.map Lease.index ++
      (lib.system.pools p).dropped ↔ i < (lib.system.pools p).slots.length := by
    intro i
    exact hindexes.mem_iff.trans List.mem_range
  constructor
  · rintro ⟨hslot, hfree, hdropped⟩
    have hin := (hmem index).mpr hslot
    simp only [List.mem_append] at hin
    exact (hin.resolve_right hdropped).resolve_left hfree
  · intro hheld
    refine ⟨(hmem index).mp (by simp only [List.mem_append]; exact .inl (.inr hheld)), ?_, ?_⟩
    · intro hfree
      exact List.disjoint_of_nodup_append (List.nodup_append.mp hnodup).1 hfree hheld
    · intro hdropped
      exact List.disjoint_of_nodup_append hnodup (List.mem_append_right _ hheld) hdropped

/-- Nothing refers to the instance but that it is current. -/
theorem idle_view (h : ViewOk p (lib.view p)) (hpub : lib.instances p = some a)
    (hidle : ∀ work ∈ lib.works, work.holds p = false) :
    a.state.calls = [] ∧ (lib.view p).leases = [] ∧
      (a.state.destroyed = false → a.state.current = true) := by
  have hlives := h.lives.published a hpub
  have hworks : (lib.view p).works = [] := filter_holds_nil hidle
  have hcalls := hlives.calls
  have hserials := h.leases.serials
  rw [InstanceView.callIds, hworks] at hcalls
  rw [InstanceView.leaseSerials, hworks] at hserials
  refine ⟨?_, ?_, ?_⟩
  · exact List.map_eq_nil_iff.mp hcalls.symm.eq_nil
  · exact List.map_eq_nil_iff.mp hserials.symm.eq_nil
  · intro halive
    have hheld := hlives.destroyed
    rw [halive, InstanceView.held, hworks] at hheld
    rw [hlives.current]
    simpa using hheld

theorem accounted (h : ViewOk p (lib.view p)) (hpub : lib.instances p = some a) :
    Accounted lib p a := by
  have hlives := h.lives.published a hpub
  have howned := owned_of_reachable hlives.reached
  have htaken := takenOk_of_reachable hlives.reached
  have hreserved : a.state.reserved = a.state.calls.countP fun c => c.pc.locals.slot := by
    rw [htaken.reserved, slotsHeld, InstanceState.locals, List.countP_map]
    rfl
  have htransfers : ∀ c ∈ a.state.calls, ∀ l, lib.HasLease p c l → c.op.transfers = true := by
    intro c hc l hl
    exact (h.transfers a hpub c hc _ (mem_view_works.mpr hl.frame)).1 rfl
  refine ⟨?_, htransfers, ?_, ?_, ?_, hreserved, ?_⟩
  · intro index
    rw [leased_iff_mem h, List.mem_map]
    constructor
    · rintro ⟨l, hl, rfl⟩
      obtain ⟨c, hc, hhas⟩ := hasLease_of_mem h hpub hl
      exact ⟨c, hc, l, htransfers c hc l hhas, hhas, rfl⟩
    · rintro ⟨c, hc, l, -, hhas, rfl⟩
      exact ⟨l, mem_view_leases.mpr ⟨hhas.mem, hhas.pool⟩, rfl⟩
  · intro c hc hop hpc
    have hid : c.id ∈ (lib.view p).callIds := hlives.calls.mem_iff.mpr (List.mem_map_of_mem hc)
    obtain ⟨work, hwork, hcall⟩ := List.mem_filterMap.mp hid
    obtain ⟨lease, rfl⟩ := call_of_callId hwork hcall
    have hsome := (h.transfers a hpub c hc lease hwork).2 hop hpc
    obtain ⟨serial, rfl⟩ := Option.isSome_iff_exists.mp hsome
    have hserial : serial ∈ (lib.view p).leaseSerials := List.mem_filterMap.mpr ⟨_, hwork, rfl⟩
    obtain ⟨l, hl, rfl⟩ := List.mem_map.mp (h.leases.serials.mem_iff.mp hserial)
    obtain ⟨hmem, hpool⟩ := mem_view_leases.mp hl
    exact ⟨l, hmem, hpool, mem_view_works.mp hwork⟩
  · intro key i hmapped
    exact useCount_of_mapped howned htaken hmapped
  · intro cell hcell hunmapped
    exact useCount_of_unmapped howned (mapOk_of_reachable hlives.reached) htaken hcell hunmapped
  · intro hidle
    obtain ⟨hcalls, hleases, hcurrent⟩ := idle_view h hpub hidle
    refine ⟨?_, by rw [hreserved, hcalls]; rfl, ?_⟩
    · have hlive := h.leases.partition.live
      rw [show (lib.view p).poolView.held = [] from hleases] at hlive
      exact hlive.symm
    · intro key i hmapped hcopies
      refine deregisters_of_idle hlives.reached (hcurrent ?_) hcalls hmapped hcopies
      rw [Bool.eq_false_iff]
      intro hover
      rw [(howned.ended hover).2.2.1] at hmapped
      cases hmapped

end Accounts

/-! ### The buffers that are registered -/

/-- The buffers that are registered with an instance. -/
def LibraryState.registered (lib : LibraryState T) (p : Nat) : Option (List (BitVec 64 × Nat)) :=
  (lib.instances p).map fun a => a.state.entries

/-- The public call whose step an action is. -/
def LibraryAction.op : LibraryAction T → Option Op
  | .call _ op => some op
  | .step _ c _ => some c.op
  | .ret _ c _ => some c.op
  | .acquire _ c => some c.op
  | .connect _ c _ _ _ => some c.op
  | .poll _ c _ _ _ => some c.op
  | .restore _ c _ _ => some c.op
  | .releaseLocked _ c _ => some c.op
  | _ => none

/-- The buffers stay registered, but for those of an instance that a shutdown has
removed and that is destroyed with this step. -/
def LibraryState.KeepsRegistered (lib lib' : LibraryState T) (p : Nat) : Prop :=
  lib'.registered p = lib.registered p ∨
    lib.current ≠ some p ∧ lib'.history = .destroyed p :: lib.history

section Registered

variable {lib lib' : LibraryState T} {p q : Nat} {a : Published} {c : Call}

theorem registered_withState {s : InstanceState} (has : lib.instances q = some a)
    (hentries : s.entries = a.state.entries) (p : Nat) :
    (lib.withState q a s).registered p = lib.registered p := by
  by_cases hq : p = q
  · subst hq
    simp [LibraryState.registered, LibraryState.withState, has, hentries]
  · simp [LibraryState.registered, LibraryState.withState, Function.update_of_ne hq]

theorem registered_withSystem {answers : List Answer} {system : System Nat T}
    (has : lib.instances q = some a) (p : Nat) :
    (lib.withSystem q a answers system).registered p = lib.registered p := by
  by_cases hq : p = q
  · subst hq
    simp [LibraryState.registered, LibraryState.withSystem, has]
  · simp [LibraryState.registered, LibraryState.withSystem, Function.update_of_ne hq]

/-- A step of a transfer leaves the map of its instance alone. -/
theorem instanceStep_entries {setup : Setup} {s t : InstanceState} {reply : Reply}
    (hreached : (instanceMachine setup).Reachable s) (hop : c.op.transfers = true)
    (h : instanceStep setup s (.step c reply) = some t) : t.entries = s.entries := by
  obtain ⟨hmem, c', u, hstep, rfl⟩ := instanceStep_step_eq h
  have hok := (callsOk_of_reachable hreached).calls c (List.mem_append_left _ hmem)
  exact callStep_entries hstep hok hop

theorem instanceStepOn_registered {reply : Reply}
    (hreached : ∀ a, lib.instances q = some a → (instanceMachine a.setup).Reachable a.state)
    (hop : c.op.transfers = true) (h : lib.instanceStepOn q (.step c reply) = some lib') (p : Nat) :
    lib'.registered p = lib.registered p := by
  obtain ⟨a, s, has, hstep, rfl⟩ := instanceStepOn_eq h
  exact registered_withState has (instanceStep_entries (hreached a has) hop hstep) p

/-- Letting go of an instance leaves its map alone, unless it is destroyed. -/
theorem LetsGo.keepsRegistered (h : LetsGo lib q lib') (p : Nat) : lib.KeepsRegistered lib' p := by
  cases h with
  | kept held => exact .inl rfl
  | @last a s answers unheld has stepped =>
      by_cases hq : p = q
      · subst hq
        refine .inr ⟨?_, rfl⟩
        intro hcurrent
        simp [LibraryState.held, hcurrent] at unheld
      · refine .inl ?_
        simp [LibraryState.registered, Function.update_of_ne hq]

variable [DecidableEq T] [Fintype T] {t : T}

theorem acquire_registered
    (hreached : ∀ q a, lib.instances q = some a → (instanceMachine a.setup).Reachable a.state)
    (hop : c.op.transfers = true) (h : lib.acquire t c = some lib') (p : Nat) :
    lib'.registered p = lib.registered p := by
  unfold LibraryState.acquire at h
  split at h
  · rename_i t' n q id htop
    rw [Option.ite_none_right_eq_some] at h
    obtain ⟨-, h⟩ := h
    obtain ⟨after, hafter, h⟩ := Option.bind_eq_some_iff.mp h
    obtain ⟨a, system, has, -, rfl⟩ := poolStepOn_eq hafter
    have hsame : (lib.withSystem q a [] system).registered p = lib.registered p :=
      registered_withSystem has p
    have hafter : ∀ b, (lib.withSystem q a [] system).instances q = some b →
        (instanceMachine b.setup).Reachable b.state := by
      intro b hb
      simp only [LibraryState.withSystem, Function.update_self, Option.some.injEq] at hb
      rw [← hb]
      exact hreached q a has
    split at h
    · cases h
      exact hsame
    · split at h
      · obtain ⟨mid, hmid, rfl⟩ := Option.map_eq_some_iff.mp h
        exact (instanceStepOn_registered hafter hop hmid p).trans hsame
      · obtain ⟨conn, -, h⟩ := Option.bind_eq_some_iff.mp h
        obtain ⟨mid, hmid, rfl⟩ := Option.map_eq_some_iff.mp h
        exact (instanceStepOn_registered hafter hop hmid p).trans hsame
  · cases h

theorem useLease_registered {l : Lease Nat T} {after : Bool} {action : PoolAction Nat T}
    {answers : List Answer} (h : lib.useLease t c l after action answers = some lib') (p : Nat) :
    lib'.registered p = lib.registered p := by
  obtain ⟨n, q, id, a, system, -, has, -, -, -, -, -, rfl⟩ := useLease_eq h
  exact registered_withSystem has p

/-- No step of a transfer registers or deregisters a buffer. -/
theorem keepsRegistered_of_transfers {action : LibraryAction T} {op : Op}
    (hreached : ∀ q a, lib.instances q = some a → (instanceMachine a.setup).Reachable a.state)
    (haction : action.op = some op) (hop : op.transfers = true)
    (h : libraryStep lib action = some lib') (p : Nat) : lib.KeepsRegistered lib' p := by
  cases action with
  | call t op =>
      refine .inl ?_
      simp only [libraryStep, LibraryState.beginCall, Option.ite_none_right_eq_some] at h
      obtain ⟨-, h⟩ := h
      split at h
      · cases h
        rfl
      · obtain ⟨a, -, h⟩ := Option.bind_eq_some_iff.mp h
        obtain ⟨mid, hmid, rfl⟩ := Option.map_eq_some_iff.mp h
        obtain ⟨a, s, has, hstep, rfl⟩ := instanceStepOn_eq hmid
        have hentries : s.entries = a.state.entries := by rw [(instanceStep_begin_eq hstep).2]
        exact registered_withState has hentries p
  | step t c reply =>
      cases haction
      refine .inl ?_
      simp only [libraryStep, LibraryState.callStep] at h
      split at h
      · rw [Option.ite_none_right_eq_some] at h
        obtain ⟨mid, hmid, rfl⟩ := Option.map_eq_some_iff.mp h.2
        exact instanceStepOn_registered (hreached _) hop hmid p
      · cases h
  | ret t c answers =>
      simp only [libraryStep, LibraryState.retCall] at h
      split at h
      · rw [Option.ite_none_right_eq_some] at h
        obtain ⟨mid, hmid, hlets⟩ := Option.bind_eq_some_iff.mp h.2
        obtain ⟨a, s, has, hstep, rfl⟩ := instanceStepOn_eq hmid
        have hentries : s.entries = a.state.entries := by rw [(instanceStep_ret_eq hstep).2.2]
        obtain hsame | hdestroyed := (letGo_letsGo hlets).keepsRegistered p
        · exact .inl (hsame.trans (registered_withState has hentries p))
        · exact .inr hdestroyed
      · cases h
  | acquire t c =>
      cases haction
      exact .inl (acquire_registered hreached hop h p)
  | connect t c l peerToken answers => exact .inl (useLease_registered h p)
  | poll t c l expectedOpcode answers => exact .inl (useLease_registered h p)
  | restore t c l answers => exact .inl (useLease_registered h p)
  | releaseLocked t c l =>
      refine .inl ?_
      simp only [libraryStep, LibraryState.releaseLocked] at h
      split at h
      · obtain ⟨mid, hmid, rfl⟩ := Option.map_eq_some_iff.mp h
        exact useLease_registered hmid p
      · cases h
  | _ => cases haction

end Registered

/-! ### Every run -/

/-- In every state of the library the calls in progress account for what was
taken, and no step of a transfer changes what is registered. -/
theorem calls_give_back [DecidableEq T] [Fintype T] {lib : LibraryState T}
    (h : (libraryMachine T).Reachable lib) :
    (∀ p a, lib.instances p = some a → Accounted lib p a) ∧
    ∀ action op lib', action.op = some op → op.transfers = true →
      libraryStep lib action = some lib' → ∀ p, lib.KeepsRegistered lib' p := by
  refine ⟨fun p a has => accounted (viewOk_of_reachable h p) has, ?_⟩
  intro action op lib' haction hop hstep
  refine keepsRegistered_of_transfers ?_ haction hop hstep
  intro q a has
  exact ((viewOk_of_reachable h q).lives.published a has).reached

/-- A transfer in its callback has the only connection. -/
theorem calls_give_back_in_callback :
    ∃ (lib : LibraryState Unit) (a : Published), lib.instances 0 = some a ∧
      (∃ c ∈ a.state.calls, c.pc.inCallback = true) ∧ (lib.system.pools 0).available = 0 ∧
      Accounted lib 0 a := by
  obtain ⟨lib, hlib, hlast⟩ := Machine.exists_reachable_of_runScript (libraryMachine Unit)
    LibraryLine.choose (startedLibrary ++ stagedBuffer ++ transferToCallback)
    (fun lib => (lib.instances 0).any fun a => (a.state.calls.any fun c => c.pc.inCallback) &&
      (lib.system.pools 0).available = 0) rfl (by decide +kernel)
  obtain ⟨a, has, hlast⟩ := (Option.any_eq_true _ _).mp hlast
  obtain ⟨hcall, hnone⟩ := Bool.and_eq_true_iff.mp hlast
  obtain ⟨c, hc, hcallback⟩ := List.any_eq_true.mp hcall
  exact ⟨lib, a, has, ⟨c, hc, hcallback⟩, of_decide_eq_true hnone, (calls_give_back hlib).1 0 a has⟩

/-! ### What a call takes out, and the last reference -/

/-- A staging copy that is abandoned, and ends; then a deregistration that has
taken it out of the list. -/
def copyTakenOut : List LibraryLine :=
  [.action (.call () (.sync 0x1000 16 0 HIPOBJ_SYNC_TO_DEVICE)), .step .ok, .step .ok, .step .ok,
    .step (.statuses fun _ => ⟨.notReady, false, false⟩), .step .ok, .step .ok, .step .ok,
    .step .ok, .step .ok, .step (.status .notReady true), .step .ok, .step .ok,
    .ret fun _ => .notReady, .finishCopy 0, .action (.call () (.deregister 0x1000)), .step .ok,
    .step (.statuses fun _ => ⟨.success, false, false⟩)]

/-- The callback fails, and the transfer comes to its return. -/
def failedCallback : List LibraryLine :=
  [.step .fail, .restore [], .releaseLocked, .action (.notify () none), .step .ok]

/-- A reference to an entry is neither the map's nor that of a call that found it
nor that of a copy in the list; and a transfer that fails, whose callback shut the
library down, destroys the instance with the buffers in it. -/
theorem taken_out_and_last_reference :
    (∃ lib a key i cell, (libraryMachine Unit).Reachable lib ∧ lib.instances 0 = some a ∧
      (key, i) ∈ a.state.entries ∧ Cell.lookup a.state.heap i = some cell ∧
      cell.useCount ≠ 1 + a.state.finders i + a.state.abandonedOf i) ∧
    ∃ lib lib' c, (libraryMachine Unit).Reachable lib ∧ c.op.transfers = true ∧
      c.pc = .unwind .empty .S3Error ∧
      libraryStep lib (.ret () c fun _ => .notReady) = some lib' ∧
      lib.registered 0 = some [(0x1000, 3)] ∧ lib'.registered 0 = some [] := by
  constructor
  · obtain ⟨lib, hlib, hlast⟩ := Machine.exists_reachable_of_runScript (libraryMachine Unit)
      LibraryLine.choose (startedLibrary ++ stagedBuffer ++ copyTakenOut)
      (fun lib => (lib.instances 0).any fun a => a.state.entries.any fun e =>
        (Cell.lookup a.state.heap e.2).any fun cell =>
          cell.useCount ≠ 1 + a.state.finders e.2 + a.state.abandonedOf e.2) rfl
      (by decide +kernel)
    obtain ⟨a, has, hlast⟩ := (Option.any_eq_true _ _).mp hlast
    obtain ⟨⟨key, i⟩, hmapped, hlast⟩ := List.any_eq_true.mp hlast
    obtain ⟨cell, hcell, hlast⟩ := (Option.any_eq_true _ _).mp hlast
    exact ⟨lib, a, key, i, cell, hlib, has, hmapped, hcell, of_decide_eq_true hlast⟩
  · obtain ⟨lib, hlib, hlast⟩ := Machine.exists_reachable_of_runScript (libraryMachine Unit)
      LibraryLine.choose
      (startedLibrary ++ stagedBuffer ++ transferToCallback ++ wholeShutdown ++ failedCallback)
      (fun lib => (lib.topCall ()).any fun c => c.op.transfers &&
        (c.pc = .unwind .empty .S3Error) && (lib.registered 0 = some [(0x1000, 3)]) &&
        (libraryStep lib (.ret () c fun _ => .notReady)).any fun lib' =>
          lib'.registered 0 = some []) rfl (by decide +kernel)
    obtain ⟨c, -, hlast⟩ := (Option.any_eq_true _ _).mp hlast
    simp only [Bool.and_eq_true, decide_eq_true_eq] at hlast
    obtain ⟨⟨⟨hop, hpc⟩, hbefore⟩, hlast⟩ := hlast
    obtain ⟨lib', hstep, hafter⟩ := (Option.any_eq_true _ _).mp hlast
    exact ⟨lib, lib', c, hlib, hop, hpc, hstep, hbefore, of_decide_eq_true hafter⟩

end HipObject
