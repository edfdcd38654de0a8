import HipObject.Buffer.GpuDirect
import HipObject.Library.Options
import HipObject.Library.Transfers

/-!
# The environment governs every run

`hipObjInit` reads its options from the environment and passes them on to
`initWith`. What the texts of the variables ask for then holds of the instance it
publishes for as long as that exists, whatever the threads do: as many
connections as asked for, no dma-buf if they are turned off, and device memory
that is not staged if GPU-direct is required.

Other threads and later calls of `hipObjInit` can be in other environments, so a
run is given the environments that it can read.
-/

namespace HipObject

open Codec Verification

variable {T : Type}

/-- `initWith` is given the options of an environment. -/
structure Startup.Reads (start : Startup) (lookup : EnvLookup) : Prop where
  maxTransfers : start.maxTransfers = (parseOptions lookup).maxTransfers
  dmabuf : start.dmabufEnabled = (parseOptions lookup).dmabuf.enabled
  gpuDirect : start.requireGpuDirect = (parseOptions lookup).requireGpuDirect

/-- A step that reads one of these environments if it starts an instance, and in
which HIP says the same about a pointer when it is asked again. -/
def LibraryAction.Heeds (environments : EnvLookup → Prop) : LibraryAction T → Prop
  | .initStep _ start => ∃ lookup, environments lookup ∧ start.Reads lookup
  | .step _ c reply => SameAnswer (.step c reply)
  | _ => True

/-! ### Steps that start no instance -/

/-- An instance that is built and not yet published. -/
def Work.builds : Work → Bool
  | .init (.publish _ _ _) => true
  | _ => false

/-- No instance is built or published, and those there are go on. -/
structure GoesOn (lib lib' : LibraryState T) : Prop where
  building : ∀ w ∈ lib'.works, w.builds = true → w ∈ lib.works
  published : ∀ p a', lib'.instances p = some a' → ∃ a, lib.instances p = some a ∧
    a'.inst = a.inst ∧ a'.setup = a.setup ∧
    ((instanceMachine a.setup).ReachableWhere (fun _ => SameAnswer) a.state →
      (instanceMachine a.setup).ReachableWhere (fun _ => SameAnswer) a'.state)

namespace GoesOn

variable {lib lib' lib'' : LibraryState T} {p : Nat}

theorem trans (h : GoesOn lib lib') (h' : GoesOn lib' lib'') : GoesOn lib lib'' where
  building := fun w hw hbuilds => h.building w (h'.building w hw hbuilds) hbuilds
  published := by
    intro p a'' ha''
    obtain ⟨a', ha', hinst', hsetup', hreached'⟩ := h'.published p a'' ha''
    obtain ⟨a, ha, hinst, hsetup, hreached⟩ := h.published p a' ha'
    refine ⟨a, ha, hinst'.trans hinst, hsetup'.trans hsetup, ?_⟩
    rw [hsetup] at hreached'
    exact fun h => hreached' (hreached h)

/-- The instances are the same, and there is no new one in the frames. -/
theorem of_works (hinstances : lib'.instances = lib.instances)
    (hworks : ∀ w ∈ lib'.works, w.builds = true → w ∈ lib.works) : GoesOn lib lib' where
  building := hworks
  published := by
    intro p a ha
    rw [hinstances] at ha
    exact ⟨a, ha, rfl, rfl, id⟩

/-- The step is not about instances and frames. -/
theorem same (hinstances : lib'.instances = lib.instances) (hframes : lib'.frames = lib.frames) :
    GoesOn lib lib' :=
  of_works hinstances fun w hw _ => by rwa [LibraryState.works, hframes] at hw

/-- One instance has changed. -/
theorem update {a a' : Published} (has : lib.instances p = some a)
    (hinstances : lib'.instances = Function.update lib.instances p (some a'))
    (hframes : lib'.frames = lib.frames) (hinst : a'.inst = a.inst) (hsetup : a'.setup = a.setup)
    (hreached : (instanceMachine a.setup).ReachableWhere (fun _ => SameAnswer) a.state →
      (instanceMachine a.setup).ReachableWhere (fun _ => SameAnswer) a'.state) :
    GoesOn lib lib' where
  building := fun w hw _ => by rwa [LibraryState.works, hframes] at hw
  published := by
    intro q b hb
    rw [hinstances] at hb
    by_cases hq : q = p
    · subst hq
      rw [Function.update_self] at hb
      cases hb
      exact ⟨a, has, hinst, hsetup, hreached⟩
    · rw [Function.update_of_ne hq] at hb
      exact ⟨b, hb, rfl, rfl, id⟩

theorem instanceStepOn {a : InstanceAction} (h : lib.instanceStepOn p a = some lib')
    (hsame : SameAnswer a) : GoesOn lib lib' := by
  obtain ⟨pub, s, has, hstep, rfl⟩ := instanceStepOn_eq h
  refine update has rfl rfl rfl rfl ?_
  intro hreached
  exact hreached.step hsame hstep

theorem letGo {answers : Copy → EventStatus} (h : lib.letGo p answers = some lib') :
    GoesOn lib lib' := by
  cases letGo_letsGo h with
  | kept held => exact same rfl rfl
  | @last _ _ answers unheld has stepped =>
      refine update has rfl rfl rfl rfl ?_
      intro hreached
      have hdestroy : SameAnswer (.destroy answers) := trivial
      exact hreached.step hdestroy stepped

/-- A call, an initialization or a shutdown is entered. -/
theorem push {f : Frame T} (hinstances : lib'.instances = lib.instances)
    (hframes : lib'.frames = f :: lib.frames) (hf : f.work.builds = false) :
    GoesOn lib lib' := by
  refine of_works hinstances ?_
  intro w hw hbuilds
  rw [LibraryState.works, hframes, List.map_cons, List.mem_cons] at hw
  rcases hw with rfl | hw
  · cases hf.symm.trans hbuilds
  · exact hw

variable [DecidableEq T] {t : T}

theorem mem_works_of_below {w : Work} (h : w ∈ lib.worksBelow t) : w ∈ lib.works := by
  obtain ⟨f, hf, rfl⟩ := List.mem_map.mp h
  exact List.mem_map_of_mem (List.mem_of_mem_eraseP hf)

/-- The innermost frame of a thread is gone. -/
theorem pop (hinstances : lib'.instances = lib.instances) (hframes : lib'.frames = lib.below t) :
    GoesOn lib lib' := by
  refine of_works hinstances ?_
  intro w hw _
  rw [LibraryState.works, hframes] at hw
  exact mem_works_of_below hw

/-- The innermost frame of a thread goes on to other work. -/
theorem goto {n : Nat} {work : Work} (hinstances : lib'.instances = lib.instances)
    (hframes : lib'.frames = ⟨t, n, work⟩ :: lib.below t) (hwork : work.builds = false) :
    GoesOn lib lib' := by
  refine of_works hinstances ?_
  intro w hw hbuilds
  rw [LibraryState.works, hframes, List.map_cons, List.mem_cons] at hw
  rcases hw with rfl | hw
  · cases hwork.symm.trans hbuilds
  · exact mem_works_of_below hw

variable [Fintype T]

theorem poolStepOn {a : PoolAction Nat T} {answers : List Answer}
    (h : lib.poolStepOn p a answers = some lib') : GoesOn lib lib' := by
  obtain ⟨pub, system, has, -, rfl⟩ := poolStepOn_eq h
  exact update has rfl rfl rfl rfl id

theorem useLease {c : Call} {l : Lease Nat T} {after : Bool} {a : PoolAction Nat T}
    {answers : List Answer} (h : lib.useLease t c l after a answers = some lib') :
    GoesOn lib lib' := by
  obtain ⟨n, p, id, pub, system, -, has, -, -, -, -, -, rfl⟩ := useLease_eq h
  exact update has rfl rfl rfl rfl fun hreached => hreached

omit [Fintype T] in
theorem beginCall {op : Op} (h : lib.beginCall t op = some lib') : GoesOn lib lib' := by
  unfold LibraryState.beginCall at h
  split at h
  · split at h
    · cases h
      exact same rfl rfl
    · obtain ⟨pub, -, h⟩ := Option.bind_eq_some_iff.mp h
      obtain ⟨mid, hmid, rfl⟩ := Option.map_eq_some_iff.mp h
      have hbegun := instanceStepOn hmid trivial
      obtain ⟨pub, s, has, hstep, rfl⟩ := instanceStepOn_eq hmid
      refine hbegun.trans (push rfl rfl ?_)
      rfl
  · cases h

omit [Fintype T] in
theorem callStep {c : Call} {reply : Reply} (h : lib.callStep t c reply = some lib')
    (hsame : SameAnswer (.step c reply)) : GoesOn lib lib' := by
  unfold LibraryState.callStep at h
  split at h
  · split at h
    · obtain ⟨mid, hmid, rfl⟩ := Option.map_eq_some_iff.mp h
      exact (instanceStepOn hmid hsame).trans (same rfl rfl)
    · cases h
  · cases h

omit [Fintype T] in
theorem retCall {c : Call} {answers : Copy → EventStatus}
    (h : lib.retCall t c answers = some lib') : GoesOn lib lib' := by
  unfold LibraryState.retCall at h
  split at h
  · split at h
    · obtain ⟨mid, hmid, hlets⟩ := Option.bind_eq_some_iff.mp h
      have hpop : GoesOn mid (mid.pop t) := pop rfl rfl
      exact (instanceStepOn hmid trivial).trans (hpop.trans (letGo hlets))
    · cases h
  · cases h

theorem acquire {c : Call} (h : lib.acquire t c = some lib') : GoesOn lib lib' := by
  unfold LibraryState.acquire at h
  split at h
  · rename_i t' n p id htop
    obtain rfl : t' = t := top_thread htop
    split at h
    · obtain ⟨after, hafter, h⟩ := Option.bind_eq_some_iff.mp h
      refine (poolStepOn hafter).trans ?_
      split at h
      · cases h
        exact same rfl rfl
      · split at h
        · obtain ⟨mid, hmid, rfl⟩ := Option.map_eq_some_iff.mp h
          exact (instanceStepOn hmid trivial).trans (same rfl rfl)
        · obtain ⟨conn, -, h⟩ := Option.bind_eq_some_iff.mp h
          obtain ⟨mid, hmid, rfl⟩ := Option.map_eq_some_iff.mp h
          exact (instanceStepOn hmid trivial).trans (goto rfl rfl rfl)
    · cases h
  · cases h

theorem releaseLocked {c : Call} {l : Lease Nat T} (h : lib.releaseLocked t c l = some lib') :
    GoesOn lib lib' := by
  unfold LibraryState.releaseLocked at h
  split at h
  · rename_i t' n p id lease htop
    obtain rfl : t' = t := top_thread htop
    obtain ⟨mid, hmid, rfl⟩ := Option.map_eq_some_iff.mp h
    exact (useLease hmid).trans (goto rfl rfl rfl)
  · cases h

theorem shutdownStep {answers : Copy → EventStatus}
    (h : lib.shutdownStep t answers = some lib') : GoesOn lib lib' := by
  unfold LibraryState.shutdownStep at h
  split at h
  · rename_i t' n stage htop
    obtain rfl : t' = t := top_thread htop
    dsimp only at h
    cases stage with
    | lock =>
        simp only at h
        split at h
        · cases h
        · cases h
          exact goto rfl rfl rfl
    | take =>
        simp only at h
        split at h
        · cases h
          exact goto rfl rfl rfl
        · obtain ⟨mid, hmid, rfl⟩ := Option.map_eq_some_iff.mp h
          exact (instanceStepOn hmid trivial).trans (goto rfl rfl rfl)
    | close p =>
        obtain ⟨mid, hmid, rfl⟩ := Option.map_eq_some_iff.mp h
        exact (poolStepOn hmid).trans (goto rfl rfl rfl)
    | reset p =>
        cases p with
        | none =>
            cases h
            exact pop rfl rfl
        | some p =>
            simp only [Option.ite_none_right_eq_some] at h
            obtain ⟨-, h⟩ := h
            obtain ⟨mid, hmid, rfl⟩ := Option.map_eq_some_iff.mp h
            have hpop : GoesOn lib (lib.pop t') := pop rfl rfl
            have hend : GoesOn mid (mid.endShutdown (some p)) := same rfl rfl
            exact hpop.trans ((letGo hmid).trans hend)
  · cases h

end GoesOn

/-! ### Every step -/

/-- An instance that was started with the options of one of the environments. -/
def StartedIn (environments : EnvLookup → Prop) (inst : Instance) (setup : Setup) : Prop :=
  ∃ lookup, environments lookup ∧
    inst.pool.slots.length = (parseOptions lookup).maxTransfers ∧
    setup.dmabufEnabled = (parseOptions lookup).dmabuf.enabled ∧
    setup.requireGpuDirect = (parseOptions lookup).requireGpuDirect

/-- All instances were started so, and their runs are those that `Governed` is
about. -/
structure EnvironmentOk (environments : EnvLookup → Prop) (lib : LibraryState T) : Prop where
  building : ∀ inst setup session, .init (.publish inst setup session) ∈ lib.works →
    StartedIn environments inst setup
  published : ∀ p a, lib.instances p = some a → StartedIn environments a.inst a.setup ∧
    (instanceMachine a.setup).ReachableWhere (fun _ => SameAnswer) a.state

namespace EnvironmentOk

variable {environments : EnvLookup → Prop} {lib lib' : LibraryState T}

theorem goesOn (h : EnvironmentOk environments lib) (hcont : GoesOn lib lib') :
    EnvironmentOk environments lib' where
  building := fun inst setup session hw =>
    h.building inst setup session (hcont.building _ hw rfl)
  published := by
    intro p a' ha'
    obtain ⟨a, ha, hinst, hsetup, hreached⟩ := hcont.published p a' ha'
    obtain ⟨hstarted, hrun⟩ := h.published p a ha
    rw [hinst, hsetup]
    exact ⟨hstarted, hreached hrun⟩

variable [DecidableEq T] {t : T}

/-- An instance is built, with the options that were read. -/
theorem built (h : EnvironmentOk environments lib) {n : Nat} {start : Startup} {inst : Instance}
    {session : Session}
    (hreads : ∃ lookup, environments lookup ∧ start.Reads lookup)
    (hrun : startInstance start.platform start.topology.enumerate start.config start.maxTransfers
      start.lockThrows (.start start.answers) = .ok (.ok inst) session) :
    EnvironmentOk environments
      (lib.goto ⟨t, n, .init .build⟩ (.init (.publish inst (start.setup inst) session))) where
  building := by
    intro inst' setup' session' hw
    rcases List.mem_cons.mp hw with heq | hw
    · cases heq
      obtain ⟨lookup, hmem, hread⟩ := hreads
      have hstart : (Session.start start.answers).Has [] := ⟨.start start.answers, rfl⟩
      have hspec := startInstance_has (P := start.platform) start.topology start.config
        start.maxTransfers start.lockThrows hstart
      have hslots := ((hspec.ok hrun).1 inst rfl).1.slots
      exact ⟨lookup, hmem, hslots.trans hread.maxTransfers, hread.dmabuf, hread.gpuDirect⟩
    · exact h.building inst' setup' session' (GoesOn.mem_works_of_below hw)
  published := h.published

theorem publish (h : EnvironmentOk environments lib) {n : Nat} {inst : Instance} {setup : Setup}
    {session : Session} (htop : lib.top t = some ⟨t, n, .init (.publish inst setup session)⟩) :
    EnvironmentOk environments (lib.publish t inst setup session) where
  building := fun inst' setup' session' hw =>
    h.building inst' setup' session' (GoesOn.mem_works_of_below hw)
  published := by
    intro p a ha
    have ha : Function.update lib.instances lib.count (some ⟨inst, setup, .initial, session⟩) p =
      some a := ha
    by_cases hp : p = lib.count
    · subst hp
      rw [Function.update_self] at ha
      cases ha
      have hmem := (works_perm htop).mem_iff.mpr List.mem_cons_self
      exact ⟨h.building inst setup session hmem, .init rfl⟩
    · rw [Function.update_of_ne hp] at ha
      exact h.published p a ha

theorem initStep (h : EnvironmentOk environments lib) {start : Startup}
    (hreads : ∃ lookup, environments lookup ∧ start.Reads lookup)
    (hstep : lib.initStep t start = some lib') : EnvironmentOk environments lib' := by
  unfold LibraryState.initStep at hstep
  split at hstep
  · rename_i t' n stage htop
    obtain rfl : t' = t := top_thread htop
    dsimp only at hstep
    cases stage with
    | lock =>
        simp only at hstep
        split at hstep
        · cases hstep
        · cases hstep
          exact h.goesOn (.goto rfl rfl rfl)
    | check =>
        simp only at hstep
        split at hstep
        · cases hstep
          exact h.goesOn (.pop rfl rfl)
        · cases hstep
          exact h.goesOn (.goto rfl rfl rfl)
    | build =>
        simp only at hstep
        split at hstep
        · rename_i inst session hrun
          cases hstep
          exact h.built hreads hrun
        · cases hstep
          exact h.goesOn (.pop rfl rfl)
        · cases hstep
          exact h.goesOn (.pop rfl rfl)
    | publish inst setup session =>
        cases hstep
        exact h.publish htop
  · cases hstep

theorem step [Fintype T] {a : LibraryAction T} (h : EnvironmentOk environments lib)
    (hheeds : a.Heeds environments) (hstep : libraryStep lib a = some lib') :
    EnvironmentOk environments lib' := by
  cases a with
  | call t op => exact h.goesOn (.beginCall hstep)
  | step t c reply => exact h.goesOn (.callStep hstep hheeds)
  | ret t c answers => exact h.goesOn (.retCall hstep)
  | acquire t c => exact h.goesOn (.acquire hstep)
  | connect t c l peerToken answers => exact h.goesOn (.useLease hstep)
  | poll t c l expectedOpcode answers => exact h.goesOn (.useLease hstep)
  | restore t c l answers => exact h.goesOn (.useLease hstep)
  | releaseLocked t c l => exact h.goesOn (.releaseLocked hstep)
  | notify t chosen =>
      obtain ⟨system, -, rfl⟩ := Option.map_eq_some_iff.mp hstep
      exact h.goesOn (.same rfl rfl)
  | complete p l success opcode =>
      simp only [libraryStep, Option.ite_none_right_eq_some] at hstep
      exact h.goesOn (.poolStepOn hstep.2)
  | finishCopy p copy => exact h.goesOn (.instanceStepOn hstep trivial)
  | init t =>
      simp only [libraryStep, Option.ite_none_right_eq_some, Option.some.injEq] at hstep
      obtain ⟨-, rfl⟩ := hstep
      exact h.goesOn (.push rfl rfl rfl)
  | initStep t start => exact h.initStep hheeds hstep
  | shutdown t =>
      simp only [libraryStep, Option.ite_none_right_eq_some, Option.some.injEq] at hstep
      obtain ⟨-, rfl⟩ := hstep
      exact h.goesOn (.push rfl rfl rfl)
  | shutdownStep t answers => exact h.goesOn (.shutdownStep hstep)

end EnvironmentOk

/-! ### The number of connections -/

/-- A pool keeps the slots it was made with. -/
def SlotsKept (v : InstanceView T) : Prop :=
  ∀ a, v.pub = some a → v.pool.slots.length = a.inst.pool.slots.length

/-- An instance that has changed, with its pool. -/
theorem SlotsKept.keep {v w : InstanceView T} {a a' : Published} (h : SlotsKept v)
    (has : v.pub = some a) (has' : w.pub = some a') (hinst : a'.inst = a.inst)
    (hslots : w.pool.slots.length = v.pool.slots.length) : SlotsKept w := by
  intro b hb
  cases has'.symm.trans hb
  rw [hslots, hinst]
  exact h a has

theorem SlotsKept.move {p : Nat} {v w : InstanceView T} (h : SlotsKept v)
    (hmove : ViewMove p v w) : SlotsKept w := by
  cases hmove with
  | stay pub current works pool leases nextSerial =>
      intro b hb
      rw [pool]
      exact h b (pub ▸ hb)
  | publish setup absent isNew same =>
      intro b hb
      cases hb
      rfl
  | lease has before acquires stepped taken =>
      obtain ⟨-, -, htaken⟩ := ConnectionPool.takeFree_ok taken
      exact h.keep has rfl rfl (by rw [htaken])
  | use has before after key takes keeps =>
      exact h.keep has rfl rfl (ConnectionPool.setSlot_length ..)
  | giveBack usable has mem before outside held =>
      exact h.keep has has rfl (by rw [ConnectionPool.giveBack_slots])
  | close has before => exact h.keep has has rfl rfl
  | reset has before held => exact h.keep has has rfl rfl
  | begin has current stepped => exact h.keep has rfl rfl rfl
  | step has mem stepped inside refused => exact h.keep has rfl rfl rfl
  | ret has before stepped held => exact h.keep has rfl rfl rfl
  | retLast has before removed stepped destroyed => exact h.keep has rfl rfl rfl
  | finishCopy has stepped => exact h.keep has rfl rfl rfl
  | take has current same => exact h.keep has rfl rfl rfl
  | resetLast has before removed destroyed => exact h.keep has rfl rfl rfl

section Runs

variable [DecidableEq T] [Fintype T] {environments : EnvLookup → Prop} {lib : LibraryState T}

theorem slotsKept_of_reachable (h : (libraryMachine T).Reachable lib) (p : Nat) :
    SlotsKept (lib.view p) := by
  refine Machine.Reachable.invariant (I := fun lib => ∀ p, SlotsKept (lib.view p)) ?_ ?_ h p
  · intro lib hinit p a ha
    rw [show lib = .initial T from hinit] at ha
    cases ha
  · intro lib a lib' hreached hlib hstep p
    refine (hlib p).move ((libraryStep_move hstep).view (controlOk_of_reachable hreached) ?_ p)
    intro q hnone
    exact ((viewOk_of_reachable hreached q).lives.absent hnone).2.1

/-- Every slot has a live connection or was dropped, and what is leased is live. -/
theorem live_add_dropped (h : (libraryMachine T).Reachable lib) (p : Nat) :
    (lib.view p).pool.live + (lib.view p).pool.dropped.length = (lib.view p).pool.slots.length ∧
      (lib.view p).leases.length ≤ (lib.view p).pool.live := by
  have hpartition := (viewOk_of_reachable h p).leases.partition
  have hindexes := hpartition.indexes.length_eq
  have hlive := hpartition.live
  simp only [List.length_append, List.length_range, View.heldIndexes, List.length_map,
    InstanceView.poolView] at hindexes hlive
  omega

/-! ### Runs -/

theorem environmentOk_of_reachable
    (h : (libraryMachine T).ReachableWhere (fun _ a => a.Heeds environments) lib) :
    EnvironmentOk environments lib := by
  refine Machine.ReachableWhere.invariant ?_ ?_ h
  · intro lib hinit
    rw [show lib = .initial T from hinit]
    constructor
    · simp [LibraryState.initial, LibraryState.works]
    · simp [LibraryState.initial]
  · intro lib a lib' _ hlib hheeds hstep
    exact hlib.step hheeds hstep

end Runs

/-- What an instance does that runs under the options of an environment. -/
structure RunsUnder (lookup : EnvLookup) (lib : LibraryState T) (p : Nat) (a : Published) :
    Prop where
  /-- The pool was made with as many connections as it asks for. Those that were not
  dropped are live, and the leased ones are among them. -/
  connections : ∃ n, AsksForTransfers lookup n ∧ (lib.system.pools p).slots.length = n ∧
    (lib.system.pools p).live + (lib.system.pools p).dropped.length = n ∧
    (lib.system.leases.filter fun l => l.pool = some p).length ≤ (lib.system.pools p).live
  dmabuf : SaysNo lookup "HIPOBJ_DMABUF" → a.state.opened = []
  buffers : SaysYes lookup "HIPOBJ_REQUIRE_GPU_DIRECT" →
    ∀ cell ∈ a.state.heap, cell.value.Direct
  transfers : SaysYes lookup "HIPOBJ_REQUIRE_GPU_DIRECT" → ∀ c ∈ a.state.allCalls,
    c.effects ≠ [] → ∀ e, c.found = some e → onDevice e.info = true → DirectTransfer c e

/-- In every run whose instances are started in some environments, every instance
runs under the options of one of these, from the time it is published. -/
theorem environment_governs [DecidableEq T] [Fintype T] {environments : EnvLookup → Prop}
    {lib : LibraryState T} {p : Nat} {a : Published}
    (h : (libraryMachine T).ReachableWhere (fun _ a => a.Heeds environments) lib)
    (ha : lib.instances p = some a) : ∃ lookup, environments lookup ∧ RunsUnder lookup lib p a := by
  obtain ⟨⟨lookup, hmem, hslots, hdmabuf, hdirect⟩, hrun⟩ :=
    (environmentOk_of_reachable h).published p a ha
  have hgoverned := governed_of_reachable hrun
  have hlength : (lib.system.pools p).slots.length = (parseOptions lookup).maxTransfers :=
    (slotsKept_of_reachable h.reachable p a ha).trans hslots
  obtain ⟨hlive, hleased⟩ := live_add_dropped h.reachable p
  refine ⟨lookup, hmem, ⟨_, asksForTransfers_parseOptions lookup, hlength, hlive.trans hlength,
    hleased⟩, ?_, ?_, ?_⟩
  · intro hno
    exact hgoverned.opened (hdmabuf.trans (dmabuf_parseOptions hno))
  · intro hyes
    exact hgoverned.heap (hdirect.trans (requireGpuDirect_parseOptions hyes))
  · intro hyes c hc heffects e hfound hdevice
    exact hgoverned.directTransfer (callsOk_of_reachable hrun.reachable)
      (hdirect.trans (requireGpuDirect_parseOptions hyes)) hc heffects hfound hdevice

/-! ### A transfer in strict mode -/

/-- One connection, no dma-bufs, and GPU-direct. -/
def strictEnvironment : EnvLookup := fun name =>
  if name = "HIPOBJ_MAX_TRANSFERS" then some [ascii '1']
  else if name = "HIPOBJ_DMABUF" then some [ascii 'n', ascii 'o']
  else if name = "HIPOBJ_REQUIRE_GPU_DIRECT" then some [ascii '1']
  else none

/-- Initialization, a registration of device memory, and a transfer of its middle
part up to the request. -/
def strictTransfer : List LibraryLine :=
  .action (.init ()) ::
    List.replicate 4 (.action (.initStep () { sampleStartup with requireGpuDirect := true })) ++
  [.action (.call () (.register 0x1000 64)), .step (.pointer ⟨some .device, some (0x800, 0x1000)⟩),
    .step .ok, .step (.mr 7), .step .ok, .step .ok, .ret fun _ => .notReady,
    .action (.call () (.get 0x1000 16 8 true)), .step .ok, .step .ok, .step .ok, .step .ok,
    .step .ok, .acquire, .step .ok]

/-- A line that reads this environment if it starts an instance, and that tells
nothing about a pointer a second time. -/
def LibraryLine.Heeds (lookup : EnvLookup) : LibraryLine → Prop
  | .action (.initStep _ start) => start.Reads lookup
  | .action (.step _ _ _) => False
  | .step (.memory _ _) => False
  | _ => True

theorem LibraryLine.Heeds.choose {lookup : EnvLookup} {lib : LibraryState Unit}
    {a : LibraryAction Unit} {line : LibraryLine} (h : line.Heeds lookup)
    (hchoose : line.choose lib = some a) : a.Heeds (· = lookup) := by
  cases line with
  | action b =>
      cases hchoose
      cases a with
      | initStep t start => exact ⟨lookup, rfl, h⟩
      | step t c reply => exact h.elim
      | _ => trivial
  | step reply =>
      obtain ⟨c, -, rfl⟩ := Option.map_eq_some_iff.mp hchoose
      cases reply with
      | memory attr addr => exact h.elim
      | _ => trivial
  | ret answers | acquire =>
      obtain ⟨c, -, rfl⟩ := Option.map_eq_some_iff.mp hchoose
      trivial
  | connect peerToken answers | restore answers | releaseLocked =>
      obtain ⟨c, -, hchoose⟩ := Option.bind_eq_some_iff.mp hchoose
      obtain ⟨l, -, rfl⟩ := Option.map_eq_some_iff.mp hchoose
      trivial
  | finishCopy p =>
      obtain ⟨pub, -, hchoose⟩ := Option.bind_eq_some_iff.mp hchoose
      obtain ⟨copy, -, rfl⟩ := Option.map_eq_some_iff.mp hchoose
      trivial

theorem strictTransfer_heeds : ∀ line ∈ strictTransfer, line.Heeds strictEnvironment := by
  have hreads : { sampleStartup with requireGpuDirect := true }.Reads strictEnvironment :=
    ⟨by decide +kernel, by decide +kernel, by decide +kernel⟩
  simp [strictTransfer, LibraryLine.Heeds, hreads]

/-- A token for the middle part of the device memory. -/
def Effect.mintsDirect : Effect → Bool
  | .minted token => token.remoteAddr = 0x1008
  | _ => false

theorem environment_governs_strictTransfer :
    ∃ (lib : LibraryState Unit) (a : Published), lib.instances 0 = some a ∧
      a.state.opened = [] ∧ lib.system.leases.length = 1 ∧ ∃ c ∈ a.state.calls, ∃ e,
        c.found = some e ∧ c.effects.any Effect.mintsDirect = true ∧ DirectTransfer c e := by
  obtain ⟨lib, hlib, hlast⟩ := Machine.exists_reachableWhere_of_runScript (libraryMachine Unit)
    (fun _ a => a.Heeds (· = strictEnvironment)) LibraryLine.choose strictTransfer
    (fun lib => lib.system.leases.length = 1 ∧ (lib.instances 0).any fun a =>
      a.state.calls.any fun c => c.effects.any Effect.mintsDirect &&
        c.found.any fun e => onDevice e.info)
    (.init rfl)
    (fun _ _ line hline hchoose => (strictTransfer_heeds line hline).choose hchoose)
    (by decide +kernel)
  obtain ⟨hlease, hlast⟩ := of_decide_eq_true hlast
  obtain ⟨a, ha, hlast⟩ := (Option.any_eq_true _ _).mp hlast
  obtain ⟨c, hc, hlast⟩ := List.any_eq_true.mp hlast
  obtain ⟨hminted, hlast⟩ := Bool.and_eq_true_iff.mp hlast
  obtain ⟨e, hfound, hdevice⟩ := (Option.any_eq_true _ _).mp hlast
  obtain ⟨lookup, rfl, hruns⟩ := environment_governs hlib ha
  have hyes : SaysYes strictEnvironment "HIPOBJ_REQUIRE_GPU_DIRECT" := ⟨_, _, rfl, by decide⟩
  have heffects : c.effects ≠ [] := by
    intro hnil
    rw [hnil] at hminted
    cases hminted
  exact ⟨lib, a, ha, hruns.dmabuf ⟨_, _, rfl, by decide⟩, hlease, c, hc, e, hfound, hminted,
    hruns.transfers hyes c (List.mem_append_left _ hc) heffects e hfound hdevice⟩

end HipObject
