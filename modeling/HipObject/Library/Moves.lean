import HipObject.Library.PoolBooks

/-!
# What a step of the library does

`LibraryMove` lists everything that one step can do to the library, and
`libraryStep_move` says that it can do nothing else. A property of whole runs
then needs a case for each kind of move, and does not look at the machine again.
-/

namespace HipObject

open Codec Verification

/-! ### A new instance -/

/-- A pool as its constructor leaves it. -/
structure FreshPool (pool : ConnectionPool) : Prop where
  free : pool.free = List.range pool.slots.length
  live : pool.live = pool.slots.length
  capacity : pool.slots.length ≤ pool.capacity
  isOpen : pool.closed = false
  dropped : pool.dropped = []

/-- What `initWith` is about to publish. -/
structure NewInstance (inst : Instance) (session : Session) : Prop where
  fresh : FreshPool inst.pool
  stocked : Stocked inst inst.pool session

section Start

variable {P : Platform} {s : Session}

theorem guarding_fresh {α : Type} {Q : α → Prop} {cleanup : PlatformM Unit}
    {x : PlatformM (Option α)} (h : Ensures x s (fun r _ => ∀ a, r = some a → Q a)
      (fun _ => True)) :
    Ensures (guarding cleanup x) s (fun r _ => ∀ a, r = some a → Q a) (fun _ => True) :=
  guarding_spec (h.mono (fun _ _ hQ => hQ) fun _ _ => trivial)

/-- The pool of a new instance is new. -/
theorem buildInstance_fresh (config : ResolvedConfig) (name : List Byte) (maxTransfers : Nat)
    (lockThrows : Bool) :
    Ensures (buildInstance P config name maxTransfers lockThrows) s
      (fun r _ => ∀ inst, r = some inst → FreshPool inst.pool) (fun _ => True) := by
  unfold buildInstance
  refine Ensures.bind (Ensures.of_forall ?_ fun _ => trivial)
  intro opened t
  cases opened with
  | none => exact fun _ h => by cases h
  | some device =>
      refine guarding_fresh (Ensures.bind (Ensures.of_forall ?_ fun _ => trivial))
      intro made u
      cases made with
      | none => exact fun _ h => by cases h
      | some tokenConn =>
          refine guarding_fresh (Ensures.bind ?_)
          have hcreate := ConnectionPool.create_spec maxTransfers ⟨u.answers, u.verbsLog, ()⟩
          unfold Ensures onVerbs
          cases hrun : ConnectionPool.create maxTransfers ⟨u.answers, u.verbsLog, ()⟩ with
          | error e v => trivial
          | ok pool v =>
              obtain ⟨hfree, hlive, hcapacity, hopen, hdropped, -⟩ := hcreate.ok hrun
              refine guarding_fresh (Ensures.ite (fun _ => ?_) fun _ =>
                Ensures.ite (fun _ => trivial) fun _ => ?_)
              · exact fun _ h => by cases h
              · intro inst h
                cases h
                exact ⟨hfree, hlive, hcapacity, hopen, hdropped⟩

theorem startInstance_new (topology : NicTopology) (config : Config) (maxTransfers : Nat)
    (lockThrows : Bool) (answers : List Answer) :
    Ensures (startInstance P topology.enumerate config maxTransfers lockThrows) (.start answers)
      (fun r t => (∀ inst, r = .ok inst → NewInstance inst t) ∧
        ∀ err, r = .error err → err.opError ≠ .Success)
      (fun _ => True) := by
  have hfresh : Ensures (startInstance P topology.enumerate config maxTransfers lockThrows)
      (.start answers) (fun r _ => ∀ inst, r = .ok inst → FreshPool inst.pool)
      (fun _ => True) := by
    unfold startInstance
    refine Ensures.bind (Ensures.of_forall ?_ fun _ => trivial)
    intro resolved t
    cases resolved with
    | error err => exact fun _ h => by cases h
    | ok gpuDevice =>
        refine Ensures.bind (Ensures.of_forall ?_ fun _ => trivial)
        intro nic u
        cases nic with
        | none => exact fun _ h => by cases h
        | some nic =>
            refine Ensures.bind ((buildInstance_fresh _ _ _ _).mono ?_ fun _ h => h)
            intro built v hbuilt
            cases built with
            | none => exact fun _ h => by cases h
            | some inst =>
                intro inst' h
                cases h
                exact hbuilt inst rfl
  have hstart : (Session.start answers).Has [] := ⟨.start answers, rfl⟩
  refine ((startInstance_has topology config maxTransfers lockThrows hstart).and hfresh).mono ?_
    fun _ _ => trivial
  rintro r t ⟨⟨hok, herror⟩, hfresh⟩
  refine ⟨?_, fun err herr => (herror err herr).1⟩
  intro inst hinst
  obtain ⟨-, hlogged, hhas⟩ := hok inst hinst
  exact ⟨hfresh inst hinst, hhas, hlogged⟩

end Start

/-! ### Moves -/

variable {T : Type}

/-- The threads have changed, and nothing that the pools are made of. -/
structure SameLeases (s t : System Nat T) : Prop where
  pools : t.pools = s.pools
  leases : t.leases = s.leases
  nextSerial : t.nextSerial = s.nextSerial

/-- The first step of `initWith` and of `shutdownInstance`. -/
inductive Locks : Work → Work → Prop
  | init : Locks (.init .lock) (.init .check)
  | shutdown : Locks (.shutdown .lock) (.shutdown .take)

section Moves

variable [DecidableEq T]

/-- The instance of a reference that goes is destroyed, if that was the last. -/
inductive LetsGo (lib : LibraryState T) (p : Nat) : LibraryState T → Prop
  | kept (held : lib.held p = true) : LetsGo lib p lib
  | last {pub : Published} {s : InstanceState} {answers : Copy → EventStatus}
      (unheld : lib.held p = false) (has : lib.instances p = some pub)
      (stepped : instanceStep pub.setup pub.state (.destroy answers) = some s) :
      LetsGo lib p { lib with
        instances := Function.update lib.instances p (some { pub with
          state := s
          session := finalState (destroyInstance { pub.inst with pool := lib.system.pools p }
            pub.session) })
        history := .destroyed p :: lib.history }

inductive LibraryMove (lib : LibraryState T) : LibraryState T → Prop
  -- public calls
  | notInitialized (absent : lib.current = none) :
      LibraryMove lib { lib.note (.notInitialized lib.nextCall) with nextCall := lib.nextCall + 1 }
  | begin {t : T} {p : Nat} {pub : Published} {s : InstanceState} {op : Op}
      (current : lib.current = some p) (has : lib.instances p = some pub)
      (stepped : instanceStep pub.setup pub.state (.begin op) = some s) :
      LibraryMove lib { (lib.withState p pub s).note (.found lib.nextCall p) with
        frames := ⟨t, lib.nextCall, .call p pub.state.next none⟩ :: lib.frames
        nextCall := lib.nextCall + 1 }
  | step {t : T} {n p id : Nat} {lease : Option Nat} {pub : Published} {s : InstanceState}
      {c : Call} {reply : Reply} {system : System Nat T}
      (top : lib.top t = some ⟨t, n, .call p id lease⟩) (has : lib.instances p = some pub)
      (isCall : c.id = id)
      (stepped : instanceStep pub.setup pub.state (.step c reply) = some s)
      (inside : lease = none ∨ c.pc.inTransfer = true)
      (refused : c.pc.inAcquire = true → ∃ e, reply = .lease (.error e))
      (threads : SameLeases lib.system system) :
      LibraryMove lib (({ lib with system := system }.withState p pub s).note (.used n p))
  | ret {t : T} {n p id : Nat} {pub : Published} {s : InstanceState} {c : Call}
      {lib' : LibraryState T} (top : lib.top t = some ⟨t, n, .call p id none⟩)
      (has : lib.instances p = some pub) (isCall : c.id = id)
      (stepped : instanceStep pub.setup pub.state (.ret c) = some s)
      (lets : LetsGo ((lib.withState p pub s).pop t) p lib') : LibraryMove lib lib'
  -- leases
  | lease {t : T} {n p id index : Nat} {pub : Published} {s : InstanceState} {c : Call}
      {qpNum : BitVec 32} {pool : ConnectionPool} {system : System Nat T}
      (top : lib.top t = some ⟨t, n, .call p id none⟩) (has : lib.instances p = some pub)
      (isCall : c.id = id) (acquires : c.pc.inAcquire = true)
      (stepped : instanceStep pub.setup pub.state (.step c (.lease (.ok qpNum))) = some s)
      (taken : (lib.system.pools p).takeFree = .ok (index, pool))
      (pools : system.pools = Function.update lib.system.pools p pool)
      (leases : system.leases =
        ⟨some p, index, false, t, lib.system.nextSerial, none⟩ :: lib.system.leases)
      (nextSerial : system.nextSerial = lib.system.nextSerial + 1) :
      LibraryMove lib ((({ lib with system := system }.withState p pub s).goto
        ⟨t, n, .call p id none⟩ (.call p id (some lib.system.nextSerial))).note (.leased n p))
  | use {p : Nat} {pub : Published} {l : Lease Nat T} {answers : List Answer}
      {system : System Nat T} (has : lib.instances p = some pub)
      (uses : PoolUse p pub.inst.device.handles answers l
        { lib.system with log := pub.session.verbsLog } system) :
      LibraryMove lib (lib.withSystem p pub answers system)
  | giveBack {t : T} {n p id : Nat} {pub : Published} {c : Call} {l : Lease Nat T}
      {system : System Nat T} (usable : Bool)
      (top : lib.top t = some ⟨t, n, .call p id (some l.serial)⟩)
      (has : lib.instances p = some pub) (mem : c ∈ pub.state.calls) (isCall : c.id = id)
      (after : c.pc.inTransfer = false) (isPool : l.pool = some p) (isHeld : l ∈ lib.system.leases)
      (pools : system.pools = Function.update lib.system.pools p
        ((lib.system.pools p).giveBack l.index usable))
      (leases : system.leases = lib.system.leases.erase l)
      (nextSerial : system.nextSerial = lib.system.nextSerial) :
      LibraryMove lib ({ lib with system := system }.goto ⟨t, n, .call p id (some l.serial)⟩
        (.call p id none))
  | threads {system : System Nat T} (same : SameLeases lib.system system) :
      LibraryMove lib { lib with system := system }
  | finishCopy {p : Nat} {pub : Published} {s : InstanceState} {copy : StagingCopy}
      (has : lib.instances p = some pub)
      (stepped : instanceStep pub.setup pub.state (.finishCopy copy) = some s) :
      LibraryMove lib (lib.withState p pub s)
  -- `initWith` and `shutdownInstance`
  | enter {t : T} {work work' : Work} (locks : Locks work work') :
      LibraryMove lib { lib with
        frames := ⟨t, lib.nextCall, work⟩ :: lib.frames
        nextCall := lib.nextCall + 1 }
  | lock {t : T} {n : Nat} {work work' : Work} (top : lib.top t = some ⟨t, n, work⟩)
      (locks : Locks work work') (unlocked : lib.initMutex = false) :
      LibraryMove lib { lib.goto ⟨t, n, work⟩ work' with initMutex := true }
  | already {t : T} {n : Nat} (top : lib.top t = some ⟨t, n, .init .check⟩)
      (current : lib.current.isSome = true) :
      LibraryMove lib (lib.failInit t .AlreadyInitialized false)
  | check {t : T} {n : Nat} (top : lib.top t = some ⟨t, n, .init .check⟩)
      (absent : lib.current = none) :
      LibraryMove lib (lib.goto ⟨t, n, .init .check⟩ (.init .build))
  | failed {t : T} {n : Nat} {result : OpError} (top : lib.top t = some ⟨t, n, .init .build⟩)
      (isError : result ≠ .Success) : LibraryMove lib (lib.failInit t result true)
  | built {t : T} {n : Nat} {inst : Instance} {setup : Setup} {session : Session}
      (top : lib.top t = some ⟨t, n, .init .build⟩) (isNew : NewInstance inst session) :
      LibraryMove lib (lib.goto ⟨t, n, .init .build⟩ (.init (.publish inst setup session)))
  | publish {t : T} {n : Nat} {inst : Instance} {setup : Setup} {session : Session}
      (top : lib.top t = some ⟨t, n, .init (.publish inst setup session)⟩) :
      LibraryMove lib (lib.publish t inst setup session)
  | nothing {t : T} {n : Nat} (top : lib.top t = some ⟨t, n, .shutdown .take⟩)
      (absent : lib.current = none) :
      LibraryMove lib (lib.goto ⟨t, n, .shutdown .take⟩ (.shutdown (.reset none)))
  | take {t : T} {n p : Nat} {pub : Published} (top : lib.top t = some ⟨t, n, .shutdown .take⟩)
      (current : lib.current = some p) (has : lib.instances p = some pub) :
      LibraryMove lib { ((lib.withState p pub { pub.state with current := false }).goto
        ⟨t, n, .shutdown .take⟩ (.shutdown (.close p))).note (.removed p) with current := none }
  | close {t : T} {n p : Nat} {pub : Published} {system : System Nat T}
      (top : lib.top t = some ⟨t, n, .shutdown (.close p)⟩) (has : lib.instances p = some pub)
      (pools : system.pools = Function.update lib.system.pools p
        { lib.system.pools p with closed := true })
      (leases : system.leases = lib.system.leases)
      (nextSerial : system.nextSerial = lib.system.nextSerial) :
      LibraryMove lib ({ lib with system := system }.goto ⟨t, n, .shutdown (.close p)⟩
        (.shutdown (.reset (some p))))
  | endNothing {t : T} {n : Nat} (top : lib.top t = some ⟨t, n, .shutdown (.reset none)⟩) :
      LibraryMove lib ((lib.pop t).endShutdown none)
  | endShutdown {t : T} {n p : Nat} {lib' : LibraryState T}
      (top : lib.top t = some ⟨t, n, .shutdown (.reset (some p))⟩)
      (lets : LetsGo (lib.pop t) p lib') : LibraryMove lib (lib'.endShutdown (some p))

/-! ### Every step is one of these -/

variable {lib lib' : LibraryState T} {t : T} {p : Nat} {f : Frame T}

theorem top_thread (h : lib.top t = some f) : f.thread = t := by
  simpa using List.find?_some h

/-- The frames of the other calls are those below the innermost one. -/
theorem frames_perm (h : lib.top t = some f) : lib.frames.Perm (f :: lib.below t) := by
  have hthread : decide (f.thread = t) = true := by simpa using top_thread h
  obtain ⟨before, after, heq, hfirst⟩ := (List.find?_eq_some_iff_append.mp h).2
  have hbelow : lib.below t = before ++ after := by
    rw [LibraryState.below, heq, List.eraseP_append_right _ (by simpa using hfirst)]
    rw [List.eraseP_cons_of_pos (p := fun f : Frame T => decide (f.thread = t)) hthread]
  rw [hbelow, heq]
  exact List.perm_middle

theorem record_self (s : Session) (d : Handles) (answers : List Answer) :
    s.record d answers s.verbsLog = s := by
  simp [Session.record, verbsEvents]

omit [DecidableEq T] in
/-- A step of the pools that calls no verbs leaves the books alone. -/
theorem withSystem_eq {pub : Published} {answers : List Answer} {system : System Nat T}
    (has : lib.instances p = some pub) (hlog : system.log = pub.session.verbsLog) :
    lib.withSystem p pub answers system = { lib with system := system } := by
  have hself : Function.update lib.instances p (some pub) = lib.instances := by
    rw [← has, Function.update_eq_self]
  rw [LibraryState.withSystem, hlog, record_self, hself]

omit [DecidableEq T] in
theorem instanceStepOn_eq {a : InstanceAction} (h : lib.instanceStepOn p a = some lib') :
    ∃ pub s, lib.instances p = some pub ∧ instanceStep pub.setup pub.state a = some s ∧
      lib' = lib.withState p pub s := by
  obtain ⟨pub, has, h⟩ := Option.bind_eq_some_iff.mp h
  obtain ⟨s, hstep, rfl⟩ := Option.map_eq_some_iff.mp h
  exact ⟨pub, s, has, hstep, rfl⟩

omit [DecidableEq T] in
theorem letGo_letsGo {answers : Copy → EventStatus} (h : lib.letGo p answers = some lib') :
    LetsGo lib p lib' := by
  unfold LibraryState.letGo at h
  split at h
  · rename_i hheld
    cases h
    exact .kept hheld
  · rename_i hheld
    obtain ⟨pub, has, h⟩ := Option.bind_eq_some_iff.mp h
    obtain ⟨s, hstep, rfl⟩ := Option.map_eq_some_iff.mp h
    exact .last (by simpa using hheld) has hstep

theorem beginCall_move {op : Op} (h : lib.beginCall t op = some lib') : LibraryMove lib lib' := by
  unfold LibraryState.beginCall at h
  split at h
  · split at h
    · rename_i habsent
      cases h
      exact .notInitialized habsent
    · rename_i p hcurrent
      obtain ⟨pub, has, h⟩ := Option.bind_eq_some_iff.mp h
      obtain ⟨mid, hmid, rfl⟩ := Option.map_eq_some_iff.mp h
      obtain ⟨pub', s, has', hstep, rfl⟩ := instanceStepOn_eq hmid
      obtain rfl : pub' = pub := Option.some.inj (has'.symm.trans has)
      exact .begin hcurrent has hstep
  · cases h

theorem callStep_libraryMove {c : Call} {reply : Reply} (h : lib.callStep t c reply = some lib') :
    LibraryMove lib lib' := by
  unfold LibraryState.callStep at h
  split at h
  · rename_i t' n p id lease htop
    obtain rfl : t' = t := top_thread htop
    split at h
    · rename_i hguard
      obtain ⟨-, hid, hacquire, hinside⟩ := hguard
      obtain ⟨mid, hmid, rfl⟩ := Option.map_eq_some_iff.mp h
      obtain ⟨pub, s, has, hstep, rfl⟩ := instanceStepOn_eq hmid
      exact .step htop has hid hstep hinside (fun h => by rw [h] at hacquire; cases hacquire)
        ⟨rfl, rfl, rfl⟩
    · cases h
  · cases h

theorem retCall_move {c : Call} {answers : Copy → EventStatus}
    (h : lib.retCall t c answers = some lib') : LibraryMove lib lib' := by
  unfold LibraryState.retCall at h
  split at h
  · rename_i t' n p id htop
    obtain rfl : t' = t := top_thread htop
    split at h
    · rename_i hguard
      obtain ⟨mid, hmid, hlets⟩ := Option.bind_eq_some_iff.mp h
      obtain ⟨pub, s, has, hstep, rfl⟩ := instanceStepOn_eq hmid
      exact .ret htop has hguard.2 hstep (letGo_letsGo hlets)
    · cases h
  · cases h

section Leases

variable [Fintype T]

theorem poolStepOn_eq {a : PoolAction Nat T} {answers : List Answer}
    (h : lib.poolStepOn p a answers = some lib') :
    ∃ pub system, lib.instances p = some pub ∧
      poolStep (fun _ => pub.inst.device.device) { lib.system with log := pub.session.verbsLog }
        a = some system ∧ lib' = lib.withSystem p pub answers system := by
  obtain ⟨pub, has, h⟩ := Option.bind_eq_some_iff.mp h
  obtain ⟨system, hstep, rfl⟩ := Option.map_eq_some_iff.mp h
  exact ⟨pub, system, has, hstep, rfl⟩

omit [Fintype T] in
/-- A thread in `acquire()` waits, is refused, or gets a lease. -/
theorem acquireLocked_outcome (s : System Nat T) (t : T) (p : Nat) :
    (s.acquireLocked t p).log = s.log ∧
    (((s.acquireLocked t p).control t = .waiting p ∧ SameLeases s (s.acquireLocked t p)) ∨
      ((s.acquireLocked t p).control t ≠ .waiting p ∧
        ((∃ e, (s.pools p).takeFree = .error e ∧ SameLeases s (s.acquireLocked t p)) ∨
          ∃ index pool, (s.pools p).takeFree = .ok (index, pool) ∧
            (s.acquireLocked t p).pools = Function.update s.pools p pool ∧
            (s.acquireLocked t p).leases =
              ⟨some p, index, false, t, s.nextSerial, none⟩ :: s.leases ∧
            (s.acquireLocked t p).nextSerial = s.nextSerial + 1))) := by
  unfold System.acquireLocked
  split
  · exact ⟨rfl, .inl ⟨by simp, rfl, rfl, rfl⟩⟩
  · cases htake : (s.pools p).takeFree with
    | error e => exact ⟨rfl, .inr ⟨by simp, .inl ⟨e, rfl, rfl, rfl, rfl⟩⟩⟩
    | ok taken =>
        obtain ⟨index, pool⟩ := taken
        exact ⟨rfl, .inr ⟨by simp, .inr ⟨index, pool, rfl, rfl, rfl, rfl⟩⟩⟩

/-- The start of `acquire()` and the way back from `wait()` go on alike. -/
theorem poolStep_acquire {device : Nat → RdmaDevice} {s s' : System Nat T}
    (hcontrol : s.control t = .running ∨ s.control t = .waiting p ∨ s.control t = .notified p)
    (h : poolStep device s (if s.control t = .running then .acquire t p else .wake t) = some s') :
    s' = s.acquireLocked t p := by
  rcases hcontrol with hcontrol | hcontrol | hcontrol
  · rw [if_pos hcontrol] at h
    simp only [poolStep, System.acquire, if_pos hcontrol, Option.some.injEq] at h
    exact h.symm
  · rw [if_neg (by simp [hcontrol])] at h
    simp only [poolStep, System.wake, hcontrol, Option.some.injEq] at h
    exact h.symm
  · rw [if_neg (by simp [hcontrol])] at h
    simp only [poolStep, System.wake, hcontrol, Option.some.injEq] at h
    exact h.symm

theorem acquire_move {c : Call} (h : lib.acquire t c = some lib') : LibraryMove lib lib' := by
  unfold LibraryState.acquire at h
  split at h
  · rename_i t' n p id htop
    obtain rfl : t' = t := top_thread htop
    split at h
    · rename_i hguard
      obtain ⟨hid, hacquire, hcontrol⟩ := hguard
      obtain ⟨after, hafter, h⟩ := Option.bind_eq_some_iff.mp h
      obtain ⟨pub, system, has, hpool, rfl⟩ := poolStepOn_eq hafter
      set s : System Nat T := { lib.system with log := pub.session.verbsLog } with hs
      obtain rfl := poolStep_acquire (s := s) hcontrol hpool
      obtain ⟨hlog, hcases⟩ := acquireLocked_outcome s t' p
      rw [withSystem_eq has hlog] at h
      rcases hcases with ⟨hwaits, hsame⟩ | ⟨hgoes, hcases⟩
      · rw [if_pos hwaits] at h
        cases h
        exact .threads ⟨hsame.pools, hsame.leases, hsame.nextSerial⟩
      · rw [if_neg hgoes] at h
        rcases hcases with ⟨e, htake, hsame⟩ | ⟨index, pool, htake, hpools, hleases, hserial⟩
        · have htake : (lib.system.pools p).takeFree = .error e := htake
          simp only [htake] at h
          obtain ⟨mid, hmid, rfl⟩ := Option.map_eq_some_iff.mp h
          obtain ⟨pub', s', has', hstep, rfl⟩ := instanceStepOn_eq hmid
          exact .step htop has' hid hstep (.inl rfl) (fun _ => ⟨e, rfl⟩)
            ⟨hsame.pools, hsame.leases, hsame.nextSerial⟩
        · have htake : (lib.system.pools p).takeFree = .ok (index, pool) := htake
          simp only [htake] at h
          obtain ⟨conn, -, h⟩ := Option.bind_eq_some_iff.mp h
          obtain ⟨mid, hmid, rfl⟩ := Option.map_eq_some_iff.mp h
          obtain ⟨pub', s', has', hstep, rfl⟩ := instanceStepOn_eq hmid
          exact .lease htop has' hid hacquire hstep htake hpools hleases hserial
    · cases h
  · cases h

/-- What it takes to use a lease. -/
theorem useLease_eq {c : Call} {l : Lease Nat T} {after : Bool} {a : PoolAction Nat T}
    {answers : List Answer} (h : lib.useLease t c l after a answers = some lib') :
    ∃ n p id pub system, lib.top t = some ⟨t, n, .call p id (some l.serial)⟩ ∧
      lib.instances p = some pub ∧ c ∈ pub.state.calls ∧ c.id = id ∧ l.pool = some p ∧
      (after = true → c.pc.inTransfer = false) ∧
      poolStep (fun _ => pub.inst.device.device) { lib.system with log := pub.session.verbsLog }
        a = some system ∧ lib' = lib.withSystem p pub answers system := by
  unfold LibraryState.useLease at h
  split at h
  · rename_i t' n p id serial htop
    obtain rfl : t' = t := top_thread htop
    rw [Option.ite_none_right_eq_some] at h
    obtain ⟨⟨hid, hany, hpool, rfl, hafter⟩, h⟩ := h
    obtain ⟨pub, system, has, hstep, rfl⟩ := poolStepOn_eq h
    rw [has] at hany
    refine ⟨n, p, id, pub, system, htop, has, by simpa using hany, hid, hpool, ?_, hstep, rfl⟩
    intro htrue
    rwa [if_pos htrue] at hafter
  · cases h

theorem releaseLocked_libraryMove {c : Call} {l : Lease Nat T}
    (h : lib.releaseLocked t c l = some lib') :
    LibraryMove lib lib' := by
  unfold LibraryState.releaseLocked at h
  split at h
  · rename_i t' n p id lease htop
    obtain rfl : t' = t := top_thread htop
    obtain ⟨mid, hmid, rfl⟩ := Option.map_eq_some_iff.mp h
    obtain ⟨n', p', id', pub, system, htop', has, hmem, hid, hpool, hafter, hstep, rfl⟩ :=
      useLease_eq hmid
    cases htop.symm.trans htop'
    simp only [poolStep, System.releaseLocked, Option.ite_none_right_eq_some] at hstep
    obtain ⟨hheld, hstep⟩ := hstep
    obtain ⟨q, hq, hstep⟩ := Option.bind_eq_some_iff.mp hstep
    obtain ⟨usable, -, rfl⟩ := Option.map_eq_some_iff.mp hstep
    obtain rfl := Option.some.inj (hpool.symm.trans hq)
    rw [withSystem_eq has rfl]
    exact .giveBack usable htop has hmem hid (hafter rfl) hpool hheld.1 rfl rfl rfl
  · cases h

theorem notify_same {s s' : System Nat T} {chosen : Option T} (h : s.notify t chosen = some s') :
    SameLeases s s' := by
  unfold System.notify at h
  split at h
  · rename_i p signal ofRelease _
    obtain ⟨control, -, rfl⟩ := Option.map_eq_some_iff.mp h
    cases ofRelease with
    | true => exact ⟨rfl, rfl, rfl⟩
    | false => exact ⟨rfl, rfl, rfl⟩
  · cases h

end Leases

theorem initStep_move {start : Startup} (h : lib.initStep t start = some lib') :
    LibraryMove lib lib' := by
  unfold LibraryState.initStep at h
  split at h
  · rename_i t' n stage htop
    obtain rfl : t' = t := top_thread htop
    dsimp only at h
    cases stage with
    | lock =>
        simp only at h
        split at h
        · cases h
        · rename_i hunlocked
          cases h
          exact .lock htop .init (by simpa using hunlocked)
    | check =>
        simp only at h
        split at h
        · rename_i hcurrent
          cases h
          exact .already htop hcurrent
        · rename_i habsent
          cases h
          exact .check htop (by simpa using habsent)
    | build =>
        simp only at h
        have hnew := startInstance_new (P := start.platform) start.topology start.config
          start.maxTransfers start.lockThrows start.answers
        split at h
        · rename_i inst session hrun
          cases h
          exact .built htop ((hnew.ok hrun).1 inst rfl)
        · rename_i err session hrun
          cases h
          exact .failed htop ((hnew.ok hrun).2 err rfl)
        · cases h
          exact .failed htop (by simp)
    | publish inst setup session =>
        cases h
        exact .publish htop
  · cases h

theorem shutdownStep_move [Fintype T] {answers : Copy → EventStatus}
    (h : lib.shutdownStep t answers = some lib') : LibraryMove lib lib' := by
  unfold LibraryState.shutdownStep at h
  split at h
  · rename_i t' n stage htop
    obtain rfl : t' = t := top_thread htop
    dsimp only at h
    cases stage with
    | lock =>
        simp only at h
        split at h
        · cases h
        · rename_i hunlocked
          cases h
          exact .lock htop .shutdown (by simpa using hunlocked)
    | take =>
        simp only at h
        split at h
        · rename_i habsent
          cases h
          exact .nothing htop habsent
        · rename_i p hcurrent
          obtain ⟨mid, hmid, rfl⟩ := Option.map_eq_some_iff.mp h
          obtain ⟨pub, s, has, hstep, rfl⟩ := instanceStepOn_eq hmid
          cases hstep
          exact .take htop hcurrent has
    | close p =>
        obtain ⟨mid, hmid, rfl⟩ := Option.map_eq_some_iff.mp h
        obtain ⟨pub, system, has, hstep, rfl⟩ := poolStepOn_eq hmid
        simp only [poolStep, System.close, Option.ite_none_right_eq_some,
          Option.some.injEq] at hstep
        obtain ⟨-, rfl⟩ := hstep
        rw [withSystem_eq has rfl]
        exact .close htop has rfl rfl rfl
    | reset p =>
        cases p with
        | none =>
            cases h
            exact .endNothing htop
        | some p =>
            simp only [Option.ite_none_right_eq_some] at h
            obtain ⟨-, h⟩ := h
            obtain ⟨mid, hmid, rfl⟩ := Option.map_eq_some_iff.mp h
            exact .endShutdown htop (letGo_letsGo hmid)
  · cases h

theorem libraryStep_move [Fintype T] {a : LibraryAction T} (h : libraryStep lib a = some lib') :
    LibraryMove lib lib' := by
  cases a with
  | call t op => exact beginCall_move h
  | step t c reply => exact callStep_libraryMove h
  | ret t c answers => exact retCall_move h
  | acquire t c => exact acquire_move h
  | connect t c l peerToken answers =>
      obtain ⟨n, p, id, pub, system, -, has, -, -, hpool, -, hstep, rfl⟩ := useLease_eq h
      simp only [poolStep] at hstep
      exact .use has (connect_use hstep hpool)
  | poll t c l expectedOpcode answers =>
      obtain ⟨n, p, id, pub, system, -, has, -, -, hpool, -, hstep, rfl⟩ := useLease_eq h
      simp only [poolStep] at hstep
      exact .use has (poll_use hstep hpool)
  | restore t c l answers =>
      obtain ⟨n, p, id, pub, system, -, has, -, -, hpool, -, hstep, rfl⟩ := useLease_eq h
      simp only [poolStep] at hstep
      exact .use has (restore_use hstep hpool)
  | releaseLocked t c l => exact releaseLocked_libraryMove h
  | notify t chosen =>
      obtain ⟨system, hsystem, rfl⟩ := Option.map_eq_some_iff.mp h
      exact .threads (notify_same hsystem)
  | complete p l success opcode =>
      simp only [libraryStep, Option.ite_none_right_eq_some] at h
      obtain ⟨hpool, h⟩ := h
      obtain ⟨pub, system, has, hstep, rfl⟩ := poolStepOn_eq h
      simp only [poolStep] at hstep
      exact .use has (complete_use hstep hpool)
  | finishCopy p copy =>
      obtain ⟨pub, s, has, hstep, rfl⟩ := instanceStepOn_eq h
      exact .finishCopy has hstep
  | init t =>
      simp only [libraryStep, Option.ite_none_right_eq_some, Option.some.injEq] at h
      obtain ⟨-, rfl⟩ := h
      exact .enter .init
  | initStep t start => exact initStep_move h
  | shutdown t =>
      simp only [libraryStep, Option.ite_none_right_eq_some, Option.some.injEq] at h
      obtain ⟨-, rfl⟩ := h
      exact .enter .shutdown
  | shutdownStep t answers => exact shutdownStep_move h

end Moves

end HipObject
