import HipObject.Library.History
import HipObject.Library.Releases

/-!
# The life of an instance, from `initWith` to the last call

What `initWith`, `shutdownInstance` and the public calls do to the instances of
the library, in every state of every run. An instance belongs to the library and
to the calls that found it, and goes when none of them has it any more. Until
then its context, protection domain and token connection stay, and so does
whatever else its pool, its buffers and its calls own; after that, everything
that was ever made for it was released, once.
-/

namespace HipObject

open Codec Verification

variable {T : Type}

/-- Something refers to the instance. -/
structure Alive (lib : LibraryState T) (p : Nat) (a : Published) : Prop where
  notDestroyed : .destroyed p ∉ lib.history
  /-- Its queue pairs, completion queues, protection domain and context: what was
  made and not released is what the instance owns. -/
  resources : ∀ r, .acquired r ∈ a.session.events ∧ .released r ∉ a.session.events ↔
    r ∈ { a.inst with pool := lib.system.pools p }.resources
  /-- Its memory regions: those of the entries that the map, a call or an abandoned
  copy refers to, and those of registrations in progress. -/
  regions : ∀ mr, a.state.LiveMr mr ↔ (∃ i e, a.state.Kept i e ∧ e.mr = mr) ∨
    ∃ c ∈ a.state.calls, c.op.registers = true ∧ c.pc.locals.mr = some mr

/-- Nothing refers to the instance any more. -/
structure Gone (lib : LibraryState T) (p : Nat) (a : Published) : Prop where
  removed : .removed p ∈ lib.history
  destroyed : lib.history.count (.destroyed p) = 1
  resources : Unwound DependsOn a.session.events
  regions : a.state.registered.Perm a.state.deregistered ∧ a.state.deregistered.Nodup

structure Lifecycle [DecidableEq T] [Fintype T] (lib : LibraryState T) : Prop where
  /-- At most one instance is current. -/
  oneCurrent : ∀ p q a b, lib.instances p = some a → lib.instances q = some b →
    a.state.current = true → b.state.current = true → p = q
  /-- From an `initWith` that succeeds to the next shutdown no other succeeds, and
  those that fail do not come to the platform. -/
  oneInit : ∀ p newer older, lib.history = newer ++ .published p :: older →
    (∀ q, .removed q ∉ newer) → (∀ q, .published q ∉ newer) ∧
      ∀ result touched, .failed result touched ∈ newer →
        result = .AlreadyInitialized ∧ touched = false
  /-- A call finds the instance that is current at its start, and no other. -/
  finds : ∀ n p newer older, lib.history = newer ++ .found n p :: older →
    (∃ between before, older = between ++ .published p :: before ∧ ∀ q, .removed q ∉ between) ∧
      ∀ q, .found n q ∈ lib.history → q = p
  /-- It uses that one, and it does so while the instance is alive. -/
  uses : ∀ e n p newer older, lib.history = newer ++ e :: older → e = .used n p ∨ e = .leased n p →
    .found n p ∈ older ∧ .destroyed p ∉ older
  /-- It refers to it for as long as it is in progress. -/
  keeps : ∀ f ∈ lib.frames, ∀ p id lease, f.work = .call p id lease →
    .found f.serial p ∈ lib.history ∧ lib.held p = true
  alive : ∀ p a, lib.instances p = some a → lib.held p = true → Alive lib p a
  /-- While an instance is alive, only what single calls give up is released. -/
  early : ∀ action lib', libraryStep lib action = some lib' → ∀ p a b,
    lib.instances p = some a → lib'.instances p = some b → lib'.held p = true →
    EarlyReleases lib lib' p a b
  gone : ∀ p a, lib.instances p = some a → lib.held p = false → Gone lib p a
  /-- A call between a shutdown that returned and the next `initWith` that succeeds
  finds nothing. -/
  notInitialized : ∀ x newer older, lib.history = newer ++ .shutdownReturned x :: older →
    (∀ q, .published q ∉ newer) → ∀ n p, .found n p ∉ newer
  /-- There are no leases of an instance that was shut down. -/
  noLease : ∀ p newer older, lib.history = newer ++ .shutdownReturned (some p) :: older →
    ∀ n, .leased n p ∉ newer

section Instances

variable {lib : LibraryState T} {p : Nat} {a : Published}

theorem alive_of_held (h : HistoryOk lib) (hview : ViewOk p (lib.view p))
    (has : lib.instances p = some a) (hheld : lib.held p = true) : Alive lib p a := by
  rw [held_eq] at hheld
  have hlives := hview.lives.published a has
  refine ⟨h.not_destroyed hview hheld, ?_, ?_⟩
  · exact (hview.books.stocked a has hheld).has.holds.live_iff
  · exact liveMr_iff (owned_of_reachable hlives.reached) (callsOk_of_reachable hlives.reached)

theorem gone_of_not_held (h : HistoryOk lib) (hview : ViewOk p (lib.view p))
    (has : lib.instances p = some a) (hheld : lib.held p = false) : Gone lib p a := by
  rw [held_eq] at hheld
  have hlives := hview.lives.published a has
  have howned := owned_of_reachable hlives.reached
  have hover : a.state.destroyed = true := by rw [hlives.destroyed, hheld]; rfl
  obtain ⟨hretired, hcalls, -, -, hheap⟩ := howned.ended hover
  have hflags : flagsOf lib.history p = some (false, true) := by
    rw [h.flags, LibraryState.flags, has, Option.map_some, hretired, hover]
  refine ⟨h.lawful.removed_of_flagsOf hflags, ?_, ?_, ?_, ?_⟩
  · have hmem := destroyed_of_flagsOf hflags
    have honce := h.lawful.destroyed_once p
    have hpos := List.count_pos_iff.mpr hmem
    omega
  · exact (hview.books.emptied a has hheld).holds.unwound
  · have hperm := howned.books.mrs.perm
    simpa [InstanceState.heapMrs, InstanceState.locals, hheap, hcalls] using hperm
  · exact howned.books.mrs.nodup_undone

end Instances

theorem instance_lifecycle [DecidableEq T] [Fintype T] {lib : LibraryState T}
    (h : (libraryMachine T).Reachable lib) : Lifecycle lib := by
  have hhistory := historyOk_of_reachable h
  have hviews := viewOk_of_reachable h
  have hlawful := hhistory.lawful
  refine ⟨?_, ?_, ?_, ?_, ?_, ?_, ?_, ?_, ?_, ?_⟩
  · intro p q a b hp hq hcurrent hcurrent'
    rw [((hviews p).lives.published a hp).current] at hcurrent
    rw [((hviews q).lives.published b hq).current] at hcurrent'
    have hp : lib.current = some p := of_decide_eq_true hcurrent
    have hq : lib.current = some q := of_decide_eq_true hcurrent'
    exact Option.some.inj (hp.symm.trans hq)
  · intro p newer older heq hkept
    rw [heq] at hlawful
    exact (hlawful.while_current (p := p) rfl hkept).2
  · intro n p newer older heq
    have hfound : .found n p ∈ lib.history := by simp [heq]
    refine ⟨?_, fun q hq => hlawful.found_unique hfound hq⟩
    rw [heq] at hlawful
    exact currentOf_eq_some hlawful.split.1.1
  · intro e n p newer older heq he
    rw [heq] at hlawful
    have hok := hlawful.split.1
    rcases he with rfl | rfl
    · exact hok
    · exact ⟨hok.1, hok.2.1⟩
  · intro f hf p id lease hwork
    refine ⟨hhistory.found f hf p id lease hwork, ?_⟩
    have hholds : f.work.holds p = true := by rw [hwork]; simp [Work.holds]
    simp only [LibraryState.held, Bool.or_eq_true, List.any_eq_true]
    exact .inr ⟨f, hf, hholds⟩
  · intro p a has hheld
    exact alive_of_held hhistory (hviews p) has hheld
  · intro action lib' hstep p a b ha hb hheld
    exact earlyReleases h hstep ha hb hheld
  · intro p a has hheld
    exact gone_of_not_held hhistory (hviews p) has hheld
  · intro x newer older heq hlater
    have hnone : currentOf (.shutdownReturned x :: older) = none := by
      rw [heq] at hlawful
      exact hlawful.split.1
    rw [heq] at hlawful
    exact (hlawful.while_absent hnone hlater).2
  · intro p newer older heq n hleased
    obtain ⟨later, earlier, rfl⟩ := List.append_of_mem hleased
    rw [heq, List.append_assoc] at hlawful
    exact hlawful.split.1.2.2 (by simp)

/-- A transfer whose callback has shut the library down still has its instance. -/
theorem instance_lifecycle_in_callback :
    ∃ lib : LibraryState Unit, lib.current = none ∧ lib.held 0 = true ∧
      .shutdownReturned (some 0) ∈ lib.history ∧ Lifecycle lib := by
  obtain ⟨lib, hlib, hlast⟩ := Machine.exists_reachable_of_runScript (libraryMachine Unit)
    LibraryLine.choose (startedLibrary ++ stagedBuffer ++ transferToCallback ++ wholeShutdown)
    (fun lib => lib.current = none && lib.held 0 && .shutdownReturned (some 0) ∈ lib.history) rfl
    (by decide +kernel)
  simp only [Bool.and_eq_true, decide_eq_true_eq] at hlast
  obtain ⟨⟨hcurrent, hheld⟩, hreturned⟩ := hlast
  exact ⟨lib, hcurrent, hheld, hreturned, instance_lifecycle hlib⟩

/-! ### What calls release themselves -/

/-- An `initWith` that can't make a connection. -/
def refusedInit : List LibraryLine :=
  .action (.init ()) ::
    List.replicate 3 (.action (.initStep () { sampleStartup with answers := [] }))

/-- A deregistration that has not returned yet. -/
def bufferDeregistered : List LibraryLine :=
  [.action (.call () (.deregister 0x1000)), .step .ok,
    .step (.statuses fun _ => ⟨.notReady, false, false⟩), .step .ok, .step .ok]

/-- A transfer whose connection can be neither reset nor replaced. -/
def brokenConnection : List LibraryLine :=
  [.step .ok, .step .ok,
    .connect ⟨5, .replicate 16 0, 0, 0, 0, .RC, 1, 0⟩ [.success 0, .success 0], .step .fail,
    .restore [.failure, .failure]]

/-- Whether a queue pair was released. -/
def releasesQp : Verification.Event PlatformCall Resource → Bool
  | .released (.qp _ _ _) => true
  | _ => false

/-- Without any shutdown, one `initWith` comes to the platform and fails, and
another succeeds; a deregistration releases a memory region, and a transfer a
queue pair, while they have the instance. -/
theorem failed_init_and_early_releases :
    (∃ lib, (libraryMachine Unit).Reachable lib ∧
      lib.history = [.published 0, .failed .RdmaError true]) ∧
    (∃ lib f a mr, (libraryMachine Unit).Reachable lib ∧ lib.instances 0 = some a ∧
      f ∈ lib.frames ∧ f.work.holds 0 = true ∧ f.work.callId.isSome = true ∧
      mr ∈ a.state.deregistered) ∧
    ∃ lib f a e, (libraryMachine Unit).Reachable lib ∧ lib.instances 0 = some a ∧
      f ∈ lib.frames ∧ f.work.holds 0 = true ∧ f.work.callId.isSome = true ∧
      e ∈ a.session.events ∧ releasesQp e = true := by
  refine ⟨?_, ?_, ?_⟩
  · obtain ⟨lib, hlib, hlast⟩ := Machine.exists_reachable_of_runScript (libraryMachine Unit)
      LibraryLine.choose (refusedInit ++ startedLibrary)
      (fun lib => lib.history = [.published 0, .failed .RdmaError true]) rfl (by decide +kernel)
    exact ⟨lib, hlib, of_decide_eq_true hlast⟩
  · obtain ⟨lib, hlib, hlast⟩ := Machine.exists_reachable_of_runScript (libraryMachine Unit)
      LibraryLine.choose (startedLibrary ++ stagedBuffer ++ bufferDeregistered)
      (fun lib => (lib.instances 0).any fun a => lib.frames.any fun f =>
        f.work.holds 0 && f.work.callId.isSome && a.state.deregistered ≠ []) rfl
      (by decide +kernel)
    obtain ⟨a, has, hlast⟩ := (Option.any_eq_true _ _).mp hlast
    obtain ⟨f, hf, hlast⟩ := List.any_eq_true.mp hlast
    simp only [Bool.and_eq_true, decide_eq_true_eq] at hlast
    obtain ⟨⟨hholds, hcall⟩, hsome⟩ := hlast
    obtain ⟨mr, hmr⟩ := List.exists_mem_of_ne_nil _ hsome
    exact ⟨lib, f, a, mr, hlib, has, hf, hholds, hcall, hmr⟩
  · obtain ⟨lib, hlib, hlast⟩ := Machine.exists_reachable_of_runScript (libraryMachine Unit)
      LibraryLine.choose (startedLibrary ++ stagedBuffer ++ transferToCallback ++ brokenConnection)
      (fun lib => (lib.instances 0).any fun a => lib.frames.any fun f =>
        f.work.holds 0 && f.work.callId.isSome && a.session.events.any releasesQp) rfl
      (by decide +kernel)
    obtain ⟨a, has, hlast⟩ := (Option.any_eq_true _ _).mp hlast
    obtain ⟨f, hf, hlast⟩ := List.any_eq_true.mp hlast
    simp only [Bool.and_eq_true] at hlast
    obtain ⟨⟨hholds, hcall⟩, hreleased⟩ := hlast
    obtain ⟨e, he, hqp⟩ := List.any_eq_true.mp hreleased
    exact ⟨lib, f, a, e, hlib, has, hf, hholds, hcall, he, hqp⟩

end HipObject
