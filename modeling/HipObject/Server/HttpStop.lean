import HipObject.Server.HttpRegistry
import HipObject.Verification.Progress

/-!
# Stopping the test server

What `stop()` promises: the shutdowns it makes reach connections that the server
was serving and nothing else, although their workers may close them at any moment;
once it is requested no worker is registered any more; and when it returns there is
none left. It also always can return: from every state in which it is under way,
the threads of the server have steps that bring it to its end.
-/

namespace HipObject.Server

open Verification

/-- The call is outside the part that works on duplicates. -/
def StopCall.plain : StopCall → Bool
  | .duplicating _ _ => false
  | .shuttingDown _ _ => false
  | .closingDups _ => false
  | _ => true

/-- A step of the server's own threads. -/
def ServerAction.own : ServerAction → Bool
  | .loop _ _ => true
  | .worker _ => true
  | .stopStep _ _ => true
  | _ => false

/-- How many steps the accept loop is from its end, when stop is requested and every
call fails. -/
def AcceptLoop.left : AcceptLoop → Nat
  | .notStarted => 0
  | .entering => 2
  | .checking => 1
  | .polling => 2
  | .accepting => 2
  | .accepted _ => 3
  | .registering _ => 3
  | .spawning _ => 4
  | .rollingBack _ => 3
  | .closing _ _ => 2
  | .exited => 0

/-- How many steps `stop()` is from its end, when it need not wait for others. -/
def StopCall.left (active : Nat) : StopCall → Nat
  | .notCalled => 0
  | .shuttingListener => active + 8
  | .locking => active + 7
  | .duplicating fds dups => fds.length + 2 * dups.length + 6
  | .shuttingDown rest dups => rest.length + dups.length + 5
  | .closingDups dups => dups.length + 4
  | .joining => 3
  | .awaiting => 1
  | .waiting => 1
  | .returned => 0

namespace HttpServer

variable {s t : HttpServer} {w : Worker} {a : ServerAction}

/-! ### What a shutdown reaches -/

/-- The files that are the server's own: those it served, and what the listener and
the accept loop have. -/
def ours (s : HttpServer) : List Nat :=
  s.served ++ (s.listenFd.toList ++ s.loop.client).map Handle.file

/-- What a step does to the files of the server and of the rest of the process. A
new file belongs to one of them. -/
inductive FileMove (s t : HttpServer) : Prop where
  | kept (ours : ∀ f ∈ t.ours, f ∈ s.ours) (others : ∀ h ∈ t.others, h ∈ s.others)
      (next : s.table.nextFile ≤ t.table.nextFile)
  | accepted (ours : ∀ f ∈ t.ours, f ∈ s.ours ∨ f = s.table.nextFile)
      (others : t.others = s.others) (next : s.table.nextFile < t.table.nextFile)
  | opened (ours : t.ours = s.ours)
      (others : ∀ h ∈ t.others, h ∈ s.others ∨ h.file = s.table.nextFile)
      (next : s.table.nextFile < t.table.nextFile)

theorem FileMove.of_served (hserved : ∀ f ∈ t.served, f ∈ s.ours)
    (hlisten : t.listenFd = s.listenFd)
    (hclient : ∀ c ∈ t.loop.client, c ∈ s.loop.client) (hothers : ∀ h ∈ t.others, h ∈ s.others)
    (hnext : s.table.nextFile ≤ t.table.nextFile) : FileMove s t := by
  refine .kept ?_ hothers hnext
  intro f hf
  rcases List.mem_append.mp hf with hf | hf
  · exact hserved f hf
  · obtain ⟨c, hc, rfl⟩ := List.mem_map.mp hf
    refine List.mem_append_right _ (List.mem_map_of_mem ?_)
    rw [hlisten] at hc
    rcases List.mem_append.mp hc with hc | hc
    · exact List.mem_append_left _ hc
    · exact List.mem_append_right _ (hclient c hc)

theorem mem_ours_of_served {f : Nat} (h : f ∈ s.served) : f ∈ s.ours := List.mem_append_left _ h

theorem FileMove.of_client (hserved : t.served = s.served) (hlisten : t.listenFd = s.listenFd)
    (hclient : ∀ c ∈ t.loop.client, c ∈ s.loop.client) (hothers : ∀ h ∈ t.others, h ∈ s.others)
    (hnext : s.table.nextFile ≤ t.table.nextFile) : FileMove s t :=
  .of_served (fun _ hf => mem_ours_of_served (hserved ▸ hf)) hlisten hclient hothers hnext

theorem loopStep_files {ok : Bool} {fd : Nat} (h : s.loopStep ok fd = some t) : FileMove s t := by
  unfold loopStep at h
  split at h
  case h_5 hloop =>
    split_ifs at h with hok hfree
    · cases h
      refine .accepted ?_ rfl (Nat.lt_succ_self _)
      intro f hf
      simp only [ours, AcceptLoop.client, hloop, List.map_append, List.mem_append, List.map_cons,
        List.map_nil, List.mem_singleton, List.not_mem_nil, or_false] at hf ⊢
      rcases hf with hf | hf | hf
      · exact .inl (.inl hf)
      · exact .inl (.inr hf)
      · exact .inr hf
    · cases h
      exact .of_client rfl rfl (by simp [AcceptLoop.client])
        (fun _ => id) le_rfl
  case h_7 client hloop =>
    split_ifs at h with hheld
    cases h
    unfold registerWorker
    split
    · exact .of_client rfl rfl (by simp [hloop, AcceptLoop.client])
        (fun _ => id) le_rfl
    · refine .of_served ?_ rfl (by simp [hloop, AcceptLoop.client]) (fun _ => id) le_rfl
      intro f hf
      rcases List.mem_cons.mp hf with rfl | hf
      · simp [ours, hloop, AcceptLoop.client]
      · exact mem_ours_of_served hf
  all_goals
    rename_i hloop
    repeat' split at h
    all_goals
      cases h <;>
      exact .of_client rfl rfl
        (by simp [hloop, AcceptLoop.client]) (fun _ => id) le_rfl

theorem step_files (h : s.step a = some t) : FileMove s t := by
  cases a with
  | startThreaded =>
      simp only [step, startThreaded] at h
      split_ifs at h with hstart
      cases h
      exact .of_client rfl rfl (by simp [AcceptLoop.client])
        (fun _ => id) le_rfl
  | loop ok fd => exact loopStep_files h
  | worker w =>
      simp only [step, workerStep] at h
      repeat' split at h
      all_goals
        cases h <;>
        exact .of_client rfl rfl (fun _ => id) (fun _ => id) le_rfl
  | stop =>
      simp only [step, stop] at h
      split_ifs at h <;> cases h <;>
        exact .of_client rfl rfl (fun _ => id) (fun _ => id) le_rfl
  | stopStep ok fd =>
      simp only [step, stopStep] at h
      repeat' split at h
      all_goals
        cases h <;>
        exact .of_client rfl rfl (fun _ => id) (fun _ => id) le_rfl
  | wake =>
      simp only [step, wake] at h
      split_ifs at h
      cases h
      exact .of_client rfl rfl (fun _ => id) (fun _ => id) le_rfl
  | otherOpen fd =>
      simp only [step, otherOpen] at h
      split_ifs at h
      cases h
      refine .opened rfl ?_ (Nat.lt_succ_self _)
      intro other hother
      rcases List.mem_cons.mp hother with rfl | hother
      · exact .inr rfl
      · exact .inl hother
  | otherClose other =>
      simp only [step, otherClose] at h
      split_ifs at h
      cases h
      exact .of_client rfl rfl (fun _ => id)
        (fun _ => List.mem_of_mem_erase) le_rfl

/-- Files of the server are never those of the rest of the process. -/
structure Apart (s : HttpServer) : Prop where
  named : ∀ f ∈ s.ours, f < s.table.nextFile
  foreign : ∀ h ∈ s.others, h.file ∉ s.ours

theorem Apart.step (hs : Apart s) (hsound : Sound s) (h : s.step a = some t) : Apart t := by
  have hothers : ∀ other ∈ s.others, other.file < s.table.nextFile := by
    intro other hother
    exact hsound.accounted.named other (by simp [handles, hother])
  cases step_files h with
  | kept ours others next =>
      refine ⟨fun f hf => (hs.named f (ours f hf)).trans_le next, ?_⟩
      intro other hother hmem
      exact hs.foreign other (others other hother) (ours _ hmem)
  | accepted ours others next =>
      refine ⟨?_, ?_⟩
      · intro f hf
        rcases ours f hf with hf | rfl
        · exact (hs.named f hf).trans next
        · exact next
      · rw [others]
        intro other hother hmem
        rcases ours _ hmem with hmem | heq
        · exact hs.foreign other hother hmem
        · have := hothers other hother
          omega
  | opened ours others next =>
      refine ⟨?_, ?_⟩
      · rw [ours]
        exact fun f hf => (hs.named f hf).trans next
      · rw [ours]
        intro other hother hmem
        rcases others other hother with hother | heq
        · exact hs.foreign other hother hmem
        · have := hs.named _ hmem
          omega

/-- What `stop()` has still to shut down is what it has shut down before: files of
connections that were served, or the listener's. -/
structure Aimed (s : HttpServer) : Prop where
  registered : ∀ c ∈ s.registered, c.file ∈ s.served
  dups : ∀ d ∈ s.stopCall.dups, d.file ∈ s.served
  pending : ∀ fds dups, s.stopCall = .duplicating fds dups → ∀ fd ∈ fds, fd ∈ s.activeFds
  rest : ∀ rest dups, s.stopCall = .shuttingDown rest dups → ∀ d ∈ rest, d ∈ dups
  reached : ∀ f ∈ s.shutdowns, f ∈ s.served ∨ f ∈ s.listenFd.toList.map Handle.file

/-- The other threads shut nothing down. -/
theorem step_shutdowns (hstop : ∀ ok fd, a ≠ .stopStep ok fd) (h : s.step a = some t) :
    t.shutdowns = s.shutdowns ∧ t.listenFd = s.listenFd ∧
      (t.stopCall = s.stopCall ∨ t.stopCall.plain) := by
  have hnotified : s.stopCall.notified = s.stopCall ∨ s.stopCall.notified.plain := by
    cases s.stopCall <;> simp [StopCall.notified, StopCall.plain]
  cases a with
  | stopStep ok fd => exact absurd rfl (hstop ok fd)
  | loop ok fd =>
      simp only [step, loopStep, registerWorker] at h
      repeat' split at h
      all_goals cases h <;> first | exact ⟨rfl, rfl, .inl rfl⟩ | exact ⟨rfl, rfl, hnotified⟩
  | worker w =>
      simp only [step, workerStep] at h
      repeat' split at h
      all_goals cases h <;> first | exact ⟨rfl, rfl, .inl rfl⟩ | exact ⟨rfl, rfl, hnotified⟩
  | _ =>
      simp only [step, startThreaded, stop, wake, otherOpen, otherClose] at h
      split_ifs at h <;> cases h <;>
        first | exact ⟨rfl, rfl, .inl rfl⟩ | exact ⟨rfl, rfl, .inr rfl⟩

theorem served_mono (h : s.step a = some t) : ∀ f ∈ s.served, f ∈ t.served := by
  intro f hf
  cases step_registry h with
  | kept active live served perm => rwa [served]
  | added client unrequested free mem active live served perm =>
      rw [served]
      exact List.mem_cons_of_mem _ hf
  | removed client free active live served perm notified => rwa [served]

theorem served_of_registered (hs : Aimed s) (h : s.step a = some t) :
    ∀ c ∈ t.registered, c.file ∈ t.served := by
  intro c hc
  cases step_registry h with
  | kept active live served perm =>
      rw [served]
      exact hs.registered c (perm.mem_iff.mpr hc)
  | added client unrequested free mem active live served perm =>
      rw [served]
      rcases List.mem_cons.mp (perm.mem_iff.mpr hc) with rfl | hc
      · exact List.mem_cons_self
      · exact List.mem_cons_of_mem _ (hs.registered c hc)
  | removed client free active live served perm notified =>
      rw [served]
      exact hs.registered c (perm.mem_iff.mpr (List.mem_cons_of_mem _ hc))

/-- A registered number names a connection that is being served. -/
theorem served_of_active (hs : Aimed s) (hsound : Sound s) {fd file : Nat}
    (hactive : fd ∈ s.activeFds) (hfile : s.table.files fd = some file) : file ∈ s.served := by
  obtain ⟨c, hc, rfl⟩ := List.mem_map.mp (hsound.active.mem_iff.mp hactive)
  have hopen := hsound.accounted.file_eq ((registered_sublist s).mem hc)
  rw [hfile] at hopen
  cases hopen
  exact hs.registered c hc

/-- Outside the part that works on duplicates there is nothing left to shut down. -/
theorem Aimed.of_plain (hregistered : ∀ c ∈ s.registered, c.file ∈ s.served)
    (hplain : s.stopCall.plain)
    (hreached : ∀ f ∈ s.shutdowns, f ∈ s.served ∨ f ∈ s.listenFd.toList.map Handle.file) :
    Aimed s := by
  refine ⟨hregistered, ?_, ?_, ?_, hreached⟩
  · cases hcall : s.stopCall <;> simp_all [StopCall.plain, StopCall.dups]
  · intro fds dups hcall
    simp [hcall, StopCall.plain] at hplain
  · intro rest dups hcall
    simp [hcall, StopCall.plain] at hplain

theorem Aimed.stopStep {ok : Bool} {fd : Nat} (hs : Aimed s) (hsound : Sound s)
    (h : s.stopStep ok fd = some t) : Aimed t := by
  have hregistered := served_of_registered (a := .stopStep ok fd) hs h
  have hdups := hs.dups
  have hopen : ∀ d ∈ s.stopCall.dups, s.table.files d.fd = some d.file := by
    intro d hd
    exact hsound.accounted.file_eq (by simp [handles, hd])
  unfold HttpServer.stopStep at h
  split at h
  case h_1 => cases h
  case h_2 hcall =>
    split at h
    · rename_i listener hlisten
      cases h
      have hfile := hsound.accounted.file_eq (h := listener) (by simp [handles, hlisten])
      refine .of_plain hregistered rfl ?_
      intro f hf
      simp only [shutdown, hfile, Option.toList_some, List.cons_append, List.nil_append,
        List.mem_cons] at hf
      rcases hf with rfl | hf
      · exact .inr (by simp [shutdown, hlisten])
      · exact hs.reached f hf
    · cases h
      exact .of_plain hregistered rfl hs.reached
  case h_3 hcall =>
    cases h
    refine ⟨hregistered, by simp [StopCall.dups], ?_, by simp, hs.reached⟩
    rintro fds dups ⟨⟩ fd hfd
    exact hfd
  case h_4 dups hcall =>
    cases h
    refine ⟨hregistered, by simpa [hcall, StopCall.dups] using hdups, by simp, ?_, hs.reached⟩
    rintro rest dups ⟨⟩ d hd
    exact hd
  case h_5 client rest dups hcall =>
    have hpending := hs.pending _ _ hcall
    have hrest : ∀ fd ∈ rest, fd ∈ s.activeFds :=
      fun fd hfd => hpending fd (List.mem_cons_of_mem _ hfd)
    rw [hcall] at hdups
    split at h
    · split at h
      · rename_i file hfile
        split_ifs at h with hfree
        cases h
        have hserved := served_of_active hs hsound (hpending client List.mem_cons_self) hfile
        refine ⟨hregistered, ?_, ?_, by simp, hs.reached⟩
        · intro d hd
          rcases List.mem_append.mp hd with hd | hd
          · exact hdups d hd
          · rw [List.mem_singleton.mp hd]
            exact hserved
        · rintro fds dups ⟨⟩
          exact hrest
      · cases h
    · cases h
      refine ⟨hregistered, hdups, ?_, by simp, ?_⟩
      · rintro fds dups ⟨⟩
        exact hrest
      · intro f hf
        rcases List.mem_append.mp hf with hf | hf
        · have hfile := Option.mem_toList.mp hf
          exact .inl (served_of_active hs hsound (hpending client List.mem_cons_self) hfile)
        · exact hs.reached f hf
  case h_6 dups hcall =>
    cases h
    exact ⟨hregistered, by simpa [hcall, StopCall.dups] using hdups, by simp, by simp, hs.reached⟩
  case h_7 d rest dups hcall =>
    cases h
    have hmem : d ∈ dups := hs.rest _ _ hcall d List.mem_cons_self
    rw [hcall] at hdups hopen
    refine ⟨hregistered, hdups, by simp, ?_, ?_⟩
    · rintro rest dups ⟨⟩ d' hd'
      exact hs.rest _ _ hcall d' (List.mem_cons_of_mem _ hd')
    · intro f hf
      simp only [shutdown, hopen d hmem, Option.toList_some, List.cons_append, List.nil_append,
        List.mem_cons] at hf
      rcases hf with rfl | hf
      · exact .inl (hdups d hmem)
      · exact hs.reached f hf
  case h_8 hcall =>
    cases h
    exact .of_plain hregistered rfl hs.reached
  case h_9 d rest hcall =>
    cases h
    rw [hcall] at hdups
    exact ⟨hregistered, fun d' hd' => hdups d' (List.mem_cons_of_mem _ hd'), by simp, by simp,
      hs.reached⟩
  case h_10 hcall =>
    split_ifs at h with hexited
    cases h
    exact .of_plain hregistered rfl hs.reached
  case h_11 hcall =>
    cases h
    refine .of_plain hregistered ?_ hs.reached
    change StopCall.plain (if s.liveWorkers = 0 then .returned else .waiting) = true
    split <;> rfl
  case h_12 => cases h
  case h_13 => cases h

theorem Aimed.step (hs : Aimed s) (hsound : Sound s) (h : s.step a = some t) : Aimed t := by
  by_cases hstop : ∃ ok fd, a = .stopStep ok fd
  · obtain ⟨ok, fd, rfl⟩ := hstop
    exact hs.stopStep hsound h
  · have hregistered := served_of_registered hs h
    have hmono := served_mono h
    obtain ⟨hshutdowns, hlisten, hcall⟩ :=
      step_shutdowns (fun ok fd heq => hstop ⟨ok, fd, heq⟩) h
    have hreached : ∀ f ∈ t.shutdowns, f ∈ t.served ∨ f ∈ t.listenFd.toList.map Handle.file := by
      intro f hf
      rw [hshutdowns] at hf
      rw [hlisten]
      exact (hs.reached f hf).imp (hmono f) id
    rcases hcall with hcall | hplain
    · refine ⟨hregistered, ?_, ?_, ?_, hreached⟩
      · rw [hcall]
        exact fun d hd => hmono _ (hs.dups d hd)
      · rw [hcall]
        intro fds dups hdup fd hfd
        -- While the mutex is held, the registry stays as it is.
        have hheld : s.stopCall.holdsMutex = true := by rw [hdup]; rfl
        have hactive := hs.pending fds dups hdup fd hfd
        cases step_registry h with
        | kept active live served perm => rwa [active]
        | added client unrequested free mem active live served perm => simp [hheld] at free
        | removed client free active live served perm notified => simp [hheld] at free
      · rw [hcall]
        exact hs.rest
    · exact .of_plain hregistered hplain hreached

theorem aimed_of_reachable (h : httpServer.Reachable s) : Aimed s ∧ Apart s := by
  refine Machine.Reachable.invariant (I := fun s => Aimed s ∧ Apart s) ?_ ?_ h
  · rintro s ⟨fd, rfl⟩
    refine ⟨.of_plain (by simp [constructed, registered, AcceptLoop.registered]) rfl
      (by simp [constructed]), ?_, by simp [constructed]⟩
    cases fd <;> simp [constructed, ours, AcceptLoop.client, FdTable.openNew, FdTable.empty]
  · intro s a t hreach hs hstep
    have hsound := sound_of_reachable hreach
    exact ⟨hs.1.step hsound hstep, hs.2.step hsound hstep⟩

/-! ### After a stop -/

/-- Once a stop is requested, it stays requested and workers only leave. -/
theorem registered_of_requested (hrequested : s.stopRequested = true) (h : s.step a = some t) :
    t.stopRequested = true ∧ t.registered.Subperm s.registered := by
  refine ⟨?_, ?_⟩
  · cases a with
    | loop ok fd =>
        simp only [step, loopStep, registerWorker] at h
        repeat' split at h
        all_goals cases h <;> exact hrequested
    | stopStep ok fd =>
        simp only [step, stopStep] at h
        repeat' split at h
        all_goals cases h <;> exact hrequested
    | _ =>
        simp only [step, startThreaded, workerStep, stop, wake, otherOpen, otherClose] at h
        split_ifs at h <;> cases h <;> first | exact hrequested | rfl
  · cases step_registry h with
    | kept active live served perm => exact perm.symm.subperm
    | added client unrequested free mem active live served perm => simp [hrequested] at unrequested
    | removed client free active live served perm notified =>
        exact (List.sublist_cons_self _ _).subperm.trans perm.symm.subperm

/-- A `stop()` that returned leaves no worker and no accept loop behind. -/
theorem Sound.of_returned (hs : Sound s) (hreturned : s.stopCall = .returned) :
    s.activeFds = [] ∧ s.liveWorkers = 0 ∧ s.loop = .exited ∧
      ∀ w ∈ s.workers, w.registered = false := by
  have hlive := hs.stop.returned hreturned
  have hregistered : s.registered = [] := by
    have hlen := hs.live
    rw [hlive] at hlen
    exact List.length_eq_zero_iff.mp (by exact_mod_cast hlen.symm)
  refine ⟨?_, hlive, hs.stop.joined (by rw [hreturned]; rfl), ?_⟩
  · have hperm := hs.active
    rw [hregistered] at hperm
    exact hperm.eq_nil
  · intro w hw
    by_contra hreg
    have hmem : w.client ∈ s.registered := by
      refine List.mem_append_right _ (List.mem_map.mpr ⟨w, ?_, rfl⟩)
      exact List.mem_filter.mpr ⟨hw, by simpa using hreg⟩
    rw [hregistered] at hmem
    cases hmem

theorem returned_step (hs : StopOk s) (hreturned : s.stopCall = .returned) (h : s.step a = some t) :
    t.stopCall = .returned := by
  have hrequested : s.stopRequested ≠ false := by
    intro hrequested
    rw [hs.idle hrequested] at hreturned
    cases hreturned
  cases a with
  | loop ok fd =>
      have hexited := hs.joined (by rw [hreturned]; rfl)
      simp [step, loopStep, hexited] at h
  | worker w =>
      simp only [step, workerStep] at h
      repeat' split at h
      all_goals cases h <;> simp [unregister, closeFd, hreturned, StopCall.notified]
  | stopStep ok fd => simp [step, stopStep, hreturned] at h
  | wake => simp [step, wake, hreturned] at h
  | stop =>
      rw [step, stop, if_neg fun hfirst => hrequested hfirst.2] at h
      cases h
      exact hreturned
  | _ =>
      simp only [step, startThreaded, otherOpen, otherClose] at h
      split_ifs at h
      cases h
      exact hreturned

/-! ### The end of a stop -/

/-- The steps that are left of a stop. -/
def left (s : HttpServer) : Nat :=
  s.stopCall.left s.activeFds.length + s.loop.left + s.registered.length

/-- The accept loop can go on towards its end. -/
theorem loop_progress (hstarted : s.loop ≠ .notStarted) (hrunning : s.loop ≠ .exited)
    (hrequested : s.stopRequested = true) (hcall : s.stopCall = .joining) :
    ∃ a t, a.own = true ∧ s.step a = some t ∧ t.left < s.left := by
  have hnext : ∃ t, s.loopStep false 0 = some t ∧ t.stopCall = .joining ∧
      t.loop.left < s.loop.left ∧ t.registered.length ≤ s.registered.length := by
    cases hloop : s.loop with
    | notStarted => exact absurd hloop hstarted
    | exited => exact absurd hloop hrunning
    | entering =>
        cases hlisten : s.listenFd <;>
          simp [loopStep, hloop, hlisten, hcall, registered, AcceptLoop.registered, AcceptLoop.left]
    | closing client leaves =>
        cases leaves <;>
          simp [loopStep, hloop, hcall, closeFd, registered, AcceptLoop.registered, AcceptLoop.left]
    | spawning client =>
        simp [loopStep, hloop, hcall, registered, AcceptLoop.registered, AcceptLoop.left,
          Nat.add_comm]
    | _ =>
        simp [loopStep, hloop, hcall, hrequested, registerWorker, StopCall.holdsMutex, unregister,
          StopCall.notified, registered, AcceptLoop.registered, AcceptLoop.left]
  obtain ⟨t, hstep, hjoining, hloop, hregistered⟩ := hnext
  refine ⟨.loop false 0, t, rfl, hstep, ?_⟩
  rw [left, left, hjoining, hcall]
  simp only [StopCall.left]
  omega

/-- So can a worker that `stop()` waits for. -/
theorem worker_progress (hs : Sound s) (hjoined : s.stopCall.joined = true)
    (hlive : s.liveWorkers ≠ 0) : ∃ a t, a.own = true ∧ s.step a = some t ∧ t.left < s.left := by
  have hloop := hs.stop.joined hjoined
  have hregistered : s.registered = (s.workers.filter Worker.registered).map Worker.client := by
    simp [registered, hloop, AcceptLoop.registered]
  have hne : s.registered ≠ [] := by
    intro hnil
    have hzero := hs.live
    rw [hnil] at hzero
    exact hlive hzero
  obtain ⟨client, hclient⟩ := List.exists_mem_of_ne_nil _ hne
  rw [hregistered] at hclient
  obtain ⟨w, hw, rfl⟩ := List.mem_map.mp hclient
  obtain ⟨hmem, hreg⟩ := List.mem_filter.mp hw
  have hfree : s.stopCall.holdsMutex = false := by
    cases hcall : s.stopCall <;> simp_all [StopCall.joined, StopCall.holdsMutex]
  have hstep : s.step (.worker w) = some { s.unregister w.client.fd with
      workers := { w with registered := false } :: s.workers.erase w } := by
    simp [step, workerStep, hmem, hreg, hfree]
  refine ⟨.worker w, _, rfl, hstep, ?_⟩
  have hcallLeft : ∀ n m, s.stopCall.notified.left n = s.stopCall.left m := by
    intro n m
    cases hcall : s.stopCall <;> simp_all [StopCall.joined, StopCall.notified, StopCall.left]
  have hlen : ((s.liveWorkers - 1 : Int)) = _ := (hs.step hstep).live
  have hbefore := hs.live
  simp only [left]
  have hcalls := hcallLeft (s.activeFds.erase w.client.fd).length s.activeFds.length
  simp only [unregister] at hlen ⊢
  omega

/-- A step of `stop()` itself only touches its own part of the measure. -/
theorem left_stopStep {ok : Bool} {fd : Nat} (h : s.stopStep ok fd = some t)
    (hleft : t.stopCall.left s.activeFds.length < s.stopCall.left s.activeFds.length) :
    ∃ a t, a.own = true ∧ s.step a = some t ∧ t.left < s.left := by
  have hkept : t.activeFds = s.activeFds ∧ t.loop = s.loop ∧ t.workers = s.workers := by
    unfold stopStep at h
    repeat' split at h
    all_goals cases h <;> exact ⟨rfl, rfl, rfl⟩
  refine ⟨.stopStep ok fd, t, rfl, h, ?_⟩
  simp only [left, registered, hkept]
  omega

/-- From every state of a stop that is under way, a step of the server's own threads
brings it closer to its end. -/
theorem stop_progress (hs : Sound s) (hstarted : s.loop ≠ .notStarted)
    (hrequested : s.stopRequested = true) (hcalled : s.stopCall ≠ .notCalled)
    (hreturned : s.stopCall ≠ .returned) :
    ∃ a t, a.own = true ∧ s.step a = some t ∧ t.left < s.left := by
  have hstop : ∀ ok, (∃ t, s.stopStep ok 0 = some t ∧
      t.stopCall.left s.activeFds.length < s.stopCall.left s.activeFds.length) →
      ∃ a t, a.own = true ∧ s.step a = some t ∧ t.left < s.left := by
    rintro ok ⟨t, hstep, hleft⟩
    exact left_stopStep hstep hleft
  cases hcall : s.stopCall with
  | notCalled => exact absurd hcall hcalled
  | returned => exact absurd hcall hreturned
  | joining =>
      by_cases hexited : s.loop = .exited
      · exact hstop true (by simp [stopStep, hcall, hexited, StopCall.left])
      · exact loop_progress hstarted hexited hrequested hcall
  | awaiting =>
      by_cases hlive : s.liveWorkers = 0
      · exact hstop true (by simp [stopStep, hcall, hlive, StopCall.left])
      · exact worker_progress hs (by rw [hcall]; rfl) hlive
  | waiting => exact worker_progress hs (by rw [hcall]; rfl) (hs.stop.waiting hcall)
  | shuttingListener =>
      refine hstop true ?_
      cases hlisten : s.listenFd <;> simp [stopStep, hcall, hlisten, StopCall.left]
  | locking => exact hstop true (by simp [stopStep, hcall, StopCall.left])
  | duplicating fds dups =>
      cases fds with
      | nil =>
          refine hstop true ⟨_, by rw [stopStep, hcall], ?_⟩
          simp only [hcall, StopCall.left, List.length_nil]
          omega
      | cons client rest =>
          -- Without a duplicate, the descriptor itself is shut down.
          exact hstop false (by simp [stopStep, hcall, StopCall.left])
  | shuttingDown rest dups =>
      cases rest <;> exact hstop true (by simp [stopStep, hcall, StopCall.left])
  | closingDups dups =>
      cases dups <;> exact hstop true (by simp [stopStep, hcall, StopCall.left])

/-- A stop that is requested is under way, on a server that was started. -/
theorem called_of_requested (h : httpServer.Reachable s) (hrequested : s.stopRequested = true) :
    s.loop ≠ .notStarted ∧ s.stopCall ≠ .notCalled := by
  revert hrequested
  refine Machine.Reachable.invariant
    (I := fun s => s.stopRequested = true → s.loop ≠ .notStarted ∧ s.stopCall ≠ .notCalled)
    ?_ ?_ h
  · rintro s ⟨fd, rfl⟩ hrequested
    simp [constructed] at hrequested
  · intro s a t _ hs hstep hrequested
    have hnotified : s.stopCall.notified = .notCalled ↔ s.stopCall = .notCalled := by
      cases s.stopCall <;> simp [StopCall.notified]
    cases a with
    | loop ok fd =>
        simp only [httpServer, step, loopStep, registerWorker] at hstep
        repeat' split at hstep
        all_goals cases hstep <;> simp_all [unregister, closeFd]
    | stopStep ok fd =>
        simp only [httpServer, step, stopStep] at hstep
        repeat' split at hstep
        all_goals cases hstep <;> simp_all [shutdown, closeFd]
    | _ =>
        simp only [httpServer, step, startThreaded, workerStep, stop, wake, otherOpen, otherClose]
          at hstep
        split_ifs at hstep <;> cases hstep <;> simp_all [unregister, closeFd]

/-! ### The promises -/

/-- Two connections are served; one worker leaves, and its number goes to another file,
while `stop()` has a duplicate of it. -/
def recycledRun : List ServerAction :=
  [.startThreaded, .loop true 0, .loop true 0, .loop true 0, .loop true 4, .loop true 0,
    .loop true 0, .loop true 0, .loop true 0, .loop true 0, .loop true 5, .loop true 0,
    .loop true 0, .loop true 0, .stop, .stopStep true 0, .stopStep true 0, .stopStep true 6,
    .stopStep false 0, .stopStep true 0, .worker ⟨⟨4, 1⟩, true⟩, .worker ⟨⟨4, 1⟩, false⟩,
    .otherOpen 4, .stopStep true 0]

theorem recycledRun_reaches (p : HttpServer → Bool)
    (h : (httpServer.exec (constructed (some 3)) recycledRun).any p = true) :
    ∃ s, httpServer.Reachable s ∧ p s = true :=
  Machine.exists_reachable_of_exec httpServer recycledRun p ⟨some 3, rfl⟩ h

/-- In every reachable state, `activeFds_` is the set of the numbers of the registered
workers, `liveWorkers_` counts them, and each such number names the connection it was
accepted for. Every open descriptor has one owner, and none is closed twice. -/
theorem registry_of_reachable (h : httpServer.Reachable s) :
    s.activeFds.Nodup ∧ s.liveWorkers = s.activeFds.length ∧
      (∀ fd, fd ∈ s.activeFds ↔ ∃ client ∈ s.registered, client.fd = fd) ∧
      (∀ client ∈ s.registered, s.table.files client.fd = some client.file) ∧
      (s.handles.map Handle.fd).Nodup ∧
      (∀ fd file, s.table.files fd = some file ↔ ⟨fd, file⟩ ∈ s.handles) ∧
      s.table.badCloses = 0 := by
  have hs := sound_of_reachable h
  refine ⟨?_, ?_, ?_, ?_, hs.accounted.nodup, hs.accounted.open_iff, hs.accounted.clean⟩
  · exact hs.active.nodup_iff.mpr (nodup_registered hs.accounted)
  · rw [hs.live, hs.active.length_eq, List.length_map]
  · intro fd
    rw [hs.active.mem_iff, List.mem_map]
  · intro client hclient
    exact hs.accounted.file_eq ((registered_sublist s).mem hclient)

theorem registry_of_recycledRun :
    ∃ s, httpServer.Reachable s ∧ s.activeFds = [5] ∧ s.liveWorkers = s.activeFds.length ∧
      s.table.badCloses = 0 := by
  obtain ⟨s, hs, hactive⟩ := recycledRun_reaches (fun s => s.activeFds = [5]) (by decide +kernel)
  obtain ⟨-, hlive, -, -, -, -, hclean⟩ := registry_of_reachable hs
  exact ⟨s, hs, by simpa using hactive, hlive, hclean⟩

/-- Once a stop is requested, no worker is registered any more in the rest of the run.
When `stop()` has returned, it stays so, the registry is empty, the accept loop is gone
and every thread that is left has only its own descriptor to close. -/
theorem registry_after_stop {actions : List ServerAction} (h : httpServer.Reachable s)
    (hrequested : s.stopRequested = true) (hrun : httpServer.exec s actions = some t) :
    t.registered.Subperm s.registered ∧
      (s.stopCall = .returned → t.stopCall = .returned) ∧
      (t.stopCall = .returned → t.activeFds = [] ∧ t.liveWorkers = 0 ∧ t.loop = .exited ∧
        ∀ w ∈ t.workers, w.registered = false) := by
  induction actions generalizing s with
  | nil =>
      cases hrun
      exact ⟨.refl _, id, (sound_of_reachable h).of_returned⟩
  | cons a rest ih =>
      obtain ⟨middle, hstep, hrest⟩ := Option.bind_eq_some_iff.mp hrun
      obtain ⟨hrequested', hsub⟩ := registered_of_requested hrequested hstep
      obtain ⟨hsub', hstays, hend⟩ := ih (.step h trivial hstep) hrequested' hrest
      refine ⟨hsub'.trans hsub, ?_, hend⟩
      exact fun hreturned => hstays (returned_step (sound_of_reachable h).stop hreturned hstep)

theorem registry_after_recycledRun :
    ∃ s t, httpServer.Reachable s ∧ s.stopRequested = true ∧
      httpServer.exec s [.worker ⟨⟨5, 2⟩, true⟩] = some t ∧ t.registered.Subperm s.registered := by
  obtain ⟨s, hs, hp⟩ := recycledRun_reaches
    (fun s => s.stopRequested && (httpServer.exec s [.worker ⟨⟨5, 2⟩, true⟩]).isSome)
    (by decide +kernel)
  obtain ⟨hrequested, hsome⟩ := Bool.and_eq_true_iff.mp hp
  obtain ⟨t, ht⟩ := Option.isSome_iff_exists.mp hsome
  exact ⟨s, t, hs, hrequested, ht, (registry_after_stop hs hrequested ht).1⟩

/-- A shutdown reaches the listener or a connection that got a worker, and never a file
of the rest of the process. The duplicates that are still to be shut down name such
connections too, although their workers may have closed the numbers they were made from. -/
theorem shutdowns_of_reachable (h : httpServer.Reachable s) :
    (∀ file ∈ s.shutdowns, file ∈ s.served ∨ ∃ listener ∈ s.listenFd, listener.file = file) ∧
      (∀ other ∈ s.others, other.file ∉ s.shutdowns) ∧
      (∀ d ∈ s.stopCall.dups, s.table.files d.fd = some d.file ∧ d.file ∈ s.served) := by
  obtain ⟨haimed, hapart⟩ := aimed_of_reachable h
  refine ⟨?_, ?_, ?_⟩
  · intro file hfile
    rcases haimed.reached file hfile with hserved | hlisten
    · exact .inl hserved
    · obtain ⟨listener, hlistener, hfile⟩ := List.mem_map.mp hlisten
      exact .inr ⟨listener, Option.mem_toList.mp hlistener, hfile⟩
  · intro other hother hmem
    refine hapart.foreign other hother ?_
    rcases haimed.reached _ hmem with hserved | hlisten
    · exact mem_ours_of_served hserved
    · refine List.mem_append_right _ ?_
      rw [List.map_append]
      exact List.mem_append_left _ hlisten
  · intro d hd
    exact ⟨(sound_of_reachable h).accounted.file_eq (by simp [handles, hd]), haimed.dups d hd⟩

theorem shutdowns_of_recycledRun :
    ∃ s, httpServer.Reachable s ∧ s.shutdowns = [1, 2, 0] ∧ s.others = [⟨4, 3⟩] ∧
      ∀ other ∈ s.others, other.file ∉ s.shutdowns := by
  obtain ⟨s, hs, hp⟩ := recycledRun_reaches
    (fun s => s.shutdowns = [1, 2, 0] ∧ s.others = [⟨4, 3⟩]) (by decide +kernel)
  obtain ⟨hshutdowns, hothers⟩ := of_decide_eq_true hp
  exact ⟨s, hs, hshutdowns, hothers, (shutdowns_of_reachable hs).2.1⟩

/-- From every reachable state in which a stop is requested, steps of the accept loop,
the workers and `stop()` lead to its return: nothing that the rest of the process did, and
no order of the steps before, leaves it waiting for ever. -/
theorem stop_can_return (h : httpServer.Reachable s) (hrequested : s.stopRequested = true) :
    ∃ actions t, (∀ a ∈ actions, a.own = true) ∧ httpServer.exec s actions = some t ∧
      t.stopCall = .returned := by
  refine Machine.exists_exec_of_progress
    (I := fun s => httpServer.Reachable s ∧ s.stopRequested = true) left ?_ ⟨h, hrequested⟩
  rintro s ⟨hs, hrequested⟩ hreturned
  obtain ⟨hstarted, hcalled⟩ := called_of_requested hs hrequested
  obtain ⟨a, t, hown, hstep, hless⟩ :=
    stop_progress (sound_of_reachable hs) hstarted hrequested hcalled hreturned
  refine ⟨a, t, hown, hstep, ⟨.step hs trivial hstep, ?_⟩, hless⟩
  exact (registered_of_requested hrequested hstep).1

theorem stop_can_return_of_recycledRun :
    ∃ s, httpServer.Reachable s ∧ s.stopRequested = true ∧ s.liveWorkers = 1 ∧
      ∃ actions t, (∀ a ∈ actions, a.own = true) ∧ httpServer.exec s actions = some t ∧
        t.stopCall = .returned := by
  obtain ⟨s, hs, hp⟩ := recycledRun_reaches
    (fun s => s.stopRequested = true ∧ s.liveWorkers = 1) (by decide +kernel)
  obtain ⟨hrequested, hlive⟩ := of_decide_eq_true hp
  exact ⟨s, hs, hrequested, hlive, stop_can_return hs hrequested⟩

end HttpServer
end HipObject.Server
