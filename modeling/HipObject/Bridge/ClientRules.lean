import HipObject.Bridge.ClientMachine

/-!
# The library's rules for transfers made of several calls

The library asks of an application that drives its own transfers that they don't
overlap each other, and that the buffer stays registered and the library
initialized until each has ended. The bridge leaves this to its own callers:
`KeepsRules` holds in every run in which a call enters `EnsureInit` only when no
other call can still send a request or undo the registration of its buffer.
-/

namespace HipObject.Bridge

open HipObject Codec Verification

/-! ### The rules -/

/-- The token whose request isn't over. -/
def ClientPc.token : ClientPc → Option Minted
  | .stageToHost _ token => some token
  | .prepare _ token => some token
  | .execute _ token => some token
  | _ => none

def ClientPc.inFlight : ClientPc → Bool
  | .execute .. => true
  | _ => false

/-- From `EnsureInit` to the end of the last request. -/
def ClientPc.busy : ClientPc → Bool
  | .ensureInit => false
  | .stageToDevice => false
  | .fallback => false
  | .unwind => false
  | .done => false
  | _ => true

/-- One request with a token is in flight at most, and while a token is in use,
the instance that it is from is the current one and the buffer it is for is still
registered as it was. -/
structure KeepsRules (s : Clients) : Prop where
  single : ∀ i j c d, s.calls i = some c → s.calls j = some d → c.pc.inFlight = true →
    d.pc.inFlight = true → i = j
  live : ∀ i c token, s.calls i = some c → c.pc.token = some token →
    s.current = some token.inst ∧ ⟨token.inst, c.buf, token.registration⟩ ∈ s.registered

/-- A call enters `EnsureInit` only when no other call can still send a request,
or undo the registration of the same buffer. -/
def EntersAlone (s : Clients) : ClientAction → Prop
  | .step i _ => ∀ c, s.calls i = some c → c.pc = .ensureInit → ∀ j d, j ≠ i →
      s.calls j = some d → d.pc.busy = false ∧ (d.owns = true → d.buf ≠ c.buf)
  | _ => True

/-! ### What a step can do -/

/-- A step of a call, in terms of what other calls notice. -/
inductive ClientMove (s : Clients) (i : Nat) (c : ClientCall) : Clients → Prop
  /-- It enters `EnsureInit`. -/
  | enters (c' : ClientCall) (mutex : Option Nat) (hpc : c.pc = .ensureInit)
      (hbuf : c'.buf = c.buf) (howns : c'.owns = c.owns) (htoken : c'.pc.token = none) :
      ClientMove s i c ({ s with mutex := mutex }.set i c')
  /-- It changes the runtime, which only a busy call does. -/
  | switches (c' : ClientCall) (t : Clients) (hcalls : t.calls = s.calls)
      (hregistered : t.registered = s.registered) (hbusy : c.pc.busy = true)
      (hbuf : c'.buf = c.buf) (howns : c'.owns = c.owns) (htoken : c'.pc.token = none) :
      ClientMove s i c (t.set i c')
  | registers (c' : ClientCall) (t : Clients) (hcalls : t.calls = s.calls)
      (hcurrent : t.current = s.current) (hregistered : s.registered ⊆ t.registered)
      (hbusy : c.pc.busy = true) (hbuf : c'.buf = c.buf) (htoken : c'.pc.token = none) :
      ClientMove s i c (t.set i c')
  | mints (c' : ClientCall) (r : Registration) (hfound : s.find c.buf = some r)
      (hbusy : c.pc.busy = true) (hbuf : c'.buf = c.buf) (howns : c'.owns = c.owns)
      (htoken : c'.pc.token = some ⟨r.inst, r.id⟩) (hflight : c'.pc.inFlight = false) :
      ClientMove s i c (s.set i c')
  /-- It goes on, with the token it has or without it. -/
  | proceeds (c' : ClientCall) (hbusy : c'.pc.busy = true → c.pc.busy = true)
      (hbuf : c'.buf = c.buf) (howns : c'.owns = true → c.owns = true)
      (htoken : ∀ token, c'.pc.token = some token → c.pc.token = some token) :
      ClientMove s i c (s.set i c')
  | deregisters (c' : ClientCall) (r : Registration) (hfound : s.find c.buf = some r)
      (howns : c.owns = true) (hpc : c.pc = .unwind) (hbusy : c'.pc.busy = false)
      (hbuf : c'.buf = c.buf) (howned : c'.owns = false) :
      ClientMove s i c ({ s with registered := s.registered.erase r }.set i c')

section Steps

variable {s s' : Clients} {i : Nat} {c : ClientCall} {reply : ClientReply}

theorem ClientMove.goes (pc : ClientPc) (hbusy : pc.busy = true → c.pc.busy = true)
    (htoken : ∀ token, pc.token = some token → c.pc.token = some token) :
    ClientMove s i c (s.set i (c.goto pc)) :=
  .proceeds _ hbusy rfl id htoken

/-- Going to where no token is needed and no request can follow. -/
theorem ClientMove.leaves (pc : ClientPc) (hbusy : pc.busy = false) (htoken : pc.token = none) :
    ClientMove s i c (s.set i (c.goto pc)) := by
  refine .goes pc (fun h => ?_) fun token h => ?_
  · cases hbusy.symm.trans h
  · cases htoken.symm.trans h

/-- Going on without a token. -/
theorem ClientMove.continues (pc : ClientPc) (hbusy : c.pc.busy = true)
    (htoken : pc.token = none) : ClientMove s i c (s.set i (c.goto pc)) := by
  refine .goes pc (fun _ => hbusy) fun token h => ?_
  cases htoken.symm.trans h

theorem tryAgain_move (attempt : Nat) (hbusy : c.pc.busy = true) :
    ClientMove s i c (s.set i (c.tryAgain attempt)) := by
  unfold ClientCall.tryAgain
  split
  · exact .continues _ hbusy rfl
  · exact .continues _ hbusy rfl

theorem afterResponse_move (attempt : Nat) (result : RdmaResult) (hbusy : c.pc.busy = true) :
    ClientMove s i c (s.set i (c.afterResponse attempt result)) := by
  unfold ClientCall.afterResponse
  split
  · cases c.method with
    | put => exact .continues _ hbusy rfl
    | get => exact .continues _ hbusy rfl
  split
  · exact .continues _ hbusy rfl
  · exact tryAgain_move attempt hbusy

theorem ensureInitStep_move (hpc : c.pc = .ensureInit) (h : s.ensureInitStep i c = some s') :
    ClientMove s i c s' := by
  unfold Clients.ensureInitStep at h
  split at h
  · cases h
  split at h
  · cases h
    exact .enters _ s.mutex hpc rfl rfl rfl
  split at h
  · cases h
    exact .enters _ _ hpc rfl rfl rfl
  · cases h
    exact .enters _ _ hpc rfl rfl rfl

theorem initStep_move (hpc : c.pc = .init) (h : s.initStep i c reply = some s') :
    ClientMove s i c s' := by
  have hbusy : c.pc.busy = true := by rw [hpc]; rfl
  unfold Clients.initStep at h
  split at h
  · split at h
    · cases h
      exact .switches _ _ rfl rfl hbusy rfl rfl rfl
    · cases h
      exact .switches _ _ rfl rfl hbusy rfl rfl rfl
  · cases h
    exact .switches _ _ rfl rfl hbusy rfl rfl rfl
  · cases h

theorem registerStep_move (hpc : c.pc = .register) (h : s.registerStep i c reply = some s') :
    ClientMove s i c s' := by
  have hbusy : c.pc.busy = true := by rw [hpc]; rfl
  unfold Clients.registerStep at h
  split at h
  · split at h
    · cases h
      exact .continues _ hbusy rfl
    · cases h
      exact .continues _ hbusy rfl
    · cases h
      exact .registers _ _ rfl rfl (List.subset_cons_self _ _) hbusy rfl rfl
  · cases h
    exact .continues _ hbusy rfl
  · cases h

theorem getTokenStep_move {attempt : Nat} (hpc : c.pc = .getToken attempt)
    (h : s.getTokenStep i c attempt reply = some s') : ClientMove s i c s' := by
  have hbusy : c.pc.busy = true := by rw [hpc]; rfl
  unfold Clients.getTokenStep at h
  split at h
  · cases hfound : s.find c.buf with
    | none =>
        rw [hfound] at h
        cases h
        exact .continues _ hbusy rfl
    | some r =>
        rw [hfound] at h
        cases hmethod : c.method with
        | put =>
            rw [hmethod] at h
            cases h
            exact .mints _ r hfound hbusy rfl rfl rfl rfl
        | get =>
            rw [hmethod] at h
            cases h
            exact .mints _ r hfound hbusy rfl rfl rfl rfl
  · cases h
    exact .continues _ hbusy rfl
  · cases h

theorem unwindStep_move (hpc : c.pc = .unwind) (h : s.unwindStep i c reply = some s') :
    ClientMove s i c s' := by
  have hleaves : ClientMove s i c (s.set i { c.goto .done with owns := false }) := by
    refine .proceeds _ (fun hbusy => ?_) rfl (fun howns => ?_) fun token htoken => ?_
    · cases hbusy
    · cases howns
    · cases htoken
  unfold Clients.unwindStep at h
  dsimp only at h
  split at h
  · cases h
    exact hleaves
  rename_i howns
  split at h
  · rename_i r hfound
    cases h
    exact .deregisters _ r hfound (by simpa using howns) hpc rfl rfl rfl
  · cases h
    exact hleaves
  · cases h
    exact hleaves
  · cases h

theorem callStep_move (h : s.callStep i c reply = some s') : ClientMove s i c s' := by
  unfold Clients.callStep at h
  cases hpc : c.pc with
  | ensureInit =>
      rw [hpc] at h
      exact ensureInitStep_move hpc h
  | shutdown =>
      rw [hpc] at h
      cases h
      exact .switches _ _ rfl rfl (by rw [hpc]; rfl) rfl rfl rfl
  | init =>
      rw [hpc] at h
      exact initStep_move hpc h
  | register =>
      rw [hpc] at h
      exact registerStep_move hpc h
  | getRegion =>
      have hbusy : c.pc.busy = true := by rw [hpc]; rfl
      rw [hpc] at h
      cases reply with
      | response res => cases h
      | _ =>
          cases h
          exact .continues _ hbusy rfl
  | getToken attempt =>
      rw [hpc] at h
      exact getTokenStep_move hpc h
  | stageToHost attempt token =>
      have hbusy : c.pc.busy = true := by rw [hpc]; rfl
      have htoken : c.pc.token = some token := by rw [hpc]; rfl
      rw [hpc] at h
      cases reply with
      | ok =>
          cases h
          exact .goes _ (fun _ => hbusy) fun token' htoken' => htoken.trans htoken'
      | fail =>
          cases h
          exact .leaves _ rfl rfl
      | _ => cases h
  | prepare attempt token =>
      have hbusy : c.pc.busy = true := by rw [hpc]; rfl
      have htoken : c.pc.token = some token := by rw [hpc]; rfl
      rw [hpc] at h
      cases reply with
      | ok =>
          cases h
          exact .goes _ (fun _ => hbusy) fun token' htoken' => htoken.trans htoken'
      | fail =>
          cases h
          exact tryAgain_move attempt hbusy
      | threw =>
          cases h
          exact .leaves _ rfl rfl
      | response res => cases h
  | execute attempt token =>
      have hbusy : c.pc.busy = true := by rw [hpc]; rfl
      rw [hpc] at h
      cases reply with
      | response res =>
          cases h
          exact afterResponse_move attempt _ hbusy
      | threw =>
          cases h
          exact .leaves _ rfl rfl
      | _ => cases h
  | stageToDevice =>
      rw [hpc] at h
      cases reply with
      | ok =>
          cases h
          exact .leaves _ rfl rfl
      | fail =>
          cases h
          exact .leaves _ rfl rfl
      | _ => cases h
  | fallback =>
      rw [hpc] at h
      cases h
      exact .leaves _ rfl rfl
  | unwind =>
      rw [hpc] at h
      exact unwindStep_move hpc h
  | done =>
      rw [hpc] at h
      cases h

end Steps

/-! ### One call at a time -/

/-- The token of a call is from the current instance and for what is registered
there. -/
def Valid (s : Clients) (c : ClientCall) : Prop :=
  ∀ token, c.pc.token = some token →
    s.current = some token.inst ∧ ⟨token.inst, c.buf, token.registration⟩ ∈ s.registered

/-- One call is busy at most, no other call is going to undo the registration of
its buffer, and its token is valid. -/
structure Exclusive (s : Clients) : Prop where
  single : ∀ i j c d, s.calls i = some c → s.calls j = some d → c.pc.busy = true →
    d.pc.busy = true → i = j
  apart : ∀ i j c d, i ≠ j → s.calls i = some c → s.calls j = some d → c.pc.busy = true →
    d.owns = true → d.buf ≠ c.buf
  valid : ∀ i c, s.calls i = some c → Valid s c

theorem busy_of_token {pc : ClientPc} {token : Minted} (h : pc.token = some token) :
    pc.busy = true := by
  cases pc with
  | stageToHost => rfl
  | prepare => rfl
  | execute => rfl
  | _ => cases h

theorem busy_of_inFlight {pc : ClientPc} (h : pc.inFlight = true) : pc.busy = true := by
  cases pc with
  | execute => rfl
  | _ => cases h

section Exclusive

variable {s t s' : Clients} {i : Nat} {c c' : ClientCall}

theorem Exclusive.keepsRules (h : Exclusive s) : KeepsRules s where
  single := fun i j c d hc hd hflight hflight' =>
    h.single i j c d hc hd (busy_of_inFlight hflight) (busy_of_inFlight hflight')
  live := fun i c token hc htoken => h.valid i c hc token htoken

/-- Nobody else has a token while a call is busy. -/
theorem Exclusive.no_token (h : Exclusive s) (hc : s.calls i = some c) (hbusy : c.pc.busy = true)
    {j : Nat} {d : ClientCall} (hij : j ≠ i) (hd : s.calls j = some d) : d.pc.token = none := by
  cases htoken : d.pc.token with
  | none => rfl
  | some token => exact absurd (h.single j i d c hd hc (busy_of_token htoken) hbusy) hij

theorem Valid.of_none (h : c.pc.token = none) : Valid s c := by
  intro token htoken
  cases h.symm.trans htoken

/-- A call changes, and the library with it. -/
theorem Exclusive.set (h : Exclusive s) (hcalls : t.calls = s.calls)
    (halone : c'.pc.busy = true → ∀ j d, j ≠ i → s.calls j = some d →
      d.pc.busy = false ∧ (d.owns = true → d.buf ≠ c'.buf))
    (howner : c'.owns = true → ∀ j d, j ≠ i → s.calls j = some d → d.pc.busy = true →
      c'.buf ≠ d.buf)
    (hself : Valid t c') (hothers : ∀ j d, j ≠ i → s.calls j = some d → Valid t d) :
    Exclusive (t.set i c') := by
  have hat : (t.set i c').calls i = some c' := Function.update_self ..
  have hother : ∀ {j}, j ≠ i → (t.set i c').calls j = s.calls j := by
    intro j hj
    rw [← hcalls]
    exact Function.update_of_ne hj ..
  refine ⟨?_, ?_, ?_⟩
  · intro j k d d' hd hd' hbusy hbusy'
    by_cases hj : j = i
    · subst hj
      cases hat.symm.trans hd
      by_contra hk
      rw [hother (Ne.symm hk)] at hd'
      cases (halone hbusy k d' (Ne.symm hk) hd').1.symm.trans hbusy'
    · rw [hother hj] at hd
      by_cases hk : k = i
      · subst hk
        cases hat.symm.trans hd'
        cases (halone hbusy' j d hj hd).1.symm.trans hbusy
      · rw [hother hk] at hd'
        exact h.single j k d d' hd hd' hbusy hbusy'
  · intro j k d d' hjk hd hd' hbusy howns
    by_cases hj : j = i
    · subst hj
      cases hat.symm.trans hd
      rw [hother (Ne.symm hjk)] at hd'
      exact (halone hbusy k d' (Ne.symm hjk) hd').2 howns
    · rw [hother hj] at hd
      by_cases hk : k = i
      · subst hk
        cases hat.symm.trans hd'
        exact howner howns j d hj hd hbusy
      · rw [hother hk] at hd'
        exact h.apart j k d d' hjk hd hd' hbusy howns
  · intro j d hd
    by_cases hj : j = i
    · subst hj
      cases hat.symm.trans hd
      exact hself
    · rw [hother hj] at hd
      exact hothers j d hj hd

/-- What the call that is busy knows about the others. -/
theorem Exclusive.alone (h : Exclusive s) (hc : s.calls i = some c) (hbusy : c.pc.busy = true)
    {j : Nat} {d : ClientCall} (hj : j ≠ i) (hd : s.calls j = some d) :
    d.pc.busy = false ∧ (d.owns = true → d.buf ≠ c.buf) := by
  refine ⟨?_, h.apart i j c d (Ne.symm hj) hc hd hbusy⟩
  cases hother : d.pc.busy with
  | false => rfl
  | true => exact absurd (h.single j i d c hd hc hother hbusy) hj

/-- The call that is busy goes on with its buffer. -/
theorem Exclusive.set_of_busy (h : Exclusive s) (hc : s.calls i = some c)
    (hbusy : c.pc.busy = true) (hcalls : t.calls = s.calls) (hbuf : c'.buf = c.buf)
    (hself : Valid t c') (hothers : ∀ j d, j ≠ i → s.calls j = some d → Valid t d) :
    Exclusive (t.set i c') := by
  refine h.set hcalls ?_ ?_ hself hothers
  · intro _ j d hj hd
    rw [hbuf]
    exact h.alone hc hbusy hj hd
  · intro _ j d hj hd hbusy'
    cases (h.alone hc hbusy hj hd).1.symm.trans hbusy'

theorem find_some {buf : BitVec 64} {r : Registration} (h : s.find buf = some r) :
    s.current = some r.inst ∧ r.buf = buf ∧ r ∈ s.registered := by
  unfold Clients.find at h
  obtain ⟨inst, hinst, hfind⟩ := Option.bind_eq_some_iff.mp h
  have hr := List.find?_some hfind
  have hr : r.inst = inst ∧ r.buf = buf := by simpa using hr
  exact ⟨hr.1 ▸ hinst, hr.2, List.mem_of_find?_eq_some hfind⟩

/-- A step of a call that enters alone keeps the calls apart. -/
theorem Exclusive.move (h : Exclusive s) (hc : s.calls i = some c)
    (henters : c.pc = .ensureInit → ∀ j d, j ≠ i → s.calls j = some d →
      d.pc.busy = false ∧ (d.owns = true → d.buf ≠ c.buf)) (hmove : ClientMove s i c s') :
    Exclusive s' := by
  cases hmove with
  | enters c' mutex hpc hbuf howns htoken =>
      have halone := henters hpc
      refine h.set rfl ?_ ?_ (.of_none htoken) fun j d _ hd => h.valid j d hd
      · intro _ j d hj hd
        rw [hbuf]
        exact halone j d hj hd
      · intro _ j d hj hd hbusy
        cases (halone j d hj hd).1.symm.trans hbusy
  | switches c' t hcalls hregistered hbusy hbuf howns htoken =>
      refine h.set_of_busy hc hbusy hcalls hbuf (.of_none htoken) ?_
      exact fun j d hj hd => .of_none (h.no_token hc hbusy hj hd)
  | registers c' t hcalls hcurrent hregistered hbusy hbuf htoken =>
      refine h.set_of_busy hc hbusy hcalls hbuf (.of_none htoken) ?_
      exact fun j d hj hd => .of_none (h.no_token hc hbusy hj hd)
  | mints c' r hfound hbusy hbuf howns htoken hflight =>
      refine h.set_of_busy hc hbusy rfl hbuf ?_ fun j d _ hd => h.valid j d hd
      intro token htoken'
      cases htoken.symm.trans htoken'
      obtain ⟨hcurrent, hat, hmem⟩ := find_some hfound
      rw [hbuf, ← hat]
      exact ⟨hcurrent, hmem⟩
  | proceeds c' hbusy hbuf howns htoken =>
      refine h.set rfl ?_ ?_ ?_ fun j d _ hd => h.valid j d hd
      · intro hbusy' j d hj hd
        rw [hbuf]
        exact h.alone hc (hbusy hbusy') hj hd
      · intro howns' j d hj hd hbusy'
        rw [hbuf]
        exact h.apart j i d c hj hd hc hbusy' (howns howns')
      · intro token htoken'
        rw [hbuf]
        exact h.valid i c hc token (htoken token htoken')
  | deregisters c' r hfound howns hpc hbusy hbuf howned =>
      obtain ⟨-, hat, -⟩ := find_some hfound
      refine h.set rfl ?_ ?_ ?_ ?_
      · intro hbusy'
        cases hbusy.symm.trans hbusy'
      · intro howns'
        cases howned.symm.trans howns'
      · intro token htoken
        cases hbusy.symm.trans (busy_of_token htoken)
      · intro j d hj hd token htoken
        obtain ⟨hcurrent, hmem⟩ := h.valid j d hd token htoken
        refine ⟨hcurrent, (List.mem_erase_of_ne ?_).mpr hmem⟩
        -- the buffer of a token isn't the one whose registration is undone
        rintro rfl
        exact h.apart j i d c hj hd hc (busy_of_token htoken) howns hat.symm

theorem exclusive_of_reachable (h : clientMachine.ReachableWhere EntersAlone s) : Exclusive s := by
  refine Machine.ReachableWhere.invariant (I := Exclusive) ?_ ?_ h
  · rintro s rfl
    refine ⟨?_, ?_, ?_⟩
    · intro i j c d hc
      cases hc
    · intro i j c d hij hc
      cases hc
    · intro i c hc
      cases hc
  · intro s a s' _ hs hok hstep
    cases a with
    | call i method host region buf size =>
        simp only [clientMachine, clientStep] at hstep
        split at hstep
        · cases hstep
        cases hstep
        refine hs.set rfl ?_ ?_ (.of_none rfl) fun j d _ hd => hs.valid j d hd
        · intro hbusy
          cases hbusy
        · intro howns
          cases howns
    | step i reply =>
        obtain ⟨c, hc, hcall⟩ := Option.bind_eq_some_iff.mp hstep
        exact hs.move hc (hok c hc) (callStep_move hcall)

end Exclusive

/-- The bridge keeps the library's rules in every run in which each call enters
`EnsureInit` alone. -/
theorem keepsRules_of_entersAlone {s : Clients}
    (h : clientMachine.ReachableWhere EntersAlone s) : KeepsRules s :=
  (exclusive_of_reachable h).keepsRules

/-! ### Runs that break the rules -/

/-- Calls `i` and the steps of it that succeed. -/
def startCall (i : Nat) (host : List Byte) (buf : BitVec 64) : ClientAction :=
  .call i .put host [] buf 1

def succeeds (i n : Nat) : List ClientAction := List.replicate n (.step i .ok)

/-- Two PUTs of different buffers to the same endpoint. -/
def twoPuts : List ClientAction :=
  [startCall 0 [] 16, startCall 1 [] 32] ++ succeeds 0 7 ++ succeeds 1 6

/-- A PUT, and a PUT to another endpoint when the first has sent its request. -/
def twoEndpoints : List ClientAction :=
  [startCall 0 [] 16, startCall 1 [ascii 'h'] 32] ++ succeeds 0 7 ++ succeeds 1 2

/-- Two PUTs of the same buffer, the first of which finds no region. -/
def sharedBuffer : List ClientAction :=
  [startCall 0 [] 16, startCall 1 [] 16] ++ succeeds 0 3 ++ succeeds 1 4 ++
    [.step 0 .fail, .step 0 .ok]

def bothInFlight (s : Clients) : Bool :=
  (s.calls 0).any (·.pc.inFlight) && (s.calls 1).any (·.pc.inFlight)

def usesToken (s : Clients) (i : Nat) : Bool := (s.calls i).any (·.pc.token.isSome)

theorem exists_token_of_usesToken {s : Clients} {i : Nat} (h : usesToken s i = true) :
    ∃ c token, s.calls i = some c ∧ c.pc.token = some token := by
  unfold usesToken at h
  obtain ⟨c, hc, hsome⟩ := (Option.any_eq_true _ _).mp h
  obtain ⟨token, htoken⟩ := Option.isSome_iff_exists.mp hsome
  exact ⟨c, token, hc, htoken⟩

/-- Each of the rules is broken in some run: two requests are in flight, the
library is shut down while a request is, and a buffer is deregistered while its
token is in use. -/
theorem exists_breaksRules :
    (∃ s, clientMachine.Reachable s ∧ ¬KeepsRules s ∧ bothInFlight s = true) ∧
      (∃ s, clientMachine.Reachable s ∧ ¬KeepsRules s ∧ s.current = none) ∧
      ∃ s, clientMachine.Reachable s ∧ ¬KeepsRules s ∧ s.registered = [] := by
  refine ⟨?_, ?_, ?_⟩
  · obtain ⟨s, hs, hboth⟩ := clientMachine.exists_reachable_of_exec twoPuts bothInFlight rfl
      (by decide)
    refine ⟨s, hs, fun hrules => ?_, hboth⟩
    obtain ⟨hfirst, hsecond⟩ := Bool.and_eq_true_iff.mp hboth
    obtain ⟨c, hc, hflight⟩ := (Option.any_eq_true _ _).mp hfirst
    obtain ⟨d, hd, hflight'⟩ := (Option.any_eq_true _ _).mp hsecond
    exact absurd (hrules.single 0 1 c d hc hd hflight hflight') (by decide)
  · obtain ⟨s, hs, hboth⟩ := clientMachine.exists_reachable_of_exec twoEndpoints
      (fun s => usesToken s 0 && s.current == none) rfl (by decide)
    obtain ⟨huses, hnone⟩ := Bool.and_eq_true_iff.mp hboth
    have hnone : s.current = none := by simpa using hnone
    obtain ⟨c, token, hc, htoken⟩ := exists_token_of_usesToken huses
    refine ⟨s, hs, fun hrules => ?_, hnone⟩
    cases hnone.symm.trans (hrules.live 0 c token hc htoken).1
  · obtain ⟨s, hs, hboth⟩ := clientMachine.exists_reachable_of_exec sharedBuffer
      (fun s => usesToken s 1 && s.registered == []) rfl (by decide)
    obtain ⟨huses, hnone⟩ := Bool.and_eq_true_iff.mp hboth
    have hnone : s.registered = [] := by simpa using hnone
    obtain ⟨c, token, hc, htoken⟩ := exists_token_of_usesToken huses
    refine ⟨s, hs, fun hrules => ?_, hnone⟩
    have hmem := (hrules.live 1 c token hc htoken).2
    rw [hnone] at hmem
    cases hmem

/-! ### Several calls that keep them -/

/-- Only the calls below `n` have been made. -/
def OnlyBelow (n : Nat) (s : Clients) : Prop := ∀ j, n ≤ j → s.calls j = none

/-- Whether an action is of a call below `n`, and enters `EnsureInit` alone among
those. -/
def entersAloneBelow (n : Nat) (s : Clients) : ClientAction → Bool
  | .call i .. => i < n
  | .step i _ => i < n && (s.calls i).all fun c => c.pc ≠ .ensureInit ||
      (List.range n).all fun j => j = i || (s.calls j).all fun d =>
        !d.pc.busy && (!d.owns || d.buf ≠ c.buf)

theorem entersAlone_of_below {s : Clients} {n : Nat} {a : ClientAction} (honly : OnlyBelow n s)
    (h : entersAloneBelow n s a = true) : EntersAlone s a := by
  cases a with
  | call => trivial
  | step i reply =>
      intro c hc hpc j d hj hd
      have hbelow : j < n := by
        by_contra hbelow
        cases (honly j (Nat.le_of_not_lt hbelow)).symm.trans hd
      simp only [entersAloneBelow, Bool.and_eq_true, hc, Option.all_some, hpc, ne_eq,
        not_true_eq_false, decide_false, Bool.false_or, List.all_eq_true, List.mem_range] at h
      have hother := h.2 j hbelow
      simp only [hj, decide_false, Bool.false_or, hd, Option.all_some, Bool.and_eq_true,
        Bool.not_eq_true'] at hother
      refine ⟨hother.1, fun howns => ?_⟩
      simpa [howns] using hother.2

theorem OnlyBelow.set {s t : Clients} {n i : Nat} (honly : OnlyBelow n s)
    (hcalls : t.calls = s.calls) (hi : i < n) (c : ClientCall) : OnlyBelow n (t.set i c) := by
  intro j hj
  have hother : (t.set i c).calls j = t.calls j :=
    Function.update_of_ne (Nat.ne_of_gt (Nat.lt_of_lt_of_le hi hj)) ..
  rw [hother, hcalls]
  exact honly j hj

theorem ClientMove.onlyBelow {s s' : Clients} {n i : Nat} {c : ClientCall}
    (h : ClientMove s i c s') (honly : OnlyBelow n s) (hi : i < n) : OnlyBelow n s' := by
  cases h with
  | enters => exact honly.set rfl hi _
  | switches _ _ hcalls => exact honly.set hcalls hi _
  | registers _ _ hcalls => exact honly.set hcalls hi _
  | mints => exact honly.set rfl hi _
  | proceeds => exact honly.set rfl hi _
  | deregisters => exact honly.set rfl hi _

theorem OnlyBelow.step {s t : Clients} {n : Nat} {a : ClientAction} (honly : OnlyBelow n s)
    (h : entersAloneBelow n s a = true) (hstep : clientStep s a = some t) : OnlyBelow n t := by
  cases a with
  | call i method host region buf size =>
      simp only [clientStep] at hstep
      split at hstep
      · cases hstep
      cases hstep
      exact honly.set rfl (by simpa [entersAloneBelow] using h) _
  | step i reply =>
      obtain ⟨c, -, hcall⟩ := Option.bind_eq_some_iff.mp hstep
      simp only [entersAloneBelow, Bool.and_eq_true, decide_eq_true_eq] at h
      exact (callStep_move hcall).onlyBelow honly h.1

/-- A run of the first `n` calls, each of which enters alone. -/
theorem exists_entersAlone (n : Nat) (actions : List ClientAction) (p : Clients → Bool)
    (h : (clientMachine.execChecked (entersAloneBelow n)
      ⟨fun _ => none, none, false, [], none, [], 0⟩ actions).any p = true) :
    ∃ t, clientMachine.ReachableWhere EntersAlone t ∧ p t = true :=
  clientMachine.exists_reachableWhere_of_execChecked (I := OnlyBelow n) EntersAlone
    (entersAloneBelow n) (fun _ _ => entersAlone_of_below) (fun _ _ _ honly h => honly.step h)
    actions p (.init rfl) (fun _ _ => rfl) h

/-- What the server answers to a PUT that it has done. -/
def putDone : Response where
  error := []
  statusCode := 200
  headers := fun name => if name = .rdmaReply then ["200".toList.map ascii] else []

/-- A PUT has its request in flight, and a PUT of the same buffer to another
endpoint has not entered `EnsureInit` yet. -/
def firstInFlight : List ClientAction :=
  [startCall 0 [] 16, startCall 1 [ascii 'h'] 16] ++ succeeds 0 7

/-- The first PUT ends and undoes its registration, and the second one sends its
request. -/
def thenSecond : List ClientAction :=
  [.step 0 (.response putDone), .step 0 .ok] ++ succeeds 1 8

/-- Whether a call is over, and has nothing left to undo. -/
def isOver (s : Clients) (i : Nat) : Bool := (s.calls i).any fun c => c.pc = .done && !c.owns

/-- Two PUTs of one buffer to two endpoints keep the rules, the second of which
enters when the first is over. -/
theorem keepsRules_twoPuts :
    ∃ s t, clientMachine.ReachableWhere EntersAlone s ∧ usesToken s 0 = true ∧
      (s.calls 1).isSome = true ∧ KeepsRules s ∧
      clientMachine.ReachableWhere EntersAlone t ∧ isOver t 0 = true ∧ usesToken t 1 = true ∧
      KeepsRules t := by
  obtain ⟨s, hs, hflight⟩ := exists_entersAlone 2 firstInFlight
    (fun s => usesToken s 0 && (s.calls 1).isSome) (by decide)
  obtain ⟨t, ht, hdone⟩ := exists_entersAlone 2 (firstInFlight ++ thenSecond)
    (fun t => isOver t 0 && usesToken t 1) (by decide +kernel)
  obtain ⟨huses, hwaits⟩ := Bool.and_eq_true_iff.mp hflight
  obtain ⟨hover, huses'⟩ := Bool.and_eq_true_iff.mp hdone
  exact ⟨s, t, hs, huses, hwaits, keepsRules_of_entersAlone hs, ht, hover, huses',
    keepsRules_of_entersAlone ht⟩

end HipObject.Bridge
