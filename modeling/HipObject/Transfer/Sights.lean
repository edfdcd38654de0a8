import HipObject.Buffer.Alone
import HipObject.Transfer.Success
import HipObject.Verification.Simulation

/-!
# What the two models of a transfer show

`hipObjGet` and `hipObjPut` are programs in `Transfer/Program.lean` and calls of
the instance machine in `Buffer/Machine.lean`. The first has the callbacks, the
verbs calls and the polls of one call on one thread, and the second the steps of
that call between those of all the others. Both show when they lease, send,
receive and copy.

`Shows` is what is known of the call while the program runs. A part of the program
either leaves it where the next part starts, or sends it back to its caller.
-/

namespace HipObject.Transfers

open HipObject Codec Verification

/-! ### What both models show -/

/-- What the application sees of a call, and the copies that are started. -/
inductive Sight where
  | leased
  | sent (text : List Byte)
  | received
  | copied (copy : Memcpy)

def TransferEvent.sight : TransferEvent → Option Sight
  | .acquired _ => some .leased
  | .sendRequest token _ => some (.sent token)
  | .recvReply _ _ _ => some .received
  | .memcpyAsync _ copy true => some (.copied copy)
  | _ => none

/-- A token is sent as soon as it is there. -/
def sightOf (op : Op) : Effect → Option Sight
  | .leased => some .leased
  | .minted token => some (.sent (encodeRdmaToken token))
  | .sentRequest => none
  | .receivedReply => some .received
  | .startedCopy copy => (op.memcpy copy.hostBuf).map .copied

/-- What a trace shows. -/
def shown (trace : Trace) : List Sight := trace.filterMap TransferEvent.sight

/-- What a call has shown. -/
def shownBy (c : Call) : List Sight := (c.effects.filterMap (sightOf c.op)).reverse

theorem shown_append (t u : Trace) : shown (t ++ u) = shown t ++ shown u := List.filterMap_append

@[simp] theorem shown_concat (t : Trace) (event : TransferEvent) :
    shown (t ++ [event]) = shown t ++ event.sight.toList := by
  rw [shown_append]
  cases hsight : event.sight <;> simp [shown, hsight]

@[simp] theorem shownBy_goto (c : Call) (pc : Pc) : shownBy (c.goto pc) = shownBy c := rfl

@[simp] theorem shownBy_ret (c : Call) (locals : Locals) (result : OpError) :
    shownBy (c.ret locals result) = shownBy c := rfl

@[simp] theorem shownBy_note (c : Call) (effect : Effect) :
    shownBy (c.note effect) = shownBy c ++ (sightOf c.op effect).toList := by
  cases hsight : sightOf c.op effect <;> simp [shownBy, Call.note, hsight]

/-! ### A call of the machine -/

/-- A call in a state that the machine reaches, with what it is, what it has found
and what it has shown. -/
structure Shows (setup : Setup) (id : Nat) (op : Op) (found : Option BufEntry) (sights : List Sight)
    (c : Call) (s : InstanceState) : Prop where
  reached : (instanceMachine setup).Reachable s
  mem : c ∈ s.calls
  id : c.id = id
  op : c.op = op
  found : c.found = found
  sights : shownBy c = sights

/-- The state after a step of a call. -/
abbrev afterStep (s : InstanceState) (c c' : Call) (u : InstanceState) : InstanceState :=
  { u with calls := c' :: s.calls.erase c }

/-- What a call does itself, and what the runtime does. -/
def OwnStep (id : Nat) : InstanceAction → Prop
  | .step c _ => c.id = id
  | .ret c => c.id = id
  | .finishCopy _ => True
  | _ => False

/-- Steps of one call are steps of the machine. -/
theorem leads_of_alone {setup : Setup} {id : Nat} {s t : InstanceState} {c d : Call}
    (h : Alone setup s c t d) (hid : c.id = id) :
    (instanceMachine setup).Leads (OwnStep id) s t := by
  induction h with
  | refl => exact .refl
  | @step s t u c c' d reply mem stepped _ ih =>
      have hstep := instanceStep_step mem stepped
      exact .trans (.single (a := .step c reply) hid hstep)
        (ih ((callStep_anyMoves stepped).id.trans hid))

namespace Shows

variable {setup : Setup} {id : Nat} {op : Op} {found : Option BufEntry} {sights : List Sight}
variable {c c' : Call} {s u : InstanceState} {reply : Reply}

/-- The entry that the call holds is the one it found. -/
theorem entryAt {buf : Nat} (h : Shows setup id op found sights c s)
    (hbuf : c.pc.locals.buf = some buf) : s.entryAt buf = found :=
  ((mapOk_of_reachable h.reached).found c h.mem buf hbuf).trans h.found

/-- The call takes a step. -/
theorem step {sights' : List Sight} (h : Shows setup id op found sights c s)
    (hstep : s.callStep setup c reply = some (c', u)) (hfind : c.pc ≠ .find)
    (hsights : shownBy c' = sights') :
    (instanceMachine setup).Leads (OwnStep id) s (afterStep s c c' u) ∧
      Shows setup id op found sights' c' (afterStep s c c' u) := by
  have htaken := instanceStep_step h.mem hstep
  have hmoves := callStep_anyMoves hstep
  have hfound : c'.found = c.found := hmoves.found.resolve_right hfind
  exact ⟨.single (a := .step c reply) h.id htaken,
    .step (a := .step c reply) h.reached trivial htaken, List.mem_cons_self,
    hmoves.id.trans h.id, hmoves.op.trans h.op, hfound.trans h.found, hsights⟩

/-- The runtime finishes a copy, if it has not. -/
theorem finish {copy : StagingCopy} (h : Shows setup id op found sights c s)
    (hstarted : copy ∈ s.started) :
    ∃ finished, copy ∈ finished ∧
      (instanceMachine setup).Leads (OwnStep id) s { s with finished := finished } ∧
        Shows setup id op found sights c { s with finished := finished } := by
  by_cases hover : copy ∈ s.finished
  · exact ⟨s.finished, hover, .refl, h⟩
  · have hstep : instanceStep setup s (.finishCopy copy) =
        some { s with finished := copy :: s.finished } := if_pos ⟨hstarted, hover⟩
    exact ⟨copy :: s.finished, List.mem_cons_self, .single (a := .finishCopy copy) trivial hstep,
      .step (a := .finishCopy copy) h.reached trivial hstep, h.mem, h.id, h.op, h.found, h.sights⟩

end Shows

/-! ### Where a part of the program leaves the call -/

section Parts

variable {setup : Setup} {id : Nat} {op : Op} {found : Option BufEntry} {sights : List Sight}
variable {c c' : Call} {s u : InstanceState} {reply : Reply} {tr : Trace} {buf : Nat} {next : Pc}
variable {O : Outside} {result : OpError}

/-- The call is leaving, with a result. -/
def Unwinds (c : Call) (result : OpError) : Prop := ∃ locals, c.pc = .unwind locals result

/-- A part that succeeds leaves the call where the next one starts; one that fails
sends it back to its caller. -/
def Goes (setup : Setup) (id : Nat) (op : Op) (found : Option BufEntry) (next : Pc)
    (result : OpError) (trace : Trace) (s : InstanceState) : Prop :=
  ∃ c, Shows setup id op found (shown trace) c s ∧
    if result = .Success then c.pc = next else Unwinds c result

/-- A part that throws. -/
def Throws (setup : Setup) (id : Nat) (op : Op) (found : Option BufEntry) (trace : Trace)
    (s : InstanceState) : Prop :=
  ∃ c more, Shows setup id op found (shown trace ++ more) c s ∧ Unwinds c .InternalError

/-- The part succeeds, and the call takes a step. -/
theorem Shows.succeeds {P : Trace → InstanceState → Prop}
    (h : Shows setup id op found sights c s)
    (hstep : s.callStep setup c reply = some (c', u)) (hfind : c.pc ≠ .find)
    (hsights : shownBy c' = shown tr) (hpc : c'.pc = next) :
    TakesAlong (instanceMachine setup) (OwnStep id) (pure .Success : TransferM OpError) tr s
      (Goes setup id op found next) P := by
  obtain ⟨hleads, hshows⟩ := h.step hstep hfind hsights
  exact .leads hleads (.pure ⟨c', hshows, by rwa [if_pos rfl]⟩)

/-- The part fails, and the call takes a step. -/
theorem Shows.fails {P : Trace → InstanceState → Prop}
    (h : Shows setup id op found sights c s)
    (hstep : s.callStep setup c reply = some (c', u)) (hfind : c.pc ≠ .find)
    (hsights : shownBy c' = shown tr) (hresult : result ≠ .Success) (hpc : Unwinds c' result) :
    TakesAlong (instanceMachine setup) (OwnStep id) (pure result : TransferM OpError) tr s
      (Goes setup id op found next) P := by
  obtain ⟨hleads, hshows⟩ := h.step hstep hfind hsights
  exact .leads hleads (.pure ⟨c', hshows, by rwa [if_neg hresult]⟩)

/-- The part throws, and the call takes a step. -/
theorem Shows.throws {more : List Sight} (h : Shows setup id op found sights c s)
    (hstep : s.callStep setup c reply = some (c', u)) (hfind : c.pc ≠ .find)
    (hsights : shownBy c' = shown tr ++ more) (hpc : Unwinds c' .InternalError) :
    ∃ t, (instanceMachine setup).Leads (OwnStep id) s t ∧ Throws setup id op found tr t := by
  obtain ⟨hleads, hshows⟩ := h.step hstep hfind hsights
  exact ⟨_, hleads, c', more, hshows, hpc⟩

theorem observe_bind {α β : Type} {answer : Trace → Option α} {event : α → TransferEvent}
    {f : α → TransferM β} {M : Machine InstanceState InstanceAction} {own : InstanceAction → Prop}
    {Q : β → Trace → InstanceState → Prop} {E : Trace → InstanceState → Prop}
    (hthrew : ∃ t, M.Leads own s t ∧ E tr t)
    (hok : ∀ a, TakesAlong M own (f a) (tr ++ [event a]) s Q E) :
    TakesAlong M own (observe answer event >>= f) tr s Q E := by
  refine .bind ?_
  unfold TakesAlong Ensures observe
  cases answer tr with
  | none => exact hthrew
  | some a => exact ⟨s, .refl, hok a⟩

end Parts

end HipObject.Transfers
