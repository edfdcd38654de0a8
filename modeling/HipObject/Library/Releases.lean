import HipObject.Buffer.Releases
import HipObject.Library.Transfers
import Mathlib.Data.List.ReduceOption

/-!
# What goes before an instance does

While something refers to an instance, a step releases a memory region of it only
where a call gives up its own, and a queue pair or a completion queue only where
the lease of their connection ends and the connection can't be reset. Nothing else
of it is released by any step.
-/

namespace HipObject

open Verification

variable {T : Type}

/-- What a step releases of an instance that something refers to after it. -/
structure EarlyReleases (lib lib' : LibraryState T) (p : Nat) (a b : Published) : Prop where
  /-- The step is one of a call that deregisters a buffer, or of a registration
  that fails. -/
  regions : ∀ mr ∈ b.state.deregistered, mr ∉ a.state.deregistered →
    ∃ c reply, instanceStep a.setup a.state (.step c reply) = some b.state ∧ GivesUp a.state c mr
  /-- The step is the end of a lease, in `release()`. -/
  resources : ∀ r, .acquired r ∈ a.session.events → .released r ∉ a.session.events →
    .released r ∈ b.session.events → ∃ l ∈ lib.system.leases, ∃ conn answers after,
      l.pool = some p ∧ (lib.system.pools p).connection l.index = some conn ∧
      r ∈ conn.resources a.inst.device.handles ∧
      Discards l conn ⟨answers, a.session.verbsLog, some conn⟩ after ∧
      lib'.system.pools p = (lib.system.pools p).setSlot l.index after.obj

/-! ### Connections of a pool -/

theorem mem_connections_iff {pool : ConnectionPool} {conn : RcConnection} :
    conn ∈ pool.connections ↔ ∃ i, pool.connection i = some conn := by
  rw [ConnectionPool.connections, List.reduceOption_mem_iff, List.mem_iff_getElem?]
  simp only [ConnectionPool.connection, Option.join_eq_some_iff]

theorem connection_congr {pool pool' : ConnectionPool} (h : pool'.slots = pool.slots) (i : Nat) :
    pool'.connection i = pool.connection i := by
  rw [ConnectionPool.connection, h]
  rfl

/-! ### Moves of an instance -/

section Moves

variable {p : Nat} {v w : InstanceView T} {a b : Published}

/-- An instance keeps what it was built with. -/
theorem ViewMove.built (hmove : ViewMove p v w) (hv : v.pub = some a) (hw : w.pub = some b) :
    b.setup = a.setup ∧ b.inst = a.inst := by
  cases hmove with
  | stay pub =>
      obtain rfl : a = b := Option.some.inj (hv.symm.trans (pub.symm.trans hw))
      exact ⟨rfl, rfl⟩
  | publish setup absent => cases absent.symm.trans hv
  | giveBack | close | reset =>
      obtain rfl : a = b := Option.some.inj (hv.symm.trans hw)
      exact ⟨rfl, rfl⟩
  | begin has | step has | ret has | retLast has | lease has | use has | finishCopy has | take has
  | resetLast has =>
      obtain rfl := Option.some.inj (has.symm.trans hv)
      cases hw
      exact ⟨rfl, rfl⟩

theorem ViewMove.regions {mr : Mr} (hlives : Lives v) (hmove : ViewMove p v w)
    (hv : v.pub = some a) (hw : w.pub = some b) (halive : b.state.destroyed = false)
    (hmr : mr ∈ b.state.deregistered) (hnew : mr ∉ a.state.deregistered) :
    ∃ c reply, instanceStep a.setup a.state (.step c reply) = some b.state ∧
      GivesUp a.state c mr := by
  have hreached := (hlives.published a hv).reached
  have hstep : ∀ {action : InstanceAction},
      instanceStep a.setup a.state action = some b.state →
      ∃ c reply, instanceStep a.setup a.state (.step c reply) = some b.state ∧
        GivesUp a.state c mr := by
    intro action hstep
    obtain ⟨c, reply, rfl, hgives⟩ := instanceStep_deregistered hreached hstep halive hmr hnew
    exact ⟨c, reply, hstep, hgives⟩
  cases hmove with
  | stay pub =>
      obtain rfl : a = b := Option.some.inj (hv.symm.trans (pub.symm.trans hw))
      exact absurd hmr hnew
  | publish setup absent => cases absent.symm.trans hv
  | giveBack | close | reset =>
      obtain rfl : a = b := Option.some.inj (hv.symm.trans hw)
      exact absurd hmr hnew
  | begin has current stepped | step has mem stepped | ret has before stepped
  | lease has before acquires stepped | finishCopy has stepped =>
      obtain rfl := Option.some.inj (has.symm.trans hv)
      cases hw
      exact hstep stepped
  | use has | take has =>
      obtain rfl := Option.some.inj (has.symm.trans hv)
      cases hw
      exact absurd hmr hnew
  | retLast has before removed stepped destroyed | resetLast has before removed destroyed =>
      cases hw
      obtain ⟨-, -, -, -, rfl⟩ := instanceStep_destroy_eq destroyed
      cases halive

/-- A connection keeps its objects, or its lease ends and it can't be reset. -/
theorem ViewMove.connection {i : Nat} {conn : RcConnection} (hmove : ViewMove p v w)
    (hv : v.pub = some a) (hconn : v.pool.connection i = some conn) :
    (∃ kept, w.pool.connection i = some kept ∧
      kept.resources a.inst.device.handles = conn.resources a.inst.device.handles) ∨
    ∃ l ∈ v.leases, ∃ answers after, l.index = i ∧
      Discards l conn ⟨answers, a.session.verbsLog, some conn⟩ after ∧
      w.pool = v.pool.setSlot i after.obj := by
  have hsame : ∀ {pool : ConnectionPool}, pool.slots = v.pool.slots →
      ∃ kept, pool.connection i = some kept ∧
        kept.resources a.inst.device.handles = conn.resources a.inst.device.handles :=
    fun hslots => ⟨conn, (connection_congr hslots i).trans hconn, rfl⟩
  cases hmove with
  | stay pub current works pool => exact .inl (hsame (by rw [pool]))
  | publish setup absent => cases absent.symm.trans hv
  | lease has before acquires stepped taken =>
      obtain ⟨-, -, rfl⟩ := ConnectionPool.takeFree_ok taken
      exact .inl (hsame rfl)
  | giveBack usable => exact .inl (hsame (ConnectionPool.giveBack_slots ..))
  | @use a' l l' leases others slot answers rest log has before after key takes keeps =>
      obtain rfl : a' = a := Option.some.inj (has.symm.trans hv)
      have hheld : l ∈ v.leases := before.mem_iff.mpr List.mem_cons_self
      by_cases hindex : l.index = i
      · subst hindex
        rw [hconn] at keeps
        rcases keeps conn rfl with ⟨kept, hkept, hresources⟩ | hdiscards
        · refine .inl ⟨kept, ?_, hresources⟩
          have hlength : l.index < v.pool.slots.length := by
            by_contra hlength
            simp [ConnectionPool.connection, List.getElem?_eq_none (Nat.le_of_not_lt hlength)]
              at hconn
          exact (ConnectionPool.connection_setSlot_self hlength).trans hkept
        · exact .inr ⟨l, hheld, answers, ⟨rest, log, slot⟩, rfl, hdiscards, rfl⟩
      · refine .inl ⟨conn, ?_, rfl⟩
        exact (ConnectionPool.connection_setSlot_ne (Ne.symm hindex)).trans hconn
  | _ => exact .inl (hsame rfl)

/-- What an instance owns before a step and not after it was of a connection that
is discarded. -/
theorem ViewMove.resources {r : Resource} (hmove : ViewMove p v w) (hv : v.pub = some a)
    (howned : r ∈ { a.inst with pool := v.pool }.resources)
    (hgone : r ∉ { a.inst with pool := w.pool }.resources) :
    ∃ l ∈ v.leases, ∃ conn answers after, v.pool.connection l.index = some conn ∧
      r ∈ conn.resources a.inst.device.handles ∧
      Discards l conn ⟨answers, a.session.verbsLog, some conn⟩ after ∧
      w.pool = v.pool.setSlot l.index after.obj := by
  simp only [Instance.resources, List.mem_append, not_or] at howned hgone
  obtain ⟨conn, hmem, hr⟩ := List.mem_flatMap.mp (howned.resolve_right fun h => by tauto)
  obtain ⟨i, hconn⟩ := mem_connections_iff.mp hmem
  rcases hmove.connection hv hconn with ⟨kept, hkept, hsame⟩ | ⟨l, hl, answers, after, rfl, h⟩
  · refine absurd (List.mem_flatMap.mpr ⟨kept, mem_connections_iff.mpr ⟨i, hkept⟩, ?_⟩) hgone.1
    rw [hsame]
    exact hr
  · exact ⟨l, hl, conn, answers, after, hconn, hr, h⟩

end Moves

/-! ### Steps of the library -/

theorem earlyReleases [DecidableEq T] [Fintype T] {lib lib' : LibraryState T}
    {action : LibraryAction T} {p : Nat} {a b : Published}
    (h : (libraryMachine T).Reachable lib) (hstep : libraryStep lib action = some lib')
    (ha : lib.instances p = some a) (hb : lib'.instances p = some b)
    (hheld : lib'.held p = true) : EarlyReleases lib lib' p a b := by
  have hbefore := viewOk_of_reachable h
  have hafter := viewOk_of_reachable (h.step trivial hstep) p
  have hmove : ViewMove p (lib.view p) (lib'.view p) :=
    (libraryStep_move hstep).view (controlOk_of_reachable h)
      (fun q hq => ((hbefore q).lives.absent hq).2.1) p
  have hinst : b.inst = a.inst := (hmove.built ha hb).2
  rw [held_eq] at hheld
  constructor
  · intro mr hmr hnew
    have halive : b.state.destroyed = false := by
      rw [(hafter.lives.published b hb).destroyed, hheld]
      rfl
    exact hmove.regions (hbefore p).lives ha hb halive hmr hnew
  · intro r hacquired hlive hreleased
    have howned : r ∈ { a.inst with pool := lib.system.pools p }.resources := by
      cases hwas : (lib.view p).held with
      | true =>
          have hstocked := (hbefore p).books.stocked a ha hwas
          exact (hstocked.has.holds.live_iff r).mp ⟨hacquired, hlive⟩
      | false =>
          have hempty := (hbefore p).books.emptied a ha hwas
          cases (hempty.holds.live_iff r).mp ⟨hacquired, hlive⟩
    have hgone : r ∉ { a.inst with pool := lib'.system.pools p }.resources := by
      intro hmem
      rw [← hinst] at hmem
      have hstocked := hafter.books.stocked b hb hheld
      exact ((hstocked.has.holds.live_iff r).mpr hmem).2 hreleased
    obtain ⟨l, hl, conn, answers, after, hconn, hr, hdiscards, hpool⟩ :=
      hmove.resources ha howned hgone
    obtain ⟨hmem, hpool'⟩ := List.mem_filter.mp hl
    exact ⟨l, hmem, conn, answers, after, by simpa using hpool', hconn, hr, hdiscards, hpool⟩

end HipObject
