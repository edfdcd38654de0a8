import HipObject.Topology.Platform
import Mathlib.Data.List.Range

/-!
# Choosing a GID

The preferred entry of a GID table, as `PickBestGid` of
`common/rdma-topology.cpp` finds it: unconfigured entries and entries of an
unknown RoCE version are skipped, the highest priority wins, and ties keep the
earliest entry.
-/

namespace HipObject

open Codec

/-- How much an entry of the GID table is preferred. -/
inductive GidPriority where
  | Unknown
  | RoceV1LinkLocal
  | RoceV1Global
  | RoceV2LinkLocal
  | RoceV2Global
  | RoceV2Ipv4
  deriving DecidableEq, Repr

/-- Higher values are more preferred. -/
def GidPriority.value : GidPriority → Int
  | .Unknown => -1
  | .RoceV1LinkLocal => 0
  | .RoceV1Global => 1
  | .RoceV2LinkLocal => 2
  | .RoceV2Global => 3
  | .RoceV2Ipv4 => 5

theorem GidPriority.unknown_le (prio : GidPriority) : GidPriority.Unknown.value ≤ prio.value := by
  cases prio <;> decide

theorem GidPriority.unknown_lt_iff (prio : GidPriority) :
    GidPriority.Unknown.value < prio.value ↔ prio ≠ .Unknown := by
  cases prio <;> decide

def isConfiguredGid (gid : Gid) : Bool := gid != .replicate 16 0

/-- The first two bytes of a link-local IPv6 address. -/
def kLinkLocalPrefix : List Byte := [0xfe, 0x80]

def linkLocalGid (gid : Gid) : Bool := gid.toList.take kLinkLocalPrefix.length == kLinkLocalPrefix

/-- The first 12 bytes of an IPv4-mapped IPv6 address. -/
def kIpv4MappedPrefix : List Byte := [0, 0, 0, 0, 0, 0, 0, 0, 0, 0, 0xff, 0xff]

def isIpv4MappedGid (gid : Gid) : Bool :=
  gid.toList.take kIpv4MappedPrefix.length == kIpv4MappedPrefix

def classifyGid (gid : Gid) : RoceVersion → GidPriority
  | .V2 =>
      if isIpv4MappedGid gid then .RoceV2Ipv4
      else if linkLocalGid gid then .RoceV2LinkLocal
      else .RoceV2Global
  | .V1 => if linkLocalGid gid then .RoceV1LinkLocal else .RoceV1Global
  | .Unknown => .Unknown

/-- One GID table entry as read from the device. -/
structure GidCandidate where
  index : Int
  gid : Gid
  roceVersion : RoceVersion

/-- One round of the loop over the candidates. -/
def pickStep (best : Option Int × GidPriority) (c : GidCandidate) : Option Int × GidPriority :=
  if !isConfiguredGid c.gid then best
  else
    let prio := classifyGid c.gid c.roceVersion
    if prio ≠ .Unknown ∧ (best.1 = none ∨ best.2.value < prio.value) then (some c.index, prio)
    else best

def pickBestGid (candidates : List GidCandidate) : Option Int :=
  (candidates.foldl pickStep (none, .Unknown)).1

/-! ### The choice from a table -/

/-- A GID table: its entries, where an entry that can't be read is missing, and
the RoCE version that is reported for each. -/
structure GidTable where
  gid : Int → Option Gid
  roceVersion : Int → RoceVersion

namespace GidTable

variable (table : GidTable)

/-- The priority of an entry: unknown for one that can't be read, is not
configured, or has an unknown version. -/
def priority (index : Int) : GidPriority :=
  match table.gid index with
  | none => .Unknown
  | some gid => if isConfiguredGid gid then classifyGid gid (table.roceVersion index) else .Unknown

/-- The candidate that an entry is, if it is configured. -/
def candidate (index : Int) : Option GidCandidate :=
  match table.gid index with
  | none => none
  | some gid =>
      if isConfiguredGid gid then some ⟨index, gid, table.roceVersion index⟩ else none

/-- The candidates among the first `len` entries. -/
def candidates (len : Nat) : List GidCandidate :=
  (List.range len).filterMap fun i : Nat => table.candidate i

theorem candidates_succ (len : Nat) :
    table.candidates (len + 1) = table.candidates len ++ (table.candidate len).toList := by
  unfold candidates
  rw [List.range_succ, List.filterMap_append, List.filterMap_cons, List.filterMap_nil]
  cases table.candidate len <;> rfl

/-- What the loop knows after the first `len` entries: the earliest of those with
the highest priority, if that is a known one. -/
inductive Picked (len : Nat) : Option Int × GidPriority → Prop where
  | nothing (h : ∀ j : Nat, j < len → table.priority j = .Unknown) : Picked len (none, .Unknown)
  | entry (i : Nat) (hi : i < len) (hknown : table.priority i ≠ .Unknown)
      (hbefore : ∀ j : Nat, j < i → (table.priority j).value < (table.priority i).value)
      (hbest : ∀ j : Nat, j < len → (table.priority j).value ≤ (table.priority i).value) :
      Picked len (some (i : Int), table.priority i)

variable {table}

/-- An entry that does not win leaves the choice as it is. -/
theorem Picked.keep {len : Nat} {best : Option Int × GidPriority} (h : Picked table len best)
    (hlost : (table.priority len).value ≤ best.2.value) : Picked table (len + 1) best := by
  cases h with
  | nothing h =>
      refine .nothing ?_
      intro j hj
      rcases Nat.lt_succ_iff_lt_or_eq.mp hj with hj | rfl
      · exact h j hj
      · by_contra hknown
        exact absurd hlost (Int.not_le.mpr ((GidPriority.unknown_lt_iff _).mpr hknown))
  | entry i hi hknown hbefore hbest =>
      refine .entry i (by omega) hknown hbefore ?_
      intro j hj
      rcases Nat.lt_succ_iff_lt_or_eq.mp hj with hj | rfl
      · exact hbest j hj
      · exact hlost

/-- An entry that wins is better than all before it. -/
theorem Picked.replace {len : Nat} {best : Option Int × GidPriority} (h : Picked table len best)
    (hwon : best.2.value < (table.priority len).value) :
    Picked table (len + 1) (some (len : Int), table.priority len) := by
  have hbefore : ∀ j : Nat, j < len →
      (table.priority j).value < (table.priority len).value := by
    intro j hj
    cases h with
    | nothing h =>
        rw [h j hj]
        exact hwon
    | entry i hi hknown hbefore hbest => exact Int.lt_of_le_of_lt (hbest j hj) hwon
  have hknown : table.priority len ≠ .Unknown :=
    (GidPriority.unknown_lt_iff _).mp (Int.lt_of_le_of_lt (GidPriority.unknown_le _) hwon)
  refine .entry len (Nat.lt_succ_self len) hknown hbefore ?_
  intro j hj
  rcases Nat.lt_succ_iff_lt_or_eq.mp hj with hj | rfl
  · exact Int.le_of_lt (hbefore j hj)
  · exact Int.le_refl _

variable (table)

theorem picked (len : Nat) :
    Picked table len ((table.candidates len).foldl pickStep (none, .Unknown)) := by
  induction len with
  | zero => exact .nothing fun j hj => absurd hj (Nat.not_lt_zero j)
  | succ len ih =>
      rw [candidates_succ, List.foldl_append]
      generalize (table.candidates len).foldl pickStep (none, .Unknown) = best at ih
      have hlow : table.candidate len = none → table.priority len = .Unknown := by
        unfold candidate priority
        cases table.gid len with
        | none => simp
        | some gid => cases hgid : isConfiguredGid gid <;> simp [hgid]
      cases hcand : table.candidate len with
      | none =>
          refine ih.keep ?_
          rw [hlow hcand]
          exact GidPriority.unknown_le _
      | some c =>
          have hc : isConfiguredGid c.gid = true ∧ c.index = len ∧
              classifyGid c.gid c.roceVersion = table.priority len := by
            unfold candidate at hcand
            cases hgid : table.gid len with
            | none => simp [hgid] at hcand
            | some gid =>
                cases hconf : isConfiguredGid gid with
                | false => simp [hgid, hconf] at hcand
                | true =>
                    simp only [hgid, hconf, if_true, Option.some.injEq] at hcand
                    subst hcand
                    simp [hconf, priority, hgid]
          obtain ⟨hconf, hindex, hprio⟩ := hc
          simp only [Option.toList_some, List.foldl_cons, List.foldl_nil, pickStep, hconf,
            Bool.not_true, Bool.false_eq_true, if_false, hindex, hprio]
          split
          · rename_i hwins
            refine ih.replace ?_
            rcases hwins.2 with hnone | hlt
            · cases ih with
              | nothing _ => exact (GidPriority.unknown_lt_iff _).mpr hwins.1
              | entry i _ _ _ _ => cases hnone
            · exact hlt
          · rename_i hloses
            refine ih.keep ?_
            by_contra hlt
            have hlt := Int.lt_of_not_ge hlt
            refine hloses ⟨?_, .inr hlt⟩
            exact (GidPriority.unknown_lt_iff _).mp
              (Int.lt_of_le_of_lt (GidPriority.unknown_le _) hlt)

end GidTable

end HipObject
