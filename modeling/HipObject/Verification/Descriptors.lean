import Mathlib.Data.List.Perm.Basic
import Mathlib.Data.List.Nodup
import Mathlib.Logic.Function.Basic

/-!
# File descriptors

A process has a table of open files, indexed by small numbers. Opening takes a
number that is free at that moment, closing frees it, and the next file that is
opened may get the same number. The code only sees numbers, so a number that is
kept for too long can name a file that it was not meant for.

A `Handle` is a number together with the file it was made for. `Accounted` says
that the open files are exactly those of the listed handles, each under a number
of its own, and that nothing was closed that was not open. It is kept by opening
a file, by duplicating a handle and by closing one, whoever they belong to.
-/

namespace HipObject.Verification

/-- An open file under a number. The code has the number; the file is what it
stands for. -/
structure Handle where
  fd : Nat
  file : Nat
  deriving DecidableEq, Repr

structure FdTable where
  files : Nat → Option Nat
  /-- The name of the next file that is opened. -/
  nextFile : Nat
  /-- How many closes were of a number that was not open. -/
  badCloses : Nat

namespace FdTable

variable {table : FdTable} {fd : Nat} {h : Handle} {handles handles' : List Handle}

def empty : FdTable := ⟨fun _ => none, 0, 0⟩

/-- Opens a new file under the free number `fd`. -/
def openNew (table : FdTable) (fd : Nat) : FdTable :=
  { table with
    files := Function.update table.files fd (some table.nextFile)
    nextFile := table.nextFile + 1 }

/-- Opens `file` once more, under the free number `fd`. -/
def install (table : FdTable) (fd file : Nat) : FdTable :=
  { table with files := Function.update table.files fd (some file) }

def close (table : FdTable) (fd : Nat) : FdTable :=
  { table with
    files := Function.update table.files fd none
    badCloses := if table.files fd = none then table.badCloses + 1 else table.badCloses }

/-- The open files are those of `handles`, and no close went wrong. -/
structure Accounted (table : FdTable) (handles : List Handle) : Prop where
  nodup : (handles.map Handle.fd).Nodup
  open_iff : ∀ fd file, table.files fd = some file ↔ ⟨fd, file⟩ ∈ handles
  named : ∀ h ∈ handles, h.file < table.nextFile
  clean : table.badCloses = 0

theorem accounted_empty : Accounted empty [] where
  nodup := List.nodup_nil
  open_iff _ _ := by simp [empty]
  named := by simp
  clean := rfl

theorem Accounted.perm (hbooks : table.Accounted handles) (hperm : handles.Perm handles') :
    table.Accounted handles' where
  nodup := (hperm.map Handle.fd).nodup_iff.mp hbooks.nodup
  open_iff fd file := (hbooks.open_iff fd file).trans hperm.mem_iff
  named h hmem := hbooks.named h (hperm.mem_iff.mpr hmem)
  clean := hbooks.clean

/-- What a handle stands for is what its number names. -/
theorem Accounted.file_eq (hbooks : table.Accounted handles) (hmem : h ∈ handles) :
    table.files h.fd = some h.file :=
  (hbooks.open_iff h.fd h.file).mpr hmem

/-- A free number is nobody's. -/
theorem Accounted.not_mem_fds (hbooks : table.Accounted handles) (hfree : table.files fd = none) :
    fd ∉ handles.map Handle.fd := by
  intro hmem
  obtain ⟨h, hh, rfl⟩ := List.mem_map.mp hmem
  rw [hbooks.file_eq hh] at hfree
  cases hfree

/-- One more handle under a free number, for a file whose name is in use. -/
theorem Accounted.gain {file next : Nat} (hbooks : table.Accounted handles)
    (hfree : table.files fd = none) (hfile : file < next) (hnext : table.nextFile ≤ next) :
    Accounted ⟨Function.update table.files fd (some file), next, table.badCloses⟩
      (⟨fd, file⟩ :: handles) where
  nodup := List.nodup_cons.mpr ⟨hbooks.not_mem_fds hfree, hbooks.nodup⟩
  open_iff fd' file' := by
    by_cases hfd : fd' = fd
    · subst hfd
      have hnone : (⟨fd', file'⟩ : Handle) ∉ handles := by
        intro hmem
        exact hbooks.not_mem_fds hfree (List.mem_map.mpr ⟨_, hmem, rfl⟩)
      simp [hnone, eq_comm]
    · simp [hbooks.open_iff, hfd]
  named h hmem := by
    rcases List.mem_cons.mp hmem with rfl | hmem
    · exact hfile
    · exact Nat.lt_of_lt_of_le (hbooks.named h hmem) hnext
  clean := hbooks.clean

theorem Accounted.openNew (hbooks : table.Accounted handles) (hfree : table.files fd = none) :
    (table.openNew fd).Accounted (⟨fd, table.nextFile⟩ :: handles) :=
  hbooks.gain hfree (Nat.lt_succ_self _) (Nat.le_succ _)

theorem Accounted.install (hbooks : table.Accounted handles) (hfree : table.files fd = none)
    (hmem : h ∈ handles) : (table.install fd h.file).Accounted (⟨fd, h.file⟩ :: handles) :=
  hbooks.gain hfree (hbooks.named h hmem) Nat.le.refl

theorem Accounted.close (hbooks : table.Accounted (h :: handles)) :
    (table.close h.fd).Accounted handles where
  nodup := (List.nodup_cons.mp hbooks.nodup).2
  open_iff fd file := by
    have hfd : h.fd ∉ handles.map Handle.fd := (List.nodup_cons.mp hbooks.nodup).1
    by_cases heq : fd = h.fd
    · subst heq
      have hnone : (⟨h.fd, file⟩ : Handle) ∉ handles := by
        intro hmem
        exact hfd (List.mem_map.mpr ⟨_, hmem, rfl⟩)
      simp [FdTable.close, hnone]
    · have hne : (⟨fd, file⟩ : Handle) ≠ h := by
        rintro rfl
        exact heq rfl
      simp [FdTable.close, Function.update_of_ne heq, hbooks.open_iff, hne]
  named h' hmem := hbooks.named h' (List.mem_cons_of_mem _ hmem)
  clean := by
    have hopen := hbooks.file_eq List.mem_cons_self
    simp [FdTable.close, hopen, hbooks.clean]

end FdTable
end HipObject.Verification
