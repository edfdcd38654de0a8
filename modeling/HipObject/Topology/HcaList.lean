import HipObject.Codec.Digits

/-!
# Lists of device names

`hipObjConfig_t::nicHint` is a list of device names with commas between them,
each of which can have spaces and tabs before it. `HcaListIncludes` of
`common/rdma-topology.cpp` takes one field off the front of the list in each
round. `hcaListIncludes_iff` says what it decides in terms of the fields.
-/

namespace HipObject

open Codec

/-- The characters in front of a name that are not part of it. -/
def isBlank (c : Byte) : Bool := c == ascii ' ' || c == ascii '\t'

/-- One field of the list, from its first character that is not blank. A field
with no such character stays as it is. -/
def trimField (hca : List Byte) : List Byte :=
  if hca.all isBlank then hca else hca.dropWhile isBlank

/-- The list up to its first comma, or all of it. -/
def firstField (hcaList : List Byte) : List Byte := hcaList.takeWhile (· != ascii ',')

/-- Whether `hcaList` includes `devName`. -/
def hcaListIncludes (hcaList devName : List Byte) : Bool :=
  if trimField (firstField hcaList) = devName then true
  else if h : (firstField hcaList).length = hcaList.length then false
  else hcaListIncludes (hcaList.drop ((firstField hcaList).length + 1)) devName
termination_by hcaList.length
decreasing_by
  have hle : (firstField hcaList).length ≤ hcaList.length :=
    (List.takeWhile_prefix _).length_le
  rw [List.length_drop]
  omega

/-- The fields of a list, with the blanks in front of them removed. -/
def hcaFields (hcaList : List Byte) : List (List Byte) :=
  (hcaList.splitOn (ascii ',')).map trimField

theorem firstField_eq_self_iff (hcaList : List Byte) :
    (firstField hcaList).length = hcaList.length ↔ ascii ',' ∉ hcaList := by
  constructor
  · intro h hmem
    have heq : firstField hcaList = hcaList :=
      (List.takeWhile_prefix _).eq_of_length h
    have hall := List.takeWhile_eq_self_iff.mp heq _ hmem
    simp at hall
  · intro h
    have heq : firstField hcaList = hcaList := by
      apply List.takeWhile_eq_self_iff.mpr
      intro c hc
      simp only [bne_iff_ne, ne_eq]
      rintro rfl
      exact h hc
    rw [heq]

/-- A list with a comma in it is its first field, the comma, and the rest. -/
theorem firstField_append (hcaList : List Byte) (h : ascii ',' ∈ hcaList) :
    hcaList = firstField hcaList ++
      ascii ',' :: hcaList.drop ((firstField hcaList).length + 1) := by
  induction hcaList with
  | nil => simp at h
  | cons c rest ih =>
      by_cases hc : c = ascii ','
      · subst hc
        simp [firstField]
      · have hrest : ascii ',' ∈ rest := by
          rcases List.mem_cons.mp h with h | h
          · exact absurd h.symm hc
          · exact h
        have hfield : firstField (c :: rest) = c :: firstField rest := by
          simp [firstField, hc]
        rw [hfield]
        simp only [List.length_cons, List.drop_succ_cons, List.cons_append]
        exact congrArg (c :: ·) (ih hrest)

theorem not_mem_firstField (hcaList : List Byte) : ascii ',' ∉ firstField hcaList := by
  intro h
  have := List.mem_takeWhile_imp h
  simp at this

/-- The first field, and the fields of what is left after it. -/
theorem hcaFields_cons (hcaList : List Byte) (h : ascii ',' ∈ hcaList) :
    hcaFields hcaList = trimField (firstField hcaList) ::
      hcaFields (hcaList.drop ((firstField hcaList).length + 1)) := by
  conv_lhs => rw [firstField_append hcaList h]
  unfold hcaFields
  rw [List.splitOn_append_cons_self_of_not_mem (not_mem_firstField hcaList)]
  rfl

theorem hcaFields_of_not_mem (hcaList : List Byte) (h : ascii ',' ∉ hcaList) :
    hcaFields hcaList = [trimField hcaList] := by
  unfold hcaFields
  rw [List.splitOn_eq_singleton h]
  rfl

/-- The loop looks at every field of the list, and at nothing else. -/
theorem hcaListIncludes_iff (hcaList devName : List Byte) :
    hcaListIncludes hcaList devName = true ↔ devName ∈ hcaFields hcaList := by
  fun_induction hcaListIncludes hcaList devName with
  | case1 hcaList hname =>
      -- the first field is the name
      refine iff_of_true rfl ?_
      by_cases h : ascii ',' ∈ hcaList
      · rw [hcaFields_cons hcaList h, hname]
        exact List.mem_cons_self
      · rw [hcaFields_of_not_mem hcaList h, ← hname]
        have heq : firstField hcaList = hcaList :=
          (List.takeWhile_prefix _).eq_of_length ((firstField_eq_self_iff hcaList).mpr h)
        rw [heq]
        exact List.mem_cons_self
  | case2 hcaList hname hlast =>
      have h := (firstField_eq_self_iff hcaList).mp hlast
      have heq : firstField hcaList = hcaList := (List.takeWhile_prefix _).eq_of_length hlast
      rw [hcaFields_of_not_mem hcaList h, List.mem_singleton, ← heq]
      exact iff_of_false (by decide) fun hdev => hname hdev.symm
  | case3 hcaList hname hmore ih =>
      have h : ascii ',' ∈ hcaList := by
        by_contra hnot
        exact hmore ((firstField_eq_self_iff hcaList).mpr hnot)
      rw [ih, hcaFields_cons hcaList h, List.mem_cons]
      constructor
      · exact .inr
      · rintro (rfl | hrest)
        · exact absurd rfl hname
        · exact hrest

end HipObject
