import HipObject.Library.Init

/-!
# The closest NIC

`GetBusIdDistance` counts the characters that two bus ids don't share, after what
they have in common at their start. On known ids it is the distance of a tree
whose nodes are texts, so it is symmetric and meets the triangle inequality.
`GetClosestNicToGpu` takes the first of the NICs at the least distance.

The lengths are those that an `int` can count; a longer id could reach the value
that stands for an unknown one.
-/

namespace HipObject

open Codec Verification

/-! ### Common starts -/

theorem commonLength_comm (a b : List Byte) : commonLength a b = commonLength b a := by
  induction a generalizing b with
  | nil => cases b <;> rfl
  | cons x xs ih =>
      cases b with
      | nil => rfl
      | cons y ys =>
          by_cases hxy : x = y
          · rw [commonLength, commonLength, if_pos hxy, if_pos hxy.symm, ih]
          · rw [commonLength, commonLength, if_neg hxy, if_neg (Ne.symm hxy)]

theorem commonLength_self (a : List Byte) : commonLength a a = a.length := by
  induction a with
  | nil => rfl
  | cons x xs ih => rw [commonLength, if_pos rfl, ih, List.length_cons]

theorem commonLength_le_left (a b : List Byte) : commonLength a b ≤ a.length := by
  induction a generalizing b with
  | nil => cases b <;> exact Nat.le_refl 0
  | cons x xs ih =>
      cases b with
      | nil => exact Nat.zero_le _
      | cons y ys =>
          rw [commonLength]
          split
          · exact Nat.succ_le_succ (ih ys)
          · exact Nat.zero_le _

theorem commonLength_le_right (a b : List Byte) : commonLength a b ≤ b.length :=
  commonLength_comm a b ▸ commonLength_le_left b a

/-- Two texts that share all of both are the same. -/
theorem eq_of_commonLength {a b : List Byte} (ha : commonLength a b = a.length)
    (hb : commonLength a b = b.length) : a = b := by
  induction a generalizing b with
  | nil =>
      have hlen : b.length = 0 := hb.symm.trans ha
      exact (List.length_eq_zero_iff.mp hlen).symm
  | cons x xs ih =>
      cases b with
      | nil => cases ha
      | cons y ys =>
          rw [commonLength] at ha hb
          split at ha
          · rename_i hxy
            rw [if_pos hxy] at hb
            rw [hxy, ih (Nat.succ.inj ha) (Nat.succ.inj hb)]
          · cases ha

/-- What two texts share with a third they share with each other. -/
theorem min_commonLength_le (a b c : List Byte) :
    min (commonLength a b) (commonLength b c) ≤ commonLength a c := by
  induction a generalizing b c with
  | nil => exact (Nat.min_le_left _ _).trans (commonLength_le_left [] b)
  | cons x xs ih =>
      cases b with
      | nil => exact (Nat.min_le_left _ _).trans (Nat.zero_le _)
      | cons y ys =>
          cases c with
          | nil => exact (Nat.min_le_right _ _).trans (Nat.zero_le _)
          | cons z zs =>
              rw [commonLength, commonLength, commonLength]
              by_cases hxy : x = y
              · by_cases hyz : y = z
                · have hshared := ih ys zs
                  rw [if_pos hxy, if_pos hyz, if_pos (hxy.trans hyz)]
                  omega
                · rw [if_neg hyz, Nat.min_zero]
                  exact Nat.zero_le _
              · rw [if_neg hxy, Nat.zero_min]
                exact Nat.zero_le _

/-! ### Bus numbers -/

/-- The part before the last colon. -/
theorem extractBusNumber_append {x y : List Byte} (hy : ascii ':' ∉ y) :
    extractBusNumber (x ++ ascii ':' :: y) = x := by
  have hskip : ∀ c ∈ y.reverse, (c != ascii ':') = true := by
    intro c hc
    rw [bne_iff_ne]
    exact fun h => hy (h ▸ List.mem_reverse.mp hc)
  unfold extractBusNumber
  rw [if_pos (by simp), List.reverse_append, List.reverse_cons, List.append_assoc,
    List.dropWhile_append_of_pos hskip]
  simp

theorem extractBusNumber_of_not_mem {x : List Byte} (hx : ascii ':' ∉ x) :
    extractBusNumber x = x := if_neg hx

/-- A bus number is no longer than its id. -/
theorem length_extractBusNumber_le (x : List Byte) :
    (extractBusNumber x).length ≤ x.length := by
  unfold extractBusNumber
  split
  · rw [List.length_reverse, List.length_drop]
    have hle := (List.dropWhile_suffix (p := (· != ascii ':')) (l := x.reverse)).length_le
    rw [List.length_reverse] at hle
    omega
  · exact Nat.le_refl _

/-! ### The distance -/

section Distance

variable {a b c : List Byte}

/-- The distance of known ids, without the case of equal bus numbers. -/
theorem getBusIdDistance_eq (ha : a ≠ []) (hb : b ≠ []) :
    getBusIdDistance a b =
      ((extractBusNumber a).length : Int) + (extractBusNumber b).length -
        2 * commonLength (extractBusNumber a) (extractBusNumber b) := by
  have hleft := commonLength_le_left (extractBusNumber a) (extractBusNumber b)
  have hright := commonLength_le_right (extractBusNumber a) (extractBusNumber b)
  have hknown : (a.isEmpty || b.isEmpty) = false := by simp [ha, hb]
  unfold getBusIdDistance
  rw [hknown, if_neg Bool.false_ne_true]
  dsimp only
  split
  · rename_i hsame
    rw [hsame, commonLength_self]
    omega
  · omega

theorem getBusIdDistance_comm (ha : a ≠ []) (hb : b ≠ []) :
    getBusIdDistance a b = getBusIdDistance b a := by
  rw [getBusIdDistance_eq ha hb, getBusIdDistance_eq hb ha, commonLength_comm]
  omega

theorem getBusIdDistance_eq_zero_iff (ha : a ≠ []) (hb : b ≠ []) :
    getBusIdDistance a b = 0 ↔ extractBusNumber a = extractBusNumber b := by
  have hleft := commonLength_le_left (extractBusNumber a) (extractBusNumber b)
  have hright := commonLength_le_right (extractBusNumber a) (extractBusNumber b)
  rw [getBusIdDistance_eq ha hb]
  constructor
  · intro hzero
    exact eq_of_commonLength (by omega) (by omega)
  · intro hsame
    rw [hsame, commonLength_self]
    omega

theorem getBusIdDistance_triangle (ha : a ≠ []) (hb : b ≠ []) (hc : c ≠ []) :
    getBusIdDistance a c ≤ getBusIdDistance a b + getBusIdDistance b c := by
  have hshared := min_commonLength_le (extractBusNumber a) (extractBusNumber b) (extractBusNumber c)
  have hab := commonLength_le_right (extractBusNumber a) (extractBusNumber b)
  have hbc := commonLength_le_left (extractBusNumber b) (extractBusNumber c)
  rw [getBusIdDistance_eq ha hc, getBusIdDistance_eq ha hb, getBusIdDistance_eq hb hc]
  omega

/-- An id is at the distance that stands for an unknown one only if one is unknown. -/
theorem getBusIdDistance_eq_intMax_iff (hsmall : a.length + b.length < 2147483647) :
    getBusIdDistance a b = intMax ↔ a = [] ∨ b = [] := by
  constructor
  · intro hmax
    by_contra hknown
    obtain ⟨ha, hb⟩ := not_or.mp hknown
    have hla := length_extractBusNumber_le a
    have hlb := length_extractBusNumber_le b
    rw [getBusIdDistance_eq ha hb] at hmax
    unfold intMax at hmax
    omega
  · intro hunknown
    have hempty : (a.isEmpty || b.isEmpty) = true := by simpa using hunknown
    unfold getBusIdDistance
    rw [hempty, if_pos rfl]

end Distance

/-! ### The choice -/

section Choice

variable {distance : NicInfo → Int} {nics : List NicInfo} {best : Nat × NicInfo}

/-- The first of the NICs at the least distance, with its index. -/
structure Leftmost (distance : NicInfo → Int) (nics : List NicInfo) (best : Nat × NicInfo) :
    Prop where
  listed : nics[best.1]? = some best.2
  least : ∀ nic ∈ nics, distance best.2 ≤ distance nic
  first : ∀ k nic, k < best.1 → nics[k]? = some nic → distance best.2 < distance nic

theorem Leftmost.singleton (distance : NicInfo → Int) (nic : NicInfo) :
    Leftmost distance [nic] (0, nic) where
  listed := rfl
  least := by simp
  first := fun k _ hk _ => absurd hk (Nat.not_lt_zero k)

/-- One more NIC replaces the first of the closest only if it is closer. -/
theorem Leftmost.snoc (h : Leftmost distance nics best) (nic : NicInfo) :
    Leftmost distance (nics ++ [nic])
      (if distance nic < distance best.2 then (nics.length, nic) else best) := by
  have hbound : best.1 < nics.length := (List.getElem?_eq_some_iff.mp h.listed).1
  split
  · rename_i hcloser
    refine ⟨by simp, ?_, ?_⟩
    · intro other hother
      rcases List.mem_append.mp hother with hother | hother
      · exact (Int.le_of_lt hcloser).trans (h.least other hother)
      · exact (List.mem_singleton.mp hother) ▸ Int.le_refl _
    · intro k other hk hget
      rw [List.getElem?_append_left hk] at hget
      exact Int.lt_of_lt_of_le hcloser (h.least other (List.mem_of_getElem? hget))
  · rename_i hfarther
    refine ⟨by rw [List.getElem?_append_left hbound]; exact h.listed, ?_, ?_⟩
    · intro other hother
      rcases List.mem_append.mp hother with hother | hother
      · exact h.least other hother
      · rw [List.mem_singleton.mp hother]
        exact Int.not_lt.mp hfarther
    · intro k other hk hget
      rw [List.getElem?_append_left (hk.trans hbound)] at hget
      exact h.first k other hk hget

/-- The loop keeps the first of the closest of the NICs it has seen. -/
theorem Leftmost.minElement (h : Leftmost distance nics best) (rest : List NicInfo) :
    Leftmost distance (nics ++ rest) (minElement distance rest nics.length best) := by
  induction rest generalizing nics best with
  | nil =>
      rw [List.append_nil]
      exact h
  | cons nic rest ih =>
      have hnext := ih (h.snoc nic)
      rw [List.append_assoc, List.length_append, List.length_singleton] at hnext
      exact hnext

/-- No NIC is chosen exactly if one of the two ids is always unknown; the NIC that
is chosen is the first of the closest, and its id is known. -/
theorem closestNic_spec (gpuBus : List Byte) (nics : List NicInfo)
    (hsmall : ∀ nic ∈ nics, nic.pcieBusId.length + gpuBus.length < 2147483647) :
    (closestNic gpuBus nics = none ↔ gpuBus = [] ∨ ∀ nic ∈ nics, nic.pcieBusId = []) ∧
    ∀ chosen, closestNic gpuBus nics = some chosen → ∃ (i : Nat) (nic : NicInfo),
      nics[i]? = some nic ∧ chosen = ⟨i, nic.devName⟩ ∧ nic.pcieBusId ≠ [] ∧
      Leftmost (fun nic => getBusIdDistance nic.pcieBusId gpuBus) nics (i, nic) := by
  cases nics with
  | nil =>
      refine ⟨by simp [closestNic], ?_⟩
      intro chosen hchosen
      cases hchosen
  | cons nic rest =>
      have hbest := (Leftmost.singleton
        (fun nic => getBusIdDistance nic.pcieBusId gpuBus) nic).minElement rest
      rw [List.singleton_append, List.length_singleton] at hbest
      unfold closestNic
      dsimp only
      generalize minElement (fun nic => getBusIdDistance nic.pcieBusId gpuBus) rest 1 (0, nic) =
        best at hbest ⊢
      have hmem : best.2 ∈ nic :: rest := List.mem_of_getElem? hbest.listed
      have hmax := getBusIdDistance_eq_intMax_iff (hsmall best.2 hmem)
      split
      · rename_i hunknown
        refine ⟨iff_of_true rfl ?_, by simp⟩
        by_contra hknown
        obtain ⟨hgpu, hnics⟩ := not_or.mp hknown
        push Not at hnics
        obtain ⟨other, hother, hid⟩ := hnics
        -- a known id is closer than one that is not known
        have hle : getBusIdDistance best.2.pcieBusId gpuBus ≤
            getBusIdDistance other.pcieBusId gpuBus := hbest.least other hother
        have hlt : getBusIdDistance other.pcieBusId gpuBus < intMax := by
          have hla := length_extractBusNumber_le other.pcieBusId
          have hlb := length_extractBusNumber_le gpuBus
          have hfits := hsmall other hother
          rw [getBusIdDistance_eq hid hgpu]
          unfold intMax
          omega
        omega
      · rename_i hknown
        have hids := not_or.mp (mt hmax.mpr hknown)
        refine ⟨iff_of_false (by simp) ?_, ?_⟩
        · rintro (hgpu | hall)
          · exact hids.2 hgpu
          · exact hids.1 (hall _ hmem)
        · intro chosen hchosen
          cases hchosen
          exact ⟨best.1, best.2, hbest.listed, rfl, hids.1, hbest⟩

end Choice

/-! ### On a platform -/

section Platform

variable {P : Platform} {enumerate : Enumerate} {gpuIndex : Int} {hcaList : List Byte}
variable {s t : Session} {nics : List NicInfo} {busId : Vector Byte kPciBusIdBufLen}

theorem length_busIdText_le (busId : Vector Byte kPciBusIdBufLen) :
    (busIdText busId).length ≤ kPciBusIdBufLen := by
  have hle := (List.takeWhile_sublist (fun c : Byte => decide (c ≠ 0))
    (l := busId.toList)).length_le
  rwa [Vector.length_toList] at hle

/-- The NICs are not enumerated for a GPU whose id can't be read. -/
theorem getClosestNicToGpu_unread (hbus : P.deviceGetPCIBusId gpuIndex = none) :
    getClosestNicToGpu P enumerate gpuIndex hcaList s =
      .ok none (s.log (.deviceGetPCIBusId gpuIndex)) := by
  have hrun : Ensures (getClosestNicToGpu P enumerate gpuIndex hcaList) s
      (fun r u => r = none ∧ u = s.log (.deviceGetPCIBusId gpuIndex)) (fun _ => False) := by
    refine query_bind ?_
    rw [hbus]
    exact ⟨rfl, rfl⟩
  obtain ⟨r, u, hru, rfl, rfl⟩ := hrun.exists_ok
  exact hru

theorem getClosestNicToGpu_read (hbus : P.deviceGetPCIBusId gpuIndex = some busId)
    (henumerate : enumerate hcaList (s.log (.deviceGetPCIBusId gpuIndex)) = .ok nics t) :
    getClosestNicToGpu P enumerate gpuIndex hcaList s =
      .ok (closestNic (busIdText busId) nics) t := by
  have hrun : Ensures (getClosestNicToGpu P enumerate gpuIndex hcaList) s
      (fun r u => r = closestNic (busIdText busId) nics ∧ u = t) (fun _ => False) := by
    refine query_bind ?_
    rw [hbus]
    exact Ensures.bind_ok henumerate ⟨rfl, rfl⟩
  obtain ⟨r, u, hru, rfl, rfl⟩ := hrun.exists_ok
  exact hru

end Platform

/-- For every list of NICs with any bus ids and every buffer that HIP leaves, no
NIC is returned if and only if the GPU's id can't be read or is empty or no NIC's
id is known; else it is the first of the closest ones, with its index and its
name. On known ids the distance is symmetric, zero exactly for equal bus numbers,
and meets the triangle inequality. -/
theorem getClosestNicToGpu_correct :
    (∀ (P : Platform) (enumerate : Enumerate) (gpuIndex : Int) (hcaList : List Byte)
      (s t : Session) (nics : List NicInfo),
      enumerate hcaList (s.log (.deviceGetPCIBusId gpuIndex)) = .ok nics t →
      (∀ nic ∈ nics, nic.pcieBusId.length + kPciBusIdBufLen < 2147483647) →
      ∃ r u, getClosestNicToGpu P enumerate gpuIndex hcaList s = .ok r u ∧
        (r = none ↔ P.deviceGetPCIBusId gpuIndex = none ∨
          (∃ busId, P.deviceGetPCIBusId gpuIndex = some busId ∧ busIdText busId = []) ∨
          ∀ nic ∈ nics, nic.pcieBusId = []) ∧
        ∀ chosen, r = some chosen → ∃ busId, ∃ (i : Nat) (nic : NicInfo),
          P.deviceGetPCIBusId gpuIndex = some busId ∧ nics[i]? = some nic ∧
          chosen = ⟨i, nic.devName⟩ ∧ nic.pcieBusId ≠ [] ∧
          (∀ other ∈ nics, getBusIdDistance nic.pcieBusId (busIdText busId) ≤
            getBusIdDistance other.pcieBusId (busIdText busId)) ∧
          ∀ (k : Nat) (other : NicInfo), k < i → nics[k]? = some other →
            getBusIdDistance nic.pcieBusId (busIdText busId) <
              getBusIdDistance other.pcieBusId (busIdText busId)) ∧
    (∀ a b : List Byte, a ≠ [] → b ≠ [] → getBusIdDistance a b = getBusIdDistance b a ∧
      (getBusIdDistance a b = 0 ↔ extractBusNumber a = extractBusNumber b) ∧
      ∀ c : List Byte, c ≠ [] →
        getBusIdDistance a c ≤ getBusIdDistance a b + getBusIdDistance b c) ∧
    (∀ x y : List Byte, ascii ':' ∉ y → extractBusNumber (x ++ ascii ':' :: y) = x ∧
      extractBusNumber y = y) := by
  refine ⟨?_, ?_, fun x y hy => ⟨extractBusNumber_append hy, extractBusNumber_of_not_mem hy⟩⟩
  · intro P enumerate gpuIndex hcaList s t nics henumerate hsmall
    cases hbus : P.deviceGetPCIBusId gpuIndex with
    | none =>
        refine ⟨none, _, getClosestNicToGpu_unread hbus, iff_of_true rfl (.inl rfl), ?_⟩
        intro chosen hchosen
        cases hchosen
    | some busId =>
        obtain ⟨hnone, hsome⟩ := closestNic_spec (busIdText busId) nics fun nic hnic =>
          (Nat.add_le_add_left (length_busIdText_le busId) _).trans_lt (hsmall nic hnic)
        refine ⟨_, _, getClosestNicToGpu_read hbus henumerate, ?_, ?_⟩
        · rw [hnone]
          simp
        · intro chosen hchosen
          obtain ⟨i, nic, hget, heq, hknown, hbest⟩ := hsome chosen hchosen
          exact ⟨busId, i, nic, rfl, hget, heq, hknown, hbest.least, hbest.first⟩
  · intro a b ha hb
    exact ⟨getBusIdDistance_comm ha hb, getBusIdDistance_eq_zero_iff ha hb,
      fun c hc => getBusIdDistance_triangle ha hb hc⟩

/-- A bus id that fills its buffer, so that there is no NUL behind it. -/
def fullBusId : Vector Byte kPciBusIdBufLen :=
  ((.replicate kPciBusIdBufLen 51 : Vector Byte kPciBusIdBufLen).set 0 49 (by decide)).set 1 58
    (by decide)

def fullBusIdPlatform : Platform :=
  { oneGid 0 0 with deviceGetPCIBusId := fun _ => some fullBusId }

/-- Two NICs with the same known id behind one whose id is not known. -/
def threeNics : List NicInfo :=
  [⟨[97], [], 0, 1⟩, ⟨[98], [49, 58, 51], 0, 1⟩, ⟨[99], [49, 58, 52], 0, 1⟩]

/-- The first of the two is chosen. -/
theorem threeNics_second :
    ∃ r u,
      getClosestNicToGpu fullBusIdPlatform (fun _ => pure threeNics) 0 [] (.start []) = .ok r u ∧
      r ≠ none ∧ ∀ chosen, r = some chosen → chosen ≠ ⟨2, [99]⟩ := by
  obtain ⟨r, u, hru, hnone, hsome⟩ := getClosestNicToGpu_correct.1 fullBusIdPlatform
    (fun _ => pure threeNics) 0 [] (.start []) _ threeNics rfl (by decide)
  refine ⟨r, u, hru, ?_, ?_⟩
  · rw [Ne, hnone]
    rintro (hunread | ⟨busId, hread, hempty⟩ | hunknown)
    · cases hunread
    · obtain rfl : fullBusId = busId := Option.some.inj hread
      revert hempty
      decide
    · exact absurd (hunknown ⟨[98], [49, 58, 51], 0, 1⟩ (by decide)) (by decide)
  · rintro chosen hchosen rfl
    obtain ⟨busId, i, nic, hread, hget, heq, -, -, hfirst⟩ := hsome _ hchosen
    obtain rfl : fullBusId = busId := Option.some.inj hread
    obtain rfl : i = 2 := by
      have hindex : (2 : Int) = i := congrArg RdmaNic.index heq
      omega
    cases hget
    exact absurd (hfirst 1 ⟨[98], [49, 58, 51], 0, 1⟩ (by decide) rfl) (by decide)

end HipObject
