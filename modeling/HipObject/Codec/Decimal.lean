import HipObject.Codec.Digits
import Mathlib.Data.Nat.Digits.Defs

/-!
# Decimal texts

`toDecimal` prints an integer as `std::to_string` does, and `parseNumber` in
base ten reads a printed natural number back. A minus sign is not a digit, so
the text of a negative number is never read as an unsigned one.
-/

namespace HipObject.Codec

/-- A decimal digit. -/
def IsDecimalDigit (c : Byte) : Prop := ascii '0' ≤ c ∧ c ≤ ascii '9'

instance (c : Byte) : Decidable (IsDecimalDigit c) := inferInstanceAs (Decidable (_ ∧ _))

/-- The number that decimal digits spell. -/
def decimalValue (text : List Byte) : Nat := ofDigits 10 (text.map fun c => c.toNat - 48)

theorem digitValue_ten (c : Byte) :
    digitValue 10 c = if IsDecimalDigit c then some (c.toNat - 48) else none := by
  revert c
  apply forall_byte
  decide +kernel

theorem isSome_digitValue_ten (c : Byte) : (digitValue 10 c).isSome ↔ IsDecimalDigit c := by
  rw [digitValue_ten]
  split <;> simp_all

theorem filterMap_digitValue_ten {text : List Byte} (h : ∀ c ∈ text, IsDecimalDigit c) :
    text.filterMap (digitValue 10) = text.map fun c => c.toNat - 48 := by
  induction text with
  | nil => rfl
  | cons c cs ih =>
      have hc : digitValue 10 c = some (c.toNat - 48) := by
        rw [digitValue_ten, if_pos (h c (by simp))]
      simp only [List.filterMap_cons, hc, List.map_cons]
      rw [ih fun d hd => h d (by simp [hd])]

/-- A text is read in base ten exactly when it is a run of decimal digits whose
value fits the type. -/
theorem parseNumber_ten_eq_some_iff {w : Nat} {text : List Byte} {value : BitVec w} :
    parseNumber w text 10 = some value ↔
      text ≠ [] ∧ (∀ c ∈ text, IsDecimalDigit c) ∧ decimalValue text = value.toNat := by
  rw [parseNumber_eq_some_iff (by decide) (by decide)]
  simp only [isSome_digitValue_ten]
  refine and_congr_right fun _ => and_congr_right fun hdigits => ?_
  rw [filterMap_digitValue_ten hdigits, decimalValue]

/-- The decimal digits of a natural number, without leading zeros. -/
def natToDecimal (n : Nat) : List Byte :=
  if n = 0 then [ascii '0'] else (Nat.digits 10 n).reverse.map fun d => BitVec.ofNat 8 (48 + d)

/-- `std::to_string` of an integer. -/
def toDecimal (n : Int) : List Byte :=
  if n < 0 then ascii '-' :: natToDecimal n.natAbs else natToDecimal n.natAbs

/-- Digits printed one by one are read one by one. -/
theorem toNat_decimalDigit {d : Nat} (hd : d < 10) :
    IsDecimalDigit (BitVec.ofNat 8 (48 + d)) ∧ (BitVec.ofNat 8 (48 + d)).toNat - 48 = d := by
  interval_cases d <;> decide

theorem natToDecimal_digits (n : Nat) : ∀ c ∈ natToDecimal n, IsDecimalDigit c := by
  intro c hc
  rw [natToDecimal] at hc
  split at hc
  · simp only [List.mem_singleton] at hc
    subst hc
    decide
  · obtain ⟨d, hd, rfl⟩ := List.mem_map.mp hc
    exact (toNat_decimalDigit (Nat.digits_lt_base (by decide) (List.mem_reverse.mp hd))).1

theorem ofDigits_reverse (base : Nat) (digits : List Nat) :
    ofDigits base digits.reverse = Nat.ofDigits base digits := by
  rw [ofDigits, List.foldl_reverse]
  induction digits with
  | nil => rfl
  | cons d ds ih =>
      rw [List.foldr_cons, ih, Nat.ofDigits_cons]
      ring

/-- A printed natural number spells itself. -/
theorem decimalValue_natToDecimal (n : Nat) : decimalValue (natToDecimal n) = n := by
  rw [natToDecimal]
  split
  · rename_i hzero
    subst hzero
    decide
  · have hdigits : ((Nat.digits 10 n).reverse.map fun d => BitVec.ofNat 8 (48 + d)).map
        (fun c : Byte => c.toNat - 48) = (Nat.digits 10 n).reverse := by
      rw [List.map_map]
      conv_rhs => rw [← List.map_id (Nat.digits 10 n).reverse]
      apply List.map_congr_left
      intro d hd
      exact (toNat_decimalDigit (Nat.digits_lt_base (by decide) (List.mem_reverse.mp hd))).2
    rw [decimalValue, hdigits, ofDigits_reverse, Nat.ofDigits_digits]

/-- A number that fits is read back. -/
theorem parseNumber_toDecimal {w n : Nat} (h : n < 2 ^ w) :
    parseNumber w (toDecimal n) 10 = some (BitVec.ofNat w n) := by
  have htext : toDecimal n = natToDecimal n := by simp [toDecimal]
  rw [htext, parseNumber_ten_eq_some_iff]
  refine ⟨?_, natToDecimal_digits n, ?_⟩
  · rw [natToDecimal]
    split
    · simp
    · rename_i hn
      simp [Nat.digits_ne_nil_iff_ne_zero.mpr hn]
  · rw [decimalValue_natToDecimal, BitVec.toNat_ofNat, Nat.mod_eq_of_lt h]

/-- A printed integer that reads as an unsigned number is that number. -/
theorem eq_of_parseNumber_toDecimal {w : Nat} {n : Int} {value : BitVec w}
    (h : parseNumber w (toDecimal n) 10 = some value) : n = value.toNat := by
  obtain ⟨-, hdigits, hvalue⟩ := parseNumber_ten_eq_some_iff.mp h
  rw [toDecimal] at hdigits hvalue
  split at hdigits
  · exact absurd (hdigits (ascii '-') (by simp)) (by decide)
  · rename_i hnonneg
    rw [if_neg hnonneg, decimalValue_natToDecimal] at hvalue
    omega

/-- A character that is neither a digit nor a minus sign is not printed. -/
theorem not_mem_toDecimal {n : Int} {c : Byte} (hdigit : ¬ IsDecimalDigit c)
    (hsign : c ≠ ascii '-') : c ∉ toDecimal n := by
  intro hc
  rw [toDecimal] at hc
  split at hc
  · rcases List.mem_cons.mp hc with hc | hc
    · exact hsign hc
    · exact hdigit (natToDecimal_digits _ c hc)
  · exact hdigit (natToDecimal_digits _ c hc)

end HipObject.Codec
