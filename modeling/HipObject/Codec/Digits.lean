import HipObject.Codec.LittleEndian
import Mathlib.Data.List.TakeWhile
import Mathlib.Tactic.IntervalCases

/-!
# Strict parsing of unsigned numbers, and hexadecimal bytes

`fromChars` follows `std::from_chars` for an unsigned type: it matches the
longest run of digits of the base, without a sign, a prefix or blanks, and
reports an error when there is no digit or when the value does not fit.
`parseNumber` accepts a text only when the whole of it was matched.

A byte is written as two lowercase hexadecimal digits. `parsePairs` reads a
text two characters at a time, and accepts it exactly when every character is
a hexadecimal digit of either case; writing the result gives the text back in
lowercase.
-/

namespace HipObject.Codec

/-- The byte of an ASCII character. -/
def ascii (c : Char) : Byte := BitVec.ofNat 8 c.toNat

/-- The value of `c` as a digit of `base`, with letters of either case standing
for 10 and up. -/
def digitValue (base : Nat) (c : Byte) : Option Nat :=
  let value :=
    if ascii '0' ≤ c ∧ c ≤ ascii '9' then some (c.toNat - 48)
    else if ascii 'a' ≤ c ∧ c ≤ ascii 'z' then some (c.toNat - 87)
    else if ascii 'A' ≤ c ∧ c ≤ ascii 'Z' then some (c.toNat - 55)
    else none
  value.filter (· < base)

/-- The number that digits stand for, most significant first. -/
def ofDigits (base : Nat) (digits : List Nat) : Nat :=
  digits.foldl (fun acc d => acc * base + d) 0

/-- What `std::from_chars` reports: no match, a value that does not fit in the
type, or a value and the characters after the match. -/
inductive FromChars (w : Nat) where
  | invalidArgument
  | resultOutOfRange
  | matched (value : BitVec w) (rest : List Byte)
  deriving DecidableEq

/-- `std::from_chars` into an unsigned type of `w` bits. -/
def fromChars (w base : Nat) (text : List Byte) : FromChars w :=
  let digits := text.takeWhile fun c => (digitValue base c).isSome
  let value := ofDigits base (digits.filterMap (digitValue base))
  if digits = [] then .invalidArgument
  else if 2 ^ w ≤ value then .resultOutOfRange
  else .matched (BitVec.ofNat w value) (text.drop digits.length)

def kMinNumberBase : Nat := 2
def kMaxNumberBase : Nat := 36

/-- All of `text` as an unsigned number of `w` bits. -/
def parseNumber (w : Nat) (text : List Byte) (base : Nat) : Option (BitVec w) :=
  if text = [] ∨ base < kMinNumberBase ∨ kMaxNumberBase < base then none
  else match fromChars w base text with
    | .matched value [] => some value
    | _ => none

/-- A text of digits that fits the type is parsed to the number it spells, and
nothing else is accepted. -/
theorem parseNumber_eq_some_iff {w base : Nat} (hmin : kMinNumberBase ≤ base)
    (hmax : base ≤ kMaxNumberBase) {text : List Byte} {value : BitVec w} :
    parseNumber w text base = some value ↔
      text ≠ [] ∧ (∀ c ∈ text, (digitValue base c).isSome) ∧
        ofDigits base (text.filterMap (digitValue base)) = value.toNat := by
  have hbase : ¬ (base < kMinNumberBase ∨ kMaxNumberBase < base) := by omega
  constructor
  · intro h
    rw [parseNumber] at h
    split at h
    · cases h
    · rename_i hnonempty
      have htext : text ≠ [] := fun hnil => hnonempty (.inl hnil)
      split at h
      · rename_i v hmatch
        cases h
        simp only [fromChars] at hmatch
        split_ifs at hmatch with hdigits hfits
        -- The match ends the text, so the run of digits is all of it.
        injection hmatch with hvalue hrest
        have hall : text.takeWhile (fun c => (digitValue base c).isSome) = text := by
          exact (List.takeWhile_prefix _).eq_of_length_le (List.drop_eq_nil_iff.mp hrest)
        rw [hall] at hvalue hfits
        refine ⟨htext, List.takeWhile_eq_self_iff.mp hall, ?_⟩
        rw [← hvalue, BitVec.toNat_ofNat, Nat.mod_eq_of_lt (by omega)]
      · cases h
  · rintro ⟨htext, hdigits, hvalue⟩
    have hall : text.takeWhile (fun c => (digitValue base c).isSome) = text :=
      List.takeWhile_eq_self_iff.mpr hdigits
    have hfits : ¬ 2 ^ w ≤ ofDigits base (text.filterMap (digitValue base)) := by
      rw [hvalue]
      exact Nat.not_le.mpr value.isLt
    rw [parseNumber, if_neg (by simpa [htext] using hbase)]
    simp only [fromChars, hall, if_neg htext, if_neg hfits, List.drop_length]
    rw [hvalue, BitVec.ofNat_toNat, BitVec.setWidth_eq]

/-! ### Hexadecimal bytes -/

/-- The digits that bytes are written with. -/
def kHexDigits : List Byte :=
  ['0', '1', '2', '3', '4', '5', '6', '7', '8', '9', 'a', 'b', 'c', 'd', 'e', 'f'].map ascii

/-- The low four bits of a byte. -/
def kLowNibble : Byte := 0x0f

/-- The two digits a byte is written as, high half first. -/
def hexPair (byte : Byte) : List Byte :=
  [kHexDigits.getD (byte >>> 4).toNat 0, kHexDigits.getD (byte &&& kLowNibble).toNat 0]

/-- A hexadecimal digit of either case. -/
def IsHexDigit (c : Byte) : Prop :=
  (ascii '0' ≤ c ∧ c ≤ ascii '9') ∨ (ascii 'a' ≤ c ∧ c ≤ ascii 'f') ∨
    (ascii 'A' ≤ c ∧ c ≤ ascii 'F')

instance (c : Byte) : Decidable (IsHexDigit c) := inferInstanceAs (Decidable (_ ∨ _))

/-- An ASCII capital letter in lowercase, and any other byte as it is. -/
def toLower (c : Byte) : Byte := if ascii 'A' ≤ c ∧ c ≤ ascii 'Z' then c + 32 else c

/-- A property of bytes that holds of all 256 of them. -/
theorem forall_byte {p : Byte → Prop} (h : ∀ i : Fin 256, p (BitVec.ofFin i)) (b : Byte) :
    p b := h b.toFin

theorem isSome_digitValue_iff (c : Byte) : (digitValue 16 c).isSome ↔ IsHexDigit c := by
  revert c
  apply forall_byte
  decide +kernel

theorem digitValue_kHexDigits {d : Nat} (hd : d < 16) :
    digitValue 16 (kHexDigits.getD d 0) = some d := by
  interval_cases d <;> decide

theorem toNat_highNibble (byte : Byte) : (byte >>> 4).toNat = byte.toNat / 16 := by
  rw [BitVec.toNat_ushiftRight, Nat.shiftRight_eq_div_pow]

theorem toNat_lowNibble (byte : Byte) : (byte &&& kLowNibble).toNat = byte.toNat % 16 := by
  rw [BitVec.toNat_and, show kLowNibble.toNat = 2 ^ 4 - 1 from rfl,
    Nat.and_two_pow_sub_one_eq_mod]

/-- Each digit of a byte is a digit, and the pair spells the byte. -/
theorem hexPair_spells (byte : Byte) :
    (∀ c ∈ hexPair byte, (digitValue 16 c).isSome) ∧
      ofDigits 16 ((hexPair byte).filterMap (digitValue 16)) = byte.toNat := by
  have hlt := byte.isLt
  have hhigh := digitValue_kHexDigits (d := byte.toNat / 16) (by omega)
  have hlow := digitValue_kHexDigits (d := byte.toNat % 16) (by omega)
  rw [hexPair, toNat_highNibble, toNat_lowNibble]
  refine ⟨by simp only [List.forall_mem_cons, hhigh, hlow]; simp, ?_⟩
  simp only [List.filterMap_cons, hhigh, hlow, List.filterMap_nil, ofDigits, List.foldl]
  omega

theorem hexDigit_of_digitValue (c : Byte) :
    ∀ d, digitValue 16 c = some d → d < 16 ∧ kHexDigits.getD d 0 = toLower c := by
  have h : ∀ b : Byte, (digitValue 16 b).all
      (fun d => decide (d < 16) && kHexDigits.getD d 0 == toLower b) := by
    apply forall_byte
    decide +kernel
  intro d hd
  have hc := h c
  simpa [hd] using hc

@[simp] theorem toLower_kHexDigits {d : Nat} (hd : d < 16) :
    toLower (kHexDigits.getD d 0) = kHexDigits.getD d 0 := by
  interval_cases d <;> decide

@[simp] theorem length_hexPair (byte : Byte) : (hexPair byte).length = 2 := rfl

/-- Two hexadecimal digits are read as the byte they spell. -/
theorem parseNumber_hexPair (byte : Byte) : parseNumber 8 (hexPair byte) 16 = some byte := by
  rw [parseNumber_eq_some_iff (by decide) (by decide)]
  obtain ⟨hdigits, hvalue⟩ := hexPair_spells byte
  exact ⟨by simp [hexPair], hdigits, hvalue⟩

/-- Two characters are read as a byte exactly when both are digits, and the
byte is written as the same two digits in lowercase. -/
theorem parseNumber_pair (a b : Byte) :
    ((parseNumber 8 [a, b] 16).isSome ↔ IsHexDigit a ∧ IsHexDigit b) ∧
      ∀ byte, parseNumber 8 [a, b] 16 = some byte → hexPair byte = [toLower a, toLower b] := by
  constructor
  · constructor
    · intro h
      obtain ⟨byte, hbyte⟩ := Option.isSome_iff_exists.mp h
      have hdigits := ((parseNumber_eq_some_iff (by decide) (by decide)).mp hbyte).2.1
      rw [← isSome_digitValue_iff, ← isSome_digitValue_iff]
      exact ⟨hdigits a (by simp), hdigits b (by simp)⟩
    · rintro ⟨ha, hb⟩
      obtain ⟨x, hx⟩ := Option.isSome_iff_exists.mp ((isSome_digitValue_iff a).mpr ha)
      obtain ⟨y, hy⟩ := Option.isSome_iff_exists.mp ((isSome_digitValue_iff b).mpr hb)
      have hx16 := (hexDigit_of_digitValue a x hx).1
      have hy16 := (hexDigit_of_digitValue b y hy).1
      refine Option.isSome_iff_exists.mpr ⟨BitVec.ofNat 8 (x * 16 + y), ?_⟩
      rw [parseNumber_eq_some_iff (by decide) (by decide)]
      refine ⟨by simp, by simp [hx, hy], ?_⟩
      simp [ofDigits, hx, hy]
      omega
  · intro byte h
    obtain ⟨-, hdigits, hvalue⟩ := (parseNumber_eq_some_iff (by decide) (by decide)).mp h
    obtain ⟨x, hx⟩ := Option.isSome_iff_exists.mp (hdigits a (by simp))
    obtain ⟨y, hy⟩ := Option.isSome_iff_exists.mp (hdigits b (by simp))
    obtain ⟨hx16, hxa⟩ := hexDigit_of_digitValue a x hx
    obtain ⟨hy16, hyb⟩ := hexDigit_of_digitValue b y hy
    have hbyte : byte.toNat = x * 16 + y := by
      simpa [ofDigits, hx, hy] using hvalue.symm
    have hhigh : byte.toNat / 16 = x := by omega
    have hlow : byte.toNat % 16 = y := by omega
    rw [hexPair, toNat_highNibble, toNat_lowNibble, hhigh, hlow, hxa, hyb]

/-! ### Whole texts of bytes -/

/-- `count` characters of `text` from position `start`, as `substr` takes them. -/
def substr (text : List Byte) (start count : Nat) : List Byte := (text.drop start).take count

/-- The bytes that the first `2 * n` characters of a text spell, one
fixed-width pair at a time; the first pair that is not a number ends the loop. -/
def parsePairs (n : Nat) (text : List Byte) : Option (List Byte) :=
  (List.range n).mapM fun i => parseNumber 8 (substr text (i * 2) 2) 16

/-- The characters that bytes are written as. -/
def writePairs (bytes : List Byte) : List Byte := bytes.flatMap hexPair

@[simp] theorem length_writePairs (bytes : List Byte) :
    (writePairs bytes).length = 2 * bytes.length := by
  induction bytes with
  | nil => rfl
  | cons b bs ih =>
      simp only [writePairs, List.flatMap_cons, List.length_append, length_hexPair,
        List.length_cons] at ih ⊢
      omega

/-- The first pair is read, and then the rest of the text. -/
theorem parsePairs_cons (n : Nat) (a b : Byte) (rest : List Byte) :
    parsePairs (n + 1) (a :: b :: rest) =
      (parseNumber 8 [a, b] 16).bind fun byte => (parsePairs n rest).map (byte :: ·) := by
  have hrest : ∀ i, substr (a :: b :: rest) ((i + 1) * 2) 2 = substr rest (i * 2) 2 := by
    intro i
    rw [substr, substr, Nat.add_mul, show i * 2 + 1 * 2 = (i * 2 + 1) + 1 by omega]
    rfl
  rw [parsePairs, List.range_succ_eq_map, List.mapM_cons, List.mapM_map]
  have hloop : (List.range n).mapM
        (fun i => parseNumber 8 (substr (a :: b :: rest) ((i + 1) * 2) 2) 16) =
      parsePairs n rest := by
    simp only [hrest, parsePairs]
  simp only [Function.comp_def, Nat.succ_eq_add_one, hloop]
  cases hfirst : parseNumber 8 [a, b] 16 <;> cases parsePairs n rest <;>
    simp [substr, hfirst]

theorem parsePairs_writePairs (bytes rest : List Byte) :
    parsePairs bytes.length (writePairs bytes ++ rest) = some bytes := by
  induction bytes with
  | nil => rfl
  | cons b bs ih =>
      have hb := parseNumber_hexPair b
      simp only [hexPair] at hb
      simp only [writePairs, List.flatMap_cons, hexPair, List.length_cons, List.cons_append,
        List.nil_append] at ih ⊢
      rw [parsePairs_cons, hb]
      simp [ih]

/-- A text of `2 * n` characters is accepted exactly when each is a
hexadecimal digit, and is then the bytes it gives up to the case of letters. -/
theorem parsePairs_spec (n : Nat) (text : List Byte) (hlen : text.length = 2 * n) :
    ((parsePairs n text).isSome ↔ ∀ c ∈ text, IsHexDigit c) ∧
      ∀ bytes, parsePairs n text = some bytes → writePairs bytes = text.map toLower := by
  induction n generalizing text with
  | zero =>
      have hnil : text = [] := List.length_eq_zero_iff.mp (by omega)
      subst hnil
      constructor
      · simp [parsePairs]
      · intro bytes h
        cases h
        rfl
  | succ n ih =>
      match text, hlen with
      | a :: b :: rest, hlen =>
          have hrest : rest.length = 2 * n := by simp at hlen; omega
          obtain ⟨haccepts, hwrites⟩ := ih rest hrest
          obtain ⟨hpair, hlower⟩ := parseNumber_pair a b
          rw [parsePairs_cons]
          constructor
          · rw [Option.isSome_iff_exists] at hpair
            simp only [List.mem_cons, forall_eq_or_imp, ← haccepts, ← and_assoc, ← hpair]
            cases parseNumber 8 [a, b] 16 <;> cases parsePairs n rest <;> simp
          · intro bytes h
            obtain ⟨byte, hbyte, h⟩ := Option.bind_eq_some_iff.mp h
            obtain ⟨others, hothers, rfl⟩ := Option.map_eq_some_iff.mp h
            have htail := hwrites others hothers
            simp only [writePairs, List.flatMap_cons, List.map_cons] at htail ⊢
            rw [hlower byte hbyte, htail]
            rfl

theorem length_of_parsePairs {n : Nat} {text bytes : List Byte} (hlen : text.length = 2 * n)
    (h : parsePairs n text = some bytes) : bytes.length = n := by
  have hwrite := congrArg List.length ((parsePairs_spec n text hlen).2 bytes h)
  simp only [length_writePairs, List.length_map] at hwrite
  omega

end HipObject.Codec
