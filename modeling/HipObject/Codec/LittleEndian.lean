import Mathlib.Data.List.Basic

/-!
# Little-endian bytes of a fixed-width word

`bytesOf` writes the bytes of a `w`-bit word front to back, least significant
first, by shifting the whole word; `ofBytes` rebuilds a word by shifting each
byte into place and combining with `or`. Both are the loops that fixed-width
serializers contain, at an arbitrary width, and the two round trips below hold
at every width that is a whole number of bytes.

The proofs compare words bit by bit. Bit `j` of a rebuilt word is bit `j % 8`
of byte `j / 8`, and this single fact carries both directions.
-/

namespace HipObject.Codec

/-- One byte of a message. -/
abbrev Byte := BitVec 8

/-- The bytes of `value`, least significant first: byte `i` is the low eight
bits of `value >> 8i`. -/
def bytesOf {w : Nat} (value : BitVec w) : List Byte :=
  (List.range (w / 8)).map fun i => (value >>> (8 * i)).setWidth 8

/-- The first `n` bytes combined into a word, least significant first. A byte
past the end of `bytes` counts as zero. -/
def ofBytesUpTo (w : Nat) (bytes : List Byte) : Nat → BitVec w
  | 0 => 0
  | n + 1 => ofBytesUpTo w bytes n ||| ((bytes.getD n 0).setWidth w <<< (8 * n))

/-- The word that `w / 8` little-endian bytes stand for. -/
def ofBytes (w : Nat) (bytes : List Byte) : BitVec w := ofBytesUpTo w bytes (w / 8)

@[simp] theorem length_bytesOf {w : Nat} (value : BitVec w) :
    (bytesOf value).length = w / 8 := by
  simp [bytesOf]

theorem getD_bytesOf {w : Nat} (value : BitVec w) {i : Nat} (hi : i < w / 8) :
    (bytesOf value).getD i 0 = (value >>> (8 * i)).setWidth 8 := by
  simp [bytesOf, List.getD_eq_getElem?_getD, hi]

/-- Bit `j` of the rebuilt word is bit `j % 8` of byte `j / 8`. -/
theorem getLsbD_ofBytesUpTo {w : Nat} (bytes : List Byte) (n : Nat) {j : Nat} (hj : j < w) :
    (ofBytesUpTo w bytes n).getLsbD j =
      (decide (j < 8 * n) && (bytes.getD (j / 8) 0).getLsbD (j % 8)) := by
  induction n with
  | zero => simp [ofBytesUpTo]
  | succ n ih =>
      rw [ofBytesUpTo, BitVec.getLsbD_or, ih, BitVec.getLsbD_shiftLeft, BitVec.getLsbD_setWidth]
      -- Only the byte that bit `j` lies in can contribute it.
      rcases Nat.lt_or_ge j (8 * n) with hlow | hlow
      · simp [hlow, show j < 8 * (n + 1) by omega]
      · rcases Nat.lt_or_ge j (8 * (n + 1)) with hhere | hpast
        · have hbyte : j / 8 = n := by omega
          have hbit : j - 8 * n = j % 8 := by omega
          simp [hhere, hj, hbyte, hbit, show j % 8 < w by omega, show ¬ j < 8 * n by omega]
        · have hbit : (bytes.getD n 0).getLsbD (j - 8 * n) = false :=
            BitVec.getLsbD_of_ge _ _ (by omega)
          simp only [show ¬ j < 8 * n by omega, show ¬ j < 8 * (n + 1) by omega, hbit]
          simp

theorem getLsbD_ofBytes {w : Nat} (bytes : List Byte) (hw : w % 8 = 0) {j : Nat} (hj : j < w) :
    (ofBytes w bytes).getLsbD j = (bytes.getD (j / 8) 0).getLsbD (j % 8) := by
  rw [ofBytes, getLsbD_ofBytesUpTo bytes _ hj]
  simp [show j < 8 * (w / 8) by omega]

/-- Reading back the bytes of a word gives the word, whatever follows them. -/
theorem ofBytes_bytesOf_append {w : Nat} (hw : w % 8 = 0) (value : BitVec w)
    (rest : List Byte) : ofBytes w (bytesOf value ++ rest) = value := by
  apply BitVec.eq_of_getLsbD_eq
  intro j hj
  have hbyte : j / 8 < w / 8 := by omega
  have hfront : (bytesOf value ++ rest).getD (j / 8) 0 = (bytesOf value).getD (j / 8) 0 := by
    simp only [List.getD_eq_getElem?_getD]
    rw [List.getElem?_append_left (by simpa using hbyte)]
  rw [getLsbD_ofBytes _ hw hj, hfront, getD_bytesOf value hbyte, BitVec.getLsbD_setWidth,
    BitVec.getLsbD_ushiftRight]
  simp [show j % 8 < 8 by omega, show 8 * (j / 8) + j % 8 = j by omega]

/-- Writing a word that was read gives the bytes it was read from. -/
theorem bytesOf_ofBytes {w : Nat} (hw : w % 8 = 0) {bytes : List Byte}
    (hlen : w / 8 ≤ bytes.length) : bytesOf (ofBytes w bytes) = bytes.take (w / 8) := by
  apply List.ext_getElem
  · simp [hlen]
  · intro i hi _
    have hi' : i < w / 8 := by simpa using hi
    apply BitVec.eq_of_getLsbD_eq
    intro j hj
    simp only [bytesOf, List.getElem_map, List.getElem_range, BitVec.getLsbD_setWidth,
      BitVec.getLsbD_ushiftRight]
    rw [getLsbD_ofBytes bytes hw (by omega)]
    simp [hj, show (8 * i + j) / 8 = i by omega, show (8 * i + j) % 8 = j by omega,
      List.getD_eq_getElem?_getD, show i < bytes.length by omega]

end HipObject.Codec
