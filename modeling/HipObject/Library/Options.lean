import HipObject.Codec.Digits

/-!
# Options from the environment

`parseOptions` of `state.cpp`, which `hipObjInit` calls on the environment of the
process. A number counts only if all of the text is a number in range; for the
switches the first character decides. What is not valid leaves the default.

The theorems say what the options are in terms of the texts of the variables.
-/

namespace HipObject

open Codec

/-! ### Numbers with a sign -/

/-- `parseNumber` for a signed type of `w` bits. Only a minus sign is accepted. -/
def parseSignedNumber (w : Nat) (text : List Byte) (base : Nat) : Option Int :=
  if text.head? = some (ascii '-') then
    (parseNumber w text.tail base).bind fun magnitude =>
      if magnitude.toNat ≤ 2 ^ (w - 1) then some (-magnitude.toNat) else none
  else
    (parseNumber w text base).bind fun magnitude =>
      if magnitude.toNat < 2 ^ (w - 1) then some magnitude.toNat else none

/-! ### Options -/

/-- Looks up an environment variable: its value, or nothing when it isn't set. -/
abbrev EnvLookup := String → Option (List Byte)

structure DmabufPolicy where
  enabled : Bool
  debug : Bool
  deriving DecidableEq

/-- Timeouts are in milliseconds. -/
structure Options where
  stageTimeout : Int
  pollTimeout : Int
  maxTransfers : Nat
  requireGpuDirect : Bool
  dmabuf : DmabufPolicy
  deriving DecidableEq

def kDefaultStageTimeout : Int := 30 * 1000
def kDefaultPollTimeout : Int := 5 * 1000
def kDefaultMaxTransfers : Nat := 16

/-- The longest staging copy timeout: 24 hours. -/
def kMaxStageTimeout : Int := 24 * 60 * 60 * 1000

/-- The most connections for transfers. -/
def kMaxTransfers : Nat := 1024

/-- The value of a variable, or an empty text when it isn't set. -/
def lookupValue (lookup : EnvLookup) (name : String) : List Byte := (lookup name).getD []

/-- Whether a text starts with one of some characters. -/
def startsWithOneOf (value chars : List Byte) : Bool := value.head?.any chars.contains

/-- The characters that turn a switch off. -/
def noChars : List Byte := [ascii '0', ascii 'n', ascii 'N']

def parseOptions (lookup : EnvLookup) : Options where
  stageTimeout :=
    match parseSignedNumber 64 (lookupValue lookup "HIPOBJ_STAGE_TIMEOUT_MS") 10 with
    | some ms => if 0 < ms ∧ ms ≤ kMaxStageTimeout then ms else kDefaultStageTimeout
    | none => kDefaultStageTimeout
  pollTimeout := kDefaultPollTimeout
  maxTransfers :=
    match parseNumber 64 (lookupValue lookup "HIPOBJ_MAX_TRANSFERS") 10 with
    | some n => if 0 < n.toNat ∧ n.toNat ≤ kMaxTransfers then n.toNat else kDefaultMaxTransfers
    | none => kDefaultMaxTransfers
  requireGpuDirect :=
    let value := lookupValue lookup "HIPOBJ_REQUIRE_GPU_DIRECT"
    !value.isEmpty && !startsWithOneOf value noChars
  dmabuf := {
    enabled := !startsWithOneOf (lookupValue lookup "HIPOBJ_DMABUF") noChars
    debug :=
      let value := lookupValue lookup "HIPOBJ_RDMA_DEBUG"
      !value.isEmpty && !(value.head? == some (ascii '0')) }

/-! ### What the texts ask for -/

/-- A text of decimal digits, and the number it spells. -/
structure Spells (text : List Byte) (n : Nat) : Prop where
  nonempty : text ≠ []
  digits : ∀ c ∈ text, (digitValue 10 c).isSome
  value : ofDigits 10 (text.filterMap (digitValue 10)) = n

/-- The environment asks for `n` connections: it spells a number from 1 to
`kMaxTransfers`, or spells none of these and leaves the default. -/
def AsksForTransfers (lookup : EnvLookup) (n : Nat) : Prop :=
  let text := lookupValue lookup "HIPOBJ_MAX_TRANSFERS"
  Spells text n ∧ 1 ≤ n ∧ n ≤ kMaxTransfers ∨
    (∀ m, Spells text m → ¬(1 ≤ m ∧ m ≤ kMaxTransfers)) ∧ n = kDefaultMaxTransfers

/-- The value of a switch is a word, and not one for no. -/
def SaysYes (lookup : EnvLookup) (name : String) : Prop :=
  ∃ c rest, lookup name = some (c :: rest) ∧ c ∉ noChars

/-- The value of a switch is a word for no. -/
def SaysNo (lookup : EnvLookup) (name : String) : Prop :=
  ∃ c rest, lookup name = some (c :: rest) ∧ c ∈ noChars

theorem Spells.unique {text : List Byte} {m n : Nat} (hm : Spells text m) (hn : Spells text n) :
    m = n :=
  hm.value.symm.trans hn.value

/-- A number is read from the text that spells it, if it fits. -/
theorem parseNumber_eq_some_iff_spells {text : List Byte} {value : BitVec 64} :
    parseNumber 64 text 10 = some value ↔ Spells text value.toNat := by
  rw [parseNumber_eq_some_iff (by decide) (by decide)]
  constructor
  · rintro ⟨hnonempty, hdigits, hvalue⟩
    exact ⟨hnonempty, hdigits, hvalue⟩
  · rintro ⟨hnonempty, hdigits, hvalue⟩
    exact ⟨hnonempty, hdigits, hvalue⟩

/-- The number of connections is the one that the environment asks for. -/
theorem asksForTransfers_parseOptions (lookup : EnvLookup) :
    AsksForTransfers lookup (parseOptions lookup).maxTransfers := by
  rw [AsksForTransfers, parseOptions]
  dsimp only
  cases hparse : parseNumber 64 (lookupValue lookup "HIPOBJ_MAX_TRANSFERS") 10 with
  | none =>
      refine .inr ⟨?_, rfl⟩
      rintro m hm ⟨-, hle⟩
      -- a number that fits is read
      have hfits : (BitVec.ofNat 64 m).toNat = m := by
        rw [BitVec.toNat_ofNat, Nat.mod_eq_of_lt]
        exact Nat.lt_of_le_of_lt hle (by decide)
      have hread := parseNumber_eq_some_iff_spells.mpr (hfits.symm ▸ hm)
      rw [hparse] at hread
      cases hread
  | some n =>
      have hspells := parseNumber_eq_some_iff_spells.mp hparse
      dsimp only
      split
      · rename_i hrange
        exact .inl ⟨hspells, hrange⟩
      · rename_i hrange
        refine .inr ⟨?_, rfl⟩
        intro m hm hm'
        rw [← hspells.unique hm] at hm'
        exact hrange hm'

theorem requireGpuDirect_parseOptions {lookup : EnvLookup}
    (h : SaysYes lookup "HIPOBJ_REQUIRE_GPU_DIRECT") :
    (parseOptions lookup).requireGpuDirect = true := by
  obtain ⟨c, rest, hvalue, hc⟩ := h
  simp [parseOptions, lookupValue, hvalue, startsWithOneOf, hc]

theorem dmabuf_parseOptions {lookup : EnvLookup} (h : SaysNo lookup "HIPOBJ_DMABUF") :
    (parseOptions lookup).dmabuf.enabled = false := by
  obtain ⟨c, rest, hvalue, hc⟩ := h
  simp [parseOptions, lookupValue, hvalue, startsWithOneOf, hc]

/-- Whatever the environment holds, there is a connection, and a staging copy has
some time, but not more than a day. -/
theorem parseOptions_inRange (lookup : EnvLookup) :
    1 ≤ (parseOptions lookup).maxTransfers ∧
      (parseOptions lookup).maxTransfers ≤ kMaxTransfers ∧
      0 < (parseOptions lookup).stageTimeout ∧
      (parseOptions lookup).stageTimeout ≤ kMaxStageTimeout := by
  refine ⟨?_, ?_, ?_⟩
  · obtain ⟨-, hpos, -⟩ | ⟨-, hdefault⟩ := asksForTransfers_parseOptions lookup
    · exact hpos
    · rw [hdefault]
      decide
  · obtain ⟨-, -, hle⟩ | ⟨-, hdefault⟩ := asksForTransfers_parseOptions lookup
    · exact hle
    · rw [hdefault]
      decide
  · rw [parseOptions]
    dsimp only
    split
    · split
      · assumption
      · decide
    · decide

/-- An empty environment gives the defaults. -/
example : (parseOptions fun _ => none) = ⟨30000, 5000, 16, false, ⟨true, false⟩⟩ := by
  decide +kernel

end HipObject
