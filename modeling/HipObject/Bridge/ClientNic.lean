import HipObject.Bridge.Calls
import Mathlib.Data.Nat.Digits.Lemmas

/-!
# The address of the client's NIC

`hipObjTokenClientNic` on the memory of its caller: a token that ends with a NUL,
and a buffer whose size the caller gives. The text of an address is read back by
`parseDottedQuad`, and every address fits the buffer it is formatted into.
-/

namespace HipObject.Bridge

open HipObject Codec

/-! ### Dotted quads -/

/-- The four bytes that a text with three dots spells. -/
def parseDottedQuad (text : List Byte) : Option (List Byte) :=
  let fields := text.splitOn (ascii '.')
  if fields.length = 4 then fields.mapM fun field => parseNumber 8 field 10 else none

theorem natToDecimal_ne_nil (n : Nat) : natToDecimal n ≠ [] := by
  unfold natToDecimal
  split
  · simp
  · rename_i hzero
    simp [Nat.digits_eq_nil_iff_eq_zero, hzero]

/-- A printed byte is read back. -/
theorem parseNumber_natToDecimal (b : Byte) :
    parseNumber 8 (natToDecimal b.toNat) 10 = some b :=
  parseNumber_ten_eq_some_iff.mpr
    ⟨natToDecimal_ne_nil _, natToDecimal_digits _, decimalValue_natToDecimal _⟩

theorem not_mem_natToDecimal {c : Byte} (hc : ¬IsDecimalDigit c) (n : Nat) :
    c ∉ natToDecimal n := fun hmem => hc (natToDecimal_digits n c hmem)

theorem mapM_parseNumber (bytes : List Byte) :
    (bytes.map fun b => natToDecimal b.toNat).mapM (fun field => parseNumber 8 field 10) =
      some bytes := by
  induction bytes with
  | nil => rfl
  | cons b rest ih => simp [parseNumber_natToDecimal, ih]

/-- A dotted quad parses back to the bytes it was made from. -/
theorem parseDottedQuad_dottedQuad {ipv4 : List Byte} (hlen : ipv4.length = 4) :
    parseDottedQuad (dottedQuad ipv4) = some ipv4 := by
  have hfields : (dottedQuad ipv4).splitOn (ascii '.') =
      ipv4.map fun b => natToDecimal b.toNat := by
    refine List.splitOn_intercalate _ ?_ ?_
    · intro field hfield
      obtain ⟨b, -, rfl⟩ := List.mem_map.mp hfield
      exact not_mem_natToDecimal (by decide) _
    · intro hnil
      rw [List.map_eq_nil_iff] at hnil
      rw [hnil] at hlen
      cases hlen
  unfold parseDottedQuad
  rw [hfields]
  simp only [List.length_map, hlen, if_true]
  exact mapM_parseNumber ipv4

theorem length_natToDecimal_le (b : Byte) : (natToDecimal b.toNat).length ≤ 3 := by
  unfold natToDecimal
  split
  · simp
  · rw [List.length_map, List.length_reverse]
    exact Nat.digits_length_le_iff (by decide) _ |>.mpr (b.isLt.trans (by decide))

theorem dottedQuad_four (a b c d : Byte) :
    dottedQuad [a, b, c, d] =
      natToDecimal a.toNat ++ ascii '.' :: (natToDecimal b.toNat ++ ascii '.' ::
        (natToDecimal c.toNat ++ ascii '.' :: natToDecimal d.toNat)) := by
  simp [dottedQuad, List.intercalate_cons_cons]

/-- `INET_ADDRSTRLEN`: room for any IPv4 address and its NUL. -/
def INET_ADDRSTRLEN : Nat := 16

/-- The address of a GID has four bytes. -/
theorem exists_ipv4OfGid (gid : Gid) : ∃ a b c d, ipv4OfGid gid = [a, b, c, d] := by
  have hlen : (ipv4OfGid gid).length = 4 := by simp [ipv4OfGid]
  exact List.length_eq_four.mp hlen

/-- `format_to_n` is given room for every address, so it never cuts one off. -/
theorem length_dottedQuad_lt (gid : Gid) :
    (dottedQuad (ipv4OfGid gid)).length < INET_ADDRSTRLEN := by
  obtain ⟨a, b, c, d, hgid⟩ := exists_ipv4OfGid gid
  have ha := length_natToDecimal_le a
  have hb := length_natToDecimal_le b
  have hc := length_natToDecimal_le c
  have hd := length_natToDecimal_le d
  rw [hgid, dottedQuad_four]
  simp only [List.length_append, List.length_cons, INET_ADDRSTRLEN]
  omega

theorem nul_not_mem_dottedQuad (gid : Gid) : 0 ∉ dottedQuad (ipv4OfGid gid) := by
  obtain ⟨a, b, c, d, hgid⟩ := exists_ipv4OfGid gid
  have hdigits : ∀ b : Byte, 0#8 ∉ natToDecimal b.toNat :=
    fun b => not_mem_natToDecimal (by decide) _
  have hdot : 0#8 ≠ ascii '.' := by decide
  rw [hgid, dottedQuad_four]
  simp [hdigits, hdot]

/-! ### The call -/

/-- What a token says about the client's NIC: its address, or nothing. -/
def clientNicOf (token : RdmaToken) : List Byte :=
  if isIpv4MappedGid token.gid then dottedQuad (ipv4OfGid token.gid) else []

theorem nul_not_mem_clientNicOf (token : RdmaToken) : 0 ∉ clientNicOf token := by
  unfold clientNicOf
  split
  · exact nul_not_mem_dottedQuad token.gid
  · simp

theorem decodeRdmaTokenHex_of_length {text : List Byte} (h : text.length ≠ kRdmaTokenHexLen) :
    decodeRdmaTokenHex text = none := if_pos h

/-- The bounded scan changes nothing: it only cuts texts that no token has. -/
theorem decode_cStringView {text : List Byte} (htext : 0 ∉ text) (rest : List Byte) :
    decodeRdmaTokenHex (cStringView (text ++ 0 :: rest) (kRdmaTokenHexLen + 1)) =
      decodeRdmaTokenHex text := by
  have hall : ∀ c ∈ text, decide (c ≠ 0) = true := by
    intro c hc
    exact decide_eq_true fun hzero => htext (hzero ▸ hc)
  unfold cStringView
  by_cases hlen : text.length ≤ kRdmaTokenHexLen
  · have hzero : decide ((0 : Byte) ≠ 0) = false := by decide
    obtain ⟨k, hk⟩ : ∃ k, kRdmaTokenHexLen + 1 - text.length = k + 1 :=
      ⟨kRdmaTokenHexLen - text.length, by omega⟩
    rw [List.take_append, List.take_of_length_le (by omega), hk, List.take_succ_cons,
      List.takeWhile_append_of_pos hall, List.takeWhile_cons, hzero]
    simp
  · have hlong : text.length ≠ kRdmaTokenHexLen := by omega
    rw [List.take_append_of_le_length (by omega), decodeRdmaTokenHex_of_length hlong,
      decodeRdmaTokenHex_of_length]
    rw [List.takeWhile_eq_self_iff.mpr fun c hc => hall c (List.mem_of_mem_take hc),
      List.length_take]
    omega

section Call

variable {text nicIp : List Byte} {token : RdmaToken}

theorem set_zero_of_ne_nil (h : nicIp ≠ []) : nicIp.set 0 0 = 0 :: nicIp.drop 1 := by
  cases nicIp with
  | nil => exact absurd rfl h
  | cons first rest => rfl

/-- A text that is no token leaves an empty string. -/
theorem hipObjTokenClientNic_of_none (htext : 0 ∉ text) (rest : List Byte) (hne : nicIp ≠ [])
    (hdecode : decodeRdmaTokenHex text = none) :
    hipObjTokenClientNic (text ++ 0 :: rest) nicIp = (.InvalidValue, 0 :: nicIp.drop 1) := by
  have hempty : nicIp.isEmpty = false := List.isEmpty_eq_false_iff.mpr hne
  simp only [hipObjTokenClientNic, parseClientNicFromTokenHex, hempty,
    decode_cStringView htext rest, hdecode, set_zero_of_ne_nil hne, Bool.false_eq_true, if_false]

/-- A token whose address does not fit leaves an empty string too. -/
theorem hipObjTokenClientNic_of_long (htext : 0 ∉ text) (rest : List Byte) (hne : nicIp ≠ [])
    (hdecode : decodeRdmaTokenHex text = some token)
    (hlong : nicIp.length ≤ (clientNicOf token).length) :
    hipObjTokenClientNic (text ++ 0 :: rest) nicIp = (.InvalidValue, 0 :: nicIp.drop 1) := by
  have hempty : nicIp.isEmpty = false := List.isEmpty_eq_false_iff.mpr hne
  have hpos : 0 < nicIp.length := List.length_pos_iff.mpr hne
  have hmapped : isIpv4MappedGid token.gid = true := by
    by_contra hnot
    rw [clientNicOf, if_neg hnot, List.length_nil] at hlong
    omega
  have hlong : (dottedQuad (ipv4OfGid token.gid)).length ≥ nicIp.length := by
    rwa [clientNicOf, if_pos hmapped] at hlong
  simp only [hipObjTokenClientNic, parseClientNicFromTokenHex, hempty,
    decode_cStringView htext rest, hdecode, hmapped, hlong, set_zero_of_ne_nil hne,
    Bool.false_eq_true, Bool.not_true, if_false, if_true]

/-- A token whose address fits is answered with it. -/
theorem hipObjTokenClientNic_of_fits (htext : 0 ∉ text) (rest : List Byte)
    (hdecode : decodeRdmaTokenHex text = some token)
    (hfits : (clientNicOf token).length < nicIp.length) :
    hipObjTokenClientNic (text ++ 0 :: rest) nicIp =
      (.Success, clientNicOf token ++ 0 :: nicIp.drop ((clientNicOf token).length + 1)) := by
  have hne : nicIp ≠ [] := List.length_pos_iff.mp (Nat.zero_lt_of_lt hfits)
  have hempty : nicIp.isEmpty = false := List.isEmpty_eq_false_iff.mpr hne
  cases hmapped : isIpv4MappedGid token.gid with
  | false =>
      have hnic : clientNicOf token = [] := by rw [clientNicOf, hmapped]; rfl
      simp only [hipObjTokenClientNic, parseClientNicFromTokenHex, hempty,
        decode_cStringView htext rest, hdecode, hmapped, set_zero_of_ne_nil hne, hnic,
        Bool.false_eq_true, Bool.not_false, if_false, if_true, List.nil_append,
        List.length_nil, Nat.zero_add]
  | true =>
      have hnic : clientNicOf token = dottedQuad (ipv4OfGid token.gid) := by
        rw [clientNicOf, if_pos hmapped]
      have hroom : ¬(dottedQuad (ipv4OfGid token.gid)).length ≥ nicIp.length := by
        rw [← hnic]
        omega
      simp only [hipObjTokenClientNic, parseClientNicFromTokenHex, hempty,
        decode_cStringView htext rest, hdecode, hmapped, hroom, hnic,
        Bool.false_eq_true, Bool.not_true, if_false, if_true]

end Call

/-! ### On the caller's memory -/

/-- `hipObjTokenClientNic(token, nicIp, nicIpLen)`, with the caller's memory from
`token` on and from `nicIp` on. The span of the buffer is its first `nicIpLen`
bytes. -/
def hipObjTokenClientNicAt (token memory : List Byte) (nicIpLen : Nat) : OpError × List Byte :=
  let (err, nicIp) := hipObjTokenClientNic token (memory.take nicIpLen)
  (err, nicIp ++ memory.drop nicIpLen)

/-- Memory that starts with a string that ends with a NUL inside the first `n`
bytes. -/
def HoldsString (memory : List Byte) (n : Nat) (string : List Byte) : Prop :=
  0 ∉ string ∧ string.length < n ∧ memory.take (string.length + 1) = string ++ [0]

section Memory

variable {text memory : List Byte} {n : Nat}

/-- What a call leaves: the address of the token, or an empty string. -/
inductive ClientNic (text memory : List Byte) (n : Nat) : OpError × List Byte → Prop
  | answered (token : RdmaToken) (decoded : decodeRdmaTokenHex text = some token)
      (fits : (clientNicOf token).length < n) :
      ClientNic text memory n (.Success,
        clientNicOf token ++ 0 :: memory.drop ((clientNicOf token).length + 1))
  | refused (long : ∀ token, decodeRdmaTokenHex text = some token →
        n ≤ (clientNicOf token).length) :
      ClientNic text memory n (.InvalidValue, 0 :: memory.drop 1)

theorem drop_take_append_drop (memory : List Byte) {k n : Nat} (hk : k ≤ n) :
    (memory.take n).drop k ++ memory.drop n = memory.drop k := by
  have hdrop : memory.drop n = (memory.drop k).drop (n - k) := by
    rw [List.drop_drop, Nat.add_sub_cancel' hk]
  rw [List.drop_take, hdrop, List.take_append_drop]

theorem clientNic_hipObjTokenClientNicAt (htext : 0 ∉ text) (rest : List Byte) (hn : 0 < n)
    (hmem : n ≤ memory.length) :
    ClientNic text memory n (hipObjTokenClientNicAt (text ++ 0 :: rest) memory n) := by
  have hlen : (memory.take n).length = n := List.length_take_of_le hmem
  have hne : memory.take n ≠ [] := List.length_pos_iff.mp (hlen.symm ▸ hn)
  have hrest : (0 : Byte) :: (memory.take n).drop 1 ++ memory.drop n = 0 :: memory.drop 1 :=
    congrArg (0 :: ·) (drop_take_append_drop memory hn)
  unfold hipObjTokenClientNicAt
  cases hdecode : decodeRdmaTokenHex text with
  | none =>
      rw [hipObjTokenClientNic_of_none htext rest hne hdecode]
      simp only [hrest]
      refine .refused ?_
      intro token htoken
      cases hdecode.symm.trans htoken
  | some token =>
      by_cases hfits : (clientNicOf token).length < n
      · rw [hipObjTokenClientNic_of_fits htext rest hdecode (hlen.symm ▸ hfits)]
        simp only [List.append_assoc, List.cons_append, drop_take_append_drop memory hfits]
        exact .answered token hdecode hfits
      · have hlong : n ≤ (clientNicOf token).length := Nat.le_of_not_lt hfits
        rw [hipObjTokenClientNic_of_long htext rest hne hdecode (hlen.symm ▸ hlong)]
        simp only [hrest]
        refine .refused ?_
        intro token' htoken
        cases hdecode.symm.trans htoken
        exact hlong

theorem clientNic_fits_iff {token : RdmaToken} (hn : 0 < n) :
    (clientNicOf token).length < n ↔ isIpv4MappedGid token.gid = false ∨
      (dottedQuad (ipv4OfGid token.gid)).length < n := by
  unfold clientNicOf
  cases isIpv4MappedGid token.gid with
  | false => simp [hn]
  | true => simp

/-- The NUL that ends a text ends what is seen of it. -/
theorem cStringView_nul (htext : 0 ∉ text) (rest rest' : List Byte) (limit : Nat) :
    cStringView (text ++ 0 :: rest) limit = cStringView (text ++ 0 :: rest') limit := by
  unfold cStringView
  induction text generalizing limit with
  | nil =>
      cases limit with
      | zero => rfl
      | succ limit => simp
  | cons c cs ih =>
      have hcs : 0 ∉ cs := fun h => htext (List.mem_cons_of_mem c h)
      cases limit with
      | zero => rfl
      | succ limit =>
          simp only [List.cons_append, List.take_succ_cons, List.takeWhile_cons]
          rw [ih hcs limit]

/-- Only what is seen of the input and the span of the buffer are used. -/
theorem hipObjTokenClientNicAt_congr {input input' memory memory' : List Byte} {n : Nat}
    (hinput : cStringView input (kRdmaTokenHexLen + 1) =
      cStringView input' (kRdmaTokenHexLen + 1))
    (hmemory : memory.take n = memory'.take n) :
    ∃ err nicIp, hipObjTokenClientNicAt input memory n = (err, nicIp ++ memory.drop n) ∧
      hipObjTokenClientNicAt input' memory' n = (err, nicIp ++ memory'.drop n) := by
  unfold hipObjTokenClientNicAt hipObjTokenClientNic
  rw [hinput, hmemory]
  exact ⟨_, _, rfl, rfl⟩

variable {nic : OpError × List Byte}

theorem ClientNic.success_iff (h : ClientNic text memory n nic) (hn : 0 < n) :
    nic.1 = .Success ↔ ∃ token, decodeRdmaTokenHex text = some token ∧
      (isIpv4MappedGid token.gid = false ∨ (dottedQuad (ipv4OfGid token.gid)).length < n) := by
  cases h with
  | answered token decoded fits =>
      exact iff_of_true rfl ⟨token, decoded, (clientNic_fits_iff hn).mp fits⟩
  | refused long =>
      refine iff_of_false (by simp) ?_
      rintro ⟨token, hdecode, hfits⟩
      have hshort := (clientNic_fits_iff hn).mpr hfits
      have hlong := long token hdecode
      omega

/-- On success the memory holds the string that the token gives. -/
theorem ClientNic.holdsString (h : ClientNic text memory n nic) {token : RdmaToken}
    (hdecode : decodeRdmaTokenHex text = some token) (hok : nic.1 = .Success) :
    HoldsString nic.2 n (clientNicOf token) := by
  cases h with
  | answered token' decoded fits =>
      cases decoded.symm.trans hdecode
      refine ⟨nul_not_mem_clientNicOf token, fits, ?_⟩
      simp [List.take_append]
  | refused long => cases hok

theorem ClientNic.eq_of_failure (h : ClientNic text memory n nic) (hfailed : nic.1 ≠ .Success) :
    nic.2 = 0 :: memory.drop 1 := by
  cases h with
  | answered token decoded fits => exact absurd rfl hfailed
  | refused long => rfl

/-- A string and its NUL in front of what they leave of the memory. -/
theorem drop_string (memory string : List Byte) (hfits : string.length < n)
    (hmem : n ≤ memory.length) :
    (string ++ 0 :: memory.drop (string.length + 1)).length = memory.length ∧
      (string ++ 0 :: memory.drop (string.length + 1)).drop n = memory.drop n := by
  constructor
  · simp only [List.length_append, List.length_cons, List.length_drop]
    omega
  · obtain ⟨k, hk⟩ : ∃ k, n - string.length = k + 1 := ⟨n - string.length - 1, by omega⟩
    rw [List.drop_append, List.drop_of_length_le (by omega), hk, List.drop_succ_cons,
      List.drop_drop, List.nil_append]
    congr 1
    omega

theorem ClientNic.keeps (h : ClientNic text memory n nic) (hn : 0 < n) (hmem : n ≤ memory.length) :
    nic.2.length = memory.length ∧ nic.2.drop n = memory.drop n := by
  cases h with
  | answered token decoded fits => exact drop_string memory (clientNicOf token) fits hmem
  | refused long => exact drop_string memory [] hn hmem

end Memory

/-- For every text that ends with a NUL and every buffer, the call succeeds if and
only if the text is a token whose GID has no IPv4 address or one that fits with
its NUL. Then the buffer holds that address, which reads back as the bytes of the
GID, or an empty string; else its first byte is a NUL and the others are as they
were. Nothing past the buffer is written, and neither that nor the input past its
NUL or past its 89th byte makes a difference. -/
theorem tokenClientNic_exact (text rest memory : List Byte) (n : Nat) (htext : 0 ∉ text)
    (hn : 0 < n) (hmem : n ≤ memory.length) :
    ((hipObjTokenClientNicAt (text ++ 0 :: rest) memory n).1 = .Success ↔
      ∃ token, decodeRdmaTokenHex text = some token ∧ (isIpv4MappedGid token.gid = false ∨
        (dottedQuad (ipv4OfGid token.gid)).length < n)) ∧
    (∀ token, decodeRdmaTokenHex text = some token →
      (hipObjTokenClientNicAt (text ++ 0 :: rest) memory n).1 = .Success →
      (isIpv4MappedGid token.gid = false →
        HoldsString (hipObjTokenClientNicAt (text ++ 0 :: rest) memory n).2 n []) ∧
      (isIpv4MappedGid token.gid = true →
        HoldsString (hipObjTokenClientNicAt (text ++ 0 :: rest) memory n).2 n
          (dottedQuad (ipv4OfGid token.gid)) ∧
        parseDottedQuad (dottedQuad (ipv4OfGid token.gid)) = some (ipv4OfGid token.gid))) ∧
    ((hipObjTokenClientNicAt (text ++ 0 :: rest) memory n).1 ≠ .Success →
      (hipObjTokenClientNicAt (text ++ 0 :: rest) memory n).2 = 0 :: memory.drop 1) ∧
    (hipObjTokenClientNicAt (text ++ 0 :: rest) memory n).2.length = memory.length ∧
    (hipObjTokenClientNicAt (text ++ 0 :: rest) memory n).2.drop n = memory.drop n ∧
    (∀ input, (∃ rest', input = text ++ 0 :: rest') ∨
        input.take 89 = (text ++ 0 :: rest).take 89 →
      ∀ memory', memory'.take n = memory.take n →
        ∃ err nicIp,
          hipObjTokenClientNicAt (text ++ 0 :: rest) memory n = (err, nicIp ++ memory.drop n) ∧
          hipObjTokenClientNicAt input memory' n = (err, nicIp ++ memory'.drop n)) := by
  have hnic := clientNic_hipObjTokenClientNicAt htext rest hn hmem
  refine ⟨hnic.success_iff hn, ?_, hnic.eq_of_failure, (hnic.keeps hn hmem).1,
    (hnic.keeps hn hmem).2, ?_⟩
  · intro token hdecode hok
    have hholds := hnic.holdsString hdecode hok
    constructor
    · intro hmapped
      rwa [clientNicOf, hmapped, if_neg Bool.false_ne_true] at hholds
    · intro hmapped
      rw [clientNicOf, if_pos hmapped] at hholds
      exact ⟨hholds, parseDottedQuad_dottedQuad (by simp [ipv4OfGid])⟩
  · intro input hinput memory' hmemory
    refine hipObjTokenClientNicAt_congr ?_ hmemory.symm
    rcases hinput with ⟨rest', rfl⟩ | hsame
    · exact cStringView_nul htext rest rest' _
    · exact congrArg (List.takeWhile _) hsame.symm

/-- A token of a client at 192.168.100.200. -/
def ipv4Token : RdmaToken where
  transport := .RC
  qpNum := 7
  gid := #v[0, 0, 0, 0, 0, 0, 0, 0, 0, 0, 0xff, 0xff, 192, 168, 100, 200]
  rkey := 1
  remoteAddr := 4096
  length := 64
  portNum := 1
  lid := 0

/-- The longest address fits a buffer of 16 bytes, and not one of 15. -/
theorem ipv4Token_needs_sixteen :
    (HoldsString (hipObjTokenClientNicAt (encodeRdmaToken ipv4Token ++ 0 :: [])
        (List.replicate 16 7) 16).2 16 (dottedQuad [192, 168, 100, 200])) ∧
      (hipObjTokenClientNicAt (encodeRdmaToken ipv4Token ++ 0 :: []) (List.replicate 16 7) 15).2 =
        0 :: List.replicate 15 7 := by
  have htext : 0 ∉ encodeRdmaToken ipv4Token := by decide +kernel
  have hdecode : decodeRdmaTokenHex (encodeRdmaToken ipv4Token) = some ipv4Token :=
    decodeRdmaTokenHex_encode (by decide)
  have hquad : (dottedQuad [192, 168, 100, 200]).length = 15 := by
    simp [dottedQuad_four, natToDecimal]
  constructor
  · obtain ⟨hiff, hholds, -⟩ := tokenClientNic_exact (encodeRdmaToken ipv4Token) []
      (List.replicate 16 7) 16 htext (by decide) (by decide)
    have hok := hiff.mpr ⟨ipv4Token, hdecode, .inr (length_dottedQuad_lt _)⟩
    exact ((hholds ipv4Token hdecode hok).2 (by decide)).1
  · obtain ⟨hiff, -, hfailed, -⟩ := tokenClientNic_exact (encodeRdmaToken ipv4Token) []
      (List.replicate 16 7) 15 htext (by decide) (by decide)
    refine hfailed fun hok => ?_
    obtain ⟨token, htoken, hfits⟩ := hiff.mp hok
    cases hdecode.symm.trans htoken
    rcases hfits with hnot | hshort
    · cases hnot
    · change (dottedQuad [192, 168, 100, 200]).length < 15 at hshort
      omega

end HipObject.Bridge
