import HipObject.Rdma.Token

/-!
# The token codec

Encoding and decoding are inverse to each other on tokens with a named
transport, the encoding is the documented layout, and the decoder accepts
exactly the texts of 88 hexadecimal digits whose first byte names a transport.
A text that is accepted comes back from the encoder with its letters in
lowercase, so two texts that differ in more than case are different tokens.
-/

namespace HipObject

open Codec

theorem take_encodeRdmaTokenHex (token : RdmaToken) :
    (encodeRdmaTokenHex token).take kRdmaTokenHexLen = writePairs (tokenBinary token) := by
  rw [encodeRdmaTokenHex, List.take_append_of_le_length (by simp [kRdmaTokenHexLen,
    kTokenBinaryLen, kGidLen])]
  exact List.take_of_length_le (by simp [kRdmaTokenHexLen, kTokenBinaryLen, kGidLen])

@[simp] theorem length_encodeRdmaTokenHex (token : RdmaToken) :
    (encodeRdmaTokenHex token).length = kRdmaTokenHexLen + 1 := by
  simp [encodeRdmaTokenHex, kRdmaTokenHexLen, kTokenBinaryLen, kGidLen]

@[simp] theorem length_encodeRdmaToken (token : RdmaToken) :
    (encodeRdmaToken token).length = kRdmaTokenHexLen := by
  rw [encodeRdmaToken, List.length_take, length_encodeRdmaTokenHex]
  omega

/-- A decoded text is its length, its pairs and its first byte. -/
theorem decodeRdmaTokenHex_eq_some_iff (text : List Byte) (token : RdmaToken) :
    decodeRdmaTokenHex text = some token ↔
      text.length = kRdmaTokenHexLen ∧ ∃ buf, parsePairs kTokenBinaryLen text = some buf ∧
        readTokenBinary buf = some token := by
  rw [decodeRdmaTokenHex]
  by_cases hlen : text.length = kRdmaTokenHexLen
  · simp [hlen, Option.bind_eq_some_iff]
  · simp [hlen]

/-- The encoder's output is read back. -/
theorem decodeRdmaTokenHex_encode {token : RdmaToken} (htransport : token.HasTransport) :
    decodeRdmaTokenHex (encodeRdmaToken token) = some token := by
  rw [decodeRdmaTokenHex_eq_some_iff]
  refine ⟨length_encodeRdmaToken token, tokenBinary token, ?_,
    readTokenBinary_tokenBinary htransport⟩
  have hpairs := parsePairs_writePairs (tokenBinary token) []
  rwa [length_tokenBinary, List.append_nil, ← take_encodeRdmaTokenHex] at hpairs

/-- Encoding what was decoded gives the text back in lowercase. -/
theorem encode_of_decodeRdmaTokenHex {text : List Byte} {token : RdmaToken}
    (h : decodeRdmaTokenHex text = some token) :
    encodeRdmaToken token = text.map toLower := by
  obtain ⟨hlen, buf, hpairs, hread⟩ := (decodeRdmaTokenHex_eq_some_iff text token).mp h
  have hbuf := length_of_parsePairs (n := kTokenBinaryLen) hlen hpairs
  rw [encodeRdmaToken, take_encodeRdmaTokenHex, tokenBinary_of_readTokenBinary hbuf hread]
  exact (parsePairs_spec kTokenBinaryLen text hlen).2 buf hpairs

/-- Every digit the encoder writes is a lowercase hexadecimal digit. -/
theorem hexPair_lowercase (byte : Byte) :
    ∀ c ∈ hexPair byte, IsHexDigit c ∧ toLower c = c := by
  have hlt := byte.isLt
  intro c hc
  refine ⟨(isSome_digitValue_iff c).mp ((hexPair_spells byte).1 c hc), ?_⟩
  rw [hexPair, toNat_highNibble, toNat_lowNibble] at hc
  simp only [List.mem_cons, List.not_mem_nil, or_false] at hc
  rcases hc with rfl | rfl
  · exact toLower_kHexDigits (by omega)
  · exact toLower_kHexDigits (by omega)

theorem writePairs_lowercase (bytes : List Byte) :
    ∀ c ∈ writePairs bytes, IsHexDigit c ∧ toLower c = c := by
  intro c hc
  obtain ⟨byte, -, hbyte⟩ := List.mem_flatMap.mp hc
  exact hexPair_lowercase byte c hbyte

/-- Only a decimal digit itself has that digit as its lowercase form. -/
theorem eq_of_toLower_decimal {c d : Byte} (hd : d ≤ ascii '9') (h : toLower c = d) : c = d := by
  rw [toLower] at h
  split at h
  · rename_i hcapital
    have hlow : 65#8 ≤ c := hcapital.1
    have hhigh : c ≤ 90#8 := hcapital.2
    have hdigit : d ≤ 57#8 := hd
    bv_omega
  · exact h

/-- The first byte that a text of digits spells is 0 or 1 exactly when the
text starts with `00` or `01`. -/
theorem firstByte_iff {text buf : List Byte} {n : Nat} (hlen : text.length = 2 * (n + 1))
    (h : parsePairs (n + 1) text = some buf) :
    (ofBytes 8 buf = 0 ∨ ofBytes 8 buf = 1) ↔
      (text.take 2 = [ascii '0', ascii '0'] ∨ text.take 2 = [ascii '0', ascii '1']) := by
  match text, hlen with
  | a :: b :: rest, hlen =>
      rw [parsePairs_cons] at h
      obtain ⟨byte, hbyte, h⟩ := Option.bind_eq_some_iff.mp h
      obtain ⟨others, -, rfl⟩ := Option.map_eq_some_iff.mp h
      have hfirst : ofBytes 8 (byte :: others) = byte := by
        have h := ofBytes_bytesOf_append (by decide) byte others
        rwa [bytesOf_byte] at h
      rw [hfirst]
      simp only [List.take_succ_cons, List.take_zero]
      have hpair := (parseNumber_pair a b).2 byte hbyte
      constructor
      · rintro (rfl | rfl)
        · injection hpair with ha hb
          injection hb with hb
          rw [eq_of_toLower_decimal (by decide) ha.symm, eq_of_toLower_decimal (by decide) hb.symm]
          exact .inl rfl
        · injection hpair with ha hb
          injection hb with hb
          rw [eq_of_toLower_decimal (by decide) ha.symm, eq_of_toLower_decimal (by decide) hb.symm]
          exact .inr rfl
      · rintro (htext | htext)
        · rw [htext, show parseNumber 8 [ascii '0', ascii '0'] 16 = some 0 by decide] at hbyte
          exact .inl (Option.some.inj hbyte).symm
        · rw [htext, show parseNumber 8 [ascii '0', ascii '1'] 16 = some 1 by decide] at hbyte
          exact .inr (Option.some.inj hbyte).symm

/-- The texts that the decoder accepts. -/
theorem token_text_iff (text : List Byte) :
    (decodeRdmaTokenHex text).isSome ↔
      text.length = 88 ∧ (∀ c ∈ text, IsHexDigit c) ∧
        (text.take 2 = [ascii '0', ascii '0'] ∨ text.take 2 = [ascii '0', ascii '1']) := by
  rw [Option.isSome_iff_exists]
  simp only [decodeRdmaTokenHex_eq_some_iff]
  constructor
  · rintro ⟨token, hlen, buf, hpairs, hread⟩
    have hdigits := (parsePairs_spec kTokenBinaryLen text hlen).1.mp (by simp [hpairs])
    have hbyte := ((readTokenBinary_eq_some_iff buf token).mp hread).1
    exact ⟨hlen, hdigits, (firstByte_iff hlen hpairs).mp hbyte⟩
  · rintro ⟨hlen, hdigits, hfirst⟩
    obtain ⟨buf, hpairs⟩ := Option.isSome_iff_exists.mp
      ((parsePairs_spec kTokenBinaryLen text hlen).1.mpr hdigits)
    have hbyte := (firstByte_iff hlen hpairs).mpr hfirst
    exact ⟨_, hlen, buf, hpairs, (readTokenBinary_eq_some_iff buf _).mpr ⟨hbyte, rfl⟩⟩

/-- The codec as a whole. -/
theorem token_codec :
    (∀ token : RdmaToken, token.HasTransport →
      decodeRdmaTokenHex ((encodeRdmaTokenHex token).take kRdmaTokenHexLen) = some token) ∧
    (∀ token : RdmaToken,
      encodeRdmaTokenHex token =
        (List.range 44).flatMap (fun i => hexPair (token.wireByte i)) ++ [0] ∧
      (encodeRdmaTokenHex token).length = 89 ∧
      ∀ c ∈ (encodeRdmaTokenHex token).take 88, IsHexDigit c ∧ toLower c = c) ∧
    (∀ text : List Byte, (decodeRdmaTokenHex text).isSome ↔
      text.length = 88 ∧ (∀ c ∈ text, IsHexDigit c) ∧
        (text.take 2 = [ascii '0', ascii '0'] ∨ text.take 2 = [ascii '0', ascii '1'])) ∧
    (∀ (text : List Byte) (token : RdmaToken), decodeRdmaTokenHex text = some token →
      (encodeRdmaTokenHex token).take kRdmaTokenHexLen = text.map toLower) := by
  refine ⟨fun token => decodeRdmaTokenHex_encode, ?_, token_text_iff, fun text token =>
    encode_of_decodeRdmaTokenHex⟩
  intro token
  refine ⟨?_, length_encodeRdmaTokenHex token, ?_⟩
  · rw [encodeRdmaTokenHex, tokenBinary_eq_wireBytes, writePairs, List.flatMap_map]
    rfl
  · rw [show (88 : Nat) = kRdmaTokenHexLen from rfl, take_encodeRdmaTokenHex]
    exact writePairs_lowercase _

end HipObject
