import HipObject.Codec.Decimal
import HipObject.Rdma.TokenCodec
import Mathlib.Data.List.DropRight

/-!
# RDMA replies

The value of the `x-amz-rdma-reply` header, as `rdma/token.cpp` reads it. One
parser strips trailing NUL, CR and LF characters, splits at the first colon and
reads a status and an optional peer token; three public readers look at its
result from different sides. `ReplyForm` is the grammar that
`docs/interop.rst` lists, and `parseReply_eq_some_iff` says that the parser
accepts exactly that grammar, with the code and the token the grammar gives.
-/

namespace HipObject

open Codec

/-- What an `x-amz-rdma-reply` value says about the transfer. -/
inductive RdmaReplyStatus where
  | Success
  | Failed
  | NotSupported
  deriving DecidableEq, Repr

def kHttpOk : Int := 200
def kHttpNoContent : Int := 204
def kHttpPartialContent : Int := 206

/-- The range of HTTP status codes. -/
def kHttpStatusMin : BitVec 32 := 100
def kHttpStatusMax : BitVec 32 := 599

/-- The status of a server that declined RDMA. -/
def HIPOBJ_RDMA_REPLY_NOT_IMPLEMENTED : Int := 501

def isSuccessHttpCode (code : Int) : Bool :=
  code == kHttpOk || code == kHttpNoContent || code == kHttpPartialContent

/-- An `x-amz-rdma-reply` value: its HTTP status (200 for "ok", -1 for "err"),
and the peer token if it carries one. -/
structure ParsedReply where
  httpCode : Int
  peerToken : Option RdmaToken
  deriving DecidableEq

def okText : List Byte := [ascii 'o', ascii 'k']
def errText : List Byte := [ascii 'e', ascii 'r', ascii 'r']

/-- A character that is ignored at the end of a reply. -/
def isTrailing (c : Byte) : Bool := c == 0 || c == ascii '\n' || c == ascii '\r'

/-- The value of a reply, once its trailing characters are gone. -/
def parseReplyValue (value : List Byte) : Option ParsedReply :=
  if value = okText then some ⟨kHttpOk, none⟩
  else if value = errText then some ⟨-1, none⟩
  else
    -- `value.substr(0, value.find(':'))`, which is all of it without a colon
    let status := value.takeWhile (· != ascii ':')
    if status.length ≠ 3 then none
    else match parseNumber 32 status 10 with
      | none => none
      | some parsed =>
          if parsed < kHttpStatusMin ∨ kHttpStatusMax < parsed then none
          else if status.length = value.length then some ⟨parsed.toNat, none⟩
          else if (parsed.toNat : Int) ≠ kHttpOk then none
          else match decodeRdmaTokenHex (value.drop (status.length + 1)) with
            | none => none
            | some token => some ⟨parsed.toNat, some token⟩

/-- Parses an `x-amz-rdma-reply` value. -/
def parseReply (reply : List Byte) : Option ParsedReply :=
  parseReplyValue (reply.rdropWhile isTrailing)

def parseRdmaReplyHttpCode (reply : List Byte) : Option Int :=
  match parseReply reply with
  | none => none
  | some parsed => some parsed.httpCode

def decodeRdmaReply (reply : List Byte) : Option RdmaReplyStatus :=
  match parseRdmaReplyHttpCode reply with
  | none => none
  | some httpCode =>
      if httpCode = HIPOBJ_RDMA_REPLY_NOT_IMPLEMENTED then some .NotSupported
      else if isSuccessHttpCode httpCode then some .Success
      else some .Failed

def parsePeerTokenFromReply (reply : List Byte) : Option RdmaToken :=
  match parseReply reply with
  | none => none
  | some parsed => parsed.peerToken

def encodeReplyWithPeerToken (httpCode : Int) (peerToken : RdmaToken) : List Byte :=
  toDecimal httpCode ++ ascii ':' :: encodeRdmaToken peerToken

/-! ### The grammar -/

/-- The forms of a reply without its trailing characters, each with its status
code and the peer token it carries. -/
inductive ReplyForm : List Byte → Int → Option RdmaToken → Prop where
  | ok : ReplyForm okText 200 none
  | err : ReplyForm errText (-1) none
  | status {text : List Byte} (length : text.length = 3)
      (digits : ∀ c ∈ text, IsDecimalDigit c)
      (range : 100 ≤ decimalValue text ∧ decimalValue text ≤ 599) :
      ReplyForm text (decimalValue text) none
  | peer {hex : List Byte} {token : RdmaToken} (decoded : decodeRdmaTokenHex hex = some token) :
      ReplyForm ([ascii '2', ascii '0', ascii '0', ascii ':'] ++ hex) 200 (some token)

/-- A reply is one of the forms, followed by any number of NUL, CR or LF. -/
def ReplyGrammar (reply : List Byte) (code : Int) (token : Option RdmaToken) : Prop :=
  ∃ value tail, reply = value ++ tail ∧ (∀ c ∈ tail, isTrailing c) ∧ ReplyForm value code token

/-! ### The parser accepts the grammar -/

/-- Three decimal digits that spell 200 are `200`. -/
theorem eq_twoHundred {text : List Byte} (hlen : text.length = 3)
    (hdigits : ∀ c ∈ text, IsDecimalDigit c) (hvalue : decimalValue text = 200) :
    text = [ascii '2', ascii '0', ascii '0'] := by
  match text, hlen with
  | [a, b, c], _ =>
      have ha : 48#8 ≤ a ∧ a ≤ 57#8 := hdigits a (by simp)
      have hb : 48#8 ≤ b ∧ b ≤ 57#8 := hdigits b (by simp)
      have hc : 48#8 ≤ c ∧ c ≤ 57#8 := hdigits c (by simp)
      simp only [decimalValue, ofDigits, List.map_cons, List.map_nil, List.foldl_cons,
        List.foldl_nil] at hvalue
      have ha2 : a = 50#8 := by bv_omega
      have hb0 : b = 48#8 := by bv_omega
      have hc0 : c = 48#8 := by bv_omega
      rw [ha2, hb0, hc0]
      rfl

/-- What comes after the status is a colon and the rest of the value. -/
theorem eq_status_append {value : List Byte}
    (hlen : (value.takeWhile (· != ascii ':')).length ≠ value.length) :
    value = value.takeWhile (· != ascii ':') ++
      ascii ':' :: value.drop ((value.takeWhile (· != ascii ':')).length + 1) := by
  have hsplit := List.takeWhile_append_dropWhile (p := (· != ascii ':')) (l := value)
  cases hrest : value.dropWhile (· != ascii ':') with
  | nil =>
      rw [hrest, List.append_nil] at hsplit
      rw [hsplit] at hlen
      exact absurd rfl hlen
  | cons c cs =>
      have hcolon : c = ascii ':' := by
        have h := List.head?_dropWhile_not (· != ascii ':') value
        simpa [hrest] using h
      rw [hrest, hcolon] at hsplit
      generalize value.takeWhile (· != ascii ':') = status at hsplit
      subst hsplit
      simp [List.drop_append]

/-- Everything the parser accepts has one of the forms. -/
theorem replyForm_of_parseReplyValue {value : List Byte} {code : Int} {token : Option RdmaToken}
    (h : parseReplyValue value = some ⟨code, token⟩) : ReplyForm value code token := by
  rw [parseReplyValue] at h
  split at h
  · rename_i hok
    cases h
    rw [hok]
    exact .ok
  · split at h
    · rename_i _ herr
      cases h
      rw [herr]
      exact .err
    · simp only at h
      split at h
      · cases h
      · rename_i _ _ hlen
        have hlen : (value.takeWhile (· != ascii ':')).length = 3 := by simpa using hlen
        split at h
        · cases h
        · rename_i parsed hparsed
          obtain ⟨-, hdigits, hvalue⟩ := parseNumber_ten_eq_some_iff.mp hparsed
          split at h
          · cases h
          · rename_i hrange
            have hmin : 100 ≤ parsed.toNat := by
              have : ¬ parsed < 100#32 := fun hlt => hrange (.inl hlt)
              bv_omega
            have hmax : parsed.toNat ≤ 599 := by
              have : ¬ 599#32 < parsed := fun hlt => hrange (.inr hlt)
              bv_omega
            split at h
            · -- No colon: the status is all there is.
              rename_i hall
              have hself : value.takeWhile (· != ascii ':') = value :=
                (List.takeWhile_prefix _).eq_of_length hall
              cases h
              rw [← hvalue, hself]
              rw [hself] at hlen hdigits hvalue
              exact .status hlen hdigits ⟨by omega, by omega⟩
            · rename_i hcolon
              split at h
              · cases h
              · rename_i hcode
                split at h
                · cases h
                · rename_i peer hpeer
                  cases h
                  have htwo : parsed.toNat = 200 := by
                    have : (parsed.toNat : Int) = 200 := by simpa [kHttpOk] using hcode
                    omega
                  have hstatus := eq_twoHundred hlen hdigits (hvalue.trans htwo)
                  rw [eq_status_append hcolon, hstatus, htwo]
                  rw [hstatus] at hpeer
                  exact .peer hpeer

/-- The status of a value is what comes before its first colon. -/
theorem takeWhile_digits {digits : List Byte} (h : ∀ c ∈ digits, IsDecimalDigit c)
    (rest : List Byte) :
    (digits ++ ascii ':' :: rest).takeWhile (· != ascii ':') = digits ∧
      digits.takeWhile (· != ascii ':') = digits := by
  have hne : ∀ c ∈ digits, (c != ascii ':') = true := by
    intro c hc
    have hdigit := h c hc
    rw [bne_iff_ne]
    rintro rfl
    exact absurd hdigit (by decide)
  refine ⟨?_, List.takeWhile_eq_self_iff.mpr hne⟩
  rw [List.takeWhile_append_of_pos hne]
  simp

/-- Every form is accepted, with its code and token. -/
theorem parseReplyValue_of_replyForm {value : List Byte} {code : Int} {token : Option RdmaToken}
    (h : ReplyForm value code token) : parseReplyValue value = some ⟨code, token⟩ := by
  cases h with
  | ok => rfl
  | err => rfl
  | status hlen hdigits hrange =>
      have hok : value ≠ okText := by
        rintro rfl
        cases hlen
      have herr : value ≠ errText := by
        rintro rfl
        exact absurd (hdigits (ascii 'e') (by simp [errText])) (by decide)
      have hself := (takeWhile_digits hdigits []).2
      have hparsed : parseNumber 32 value 10 = some (BitVec.ofNat 32 (decimalValue value)) := by
        have hnonempty : value ≠ [] := by
          rintro rfl
          cases hlen
        rw [parseNumber_ten_eq_some_iff]
        refine ⟨hnonempty, hdigits, ?_⟩
        rw [BitVec.toNat_ofNat, Nat.mod_eq_of_lt (by omega)]
      have htoNat : (BitVec.ofNat 32 (decimalValue value)).toNat = decimalValue value := by
        rw [BitVec.toNat_ofNat, Nat.mod_eq_of_lt (by omega)]
      have hbounds : ¬ (BitVec.ofNat 32 (decimalValue value) < kHttpStatusMin ∨
          kHttpStatusMax < BitVec.ofNat 32 (decimalValue value)) := by
        simp only [BitVec.lt_def, htoNat, kHttpStatusMin, kHttpStatusMax]
        simp
        omega
      simp only [parseReplyValue, if_neg hok, if_neg herr, hself, hlen, ne_eq, not_true_eq_false,
        if_false, hparsed, if_neg hbounds, if_true, htoNat]
  | @peer hex peerToken hdecoded =>
      have htwo : ∀ c ∈ [ascii '2', ascii '0', ascii '0'], IsDecimalDigit c := by decide
      have hstatus : ([ascii '2', ascii '0', ascii '0', ascii ':'] ++ hex).takeWhile
          (· != ascii ':') = [ascii '2', ascii '0', ascii '0'] := (takeWhile_digits htwo hex).1
      have hparsed : parseNumber 32 [ascii '2', ascii '0', ascii '0'] 10 = some 200#32 := by decide
      have hok : [ascii '2', ascii '0', ascii '0', ascii ':'] ++ hex ≠ okText := by
        intro heq
        exact absurd (congrArg List.length heq) (by simp [okText])
      have herr : [ascii '2', ascii '0', ascii '0', ascii ':'] ++ hex ≠ errText := by
        intro heq
        exact absurd (congrArg List.length heq) (by simp [errText])
      simp only [parseReplyValue, if_neg hok, if_neg herr, hstatus, hparsed]
      simp [kHttpStatusMin, kHttpStatusMax, kHttpOk, hdecoded]

/-! ### Trailing characters -/

theorem isTrailing_of_isHexDigit {c : Byte} (h : IsHexDigit c) : isTrailing c = false := by
  revert h
  revert c
  apply forall_byte
  decide +kernel

/-- No form ends in a character that is ignored. -/
theorem ReplyForm.getLast_not_trailing {value : List Byte} {code : Int}
    {token : Option RdmaToken} (h : ReplyForm value code token) :
    ∃ front c, value = front ++ [c] ∧ isTrailing c = false := by
  cases h with
  | ok => exact ⟨[ascii 'o'], ascii 'k', rfl, by decide⟩
  | err => exact ⟨[ascii 'e', ascii 'r'], ascii 'r', rfl, by decide⟩
  | status hlen hdigits _ =>
      match value, hlen with
      | [a, b, c], _ =>
          refine ⟨[a, b], c, rfl, isTrailing_of_isHexDigit ?_⟩
          exact .inl (hdigits c (by simp))
  | @peer hex peerToken hdecoded =>
      obtain ⟨hlen, hdigits, -⟩ := (token_text_iff hex).mp (by simp [hdecoded])
      have hne : hex ≠ [] := by
        rintro rfl
        cases hlen
      refine ⟨[ascii '2', ascii '0', ascii '0', ascii ':'] ++ hex.dropLast, hex.getLast hne, ?_,
        isTrailing_of_isHexDigit (hdigits _ (List.getLast_mem hne))⟩
      rw [List.append_assoc, List.dropLast_append_getLast hne]

/-- Trailing characters are stripped from a value that does not end in one, and
only from its end. -/
theorem rdropWhile_append {p : Byte → Bool} {front tail : List Byte} {c : Byte}
    (hc : p c = false) (htail : ∀ d ∈ tail, p d) :
    (front ++ [c] ++ tail).rdropWhile p = front ++ [c] := by
  induction tail using List.reverseRecOn with
  | nil => rw [List.append_nil, List.rdropWhile_concat_neg _ _ _ (by simp [hc])]
  | append_singleton tail d ih =>
      rw [← List.append_assoc, List.rdropWhile_concat_pos _ _ _ (htail d (by simp))]
      exact ih fun e he => htail e (by simp [he])

/-- The parser accepts exactly the grammar. -/
theorem parseReply_eq_some_iff (reply : List Byte) (code : Int) (token : Option RdmaToken) :
    parseReply reply = some ⟨code, token⟩ ↔ ReplyGrammar reply code token := by
  constructor
  · intro h
    refine ⟨reply.rdropWhile isTrailing, reply.rtakeWhile isTrailing, ?_, ?_,
      replyForm_of_parseReplyValue h⟩
    · exact (List.rdropWhile_append_rtakeWhile).symm
    · intro c hc
      exact List.mem_rtakeWhile_imp hc
  · rintro ⟨value, tail, rfl, htail, hform⟩
    obtain ⟨front, c, rfl, hc⟩ := hform.getLast_not_trailing
    rw [parseReply, rdropWhile_append hc htail]
    exact parseReplyValue_of_replyForm hform

/-! ### The readers and the encoder -/

theorem parseRdmaReplyHttpCode_eq_some_iff (reply : List Byte) (code : Int) :
    parseRdmaReplyHttpCode reply = some code ↔ ∃ token, ReplyGrammar reply code token := by
  simp only [← parseReply_eq_some_iff, parseRdmaReplyHttpCode]
  cases h : parseReply reply with
  | none => simp
  | some parsed =>
      obtain ⟨httpCode, peerToken⟩ := parsed
      simp [eq_comm]

theorem parsePeerTokenFromReply_eq_some_iff (reply : List Byte) (token : RdmaToken) :
    parsePeerTokenFromReply reply = some token ↔
      ∃ code, ReplyGrammar reply code (some token) := by
  simp only [← parseReply_eq_some_iff, parsePeerTokenFromReply]
  cases h : parseReply reply with
  | none => simp
  | some parsed =>
      obtain ⟨httpCode, peerToken⟩ := parsed
      simp

/-- The status that a code stands for. -/
def replyStatus (code : Int) : RdmaReplyStatus :=
  if code = 501 then .NotSupported
  else if code = 200 ∨ code = 204 ∨ code = 206 then .Success
  else .Failed

theorem decodeRdmaReply_eq (reply : List Byte) :
    decodeRdmaReply reply = (parseRdmaReplyHttpCode reply).map replyStatus := by
  rw [decodeRdmaReply]
  cases parseRdmaReplyHttpCode reply with
  | none => rfl
  | some code =>
      have hsuccess : isSuccessHttpCode code = true ↔ code = 200 ∨ code = 204 ∨ code = 206 := by
        simp [isSuccessHttpCode, kHttpOk, kHttpNoContent, kHttpPartialContent, or_assoc]
      rw [Option.map_some, replyStatus]
      by_cases hdeclined : code = HIPOBJ_RDMA_REPLY_NOT_IMPLEMENTED
      · rw [if_pos (show code = 501 from hdeclined)]
        exact if_pos hdeclined
      · rw [if_neg (show ¬ code = 501 from hdeclined)]
        refine (if_neg hdeclined).trans ?_
        by_cases hcode : isSuccessHttpCode code = true
        · rw [if_pos hcode, if_pos (hsuccess.mp hcode)]
        · rw [if_neg hcode, if_neg (fun h => hcode (hsuccess.mpr h))]

/-- A form carries a token only with the code 200. -/
theorem ReplyGrammar.code_of_token {reply : List Byte} {code : Int} {token : RdmaToken}
    (h : ReplyGrammar reply code (some token)) : code = 200 := by
  obtain ⟨value, tail, -, -, hform⟩ := h
  cases hform
  rfl

/-- The part of an encoded reply before its first colon is the printed code. -/
theorem takeWhile_encodeReply (code : Int) (token : RdmaToken) :
    (encodeReplyWithPeerToken code token).takeWhile (· != ascii ':') = toDecimal code := by
  have hne : ∀ c ∈ toDecimal code, (c != ascii ':') = true := by
    intro c hc
    rw [bne_iff_ne]
    rintro rfl
    exact not_mem_toDecimal (by decide) (by decide) hc
  rw [encodeReplyWithPeerToken, List.takeWhile_append_of_pos hne]
  simp

/-- An encoded reply ends in a digit, so nothing is stripped from it. -/
theorem parseReply_encode (code : Int) (token : RdmaToken) :
    parseReply (encodeReplyWithPeerToken code token) =
      parseReplyValue (encodeReplyWithPeerToken code token) := by
  have hlen : (encodeRdmaToken token).length = 88 := length_encodeRdmaToken token
  have hne : encodeRdmaToken token ≠ [] := by
    intro hnil
    rw [hnil] at hlen
    cases hlen
  have hlast : IsHexDigit ((encodeRdmaToken token).getLast hne) := by
    have hmem := List.getLast_mem hne
    revert hmem
    generalize (encodeRdmaToken token).getLast hne = c
    rw [encodeRdmaToken, take_encodeRdmaTokenHex]
    exact fun hmem => (writePairs_lowercase _ c hmem).1
  have hsplit : encodeReplyWithPeerToken code token =
      (toDecimal code ++ ascii ':' :: (encodeRdmaToken token).dropLast) ++
        [(encodeRdmaToken token).getLast hne] := by
    rw [encodeReplyWithPeerToken, List.append_assoc, List.cons_append,
      List.dropLast_append_getLast hne]
  rw [parseReply, hsplit, List.rdropWhile_concat_neg _ _ _
    (by simp [isTrailing_of_isHexDigit hlast])]

/-- An encoded reply is accepted only when its code is 200: a value with a
colon can only be the form that carries a token. -/
theorem code_of_parseReply_encode {code : Int} {token : RdmaToken} {parsed : ParsedReply}
    (h : parseReply (encodeReplyWithPeerToken code token) = some parsed) : code = 200 := by
  obtain ⟨httpCode, peerToken⟩ := parsed
  rw [parseReply_encode] at h
  have hcolon : ascii ':' ∈ encodeReplyWithPeerToken code token := by
    simp [encodeReplyWithPeerToken]
  have hstatus := takeWhile_encodeReply code token
  generalize encodeReplyWithPeerToken code token = value at h hcolon hstatus
  cases replyForm_of_parseReplyValue h with
  | ok => exact absurd hcolon (by decide)
  | err => exact absurd hcolon (by decide)
  | status _ hdigits _ => exact absurd (hdigits _ hcolon) (by decide)
  | @peer hex _ _ =>
      have htwo : ∀ c ∈ [ascii '2', ascii '0', ascii '0'], IsDecimalDigit c := by decide
      have htext : toDecimal code = [ascii '2', ascii '0', ascii '0'] :=
        hstatus.symm.trans (takeWhile_digits htwo hex).1
      have hparsed : parseNumber 32 (toDecimal code) 10 = some 200#32 := by
        rw [htext]
        decide
      exact eq_of_parseNumber_toDecimal hparsed

theorem toDecimal_twoHundred : toDecimal 200 = [ascii '2', ascii '0', ascii '0'] := by
  simp [toDecimal, natToDecimal, ascii]

/-- The three readers follow one grammar, and the encoder stays inside it
exactly for the code 200. -/
theorem reply_grammar :
    (∀ reply : List Byte,
      (∀ code, parseRdmaReplyHttpCode reply = some code ↔
        ∃ token, ReplyGrammar reply code token) ∧
      (∀ status, decodeRdmaReply reply = some status ↔
        ∃ code token, ReplyGrammar reply code token ∧
          (status = .Success ↔ code = 200 ∨ code = 204 ∨ code = 206) ∧
          (status = .NotSupported ↔ code = 501) ∧
          (status = .Failed ↔ code ≠ 200 ∧ code ≠ 204 ∧ code ≠ 206 ∧ code ≠ 501)) ∧
      (∀ token, parsePeerTokenFromReply reply = some token ↔
        ∃ code, ReplyGrammar reply code (some token)) ∧
      ((¬ ∃ code token, ReplyGrammar reply code token) →
        parseRdmaReplyHttpCode reply = none ∧ decodeRdmaReply reply = none ∧
          parsePeerTokenFromReply reply = none) ∧
      (∀ token, parsePeerTokenFromReply reply = some token →
        decodeRdmaReply reply = some .Success)) ∧
    (∀ (code : Int) (token : RdmaToken), token.HasTransport →
      (code = 200 →
        parsePeerTokenFromReply (encodeReplyWithPeerToken code token) = some token) ∧
      (code ≠ 200 →
        parseRdmaReplyHttpCode (encodeReplyWithPeerToken code token) = none ∧
        decodeRdmaReply (encodeReplyWithPeerToken code token) = none ∧
        parsePeerTokenFromReply (encodeReplyWithPeerToken code token) = none)) := by
  have hstatus : ∀ (code : Int) (status : RdmaReplyStatus), replyStatus code = status ↔
      (status = .Success ↔ code = 200 ∨ code = 204 ∨ code = 206) ∧
      (status = .NotSupported ↔ code = 501) ∧
      (status = .Failed ↔ code ≠ 200 ∧ code ≠ 204 ∧ code ≠ 206 ∧ code ≠ 501) := by
    intro code status
    rw [replyStatus]
    cases status <;> split_ifs <;> simp <;> omega
  have hreject : ∀ reply, parseReply reply = none →
      parseRdmaReplyHttpCode reply = none ∧ decodeRdmaReply reply = none ∧
        parsePeerTokenFromReply reply = none := by
    intro reply h
    simp [parseRdmaReplyHttpCode, decodeRdmaReply, parsePeerTokenFromReply, h]
  refine ⟨?_, ?_⟩
  · intro reply
    have hdecode : ∀ status, decodeRdmaReply reply = some status ↔
        ∃ code token, ReplyGrammar reply code token ∧ replyStatus code = status := by
      intro status
      rw [decodeRdmaReply_eq, Option.map_eq_some_iff]
      simp only [parseRdmaReplyHttpCode_eq_some_iff]
      exact ⟨fun ⟨code, ⟨token, h⟩, heq⟩ => ⟨code, token, h, heq⟩,
        fun ⟨code, token, h, heq⟩ => ⟨code, ⟨token, h⟩, heq⟩⟩
    refine ⟨parseRdmaReplyHttpCode_eq_some_iff reply, ?_,
      parsePeerTokenFromReply_eq_some_iff reply, ?_, ?_⟩
    · intro status
      simp only [hdecode, hstatus]
    · intro hnone
      apply hreject
      by_contra hsome
      obtain ⟨⟨code, token⟩, h⟩ := Option.ne_none_iff_exists'.mp hsome
      exact hnone ⟨code, token, (parseReply_eq_some_iff reply code token).mp h⟩
    · intro token htoken
      obtain ⟨code, hgrammar⟩ := (parsePeerTokenFromReply_eq_some_iff reply token).mp htoken
      refine (hdecode .Success).mpr ⟨code, some token, hgrammar, ?_⟩
      rw [hgrammar.code_of_token]
      rfl
  · intro code token htransport
    constructor
    · rintro rfl
      refine (parsePeerTokenFromReply_eq_some_iff _ token).mpr ⟨200, _, [], ?_, by simp,
        .peer (decodeRdmaTokenHex_encode htransport)⟩
      rw [encodeReplyWithPeerToken, toDecimal_twoHundred, List.append_nil]
      rfl
    · intro hcode
      apply hreject
      by_contra hsome
      obtain ⟨parsed, h⟩ := Option.ne_none_iff_exists'.mp hsome
      exact hcode (code_of_parseReply_encode h)

end HipObject
