import HipObject.Codec.Decimal
import Mathlib.Data.List.DropRight
import Mathlib.Data.List.TakeDrop

/-!
# The texts of HTTP

What the test server makes of the text of a request, and the text it makes of a
response, following `parseRequest` and `serializeResponse`. A text is a list of
bytes. `getline` and `nextWord` are `std::getline` and `>>` on a string stream,
and `find` is `std::string::find`.

A header line is split at its first colon; the name is kept in lower case, and a
later line replaces an earlier one of the same name. Lines without a colon are
skipped.
-/

namespace HipObject.Server

open Codec

abbrev Text := List Byte

/-- `std::map<std::string, std::string>`, in the order of its keys. -/
abbrev HeaderMap := Std.TreeMap Text Text

/-- The bytes of a string literal. -/
def text (s : String) : Text := s.toList.map ascii

def tokenName : Text := text "x-amz-rdma-token"
def replyName : Text := text "x-amz-rdma-reply"

structure HttpRequest where
  method : Text
  path : Text
  headers : HeaderMap
  body : Text
  contentLength : BitVec 64

structure HttpResponse where
  status : Int
  headers : HeaderMap
  body : Text

/-! ### Strings and streams -/

def trim (s : Text) : Text :=
  (s.dropWhile fun c => c == ascii ' ' || c == ascii '\t').rdropWhile
    fun c => c == ascii ' ' || c == ascii '\r'

/-- Where `pattern` first occurs. -/
def find (pattern : Text) : Text → Option Nat
  | [] => if pattern = [] then some 0 else none
  | c :: rest =>
      if pattern.isPrefixOf (c :: rest) then some 0 else (find pattern rest).map (· + 1)

/-- The next line without its end, and what follows. A stream that is at its end has
none. -/
def getline (s : Text) : Option (Text × Text) :=
  if s = [] then none
  else some (s.takeWhile (· != ascii '\n'), (s.dropWhile (· != ascii '\n')).drop 1)

def isSpace (c : Byte) : Bool := c == ascii ' ' || (9 ≤ c && c ≤ 13)

/-- The next word, and what follows. -/
def nextWord (s : Text) : Text × Text :=
  let rest := s.dropWhile isSpace
  (rest.takeWhile fun c => !isSpace c, rest.dropWhile fun c => !isSpace c)

/-! ### Requests -/

/-- One header line. -/
def addHeader (headers : HeaderMap) (line : Text) : HeaderMap :=
  let line := if line.getLast? = some (ascii '\r') then line.dropLast else line
  if line.contains (ascii ':') then
    headers.insert ((trim (line.takeWhile (· != ascii ':'))).map toLower)
      (trim ((line.dropWhile (· != ascii ':')).drop 1))
  else headers

/-- The header lines up to a blank one, and what follows. Each takes at least one
character, so `fuel` need not be more than the length of the text. -/
def headerLoop : Nat → Text → HeaderMap → HeaderMap × Text
  | 0, s, headers => (headers, s)
  | fuel + 1, s, headers =>
      match getline s with
      | none => (headers, s)
      | some (line, rest) =>
          if line = [ascii '\r'] ∨ line = [] then (headers, rest)
          else headerLoop fuel rest (addHeader headers line)

def parseRequest (raw : Text) : HttpRequest :=
  match getline raw with
  | none => ⟨[], [], ∅, [], 0⟩
  | some (line, rest) =>
      let (method, words) := nextWord line
      let (path, _) := nextWord words
      let (headers, body) := headerLoop rest.length rest ∅
      ⟨method, path, headers, body, 0⟩

/-! ### Responses -/

def reasonPhrases : List (Int × String) :=
  [(200, "OK"), (204, "No Content"), (400, "Bad Request"), (403, "Forbidden"), (404, "Not Found"),
    (405, "Method Not Allowed"), (408, "Request Timeout"), (409, "Conflict"),
    (413, "Content Too Large"), (500, "Internal Server Error"), (501, "Not Implemented"),
    (503, "Service Unavailable")]

def reasonPhrase (status : Int) : Text := text ((reasonPhrases.lookup status).getD "Status")

def crlf : Text := [ascii '\r', ascii '\n']

def headerLine (name value : Text) : Text := name ++ text ": " ++ value ++ crlf

def statusLine (status : Int) : Text :=
  text "HTTP/1.1 " ++ toDecimal status ++ text " " ++ reasonPhrase status ++ crlf

def serializeResponse (resp : HttpResponse) : Text :=
  statusLine resp.status ++
    (headerLine (text "Content-Length") (toDecimal resp.body.length) ++
      (resp.headers.toList.flatMap (fun (name, value) => headerLine name value) ++
        (crlf ++ resp.body)))

/-! ### Lines -/

/-- The part of a text before the first `c`. -/
theorem takeWhile_append_cons {c : Byte} {s : Text} (h : c ∉ s) (rest : Text) :
    (s ++ c :: rest).takeWhile (· != c) = s := by
  have hall : ∀ d ∈ s, (d != c) = true := by
    intro d hd
    rw [bne_iff_ne]
    rintro rfl
    exact h hd
  rw [List.takeWhile_append_of_pos hall, List.takeWhile_cons_of_neg (by simp), List.append_nil]

theorem dropWhile_append_cons {c : Byte} {s : Text} (h : c ∉ s) (rest : Text) :
    (s ++ c :: rest).dropWhile (· != c) = c :: rest := by
  have hall : ∀ d ∈ s, (d != c) = true := by
    intro d hd
    rw [bne_iff_ne]
    rintro rfl
    exact h hd
  rw [List.dropWhile_append_of_pos hall, List.dropWhile_cons_of_neg (by simp)]

/-- A line that is there up to its end is the next one. -/
theorem getline_append {line rest : Text} (h : ascii '\n' ∉ line) :
    getline (line ++ ascii '\n' :: rest) = some (line, rest) := by
  rw [getline, if_neg (by simp), takeWhile_append_cons h, dropWhile_append_cons h]
  rfl

/-- A text that has neither kind of blank at its ends is not changed. -/
theorem trim_eq_self {s : Text} (hhead : ∀ c ∈ s.head?, c ≠ ascii ' ' ∧ c ≠ ascii '\t')
    (hlast : ∀ c ∈ s.getLast?, c ≠ ascii ' ' ∧ c ≠ ascii '\r') : trim s = s := by
  have hfront : s.dropWhile (fun c => c == ascii ' ' || c == ascii '\t') = s := by
    cases s with
    | nil => rfl
    | cons c rest =>
        have := hhead c rfl
        rw [List.dropWhile_cons_of_neg (by simp [this])]
  rw [trim, hfront]
  rcases List.eq_nil_or_concat s with rfl | ⟨front, c, rfl⟩
  · rfl
  · have := hlast c (by simp)
    rw [List.concat_eq_append, List.rdropWhile_concat_neg _ _ _ (by simp [this])]

/-- One blank in front of such a text is taken away. -/
theorem trim_blank {s : Text} (hhead : ∀ c ∈ s.head?, c ≠ ascii ' ' ∧ c ≠ ascii '\t')
    (hlast : ∀ c ∈ s.getLast?, c ≠ ascii ' ' ∧ c ≠ ascii '\r') : trim (ascii ' ' :: s) = s := by
  have hcons : trim (ascii ' ' :: s) = trim s := by
    rw [trim, trim, List.dropWhile_cons_of_pos (by simp)]
  rw [hcons, trim_eq_self hhead hlast]

/-! ### Reading what was written -/

/-- A text that fits in a line, and that `trim` leaves alone. -/
structure Plain (s : Text) : Prop where
  line : ascii '\n' ∉ s
  head : ∀ c ∈ s.head?, c ≠ ascii ' ' ∧ c ≠ ascii '\t'
  last : ∀ c ∈ s.getLast?, c ≠ ascii ' ' ∧ c ≠ ascii '\r'

/-- A header that a client can send. -/
structure HeaderField where
  name : Text
  value : Text
  colon : ascii ':' ∉ name
  plain_name : Plain name
  plain_value : Plain value

def addField (headers : HeaderMap) (field : HeaderField) : HeaderMap :=
  headers.insert (field.name.map toLower) field.value

/-- The head of a request, and a body after it. -/
def requestText (method path version : Text) (fields : List HeaderField) (body : Text) : Text :=
  method ++ text " " ++ path ++ text " " ++ version ++ crlf ++
    (fields.flatMap (fun field => headerLine field.name field.value) ++ (crlf ++ body))

theorem addHeader_field (headers : HeaderMap) (field : HeaderField) :
    addHeader headers (field.name ++ text ": " ++ field.value ++ [ascii '\r']) =
      addField headers field := by
  have hline : field.name ++ text ": " ++ field.value =
      field.name ++ ascii ':' :: ascii ' ' :: field.value := by
    simp [text]
  have htake := takeWhile_append_cons field.colon (ascii ' ' :: field.value)
  have hdrop := dropWhile_append_cons field.colon (ascii ' ' :: field.value)
  simp only [addHeader, List.getLast?_concat, if_true, List.dropLast_concat, hline, htake, hdrop]
  rw [if_pos (by simp), trim_eq_self field.plain_name.head field.plain_name.last, List.drop_one,
    List.tail_cons, trim_blank field.plain_value.head field.plain_value.last]
  rfl

/-- The header lines are read in order, up to the blank one. -/
theorem headerLoop_fields (fields : List HeaderField) (body : Text) {fuel : Nat}
    (hfuel : fields.length < fuel) (headers : HeaderMap) :
    headerLoop fuel (fields.flatMap (fun field => headerLine field.name field.value) ++
      (crlf ++ body)) headers = (fields.foldl addField headers, body) := by
  induction fields generalizing fuel headers with
  | nil =>
      cases fuel with
      | zero => simp at hfuel
      | succ fuel =>
          have hblank : getline (crlf ++ body) = some ([ascii '\r'], body) :=
            getline_append (by decide : ascii '\n' ∉ [ascii '\r'])
          simp [headerLoop, hblank]
  | cons field fields ih =>
      cases fuel with
      | zero => simp at hfuel
      | succ fuel =>
          have hmem : ascii '\n' ∉ field.name ++ text ": " ++ field.value ++ [ascii '\r'] := by
            simp only [List.mem_append, not_or]
            exact ⟨⟨⟨field.plain_name.line, by decide⟩, field.plain_value.line⟩, by decide⟩
          have hnext : getline ((field :: fields).flatMap
              (fun field => headerLine field.name field.value) ++ (crlf ++ body)) =
              some (field.name ++ text ": " ++ field.value ++ [ascii '\r'],
                fields.flatMap (fun field => headerLine field.name field.value) ++
                  (crlf ++ body)) := by
            rw [← getline_append hmem]
            simp [headerLine, crlf]
          have hline : ¬ (field.name ++ text ": " ++ field.value ++ [ascii '\r'] = [ascii '\r'] ∨
              field.name ++ text ": " ++ field.value ++ [ascii '\r'] = []) := by
            rintro (heq | heq)
            · have hlen := congrArg List.length heq
              simp [text] at hlen
              omega
            · simp at heq
          rw [headerLoop, hnext]
          simp only [if_neg hline]
          rw [addHeader_field, ih (by simpa using hfuel), List.foldl_cons]

/-- A word that can stand in a request line. -/
structure IsWord (s : Text) : Prop where
  nonempty : s ≠ []
  spaces : ∀ c ∈ s, isSpace c = false

theorem IsWord.not_mem_newline {s : Text} (h : IsWord s) : ascii '\n' ∉ s := by
  intro hmem
  exact absurd (h.spaces _ hmem) (by decide)

theorem nextWord_append {word rest : Text} (h : IsWord word) :
    nextWord (word ++ text " " ++ rest) = (word, text " " ++ rest) := by
  obtain ⟨c, tail, rfl⟩ := List.exists_cons_of_ne_nil h.nonempty
  have hall : ∀ d ∈ c :: tail, (!isSpace d) = true := by
    intro d hd
    rw [h.spaces d hd]
    rfl
  have hfront : (c :: tail ++ text " " ++ rest).dropWhile isSpace =
      c :: tail ++ text " " ++ rest := by
    simp only [List.cons_append]
    rw [List.dropWhile_cons_of_neg (by simp [h.spaces c List.mem_cons_self])]
  have hend : (!isSpace (ascii ' ')) = false := by decide
  rw [nextWord, hfront]
  simp only [List.append_assoc]
  rw [List.takeWhile_append_of_pos hall, List.dropWhile_append_of_pos hall]
  simp [text, hend]

theorem nextWord_blank (s : Text) : nextWord (text " " ++ s) = nextWord s := by
  have hblank : isSpace (ascii ' ') = true := by decide
  simp [nextWord, text, hblank]

theorem length_le_length_flatMap (fields : List HeaderField) :
    fields.length ≤ (fields.flatMap fun field => headerLine field.name field.value).length := by
  induction fields with
  | nil => simp
  | cons field fields ih =>
      have hline : 1 ≤ (headerLine field.name field.value).length := by
        simp [headerLine, crlf]
        omega
      simp only [List.flatMap_cons, List.length_append, List.length_cons]
      omega

/-- A request that is written out is read back as it was, with the names of its headers
in lower case. -/
theorem parseRequest_requestText {method path version : Text} (hmethod : IsWord method)
    (hpath : IsWord path) (hversion : ascii '\n' ∉ version) (fields : List HeaderField)
    (body : Text) :
    parseRequest (requestText method path version fields body) =
      ⟨method, path, fields.foldl addField ∅, body, 0⟩ := by
  have hline : ascii '\n' ∉
      method ++ text " " ++ path ++ text " " ++ version ++ [ascii '\r'] := by
    simp only [List.mem_append, not_or]
    exact ⟨⟨⟨⟨⟨hmethod.not_mem_newline, by decide⟩, hpath.not_mem_newline⟩, by decide⟩, hversion⟩,
      by decide⟩
  have hfirst : getline (requestText method path version fields body) =
      some (method ++ text " " ++ path ++ text " " ++ version ++ [ascii '\r'],
        fields.flatMap (fun field => headerLine field.name field.value) ++ (crlf ++ body)) := by
    rw [← getline_append hline]
    simp [requestText, crlf]
  have hwords : nextWord (method ++ text " " ++ path ++ text " " ++ version ++ [ascii '\r']) =
      (method, text " " ++ (path ++ text " " ++ (version ++ [ascii '\r']))) := by
    rw [← nextWord_append hmethod]
    simp
  have hfuel : fields.length < (fields.flatMap (fun field => headerLine field.name field.value) ++
      (crlf ++ body)).length := by
    have := length_le_length_flatMap fields
    simp only [List.length_append, crlf, List.length_cons]
    omega
  rw [parseRequest, hfirst]
  simp only [hwords, nextWord_blank, nextWord_append hpath]
  rw [headerLoop_fields fields body hfuel ∅]

/-- The value of a header: the last one with that name. -/
def lastValue (fields : List HeaderField) (name : Text) : Option Text :=
  (fields.reverse.find? fun field => field.name.map toLower = name).map HeaderField.value

theorem getElem?_foldl_addField (fields : List HeaderField) (name : Text) :
    (fields.foldl addField ∅)[name]? = lastValue fields name := by
  induction fields using List.reverseRecOn with
  | nil => simp [lastValue]
  | append_singleton fields field ih =>
      rw [List.foldl_append, List.foldl_cons, List.foldl_nil, addField,
        Std.TreeMap.getElem?_insert, lastValue, List.reverse_append]
      by_cases hname : field.name.map toLower = name
      · simp [hname]
      · have hcmp : compare (field.name.map toLower) name ≠ .eq := by
          simpa using hname
        rw [if_neg hcmp, ih, lastValue]
        simp [hname]

end HipObject.Server
