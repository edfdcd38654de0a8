import HipObject.Server.HttpText

/-!
# The callbacks of the examples

`s3_curl_ops.cpp` has the two callbacks that the examples pass to `hipObjGet` and
`hipObjPut`. One sends the request with the token in a header, through libcurl, and
keeps the `x-amz-rdma-reply` header of the response; the other hands that to the
library.

libcurl is not part of the repository. It is asked for one thing, which its
documentation promises: the header callback gets the lines of the response's head,
one at a time and each with its end. `Delivered` says so, and leaves it only one
list of lines to deliver.
-/

namespace HipObject.Server

open Codec

/-- `hipObjS3CurlCtx`, as far as the callbacks use it: `lastReply` is the string in
its 512 bytes. -/
structure CurlCtx where
  endpoint : Option Text
  bucket : Option Text
  object : Option Text
  isPut : Bool
  lastReply : Text

def kLastReplyLen : Nat := 512

/-- A header's name in lower case, up to the colon. -/
def lowerName (line : Text) : Text :=
  (line.takeWhile (· != ascii ':')).map toLower ++ line.dropWhile (· != ascii ':')

def isLineEnd (c : Byte) : Bool := c == ascii '\r' || c == ascii '\n' || c == ascii ' '

/-- What `headerCallback` leaves in `lastReply`. `snprintf` stops at a NUL, and keeps
one byte for its own. -/
def headerCallback (lastReply line : Text) : Text :=
  let line := lowerName line
  let pre := replyName ++ [ascii ':']
  if pre.isPrefixOf line then
    let val := ((line.drop pre.length).rdropWhile isLineEnd).dropWhile (· == ascii ' ')
    (val.takeWhile (· != 0)).take (kLastReplyLen - 1)
  else lastReply

def buildUrl (ctx : CurlCtx) : Text :=
  let endpoint := ctx.endpoint.getD (text "http://127.0.0.1:9000")
  let endpoint := if endpoint.getLast? = some (ascii '/') then endpoint.dropLast else endpoint
  endpoint ++ text "/" ++ ctx.bucket.getD (text "test") ++ text "/" ++
    ctx.object.getD (text "object")

/-- The headers that libcurl is told to send, as C strings. -/
def customHeaders (token : Text) : List Text :=
  [(text "x-amz-rdma-token: " ++ token).takeWhile (· != 0), text "Content-Length: 0"]

/-- What libcurl does in one request. -/
structure Perform where
  /-- The handle and the list of headers could be made. -/
  setUp : Bool
  /-- What it hands to the header callback. -/
  lines : List Text
  /-- The status of the response, or nothing if the transfer failed. -/
  code : Option Int

def hipObjS3CurlSendRequest (ctx : CurlCtx) (perform : Perform) : CurlCtx × Int :=
  if !perform.setUp then (ctx, -1)
  else
    let ctx := { ctx with lastReply := perform.lines.foldl headerCallback [] }
    match perform.code with
    | none => (ctx, -1)
    | some code =>
        if code < 200 ∨ 300 ≤ code then (ctx, -1)
        else if ctx.lastReply = [] then (ctx, -1)
        else (ctx, 0)

/-- What is put in the buffer of `replyLen` bytes, or nothing if it doesn't fit. -/
def hipObjS3CurlRecvReply (ctx : CurlCtx) (replyLen : Nat) : Option Text :=
  if replyLen < ctx.lastReply.length then none else some ctx.lastReply

/-! ### Lines -/

/-- One line with its end. -/
def IsLine (line : Text) : Prop := ∃ front, ascii '\n' ∉ front ∧ line = front ++ [ascii '\n']

/-- The header callback gets the lines of the head, and the blank one after them. -/
def Delivered (response : Text) (lines : List Text) : Prop :=
  ∃ head body, response = head.flatten ++ (crlf ++ body) ∧ lines = head ++ [crlf] ∧
    ∀ line ∈ head, IsLine line ∧ line ≠ crlf

theorem isLine_crlf : IsLine crlf := ⟨[ascii '\r'], by decide, rfl⟩

/-- A text begins with one line only. -/
theorem IsLine.inj {line line' rest rest' : Text} (h : IsLine line) (h' : IsLine line')
    (heq : line ++ rest = line' ++ rest') : line = line' ∧ rest = rest' := by
  obtain ⟨front, hfront, rfl⟩ := h
  obtain ⟨front', hfront', rfl⟩ := h'
  have hget : getline (front ++ ascii '\n' :: rest) = _ := getline_append hfront
  have hget' : getline (front' ++ ascii '\n' :: rest') = _ := getline_append hfront'
  rw [List.append_assoc, List.append_assoc] at heq
  simp only [List.singleton_append] at heq
  rw [heq, hget'] at hget
  cases hget
  exact ⟨rfl, rfl⟩

/-- The lines of a head are determined by the response. -/
theorem lines_unique {head head' : List Text} {body body' : Text}
    (hhead : ∀ line ∈ head, IsLine line ∧ line ≠ crlf)
    (hhead' : ∀ line ∈ head', IsLine line ∧ line ≠ crlf)
    (heq : head.flatten ++ (crlf ++ body) = head'.flatten ++ (crlf ++ body')) : head = head' := by
  induction head generalizing head' with
  | nil =>
      cases head' with
      | nil => rfl
      | cons line rest =>
          obtain ⟨hline, hblank⟩ := hhead' line List.mem_cons_self
          rw [List.flatten_nil, List.nil_append, List.flatten_cons, List.append_assoc] at heq
          exact absurd (isLine_crlf.inj hline heq).1.symm hblank
  | cons line rest ih =>
      obtain ⟨hline, hblank⟩ := hhead line List.mem_cons_self
      cases head' with
      | nil =>
          rw [List.flatten_nil, List.nil_append, List.flatten_cons, List.append_assoc] at heq
          exact absurd (hline.inj isLine_crlf heq).1 hblank
      | cons line' rest' =>
          obtain ⟨hline', -⟩ := hhead' line' List.mem_cons_self
          rw [List.flatten_cons, List.flatten_cons, List.append_assoc, List.append_assoc] at heq
          obtain ⟨rfl, hrest⟩ := hline.inj hline' heq
          rw [ih (fun l hl => hhead l (List.mem_cons_of_mem _ hl))
            (fun l hl => hhead' l (List.mem_cons_of_mem _ hl)) hrest]

/-! ### The head of a response -/

/-- The lines of the head that the server writes, but for the blank one. -/
def headLines (resp : HttpResponse) : List Text :=
  statusLine resp.status :: headerLine (text "Content-Length") (toDecimal resp.body.length) ::
    resp.headers.toList.map fun (name, value) => headerLine name value

theorem serializeResponse_eq (resp : HttpResponse) :
    serializeResponse resp = (headLines resp).flatten ++ (crlf ++ resp.body) := by
  simp [serializeResponse, headLines, List.flatMap_def]

/-- Headers that can be written on a line each. -/
def HeadersOk (headers : HeaderMap) : Prop :=
  ∀ header ∈ headers.toList,
    ascii '\n' ∉ header.1 ∧ ascii '\n' ∉ header.2 ∧ ascii ':' ∉ header.1

theorem isLine_append_crlf {s : Text} (h : ascii '\n' ∉ s) (hs : s ≠ []) :
    IsLine (s ++ crlf) ∧ s ++ crlf ≠ crlf := by
  refine ⟨⟨s ++ [ascii '\r'], ?_, by simp [crlf]⟩, by simpa using hs⟩
  simp only [List.mem_append, not_or]
  exact ⟨h, by decide⟩

theorem not_mem_reasonPhrase (status : Int) : ascii '\n' ∉ reasonPhrase status := by
  have htable : ∀ entry ∈ reasonPhrases, ascii '\n' ∉ text entry.2 := by decide +kernel
  unfold reasonPhrase
  cases hlookup : reasonPhrases.lookup status with
  | none => decide +kernel
  | some phrase =>
      obtain ⟨front, rest, htable', -⟩ := List.lookup_eq_some_iff.mp hlookup
      exact htable (status, phrase) (by simp [htable'])

theorem not_mem_decimal (n : Int) : ascii '\n' ∉ toDecimal n :=
  not_mem_toDecimal (by decide) (by decide)

theorem headLines_ok {resp : HttpResponse} (h : HeadersOk resp.headers) :
    ∀ line ∈ headLines resp, IsLine line ∧ line ≠ crlf := by
  have hheader : ∀ {name value : Text}, ascii '\n' ∉ name → ascii '\n' ∉ value →
      IsLine (headerLine name value) ∧ headerLine name value ≠ crlf := by
    intro name value hname hvalue
    refine isLine_append_crlf ?_ (by simp [text])
    simp only [List.mem_append, not_or]
    exact ⟨⟨hname, by decide⟩, hvalue⟩
  intro line hline
  rcases List.mem_cons.mp hline with rfl | hline
  · refine isLine_append_crlf ?_ (by simp [text])
    simp only [List.mem_append, not_or]
    exact ⟨⟨⟨by decide, not_mem_decimal _⟩, by decide⟩, not_mem_reasonPhrase _⟩
  · rcases List.mem_cons.mp hline with rfl | hline
    · exact hheader (by decide) (not_mem_decimal _)
    · obtain ⟨⟨name, value⟩, hmem, rfl⟩ := List.mem_map.mp hline
      obtain ⟨hname, hvalue, -⟩ := h _ hmem
      exact hheader hname hvalue

/-- There is one list of lines to deliver. -/
theorem lines_of_delivered {resp : HttpResponse} {lines : List Text} (h : HeadersOk resp.headers)
    (hlines : Delivered (serializeResponse resp) lines) : lines = headLines resp ++ [crlf] := by
  obtain ⟨head, body, hresponse, rfl, hhead⟩ := hlines
  rw [serializeResponse_eq] at hresponse
  rw [lines_unique (headLines_ok h) hhead hresponse]

/-! ### The reply -/

/-- A value that comes through the callback as it is. -/
structure Kept (value : Text) : Prop where
  head : ∀ c ∈ value.head?, c ≠ ascii ' '
  last : ∀ c ∈ value.getLast?, isLineEnd c = false
  nul : 0 ∉ value
  short : value.length < kLastReplyLen

theorem lowerName_headerLine {name : Text} (hcolon : ascii ':' ∉ name) (value : Text) :
    lowerName (headerLine name value) =
      name.map toLower ++ ascii ':' :: ascii ' ' :: (value ++ crlf) := by
  have hline : headerLine name value = name ++ ascii ':' :: ascii ' ' :: (value ++ crlf) := by
    simp [headerLine, text]
  rw [lowerName, hline, takeWhile_append_cons hcolon, dropWhile_append_cons hcolon]

theorem not_mem_map_toLower {name : Text} (h : ascii ':' ∉ name) :
    ascii ':' ∉ name.map toLower := by
  intro hmem
  obtain ⟨c, hc, heq⟩ := List.mem_map.mp hmem
  have hcolon : c = ascii ':' := by
    rw [toLower] at heq
    split at heq
    · rename_i hcapital
      have hlow : 65#8 ≤ c := hcapital.1
      have hhigh : c ≤ 90#8 := hcapital.2
      have hvalue : c + 32 = 58#8 := heq
      bv_omega
    · exact heq
  exact h (hcolon ▸ hc)

/-- A colon ends a name. -/
theorem name_eq_of_begins {name name' rest : Text} (h : ascii ':' ∉ name) (h' : ascii ':' ∉ name')
    (hbegins : name ++ [ascii ':'] <+: name' ++ ascii ':' :: rest) : name = name' := by
  obtain ⟨t, ht⟩ := hbegins
  have htake := congrArg (List.takeWhile (· != ascii ':')) ht
  rw [List.append_assoc, List.singleton_append, takeWhile_append_cons h,
    takeWhile_append_cons h'] at htake
  exact htake

/-- A header of another name is passed over. -/
theorem headerCallback_other {name : Text} (hcolon : ascii ':' ∉ name)
    (hname : name.map toLower ≠ replyName) (lastReply value : Text) :
    headerCallback lastReply (headerLine name value) = lastReply := by
  have hbegins : ¬ (replyName ++ [ascii ':']).isPrefixOf
      (name.map toLower ++ ascii ':' :: ascii ' ' :: (value ++ crlf)) = true := by
    rw [List.isPrefixOf_iff_prefix]
    intro hbegins
    exact hname (name_eq_of_begins (by decide) (not_mem_map_toLower hcolon) hbegins).symm
  simp only [headerCallback, lowerName_headerLine hcolon]
  rw [if_neg hbegins]

/-- The reply is taken from its header, without the blank in front and the end of the line. -/
theorem headerCallback_reply {name value : Text} (hcolon : ascii ':' ∉ name)
    (hname : name.map toLower = replyName) (hvalue : Kept value) (lastReply : Text) :
    headerCallback lastReply (headerLine name value) = value := by
  have hline : lowerName (headerLine name value) =
      (replyName ++ [ascii ':']) ++ ascii ' ' :: (value ++ crlf) := by
    rw [lowerName_headerLine hcolon, hname]
    simp
  have hbegins : (replyName ++ [ascii ':']).isPrefixOf
      ((replyName ++ [ascii ':']) ++ ascii ' ' :: (value ++ crlf)) = true := by
    rw [List.isPrefixOf_iff_prefix]
    exact List.prefix_append _ _
  have hfront : (ascii ' ' :: value).dropWhile (· == ascii ' ') = value := by
    rw [List.dropWhile_cons_of_pos (by simp)]
    cases hcase : value with
    | nil => rfl
    | cons c rest =>
        have := hvalue.head c (by simp [hcase])
        rw [List.dropWhile_cons_of_neg (by simpa using this)]
  have hend : ((ascii ' ' :: (value ++ crlf)).rdropWhile isLineEnd).dropWhile (· == ascii ' ') =
      value := by
    have hcrlf : (ascii ' ' :: (value ++ crlf)).rdropWhile isLineEnd =
        (ascii ' ' :: value).rdropWhile isLineEnd := by
      have happ : ascii ' ' :: (value ++ crlf) =
          ((ascii ' ' :: value) ++ [ascii '\r']) ++ [ascii '\n'] := by simp [crlf]
      rw [happ, List.rdropWhile_concat_pos _ _ _ (by decide),
        List.rdropWhile_concat_pos _ _ _ (by decide)]
    rw [hcrlf]
    rcases List.eq_nil_or_concat value with rfl | ⟨front, c, rfl⟩
    · rfl
    · have hlast := hvalue.last c (by simp)
      have hkeep : (ascii ' ' :: (front.concat c)).rdropWhile isLineEnd =
          ascii ' ' :: (front.concat c) := by
        rw [List.concat_eq_append, ← List.cons_append,
          List.rdropWhile_concat_neg _ _ _ (by simp [hlast])]
      rw [hkeep, hfront]
  have hnul : value.takeWhile (· != 0) = value := by
    rw [List.takeWhile_eq_self_iff]
    intro c hc
    rw [bne_iff_ne]
    rintro rfl
    exact hvalue.nul hc
  simp only [headerCallback, hline]
  rw [if_pos hbegins, List.drop_left, hend, hnul, List.take_of_length_le]
  have := hvalue.short
  omega

/-- Lines of other headers leave the reply as it is. -/
theorem foldl_headerCallback_other {headers : List (Text × Text)}
    (hcolon : ∀ header ∈ headers, ascii ':' ∉ header.1)
    (hother : ∀ header ∈ headers, header.1.map toLower ≠ replyName) (lastReply : Text) :
    (headers.map fun (name, value) => headerLine name value).foldl headerCallback lastReply =
      lastReply := by
  induction headers with
  | nil => rfl
  | cons header headers ih =>
      rw [List.map_cons, List.foldl_cons, headerCallback_other (hcolon header List.mem_cons_self)
        (hother header List.mem_cons_self)]
      exact ih (fun h hh => hcolon h (List.mem_cons_of_mem _ hh))
        fun h hh => hother h (List.mem_cons_of_mem _ hh)

/-- The status line, the length of the body and the blank line have no reply. -/
theorem foldl_headLines (resp : HttpResponse) :
    (headLines resp ++ [crlf]).foldl headerCallback [] =
      (resp.headers.toList.map fun (name, value) => headerLine name value).foldl
        headerCallback [] := by
  have hstatus : headerCallback [] (statusLine resp.status) = [] := by
    have hbegins : ¬ (replyName ++ [ascii ':']).isPrefixOf
        (lowerName (statusLine resp.status)) = true := by
      have hhead : (lowerName (statusLine resp.status)).head? = some (ascii 'h') := by
        have hline : statusLine resp.status = ascii 'H' :: (text "TTP/1.1 " ++
            toDecimal resp.status ++ text " " ++ reasonPhrase resp.status ++ crlf) := rfl
        rw [lowerName, hline, List.takeWhile_cons_of_pos (by decide)]
        rfl
      rw [List.isPrefixOf_iff_prefix]
      rintro ⟨rest, hrest⟩
      have hx : (replyName ++ [ascii ':'] ++ rest).head? = some (ascii 'x') := rfl
      rw [← hrest, hx] at hhead
      exact absurd hhead (by decide)
    simp only [headerCallback]
    rw [if_neg hbegins]
  have hlength : headerCallback [] (headerLine (text "Content-Length")
      (toDecimal resp.body.length)) = [] :=
    headerCallback_other (by decide +kernel) (by decide +kernel) _ _
  have hblank : ∀ lastReply, headerCallback lastReply crlf = lastReply := by
    intro lastReply
    have hbegins : ¬ (replyName ++ [ascii ':']).isPrefixOf (lowerName crlf) = true := by
      decide +kernel
    simp only [headerCallback]
    rw [if_neg hbegins]
  rw [List.foldl_append, List.foldl_cons, List.foldl_nil, hblank, headLines, List.foldl_cons,
    List.foldl_cons, hstatus, hlength]

/-- The headers of a response, with at most one reply among them, which fits. -/
structure RepliesOk (headers : HeaderMap) : Prop where
  lines : HeadersOk headers
  once : ∀ header ∈ headers.toList, header.1.map toLower = replyName → header.1 = replyName
  kept : ∀ reply, headers[replyName]? = some reply → Kept reply

/-- What the callback has kept is the reply in the response, or nothing. -/
theorem lastReply_of_delivered {resp : HttpResponse} {lines : List Text}
    (h : RepliesOk resp.headers) (hlines : Delivered (serializeResponse resp) lines) :
    lines.foldl headerCallback [] = (resp.headers[replyName]?).getD [] := by
  rw [lines_of_delivered h.lines hlines, foldl_headLines]
  have hcolon : ∀ header ∈ resp.headers.toList, ascii ':' ∉ header.1 :=
    fun header hheader => (h.lines header hheader).2.2
  cases hreply : resp.headers[replyName]? with
  | none =>
      refine foldl_headerCallback_other hcolon ?_ []
      intro header hheader hname
      have hvalue := Std.TreeMap.mem_toList_iff_getElem?_eq_some.mp hheader
      rw [h.once header hheader hname, hreply] at hvalue
      cases hvalue
  | some reply =>
      have hmem := Std.TreeMap.mem_toList_iff_getElem?_eq_some.mpr hreply
      obtain ⟨front, rest, hsplit⟩ := List.append_of_mem hmem
      have hdistinct := Std.TreeMap.distinct_keys_toList (t := resp.headers)
      rw [hsplit] at hdistinct hcolon
      obtain ⟨-, hback, hfront⟩ := List.pairwise_append.mp hdistinct
      have hother : ∀ header, header ∈ front ∨ header ∈ rest →
          header.1.map toLower ≠ replyName := by
        rintro header (hheader | hheader) hname
        · have hkey := h.once header (by simp [hsplit, hheader]) hname
          refine hfront header hheader (replyName, reply) List.mem_cons_self ?_
          simp [hkey]
        · have hkey := h.once header (by simp [hsplit, hheader]) hname
          refine (List.pairwise_cons.mp hback).1 header hheader ?_
          simp [hkey]
      rw [hsplit, List.map_append, List.foldl_append, List.map_cons, List.foldl_cons,
        foldl_headerCallback_other (fun header hheader => hcolon header (by simp [hheader]))
          fun header hheader => hother header (.inl hheader),
        headerCallback_reply (by decide +kernel) (by decide +kernel) (h.kept reply hreply),
        foldl_headerCallback_other (fun header hheader => hcolon header (by simp [hheader]))
          fun header hheader => hother header (.inr hheader)]
      rfl

/-- A response that the server wrote, read by the client: the request counts as answered
exactly if its status is a success and it carries a reply, and then the library is given that
reply. -/
theorem curl_reads_response {resp : HttpResponse} {perform : Perform} (ctx : CurlCtx)
    (h : RepliesOk resp.headers) (hsetUp : perform.setUp = true)
    (hcode : perform.code = some resp.status)
    (hlines : Delivered (serializeResponse resp) perform.lines) :
    ((hipObjS3CurlSendRequest ctx perform).2 = 0 ↔
        200 ≤ resp.status ∧ resp.status < 300 ∧
          ∃ reply, reply ≠ [] ∧ resp.headers[replyName]? = some reply) ∧
      ∀ reply, resp.headers[replyName]? = some reply → ∀ replyLen, reply.length ≤ replyLen →
        hipObjS3CurlRecvReply (hipObjS3CurlSendRequest ctx perform).1 replyLen = some reply := by
  have hlast := lastReply_of_delivered h hlines
  have hctx : (hipObjS3CurlSendRequest ctx perform).1.lastReply =
      (resp.headers[replyName]?).getD [] := by
    simp only [hipObjS3CurlSendRequest, hsetUp, hcode]
    split_ifs <;> simp_all
  refine ⟨?_, ?_⟩
  · simp only [hipObjS3CurlSendRequest, hsetUp, hcode, hlast]
    cases hreply : resp.headers[replyName]? with
    | none => simp
    | some reply =>
        by_cases hstatus : resp.status < 200 ∨ 300 ≤ resp.status
        · simp [hstatus]
          omega
        · by_cases hempty : reply = []
          · simp [hstatus, hempty]
          · simp [hstatus, hempty]
            omega
  · intro reply hreply replyLen hlen
    rw [hipObjS3CurlRecvReply, hctx, hreply, Option.getD_some, if_neg (by omega)]

/-- A response with a reply and nothing else. -/
def plainResponse : HttpResponse := ⟨200, (∅ : HeaderMap).insert replyName (text "200"), []⟩

theorem plainResponse_headers : plainResponse.headers.toList = [(replyName, text "200")] := by
  decide +kernel

theorem plainResponse_repliesOk : RepliesOk plainResponse.headers where
  lines := by
    intro header hheader
    rw [plainResponse_headers, List.mem_singleton] at hheader
    subst hheader
    exact ⟨by decide +kernel, by decide +kernel, by decide +kernel⟩
  once := by
    intro header hheader _
    rw [plainResponse_headers, List.mem_singleton] at hheader
    rw [hheader]
  kept := by
    intro reply hreply
    have hvalue : plainResponse.headers[replyName]? = some (text "200") := by decide +kernel
    cases hvalue.symm.trans hreply
    exact ⟨by decide +kernel, by decide +kernel, by decide +kernel, by decide +kernel⟩

theorem curl_reads_plainResponse :
    ∃ perform : Perform, Delivered (serializeResponse plainResponse) perform.lines ∧
      (hipObjS3CurlSendRequest ⟨none, none, none, true, []⟩ perform).2 = 0 := by
  have hlines : Delivered (serializeResponse plainResponse) (headLines plainResponse ++ [crlf]) :=
    ⟨_, _, serializeResponse_eq _, rfl, headLines_ok plainResponse_repliesOk.lines⟩
  refine ⟨⟨true, _, some 200⟩, hlines, ?_⟩
  refine (curl_reads_response _ plainResponse_repliesOk rfl rfl hlines).1.mpr ?_
  exact ⟨by decide, by decide, text "200", by decide +kernel, by decide +kernel⟩

end HipObject.Server
