import HipObject.Server.HttpText

/-!
# Receiving a request

`handleConnection` reads from its socket until it has seen a blank line, then as
much of the body as Content-Length asks for, and gives the handler one request. A
socket cuts what the client sent wherever it likes, so the loops are followed here
over any list of answers of `recv`, and compared with `requestOf`, which reads the
whole stream at once.

The head and the promised part of the body do not depend on the cuts. What came in
behind that part does: it is in the body too, and it counts against the limit of the
head when it arrives with the head's last bytes.
-/

namespace HipObject.Server

open Codec

def kRecvChunk : Nat := 64 * 1024
def kMaxHeaderBytes : Nat := 64 * 1024
def kMaxBodyBytes : Nat := 1024 * 1024

/-- What a turn of a receive loop gets. No bytes at all mean that the peer has closed. -/
inductive Recv where
  | bytes (chunk : Text)
  /-- `EINTR`, `EAGAIN` or `EWOULDBLOCK`. -/
  | retry
  | failed
  /-- The deadline passed before the call. -/
  | expired
  deriving DecidableEq

/-- How a loop ends: with a value, without one, or not yet. -/
inductive Outcome (α : Type) where
  | done (value : α)
  | dropped
  | waiting

def Outcome.toOption {α : Type} : Outcome α → Option α
  | .done value => some value
  | .dropped => none
  | .waiting => none

theorem Outcome.eq_done {α : Type} {outcome : Outcome α} {value : α}
    (h : outcome.toOption = some value) : outcome = .done value := by
  cases outcome with
  | done v =>
      cases h
      rfl
  | dropped => cases h
  | waiting => cases h

def headEnd : Text := crlf ++ crlf

/-- Reads until the head is complete. -/
def receiveHead (raw : Text) : List Recv → Outcome (Text × Nat × List Recv)
  | [] => .waiting
  | .expired :: _ => .dropped
  | .failed :: _ => .dropped
  | .retry :: rest => receiveHead raw rest
  | .bytes chunk :: rest =>
      if chunk = [] then .dropped
      else if kMaxHeaderBytes < (raw ++ chunk).length then .dropped
      else match find headEnd (raw ++ chunk) with
        | some headerEnd => .done (raw ++ chunk, headerEnd, rest)
        | none => receiveHead (raw ++ chunk) rest

/-- The Content-Length of a head, 0 without one, or nothing if it is refused. -/
def contentLengthOf (head : HttpRequest) : Option (BitVec 64) :=
  match head.headers[text "content-length"]? with
  | none => some 0
  | some value =>
      match parseNumber 64 value 10 with
      | none => none
      | some len => if kMaxBodyBytes < len.toNat then none else some len

/-- Reads until the body is complete. -/
def receiveBody (headerLen contentLen : Nat) (raw : Text) :
    List Recv → Outcome (Text × List Recv)
  | [] => if raw.length - headerLen < contentLen then .waiting else .done (raw, [])
  | answer :: rest =>
      if raw.length - headerLen < contentLen then
        match answer with
        | .expired => .dropped
        | .failed => .dropped
        | .retry => receiveBody headerLen contentLen raw rest
        | .bytes chunk =>
            if chunk = [] then .dropped
            else receiveBody headerLen contentLen (raw ++ chunk) rest
      else .done (raw, answer :: rest)

/-- `handleConnection` up to the call of the handler. -/
def receiveRequest (answers : List Recv) : Outcome (HttpRequest × List Recv) :=
  match receiveHead [] answers with
  | .dropped => .dropped
  | .waiting => .waiting
  | .done (raw, headerEnd, rest) =>
      let headerLen := headerEnd + 4
      match contentLengthOf (parseRequest (raw.take headerLen)) with
      | none => .dropped
      | some contentLen =>
          match receiveBody headerLen contentLen.toNat raw rest with
          | .dropped => .dropped
          | .waiting => .waiting
          | .done (raw, rest) =>
              .done ({ parseRequest (raw.take headerLen) with
                body := raw.drop headerLen, contentLength := contentLen }, rest)

/-! ### The stream as a whole -/

/-- The bytes that the answers bring. -/
def stream (answers : List Recv) : Text :=
  answers.flatMap fun answer => match answer with
    | .bytes chunk => chunk
    | _ => []

/-- The request that a stream begins with, if it is complete. -/
def requestOf (s : Text) : Option HttpRequest :=
  match find headEnd s with
  | none => none
  | some headerEnd =>
      let headerLen := headerEnd + 4
      match contentLengthOf (parseRequest (s.take headerLen)) with
      | none => none
      | some contentLen =>
          if s.length - headerLen < contentLen.toNat then none
          else some { parseRequest (s.take headerLen) with
            body := s.drop headerLen, contentLength := contentLen }

@[simp] theorem stream_nil : stream [] = [] := rfl

@[simp] theorem stream_bytes (chunk : Text) (rest : List Recv) :
    stream (.bytes chunk :: rest) = chunk ++ stream rest := rfl

@[simp] theorem stream_retry (rest : List Recv) : stream (.retry :: rest) = stream rest := rfl

@[simp] theorem stream_append (front rest : List Recv) :
    stream (front ++ rest) = stream front ++ stream rest := List.flatMap_append

/-! ### The end of the head -/

theorem isPrefixOf_append {pattern s t : Text} (h : pattern.isPrefixOf s = true) :
    pattern.isPrefixOf (s ++ t) = true := by
  rw [List.isPrefixOf_iff_prefix] at h ⊢
  exact h.trans (List.prefix_append s t)

/-- What is found is inside the text. -/
theorem length_of_find {pattern s : Text} {i : Nat} (h : find pattern s = some i) :
    i + pattern.length ≤ s.length := by
  induction s generalizing i with
  | nil =>
      rw [find] at h
      split_ifs at h with hpattern
      cases h
      simp [hpattern]
  | cons c rest ih =>
      rw [find] at h
      split_ifs at h with hfront
      · cases h
        rw [Nat.zero_add]
        exact (List.isPrefixOf_iff_prefix.mp hfront).length_le
      · obtain ⟨j, hj, rfl⟩ := Option.map_eq_some_iff.mp h
        have := ih hj
        rw [List.length_cons]
        omega

/-- What is found stays where it is when more arrives. -/
theorem find_append {pattern s : Text} {i : Nat} (h : find pattern s = some i) (t : Text) :
    find pattern (s ++ t) = some i := by
  induction s generalizing i with
  | nil =>
      rw [find] at h
      split_ifs at h with hpattern
      cases h
      subst hpattern
      cases t <;> simp [find]
  | cons c rest ih =>
      rw [find] at h
      rw [List.cons_append, find]
      split_ifs at h with hfront
      · have hfront' := isPrefixOf_append (t := t) hfront
        rw [List.cons_append] at hfront'
        rw [if_pos hfront']
        exact h
      · obtain ⟨j, hj, rfl⟩ := Option.map_eq_some_iff.mp h
        have hlen := length_of_find hj
        -- An occurrence in front would be inside the text already.
        have hfront' : ¬ pattern.isPrefixOf (c :: (rest ++ t)) = true := by
          intro hbegins
          rw [List.isPrefixOf_iff_prefix] at hbegins hfront
          refine hfront (List.prefix_of_prefix_length_le hbegins ?_ ?_)
          · exact List.prefix_append (c :: rest) t
          · rw [List.length_cons]
            omega
        rw [if_neg hfront', ih hj]
        rfl

/-- What is found inside the front of a text is found there. -/
theorem find_of_append {pattern s t : Text} {i : Nat} (h : find pattern (s ++ t) = some i)
    (hlen : i + pattern.length ≤ s.length) : find pattern s = some i := by
  induction s generalizing i with
  | nil =>
      rw [List.length_nil, Nat.le_zero, Nat.add_eq_zero_iff, List.length_eq_zero_iff] at hlen
      rw [find, if_pos hlen.2, hlen.1]
  | cons c rest ih =>
      rw [List.cons_append, find] at h
      rw [find]
      split_ifs at h with hfront
      · cases h
        rw [List.isPrefixOf_iff_prefix] at hfront
        rw [if_pos]
        rw [List.isPrefixOf_iff_prefix]
        exact List.prefix_of_prefix_length_le hfront (List.prefix_append (c :: rest) t)
          (by omega)
      · obtain ⟨j, hj, rfl⟩ := Option.map_eq_some_iff.mp h
        have hnot : ¬ pattern.isPrefixOf (c :: rest) = true := by
          intro hbegins
          have hwhole := isPrefixOf_append (t := t) hbegins
          rw [List.cons_append] at hwhole
          exact hfront hwhole
        rw [List.length_cons] at hlen
        rw [if_neg hnot, ih hj (by omega)]
        rfl

theorem find_headEnd_le {s : Text} {i : Nat} (h : find headEnd s = some i) : i + 4 ≤ s.length :=
  length_of_find h

/-- The head is the same when more arrives. -/
theorem take_append_of_find {s : Text} {i : Nat} (h : find headEnd s = some i) (t : Text) :
    (s ++ t).take (i + 4) = s.take (i + 4) :=
  List.take_append_of_le_length (find_headEnd_le h)

/-! ### The loops -/

theorem receiveHead_done {raw raw' : Text} {answers rest : List Recv} {headerEnd : Nat}
    (h : receiveHead raw answers = .done (raw', headerEnd, rest)) :
    ∃ consumed, answers = consumed ++ rest ∧ raw' = raw ++ stream consumed ∧
      find headEnd raw' = some headerEnd ∧ raw'.length ≤ kMaxHeaderBytes := by
  induction answers generalizing raw with
  | nil => cases h
  | cons answer answers ih =>
      cases answer with
      | expired => cases h
      | failed => cases h
      | retry =>
          obtain ⟨consumed, rfl, hraw, hfind⟩ := ih h
          exact ⟨.retry :: consumed, rfl, hraw, hfind⟩
      | bytes chunk =>
          rw [receiveHead] at h
          split_ifs at h with hempty hlimit
          split at h
          · rename_i found hfind
            cases h
            exact ⟨[.bytes chunk], rfl, by simp, hfind, by omega⟩
          · obtain ⟨consumed, rfl, hraw, hfind⟩ := ih h
            exact ⟨.bytes chunk :: consumed, rfl, by simpa using hraw, hfind⟩

theorem receiveBody_done {headerLen contentLen : Nat} {raw raw' : Text} {answers rest : List Recv}
    (h : receiveBody headerLen contentLen raw answers = .done (raw', rest)) :
    ∃ consumed, answers = consumed ++ rest ∧ raw' = raw ++ stream consumed ∧
      contentLen ≤ raw'.length - headerLen ∧
      ((∀ chunk, .bytes chunk ∈ answers → chunk.length ≤ kRecvChunk) →
        raw'.length ≤ max raw.length (headerLen + contentLen + kRecvChunk)) := by
  induction answers generalizing raw with
  | nil =>
      simp only [receiveBody] at h
      split_ifs at h with hshort
      cases h
      exact ⟨[], rfl, by simp, by omega, fun _ => le_max_left _ _⟩
  | cons answer answers ih =>
      unfold receiveBody at h
      split_ifs at h with hshort
      · cases answer with
        | expired => cases h
        | failed => cases h
        | retry =>
            obtain ⟨consumed, rfl, hraw, hlen, hbound⟩ := ih h
            refine ⟨.retry :: consumed, rfl, hraw, hlen, fun hchunks => hbound ?_⟩
            exact fun chunk hchunk => hchunks chunk (List.mem_cons_of_mem _ hchunk)
        | bytes chunk =>
            simp only at h
            split_ifs at h with hempty
            obtain ⟨consumed, rfl, hraw, hlen, hbound⟩ := ih h
            refine ⟨.bytes chunk :: consumed, rfl, by simpa using hraw, hlen, fun hchunks => ?_⟩
            have hrest := hbound fun chunk hchunk => hchunks chunk (List.mem_cons_of_mem _ hchunk)
            have hchunk := hchunks chunk List.mem_cons_self
            rw [List.length_append] at hrest
            omega
      · cases h
        exact ⟨[], rfl, by simp, by omega, fun _ => le_max_left _ _⟩

theorem contentLengthOf_le {head : HttpRequest} {len : BitVec 64}
    (h : contentLengthOf head = some len) : len.toNat ≤ kMaxBodyBytes := by
  unfold contentLengthOf at h
  split at h
  · cases h
    decide
  · split at h
    · cases h
    · split_ifs at h with hlimit
      cases h
      omega

/-- A PUT of five bytes, cut inside its header and inside its body. -/
def cutRequest : List Recv :=
  [.bytes (text "PUT /bucket/key HTTP/1.1\r\nContent-Le"), .retry,
    .bytes (text "ngth: 5\r\n\r\nhel"), .bytes (text "lo")]

/-- The same bytes at once. -/
def wholeRequest : List Recv :=
  [.bytes (text "PUT /bucket/key HTTP/1.1\r\nContent-Length: 5\r\n\r\nhello")]

theorem exists_of_body {answers : List Recv} {body : Text}
    (h : (receiveRequest answers).toOption.any (fun r => r.1.body = body) = true) :
    ∃ req rest, receiveRequest answers = .done (req, rest) ∧ req.body = body := by
  obtain ⟨⟨req, rest⟩, hr, hbody⟩ := (Option.any_eq_true _ _).mp h
  exact ⟨req, rest, Outcome.eq_done hr, by simpa using hbody⟩

theorem receive_cutRequest :
    ∃ req rest, receiveRequest cutRequest = .done (req, rest) ∧ req.body = text "hello" :=
  exists_of_body (by decide +kernel)

/-- What the two loops have read when the handler gets a request. -/
theorem receiveRequest_split {answers rest : List Recv} {req : HttpRequest}
    (h : receiveRequest answers = .done (req, rest)) :
    ∃ front back headerEnd, answers = front ++ (back ++ rest) ∧
      find headEnd (stream front) = some headerEnd ∧
      (stream front).length ≤ kMaxHeaderBytes ∧
      requestOf (stream (front ++ back)) = some req ∧
      req.body = (stream (front ++ back)).drop (headerEnd + 4) ∧
      req.contentLength.toNat ≤ kMaxBodyBytes ∧ req.contentLength.toNat ≤ req.body.length ∧
      ((∀ chunk, .bytes chunk ∈ answers → chunk.length ≤ kRecvChunk) →
        (stream (front ++ back)).length ≤ max (stream front).length
          (headerEnd + 4 + req.contentLength.toNat + kRecvChunk)) := by
  unfold receiveRequest at h
  split at h
  · cases h
  · cases h
  · rename_i raw headerEnd rest₁ hhead
    obtain ⟨front, rfl, hraw, hfind, hlimit⟩ := receiveHead_done hhead
    rw [List.nil_append] at hraw
    subst hraw
    simp only at h
    split at h
    · cases h
    · rename_i contentLen hlen
      split at h
      · cases h
      · cases h
      · rename_i raw' rest' hbody
        obtain ⟨back, rfl, hraw', hcomplete, hbound⟩ := receiveBody_done hbody
        rw [← stream_append] at hraw'
        subst hraw'
        cases h
        have hend := find_headEnd_le hfind
        refine ⟨front, back, headerEnd, rfl, hfind, hlimit, ?_, rfl, contentLengthOf_le hlen,
          by simpa using hcomplete, fun hchunks => hbound fun chunk hchunk => ?_⟩
        · rw [requestOf, stream_append, find_append hfind]
          simp only [take_append_of_find hfind, hlen]
          rw [← stream_append, if_neg (by omega)]
        · exact hchunks chunk (List.mem_append_right _ hchunk)

/-- A request that reaches the handler is the one that the bytes received so far begin
with, whatever the cuts. Its head and its body are complete and inside the limits, and the
server has not kept more than it needs for them. -/
theorem receiveRequest_done {answers rest : List Recv} {req : HttpRequest}
    (h : receiveRequest answers = .done (req, rest)) :
    ∃ consumed, answers = consumed ++ rest ∧ requestOf (stream consumed) = some req ∧
      req.contentLength.toNat ≤ kMaxBodyBytes ∧ req.contentLength.toNat ≤ req.body.length ∧
      (stream consumed).length - req.body.length ≤ kMaxHeaderBytes ∧
      ((∀ chunk, .bytes chunk ∈ answers → chunk.length ≤ kRecvChunk) →
        (stream consumed).length ≤ kMaxHeaderBytes + kMaxBodyBytes + kRecvChunk) := by
  obtain ⟨front, back, headerEnd, rfl, hfind, hlimit, hreq, hbody, hlen, hcomplete, hbound⟩ :=
    receiveRequest_split h
  have hend := find_headEnd_le hfind
  refine ⟨front ++ back, (List.append_assoc _ _ _).symm, hreq, hlen, hcomplete, ?_, ?_⟩
  · rw [hbody, List.length_drop]
    omega
  · intro hchunks
    have := hbound hchunks
    omega

theorem receiveRequest_done_of_cutRequest :
    ∃ req rest consumed, receiveRequest cutRequest = .done (req, rest) ∧
      cutRequest = consumed ++ rest ∧ requestOf (stream consumed) = some req := by
  obtain ⟨req, rest, hreq, -⟩ := receive_cutRequest
  obtain ⟨consumed, hcut, hof, -⟩ := receiveRequest_done hreq
  exact ⟨req, rest, consumed, hreq, hcut, hof⟩

/-! ### Cuts -/

/-- More bytes go to the end of the body and change nothing else. -/
theorem requestOf_append {s : Text} {req : HttpRequest} (h : requestOf s = some req) (t : Text) :
    requestOf (s ++ t) = some { req with body := req.body ++ t } := by
  unfold requestOf at h
  split at h
  · cases h
  · rename_i headerEnd hfind
    simp only at h
    split at h
    · cases h
    · rename_i contentLen hlen
      split_ifs at h with hshort
      cases h
      have hend := find_headEnd_le hfind
      rw [requestOf, find_append hfind t]
      simp only [take_append_of_find hfind t, hlen]
      rw [if_neg (by rw [List.length_append]; omega), List.drop_append_of_le_length hend]

/-- Two connections that bring the same bytes, cut in different places and at different
times, give the handler the same request up to what came in behind the promised body. -/
theorem requests_agree {answers₁ answers₂ rest₁ rest₂ : List Recv} {req₁ req₂ : HttpRequest}
    {sent : Text} (h₁ : receiveRequest answers₁ = .done (req₁, rest₁))
    (h₂ : receiveRequest answers₂ = .done (req₂, rest₂)) (hsent₁ : stream answers₁ <+: sent)
    (hsent₂ : stream answers₂ <+: sent) :
    req₁.method = req₂.method ∧ req₁.path = req₂.path ∧ req₁.headers = req₂.headers ∧
      req₁.contentLength = req₂.contentLength ∧
      req₁.body.take req₁.contentLength.toNat = req₂.body.take req₂.contentLength.toNat := by
  have hwhole : ∀ {answers rest : List Recv} {req : HttpRequest},
      receiveRequest answers = .done (req, rest) → stream answers <+: sent →
      req.contentLength.toNat ≤ req.body.length ∧
        ∃ t, requestOf sent = some { req with body := req.body ++ t } := by
    intro answers rest req h hsent
    obtain ⟨front, back, headerEnd, rfl, -, -, hreq, -, -, hbody, -⟩ := receiveRequest_split h
    rw [← List.append_assoc, stream_append] at hsent
    obtain ⟨t, rfl⟩ := (List.prefix_append _ _).trans hsent
    exact ⟨hbody, t, requestOf_append hreq t⟩
  obtain ⟨hbody₁, t₁, hreq₁⟩ := hwhole h₁ hsent₁
  obtain ⟨hbody₂, t₂, hreq₂⟩ := hwhole h₂ hsent₂
  have heq := Option.some.inj (hreq₁.symm.trans hreq₂)
  injection heq with hmethod hpath hheaders hbodies hlen
  refine ⟨hmethod, hpath, hheaders, hlen, ?_⟩
  have htake : (req₁.body ++ t₁).take req₁.contentLength.toNat = _ :=
    List.take_append_of_le_length hbody₁
  rw [← htake, hbodies, hlen, List.take_append_of_le_length hbody₂]

theorem requests_agree_of_cutRequest :
    ∃ req₁ req₂ rest₁ rest₂, receiveRequest cutRequest = .done (req₁, rest₁) ∧
      receiveRequest wholeRequest = .done (req₂, rest₂) ∧ req₁.headers = req₂.headers := by
  obtain ⟨req₁, rest₁, h₁, -⟩ := receive_cutRequest
  obtain ⟨req₂, rest₂, h₂, -⟩ : ∃ req rest, receiveRequest wholeRequest = .done (req, rest) ∧
      req.body = text "hello" := exists_of_body (by decide +kernel)
  have hsent : stream cutRequest <+: stream wholeRequest := by decide +kernel
  obtain ⟨-, -, hheaders, -⟩ :=
    requests_agree h₁ h₂ hsent (List.prefix_refl _)
  exact ⟨req₁, req₂, rest₁, rest₂, h₁, h₂, hheaders⟩

/-- A connection on which nothing goes wrong: it is not closed, fails nowhere, and its
deadline is far away. -/
def Clean (answers : List Recv) : Prop :=
  ∀ answer ∈ answers, answer = .retry ∨ ∃ chunk, chunk ≠ [] ∧ answer = .bytes chunk

theorem Clean.tail {answer : Recv} {answers : List Recv} (h : Clean (answer :: answers)) :
    Clean answers := fun a ha => h a (List.mem_cons_of_mem _ ha)

/-- The head is complete, and ends at `headerEnd`, when the server has read to the end of some
chunk, and that is not past the limit. -/
def HeadFits (raw : Text) (answers : List Recv) (headerEnd : Nat) : Prop :=
  ∃ front, front <+: answers ∧ find headEnd (raw ++ stream front) = some headerEnd ∧
    (raw ++ stream front).length ≤ kMaxHeaderBytes

theorem headFits_nil {raw : Text} (hraw : find headEnd raw = none) (headerEnd : Nat) :
    ¬HeadFits raw [] headerEnd := by
  rintro ⟨front, hfront, hfind, -⟩
  rw [List.prefix_nil.mp hfront, stream_nil, List.append_nil, hraw] at hfind
  cases hfind

/-- A head that is not complete yet is complete at the end of a later chunk. -/
theorem headFits_cons {raw : Text} (hraw : find headEnd raw = none) (answer : Recv)
    (answers : List Recv) (headerEnd : Nat) :
    HeadFits raw (answer :: answers) headerEnd ↔
      HeadFits (raw ++ stream [answer]) answers headerEnd := by
  have hstream : ∀ front, raw ++ stream [answer] ++ stream front =
      raw ++ stream (answer :: front) := by
    intro front
    rw [List.append_assoc, ← stream_append]
    rfl
  constructor
  · rintro ⟨front, hfront, hfind, hlimit⟩
    rcases List.prefix_cons_iff.mp hfront with rfl | ⟨front', rfl, hfront'⟩
    · rw [stream_nil, List.append_nil, hraw] at hfind
      cases hfind
    · rw [← hstream] at hfind hlimit
      exact ⟨front', hfront', hfind, hlimit⟩
  · rintro ⟨front, hfront, hfind, hlimit⟩
    rw [hstream] at hfind hlimit
    exact ⟨answer :: front, List.cons_prefix_cons.mpr ⟨rfl, hfront⟩, hfind, hlimit⟩

/-- The first loop ends with the head if that fits, and drops the connection as soon as it has
read past the limit. -/
theorem receiveHead_clean (raw : Text) {answers : List Recv} (hclean : Clean answers)
    (hlimit : raw.length ≤ kMaxHeaderBytes) (hraw : find headEnd raw = none) :
    (∀ headerEnd, HeadFits raw answers headerEnd →
        ∃ raw' rest, receiveHead raw answers = .done (raw', headerEnd, rest)) ∧
      ((∀ headerEnd, ¬HeadFits raw answers headerEnd) → receiveHead raw answers =
        if kMaxHeaderBytes < (raw ++ stream answers).length then .dropped else .waiting) := by
  induction answers generalizing raw with
  | nil =>
      refine ⟨fun headerEnd hfits => absurd hfits (headFits_nil hraw headerEnd), fun _ => ?_⟩
      rw [stream_nil, List.append_nil, if_neg (by omega)]
      rfl
  | cons answer answers ih =>
      have hcons := headFits_cons hraw answer answers
      rcases hclean answer List.mem_cons_self with rfl | ⟨chunk, hchunk, rfl⟩
      · simp only [hcons, stream_retry, stream_nil, List.append_nil]
        exact ih raw hclean.tail hlimit hraw
      · rw [stream_bytes, ← List.append_assoc, receiveHead, if_neg hchunk]
        simp only [hcons, stream_bytes, stream_nil, List.append_nil]
        by_cases hover : kMaxHeaderBytes < (raw ++ chunk).length
        · rw [if_pos hover, if_pos (by rw [List.length_append]; omega)]
          refine ⟨?_, fun _ => rfl⟩
          rintro headerEnd ⟨front, -, -, hfits⟩
          rw [List.length_append] at hfits
          omega
        · rw [if_neg hover]
          cases hfound : find headEnd (raw ++ chunk) with
          | none => exact ih (raw ++ chunk) hclean.tail (by omega) hfound
          | some found =>
              refine ⟨?_, fun hnot => ?_⟩
              · rintro headerEnd ⟨front, -, hfind, -⟩
                rw [find_append hfound] at hfind
                cases hfind
                exact ⟨raw ++ chunk, answers, rfl⟩
              · refine absurd ⟨[], List.nil_prefix, ?_, ?_⟩ (hnot found)
                · rw [stream_nil, List.append_nil, hfound]
                · rw [stream_nil, List.append_nil]
                  omega

theorem receiveBody_clean {answers : List Recv} (hclean : Clean answers)
    (headerLen contentLen : Nat) (raw : Text) :
    ((raw ++ stream answers).length - headerLen < contentLen →
        receiveBody headerLen contentLen raw answers = .waiting) ∧
      (¬ (raw ++ stream answers).length - headerLen < contentLen →
        ∃ r, receiveBody headerLen contentLen raw answers = .done r) := by
  induction answers generalizing raw with
  | nil =>
      simp only [stream_nil, List.append_nil, receiveBody]
      refine ⟨fun hshort => if_pos hshort, fun hlong => ?_⟩
      rw [if_neg hlong]
      exact ⟨_, rfl⟩
  | cons answer answers ih =>
      unfold receiveBody
      by_cases hshort : raw.length - headerLen < contentLen
      · rw [if_pos hshort]
        rcases hclean answer List.mem_cons_self with rfl | ⟨chunk, hchunk, rfl⟩
        · exact ih hclean.tail raw
        · simp only [if_neg hchunk]
          rw [stream_bytes, ← List.append_assoc]
          exact ih hclean.tail (raw ++ chunk)
      · rw [if_neg hshort]
        refine ⟨fun hwhole => ?_, fun _ => ⟨_, rfl⟩⟩
        rw [List.length_append] at hwhole
        omega

/-- Once the head fits, the bytes alone decide. -/
theorem receiveRequest_of_headFits {answers : List Recv} (hclean : Clean answers) {headerEnd : Nat}
    (hhead : HeadFits [] answers headerEnd) :
    ((∃ r, receiveRequest answers = .done r) ↔ (requestOf (stream answers)).isSome = true) ∧
      (receiveRequest answers = .dropped ↔
        contentLengthOf (parseRequest ((stream answers).take (headerEnd + 4))) = none) := by
  obtain ⟨raw, rest, hdone⟩ :=
    (receiveHead_clean [] hclean (by decide) (by decide)).1 headerEnd hhead
  obtain ⟨consumed, rfl, hraw, hfound, -⟩ := receiveHead_done hdone
  rw [List.nil_append] at hraw
  rw [stream_append, ← hraw]
  have hfind := find_append hfound (stream rest)
  have htake := take_append_of_find hfound (stream rest)
  cases hlen : contentLengthOf (parseRequest (raw.take (headerEnd + 4))) with
  | none =>
      have hreq : receiveRequest (consumed ++ rest) = .dropped := by
        simp only [receiveRequest, hdone, hlen]
      have hof : requestOf (raw ++ stream rest) = none := by
        simp only [requestOf, hfind, htake, hlen]
      simp [hreq, hof, htake, hlen]
  | some contentLen =>
      have hrest : Clean rest := fun a ha => hclean a (List.mem_append_right _ ha)
      obtain ⟨hwaiting, hcomplete⟩ :=
        receiveBody_clean hrest (headerEnd + 4) contentLen.toNat raw
      by_cases hshort : (raw ++ stream rest).length - (headerEnd + 4) < contentLen.toNat
      · have hreq : receiveRequest (consumed ++ rest) = .waiting := by
          simp only [receiveRequest, hdone, hlen, hwaiting hshort]
        have hof : requestOf (raw ++ stream rest) = none := by
          simp only [requestOf, hfind, htake, hlen, if_pos hshort]
        simp [hreq, hof, htake, hlen]
      · obtain ⟨r, hr⟩ := hcomplete hshort
        have hreq : ∃ r, receiveRequest (consumed ++ rest) = .done r := by
          simp only [receiveRequest, hdone, hlen, hr]
          exact ⟨_, rfl⟩
        obtain ⟨r', hreq⟩ := hreq
        have hof : (requestOf (raw ++ stream rest)).isSome = true := by
          simp only [requestOf, hfind, htake, hlen, if_neg hshort, Option.isSome_some]
        simp [hreq, hof, htake, hlen]

/-- A head that does not fit is waited for until the limit is passed. -/
theorem receiveRequest_of_not_headFits {answers : List Recv} (hclean : Clean answers)
    (hhead : ∀ headerEnd, ¬HeadFits [] answers headerEnd) :
    receiveRequest answers =
      if kMaxHeaderBytes < (stream answers).length then .dropped else .waiting := by
  have hloop := (receiveHead_clean [] hclean (by decide) (by decide)).2 hhead
  rw [List.nil_append] at hloop
  by_cases hover : kMaxHeaderBytes < (stream answers).length
  · rw [if_pos hover] at hloop ⊢
    simp only [receiveRequest, hloop]
  · rw [if_neg hover] at hloop ⊢
    simp only [receiveRequest, hloop]

theorem headFits_unique {answers : List Recv} (hclean : Clean answers) {headerEnd other : Nat}
    (h : HeadFits [] answers headerEnd) (h' : HeadFits [] answers other) : other = headerEnd := by
  have hloop := (receiveHead_clean [] hclean (by decide) (by decide)).1
  obtain ⟨raw, rest, hdone⟩ := hloop headerEnd h
  obtain ⟨raw', rest', hdone'⟩ := hloop other h'
  rw [hdone] at hdone'
  cases hdone'
  rfl

/-- On a connection on which nothing goes wrong, the handler gets a request exactly if the bytes
begin with one and its head fits. The connection is dropped exactly if the head fits and has a
Content-Length that is refused, or does not fit and the bytes are past the limit. -/
theorem receiveRequest_clean {answers : List Recv} (hclean : Clean answers) :
    ((∃ r, receiveRequest answers = .done r) ↔
        (requestOf (stream answers)).isSome = true ∧ ∃ headerEnd, HeadFits [] answers headerEnd) ∧
      (receiveRequest answers = .dropped ↔
        (∃ headerEnd, HeadFits [] answers headerEnd ∧
          contentLengthOf (parseRequest ((stream answers).take (headerEnd + 4))) = none) ∨
        (∀ headerEnd, ¬HeadFits [] answers headerEnd) ∧
          kMaxHeaderBytes < (stream answers).length) := by
  by_cases hhead : ∃ headerEnd, HeadFits [] answers headerEnd
  · obtain ⟨headerEnd, hhead⟩ := hhead
    obtain ⟨hdone, hdropped⟩ := receiveRequest_of_headFits hclean hhead
    refine ⟨?_, ?_⟩
    · rw [hdone]
      exact ⟨fun hof => ⟨hof, headerEnd, hhead⟩, fun h => h.1⟩
    · rw [hdropped]
      constructor
      · exact fun hnone => .inl ⟨headerEnd, hhead, hnone⟩
      · rintro (⟨other, hother, hnone⟩ | ⟨hnone, -⟩)
        · rwa [headFits_unique hclean hhead hother] at hnone
        · exact absurd hhead (hnone headerEnd)
  · have hnone : ∀ headerEnd, ¬HeadFits [] answers headerEnd := fun e he => hhead ⟨e, he⟩
    rw [receiveRequest_of_not_headFits hclean hnone]
    by_cases hover : kMaxHeaderBytes < (stream answers).length
    · simp [hnone, hover]
    · simp [hnone, hover]

theorem clean_cutRequest : Clean cutRequest := by
  intro answer hanswer
  simp only [cutRequest, List.mem_cons, List.not_mem_nil, or_false] at hanswer
  rcases hanswer with rfl | rfl | rfl | rfl
  · exact .inr ⟨_, by decide +kernel, rfl⟩
  · exact .inl rfl
  · exact .inr ⟨_, by decide +kernel, rfl⟩
  · exact .inr ⟨_, by decide +kernel, rfl⟩

theorem receiveRequest_clean_of_cutRequest : ∃ r, receiveRequest cutRequest = .done r := by
  refine (receiveRequest_clean clean_cutRequest).1.mpr ⟨by decide +kernel, 43, cutRequest, ?_⟩
  exact ⟨List.prefix_refl _, by decide +kernel, by decide +kernel⟩

/-! ### Requests that were written by a client -/

theorem find_cons {c : Byte} {s : Text} (h : ¬ headEnd.isPrefixOf (c :: s) = true) :
    find headEnd (c :: s) = (find headEnd s).map (· + 1) := by rw [find, if_neg h]

/-- The end of a line is the end of the head exactly if a blank line follows. -/
theorem find_line {line : Text} (hline : ascii '\n' ∉ line) (s : Text) :
    find headEnd (line ++ crlf ++ s) =
      if crlf.isPrefixOf s then some line.length
      else (find headEnd s).map (· + (line.length + 2)) := by
  induction line with
  | nil =>
      have hlf : ¬ headEnd.isPrefixOf (ascii '\n' :: s) = true := by
        simp [headEnd, crlf, List.isPrefixOf, show (ascii '\r' == ascii '\n') = false by decide]
      have hcr : headEnd.isPrefixOf (ascii '\r' :: ascii '\n' :: s) = crlf.isPrefixOf s := by
        simp [headEnd, crlf, List.isPrefixOf]
      change find headEnd (ascii '\r' :: ascii '\n' :: s) = _
      by_cases hblank : crlf.isPrefixOf s = true
      · rw [if_pos hblank, find, if_pos (by rw [hcr, hblank])]
        rfl
      · rw [if_neg hblank, find_cons (by rw [hcr]; exact hblank), find_cons hlf, Option.map_map]
        rfl
  | cons c line ih =>
      simp only [List.mem_cons, not_or] at hline
      -- The next character belongs to the line, or is its carriage return.
      have hnot : ¬ headEnd.isPrefixOf (c :: (line ++ crlf ++ s)) = true := by
        cases line with
        | nil =>
            simp [headEnd, crlf, List.isPrefixOf,
              show (ascii '\n' == ascii '\r') = false by decide]
        | cons d line =>
            have hd : (ascii '\n' == d) = false := by
              rw [beq_eq_false_iff_ne]
              intro heq
              exact hline.2 (by simp [heq])
            simp [headEnd, crlf, List.isPrefixOf, hd]
      rw [List.cons_append, List.cons_append, find_cons hnot, ih hline.2]
      split_ifs
      · rfl
      · rw [Option.map_map]
        rfl

theorem crlf_not_isPrefixOf {line s : Text} (hline : ascii '\n' ∉ line) (hlen : 2 ≤ line.length) :
    ¬ crlf.isPrefixOf (line ++ s) = true := by
  obtain ⟨c, line, rfl⟩ := List.exists_cons_of_length_pos (by omega : 0 < line.length)
  obtain ⟨d, line, rfl⟩ := List.exists_cons_of_length_pos
    (by rw [List.length_cons] at hlen; omega : 0 < line.length)
  simp only [List.mem_cons, not_or] at hline
  have hd : (ascii '\n' == d) = false := beq_eq_false_iff_ne.mpr hline.2.1
  simp [crlf, List.isPrefixOf, hd]

/-- The head ends where its writer put the blank line. -/
theorem find_headers {line : Text} (hline : ascii '\n' ∉ line) (fields : List HeaderField)
    (body : Text) :
    find headEnd (line ++ crlf ++
        (fields.flatMap (fun field => headerLine field.name field.value) ++ (crlf ++ body))) =
      some (line.length +
        (fields.flatMap fun field => headerLine field.name field.value).length) := by
  induction fields generalizing line with
  | nil =>
      rw [find_line hline, List.flatMap_nil, List.nil_append, if_pos]
      · rfl
      · simp [crlf, List.isPrefixOf]
  | cons field fields ih =>
      have hfield : ascii '\n' ∉ field.name ++ text ": " ++ field.value := by
        simp only [List.mem_append, not_or]
        exact ⟨⟨field.plain_name.line, by decide⟩, field.plain_value.line⟩
      have hsplit : (field :: fields).flatMap (fun field => headerLine field.name field.value) ++
          (crlf ++ body) = field.name ++ text ": " ++ field.value ++ crlf ++
            (fields.flatMap (fun field => headerLine field.name field.value) ++
              (crlf ++ body)) := by
        simp [headerLine]
      have hblank := crlf_not_isPrefixOf (s := crlf ++
        (fields.flatMap (fun field => headerLine field.name field.value) ++ (crlf ++ body)))
        hfield (by simp only [List.length_append]; simp [text]; omega)
      rw [hsplit, find_line hline, if_neg (by simpa using hblank), ih hfield]
      simp only [Option.map_some, List.flatMap_cons, List.length_append, headerLine, crlf,
        List.length_cons, List.length_nil]
      congr 1
      omega

theorem requestText_append (method path version : Text) (fields : List HeaderField)
    (body : Text) : requestText method path version fields body =
      requestText method path version fields [] ++ body := by
  simp [requestText]

theorem four_le_length_requestText (method path version : Text) (fields : List HeaderField) :
    4 ≤ (requestText method path version fields []).length := by
  simp [requestText, crlf]
  omega

section Written

variable {method path version : Text} {fields : List HeaderField} {body : Text}

theorem find_requestText (hmethod : IsWord method) (hpath : IsWord path)
    (hversion : ascii '\n' ∉ version) (fields : List HeaderField) (body : Text) :
    find headEnd (requestText method path version fields body) =
      some ((requestText method path version fields []).length - 4) := by
  have hline : ascii '\n' ∉ method ++ text " " ++ path ++ text " " ++ version := by
    simp only [List.mem_append, not_or]
    exact ⟨⟨⟨⟨hmethod.not_mem_newline, by decide⟩, hpath.not_mem_newline⟩, by decide⟩, hversion⟩
  rw [requestText, find_headers hline]
  simp only [requestText, crlf, List.length_append, List.length_cons, List.length_nil]
  congr 1
  omega

/-- The bytes that a client wrote are the request that it meant. -/
theorem requestOf_requestText (hmethod : IsWord method) (hpath : IsWord path)
    (hversion : ascii '\n' ∉ version)
    (hlength : lastValue fields (text "content-length") = some (toDecimal body.length))
    (hbody : body.length ≤ kMaxBodyBytes) :
    requestOf (requestText method path version fields body) =
      some ⟨method, path, fields.foldl addField ∅, body, BitVec.ofNat 64 body.length⟩ := by
  have hhead := four_le_length_requestText method path version fields
  have hsplit := requestText_append method path version fields body
  have htake : (requestText method path version fields body).take
      ((requestText method path version fields []).length - 4 + 4) =
        requestText method path version fields [] := by
    rw [Nat.sub_add_cancel hhead, hsplit, List.take_left]
  have hdrop : (requestText method path version fields body).drop
      ((requestText method path version fields []).length - 4 + 4) = body := by
    rw [Nat.sub_add_cancel hhead, hsplit, List.drop_left]
  have hfits : body.length < 2 ^ 64 := by
    unfold kMaxBodyBytes at hbody
    omega
  have hvalue : (BitVec.ofNat 64 body.length).toNat = body.length := by
    rw [BitVec.toNat_ofNat, Nat.mod_eq_of_lt hfits]
  have hlen : contentLengthOf ⟨method, path, fields.foldl addField ∅, [], 0⟩ =
      some (BitVec.ofNat 64 body.length) := by
    simp only [contentLengthOf, getElem?_foldl_addField, hlength, parseNumber_toDecimal hfits]
    rw [if_neg (by omega)]
  have hshort : ¬ (requestText method path version fields body).length -
      ((requestText method path version fields []).length - 4 + 4) < body.length := by
    rw [← List.length_drop, hdrop]
    omega
  rw [requestOf, find_requestText hmethod hpath hversion]
  simp only [htake, parseRequest_requestText hmethod hpath hversion, hlen, hdrop, hvalue]
  rw [if_neg hshort]

/-- A request that a client has written reaches the handler as it was meant, however the
connection cuts it and unless its head does not fit; then the connection is dropped. -/
theorem request_arrives (hmethod : IsWord method) (hpath : IsWord path)
    (hversion : ascii '\n' ∉ version)
    (hlength : lastValue fields (text "content-length") = some (toDecimal body.length))
    (hbody : body.length ≤ kMaxBodyBytes) {answers : List Recv} (hclean : Clean answers)
    (hstream : stream answers = requestText method path version fields body) :
    ((∃ front, front <+: answers ∧
          (requestText method path version fields []).length ≤ (stream front).length ∧
          (stream front).length ≤ kMaxHeaderBytes) →
        ∃ rest, receiveRequest answers =
          .done (⟨method, path, fields.foldl addField ∅, body, BitVec.ofNat 64 body.length⟩,
            rest)) ∧
      ((∀ front, front <+: answers →
          (requestText method path version fields []).length ≤ (stream front).length →
          kMaxHeaderBytes < (stream front).length) →
        receiveRequest answers = .dropped) := by
  have hwhole := requestOf_requestText hmethod hpath hversion hlength hbody
  have hfind := find_requestText hmethod hpath hversion fields body
  refine ⟨?_, ?_⟩
  · rintro ⟨front, hfront, hhead, hlimit⟩
    obtain ⟨back, rfl⟩ := hfront
    rw [← hstream, stream_append] at hfind
    have hend : (requestText method path version fields []).length - 4 + headEnd.length ≤
        (stream front).length := by
      have hfour := four_le_length_requestText method path version fields
      simp only [headEnd, crlf, List.length_append, List.length_cons, List.length_nil]
      omega
    have hfits : HeadFits [] (front ++ back) _ :=
      ⟨front, List.prefix_append _ _, find_of_append hfind hend, hlimit⟩
    obtain ⟨⟨req, rest⟩, hdone⟩ := (receiveRequest_of_headFits hclean hfits).1.mpr (by
      rw [hstream, hwhole]
      rfl)
    obtain ⟨front', back', headerEnd, hanswers, -, -, hreq, -, -, hcomplete, -⟩ :=
      receiveRequest_split hdone
    -- Nothing is left behind the body, since the client promised all of it.
    rw [← List.append_assoc] at hanswers
    rw [hanswers, stream_append] at hstream
    rw [← hstream, requestOf_append hreq] at hwhole
    obtain ⟨method', path', headers', body', len'⟩ := req
    simp only [Option.some.injEq, HttpRequest.mk.injEq] at hwhole
    obtain ⟨rfl, rfl, rfl, rfl, rfl⟩ := hwhole
    have hrest : stream rest = [] := by
      rw [List.length_append] at hbody hcomplete
      unfold kMaxBodyBytes at hbody
      dsimp only at hcomplete
      rw [BitVec.toNat_ofNat, Nat.mod_eq_of_lt (by omega)] at hcomplete
      exact List.length_eq_zero_iff.mp (by omega)
    rw [hrest, List.append_nil]
    exact ⟨rest, by rw [hdone, hrest, List.append_nil]⟩
  · intro hover
    rw [receiveRequest_of_not_headFits hclean, if_pos]
    · refine hover answers (List.prefix_refl _) ?_
      rw [hstream, requestText_append method path version fields body, List.length_append]
      exact Nat.le_add_right _ _
    · rintro headerEnd ⟨front, hfront, hfound, hlimit⟩
      rw [List.nil_append] at hfound hlimit
      have hend := find_headEnd_le hfound
      obtain ⟨back, rfl⟩ := hfront
      rw [← hstream, stream_append, find_append hfound] at hfind
      cases hfind
      have := hover front (List.prefix_append _ _) (by omega)
      omega

end Written

theorem plain_of_ends {s : Text} (hline : ascii '\n' ∉ s)
    (hhead : s.head?.all (fun c => c ≠ ascii ' ' ∧ c ≠ ascii '\t') = true)
    (hlast : s.getLast?.all (fun c => c ≠ ascii ' ' ∧ c ≠ ascii '\r') = true) : Plain s := by
  refine ⟨hline, ?_, ?_⟩
  · intro c hc
    simpa [Option.mem_def.mp hc] using hhead
  · intro c hc
    simpa [Option.mem_def.mp hc] using hlast

theorem not_mem_contentLength : ascii ':' ∉ text "Content-Length" := by decide +kernel

theorem plain_contentLength : Plain (text "Content-Length") :=
  plain_of_ends (by decide +kernel) (by decide +kernel) (by decide +kernel)

def fiveBytes : HeaderField where
  name := text "Content-Length"
  value := text "5"
  colon := not_mem_contentLength
  plain_name := plain_contentLength
  plain_value := plain_of_ends (by decide +kernel) (by decide +kernel) (by decide +kernel)

theorem request_arrives_of_cutRequest :
    ∃ rest, receiveRequest cutRequest = .done (⟨text "PUT", text "/bucket/key",
      [fiveBytes].foldl addField ∅, text "hello", 5⟩, rest) := by
  have hword : ∀ s ∈ [text "PUT", text "/bucket/key"], IsWord s := by
    intro s hs
    refine ⟨?_, ?_⟩
    · revert s
      decide +kernel
    · revert s
      decide +kernel
  refine (request_arrives (hword _ (by simp)) (hword _ (by simp))
    (by decide +kernel : ascii '\n' ∉ text "HTTP/1.1") (by decide +kernel) (by decide +kernel)
    clean_cutRequest (by decide +kernel)).1 ⟨cutRequest, List.prefix_refl _, ?_, ?_⟩
  · decide +kernel
  · decide +kernel

end HipObject.Server
