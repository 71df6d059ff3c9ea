import Xi2p.Lib.Lines

/-!
# Downloads inside of the network

`ProcessI2PResponse` and `MergeI2PChunkedResponse` of `client/util/http.cc`. The lines of the body that have
a colon are left out, and the others are joined again before the chunks are merged.

* `processI2PResponse`: what comes of a response.
* `Response`: responses to a request that has been successful.
* `delivered_iff`: of which responses the contents are the body.
-/

namespace Client

open Text

namespace Downloading

/-! ## The download -/

/-- `HTTPStorage`, as far as a response changes it. -/
structure HTTPStorage where
  /-- `m_ETag`. -/
  etag : List UInt8 := []
  /-- `m_LastModified`. -/
  lastModified : List UInt8 := []
  /-- `m_Stream`. -/
  contents : List UInt8 := []
  deriving DecidableEq

/-- What the loop over the header has found. -/
structure HeaderState where
  storage : HTTPStorage
  isChunked : Bool := false

/-- What is behind the colon of a line when its last character is gone, or none if it throws. -/
def valueOf (line field : List UInt8) : Option (List UInt8) :=
  if field.length + 1 ≤ line.dropLast.length then some (line.dropLast.drop (field.length + 1)) else none

/-- A line of the header, or none if it throws. -/
def handleHeader (h : HeaderState) (line : List UInt8) : Option HeaderState :=
  if 58 ∉ line then some h
  else
    let field := line.takeWhile (· ≠ 58)
    if field = ascii "ETag" then
      (valueOf line field).map fun v => { h with storage.etag := v }
    else if field = ascii "Last-Modified" then
      (valueOf line field).map fun v => { h with storage.lastModified := v }
    else if field = ascii "Transfer-Encoding" then
      (valueOf line field).map fun v => { h with isChunked := v = ascii "chunked" }
    else some h

/-- The loop over the header, and the lines behind it. -/
def readHeader : HeaderState → List (List UInt8) → Option (HeaderState × List (List UInt8))
  | h, [] => some (h, [])
  | h, line :: rest =>
    if line = [13] then some (h, rest)
    else
      match handleHeader h line with
      | none => none
      | some h => readHeader h rest

/-- The loop of `MergeI2PChunkedResponse`, for at most so many chunks. What is missing of a chunk is zero, as
the buffer is. -/
def mergeUpTo : ℕ → StringStream → List UInt8
  | 0, _ => []
  | n + 1, response =>
    let (response, hex) := response.getline []
    if response.fail then []
    else
      match (StringStream.extractUnsigned 16 64 { unread := hex }).2 with
      | none => []
      | some len =>
        if len = 0 then []
        else
          let (response, buf) := response.read len
          buf ++ List.replicate (len - buf.length) 0 ++ mergeUpTo n (response.getline []).1

/-- `MergeI2PChunkedResponse`. Every chunk takes a line at least. -/
def mergeI2PChunkedResponse (content : List UInt8) : List UInt8 :=
  mergeUpTo (content.length + 1) { unread := content }

/-- `ProcessI2PResponse`, or none if it throws. -/
def processI2PResponse (storage : HTTPStorage) (response : StringStream) : Option (Bool × HTTPStorage) :=
  let (response, _) := response.extractWord
  let (response, code) := response.extractUnsigned 10 16
  if code = some 200 then
    let (response, _) := response.getline []
    match readHeader { storage } response.linesLeft with
    | none => none
    | some (h, rest) =>
      let content := unlines (rest.filter (58 ∉ ·))
      some (true, { h.storage with
        contents := if h.isChunked then mergeI2PChunkedResponse content else content })
  else if code = some 304 then some (true, storage)
  else some (false, storage)

/-! ## Responses -/

/-- A field of a header. -/
structure Field where
  name : List UInt8
  value : List UInt8
  colon_not_mem : 58 ∉ name
  lineFeed_not_mem_name : 10 ∉ name
  lineFeed_not_mem : 10 ∉ value
  /-- The coding is given apart. -/
  name_ne : name ≠ ascii "Transfer-Encoding"

/-- A chunk, with its size in base 16. -/
structure Chunk where
  size : List UInt8
  data : List UInt8
  size_ne : size ≠ []
  size_digits : ∀ b ∈ size, isDigit 16 b = true
  number_size : number 16 size = data.length
  data_ne : data ≠ []

/-- The size of a chunk that goes on behind the end of the data. -/
structure Excess where
  size : List UInt8
  rest : List UInt8
  size_ne : size ≠ []
  size_digits : ∀ b ∈ size, isDigit 16 b = true
  length_lt : rest.length < number 16 size

/-- How a body is sent. -/
inductive Body
  | plain (body : List UInt8)
  /-- With a blank in front of `chunked`, or without. -/
  | chunked (blank : Bool) (fields : List Field) (chunks : List Chunk)
  /-- The last chunk has more bytes than follow. -/
  | truncated (blank : Bool) (fields : List Field) (chunks : List Chunk) (excess : Excess)

/-- A response to a request that has been successful. -/
structure Response where
  reason : List UInt8
  fields : List Field
  body : Body
  lineFeed_not_mem : 10 ∉ reason

/-- A field in a line of its own. -/
def Field.line (f : Field) : List UInt8 := f.name ++ 58 :: (f.value ++ crlf)

/-- The field for the coding. -/
def codingLine (blank : Bool) : List UInt8 :=
  ascii "Transfer-Encoding:" ++ ((if blank then [32] else []) ++ ascii "chunked" ++ crlf)

/-- The chunks in the order in which they are sent. -/
def sentChunks (chunks : List Chunk) : List UInt8 :=
  chunks.flatMap fun c => c.size ++ crlf ++ (c.data ++ crlf)

/-- The bytes of all chunks. -/
def dataOf (chunks : List Chunk) : List UInt8 := chunks.flatMap Chunk.data

/-- What follows the fields that are given first. -/
def Body.sent : Body → List UInt8
  | plain body => crlf ++ body
  | chunked blank fields chunks =>
    codingLine blank ++ fields.flatMap Field.line ++ crlf ++ (sentChunks chunks ++ ascii "0" ++ crlf ++ crlf)
  | truncated blank fields chunks excess =>
    codingLine blank ++ fields.flatMap Field.line ++ crlf ++
      (sentChunks chunks ++ (excess.size ++ crlf ++ excess.rest))

/-- The bytes of a response. -/
def Response.bytes (r : Response) : List UInt8 :=
  ascii "HTTP/1.1 200 " ++ r.reason ++ crlf ++ r.fields.flatMap Field.line ++ r.body.sent

/-- The contents are the body; of a chunk that is too long, only bytes that have been received are added. -/
def Body.IsGivenBy (contents : List UInt8) : Body → Prop
  | plain body => contents = body
  | chunked _ _ chunks => contents = dataOf chunks
  | truncated _ _ chunks excess => ∃ received, received <+: excess.rest ∧ contents = dataOf chunks ++ received

/-- The download has been successful, and the contents are the body. -/
def Delivered (storage : HTTPStorage) (r : Response) : Prop :=
  ∃ storage', processI2PResponse storage { str := r.bytes, unread := r.bytes } = some (true, storage') ∧
    r.body.IsGivenBy storage'.contents

/-- A size can be read. -/
abbrev Fits (size : ℕ) : Prop := size < 2 ^ 64

/-- A plain body has no colon and ends in a line. Chunks have no colon, and there is no blank in front of the
coding; a chunk that is too long has a size that cannot be read. -/
def Body.Deliverable : Body → Prop
  | plain body => 58 ∉ body ∧ EndsInLine body
  | chunked blank _ chunks => blank = false ∧ 58 ∉ dataOf chunks ∧ ∀ c ∈ chunks, Fits c.data.length
  | truncated blank _ chunks excess =>
    blank = false ∧ 58 ∉ dataOf chunks ∧ (∀ c ∈ chunks, Fits c.data.length) ∧
      ¬ Fits (number 16 excess.size)

/-! ## The header -/

/-- What stands behind the empty line. -/
def Body.payload : Body → List UInt8
  | plain body => body
  | chunked _ _ chunks => sentChunks chunks ++ ascii "0" ++ crlf ++ crlf
  | truncated _ _ chunks excess => sentChunks chunks ++ (excess.size ++ crlf ++ excess.rest)

/-- The coding is recognised. -/
def Body.isRecognised : Body → Bool
  | plain _ => false
  | chunked blank _ _ | truncated blank _ _ _ => !blank

variable {h : HeaderState} {rest : List UInt8}

/-- The line of a field without its line feed. -/
def Field.text (f : Field) : List UInt8 := f.name ++ 58 :: (f.value ++ [13])

theorem Field.line_append (f : Field) (rest : List UInt8) : f.line ++ rest = f.text ++ 10 :: rest := by
  simp [line, text]

theorem Field.lineFeed_not_mem_text (f : Field) : 10 ∉ f.text := by
  simp only [text, List.mem_append, List.mem_cons, List.not_mem_nil, not_or, or_false]
  exact ⟨f.lineFeed_not_mem_name, by decide, f.lineFeed_not_mem, by decide⟩

/-- The name and the value of a line with a colon. -/
theorem takeWhile_name {name value : List UInt8} (hname : 58 ∉ name) :
    (name ++ 58 :: (value ++ [13])).takeWhile (· ≠ 58) = name := by
  have hpos : ∀ b ∈ name, (decide (b ≠ 58)) = true := fun b hb =>
    decide_eq_true fun heq => hname (heq ▸ hb)
  rw [List.takeWhile_append_of_pos hpos]
  simp

theorem valueOf_name (name value : List UInt8) :
    valueOf (name ++ 58 :: (value ++ [13])) name = some value := by
  have hdrop : (name ++ 58 :: (value ++ [13])).dropLast = name ++ 58 :: value := by
    rw [← List.cons_append, ← List.append_assoc, List.dropLast_concat]
  rw [valueOf, hdrop, if_pos (by simp)]
  simp

/-- A field of another name leaves the coding as it is. -/
theorem handleHeader_text (h : HeaderState) (f : Field) :
    ∃ h', handleHeader h f.text = some h' ∧ h'.isChunked = h.isChunked := by
  have hcolon : ¬ 58 ∉ f.text := by simp [Field.text]
  rw [handleHeader, if_neg hcolon]
  unfold Field.text
  dsimp only
  rw [takeWhile_name f.colon_not_mem, valueOf_name, if_neg f.name_ne]
  split_ifs
  · exact ⟨_, rfl, rfl⟩
  · exact ⟨_, rfl, rfl⟩
  · exact ⟨_, rfl, rfl⟩

/-- The loop goes over the fields. -/
theorem readHeader_fields (h : HeaderState) (fields : List Field) (rest : List UInt8) :
    ∃ h', readHeader h (lines (fields.flatMap Field.line ++ rest)) = readHeader h' (lines rest) ∧
      h'.isChunked = h.isChunked := by
  induction fields generalizing h with
  | nil => exact ⟨h, rfl, rfl⟩
  | cons f fields ih =>
    obtain ⟨h₁, hhandle, hchunked⟩ := handleHeader_text h f
    obtain ⟨h₂, hread, hchunked'⟩ := ih h₁
    refine ⟨h₂, ?_, hchunked'.trans hchunked⟩
    have hne : f.text ≠ [13] := fun heq => by
      have hmem : (58 : UInt8) ∈ f.text := by simp [Field.text]
      rw [heq] at hmem
      exact absurd hmem (by decide)
    rw [List.flatMap_cons, List.append_assoc, Field.line_append, lines_append f.lineFeed_not_mem_text,
      readHeader, if_neg hne, hhandle]
    exact hread

/-- The coding is recognised without the blank. -/
theorem readHeader_codingLine (h : HeaderState) (blank : Bool) (rest : List UInt8) :
    readHeader h (lines (codingLine blank ++ rest)) =
      readHeader { h with isChunked := !blank } (lines rest) := by
  set value : List UInt8 := (if blank then [32] else []) ++ ascii "chunked" with hvalue
  have hcoding : ascii "Transfer-Encoding:" = ascii "Transfer-Encoding" ++ [58] := by decide
  have hline : codingLine blank ++ rest =
      (ascii "Transfer-Encoding" ++ 58 :: (value ++ [13])) ++ 10 :: rest := by
    rw [codingLine, hcoding, hvalue]
    simp
  have hnot : 10 ∉ ascii "Transfer-Encoding" ++ 58 :: (value ++ [13]) := by
    rw [hvalue]
    cases blank <;> decide
  have hne : ascii "Transfer-Encoding" ++ 58 :: (value ++ [13]) ≠ [13] := fun heq => by
    have hmem : (58 : UInt8) ∈ ascii "Transfer-Encoding" ++ 58 :: (value ++ [13]) := by simp
    rw [heq] at hmem
    exact absurd hmem (by decide)
  have hhandle : handleHeader h (ascii "Transfer-Encoding" ++ 58 :: (value ++ [13])) =
      some { h with isChunked := !blank } := by
    have hcolon : ¬ 58 ∉ ascii "Transfer-Encoding" ++ 58 :: (value ++ [13]) := by simp
    rw [handleHeader, if_neg hcolon]
    dsimp only
    rw [takeWhile_name (by decide), valueOf_name, if_neg (by decide), if_neg (by decide), if_pos rfl]
    cases blank <;> simp [hvalue]
  rw [hline, lines_append hnot, readHeader, if_neg hne, hhandle]

/-- The empty line ends the header. -/
theorem readHeader_crlf (h : HeaderState) (rest : List UInt8) :
    readHeader h (lines (crlf ++ rest)) = some (h, lines rest) := by
  have hlines : lines (crlf ++ rest) = [13] :: lines rest := lines_append (by decide : (10 : UInt8) ∉ [13])
  rw [hlines, readHeader, if_pos rfl]

/-- The header of a response. -/
theorem readHeader_sent (hplain : h.isChunked = false) (body : Body) :
    ∃ h', readHeader h (lines body.sent) = some (h', lines body.payload) ∧
      h'.isChunked = body.isRecognised := by
  have hcoded (blank : Bool) (fields : List Field) (payload : List UInt8) :
      ∃ h', readHeader h (lines (codingLine blank ++ fields.flatMap Field.line ++ crlf ++ payload)) =
        some (h', lines payload) ∧ h'.isChunked = !blank := by
    obtain ⟨h', hread, hchunked⟩ :=
      readHeader_fields { h with isChunked := !blank } fields (crlf ++ payload)
    refine ⟨h', ?_, hchunked⟩
    rw [List.append_assoc, List.append_assoc, readHeader_codingLine, hread, readHeader_crlf]
  cases body with
  | plain body => exact ⟨h, readHeader_crlf h body, hplain⟩
  | chunked blank fields chunks => exact hcoded blank fields _
  | truncated blank fields chunks excess => exact hcoded blank fields _

/-- The contents of a response. -/
def Body.contents (body : Body) : List UInt8 :=
  if body.isRecognised then mergeI2PChunkedResponse (keepLines 58 body.payload)
  else keepLines 58 body.payload

/-- What comes of a response to a request that has been successful. -/
theorem processI2PResponse_bytes (storage : HTTPStorage) (r : Response) :
    ∃ storage', processI2PResponse storage { str := r.bytes, unread := r.bytes } = some (true, storage') ∧
      storage'.contents = r.body.contents := by
  set tail := r.fields.flatMap Field.line ++ r.body.sent with htail
  have hbytes : r.bytes = ascii "HTTP/1.1" ++ 32 :: ([50, 48, 48] ++ 32 :: (r.reason ++ [13] ++ 10 :: tail)) := by
    have hstatus : ascii "HTTP/1.1 200 " = ascii "HTTP/1.1" ++ 32 :: ([50, 48, 48] ++ [32]) := by decide
    rw [Response.bytes, hstatus, htail]
    simp
  set s : StringStream := { str := r.bytes, unread := r.bytes } with hs
  have hversion : ∀ c ∈ ascii "HTTP/1.1", isSpace c = false := fun c hc => by
    have hall : ((ascii "HTTP/1.1").all fun c => !isSpace c) = true := by decide
    simpa using List.all_eq_true.mp hall c hc
  have hword : s.extractWord =
      ({ s with unread := 32 :: ([50, 48, 48] ++ 32 :: (r.reason ++ [13] ++ 10 :: tail)) },
        ascii "HTTP/1.1") :=
    StringStream.extractWord_append rfl (by decide) hversion (by decide) hbytes
  set s₁ : StringStream := { s with unread := 32 :: ([50, 48, 48] ++ 32 :: (r.reason ++ [13] ++ 10 :: tail)) }
  have hcode : s₁.extractUnsigned 10 16 =
      ({ s₁ with unread := 32 :: (r.reason ++ [13] ++ 10 :: tail) }, some 200) := by
    rw [StringStream.extractUnsigned_append (s := s₁) (by decide) rfl
      (List.forall_mem_singleton.mpr (by decide : isSpace 32 = true)) (by decide)
      (List.all_eq_true.mp (by decide : [50, 48, 48].all (isDigit 10) = true))
      (by decide : isSpace 32 = true) rfl]
    rw [if_neg (by decide)]
    rfl
  set s₂ : StringStream := { s₁ with unread := 32 :: (r.reason ++ [13] ++ 10 :: tail) }
  have hnot : 10 ∉ 32 :: (r.reason ++ [13]) := by
    simp [r.lineFeed_not_mem]
  have hline : s₂.getline [] = ({ s₂ with unread := tail }, 32 :: (r.reason ++ [13])) :=
    StringStream.getline_append rfl hnot rfl []
  obtain ⟨h₁, hread, hchunked⟩ := readHeader_fields { storage } r.fields r.body.sent
  obtain ⟨h₂, hread', hchunked'⟩ := readHeader_sent (h := h₁) (hchunked.trans rfl) r.body
  have hlines : readHeader { storage } (StringStream.linesLeft { s₂ with unread := tail }) =
      some (h₂, lines r.body.payload) := by
    have hgood : StringStream.good { s₂ with unread := tail } = true := rfl
    rw [StringStream.linesLeft, if_pos hgood]
    exact hread.trans hread'
  refine ⟨{ h₂.storage with contents := r.body.contents }, ?_, rfl⟩
  rw [processI2PResponse, hword]
  dsimp only
  rw [hcode]
  dsimp only
  rw [if_pos rfl, hline]
  dsimp only
  rw [hlines]
  dsimp only
  rw [hchunked']
  rfl

/-- A download is successful, and what is left to look at are the contents. -/
theorem delivered_iff_isGivenBy (storage : HTTPStorage) (r : Response) :
    Delivered storage r ↔ r.body.IsGivenBy r.body.contents := by
  obtain ⟨storage', hprocess, hcontents⟩ := processI2PResponse_bytes storage r
  constructor
  · rintro ⟨storage'', hprocess', hgiven⟩
    rw [hprocess, Option.some.injEq, Prod.mk.injEq] at hprocess'
    rwa [← hcontents, hprocess'.2]
  · intro hgiven
    exact ⟨storage', hprocess, by rwa [hcontents]⟩

/-! ## Chunks -/

/-- Lines are only taken away. -/
theorem length_getline_lt {s : StringStream} {old : List UInt8} (h : (s.getline old).1.fail = false) :
    (s.getline old).1.unread.length < s.unread.length := by
  cases hgood : s.good with
  | false =>
    rw [StringStream.getline_of_not_good hgood] at h
    cases h
  | true =>
    by_cases hmem : 10 ∈ s.unread
    · obtain ⟨line, rest, hunread, hnot⟩ := List.eq_append_cons_of_mem hmem
      rw [StringStream.getline_append hgood hnot hunread, hunread]
      simp only [List.length_append, List.length_cons]
      omega
    · by_cases hempty : s.unread = []
      · rw [StringStream.getline_of_empty hgood hempty] at h
        cases h
      · rw [StringStream.getline_last hgood hmem hempty rfl]
        exact List.length_pos_of_ne_nil hempty

theorem length_getline_le (s : StringStream) (old : List UInt8) :
    (s.getline old).1.unread.length ≤ s.unread.length := by
  cases hfail : (s.getline old).1.fail with
  | false => exact (length_getline_lt hfail).le
  | true =>
    cases hgood : s.good with
    | false => rw [StringStream.getline_of_not_good hgood]
    | true =>
      rw [StringStream.getline, if_pos hgood] at hfail ⊢
      split_ifs with hempty
      · exact le_rfl
      · rw [if_neg hempty] at hfail
        split at hfail <;> simp [StringStream.fail_of_good hgood] at hfail

theorem length_read_le (s : StringStream) (n : ℕ) : (s.read n).1.unread.length ≤ s.unread.length := by
  unfold StringStream.read
  split_ifs
  · simp
  · exact Nat.zero_le _
  · exact le_rfl

/-- The loop has ended when all lines have been taken. -/
theorem mergeUpTo_succ {n : ℕ} {s : StringStream} (h : s.unread.length < n) :
    mergeUpTo (n + 1) s = mergeUpTo n s := by
  induction n generalizing s with
  | zero => exact absurd h (Nat.not_lt_zero _)
  | succ n ih =>
    rw [mergeUpTo, mergeUpTo]
    dsimp only
    cases hfail : (s.getline []).1.fail with
    | true => rfl
    | false =>
      have hlt := length_getline_lt hfail
      rw [if_neg (by decide), if_neg (by decide)]
      split
      · rfl
      next len hlen =>
        split_ifs
        · rfl
        · have hle := length_read_le (s.getline []).1 len
          have hle' := length_getline_le ((s.getline []).1.read len).1 []
          rw [ih (by omega)]

/-- What is merged is what is read, and zeros. -/
theorem not_mem_mergeUpTo {c : UInt8} (hc : c ≠ 0) (n : ℕ) {s : StringStream} (h : c ∉ s.unread) :
    c ∉ mergeUpTo n s := by
  have hgetline (s : StringStream) (h : c ∉ s.unread) : c ∉ (s.getline []).1.unread := by
    cases hgood : s.good with
    | false =>
      rw [StringStream.getline_of_not_good hgood]
      exact h
    | true =>
      by_cases hmem : 10 ∈ s.unread
      · obtain ⟨line, rest, hunread, hnot⟩ := List.eq_append_cons_of_mem hmem
        rw [StringStream.getline_append hgood hnot hunread]
        rw [hunread] at h
        exact fun hrest => h (List.mem_append_right _ (List.mem_cons_of_mem _ hrest))
      · by_cases hempty : s.unread = []
        · rw [StringStream.getline_of_empty hgood hempty]
          exact h
        · rw [StringStream.getline_last hgood hmem hempty rfl]
          exact List.not_mem_nil
  have hread (s : StringStream) (len : ℕ) (h : c ∉ s.unread) :
      c ∉ (s.read len).1.unread ∧ c ∉ (s.read len).2 := by
    unfold StringStream.read
    split_ifs
    · exact ⟨fun hmem => h (List.mem_of_mem_drop hmem), fun hmem => h (List.mem_of_mem_take hmem)⟩
    · exact ⟨List.not_mem_nil, h⟩
    · exact ⟨h, List.not_mem_nil⟩
  induction n generalizing s with
  | zero => exact List.not_mem_nil
  | succ n ih =>
    rw [mergeUpTo]
    dsimp only
    split_ifs
    · exact List.not_mem_nil
    · split
      · exact List.not_mem_nil
      next len hlen =>
        split_ifs
        · exact List.not_mem_nil
        · have hbuf := hread _ len (hgetline s h)
          simp only [List.mem_append, not_or]
          refine ⟨⟨hbuf.2, fun hmem => hc (List.eq_of_mem_replicate hmem)⟩, ih (hgetline _ hbuf.1)⟩

variable {s : StringStream} {size tail : List UInt8} {n : ℕ} {chunks : List Chunk}

/-- A line with a size. -/
theorem mergeUpTo_size (hgood : s.good = true) (hne : size ≠ []) (hdigits : ∀ b ∈ size, isDigit 16 b = true)
    (hunread : s.unread = size ++ crlf ++ tail) :
    mergeUpTo (n + 1) s =
      if 2 ^ 64 ≤ number 16 size ∨ number 16 size = 0 then []
      else
        let (response, buf) := StringStream.read { s with unread := tail } (number 16 size)
        buf ++ List.replicate (number 16 size - buf.length) 0 ++ mergeUpTo n (response.getline []).1 := by
  have hnot : 10 ∉ size ++ [13] := by
    rw [List.mem_append, not_or]
    refine ⟨fun hmem => ?_, by decide⟩
    exact absurd (hdigits 10 hmem) (by decide)
  have hgetline : s.getline [] = ({ s with unread := tail }, size ++ [13]) :=
    StringStream.getline_append hgood hnot (by rw [hunread]; simp) []
  have hvalue : (StringStream.extractUnsigned 16 64 { unread := size ++ [13] }).2 =
      if 2 ^ 64 ≤ number 16 size then none else some (number 16 size) := by
    rw [StringStream.extractUnsigned_append (s := { unread := size ++ [13] }) (by decide) rfl
      (List.forall_mem_nil _) hne hdigits (by decide : isSpace 13 = true) rfl]
    split_ifs <;> rfl
  rw [mergeUpTo, hgetline]
  dsimp only
  rw [if_neg (by rw [StringStream.fail_of_good hgood]; decide), hvalue]
  by_cases hbig : 2 ^ 64 ≤ number 16 size
  · rw [if_pos hbig, if_pos (.inl hbig)]
  · rw [if_neg hbig]
    simp only [hbig, false_or]

/-- A chunk with its size. -/
theorem mergeUpTo_chunk (hgood : s.good = true) (c : Chunk)
    (hunread : s.unread = c.size ++ crlf ++ (c.data ++ crlf ++ tail)) :
    mergeUpTo (n + 1) s =
      if Fits c.data.length then c.data ++ mergeUpTo n { s with unread := tail } else [] := by
  have hread : StringStream.read { s with unread := c.data ++ crlf ++ tail } c.data.length =
      ({ s with unread := [13] ++ 10 :: tail }, c.data) := by
    have hgood' : StringStream.good { s with unread := c.data ++ crlf ++ tail } = true := hgood
    rw [StringStream.read, if_pos hgood', if_pos (by simp)]
    simp
  have hgetline : StringStream.getline { s with unread := [13] ++ 10 :: tail } [] =
      ({ s with unread := tail }, [13]) :=
    StringStream.getline_append (s := { s with unread := [13] ++ 10 :: tail }) hgood
      (by decide : (10 : UInt8) ∉ [13]) rfl []
  have hpos : c.data.length ≠ 0 := fun hzero => c.data_ne (List.eq_nil_of_length_eq_zero hzero)
  rw [mergeUpTo_size hgood c.size_ne c.size_digits hunread, c.number_size, hread]
  dsimp only
  rw [hgetline]
  by_cases hfits : Fits c.data.length
  · rw [if_pos hfits, if_neg (by rw [not_or]; exact ⟨not_le.mpr hfits, hpos⟩)]
    simp
  · rw [if_neg hfits, if_pos (.inl (not_lt.mp hfits))]

theorem sentChunks_cons (c : Chunk) (chunks : List Chunk) (tail : List UInt8) :
    sentChunks (c :: chunks) ++ tail = c.size ++ crlf ++ (c.data ++ crlf ++ (sentChunks chunks ++ tail)) := by
  simp [sentChunks]

/-- Chunks whose sizes can be read. -/
theorem mergeUpTo_chunks (hgood : s.good = true) (hunread : s.unread = sentChunks chunks ++ tail)
    (hfits : ∀ c ∈ chunks, Fits c.data.length) :
    mergeUpTo (n + chunks.length) s = dataOf chunks ++ mergeUpTo n { s with unread := tail } := by
  induction chunks generalizing s with
  | nil =>
    have hs : s = { s with unread := tail } := by
      cases s
      simp only [sentChunks, List.flatMap_nil, List.nil_append] at hunread
      rw [hunread]
    rw [← hs]
    rfl
  | cons c chunks ih =>
    rw [sentChunks_cons] at hunread
    have hrest := ih (s := { s with unread := sentChunks chunks ++ tail }) hgood rfl
      fun d hd => hfits d (List.mem_cons_of_mem _ hd)
    rw [List.length_cons, ← Nat.add_assoc, mergeUpTo_chunk hgood c hunread,
      if_pos (hfits c List.mem_cons_self), hrest, ← List.append_assoc]
    rfl

/-- A chunk whose size cannot be read ends the loop. -/
theorem length_mergeUpTo_lt (n : ℕ) (hgood : s.good = true) (hunread : s.unread = sentChunks chunks ++ tail)
    (hfits : ¬ ∀ c ∈ chunks, Fits c.data.length) :
    (mergeUpTo (n + chunks.length) s).length < (dataOf chunks).length := by
  induction chunks generalizing s with
  | nil => exact absurd (List.forall_mem_nil _) hfits
  | cons c chunks ih =>
    rw [sentChunks_cons] at hunread
    have hpos := List.length_pos_of_ne_nil c.data_ne
    rw [List.length_cons, ← Nat.add_assoc, mergeUpTo_chunk hgood c hunread, dataOf, List.flatMap_cons,
      List.length_append]
    by_cases hc : Fits c.data.length
    · have hrest := ih (s := { s with unread := sentChunks chunks ++ tail }) hgood rfl fun hall =>
        hfits (List.forall_mem_cons.mpr ⟨hc, hall⟩)
      rw [if_pos hc, List.length_append]
      exact Nat.add_lt_add_left hrest _
    · rw [if_neg hc, List.length_nil]
      omega

/-- The last chunk. -/
theorem mergeUpTo_last (hgood : s.good = true) (hunread : s.unread = ascii "0" ++ crlf ++ tail) :
    mergeUpTo n s = [] := by
  cases n with
  | zero => rfl
  | succ n =>
    have hdigits : ∀ b ∈ ascii "0", isDigit 16 b = true := List.all_eq_true.mp (by decide)
    rw [mergeUpTo_size hgood (by decide) hdigits hunread, if_pos (.inr (by decide))]

theorem mergeUpTo_of_unread_nil (h : s.unread = []) : mergeUpTo n s = [] := by
  cases n with
  | zero => rfl
  | succ n =>
    have hfail : (s.getline []).1.fail = true := by
      cases hgood : s.good with
      | false => rw [StringStream.getline_of_not_good hgood]
      | true => rw [StringStream.getline_of_empty hgood h]
    rw [mergeUpTo]
    dsimp only
    rw [if_pos hfail]

/-- A chunk with more bytes than follow has zeros for those that are missing. -/
theorem mergeUpTo_excess (hgood : s.good = true) (hne : size ≠ [])
    (hdigits : ∀ b ∈ size, isDigit 16 b = true) (hunread : s.unread = size ++ crlf ++ tail)
    (hpos : number 16 size ≠ 0) (hle : tail.length ≤ number 16 size) :
    mergeUpTo (n + 1) s =
      if Fits (number 16 size) then tail ++ List.replicate (number 16 size - tail.length) 0 else [] := by
  have hread : (StringStream.read { s with unread := tail } (number 16 size)).2 = tail ∧
      (StringStream.read { s with unread := tail } (number 16 size)).1.unread = [] := by
    have hgood' : StringStream.good { s with unread := tail } = true := hgood
    rw [StringStream.read, if_pos hgood']
    split_ifs with hall
    · exact ⟨List.take_of_length_le hle, List.drop_of_length_le hle⟩
    · exact ⟨rfl, rfl⟩
  have hnil : ((StringStream.read { s with unread := tail } (number 16 size)).1.getline []).1.unread = [] := by
    have hlen := length_getline_le (StringStream.read { s with unread := tail } (number 16 size)).1 []
    rw [hread.2] at hlen
    exact List.eq_nil_of_length_eq_zero (Nat.le_zero.mp hlen)
  rw [mergeUpTo_size hgood hne hdigits hunread]
  dsimp only
  rw [hread.1, mergeUpTo_of_unread_nil hnil, List.append_nil]
  by_cases hfits : Fits (number 16 size)
  · rw [if_pos hfits, if_neg (by rw [not_or]; exact ⟨not_le.mpr hfits, hpos⟩)]
  · rw [if_neg hfits, if_pos (.inl (not_lt.mp hfits))]

/-! ## What is sent -/

theorem endsInLine_append {a b : List UInt8} (ha : EndsInLine a) (hb : EndsInLine b) : EndsInLine (a ++ b) := by
  rcases hb with rfl | ⟨t, rfl⟩
  · rwa [List.append_nil]
  · exact .inr ⟨a ++ t, (List.append_assoc ..).symm⟩

theorem endsInLine_append_crlf (a : List UInt8) : EndsInLine (a ++ crlf) := .inr ⟨a ++ [13], by simp⟩

theorem endsInLine_sentChunks (chunks : List Chunk) : EndsInLine (sentChunks chunks) := by
  induction chunks with
  | nil => exact .inl rfl
  | cons c chunks ih =>
    have hcons : sentChunks (c :: chunks) = (c.size ++ crlf ++ c.data ++ crlf) ++ sentChunks chunks := by
      simp [sentChunks]
    rw [hcons]
    exact endsInLine_append (endsInLine_append_crlf _) ih

/-- Digits are no colons. -/
theorem colon_not_mem_of_isDigit {digits : List UInt8} (h : ∀ b ∈ digits, isDigit 16 b = true) :
    58 ∉ digits := fun hmem => absurd (h 58 hmem) (by decide)

theorem colon_not_mem_sentChunks (h : 58 ∉ dataOf chunks) : 58 ∉ sentChunks chunks := by
  intro hmem
  obtain ⟨c, hc, hmem⟩ := List.mem_flatMap.mp hmem
  simp only [List.mem_append] at hmem
  rcases hmem with (hmem | hmem) | hmem | hmem
  · exact colon_not_mem_of_isDigit c.size_digits hmem
  · exact absurd hmem (by decide)
  · exact h (List.mem_flatMap.mpr ⟨c, hc, hmem⟩)
  · exact absurd hmem (by decide)

/-- What is sent of chunks has their data, and more. -/
theorem length_dataOf_le (chunks : List Chunk) :
    (dataOf chunks).length + chunks.length ≤ (sentChunks chunks).length := by
  induction chunks with
  | nil => exact le_rfl
  | cons c chunks ih =>
    simp only [dataOf, sentChunks, List.flatMap_cons, List.length_append, List.length_cons] at ih ⊢
    omega

theorem count_dataOf_le (chunks : List Chunk) : (dataOf chunks).count 10 ≤ (sentChunks chunks).count 10 := by
  induction chunks with
  | nil => exact le_rfl
  | cons c chunks ih =>
    simp only [dataOf, sentChunks, List.flatMap_cons, List.count_append] at ih ⊢
    omega

/-- The contents have no colon. -/
theorem colon_not_mem_contents (body : Body) : 58 ∉ body.contents := by
  have hkeep := not_mem_keepLines (c := 58) (by decide) body.payload
  unfold Body.contents
  split_ifs
  · exact not_mem_mergeUpTo (by decide) _ hkeep
  · exact hkeep

/-! ## Which responses are delivered -/

/-- Lines without colons are joined as they were. -/
theorem isGivenBy_plain (body : List UInt8) :
    (Body.plain body).IsGivenBy (Body.plain body).contents ↔ (Body.plain body).Deliverable := by
  change keepLines 58 body = body ↔ 58 ∉ body ∧ EndsInLine body
  constructor
  · intro h
    rw [← h]
    exact ⟨not_mem_keepLines (by decide) body, endsInLine_keepLines 58 body⟩
  · rintro ⟨hcolon, hends⟩
    exact keepLines_eq_self hends hcolon

/-- Chunks are merged if they are recognised. -/
theorem isGivenBy_chunked (blank : Bool) (fields : List Field) (chunks : List Chunk) :
    (Body.chunked blank fields chunks).IsGivenBy (Body.chunked blank fields chunks).contents ↔
      (Body.chunked blank fields chunks).Deliverable := by
  set body := Body.chunked blank fields chunks with hbody
  change body.contents = dataOf chunks ↔
    blank = false ∧ 58 ∉ dataOf chunks ∧ ∀ c ∈ chunks, Fits c.data.length
  by_cases hcolon : 58 ∈ dataOf chunks
  · refine iff_of_false (fun heq => ?_) fun h => h.2.1 hcolon
    rw [← heq] at hcolon
    exact colon_not_mem_contents body hcolon
  have hpayload : keepLines 58 body.payload = sentChunks chunks ++ (ascii "0" ++ crlf ++ crlf) := by
    have hends : EndsInLine (sentChunks chunks ++ ascii "0" ++ crlf ++ crlf) := endsInLine_append_crlf _
    have hnot : 58 ∉ sentChunks chunks ++ ascii "0" ++ crlf ++ crlf := by
      simp only [List.mem_append, not_or]
      exact ⟨⟨⟨colon_not_mem_sentChunks hcolon, by decide⟩, by decide⟩, by decide⟩
    change keepLines 58 (sentChunks chunks ++ ascii "0" ++ crlf ++ crlf) = _
    rw [keepLines_eq_self hends hnot]
    simp
  have hlen := length_dataOf_le chunks
  cases hblank : blank with
  | true =>
    have hcontents : body.contents = keepLines 58 body.payload := by
      rw [Body.contents, hbody, hblank]
      exact if_neg Bool.false_ne_true
    refine iff_of_false (fun heq => ?_) fun h => by cases h.1
    have heq := congrArg List.length heq
    rw [hcontents, hpayload, List.length_append] at heq
    have hlast : (ascii "0" ++ crlf ++ crlf).length = 5 := by decide
    omega
  | false =>
    have hcontents : body.contents = mergeI2PChunkedResponse (keepLines 58 body.payload) := by
      rw [Body.contents, hbody, hblank]
      exact if_pos rfl
    obtain ⟨k, hk⟩ : ∃ k, (keepLines 58 body.payload).length + 1 = k + chunks.length := by
      refine ⟨(keepLines 58 body.payload).length + 1 - chunks.length, ?_⟩
      rw [hpayload, List.length_append]
      omega
    have hgood (unread : List UInt8) : StringStream.good { unread } = true := rfl
    rw [hcontents, mergeI2PChunkedResponse, hk, hpayload]
    by_cases hfits : ∀ c ∈ chunks, Fits c.data.length
    · refine iff_of_true ?_ ⟨rfl, hcolon, hfits⟩
      rw [mergeUpTo_chunks (hgood _) rfl hfits, mergeUpTo_last (hgood _) rfl, List.append_nil]
    · refine iff_of_false (fun heq => ?_) fun h => hfits h.2.2
      have hlt := length_mergeUpTo_lt k (hgood (sentChunks chunks ++ (ascii "0" ++ crlf ++ crlf))) rfl hfits
      rw [heq] at hlt
      exact lt_irrefl _ hlt

/-- Of a chunk with more bytes than follow, either a line feed too many is kept or bytes are made up. -/
theorem isGivenBy_truncated (blank : Bool) (fields : List Field) (chunks : List Chunk) (excess : Excess) :
    (Body.truncated blank fields chunks excess).IsGivenBy (Body.truncated blank fields chunks excess).contents ↔
      (Body.truncated blank fields chunks excess).Deliverable := by
  set body := Body.truncated blank fields chunks excess with hbody
  change (∃ received, received <+: excess.rest ∧ body.contents = dataOf chunks ++ received) ↔
    blank = false ∧ 58 ∉ dataOf chunks ∧ (∀ c ∈ chunks, Fits c.data.length) ∧
      ¬ Fits (number 16 excess.size)
  by_cases hcolon : 58 ∈ dataOf chunks
  · refine iff_of_false ?_ fun h => h.2.1 hcolon
    rintro ⟨received, -, heq⟩
    refine colon_not_mem_contents body ?_
    rw [heq]
    exact List.mem_append_left _ hcolon
  have hpayload : keepLines 58 body.payload =
      sentChunks chunks ++ (excess.size ++ crlf ++ keepLines 58 excess.rest) := by
    change keepLines 58 (sentChunks chunks ++ (excess.size ++ crlf ++ excess.rest)) = _
    have hsize : 58 ∉ excess.size ++ crlf := by
      rw [List.mem_append, not_or]
      exact ⟨colon_not_mem_of_isDigit excess.size_digits, by decide⟩
    rw [keepLines_append (endsInLine_sentChunks chunks), keepLines_append (endsInLine_append_crlf _),
      keepLines_eq_self (endsInLine_sentChunks chunks) (colon_not_mem_sentChunks hcolon),
      keepLines_eq_self (endsInLine_append_crlf _) hsize]
  have hlen := length_dataOf_le chunks
  cases hblank : blank with
  | true =>
    have hcontents : body.contents = keepLines 58 body.payload := by
      rw [Body.contents, hbody, hblank]
      exact if_neg Bool.false_ne_true
    refine iff_of_false ?_ fun h => by cases h.1
    -- The lines behind the sizes are counted: there is one more than in the data.
    rintro ⟨received, hreceived, heq⟩
    have hnot : 58 ∉ received := fun hmem => by
      refine colon_not_mem_contents body ?_
      rw [heq]
      exact List.mem_append_right _ hmem
    have hle := count_le_count_keepLines hreceived hnot
    have hdata := count_dataOf_le chunks
    have hcount := congrArg (List.count 10) heq
    rw [hcontents, hpayload] at hcount
    have hcrlf : crlf.count 10 = 1 := by decide
    simp only [List.count_append, hcrlf] at hcount
    omega
  | false =>
    have hcontents : body.contents = mergeI2PChunkedResponse (keepLines 58 body.payload) := by
      rw [Body.contents, hbody, hblank]
      exact if_pos rfl
    obtain ⟨k, hk⟩ : ∃ k, (keepLines 58 body.payload).length + 1 = k + 1 + chunks.length := by
      refine ⟨(keepLines 58 body.payload).length - chunks.length, ?_⟩
      rw [hpayload, List.length_append]
      omega
    have hgood (unread : List UInt8) : StringStream.good { unread } = true := rfl
    rw [hcontents, mergeI2PChunkedResponse, hk, hpayload]
    by_cases hfits : ∀ c ∈ chunks, Fits c.data.length
    · have hlt := excess.length_lt
      have hrest := length_keepLines_le 58 excess.rest
      rw [mergeUpTo_chunks (hgood _) rfl hfits,
        mergeUpTo_excess (hgood _) excess.size_ne excess.size_digits rfl (by omega) (by omega)]
      by_cases hsize : Fits (number 16 excess.size)
      · refine iff_of_false ?_ fun h => h.2.2.2 hsize
        rintro ⟨received, hreceived, heq⟩
        have heq := congrArg List.length heq
        have hshort := hreceived.length_le
        rw [if_pos hsize] at heq
        simp only [List.length_append, List.length_replicate] at heq
        omega
      · refine iff_of_true ⟨[], List.nil_prefix, ?_⟩ ⟨rfl, hcolon, hfits, hsize⟩
        rw [if_neg hsize]
    · refine iff_of_false ?_ fun h => hfits h.2.2.1
      rintro ⟨received, -, heq⟩
      have hlt := length_mergeUpTo_lt (k + 1) (hgood (sentChunks chunks ++
        (excess.size ++ crlf ++ keepLines 58 excess.rest))) rfl hfits
      rw [heq, List.length_append] at hlt
      omega

/-- The contents are the body for plain bodies whose lines are kept, and for chunks that are recognised and
have no colons; a chunk that is too long gives other bytes unless its size cannot be read. -/
theorem delivered_iff (storage : HTTPStorage) (r : Response) : Delivered storage r ↔ r.body.Deliverable := by
  rw [delivered_iff_isGivenBy]
  cases r.body with
  | plain body => exact isGivenBy_plain body
  | chunked blank fields chunks => exact isGivenBy_chunked blank fields chunks
  | truncated blank fields chunks excess => exact isGivenBy_truncated blank fields chunks excess

end Downloading

end Client
