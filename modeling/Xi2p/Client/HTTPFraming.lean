import Xi2p.Client.HTTPHeaders

/-!
# How the HTTP proxy reads a body

A part of the body arrives with the header, and the rest is read on its own. The part that has arrived
with the header is taken apart with it.

* `ProxyRequest`: a request with a body of the length that its header gives.
* `ProxyRequest.deliver`: the handler reads the request in two parts.
* `deliver_eq_iff`: when the handler forwards the request with its body.
-/

namespace Client

open Text

/-! ## Requests -/

/-- The text is a decimal number. -/
def IsDecimal (s : List UInt8) (n : ℕ) : Prop :=
  s ≠ [] ∧ (∀ b ∈ s, 48 ≤ b ∧ b ≤ 57) ∧ s.foldl (fun v b => v * 10 + (b.toNat - 48)) 0 = n

instance (s : List UInt8) (n : ℕ) : Decidable (IsDecimal s n) :=
  inferInstanceAs (Decidable (_ ∧ (∀ b ∈ s, _) ∧ _))

/-- A request line, the lines of the headers, and a body. A line is not empty and holds no byte that
ends a line; the body has the length that the header gives, and is empty if none is given. -/
structure ProxyRequest where
  method : List UInt8
  url : List UInt8
  version : List UInt8
  lines : List (List UInt8)
  body : List UInt8
  requestLine_wellFormed : ∀ b ∈ method ++ url ++ version, b ≠ 32 ∧ b ≠ 9 ∧ b ≠ 13 ∧ b ≠ 10
  lines_wellFormed : ∀ line ∈ lines, line ≠ [] ∧ 13 ∉ line ∧ 10 ∉ line
  contentLength : ∀ line ∈ lines, Named (ascii "content-length") (headerOf line) →
    IsDecimal (trim (headerOf line).2) body.length
  noBody : (∀ line ∈ lines, ¬ Named (ascii "content-length") (headerOf line)) → body = []

namespace ProxyRequest

variable (request : ProxyRequest)

def requestLine : List UInt8 := request.method ++ 32 :: (request.url ++ 32 :: request.version)

/-- The header up to the empty line. -/
def header : List UInt8 :=
  crlf.intercalate (request.requestLine :: request.lines) ++ (crlf ++ crlf)

/-- What the proxy knows of the request when it has read all of it. -/
def message : HTTPMessage where
  requestLine := request.requestLine
  body := request.body
  url := request.url
  method := request.method
  version := request.version
  headers := request.lines
  headerMap := request.lines.map headerOf

/-- `async_read_until`: the length of the buffer up to the end of the header. -/
def asyncReadUntil (delim buffer : List UInt8) : Option ℕ :=
  (cutAt delim buffer).map fun (front, _) => front.length + delim.length

/-- The header arrives with the first part of the body; the second part is what is there to read on
its own. A read that waits for more than that does not complete. -/
def deliver (early late : List UInt8) : Option HTTPOutcome :=
  (asyncReadUntil (crlf ++ crlf) (request.header ++ early)).bind fun bytesTransferred =>
    match asyncHandleReadHeaders {} (request.header ++ early) bytesTransferred with
    | .asyncRead m atLeast => if atLeast ≤ late.length then some (handleSockRecv m late) else none
    | outcome => some outcome

/-- The first header that is spelled `Content-Length`. -/
def foundContentLength : Option Header :=
  (request.lines.map headerOf).find? (HTTPMessage.isNamed (ascii "Content-Length"))

/-- What arrives with the header has no empty line in it; and either a `Content-Length` is found, with
no blanks behind its number, or all of the body arrives with the header. -/
def BodyFound (early late : List UInt8) : Prop :=
  ¬ crlf ++ crlf <:+: early ∧
    match request.foundContentLength with
    | none => late = []
    | some (_, value) => trimLeft value = trim value ∧ request.body.length < 2 ^ 64

end ProxyRequest

/-! ## Taking the header apart -/

variable {line s : List UInt8} {lines : List (List UInt8)}

/-- A line is cut off at its end. -/
theorem cutAt_crlf (h : 13 ∉ line) : cutAt crlf (line ++ (crlf ++ s)) = some (line, s) := by
  rw [cutAt_append_of_not_mem h, cutAt_append_self (by decide)]
  simp

theorem splitTextUpTo_crlf {n : ℕ} (hn : lines.length ≤ n) (hline : 13 ∉ line)
    (hlines : ∀ l ∈ lines, 13 ∉ l) :
    splitTextUpTo crlf n (crlf.intercalate (line :: lines)) = line :: lines := by
  induction lines generalizing line n with
  | nil =>
    have hnone : cutAt crlf line = none :=
      (cutAt_eq_none (by decide)).mpr fun h => hline (h.subset (by decide))
    rcases n with _ | n
    · simp [splitTextUpTo]
    · simp [splitTextUpTo, hnone]
  | cons next lines ih =>
    obtain ⟨n, rfl⟩ : ∃ k, n = k + 1 := ⟨n - 1, by simp at hn; omega⟩
    rw [List.intercalate_cons_cons, List.append_assoc, splitTextUpTo, cutAt_crlf hline]
    have hrest := ih (Nat.le_of_succ_le_succ hn) (hlines next List.mem_cons_self)
      fun l hl => hlines l (List.mem_cons_of_mem _ hl)
    exact congrArg (line :: ·) hrest

theorem length_le_intercalate (line : List UInt8) (lines : List (List UInt8)) :
    lines.length ≤ (crlf.intercalate (line :: lines)).length := by
  induction lines generalizing line with
  | nil => exact Nat.zero_le _
  | cons next lines ih =>
    rw [List.intercalate_cons_cons, List.length_append, List.length_append, List.length_cons]
    have := ih next
    simp only [List.length_cons, List.length_nil]
    omega

/-- Lines are found again. -/
theorem splitText_crlf (hline : 13 ∉ line) (hlines : ∀ l ∈ lines, 13 ∉ l) :
    splitText crlf (crlf.intercalate (line :: lines)) = line :: lines :=
  splitTextUpTo_crlf (length_le_intercalate line lines) hline hlines

/-- The first empty line is the one behind the lines. -/
theorem cutAt_emptyLine (hline : 13 ∉ line) (hlines : ∀ l ∈ lines, l ≠ [] ∧ 13 ∉ l) :
    cutAt (crlf ++ crlf) (crlf.intercalate (line :: lines) ++ (crlf ++ crlf) ++ s) =
      some (crlf.intercalate (line :: lines), s) := by
  induction lines generalizing line with
  | nil =>
    rw [List.intercalate_singleton, List.append_assoc, show crlf ++ crlf = 13 :: [10, 13, 10] from rfl, cutAt_append_of_not_mem hline,
      cutAt_append_self (by decide)]
    simp
  | cons next lines ih =>
    obtain ⟨hne, h13⟩ := hlines next List.mem_cons_self
    have hnext := ih h13 fun l hl => hlines l (List.mem_cons_of_mem _ hl)
    obtain ⟨b, rest, rfl⟩ := List.exists_cons_of_ne_nil hne
    have hb : b ≠ 13 := fun h => h13 (h ▸ List.mem_cons_self)
    -- the end of a line is not followed by another one
    have hskip (t : List UInt8) : cutAt (crlf ++ crlf) (13 :: 10 :: b :: t) =
        (cutAt (crlf ++ crlf) (b :: t)).map fun (front, back) => (crlf ++ front, back) := by
      have hfirst : ¬ crlf ++ crlf <+: 13 :: 10 :: b :: t := fun h => by
        simp [List.cons_prefix_cons, Ne.symm hb] at h
      have hsecond : ¬ crlf ++ crlf <+: 10 :: b :: t := fun h => by
        simp [List.cons_prefix_cons] at h
      rw [cutAt, if_neg hfirst, cutAt, if_neg hsecond, Option.map_map]
      rfl
    have hsplit : crlf.intercalate (line :: (b :: rest) :: lines) ++ (crlf ++ crlf) ++ s =
        line ++ (13 :: 10 :: (crlf.intercalate ((b :: rest) :: lines) ++ (crlf ++ crlf) ++ s)) := by
      simp [List.intercalate_cons_cons]
    obtain ⟨t, ht⟩ : ∃ t, crlf.intercalate ((b :: rest) :: lines) ++ (crlf ++ crlf) ++ s = b :: t := by
      rcases lines with _ | ⟨l, ls⟩
      · exact ⟨_, by simp; rfl⟩
      · exact ⟨_, by simp [List.intercalate_cons_cons]; rfl⟩
    rw [hsplit, show crlf ++ crlf = 13 :: [10, 13, 10] from rfl, cutAt_append_of_not_mem hline]
    rw [show 13 :: [10, 13, 10] = crlf ++ crlf from rfl, ht, hskip, ← ht, hnext]
    simp [List.intercalate_cons_cons]

/-! ## Numbers -/

theorem not_isSpace_of_digit {b : UInt8} (h : 48 ≤ b ∧ b ≤ 57) : isSpace b = false := by
  obtain ⟨hlow, hhigh⟩ := h
  rw [UInt8.le_iff_toNat_le] at hlow hhigh
  have hne : b ≠ 32 := by
    rintro rfl
    exact absurd hlow (by decide)
  have hbig : ¬ b ≤ 13 := by
    rw [UInt8.le_iff_toNat_le]
    have : (48 : UInt8).toNat = 48 := rfl
    have : (13 : UInt8).toNat = 13 := rfl
    omega
  simp [isSpace, hne, hbig]

/-- A text that starts with a digit has no sign. -/
theorem lexicalCast_of_digit {bits : ℕ} {b : UInt8} (h : 48 ≤ b ∧ b ≤ 57) (s : List UInt8) :
    lexicalCast bits (b :: s) = digits bits (b :: s) := by
  have h45 : b ≠ 45 := by
    rintro rfl
    exact absurd h (by decide)
  have h43 : b ≠ 43 := by
    rintro rfl
    exact absurd h (by decide)
  rw [lexicalCast]
  · exact fun _ heq => h45 (List.cons.inj heq).1
  · exact fun _ heq => h43 (List.cons.inj heq).1

/-- The value of a `Content-Length` is a number for the code if no blanks are behind it. -/
theorem lexicalCast_trimLeft {value : List UInt8} {n : ℕ} (h : IsDecimal (trim value) n) :
    lexicalCast 64 (trimLeft value) =
      if trimLeft value = trim value ∧ n < 2 ^ 64 then some n else none := by
  obtain ⟨hne, hdigits, hvalue⟩ := h
  have hstart : trim value <+: trimLeft value := List.rdropWhile_prefix ..
  obtain ⟨b, rest, htrim⟩ := List.exists_cons_of_ne_nil hne
  obtain ⟨blanks, hblanks⟩ := hstart
  have hsplit : trimLeft value = b :: (rest ++ blanks) := by
    rw [← hblanks, htrim, List.cons_append]
  have hb : 48 ≤ b ∧ b ≤ 57 := hdigits b (htrim ▸ List.mem_cons_self)
  rw [hsplit, lexicalCast_of_digit hb, ← hsplit, digits]
  by_cases heq : trimLeft value = trim value
  · rw [heq, if_pos ⟨hne, hdigits⟩, hvalue]
    simp
  · have hnot : ¬ (trimLeft value ≠ [] ∧ AllDigits (trimLeft value)) := by
      rintro ⟨hne', hall⟩
      -- a last digit would not be trimmed
      refine heq (List.rdropWhile_eq_self_iff.mpr fun hl => ?_).symm
      rw [not_isSpace_of_digit (hall _ (List.getLast_mem hl))]
      exact Bool.false_ne_true
    rw [if_neg hnot, if_neg fun hand => heq hand.1]

/-! ## Reading a request -/

namespace ProxyRequest

variable {request : ProxyRequest} {early late : List UInt8}

theorem not_mem_requestLine : 13 ∉ request.requestLine := by
  intro h
  have hwf := request.requestLine_wellFormed 13
  simp [requestLine] at h hwf
  tauto

theorem splitOnP_requestLine :
    request.requestLine.splitOnP (fun b => b = 32 || b = 9) =
      [request.method, request.url, request.version] := by
  have hblank {part : List UInt8} (hpart : ∀ b ∈ part, b ∈ request.method ++ request.url ++ request.version) :
      ∀ b ∈ part, (b = 32 || b = 9 : Bool) = false := by
    intro b hb
    obtain ⟨h32, h9, -⟩ := request.requestLine_wellFormed b (hpart b hb)
    simp [h32, h9]
  rw [requestLine, List.splitOnP_append_cons_of_forall_mem (hblank (by simp +contextual)) 32 (by rfl),
    List.splitOnP_append_cons_of_forall_mem (hblank (by simp +contextual)) 32 (by rfl),
    List.splitOnP_eq_singleton (hblank (by simp +contextual))]

/-- The empty line behind the header is the first one. -/
theorem cutAt_header (s : List UInt8) :
    cutAt (crlf ++ crlf) (request.header ++ s) =
      some (crlf.intercalate (request.requestLine :: request.lines), s) :=
  cutAt_emptyLine not_mem_requestLine fun line hline =>
    ⟨(request.lines_wellFormed line hline).1, (request.lines_wellFormed line hline).2.1⟩

/-- The message after the header has been taken apart. -/
def headerMessage (request : ProxyRequest) : HTTPMessage := { request.message with body := [] }

/-- The header is taken apart, and what arrives with it is split like the header is. -/
theorem splitText_header (request : ProxyRequest) (early : List UInt8) :
    ∃ n, early.length ≤ n ∧ splitText (crlf ++ crlf) (request.header ++ early) =
      crlf.intercalate (request.requestLine :: request.lines) ::
        splitTextUpTo (crlf ++ crlf) n early := by
  have hlen : (request.header ++ early).length =
      (crlf.intercalate (request.requestLine :: request.lines)).length + 3 + early.length + 1 := by
    simp [header]
    omega
  refine ⟨(crlf.intercalate (request.requestLine :: request.lines)).length + 3 + early.length,
    by omega, ?_⟩
  rw [splitText, hlen]
  exact splitTextUpTo_of_cutAt (cutAt_header early)

theorem handleData_of_emptyLine (h : crlf ++ crlf <:+: early) :
    HTTPMessage.handleData {} (request.header ++ early) = ({ errorResponse := .badRequest }, false) := by
  obtain ⟨n, hn, hsplit⟩ := request.splitText_header early
  have hpos := h.length_le
  have hparts := two_le_length_splitTextUpTo (n := n) (by decide) h (by simp at hpos; omega)
  rw [HTTPMessage.handleData, hsplit]
  refine if_pos ?_
  simp only [List.length_cons, headerBodyLen]
  omega

theorem handleData_of_noEmptyLine (h : ¬ crlf ++ crlf <:+: early) :
    HTTPMessage.handleData {} (request.header ++ early) = (request.headerMessage, true) := by
  obtain ⟨n, hn, hsplit⟩ := request.splitText_header early
  rw [splitTextUpTo_of_absent (by decide) h] at hsplit
  have htokens : splitText crlf (crlf.intercalate (request.requestLine :: request.lines)) =
      request.requestLine :: request.lines :=
    splitText_crlf not_mem_requestLine fun l hl => (request.lines_wellFormed l hl).2.1
  simp only [HTTPMessage.handleData, hsplit, htokens, List.headD_cons, List.tail_cons,
    splitOnP_requestLine]
  rw [if_neg (by simp), if_neg (by simp)]
  rfl

theorem asyncReadUntil_header (request : ProxyRequest) (early : List UInt8) :
    asyncReadUntil (crlf ++ crlf) (request.header ++ early) = some request.header.length := by
  rw [asyncReadUntil, cutAt_header]
  simp [header]

/-- The message with the part of the body that has arrived. -/
def messageWith (request : ProxyRequest) (early : List UInt8) : HTTPMessage :=
  { request.message with body := early }

/-- What the handler does when the header is accepted. -/
theorem asyncHandleReadHeaders_of_accepted (h : ¬ crlf ++ crlf <:+: early) :
    asyncHandleReadHeaders {} (request.header ++ early) request.header.length =
      match request.foundContentLength with
      | none => .createStream (request.messageWith early)
      | some (_, value) =>
        match lexicalCast 64 (trimLeft value) with
        | none => .exception
        | some clen =>
          if clen < early.length then .terminate
          else if clen - early.length ≠ 0 then
            .asyncRead (request.messageWith early) (clen - early.length)
          else .createStream (request.messageWith early) := by
  have hlength : (request.header ++ early).length = request.header.length + early.length :=
    List.length_append
  have hextra : (request.header ++ early).length - request.header.length = early.length := by omega
  have hbody : (if early.length ≠ 0 then
        { request.headerMessage with
          body := (request.header ++ early).drop ((request.header ++ early).length - early.length) }
      else request.headerMessage) = request.messageWith early := by
    split
    · rw [hlength, Nat.add_sub_cancel, List.drop_left]
      rfl
    next hempty =>
      rw [List.length_eq_zero_iff.mp (not_not.mp hempty)]
      rfl
  rw [asyncHandleReadHeaders, handleData_of_noEmptyLine h]
  simp only
  rw [if_neg (by omega), hextra, hbody]
  rfl

/-- A `Content-Length` that is found tells the length of the body. -/
theorem isDecimal_of_found {key value : List UInt8} (h : request.foundContentLength = some (key, value)) :
    IsDecimal (trim value) request.body.length := by
  obtain ⟨line, hline, hheader⟩ := List.mem_map.mp (List.mem_of_find?_eq_some h)
  have hnamed : Named (ascii "content-length") (key, value) :=
    HTTPMessage.named_of_isNamed (by decide) (List.find?_some h)
  have hvalue := request.contentLength line hline (hheader ▸ hnamed)
  rwa [hheader] at hvalue

/-- The handler forwards a request with its body, if and only if no empty line arrives behind the header,
and a `Content-Length` is found or nothing of the body is missing. -/
theorem deliver_eq_iff (request : ProxyRequest) (early late : List UInt8)
    (hbody : early ++ late = request.body) :
    request.deliver early late = some (.createStream request.message) ↔
      request.BodyFound early late := by
  have hall : early = request.body ↔ late = [] := by
    rw [← hbody]
    exact List.self_eq_append_right
  have hmessage : request.messageWith early = request.message ↔ late = [] := by
    rw [← hall]
    refine ⟨fun h => congrArg HTTPMessage.body h, fun h => ?_⟩
    rw [messageWith, h]
    rfl
  rw [deliver, asyncReadUntil_header, Option.bind_some, BodyFound]
  by_cases hempty : crlf ++ crlf <:+: early
  · refine iff_of_false (fun h => ?_) fun h => h.1 hempty
    rw [asyncHandleReadHeaders, handleData_of_emptyLine hempty] at h
    cases h
  rw [asyncHandleReadHeaders_of_accepted hempty]
  rcases hfound : request.foundContentLength with _ | ⟨key, value⟩
  · simp only [Option.some.injEq, HTTPOutcome.createStream.injEq, hmessage]
    exact (and_iff_right hempty).symm
  · have hcast := lexicalCast_trimLeft (isDecimal_of_found hfound)
    by_cases hvalue : trimLeft value = trim value ∧ request.body.length < 2 ^ 64
    · rw [if_pos hvalue] at hcast
      refine iff_of_true ?_ ⟨hempty, hvalue⟩
      have hlen := congrArg List.length hbody
      rw [List.length_append] at hlen
      simp only [hcast]
      rw [if_neg (by omega)]
      by_cases hlate : late = []
      · have hclen : request.body.length - early.length = 0 := by
          rw [← hlen, hlate]
          simp
        rw [if_neg (not_not.mpr hclen)]
        exact congrArg (some ∘ HTTPOutcome.createStream) (hmessage.mpr hlate)
      · have hpos := List.length_pos_iff.mpr hlate
        rw [if_pos (by omega)]
        refine (if_pos (by omega)).trans ?_
        show some (HTTPOutcome.createStream { request.message with body := early ++ late }) = _
        rw [hbody]
        rfl
    · rw [if_neg hvalue] at hcast
      refine iff_of_false (fun h => ?_) fun h => hvalue h.2
      simp only [hcast] at h
      cases h

/-- A form whose first field is empty lines. -/
def exampleForm : ProxyRequest where
  method := ascii "POST"
  url := ascii "http://a.i2p/"
  version := ascii "HTTP/1.1"
  lines := [ascii "Host: a.i2p", ascii "Content-Length: 6"]
  body := ascii "a\r\n\r\nb"
  requestLine_wellFormed := by decide +kernel
  lines_wellFormed := by decide +kernel
  contentLength := by decide +kernel
  noBody := fun h => absurd (h (ascii "Content-Length: 6") (by decide)) (by decide +kernel)

theorem deliver_eq_iff_cut :
    exampleForm.deliver (ascii "a\r") (ascii "\n\r\nb") = some (.createStream exampleForm.message) ↔
      exampleForm.BodyFound (ascii "a\r") (ascii "\n\r\nb") :=
  deliver_eq_iff exampleForm _ _ (by decide)

/-- The form is forwarded when it arrives behind the header, and refused when it arrives with it. -/
theorem delivery_decides :
    exampleForm.deliver [] exampleForm.body = some (.createStream exampleForm.message) ∧
      exampleForm.deliver exampleForm.body [] = some (.httpRequestFailed .badRequest) := by
  decide +kernel

end ProxyRequest

end Client
