import Xi2p.Client.HTTPMessage

/-!
# Headers that identify the browser

The proxy gives the first `User-Agent` another value and removes the first `Referer`. It finds both
by their exact names, and each of them once.

* `HTTPMessage.sanitizedRequest`: the request without any `Referer`, and with the value of the proxy in
  every `User-Agent`.
* `request_sanitized_iff`: when the request that goes out is this one.
-/

namespace Client

open Text

/-! ## What should go out -/

/-- The header has this name, in any case. -/
def Named (name : List UInt8) (header : Header) : Prop := (trim header.1).map toLower = name

instance (name : List UInt8) (header : Header) : Decidable (Named name header) :=
  inferInstanceAs (Decidable (_ = _))

/-- The line of a header that is not removed. -/
def keptLine (line : List UInt8) : List UInt8 :=
  if Named (ascii "user-agent") (headerOf line) then
    HTTPMessage.headerLine ((headerOf line).1, HTTPMessage.userAgent)
  else line

def sanitizedLine (line : List UInt8) : Option (List UInt8) :=
  if Named (ascii "referer") (headerOf line) then none else some (keptLine line)

/-- The request for a path. -/
def HTTPMessage.sanitizedRequest (m : HTTPMessage) (path : List UInt8) : List UInt8 :=
  m.method ++ [32] ++ path ++ [32] ++ m.version ++ crlf ++
    (m.headers.filterMap sanitizedLine).flatMap (· ++ crlf) ++ crlf ++ m.body

/-- The lines without the first `Referer` that is spelled so. -/
def withoutReferer (lines : List (List UInt8)) : List (List UInt8) :=
  lines.eraseP fun line => HTTPMessage.isNamed (ascii "Referer") (headerOf line)

/-- At most one header is a `Referer`, and it is spelled so; every `User-Agent` but the first one that is
spelled so has the value of the proxy already; and what is neither has a colon. -/
structure HeadersCovered (lines : List (List UInt8)) : Prop where
  referer : ∀ line ∈ withoutReferer lines, ¬ Named (ascii "referer") (headerOf line)
  userAgent :
    ∀ line ∈ (withoutReferer lines).eraseP fun line =>
        HTTPMessage.isNamed (ascii "User-Agent") (headerOf line),
      Named (ascii "user-agent") (headerOf line) → (headerOf line).2 = HTTPMessage.userAgent
  colon : ∀ line ∈ withoutReferer lines, Named (ascii "user-agent") (headerOf line) ∨ 58 ∈ line

/-! ## Lines -/

variable {line : List UInt8} {lines : List (List UInt8)}

theorem headerOf_of_not_mem (h : 58 ∉ line) : headerOf line = (line, []) := by
  rw [headerOf, List.splitOn_eq_singleton h]
  rfl

theorem headerOf_append {key value : List UInt8} (h : 58 ∉ key) :
    headerOf (key ++ 58 :: value) = (key, value) := by
  rw [headerOf, List.splitOn_append_cons_self_of_not_mem h]
  exact congrArg (key, ·) (List.intercalate_splitOn 58)

/-- A line is its header again, if it has a colon. -/
theorem headerLine_headerOf_eq_iff :
    HTTPMessage.headerLine (headerOf line) = line ↔ 58 ∈ line := by
  by_cases hcolon : 58 ∈ line
  · obtain ⟨key, value, rfl, hkey⟩ := List.eq_append_cons_of_mem hcolon
    rw [headerOf_append hkey]
    refine iff_of_true ?_ hcolon
    simp [HTTPMessage.headerLine]
  · rw [headerOf_of_not_mem hcolon]
    refine iff_of_false (fun h => ?_) hcolon
    have hlen := congrArg List.length h
    simp [HTTPMessage.headerLine] at hlen

/-- A header with another value has no line end, if the line and the value have none. -/
theorem not_crlf_headerLine {value : List UInt8} (hline : ¬ crlf <:+: line) (hvalue : ¬ crlf <:+: value) :
    ¬ crlf <:+: HTTPMessage.headerLine ((headerOf line).1, value) := by
  have hkey : ¬ crlf <:+: (headerOf line).1 := by
    by_cases hcolon : 58 ∈ line
    · obtain ⟨key, rest, rfl, hkey⟩ := List.eq_append_cons_of_mem hcolon
      rw [headerOf_append hkey]
      exact fun h => hline (h.trans (List.prefix_append _ _).isInfix)
    · rw [headerOf_of_not_mem hcolon]
      exact hline
  intro h
  rw [HTTPMessage.headerLine, List.append_assoc] at h
  rcases infix_append_cons_cases h (by decide) with hleft | hright
  · exact hkey hleft
  · exact hvalue hright

theorem not_crlf_headerOf (hline : ¬ crlf <:+: line) : ¬ crlf <:+: (headerOf line).2 := by
  by_cases hcolon : 58 ∈ line
  · obtain ⟨key, rest, rfl, hkey⟩ := List.eq_append_cons_of_mem hcolon
    rw [headerOf_append hkey]
    exact fun h => hline (h.trans ((List.suffix_cons 58 rest).trans (List.suffix_append _ _)).isInfix)
  · rw [headerOf_of_not_mem hcolon]
    show ¬ crlf <:+: []
    decide

/-! ## The headers that go out -/

namespace HTTPMessage

section

variable {α : Type*} {p q : α → Bool} {f : α → α}

/-- A change that leaves what the search for `q` sees as it is. -/
theorem eraseP_updateFirst (hf : ∀ a, q (f a) = q a) (hpq : ∀ a, p a = true → q a = false)
    (l : List α) : (updateFirst p f l).eraseP q = updateFirst p f (l.eraseP q) := by
  induction l with
  | nil => rfl
  | cons a l ih =>
    by_cases hp : p a = true
    · have hq := hpq a hp
      rw [updateFirst, if_pos hp, List.eraseP_cons_of_neg (by simp [hf, hq]),
        List.eraseP_cons_of_neg (by simp [hq]), updateFirst, if_pos hp]
    · rw [updateFirst, if_neg hp]
      by_cases hq : q a = true
      · rw [List.eraseP_cons_of_pos hq, List.eraseP_cons_of_pos hq]
      · rw [List.eraseP_cons_of_neg hq, List.eraseP_cons_of_neg hq, ih, updateFirst, if_neg hp]

theorem mem_updateFirst {l : List α} {b : α} (h : b ∈ updateFirst p f l) :
    b ∈ l ∨ ∃ a ∈ l, b = f a := by
  induction l with
  | nil => exact .inl h
  | cons a l ih =>
    rw [updateFirst] at h
    split at h
    · rcases List.mem_cons.mp h with rfl | hmem
      · exact .inr ⟨a, List.mem_cons_self, rfl⟩
      · exact .inl (List.mem_cons_of_mem _ hmem)
    · rcases List.mem_cons.mp h with rfl | hmem
      · exact .inl List.mem_cons_self
      · rcases ih hmem with hl | ⟨c, hc, rfl⟩
        · exact .inl (List.mem_cons_of_mem _ hl)
        · exact .inr ⟨c, List.mem_cons_of_mem _ hc, rfl⟩

theorem length_updateFirst (l : List α) : (updateFirst p f l).length = l.length := by
  induction l with
  | nil => rfl
  | cons a l ih =>
    rw [updateFirst]
    split
    · rfl
    · rw [List.length_cons, List.length_cons, ih]

end

/-- A header spelled exactly has the name. -/
theorem named_of_isNamed {name lower : List UInt8} {header : Header}
    (hlower : name.map toLower = lower) (h : isNamed name header = true) : Named lower header := by
  rw [Named, of_decide_eq_true h, hlower]

theorem named_unique {a b : List UInt8} {header : Header} (ha : Named a header) (hb : Named b header) :
    a = b :=
  ha.symm.trans hb

/-- The first `Referer` is removed from the lines, and the first `User-Agent` of the other ones is
changed. -/
theorem adjustedHeaders_map (lines : List (List UInt8)) :
    adjustedHeaders (lines.map headerOf) =
      updateFirst (isNamed (ascii "User-Agent")) (fun h => (h.1, userAgent))
        ((withoutReferer lines).map headerOf) := by
  have hother : ∀ h, isNamed (ascii "User-Agent") h = true → isNamed (ascii "Referer") h = false := by
    intro h hagent
    rw [isNamed, decide_eq_false_iff_not, of_decide_eq_true hagent]
    decide
  rw [withoutReferer, adjustedHeaders]
  refine (eraseP_updateFirst (f := fun h => (h.1, userAgent)) (fun _ => rfl) hother _).trans ?_
  rw [List.eraseP_map]
  rfl

end HTTPMessage

/-- The header that is removed is a `Referer`. -/
theorem filterMap_withoutReferer (lines : List (List UInt8)) :
    (withoutReferer lines).filterMap sanitizedLine = lines.filterMap sanitizedLine := by
  induction lines with
  | nil => rfl
  | cons line lines ih =>
    by_cases hreferer : HTTPMessage.isNamed (ascii "Referer") (headerOf line) = true
    · have hnone : sanitizedLine line = none :=
        if_pos (HTTPMessage.named_of_isNamed (by decide) hreferer)
      rw [withoutReferer, List.eraseP_cons_of_pos (by exact hreferer), List.filterMap_cons_none hnone]
    · rw [withoutReferer, List.eraseP_cons_of_neg (by exact hreferer), List.filterMap_cons,
        List.filterMap_cons, ← ih]
      rfl

/-- A line goes out as it should. -/
theorem headerLine_eq_keptLine_iff (line : List UInt8) :
    HTTPMessage.headerLine (headerOf line) = keptLine line ↔
      (Named (ascii "user-agent") (headerOf line) → (headerOf line).2 = HTTPMessage.userAgent) ∧
      (Named (ascii "user-agent") (headerOf line) ∨ 58 ∈ line) := by
  rw [keptLine]
  by_cases hagent : Named (ascii "user-agent") (headerOf line)
  · rw [if_pos hagent]
    simp [HTTPMessage.headerLine, hagent]
  · rw [if_neg hagent, headerLine_headerOf_eq_iff]
    simp [hagent]

/-- When the headers that are left go out as they should. -/
theorem updateFirst_eq_map_keptLine_iff (lines : List (List UInt8)) :
    (HTTPMessage.updateFirst (HTTPMessage.isNamed (ascii "User-Agent"))
        (fun h => (h.1, HTTPMessage.userAgent)) (lines.map headerOf)).map HTTPMessage.headerLine =
        lines.map keptLine ↔
      (∀ line ∈ lines.eraseP fun line => HTTPMessage.isNamed (ascii "User-Agent") (headerOf line),
        Named (ascii "user-agent") (headerOf line) → (headerOf line).2 = HTTPMessage.userAgent) ∧
      ∀ line ∈ lines, Named (ascii "user-agent") (headerOf line) ∨ 58 ∈ line := by
  induction lines with
  | nil => simp [HTTPMessage.updateFirst]
  | cons line lines ih =>
    by_cases hagent : HTTPMessage.isNamed (ascii "User-Agent") (headerOf line) = true
    · -- the line is changed, and the others stay
      have hnamed : Named (ascii "user-agent") (headerOf line) :=
        HTTPMessage.named_of_isNamed (by decide) hagent
      have hkept : keptLine line =
          HTTPMessage.headerLine ((headerOf line).1, HTTPMessage.userAgent) := if_pos hnamed
      rw [List.map_cons, HTTPMessage.updateFirst, if_pos hagent, List.map_cons, List.map_cons, hkept,
        List.eraseP_cons_of_pos (by exact hagent), List.map_map]
      simp only [List.cons.injEq, true_and, List.map_inj_left, Function.comp_apply,
        headerLine_eq_keptLine_iff, List.forall_mem_cons, hnamed, true_or]
      exact forall₂_and
    · rw [List.map_cons, HTTPMessage.updateFirst, if_neg hagent, List.map_cons, List.map_cons,
        List.cons.injEq, ih, List.eraseP_cons_of_neg (by exact hagent), headerLine_eq_keptLine_iff]
      simp only [List.forall_mem_cons]
      tauto

/-! ## Requests -/

namespace HTTPMessage

variable {outside : HTTPOutside} {saveAddress : Bool} {m₀ m m' : HTTPMessage} {data : List UInt8}

/-- What is known of the headers of a request that was accepted. -/
theorem headers_of_handleData (h : m₀.handleData data = (m, true)) :
    m.headerMap = m.headers.map headerOf ∧ ∀ line ∈ m.headers, ¬ crlf <:+: line := by
  simp only [handleData] at h
  split at h
  · cases h
  split at h
  · cases h
  split at h
  next method url version hsplit =>
    obtain ⟨rfl, -⟩ := Prod.mk.inj h
    exact ⟨rfl, fun line hline => not_infix_of_mem_splitText (by decide) (List.mem_of_mem_tail hline)⟩
  · cases h

/-- What the steps before the request is built leave as it was. -/
structure SameContent (m m' : HTTPMessage) : Prop where
  method : m'.method = m.method
  version : m'.version = m.version
  headers : m'.headers = m.headers
  headerMap : m'.headerMap = m.headerMap
  body : m'.body = m.body

theorem sameContent_extractIncomingRequest {extracted : Bool}
    (h : m.extractIncomingRequest outside = some (m', extracted)) : SameContent m m' := by
  simp only [extractIncomingRequest] at h
  split at h
  · cases h
  · split at h
    · obtain ⟨rfl, -⟩ := Prod.mk.inj (Option.some.inj h)
      exact ⟨rfl, rfl, rfl, rfl, rfl⟩
    · obtain ⟨rfl, -⟩ := Prod.mk.inj (Option.some.inj h)
      exact ⟨rfl, rfl, rfl, rfl, rfl⟩

theorem sameContent_handleJumpService (outside : HTTPOutside) (m : HTTPMessage) :
    SameContent m (m.handleJumpService outside).1 := by
  simp only [handleJumpService, extractBase64Destination]
  split
  · exact ⟨rfl, rfl, rfl, rfl, rfl⟩
  · split
    · exact ⟨rfl, rfl, rfl, rfl, rfl⟩
    · exact ⟨rfl, rfl, rfl, rfl, rfl⟩

/-- Where a request comes from. -/
theorem createHTTPRequest_of_true (h : m.createHTTPRequest outside saveAddress = some (m', true)) :
    ∃ m₁, SameContent m m₁ ∧ m' = m₁.buildRequest := by
  rw [createHTTPRequest] at h
  split at h
  · cases h
  · cases h
  next m₁ hextract =>
    have hsame := sameContent_extractIncomingRequest hextract
    split at h
    · exact ⟨m₁, hsame, (Prod.mk.inj (Option.some.inj h)).1.symm⟩
    · have hjump := sameContent_handleJumpService outside m₁
      generalize m₁.handleJumpService outside = r at h hjump
      obtain ⟨m₂, handled⟩ := r
      simp only at h
      split at h
      · cases h
      split at h
      · cases h
      · refine ⟨m₂, ⟨?_, ?_, ?_, ?_, ?_⟩, (Prod.mk.inj (Option.some.inj h)).1.symm⟩
        · exact hjump.method.trans hsame.method
        · exact hjump.version.trans hsame.version
        · exact hjump.headers.trans hsame.headers
        · exact hjump.headerMap.trans hsame.headerMap
        · exact hjump.body.trans hsame.body

/-- The lines that go out are the right ones. -/
theorem adjustedHeaders_iff (lines : List (List UInt8)) :
    (adjustedHeaders (lines.map headerOf)).map headerLine = lines.filterMap sanitizedLine ↔
      HeadersCovered lines := by
  by_cases hreferer : ∀ line ∈ withoutReferer lines, ¬ Named (ascii "referer") (headerOf line)
  · have hkept : lines.filterMap sanitizedLine = (withoutReferer lines).map keptLine := by
      rw [← filterMap_withoutReferer, ← List.filterMap_eq_map']
      exact List.filterMap_congr fun line hline => if_neg (hreferer line hline)
    rw [adjustedHeaders_map, hkept, updateFirst_eq_map_keptLine_iff]
    exact ⟨fun ⟨hagent, hcolon⟩ => ⟨hreferer, hagent, hcolon⟩, fun h => ⟨h.userAgent, h.colon⟩⟩
  · -- a line goes out for each header that is left, and a `Referer` is among them
    refine iff_of_false (fun heq => hreferer ?_) fun h => hreferer h.referer
    have hlength := congrArg List.length heq
    rw [adjustedHeaders_map, List.length_map, length_updateFirst, List.length_map,
      ← filterMap_withoutReferer] at hlength
    intro line hline hnamed
    have hsome := List.filterMap_length_eq_length.mp hlength.symm line hline
    rw [sanitizedLine, if_pos hnamed] at hsome
    cases hsome

/-- No line that goes out holds the end of a line. -/
theorem not_crlf_of_mem_adjusted {lines : List (List UInt8)} (h : ∀ line ∈ lines, ¬ crlf <:+: line)
    {out : List UInt8} (hout : out ∈ (adjustedHeaders (lines.map headerOf)).map headerLine) :
    ¬ crlf <:+: out := by
  rw [adjustedHeaders_map] at hout
  obtain ⟨header, hheader, rfl⟩ := List.mem_map.mp hout
  rcases mem_updateFirst hheader with hmem | ⟨old, hmem, rfl⟩
  · obtain ⟨line, hline, rfl⟩ := List.mem_map.mp hmem
    have hcrlf := h line (List.mem_of_mem_eraseP hline)
    exact not_crlf_headerLine hcrlf (not_crlf_headerOf hcrlf)
  · obtain ⟨line, hline, rfl⟩ := List.mem_map.mp hmem
    exact not_crlf_headerLine (h line (List.mem_of_mem_eraseP hline)) (by decide)

theorem not_crlf_of_mem_sanitized {lines : List (List UInt8)} (h : ∀ line ∈ lines, ¬ crlf <:+: line)
    {out : List UInt8} (hout : out ∈ lines.filterMap sanitizedLine) : ¬ crlf <:+: out := by
  obtain ⟨line, hline, hsome⟩ := List.mem_filterMap.mp hout
  rw [sanitizedLine] at hsome
  split at hsome
  · cases hsome
  · obtain rfl := Option.some.inj hsome
    rw [keptLine]
    split
    · exact not_crlf_headerLine (h line hline) (by decide)
    · exact h line hline

end HTTPMessage

/-- The request that goes out has no `Referer` and only the `User-Agent` of the proxy, and is otherwise
the one that came in, if and only if the headers are covered by the two searches. -/
theorem request_sanitized_iff (outside : HTTPOutside) (saveAddress : Bool) {m₀ m m' : HTTPMessage}
    {data : List UInt8} (hdata : m₀.handleData data = (m, true))
    (hrequest : m.createHTTPRequest outside saveAddress = some (m', true)) :
    m'.request = m.sanitizedRequest m'.path ↔ HeadersCovered m.headers := by
  obtain ⟨hheaders, hcrlf⟩ := HTTPMessage.headers_of_handleData hdata
  obtain ⟨m₁, hsame, rfl⟩ := HTTPMessage.createHTTPRequest_of_true hrequest
  rw [← HTTPMessage.adjustedHeaders_iff, HTTPMessage.buildRequest, HTTPMessage.sanitizedRequest]
  simp only [hsame.method, hsame.version, hsame.headerMap, hsame.body, hheaders]
  have hflat : (HTTPMessage.adjustedHeaders (m.headers.map headerOf)).flatMap
        (fun h => HTTPMessage.headerLine h ++ crlf) =
      ((HTTPMessage.adjustedHeaders (m.headers.map headerOf)).map HTTPMessage.headerLine).flatMap
        (· ++ crlf) := by
    rw [List.flatMap_map]
  rw [hflat]
  constructor
  · intro h
    simp only [List.append_assoc] at h
    refine lines_inj (fun _ => HTTPMessage.not_crlf_of_mem_adjusted hcrlf)
      (fun _ => HTTPMessage.not_crlf_of_mem_sanitized hcrlf) (x := crlf ++ m.body) ?_
    simpa using h
  · intro h
    rw [h]

/-- A URL of one host. -/
def oneHostOutside : HTTPOutside where
  urlSearch url := if url = ascii "http://a.i2p/b" then some (ascii "a.i2p", none, ascii "/b") else none
  decoded := id
  insertAddressIntoStorage _ _ := true

/-- The message that is accepted for a header. -/
def exampleMessage (header : List UInt8) : HTTPMessage := (HTTPMessage.handleData {} header).1

/-- The message that is built for a header. -/
def exampleBuilt (header : List UInt8) : HTTPMessage :=
  (((exampleMessage header).createHTTPRequest oneHostOutside true).getD ({}, false)).1

/-- Both headers, each once and spelled as the proxy looks for them. -/
def plainHeader : List UInt8 :=
  ascii "GET http://a.i2p/b HTTP/1.1\r\nUser-Agent: c\r\nReferer: d\r\nHost: a.i2p\r\n\r\n"

theorem request_sanitized_iff_plain :
    (exampleBuilt plainHeader).request =
        (exampleMessage plainHeader).sanitizedRequest (exampleBuilt plainHeader).path ↔
      HeadersCovered (exampleMessage plainHeader).headers := by
  have hdata : HTTPMessage.handleData {} plainHeader = (exampleMessage plainHeader, true) := by
    decide +kernel
  exact request_sanitized_iff oneHostOutside true hdata (by decide +kernel)

/-- The same headers in lower case. -/
def lowerHeader : List UInt8 :=
  ascii "GET http://a.i2p/b HTTP/1.1\r\nuser-agent: c\r\nreferer: d\r\n\r\n"

/-- The headers go out as they came in. -/
theorem lower_case_headers_go_out :
    HTTPMessage.handleData {} lowerHeader = (exampleMessage lowerHeader, true) ∧
      (exampleMessage lowerHeader).createHTTPRequest oneHostOutside true =
        some (exampleBuilt lowerHeader, true) ∧
      (exampleBuilt lowerHeader).request =
        ascii "GET /b HTTP/1.1\r\nuser-agent: c\r\nreferer: d\r\n\r\n" ∧
      (exampleBuilt lowerHeader).request ≠
        (exampleMessage lowerHeader).sanitizedRequest (exampleBuilt lowerHeader).path := by
  decide +kernel

end Client
