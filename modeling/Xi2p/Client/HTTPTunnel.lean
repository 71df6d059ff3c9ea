import Xi2p.Lib.Text
import Xi2p.Client.TunnelConnection

/-!
# The connection of an HTTP server tunnel

The connection holds back what it receives until it has seen the header of the request, and puts the
name of its own host into the header.

* `HTTPRequest`: a request, and what the local server should be sent for it.
* `httpWrite`: the `Write` of the connection.
* `http_request_not_rewritten`: what it sends is never that.
-/

namespace Client

open Bytes Text

/-! ## Requests -/

/-- The lines of a header, and a body. A line is not empty and holds no byte that ends a line. -/
structure HTTPRequest where
  lines : List (List UInt8)
  body : List UInt8
  wellFormed : ∀ line ∈ lines, line ≠ [] ∧ 13 ∉ line ∧ 10 ∉ line

/-- The name before the colon is `Host`, in any case. -/
def IsHostLine (line : List UInt8) : Prop :=
  58 ∈ line ∧ (line.takeWhile (· ≠ 58)).map toLower = ascii "host"

instance (line : List UInt8) : Decidable (IsHostLine line) :=
  inferInstanceAs (Decidable (_ ∧ _))

/-- The line for the host of the tunnel. -/
def hostLine (host : List UInt8) : List UInt8 := ascii "Host: " ++ host ++ crlf

/-- The lines of a header, each as `f` writes it, and the empty line. -/
def headerWith (f : List UInt8 → List UInt8) (lines : List (List UInt8)) : List UInt8 :=
  lines.flatMap f ++ crlf

/-- The lines as they are. -/
def plainLine (line : List UInt8) : List UInt8 := line ++ crlf

/-- A line, unless it is for a host. -/
def rewrittenLine (host line : List UInt8) : List UInt8 :=
  if IsHostLine line then hostLine host else plainLine line

namespace HTTPRequest

variable (request : HTTPRequest)

def header : List UInt8 := headerWith plainLine request.lines

def bytes : List UInt8 := request.header ++ request.body

/-- The request with each host replaced. -/
def rewritten (host : List UInt8) : List UInt8 :=
  headerWith (rewrittenLine host) request.lines ++ request.body

end HTTPRequest

/-! ## `I2PTunnelConnectionHTTP` -/

/-- What an `I2PTunnelConnectionHTTP` adds to a connection. -/
structure HTTPWriter where
  host : List UInt8
  inHeader : StringStream := {}
  outHeader : List UInt8 := []
  headerSent : Bool := false

/-- The line that goes out for a line that was read. -/
def outLine (host line : List UInt8) : List UInt8 :=
  if ascii "Host:" <:+: line then hostLine host else line ++ [10]

/-- The lines that are left are read until an empty line or the end of the input. Each line takes a
byte, so that `fuel` is the bytes that are left and one more. -/
def readHeader (host : List UInt8) : ℕ → StringStream → List UInt8 → List UInt8 →
    StringStream × List UInt8 × Bool
  | 0, inHeader, _, outHeader => (inHeader, outHeader, false)
  | fuel + 1, inHeader, line, outHeader =>
    let (inHeader, line) := inHeader.getline line
    if inHeader.fail then (inHeader, outHeader, false)
    else
      let outHeader := outHeader ++ outLine host line
      if line = [13] then (inHeader, outHeader, true)
      else readHeader host fuel inHeader line outHeader

/-- `Write` of the connection of an HTTP server tunnel. The string it gives to the socket is gone when
`Write` returns, unless the socket has taken it by then, which it is taken to have. -/
def httpWrite : WriteOf HTTPWriter := fun w buf =>
  if w.headerSent then (w, some (.streamBuffer buf.length))
  else
    let inHeader := w.inHeader.clear.write buf
    let (inHeader, outHeader, endOfHeader) :=
      readHeader w.host (inHeader.unread.length + 1) inHeader [] w.outHeader
    if endOfHeader then
      let outHeader := outHeader ++ inHeader.str
      ({ w with inHeader, outHeader, headerSent := true }, some (.string outHeader))
    else ({ w with inHeader, outHeader }, none)

namespace I2PTunnelConnection

variable {ω : Type} (write : WriteOf ω)

/-- The bytes that the socket is offered. -/
def offered (c : I2PTunnelConnection ω) : List UInt8 :=
  match c.pending with
  | .asyncSend buffer => c.contents buffer
  | _ => []

/-- A chunk is received, and the socket accepts all that it is offered for it. -/
def relay (c : I2PTunnelConnection ω) (chunk : List UInt8) : I2PTunnelConnection ω :=
  let c := c.step write (.handleStreamReceive chunk)
  c.step write (.handleWrite c.offered.length)

end I2PTunnelConnection

/-- A connection of an HTTP server tunnel that is connected to its server. -/
def httpConnection (host : List UInt8) (streamBuffer : Mem) : I2PTunnelConnection HTTPWriter :=
  .started httpWrite { host } streamBuffer (.handleConnect true [])

/-! ## The header that goes out -/

variable {host line rest : List UInt8} {lines : List (List UInt8)}

/-- The line that goes out for a line of the request. -/
def codeLine (host line : List UInt8) : List UInt8 := outLine host (line ++ [13])

theorem isHostLine_of_startsWith (h : ascii "Host:" <+: line) : IsHostLine line := by
  obtain ⟨rest, rfl⟩ := h
  exact ⟨List.mem_append_left _ (by decide), rfl⟩

/-- A line that starts like the line of a host is one. -/
theorem prefix_of_hostLine_eq {x y : List UInt8} (h : hostLine host ++ x = plainLine line ++ y) :
    ascii "Host:" <+: line := by
  have hstart : ascii "Host:" <+: line ++ 13 :: 10 :: y := by
    rw [show line ++ 13 :: 10 :: y = plainLine line ++ y by simp [plainLine], ← h]
    exact ⟨32 :: (host ++ crlf ++ x), by simp [hostLine, ascii]⟩
  exact prefix_of_prefix_append_cons hstart (by decide)

/-- Where the lines that go out agree with the right ones, they are the right ones. -/
theorem codeLine_eq_of_append_eq {x y : List UInt8}
    (h : codeLine host line ++ x = rewrittenLine host line ++ y) :
    codeLine host line = rewrittenLine host line := by
  have hplain : line ++ [13] ++ [10] = plainLine line := List.append_assoc _ _ _
  rw [codeLine, outLine, rewrittenLine] at h ⊢
  by_cases hcode : ascii "Host:" <:+: line ++ [13]
  · rw [if_pos hcode] at h ⊢
    by_cases hline : IsHostLine line
    · rw [if_pos hline]
    · rw [if_neg hline] at h
      exact absurd (isHostLine_of_startsWith (prefix_of_hostLine_eq h)) hline
  · rw [if_neg hcode, hplain] at h ⊢
    by_cases hline : IsHostLine line
    · rw [if_pos hline] at h
      have hstart := prefix_of_hostLine_eq h.symm
      exact absurd (hstart.trans (List.prefix_append _ _)).isInfix hcode
    · rw [if_neg hline]

theorem flatMap_codeLine_inj {x y : List UInt8}
    (h : lines.flatMap (codeLine host) ++ x = lines.flatMap (rewrittenLine host) ++ y) : x = y := by
  induction lines with
  | nil => exact h
  | cons line lines ih =>
    rw [List.flatMap_cons, List.flatMap_cons, List.append_assoc, List.append_assoc] at h
    rw [codeLine_eq_of_append_eq h] at h
    exact ih (List.append_cancel_left h)

/-- The header that goes out, and the whole request behind it, is not what should go out. -/
theorem HTTPRequest.sent_ne_rewritten (request : HTTPRequest) (host : List UInt8) :
    headerWith (codeLine host) request.lines ++ request.bytes ≠ request.rewritten host := by
  intro h
  rw [rewritten, headerWith, headerWith, List.append_assoc, List.append_assoc] at h
  have hbody : request.bytes = request.body := List.append_cancel_left (flatMap_codeLine_inj h)
  have hlen := congrArg List.length hbody
  simp [bytes, header, headerWith] at hlen
  omega

/-! ## Reading the header -/

theorem readHeader_of_fail {fuel : ℕ} {s s' : StringStream} {old new out : List UInt8}
    (hget : s.getline old = (s', new)) (hfail : s'.fail = true) :
    readHeader host (fuel + 1) s old out = (s', out, false) := by
  rw [readHeader, hget]
  exact if_pos hfail

theorem readHeader_of_line {fuel : ℕ} {s s' : StringStream} {old new out : List UInt8}
    (hget : s.getline old = (s', new)) (hfail : s'.fail = false) :
    readHeader host (fuel + 1) s old out =
      if new = [13] then (s', out ++ outLine host new, true)
      else readHeader host fuel s' new (out ++ outLine host new) := by
  rw [readHeader, hget]
  exact if_neg (by simp [hfail])

theorem outLine_empty : outLine host [13] = crlf := by
  rw [outLine, if_neg (fun h => absurd h.length_le (by decide))]
  rfl

/-- A last line without a line feed ends the input, unless it is an empty line of the request. -/
theorem readHeader_partial {old out : List UInt8} {s : StringStream} {fuel : ℕ}
    (hgood : s.good = true) (hline : 10 ∉ s.unread) (hne : s.unread ≠ [13])
    (hfuel : s.unread.length < fuel) :
    ∃ s' out', readHeader host fuel s old out = (s', out', false) := by
  obtain ⟨fuel, rfl⟩ : ∃ n, fuel = n + 1 := ⟨fuel - 1, by omega⟩
  by_cases hempty : s.unread = []
  · exact ⟨_, out, readHeader_of_fail (StringStream.getline_of_empty hgood hempty old) rfl⟩
  · have hlast := StringStream.getline_last hgood hline hempty rfl old
    rw [readHeader_of_line hlast (by simp_all [StringStream.good]), if_neg hne]
    -- the next line is not read
    obtain ⟨fuel, rfl⟩ : ∃ n, fuel = n + 1 := by
      have := List.length_pos_iff.mpr hempty
      exact ⟨fuel - 1, by omega⟩
    exact ⟨_, _, readHeader_of_fail (StringStream.getline_of_not_good (by rfl) _) rfl⟩

/-- What is read of a prefix of a request. The last line feed of the header is not needed. -/
theorem readHeader_cases {body chunk : List UInt8} {s : StringStream} {fuel : ℕ}
    (host old out : List UInt8)
    (hwf : ∀ line ∈ lines, line ≠ [] ∧ 13 ∉ line ∧ 10 ∉ line)
    (hchunk : chunk <+: headerWith plainLine lines ++ body) (hgood : s.good = true)
    (hunread : s.unread = chunk) (hfuel : chunk.length < fuel) :
    ((headerWith plainLine lines).length ≤ chunk.length + 1 ∧
      ∃ s' : StringStream, s'.str = s.str ∧
        readHeader host fuel s old out = (s', out ++ headerWith (codeLine host) lines, true)) ∨
    (chunk.length + 1 < (headerWith plainLine lines).length ∧
      ∃ s' out', readHeader host fuel s old out = (s', out', false)) := by
  have hfail : s.fail = false := by simp_all [StringStream.good]
  obtain ⟨fuel, rfl⟩ : ∃ n, fuel = n + 1 := ⟨fuel - 1, by omega⟩
  induction lines generalizing chunk s old out fuel with
  | nil =>
    rcases List.prefix_cons_iff.mp hchunk with rfl | ⟨chunk, rfl, hrest⟩
    · exact .inr ⟨by decide,
        readHeader_partial hgood (by rw [hunread]; decide) (by rw [hunread]; decide) (hunread ▸ hfuel)⟩
    rcases List.prefix_cons_iff.mp hrest with rfl | ⟨chunk, rfl, hrest⟩
    · have hlast := StringStream.getline_last hgood (by decide) (by decide) hunread old
      refine .inl ⟨by decide, { s with unread := [], eof := true }, rfl, ?_⟩
      rw [readHeader_of_line hlast hfail, if_pos rfl, outLine_empty]
      rfl
    · have hget : s.getline old = ({ s with unread := chunk }, [13]) :=
        StringStream.getline_append hgood (by decide) hunread old
      refine .inl ⟨by simp [headerWith], { s with unread := chunk }, rfl, ?_⟩
      rw [readHeader_of_line hget hfail, if_pos rfl, outLine_empty]
      rfl
  | cons line lines ih =>
    obtain ⟨hne, h13, h10⟩ := hwf line List.mem_cons_self
    have hrest := fun l hl => hwf l (List.mem_cons_of_mem _ hl)
    have hmem : 10 ∉ line ++ [13] := by simp [h10]
    have hlen : (headerWith plainLine (line :: lines)).length =
        line.length + 2 + (headerWith plainLine lines).length := by
      simp [headerWith, plainLine]
      omega
    have hpos : 2 ≤ (headerWith plainLine lines).length := by simp [headerWith]
    have hsplit : headerWith plainLine (line :: lines) ++ body =
        (line ++ [13]) ++ 10 :: (headerWith plainLine lines ++ body) := by
      simp [headerWith, plainLine]
    rw [hsplit] at hchunk
    rcases prefix_append_cons_cases hchunk with hpart | ⟨chunk, rfl, hmore⟩
    · -- the chunk ends in this line
      have hle := hpart.length_le
      rw [List.length_append, List.length_singleton] at hle
      refine .inr ⟨by omega, readHeader_partial hgood ?_ ?_ (hunread ▸ hfuel)⟩
      · rw [hunread]
        exact fun h => hmem (hpart.subset h)
      · rw [hunread]
        rintro rfl
        obtain ⟨first, rest, rfl⟩ := List.exists_cons_of_ne_nil hne
        obtain ⟨rfl, -⟩ := List.cons_prefix_cons.mp hpart
        exact h13 List.mem_cons_self
    · have hget := StringStream.getline_append hgood hmem hunread old
      have hnot : line ++ [13] ≠ [13] := fun h => hne (List.append_left_eq_self.mp h)
      rw [readHeader_of_line hget hfail, if_neg hnot, hlen]
      have hlen' : (line ++ [13] ++ 10 :: chunk).length = line.length + 2 + chunk.length := by
        simp
        omega
      rw [hlen'] at hfuel ⊢
      obtain ⟨fuel, rfl⟩ : ∃ n, fuel = n + 1 := ⟨fuel - 1, by omega⟩
      rcases ih (s := { s with unread := chunk }) (line ++ [13])
        (out ++ outLine host (line ++ [13])) hrest hmore hgood rfl hfail fuel (by omega)
        with ⟨hle, s', hstr, heq⟩ | ⟨hlt, hinc⟩
      · refine .inl ⟨by omega, s', hstr, ?_⟩
        rw [heq]
        simp [headerWith, codeLine]
      · exact .inr ⟨by omega, hinc⟩

/-- What `Write` does with the header that it has read. -/
theorem httpWrite_of_readHeader {w : HTTPWriter} {buf out : List UInt8} {s : StringStream}
    {endOfHeader : Bool} (hsent : w.headerSent = false)
    (hread : readHeader w.host ((w.inHeader.clear.write buf).unread.length + 1)
      (w.inHeader.clear.write buf) [] w.outHeader = (s, out, endOfHeader)) :
    httpWrite w buf =
      if endOfHeader then
        ({ w with inHeader := s, outHeader := out ++ s.str, headerSent := true },
          some (.string (out ++ s.str)))
      else ({ w with inHeader := s, outHeader := out }, none) := by
  rw [httpWrite, if_neg (by simp [hsent])]
  simp only [hread]

/-! ## The connection -/

namespace I2PTunnelConnection

variable {c : I2PTunnelConnection HTTPWriter} {streamBuffer : Mem} {request : HTTPRequest}
  {chunk : List UInt8}

/-- A chunk that does not complete the header is the last one that is read. -/
def Stalled (c : I2PTunnelConnection HTTPWriter) : Prop := c.pending = .idle ∧ c.written = []

/-- The header has been sent, and `sent` is all that the socket has been given. -/
structure Relaying (sent : List UInt8) (c : I2PTunnelConnection HTTPWriter) : Prop where
  pending : c.pending = .asyncReceive
  stream : c.stream = true
  headerSent : c.writer.headerSent = true
  written : c.written = sent

theorem Stalled.handleWrite (h : c.Stalled) (n : ℕ) : (c.step httpWrite (.handleWrite n)).Stalled := by
  rw [step.eq_def, h.1]
  exact h

theorem Stalled.relay (h : c.Stalled) (chunk : List UInt8) : (c.relay httpWrite chunk).Stalled := by
  have hreceive : (c.step httpWrite (.handleStreamReceive chunk)).Stalled := by
    rw [step.eq_def, h.1]
    exact h
  exact hreceive.handleWrite _

/-- A chunk for which `Write` gives the socket some bytes. -/
theorem relay_written {writer : HTTPWriter} {buffer : SendBuffer} {bytes : List UInt8}
    (hreceive : c.pending = .asyncReceive) (hstream : c.stream = true)
    (hwrite : httpWrite c.writer chunk = (writer, some buffer))
    (hbytes : (c.handleStreamReceive httpWrite chunk).contents buffer = bytes)
    (hsent : writer.headerSent = true) :
    (c.relay httpWrite chunk).Relaying (c.written ++ bytes) := by
  have hsend : (c.handleStreamReceive httpWrite chunk).pending = .asyncSend buffer := by
    rw [handleStreamReceive, hwrite]
    rfl
  have hkept : (c.handleStreamReceive httpWrite chunk).stream = c.stream ∧
      (c.handleStreamReceive httpWrite chunk).writer = writer ∧
      (c.handleStreamReceive httpWrite chunk).written = c.written := by
    rw [handleStreamReceive, hwrite]
    exact ⟨rfl, rfl, rfl⟩
  obtain ⟨hstream', hwriter, hwritten⟩ := hkept
  have hoffered : (c.handleStreamReceive httpWrite chunk).offered = bytes := by
    rw [offered, hsend]
    exact hbytes
  rw [relay, step_handleStreamReceive _ hreceive]
  rw [hoffered, step_handleWrite _ hsend, handleWrite, streamReceive, if_pos (hstream'.trans hstream)]
  refine ⟨rfl, hstream'.trans hstream, hwriter ▸ hsent, ?_⟩
  show _ ++ _ = _
  rw [hbytes, List.take_length, hwritten]

/-- Behind the header a chunk is sent as it is. -/
theorem Relaying.relay {sent : List UInt8} (h : c.Relaying sent) (chunk : List UInt8) :
    (c.relay httpWrite chunk).Relaying (sent ++ chunk) := by
  have hwrite : httpWrite c.writer chunk = (c.writer, some (.streamBuffer chunk.length)) := by
    rw [httpWrite, if_pos h.headerSent]
  rw [← h.written]
  refine relay_written h.pending h.stream hwrite ?_ h.headerSent
  rw [handleStreamReceive, hwrite]
  exact slice_store_self c.streamBuffer 0 chunk

/-- The first chunk completes the header, and is then sent twice, or it is the last one that is
read. -/
theorem relay_first (host : List UInt8) (streamBuffer : Mem) (hchunk : chunk <+: request.bytes) :
    (request.header.length ≤ chunk.length + 1 ∧
      ((httpConnection host streamBuffer).relay httpWrite chunk).Relaying
        (headerWith (codeLine host) request.lines ++ chunk)) ∨
    (chunk.length + 1 < request.header.length ∧
      ((httpConnection host streamBuffer).step httpWrite (.handleStreamReceive chunk)).Stalled ∧
      ((httpConnection host streamBuffer).relay httpWrite chunk).Stalled) := by
  rcases readHeader_cases (s := StringStream.write (StringStream.clear {}) chunk) host [] []
    request.wellFormed hchunk rfl rfl (Nat.lt_succ_self chunk.length)
    with ⟨hle, s', hstr, heq⟩ | ⟨hlt, s', out', heq⟩
  · refine .inl ⟨hle, ?_⟩
    have hwrite : httpWrite { host } chunk =
        ({ host, inHeader := s', outHeader := headerWith (codeLine host) request.lines ++ chunk,
           headerSent := true }, some (.string (headerWith (codeLine host) request.lines ++ chunk))) := by
      rw [httpWrite_of_readHeader rfl heq, if_pos rfl, hstr]
      rfl
    exact relay_written (c := httpConnection host streamBuffer) rfl rfl hwrite rfl rfl
  · have hwrite : httpWrite { host } chunk =
        ({ host, inHeader := s', outHeader := out' }, none) := by
      rw [httpWrite_of_readHeader rfl heq, if_neg Bool.false_ne_true]
    have hstalled :
        ((httpConnection host streamBuffer).step httpWrite (.handleStreamReceive chunk)).Stalled := by
      rw [step_handleStreamReceive _ rfl, handleStreamReceive]
      rw [show (httpConnection host streamBuffer).writer = { host } from rfl, hwrite]
      exact ⟨rfl, rfl⟩
    exact .inr ⟨hlt, hstalled, hstalled.handleWrite _⟩

/-- Behind the header all chunks are sent as they are. -/
theorem Relaying.foldl {sent : List UInt8} (h : c.Relaying sent) (chunks : List (List UInt8)) :
    (chunks.foldl (I2PTunnelConnection.relay httpWrite) c).Relaying (sent ++ chunks.flatten) := by
  induction chunks generalizing c sent with
  | nil => simpa using h
  | cons chunk chunks ih =>
    rw [List.flatten_cons, ← List.append_assoc]
    exact ih (h.relay chunk)

theorem Stalled.foldl (h : c.Stalled) (chunks : List (List UInt8)) :
    (chunks.foldl (I2PTunnelConnection.relay httpWrite) c).Stalled := by
  induction chunks generalizing c with
  | nil => exact h
  | cons chunk chunks ih => exact ih (h.relay chunk)

end I2PTunnelConnection

/-- However a request is cut into chunks, what the local server is sent for it is not the request with
each host replaced. The next read starts only if the first chunk holds the header, except maybe its
last byte. -/
theorem http_request_not_rewritten (host : List UInt8) (streamBuffer : Mem) (request : HTTPRequest)
    (chunk : List UInt8) (chunks : List (List UInt8))
    (hcut : (chunk :: chunks).flatten = request.bytes) :
    ((chunk :: chunks).foldl (I2PTunnelConnection.relay httpWrite)
        (httpConnection host streamBuffer)).written ≠ request.rewritten host ∧
      (((httpConnection host streamBuffer).relay httpWrite chunk).pending = .asyncReceive ↔
        request.header.length ≤ chunk.length + 1) := by
  have hchunk : chunk <+: request.bytes := ⟨chunks.flatten, hcut⟩
  rcases I2PTunnelConnection.relay_first host streamBuffer hchunk with
    ⟨hle, hrelaying⟩ | ⟨hlt, -, hstalled⟩
  · refine ⟨?_, iff_of_true hrelaying.pending hle⟩
    rw [List.foldl_cons, (hrelaying.foldl chunks).written, List.append_assoc, ← List.flatten_cons, hcut]
    exact request.sent_ne_rewritten host
  · refine ⟨?_, iff_of_false (fun hreceive => ?_) (by omega)⟩
    · rw [List.foldl_cons, (hstalled.foldl chunks).2]
      intro hnil
      have hlen := congrArg List.length hnil
      simp [HTTPRequest.rewritten, headerWith] at hlen
    · rw [hstalled.1] at hreceive
      cases hreceive

/-- A request with a host and a body. -/
def exampleRequest : HTTPRequest where
  lines := [ascii "POST / HTTP/1.1", ascii "Host: a.i2p"]
  body := ascii "hi"
  wellFormed := by decide

/-- A request in two chunks, of which the first ends in a line. -/
theorem http_request_not_rewritten_cut :
    (([exampleRequest.bytes.take 20, exampleRequest.bytes.drop 20] : List (List UInt8)).foldl
        (I2PTunnelConnection.relay httpWrite)
        (httpConnection (ascii "b") fun _ => 0)).written ≠ exampleRequest.rewritten (ascii "b") ∧
      (((httpConnection (ascii "b") fun _ => 0).relay httpWrite
          (exampleRequest.bytes.take 20)).pending = .asyncReceive ↔
        exampleRequest.header.length ≤ (exampleRequest.bytes.take 20).length + 1) :=
  http_request_not_rewritten (ascii "b") (fun _ => 0) exampleRequest (exampleRequest.bytes.take 20)
    [exampleRequest.bytes.drop 20] (by simp)

/-- The local server is sent the header with its own host, and then the request as it was. -/
theorem http_request_is_sent_twice :
    ((httpConnection (ascii "b") fun _ => 0).relay httpWrite exampleRequest.bytes).written =
        ascii "POST / HTTP/1.1\r\nHost: b\r\n\r\nPOST / HTTP/1.1\r\nHost: a.i2p\r\n\r\nhi" ∧
      exampleRequest.rewritten (ascii "b") = ascii "POST / HTTP/1.1\r\nHost: b\r\n\r\nhi" ∧
      ((httpConnection (ascii "b") fun _ => 0).relay httpWrite exampleRequest.bytes).written ≠
        exampleRequest.rewritten (ascii "b") := by
  decide +kernel

end Client
