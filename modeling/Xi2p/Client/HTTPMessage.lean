import Xi2p.Lib.Text

/-!
# Requests of the HTTP proxy

* `HTTPMessage`: a request on its way from the browser to the stream.
* `HTTPMessage.handleData`: the header of the request is taken apart.
* `HTTPMessage.createHTTPRequest`: the request is put together again, with some headers changed.
-/

namespace Client

open Text

/-! ## The message -/

/-- The responses that a request can end with. -/
inductive HTTPStatus
  | ok
  | badRequest
  | internalServerError
  | serviceUnavailable
  | httpNotSupported
  deriving DecidableEq

/-- The name of a header and its value. -/
abbrev Header : Type := List UInt8 × List UInt8

/-- What the proxy uses of other components. -/
structure HTTPOutside where
  /-- The submatches of `http://(.*?)(:(\d+))?(/.*)` in a URL: the server, the port if there is one, and
  the path. -/
  urlSearch : List UInt8 → Option (List UInt8 × Option (List UInt8) × List UInt8)
  /-- `boost::network::uri::decoded`. -/
  decoded : List UInt8 → List UInt8
  /-- `InsertAddressIntoStorage` of an address and a destination does not throw. -/
  insertAddressIntoStorage : List UInt8 → List UInt8 → Bool

structure HTTPMessage where
  requestLine : List UInt8 := []
  request : List UInt8 := []
  body : List UInt8 := []
  url : List UInt8 := []
  method : List UInt8 := []
  version : List UInt8 := []
  path : List UInt8 := []
  headers : List (List UInt8) := []
  address : List UInt8 := []
  base64Destination : List UInt8 := []
  headerMap : List Header := []
  port : ℕ := 0
  errorResponse : HTTPStatus := .ok
  deriving DecidableEq

/-- `HEADERBODY_LEN`. -/
abbrev headerBodyLen : ℕ := 2

/-- `REQUESTLINE_HEADERS_MIN`. -/
abbrev requestLineHeadersMin : ℕ := 1

/-- The name of a header line is what is before the first colon, and its value what is behind it. -/
def headerOf (line : List UInt8) : Header :=
  let keyElement := line.splitOn 58
  (keyElement.headD [], [58].intercalate keyElement.tail)

namespace HTTPMessage

variable (outside : HTTPOutside) (m : HTTPMessage)

def handleData (protocolString : List UInt8) : HTTPMessage × Bool :=
  let m := { m with errorResponse := .badRequest }
  let headerBody := splitText (crlf ++ crlf) protocolString
  if headerBody.length ≠ headerBodyLen then (m, false)
  else
    let tokensHeaderBody := splitText crlf (headerBody.headD [])
    if tokensHeaderBody.length < requestLineHeadersMin then (m, false)
    else
      let m := { m with requestLine := tokensHeaderBody.headD [] }
      match m.requestLine.splitOnP (fun b => b = 32 || b = 9) with
      | [method, url, version] =>
        ({ m with
          method, url, version
          headers := tokensHeaderBody.tail
          headerMap := tokensHeaderBody.tail.map headerOf
          errorResponse := .ok }, true)
      | _ => (m, false)

/-! ## The request -/

/-- `ExtractIncomingRequest`; `none` where `lexical_cast` throws. -/
def extractIncomingRequest : Option (HTTPMessage × Bool) :=
  let m := { m with errorResponse := .badRequest }
  let (server, port, path) := (outside.urlSearch m.url).getD ([], none, [])
  let m := { m with address := server }
  match lexicalCast 16 (port.getD (ascii "80")) with
  | none => none
  | some port =>
    let m := { m with port, path }
    if m.version ≠ ascii "HTTP/1.0" ∧ m.version ≠ ascii "HTTP/1.1" then
      some ({ m with errorResponse := .httpNotSupported }, false)
    else some ({ m with errorResponse := .ok }, true)

/-- `std::string::rfind`. -/
def rfind (sub s : List UInt8) : Option ℕ :=
  (List.range (s.length + 1)).reverse.find? fun i => sub <+: s.drop i

/-- The first two of the address helpers; the other two are never looked for. -/
def jumpService : List (List UInt8) := [ascii "?i2paddresshelper=", ascii "&i2paddresshelper="]

/-- Where the address helper starts, or zero. -/
def isJumpServiceRequest : ℕ :=
  match rfind (jumpService.getD 0 []) m.url, rfind (jumpService.getD 1 []) m.url with
  | none, none => 0
  | none, some pos2 => pos2
  | some pos1, none => pos1
  | some pos1, some pos2 => if pos1 > pos2 then pos1 else pos2

def extractBase64Destination (pos : ℕ) : HTTPMessage × Bool :=
  let base64Size := pos + (jumpService.getD 0 []).length
  if pos ≠ 0 ∧ base64Size < m.url.length then
    ({ m with base64Destination := outside.decoded (m.url.drop base64Size) }, true)
  else (m, false)

def handleJumpService : HTTPMessage × Bool :=
  let pos := m.isJumpServiceRequest
  if pos = 0 then (m, false)
  else
    let (m, extracted) := m.extractBase64Destination outside pos
    ({ m with url := m.url.take pos }, extracted)

def saveJumpServiceAddress : Bool :=
  outside.insertAddressIntoStorage m.address m.base64Destination

/-- The name of a header without the blanks around it. -/
def isNamed (name : List UInt8) (header : Header) : Bool := trim header.1 = name

/-- `std::find_if`, and a change of what it finds. -/
def updateFirst {α : Type*} (p : α → Bool) (f : α → α) : List α → List α
  | [] => []
  | a :: l => if p a then f a :: l else a :: updateFirst p f l

/-- The value that a `User-Agent` is given. -/
def userAgent : List UInt8 := ascii " MYOB/6.66 (AN/ON)"

/-- The headers that go out. -/
def adjustedHeaders (headerMap : List Header) : List Header :=
  let headerMap := updateFirst (isNamed (ascii "User-Agent")) (fun h => (h.1, userAgent)) headerMap
  headerMap.eraseP (isNamed (ascii "Referer"))

/-- A header as a line. -/
def headerLine (header : Header) : List UInt8 := header.1 ++ [58] ++ header.2

/-- The part of `CreateHTTPRequest` behind the jump service. -/
def buildRequest : HTTPMessage :=
  let headerMap := adjustedHeaders m.headerMap
  { m with
    headerMap
    request := m.method ++ [32] ++ m.path ++ [32] ++ m.version ++ crlf ++
      headerMap.flatMap (fun h => headerLine h ++ crlf) ++ crlf ++ m.body }

/-- `CreateHTTPRequest`; `none` where `lexical_cast` throws. -/
def createHTTPRequest (saveAddress : Bool) : Option (HTTPMessage × Bool) :=
  match m.extractIncomingRequest outside with
  | none => none
  | some (m, false) => some (m, false)
  | some (m, true) =>
    if m.isJumpServiceRequest = 0 then some (m.buildRequest, true)
    else
      let (m, handled) := m.handleJumpService outside
      if !handled then some ({ m with errorResponse := .badRequest }, false)
      else if !m.saveJumpServiceAddress outside && saveAddress then
        some ({ m with errorResponse := .internalServerError }, false)
      else some (m.buildRequest, true)

end HTTPMessage

/-! ## The handler -/

/-- What becomes of a request that the handler has read something of. -/
inductive HTTPOutcome
  /-- The exception of a `lexical_cast`. -/
  | exception
  | terminate
  | httpRequestFailed (status : HTTPStatus)
  /-- More of the body is read, at least that many bytes. -/
  | asyncRead (m : HTTPMessage) (atLeast : ℕ)
  | createStream (m : HTTPMessage)
  deriving DecidableEq

/-- `AsyncHandleReadHeaders` without an error: the buffer and the length up to the end of the
header. -/
def asyncHandleReadHeaders (m : HTTPMessage) (buffer : List UInt8) (bytesTransferred : ℕ) :
    HTTPOutcome :=
  match m.handleData buffer with
  | (m, false) => .httpRequestFailed m.errorResponse
  | (m, true) =>
    if buffer.length < bytesTransferred then .terminate
    else
      let numAdditionalBytes := buffer.length - bytesTransferred
      let m := if numAdditionalBytes ≠ 0 then
          { m with body := buffer.drop (buffer.length - numAdditionalBytes) }
        else m
      match m.headerMap.find? (HTTPMessage.isNamed (ascii "Content-Length")) with
      | none => .createStream m
      | some (_, value) =>
        match lexicalCast 64 (trimLeft value) with
        | none => .exception
        | some clen =>
          if clen < numAdditionalBytes then .terminate
          else if clen - numAdditionalBytes ≠ 0 then .asyncRead m (clen - numAdditionalBytes)
          else .createStream m

/-- `HandleSockRecv` without an error: the bytes that were read. -/
def handleSockRecv (m : HTTPMessage) (bodyBuffer : List UInt8) : HTTPOutcome :=
  .createStream { m with body := m.body ++ bodyBuffer }

end Client
