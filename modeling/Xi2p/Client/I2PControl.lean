import Mathlib.Data.List.Lex
import Mathlib.Logic.Function.Basic
import Xi2p.Lib.JsonDocument

/-!
# I2PControl requests and responses

`client/api/i2p_control/data.cc` and `client/util/json.cc`: the JSON texts of requests and responses
are put together by hand, and read back through a property tree.

The parameters of a request or a response belong to the keys of its method, in the order of the
enumerators; an exception is `none`.

* `Request.toJsonString`, `Request.parse`, `Response.toJsonString`, `Response.parse`.
* `Session.handleRequest`: the server, with the handler of `Echo`.
-/

namespace I2PControl

open Json Text

/-! ## Numbers and texts -/

/-- `std::to_string`. -/
def decimal (n : ℕ) : List UInt8 := (Nat.toDigits 10 n).map fun c => UInt8.ofNat c.toNat

/-- A string between quotation marks. -/
def quoted (s : List UInt8) : List UInt8 := quote :: (s ++ [quote])

/-- The sign of a number, its digits and what follows them, as an input stream takes them. -/
def cutInteger (s : List UInt8) : Bool × List UInt8 × List UInt8 :=
  let negative := s.head? = some 45
  let s := dropSign [43, 45] s
  (negative, s.takeWhile isDigit, s.dropWhile isDigit)

/-- `get<std::size_t>`: blanks around the number are skipped, and a minus sign wraps. -/
def readSize (s : List UInt8) : Option UInt64 := (lexicalCast 64 (trim s)).map UInt64.ofNat

/-- `get<int>`. -/
def readInt (s : List UInt8) : Option ℤ := do
  let (negative, number, rest) := cutInteger (trim s)
  let v ← Text.digits 32 number
  let n : ℤ := if negative then - v else v
  if rest = [] ∧ -2 ^ 31 ≤ n ∧ n < 2 ^ 31 then some n else none

/-- `true` or `false`, between blanks. -/
def readWord (s : List UInt8) : Option Bool :=
  if trim s = ascii "true" then some true else if trim s = ascii "false" then some false else none

/-- `get_value<bool>`: `0` or `1`; where the number is another one or none, a word behind it. -/
def readBool (s : List UInt8) : Option Bool :=
  let (negative, number, rest) := cutInteger (trimLeft s)
  match Text.digits 63 number with
  | some 0 => if trimLeft rest = [] then some false else none
  | some 1 =>
    if negative then readWord rest else if trimLeft rest = [] then some true else none
  | _ => readWord rest

/-- The texts of a `double`. -/
structure DoubleFormat (Double : Type) where
  /-- `std::fixed << std::setprecision(2)`. -/
  fixed2 : Double → List UInt8
  /-- `get<double>`. -/
  read : List UInt8 → Option Double
  /-- Digits, a sign and a point, or the letters of `inf` and `nan`. -/
  fixed2_chars : ∀ x, ∀ b ∈ fixed2 x, isLiteralChar b = true
  /-- What can be read is finite, and is written with digits. -/
  fixed2_of_read : ∀ {s x}, read s = some x →
    isNumber (fixed2 x) = true ∧ ∀ b ∈ fixed2 x, isDigit b = true ∨ b = 45 ∨ b = 46

/-! ## JSON objects -/

/-- `JsonObject`: `m_Children`, in the order of the map, and `m_Value`. Every constructor puts the
value between quotation marks; without them it is empty. -/
inductive JsonObject
  | mk (children : List (List UInt8 × JsonObject)) (value : Option (List UInt8))

namespace JsonObject

mutual

/-- `ToString`. -/
def toString : JsonObject → List UInt8
  | mk [] none => []
  | mk [] (some s) => quoted s
  | mk ((key, j) :: cs) _ =>
    [openBrace] ++ quoted key ++ [colon] ++ j.toString ++ toStrings cs ++ [closeBrace]

/-- The children behind the first one. -/
def toStrings : List (List UInt8 × JsonObject) → List UInt8
  | [] => []
  | (key, j) :: cs => [comma] ++ quoted key ++ [colon] ++ j.toString ++ toStrings cs

end

/-- The comparison of strings in a map. -/
def before (a b : List UInt8) : Prop := a.map UInt8.toNat < b.map UInt8.toNat

instance (a b : List UInt8) : Decidable (before a b) := inferInstanceAs (Decidable (_ < _))

/-- `m_Children[key] = j`. -/
def setChild (key : List UInt8) (j : JsonObject) :
    List (List UInt8 × JsonObject) → List (List UInt8 × JsonObject)
  | [] => [(key, j)]
  | (k, i) :: cs =>
    if key = k then (key, j) :: cs
    else if before key k then (key, j) :: (k, i) :: cs
    else (k, i) :: setChild key j cs

mutual

/-- `JsonObject(const ptree&)`. -/
def ofTree : PTree → JsonObject
  | .leaf data => mk [] (if data = ascii "null" then none else some data)
  | .node cs => mk (ofTrees cs []) (some [])

/-- The loop over the children of a tree. -/
def ofTrees : List (List UInt8 × PTree) → List (List UInt8 × JsonObject) →
    List (List UInt8 × JsonObject)
  | [], done => done
  | (key, t) :: cs, done => ofTrees cs (setChild key (ofTree t) done)

end

end JsonObject

/-! ## Values -/

/-- `ValueType`. -/
inductive ValueType (Double : Type)
  | bool (b : Bool)
  | size (n : UInt64)
  | double (x : Double)
  | string (s : List UInt8)
  | object (j : JsonObject)

variable {Double : Type}

/-- `SerializeVisitor`. -/
def ValueType.serialize (fmt : DoubleFormat Double) : ValueType Double → List UInt8
  | bool b => if b then ascii "true" else ascii "false"
  | size n => decimal n.toNat
  | double x => fmt.fixed2 x
  | string s => if s = [] then ascii "null" else quoted s
  | object j => if j.toString = [] then ascii "null" else j.toString

/-- The comparison of two values; JSON objects are compared by their texts. -/
def ValueType.Same : ValueType Double → ValueType Double → Prop
  | object i, object j => i.toString = j.toString
  | v, w => v = w

/-- `m_Params`: the values of the keys. -/
abbrev Params (Double : Type) := ℕ → Option (ValueType Double)

/-- No parameter. -/
def noParams : Params Double := fun _ => none

/-- `Set`. -/
def setParam (params : Params Double) (key : ℕ) (v : ValueType Double) : Params Double :=
  Function.update params key (some v)

/-! ## Methods -/

/-- What becomes of the value of a key when a method is parsed. -/
inductive Kind
  | size
  | string
  | double
  | bool
  | object
  /-- `Set(key, std::string())`, whatever the value is. -/
  | ignored
  /-- A string; the text `null` stands for the empty one. -/
  | nullable
  deriving DecidableEq

/-- The value of a key. -/
def Kind.read (fmt : DoubleFormat Double) : Kind → PTree → Option (ValueType Double)
  | size, t => (readSize t.data).map .size
  | string, t => some (.string t.data)
  | double, t => (fmt.read t.data).map .double
  | bool, t => (readBool t.data).map .bool
  | object, t => some (.object (.ofTree t))
  | ignored, _ => some (.string [])
  | nullable, t => some (.string (if t.data = ascii "null" then [] else t.data))

/-- The forms of `ParseRequest` and `ParseResponse`. -/
inductive Form
  /-- Some keys are looked up, one after the other. -/
  | required (fields : List (ℕ × Kind))
  /-- A loop over all children; `skipToken` tells whether `Token` is passed over. A key without a
  kind is refused. -/
  | each (kind : ℕ → Option Kind) (skipToken : Bool)

/-- `ParseRequest` or `ParseResponse` of a method whose keys have the names `traits`. -/
def Form.parse (fmt : DoubleFormat Double) (traits : List (List UInt8)) :
    Form → PTree → Option (Params Double)
  | required fields, tree =>
    fields.foldlM (fun params (key, kind) => do
      let t ← tree.find (traits.getD key [])
      let v ← kind.read fmt t
      return setParam params key v) noParams
  | each kind skipToken, tree =>
    tree.children.foldlM (fun params (name, t) =>
      if skipToken ∧ name = ascii "Token" then some params
      else do
        let key := traits.idxOf name
        let k ← kind key
        let v ← k.read fmt t
        return setParam params key v) noParams

namespace MethodAuthenticate

abbrev api : ℕ := 0

abbrev password : ℕ := 1

abbrev token : ℕ := 2

def traits : List (List UInt8) := [ascii "API", ascii "Password", ascii "Token"]

def parseRequest : Form := .required [(api, .size), (password, .string)]

def parseResponse : Form := .required [(api, .size), (token, .string)]

end MethodAuthenticate

namespace MethodEcho

abbrev echo : ℕ := 0

abbrev result : ℕ := 1

def traits : List (List UInt8) := [ascii "Echo", ascii "Result"]

def parseRequest : Form := .required [(echo, .string)]

def parseResponse : Form := .required [(result, .string)]

end MethodEcho

namespace MethodGetRate

abbrev stat : ℕ := 0

abbrev period : ℕ := 1

abbrev result : ℕ := 2

def traits : List (List UInt8) := [ascii "Stat", ascii "Period", ascii "Result"]

def parseRequest : Form := .required [(stat, .string), (period, .size)]

def parseResponse : Form := .required [(result, .double)]

end MethodGetRate

namespace MethodI2PControl

abbrev address : ℕ := 0

abbrev password : ℕ := 1

abbrev port : ℕ := 2

abbrev settingsSaved : ℕ := 3

abbrev restartNeeded : ℕ := 4

def traits : List (List UInt8) :=
  [ascii "i2pcontrol.address", ascii "i2pcontrol.password", ascii "i2pcontrol.port",
    ascii "SettingsSaved", ascii "RestartNeeded"]

def requestKind (key : ℕ) : Option Kind :=
  if key ∈ [address, password, port] then some .string else none

def responseKind (key : ℕ) : Option Kind :=
  if key ∈ [address, password, port] then some .ignored
  else if key ∈ [settingsSaved, restartNeeded] then some .bool
  else none

def parseRequest : Form := .each requestKind true

def parseResponse : Form := .each responseKind false

end MethodI2PControl

namespace MethodRouterInfo

def traits : List (List UInt8) :=
  [ascii "i2p.router.status", ascii "i2p.router.uptime", ascii "i2p.router.version",
    ascii "i2p.router.net.bw.inbound.1s", ascii "i2p.router.net.bw.inbound.15s",
    ascii "i2p.router.net.bw.outbound.1s", ascii "i2p.router.net.bw.outbound.15s",
    ascii "i2p.router.net.status", ascii "i2p.router.net.tunnels.participating",
    ascii "i2p.router.netdb.activepeers", ascii "i2p.router.netdb.fastpeers",
    ascii "i2p.router.netdb.highcapacitypeers", ascii "i2p.router.netdb.isreseeding",
    ascii "i2p.router.netdb.knownpeers", ascii "i2p.router.datapath",
    ascii "i2p.router.netdb.floodfills", ascii "i2p.router.netdb.leasesets",
    ascii "i2p.router.net.tunnels.creationsuccessrate",
    ascii "i2p.router.net.tunnels.inbound.list", ascii "i2p.router.net.tunnels.outbound.list"]

/-- `Status`, `Version` and `DataPath`. -/
def stringKeys : List ℕ := [0, 2, 14]

/-- `Uptime`, `NetStatus`, `TunnelsParticipating`, the numbers of peers, `Floodfills` and
`LeaseSets`. -/
def sizeKeys : List ℕ := [1, 7, 8, 9, 10, 11, 13, 15, 16]

/-- The bandwidths and `TunnelsCreationSuccessRate`. -/
def doubleKeys : List ℕ := [3, 4, 5, 6, 17]

/-- `IsReseeding`. -/
def boolKeys : List ℕ := [12]

/-- `TunnelsInList` and `TunnelsOutList`. -/
def objectKeys : List ℕ := [18, 19]

def requestKind (key : ℕ) : Option Kind := if key < traits.length then some .ignored else none

def responseKind (key : ℕ) : Option Kind :=
  if key ∈ stringKeys then some .string
  else if key ∈ sizeKeys then some .size
  else if key ∈ doubleKeys then some .double
  else if key ∈ boolKeys then some .bool
  else if key ∈ objectKeys then some .object
  else none

def parseRequest : Form := .each requestKind true

def parseResponse : Form := .each responseKind false

end MethodRouterInfo

namespace MethodRouterManager

abbrev findUpdates : ℕ := 0

abbrev update : ℕ := 6

def traits : List (List UInt8) :=
  [ascii "FindUpdates", ascii "Reseed", ascii "Restart", ascii "RestartGraceful",
    ascii "Shutdown", ascii "ShutdownGraceful", ascii "Update"]

def requestKind (key : ℕ) : Option Kind := if key < traits.length then some .ignored else none

def responseKind (key : ℕ) : Option Kind :=
  if key = findUpdates then some .bool
  else if key < update then some .ignored
  else if key = update then some .string
  else none

def parseRequest : Form := .each requestKind true

def parseResponse : Form := .each responseKind false

end MethodRouterManager

namespace MethodNetworkSetting

abbrev settingsSaved : ℕ := 12

abbrev restartNeeded : ℕ := 13

def traits : List (List UInt8) :=
  [ascii "i2p.router.net.ntcp.port", ascii "i2p.router.net.ntcp.hostname",
    ascii "i2p.router.net.ntcp.autoip", ascii "i2p.router.net.ssu.port",
    ascii "i2p.router.net.ssu.hostname", ascii "i2p.router.net.ssu.autoip",
    ascii "i2p.router.net.ssu.detectedip", ascii "i2p.router.net.upnp",
    ascii "i2p.router.net.bw.share", ascii "i2p.router.net.bw.in",
    ascii "i2p.router.net.bw.out", ascii "i2p.router.net.laptopmode",
    ascii "SettingsSaved", ascii "RestartNeeded"]

def requestKind (key : ℕ) : Option Kind := if key < traits.length then some .nullable else none

def responseKind (key : ℕ) : Option Kind :=
  if key ∈ [settingsSaved, restartNeeded] then some .bool
  else if key < traits.length then some .string
  else none

def parseRequest : Form := .each requestKind true

def parseResponse : Form := .each responseKind false

end MethodNetworkSetting

/-- `Method`, without `Unknown`. -/
inductive Method
  | authenticate
  | echo
  | getRate
  | i2pControl
  | routerInfo
  | routerManager
  | networkSetting
  deriving DecidableEq

namespace Method

/-- `GetTrait(Method)`. -/
def trait : Method → List UInt8
  | authenticate => ascii "Authenticate"
  | echo => ascii "Echo"
  | getRate => ascii "GetRate"
  | i2pControl => ascii "I2PControl"
  | routerInfo => ascii "RouterInfo"
  | routerManager => ascii "RouterManager"
  | networkSetting => ascii "NetworkSetting"

def all : List Method :=
  [authenticate, echo, getRate, i2pControl, routerInfo, routerManager, networkSetting]

/-- `GetMethodFromString`; `Unknown` is `none`. -/
def fromString (value : List UInt8) : Option Method := all.find? fun m => value = m.trait

/-- The names of the keys, in the order of the enumerators. -/
def traits : Method → List (List UInt8)
  | authenticate => MethodAuthenticate.traits
  | echo => MethodEcho.traits
  | getRate => MethodGetRate.traits
  | i2pControl => MethodI2PControl.traits
  | routerInfo => MethodRouterInfo.traits
  | routerManager => MethodRouterManager.traits
  | networkSetting => MethodNetworkSetting.traits

def parseRequest : Method → Form
  | authenticate => MethodAuthenticate.parseRequest
  | echo => MethodEcho.parseRequest
  | getRate => MethodGetRate.parseRequest
  | i2pControl => MethodI2PControl.parseRequest
  | routerInfo => MethodRouterInfo.parseRequest
  | routerManager => MethodRouterManager.parseRequest
  | networkSetting => MethodNetworkSetting.parseRequest

def parseResponse : Method → Form
  | authenticate => MethodAuthenticate.parseResponse
  | echo => MethodEcho.parseResponse
  | getRate => MethodGetRate.parseResponse
  | i2pControl => MethodI2PControl.parseResponse
  | routerInfo => MethodRouterInfo.parseResponse
  | routerManager => MethodRouterManager.parseResponse
  | networkSetting => MethodNetworkSetting.parseResponse

/-- The names and values of the keys that are set. -/
def entries (m : Method) (params : Params Double) : List (List UInt8 × ValueType Double) :=
  (List.range m.traits.length).filterMap fun key =>
    (params key).map fun v => (m.traits.getD key [], v)

/-- `AbstractMethod::ToJsonString`. -/
def toJsonString (fmt : DoubleFormat Double) (m : Method) (params : Params Double) : List UInt8 :=
  match m.entries params with
  | [] => []
  | (name, v) :: rest =>
    quoted name ++ [colon] ++ v.serialize fmt ++
      rest.flatMap fun (name, v) => [comma] ++ quoted name ++ [colon] ++ v.serialize fmt

end Method

/-! ## Requests -/

/-- `I2PControlData::Parse`: the ID and the version. -/
def parseData (tree : PTree) : Option (ValueType Double × List UInt8) := do
  let id ← tree.find (ascii "id")
  let id ← if id.data.head? = some quote then some (.string id.data)
    else (readSize id.data).map .size
  let version ← tree.find (ascii "jsonrpc")
  return (id, version.data)

/-- `I2PControlRequest`, with a method. -/
structure Request (Double : Type) where
  id : ValueType Double := .size 0
  version : List UInt8 := ascii "2.0"
  method : Method
  token : List UInt8 := []
  params : Params Double := noParams

namespace Request

/-- `ToJsonString`. -/
def toJsonString (fmt : DoubleFormat Double) (r : Request Double) : List UInt8 :=
  [openBrace] ++ quoted (ascii "id") ++ [colon] ++ r.id.serialize fmt ++
    [comma] ++ quoted (ascii "method") ++ [colon] ++ quoted r.method.trait ++
    [comma] ++ quoted (ascii "params") ++ [colon] ++ [openBrace] ++
    (if r.token ≠ [] then quoted (ascii "Token") ++ [colon] ++ quoted r.token ++ [comma]
      else []) ++
    r.method.toJsonString fmt r.params ++ [closeBrace] ++
    [comma] ++ quoted (ascii "jsonrpc") ++ [colon] ++ quoted r.version ++ [closeBrace]

/-- `Parse`. -/
def parse (fmt : DoubleFormat Double) (stream : List UInt8) : Option (Request Double) := do
  let tree ← readJson stream
  let (id, version) ← parseData tree
  let name ← tree.find (ascii "method")
  let method ← Method.fromString name.data
  let params ← tree.find (ascii "params")
  let token := ((params.find (ascii "Token")).map PTree.data).getD []
  let values ← method.parseRequest.parse fmt method.traits params
  return { id, version, method, token, params := values }

end Request

/-! ## Responses -/

/-- `ErrorCode`, without `None`. -/
inductive ErrorCode
  | invalidRequest
  | methodNotFound
  | invalidParameters
  | internalError
  | parseError
  | invalidPassword
  | noToken
  | nonexistentToken
  | expiredToken
  | unspecifiedVersion
  | unsupportedVersion
  deriving DecidableEq

namespace ErrorCode

def code : ErrorCode → ℤ
  | invalidRequest => -32600
  | methodNotFound => -32601
  | invalidParameters => -32602
  | internalError => -32603
  | parseError => -32700
  | invalidPassword => -32001
  | noToken => -32002
  | nonexistentToken => -32003
  | expiredToken => -32004
  | unspecifiedVersion => -32005
  | unsupportedVersion => -32006

/-- `GetTrait(ErrorCode)`. -/
def trait : ErrorCode → List UInt8
  | invalidRequest => ascii "Invalid request."
  | methodNotFound => ascii "Method not found."
  | invalidParameters => ascii "Invalid parameters."
  | internalError => ascii "Internal error."
  | parseError => ascii "Json parse error."
  | invalidPassword => ascii "Invalid password."
  | noToken => ascii "No authentication token given."
  | nonexistentToken => ascii "Nonexistent authentication token given."
  | expiredToken => ascii "Expired authentication token given."
  | unspecifiedVersion => ascii "Version not specified."
  | unsupportedVersion => ascii "Version not supported."

def all : List ErrorCode :=
  [invalidRequest, methodNotFound, invalidParameters, internalError, parseError, invalidPassword,
    noToken, nonexistentToken, expiredToken, unspecifiedVersion, unsupportedVersion]

/-- `ErrorFromInt`: `None` is an error code, too, and is the inner `none`. -/
def fromInt (error : ℤ) : Option (Option ErrorCode) :=
  if error = 0 then some none else (all.find? fun e => e.code = error).map some

end ErrorCode

/-- `I2PControlResponse`. -/
structure Response (Double : Type) where
  id : ValueType Double := .size 0
  version : List UInt8 := ascii "2.0"
  method : Option Method := none
  params : Params Double := noParams
  error : Option ErrorCode := none

namespace Response

/-- `ToJsonString`. -/
def toJsonString (fmt : DoubleFormat Double) (r : Response Double) : List UInt8 :=
  [openBrace] ++ quoted (ascii "id") ++ [colon] ++ r.id.serialize fmt ++
    (match r.method with
      | none => []
      | some method => [comma] ++ quoted (ascii "result") ++ [colon] ++ [openBrace] ++
        method.toJsonString fmt r.params ++ [closeBrace]) ++
    [comma] ++ quoted (ascii "jsonrpc") ++ [colon] ++ quoted r.version ++
    (match r.error with
      | none => []
      | some e => [comma] ++ quoted (ascii "error") ++ [colon] ++ [openBrace] ++
        quoted (ascii "code") ++ [colon] ++ 45 :: decimal e.code.natAbs ++
        [comma] ++ quoted (ascii "message") ++ [colon] ++ quoted e.trait ++ [closeBrace]) ++
    [closeBrace]

/-- `Parse`. -/
def parse (fmt : DoubleFormat Double) (method : Method) (stream : List UInt8) :
    Option (Response Double) := do
  let tree ← readJson stream
  let (id, version) ← parseData tree
  match tree.find (ascii "error") with
  | some error =>
    let code ← error.find (ascii "code")
    let e ← (readInt code.data).bind ErrorCode.fromInt
    return { id, version, method := some method, error := e }
  | none =>
    let result ← tree.find (ascii "result")
    let values ← method.parseResponse.parse fmt method.traits result
    return { id, version, method := some method, params := values }

end Response

/-! ## The server -/

/-- `I2PControlSession`. -/
structure Session (Double : Type) where
  /-- `m_Tokens`: the tokens and the seconds in which they were given out. -/
  tokens : List (List UInt8 × ℕ)
  /-- `GetSecondsSinceEpoch`. -/
  now : ℕ
  /-- What the handlers of the other methods leave behind. -/
  other : Method → Request Double → Response Double → Response Double

/-- `TOKEN_LIFETIME`. -/
abbrev tokenLifetime : ℕ := 600

namespace Session

variable (s : Session Double)

/-- `Authenticate`: the error that is set. The difference of the seconds is unsigned. -/
def authenticate (request : Request Double) : Option ErrorCode :=
  if request.token = [] then some .noToken
  else
    match AssocMap.find s.tokens request.token with
    | none => some .nonexistentToken
    | some time =>
      if (s.now + 2 ^ 64 - time) % 2 ^ 64 > tokenLifetime then some .expiredToken else none

/-- `HandleEcho`; without a string to echo, an exception is caught. -/
def handleEcho (request : Request Double) (response : Response Double) : Response Double :=
  match request.params MethodEcho.echo with
  | some (.string echo) =>
    { response with params := setParam response.params MethodEcho.result (.string echo) }
  | _ => { response with error := some .parseError }

/-- `m_MethodHandlers`: there are no handlers of `GetRate` and of `NetworkSetting`. -/
def handler (method : Method) : Option (Request Double → Response Double → Response Double) :=
  match method with
  | .echo => some handleEcho
  | .getRate => none
  | .networkSetting => none
  | _ => some (s.other method)

/-- `HandleRequest`. -/
def handleRequest (fmt : DoubleFormat Double) (stream : List UInt8) : Response Double :=
  match Request.parse fmt stream with
  | none => { error := some .parseError }
  | some request =>
    let response : Response Double := { id := request.id }
    match s.handler request.method with
    | none => { response with error := some .methodNotFound }
    | some handle =>
      let response := { response with method := some request.method }
      match (if request.method = .authenticate then none else s.authenticate request) with
      | some e => { response with error := some e }
      | none => handle request response

end Session

end I2PControl
