import Xi2p.Lib.Runs
import Xi2p.Router.Writing
import Xi2p.Transports.Peers

/-!
# The router's own router info

`RouterContext` of `core/router/context.cc`: the functions that change `m_RouterInfo`, and
`UpdateRouterInfo`, which creates and signs its buffer anew. With them come `SetCaps`, `AddAddress`,
`AddIntroducer`, `RemoveIntroducer` and `CreateBuffer` of `core/router/info.cc`.

The functions edit the members of the router info first; most of them then call `UpdateRouterInfo`. An
exception of `CreateBuffer` or of `SaveToFile` leaves what has been edited. The signature stands behind
the bytes that it signs and is not looked at.

* `RouterContext.call`: one call.
* `Consistent`: what the published router info is to be.
-/

namespace Router

open Bytes I2NP Identity Transports

instance : DecidableEq SSU.IPAddress := fun
  | .v4 a, .v4 b => decidable_of_iff (a = b) (by simp)
  | .v6 a, .v6 b => decidable_of_iff (a = b) (by simp)
  | .v4 _, .v6 _ => isFalse nofun
  | .v6 _, .v4 _ => isFalse nofun

/-! ## Capabilities -/

/-- `Cap::HighBandwidth`. -/
abbrev capHighBandwidth : UInt8 := 0x04

/-- `Cap::Reachable`. -/
abbrev capReachable : UInt8 := 0x08

/-- `Cap::Hidden`. -/
abbrev capHidden : UInt8 := 0x40

/-- `GetCapsFlags`. -/
def getCapsFlags (caps : UInt8) : List UInt8 :=
  (if caps &&& capFloodfill ≠ 0 then trait "Pf"
    else if caps &&& capHighBandwidth ≠ 0 then trait "O" else trait "L") ++
    (if caps &&& capHidden ≠ 0 then trait "H" else []) ++
    (if caps &&& capReachable ≠ 0 then trait "R" else []) ++
    (if caps &&& capUnreachable ≠ 0 then trait "U" else [])

/-- The transport and the IP version of an address. -/
def Address.kind (address : Address) : Transport × Bool := (address.transport, address.host.isV4)

namespace Contents

/-- `HasCap(Cap::Reachable)`. -/
def isReachable (c : Contents) : Bool := c.caps &&& capReachable ≠ 0

/-- `SetCaps`, with the bits. -/
def setCapBits (c : Contents) (caps : UInt8) : Contents :=
  { c with caps }.setOption (trait "caps") (getCapsFlags caps)

/-! ## Addresses -/

/-- `AddAddress` for NTCP. The text of a host stands for the host. -/
def addNTCPAddress (c : Contents) (host : SSU.IPAddress) (port : UInt16) : Contents :=
  { c with
    supportedTransports := c.supportedTransports ||| supportedTransport true host.isV4
    addresses := c.addresses ++ [{ transport := .ntcp, host, port, cost := 10 }] }

/-- `AddAddress` for SSU. -/
def addSSUAddress (c : Contents) (host : SSU.IPAddress) (port : UInt16) (key : List UInt8)
    (mtu : UInt16) : Contents :=
  { c with
    supportedTransports := c.supportedTransports ||| supportedTransport false host.isV4
    caps := c.caps ||| (capSSUTesting ||| capSSUIntroducer)
    addresses := c.addresses ++ [{ transport := .ssu, host, port, mtu, cost := 5, key }] }

/-- The loop that deletes the introducers. -/
def clearIntroducers (c : Contents) : Contents :=
  { c with addresses := c.addresses.map fun address => { address with introducers := [] } }

/-- `RemoveTransport`. -/
def removeTransport (c : Contents) (transport : Transport) : Contents :=
  let c := { c with addresses := c.addresses.eraseP (·.transport = transport) }
  if transport = .ssu then c.setCapBits (c.caps &&& ~~~capSSUTesting &&& ~~~capSSUIntroducer) else c

/-- The loop of `UpdateAddress`: whether a host was new, and the members. -/
def setHosts (c : Contents) (newHost : SSU.IPAddress) : Bool × Contents :=
  let isOld (address : Address) : Bool :=
    address.host ≠ newHost ∧ address.host.isV4 = newHost.isV4
  let addresses := c.addresses.map fun address =>
    if isOld address then { address with host := newHost } else address
  (c.addresses.any isOld, { c with addresses })

/-- The address is an NTCP address for IPv6. -/
def isNTCPV6 (address : Address) : Bool := !address.host.isV4 ∧ address.transport = .ntcp

/-- `UpdateNTCPV6Address`, but for `UpdateRouterInfo`: whether something was updated, and the
members. -/
def setNTCPV6Host (c : Contents) (host : SSU.IPAddress) (identHash : List UInt8) (mtu : UInt16) :
    Bool × Contents :=
  if c.addresses.any isNTCPV6 then
    let addresses := c.addresses.map fun address =>
      if isNTCPV6 address then { address with host } else address
    (c.addresses.any fun address => isNTCPV6 address ∧ address.host ≠ host, { c with addresses })
  else
    -- the loop has assigned the port of every address, the last one at the end
    let port := (c.addresses.getLast?.map (·.port)).getD 0
    (true, (c.addNTCPAddress host port).addSSUAddress host port identHash mtu)

/-! ## Introducers -/

/-- The address has introducers: it is an SSU address for IPv4. -/
def isIntroduced (address : Address) : Bool := address.transport = .ssu ∧ address.host.isV4

/-- The loop of `AddIntroducer` over the addresses; `none` if it returns `false`. -/
def addIntroducerTo (other : Address) (tag : UInt32) : List Address → Option (List Address)
  | [] => none
  | address :: addresses =>
    if isIntroduced address then
      -- already presented
      if address.introducers.any (·.tag = tag) then none
      else
        let introducer : Introducer := { host := other.host, port := other.port, key := other.key, tag }
        some ({ address with introducers := address.introducers ++ [introducer] } :: addresses)
    else (addIntroducerTo other tag addresses).map (address :: ·)

/-- `AddIntroducer`; `none` if it returns `false`. -/
def addIntroducer (c : Contents) (other : Address) (tag : UInt32) : Option Contents :=
  (addIntroducerTo other tag c.addresses).map fun addresses => { c with addresses }

/-- The loop of `RemoveIntroducer` over the addresses; `none` if it returns `false`. -/
def removeIntroducerFrom (host : SSU.IPAddress) (port : UInt16) :
    List Address → Option (List Address)
  | [] => none
  | address :: addresses =>
    let isEndpoint (introducer : Introducer) : Bool :=
      introducer.host = host ∧ introducer.port = port
    if isIntroduced address ∧ address.introducers.any isEndpoint then
      some ({ address with introducers := address.introducers.eraseP isEndpoint } :: addresses)
    else (removeIntroducerFrom host port addresses).map (address :: ·)

/-- `RemoveIntroducer`; `none` if it returns `false`. -/
def removeIntroducer (c : Contents) (host : SSU.IPAddress) (port : UInt16) : Option Contents :=
  (removeIntroducerFrom host port c.addresses).map fun addresses => { c with addresses }

/-! ## Reachability -/

/-- `SetUnreachable`, but for `UpdateRouterInfo`. -/
def setUnreachable (c : Contents) : Contents :=
  ((c.setCapBits (capUnreachable ||| capSSUTesting)).removeTransport .ntcp).clearIntroducers

/-- The capabilities that `SetReachable` sets. -/
def reachableCaps (c : Contents) (isFloodfill : Bool) : UInt8 :=
  (c.caps &&& ~~~capUnreachable ||| capReachable ||| capSSUIntroducer) |||
    (if isFloodfill then capFloodfill else 0)

/-- `SetReachable`. -/
def setReachable (c : Contents) (isFloodfill : Bool) : Contents :=
  let c := c.setCapBits (c.reachableCaps isFloodfill)
  -- the NTCP address gets the host and the port of the first SSU address
  match c.addresses.find? (·.transport = .ssu) with
  | some address => (c.addNTCPAddress address.host address.port).clearIntroducers
  | none => c.clearIntroducers

end Contents

/-! ## The context -/

/-- What is the same in every call. -/
structure ContextEnv extends WriteEnv where
  /-- `m_Keys.GetPublic()`. -/
  identity : IdentityEx
  /-- `GetIdentHash`. -/
  identHash : List UInt8
  /-- `IsFloodfill`, an option of the program. -/
  isFloodfill : Bool

/-- `RouterContext`. -/
structure RouterContext where
  /-- The members of `m_RouterInfo`. -/
  contents : Contents
  /-- The bytes in the buffer of `m_RouterInfo` that are signed. -/
  signed : List UInt8 := []
  /-- `m_LastUpdateTime`. -/
  lastUpdateTime : UInt64 := 0

/-- What a call of `UpdateRouterInfo` meets. -/
structure Update where
  /-- `GetMillisecondsSinceEpoch`. -/
  milliseconds : UInt64
  /-- `GetSecondsSinceEpoch`. -/
  seconds : UInt64
  /-- `SaveToFile` does not throw. -/
  saves : Bool := true

/-- Why a call throws. -/
inductive ContextFailure
  | create (e : Failure)
  | save
  | addressSize
  deriving DecidableEq

namespace RouterContext

variable (env : ContextEnv)

/-- `CreateBuffer`. -/
def createBuffer (now : UInt64) (s : RouterContext) : Except Failure Unit × RouterContext :=
  match createRouterInfo env.toWriteEnv env.identity now s.contents with
  | .error e =>
    -- the timestamp is set once the identity has been written
    let isSet := 1024 < env.identity.toBuffer.length
    (.error e, if isSet then s else { s with contents.timestamp := now })
  | .ok (contents, bytes) =>
    if maxBuffer < bytes.length then
      (.error (.lengthError "created RI is too big"), { s with contents })
    else (.ok (), { s with contents, signed := bytes })

/-- `UpdateRouterInfo`. -/
def updateRouterInfo (u : Update) (s : RouterContext) :
    Except ContextFailure Unit × RouterContext :=
  match createBuffer env u.milliseconds s with
  | (.error e, s) => (.error (.create e), s)
  | (.ok _, s) =>
    if u.saves then (.ok (), { s with lastUpdateTime := u.seconds }) else (.error .save, s)

/-- `UpdateRouterInfo`, behind edits of the members that may call for it. -/
def updateIf (u : Update) (s : RouterContext) (edited : Bool × Contents) :
    Except ContextFailure Unit × RouterContext :=
  let s := { s with contents := edited.2 }
  if edited.1 then updateRouterInfo env u s else (.ok (), s)

/-- `SetReachable`. -/
def setReachable (s : RouterContext) : RouterContext :=
  { s with contents := s.contents.setReachable env.isFloodfill }

/-- `SetUnreachable`. -/
def setUnreachable (u : Update) (s : RouterContext) : Except ContextFailure Unit × RouterContext :=
  updateRouterInfo env u { s with contents := s.contents.setUnreachable }

/-- `UpdateAddress`, at a time in seconds. The port is only logged. -/
def updateAddress (host : List UInt8) (timestamp : UInt64) (u : Update) (s : RouterContext) :
    Except ContextFailure Unit × RouterContext :=
  match SSU.IPAddress.ofBytes? host with
  | none => (.error .addressSize, s)
  | some newHost =>
    let (updated, contents) := s.contents.setHosts newHost
    updateIf env u s (updated || timestamp > s.lastUpdateTime + 1800, contents)

/-- `UpdateNTCPV6Address`; `GetMTU` finds `mtu`. -/
def updateNTCPV6Address (host : SSU.IPAddress) (mtu : UInt16) (u : Update) (s : RouterContext) :
    Except ContextFailure Unit × RouterContext :=
  updateIf env u s (s.contents.setNTCPV6Host host env.identHash mtu)

/-- `AddIntroducer`. -/
def addIntroducer (routerInfo : Contents) (tag : UInt32) (u : Update) (s : RouterContext) :
    Except ContextFailure Unit × RouterContext :=
  match getSSUAddress routerInfo false with
  | none => (.ok (), s)
  | some address =>
    match s.contents.addIntroducer address tag with
    | none => (.ok (), s)
    | some contents => updateRouterInfo env u { s with contents }

/-- `RemoveIntroducer`. -/
def removeIntroducer (host : SSU.IPAddress) (port : UInt16) (u : Update) (s : RouterContext) :
    Except ContextFailure Unit × RouterContext :=
  match s.contents.removeIntroducer host port with
  | none => (.ok (), s)
  | some contents => updateRouterInfo env u { s with contents }

end RouterContext

/-- A call of a function of `RouterContext`. -/
inductive ContextCall
  | setReachable
  | setUnreachable (u : Update)
  | updateAddress (host : List UInt8) (timestamp : UInt64) (u : Update)
  | updateNTCPV6Address (host : SSU.IPAddress) (mtu : UInt16) (u : Update)
  | addIntroducer (routerInfo : Contents) (tag : UInt32) (u : Update)
  | removeIntroducer (host : SSU.IPAddress) (port : UInt16) (u : Update)

/-- The context behind a call. -/
def RouterContext.call (env : ContextEnv) (s : RouterContext) : ContextCall → RouterContext
  | .setReachable => s.setReachable env
  | .setUnreachable u => (s.setUnreachable env u).2
  | .updateAddress host timestamp u => (s.updateAddress env host timestamp u).2
  | .updateNTCPV6Address host mtu u => (s.updateNTCPV6Address env host mtu u).2
  | .addIntroducer routerInfo tag u => (s.addIntroducer env routerInfo tag u).2
  | .removeIntroducer host port u => (s.removeIntroducer env host port u).2

end Router
