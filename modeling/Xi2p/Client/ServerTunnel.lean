import Xi2p.I2NP
import Mathlib.Data.Finset.Image

/-!
# Server tunnels

`I2PServerTunnel` of `client/tunnel.cc`, and how `ClientContext` adds one and updates it. A server tunnel
has a streaming destination of its own, which its local destination finds by a port. A streaming destination
is a number here, its place among those that the local destination has made.

* `createServerTunnel`, `start`, `updateServerTunnel`, `enforceACL`.
* `reconfigured_iff_alike`: when an update leads to what a new tunnel would be.
-/

namespace Client

open I2NP

/-! ## Attributes -/

/-- `ACL`. -/
structure ACL where
  /-- Names in base 32, with commas between them. -/
  list : List UInt8 := []
  isWhite : Bool := false
  isBlack : Bool := false
  deriving DecidableEq

/-- `TunnelAttributes`. -/
structure TunnelAttributes where
  name : List UInt8 := []
  dest : List UInt8 := []
  address : List UInt8 := []
  /-- The name of the file with the keys. -/
  keys : List UInt8 := []
  port : UInt16 := 0
  destPort : UInt16 := 0
  inPort : UInt16 := 0
  acl : ACL := {}
  deriving DecidableEq

namespace ServerTunnels

/-- Why keys cannot be loaded. -/
inductive KeysError
  /-- A `std::ios_base::failure`. -/
  | failure
  | other
  deriving DecidableEq

/-- What the context finds outside, with addresses of type `A`. -/
structure Outside (A : Type) where
  /-- `boost::asio::ip::address::from_string`, or none if it gives an error. -/
  fromString : List UInt8 → Option A
  /-- The address of an endpoint that has not been set. -/
  unspecified : A
  /-- What the decoder for base 32 makes of a text. -/
  decode : List UInt8 → List UInt8
  /-- `LoadPrivateKeys`, as far as the identity goes. -/
  loadPrivateKeys : List UInt8 → Except KeysError IdentHash

/-! ## Access control -/

/-- `Base32::Decode`, or none if it throws. -/
def base32Decode (decode : List UInt8 → List UInt8) (encoded : List UInt8) : Option (List UInt8) :=
  if encoded = [] ∨ decode encoded = [] then none else some (decode encoded)

theorem length_tagOf (bytes : List UInt8) : ((bytes ++ List.replicate 32 0).take 32).length = 32 := by
  simp

/-- A tag with these bytes in front. -/
def tagOf (bytes : List UInt8) : IdentHash :=
  ⟨(bytes ++ List.replicate 32 0).take 32, length_tagOf bytes⟩

/-- `Tag::FromBase32` of a new tag, or none if it throws. -/
def fromBase32 (decode : List UInt8 → List UInt8) (encoded : List UInt8) : Option IdentHash :=
  match base32Decode decode encoded with
  | none => none
  | some decoded => if 32 < decoded.length then none else some (tagOf decoded)

/-- `ParseACL`. -/
def parseACL (decode : List UInt8 → List UInt8) (list : List UInt8) : Finset IdentHash :=
  ((list.splitOn 44).filterMap (fromBase32 decode)).toFinset

/-! ## Streaming destinations -/

/-- `StreamingDestination`, as far as a tunnel uses it. -/
structure StreamingDestination where
  /-- `m_LocalPort`. -/
  localPort : UInt16 := 0
  /-- `IsAcceptorSet`. -/
  acceptorSet : Bool := false
  deriving DecidableEq

/-- The streaming destinations of a `ClientDestination`. -/
structure StreamingPorts where
  /-- All that have been made. -/
  made : List StreamingDestination
  /-- `m_StreamingDestination`. -/
  streamingDestination : ℕ
  /-- `m_StreamingDestinationsByPorts`. -/
  byPorts : UInt16 → Option ℕ
  streamingDestination_lt : streamingDestination < made.length
  byPorts_lt : ∀ port i, byPorts port = some i → i < made.length

namespace StreamingPorts

theorem none_lt (made : List StreamingDestination) :
    ∀ (_ : UInt16) (i : ℕ), none = some i → i < made.length := by
  intro port i hi
  cases hi

/-- The streaming destination that the constructor of `ClientDestination` makes. -/
def new : StreamingPorts where
  made := [{}]
  streamingDestination := 0
  byPorts _ := none
  streamingDestination_lt := Nat.one_pos
  byPorts_lt := none_lt [{}]

/-- `GetStreamingDestination`. -/
def getStreamingDestination (d : StreamingPorts) (port : UInt16) : ℕ :=
  if port ≠ 0 then (d.byPorts port).getD d.streamingDestination else d.streamingDestination

theorem byPorts_update_lt (d : StreamingPorts) (port : UInt16) (s : StreamingDestination) :
    ∀ p i, Function.update d.byPorts port (some d.made.length) p = some i → i < (d.made ++ [s]).length := by
  intro p i hi
  rw [List.length_append, List.length_singleton]
  by_cases hp : p = port
  · subst hp
    rw [Function.update_self, Option.some.injEq] at hi
    omega
  · rw [Function.update_of_ne hp] at hi
    have := d.byPorts_lt p i hi
    omega

theorem byPorts_append_lt (d : StreamingPorts) (s : StreamingDestination) :
    ∀ p i, d.byPorts p = some i → i < (d.made ++ [s]).length := by
  intro p i hi
  rw [List.length_append]
  exact Nat.lt_add_right _ (d.byPorts_lt p i hi)

theorem streamingDestination_append_lt (d : StreamingPorts) (s : StreamingDestination) :
    d.streamingDestination < (d.made ++ [s]).length := by
  rw [List.length_append]
  exact Nat.lt_add_right _ d.streamingDestination_lt

theorem length_lt_append (d : StreamingPorts) (s : StreamingDestination) :
    d.made.length < (d.made ++ [s]).length := by
  rw [List.length_append]
  exact Nat.lt_succ_self _

theorem byPorts_modify_lt (d : StreamingPorts) (i : ℕ) (f : StreamingDestination → StreamingDestination) :
    ∀ p j, d.byPorts p = some j → j < (d.made.modify i f).length := by
  simpa only [List.length_modify] using d.byPorts_lt

theorem streamingDestination_modify_lt (d : StreamingPorts) (i : ℕ)
    (f : StreamingDestination → StreamingDestination) :
    d.streamingDestination < (d.made.modify i f).length := by
  rw [List.length_modify]
  exact d.streamingDestination_lt

/-- `CreateStreamingDestination`. The new one is `d.made.length`. -/
def createStreamingDestination (d : StreamingPorts) (port : UInt16) : StreamingPorts :=
  if port ≠ 0 then
    { made := d.made ++ [{ localPort := port }]
      streamingDestination := d.streamingDestination
      byPorts := Function.update d.byPorts port (some d.made.length)
      streamingDestination_lt := d.streamingDestination_append_lt _
      byPorts_lt := d.byPorts_update_lt port _ }
  else
    { made := d.made ++ [{ localPort := port }]
      streamingDestination := d.made.length
      byPorts := d.byPorts
      streamingDestination_lt := d.length_lt_append _
      byPorts_lt := d.byPorts_append_lt _ }

/-- A change of one streaming destination. -/
def modify (d : StreamingPorts) (i : ℕ) (f : StreamingDestination → StreamingDestination) :
    StreamingPorts where
  made := d.made.modify i f
  streamingDestination := d.streamingDestination
  byPorts := d.byPorts
  streamingDestination_lt := d.streamingDestination_modify_lt i f
  byPorts_lt := d.byPorts_modify_lt i f

/-- `UpdateLocalPort`. -/
def updateLocalPort (d : StreamingPorts) (i : ℕ) (port : UInt16) : StreamingPorts :=
  d.modify i fun s => { s with localPort := port }

/-- `SetAcceptor`. -/
def setAcceptor (d : StreamingPorts) (i : ℕ) : StreamingPorts :=
  d.modify i fun s => { s with acceptorSet := true }

/-- `IsAcceptingStreams`. -/
def isAcceptingStreams (d : StreamingPorts) : Bool :=
  (d.made.get ⟨d.streamingDestination, d.streamingDestination_lt⟩).acceptorSet

/-- `AcceptStreams`. -/
def acceptStreams (d : StreamingPorts) : StreamingPorts := d.setAcceptor d.streamingDestination

end StreamingPorts

/-! ## Tunnels -/

/-- `boost::asio::ip::tcp::endpoint`. -/
structure Endpoint (A : Type) where
  address : A
  port : UInt16 := 0
  deriving DecidableEq

/-- `I2PServerTunnel`. -/
@[ext]
structure ServerTunnel (A : Type) where
  attributes : TunnelAttributes
  endpoint : Endpoint A
  /-- `m_PortDestination`. -/
  portDestination : ℕ
  acl : Finset IdentHash := ∅

/-- A tunnel with the streaming destinations of its local destination. -/
structure Server (A : Type) where
  tunnel : ServerTunnel A
  destination : StreamingPorts

variable {A : Type}

/-- `SetACL`. -/
def ServerTunnel.setACL (t : ServerTunnel A) (outside : Outside A) : ServerTunnel A :=
  if t.attributes.acl.list = [] then t
  else { t with acl := parseACL outside.decode t.attributes.acl.list }

/-- `EnforceACL`, for the identity of the remote. -/
def ServerTunnel.enforceACL (t : ServerTunnel A) (ident : IdentHash) : Bool :=
  if t.acl = ∅ then true
  else if t.attributes.acl.isWhite then decide (ident ∈ t.acl)
  else if t.attributes.acl.isBlack then decide (ident ∉ t.acl)
  else false

/-- The port under which a streaming destination is made. -/
def streamingPort (tunnel : TunnelAttributes) : UInt16 :=
  if tunnel.inPort ≠ 0 then tunnel.inPort else tunnel.port

namespace Server

/-- The constructor. -/
def create (outside : Outside A) (d : StreamingPorts) (tunnel : TunnelAttributes) : Server A where
  tunnel := ServerTunnel.setACL
    { attributes := tunnel
      endpoint := { address := outside.unspecified }
      portDestination := d.made.length } outside
  destination := d.createStreamingDestination (streamingPort tunnel)

/-- `Accept`. -/
def accept (s : Server A) : Server A :=
  let d := s.destination.setAcceptor s.tunnel.portDestination
  { s with destination := if d.isAcceptingStreams then d else d.acceptStreams }

/-- `Start`. A name that is not an address is resolved later, and streams are accepted then. -/
def start (outside : Outside A) (s : Server A) : Server A :=
  let port := s.tunnel.attributes.port
  match outside.fromString s.tunnel.attributes.address with
  | some address => accept { s with tunnel.endpoint := { address, port } }
  | none => { s with tunnel.endpoint.port := port }

/-- `UpdateServerTunnel`. A name that is not an address is resolved later. -/
def updateServerTunnel (outside : Outside A) (s : Server A) (tunnel : TunnelAttributes) : Server A :=
  let t := { s.tunnel with attributes := tunnel }
  let t :=
    match outside.fromString tunnel.address with
    | some address => { t with endpoint.address := address }
    | none => t
  { tunnel := t.setACL outside
    destination := s.destination.updateLocalPort s.tunnel.portDestination tunnel.inPort }

end Server

/-! ## The context -/

/-- `ClientContext`. -/
structure ClientContext (A : Type) where
  /-- `m_Destinations`. -/
  destinations : IdentHash → Option StreamingPorts := fun _ => none
  /-- `m_ServerTunnels`. -/
  serverTunnels : IdentHash → Option (ServerTunnel A) := fun _ => none

namespace ClientContext

/-- `LoadLocalDestination`. -/
def loadLocalDestination (outside : Outside A) (c : ClientContext A) (keys : List UInt8) :
    Except KeysError (IdentHash × StreamingPorts) := do
  let ident ← outside.loadPrivateKeys keys
  return (ident, (c.destinations ident).getD .new)

/-- A tunnel, and the streaming destinations of its local destination. -/
def put (c : ClientContext A) (ident : IdentHash) (s : Server A) : ClientContext A where
  destinations := Function.update c.destinations ident (some s.destination)
  serverTunnels := Function.update c.serverTunnels ident (some s.tunnel)

/-- The server under an identity. -/
def server (c : ClientContext A) (ident : IdentHash) : Option (Server A) :=
  match c.serverTunnels ident, c.destinations ident with
  | some tunnel, some destination => some { tunnel, destination }
  | _, _ => none

/-- `AddServerTunnel`. Where there is a tunnel already, only the streaming destination of the new one stays. -/
def addServerTunnel (outside : Outside A) (c : ClientContext A) (tunnel : TunnelAttributes) :
    Except KeysError (ClientContext A) := do
  let (ident, d) ← c.loadLocalDestination outside tunnel.keys
  let s := Server.create outside d tunnel
  match c.serverTunnels ident with
  | some t => return c.put ident { tunnel := t, destination := s.destination }
  | none => return c.put ident s

/-- The start of the tunnel under an identity. -/
def startServerTunnel (outside : Outside A) (c : ClientContext A) (ident : IdentHash) : ClientContext A :=
  match c.server ident with
  | some s => c.put ident (s.start outside)
  | none => c

/-- `UpdateServerTunnel`. -/
def updateServerTunnel (outside : Outside A) (c : ClientContext A) (tunnel : TunnelAttributes) :
    Except KeysError (ClientContext A) :=
  match outside.loadPrivateKeys tunnel.keys with
  | .error .failure => c.addServerTunnel outside tunnel
  | .error .other => .error .other
  | .ok ident =>
    match c.server ident with
    | none => c.addServerTunnel outside tunnel
    | some s => .ok (c.put ident ((s.updateServerTunnel outside tunnel).start outside))

end ClientContext

/-! ## Reconfiguration -/

/-- A new tunnel, and its start. -/
def ClientContext.createServerTunnel (outside : Outside A) (c : ClientContext A) (ident : IdentHash)
    (tunnel : TunnelAttributes) : Except KeysError (ClientContext A) := do
  let c ← c.addServerTunnel outside tunnel
  return c.startServerTunnel outside ident

/-- Two tunnels have the same endpoint, the same ports under which they are found, and the same access
control. -/
structure Alike (s s' : Server A) : Prop where
  endpoint : s.tunnel.endpoint = s'.tunnel.endpoint
  port : ∀ port, s.destination.getStreamingDestination port = s.tunnel.portDestination ↔
    s'.destination.getStreamingDestination port = s'.tunnel.portDestination
  acl : s.tunnel.acl = s'.tunnel.acl
  isWhite : s.tunnel.attributes.acl.isWhite = s'.tunnel.attributes.acl.isWhite
  isBlack : s.tunnel.attributes.acl.isBlack = s'.tunnel.attributes.acl.isBlack
  accepts : ∀ ident, s.tunnel.enforceACL ident = s'.tunnel.enforceACL ident

/-- A tunnel that has been made with `a` and updated with `b` is like one that has been made with `b`. -/
def ReconfiguredAlike (outside : Outside A) (c : ClientContext A) (a b : TunnelAttributes) : Prop :=
  ∃ ident c₁ c₂ c₃ s s', outside.loadPrivateKeys a.keys = .ok ident ∧
    c.createServerTunnel outside ident a = .ok c₁ ∧ c₁.updateServerTunnel outside b = .ok c₂ ∧
    c.createServerTunnel outside ident b = .ok c₃ ∧
    c₂.server ident = some s ∧ c₃.server ident = some s' ∧ Alike s s'

/-! ## Ports -/

namespace StreamingPorts

variable {d : StreamingPorts} {port : UInt16}

@[simp]
theorem getStreamingDestination_modify (i : ℕ) (f : StreamingDestination → StreamingDestination) :
    (d.modify i f).getStreamingDestination port = d.getStreamingDestination port := rfl

theorem getStreamingDestination_lt (d : StreamingPorts) (port : UInt16) :
    d.getStreamingDestination port < d.made.length := by
  unfold getStreamingDestination
  split_ifs
  · cases hi : d.byPorts port with
    | none => exact d.streamingDestination_lt
    | some i => exact d.byPorts_lt port i hi
  · exact d.streamingDestination_lt

/-- A streaming destination with a port is found under this port only. -/
theorem getStreamingDestination_create (hport : port ≠ 0) (q : UInt16) :
    (d.createStreamingDestination port).getStreamingDestination q = d.made.length ↔ q = port := by
  by_cases hq : q = port
  · subst hq
    simp [createStreamingDestination, getStreamingDestination, hport]
  · have hold : (d.createStreamingDestination port).getStreamingDestination q =
        d.getStreamingDestination q := by
      simp [createStreamingDestination, getStreamingDestination, hport, Function.update_of_ne hq]
    rw [hold]
    exact iff_of_false (d.getStreamingDestination_lt q).ne hq

/-- A streaming destination without a port is found under port zero. -/
theorem getStreamingDestination_create_zero :
    (d.createStreamingDestination 0).getStreamingDestination 0 = d.made.length := by
  simp [createStreamingDestination, getStreamingDestination]

/-- Two new streaming destinations are found under the same ports if and only if they have been made with the
same port. -/
theorem found_iff (d : StreamingPorts) (port port' : UInt16) :
    (∀ q, (d.createStreamingDestination port).getStreamingDestination q = d.made.length ↔
      (d.createStreamingDestination port').getStreamingDestination q = d.made.length) ↔ port = port' := by
  constructor
  · intro h
    by_cases hport : port = 0
    · subst hport
      by_contra hne
      exact hne ((getStreamingDestination_create (Ne.symm hne) 0).mp
        ((h 0).mp getStreamingDestination_create_zero))
    · by_cases hport' : port' = 0
      · subst hport'
        exact ((getStreamingDestination_create hport 0).mp
          ((h 0).mpr getStreamingDestination_create_zero)).symm
      · exact (getStreamingDestination_create hport' port).mp
          ((h port).mp ((getStreamingDestination_create hport port).mpr rfl))
  · rintro rfl q
    rfl

end StreamingPorts

/-! ## What is done to a tunnel -/

namespace ServerTunnel

variable (t : ServerTunnel A) (outside : Outside A)

@[simp]
theorem setACL_attributes : (t.setACL outside).attributes = t.attributes := by
  unfold setACL
  split_ifs <;> rfl

@[simp]
theorem setACL_endpoint : (t.setACL outside).endpoint = t.endpoint := by
  unfold setACL
  split_ifs <;> rfl

@[simp]
theorem setACL_portDestination : (t.setACL outside).portDestination = t.portDestination := by
  unfold setACL
  split_ifs <;> rfl

/-- An empty list leaves the access control as it is. -/
theorem setACL_acl : (t.setACL outside).acl =
    if t.attributes.acl.list = [] then t.acl else parseACL outside.decode t.attributes.acl.list := by
  unfold setACL
  split_ifs <;> rfl

end ServerTunnel

/-- The access control of a new tunnel. -/
def newACL (outside : Outside A) (tunnel : TunnelAttributes) : Finset IdentHash :=
  if tunnel.acl.list = [] then ∅ else parseACL outside.decode tunnel.acl.list

namespace Server

variable {s : Server A} {outside : Outside A} {d : StreamingPorts} {tunnel : TunnelAttributes} {address : A}

theorem start_tunnel (h : outside.fromString s.tunnel.attributes.address = some address) :
    (s.start outside).tunnel =
      { s.tunnel with endpoint := { address, port := s.tunnel.attributes.port } } := by
  simp [start, h, accept]

/-- A start leaves the ports of the streaming destinations as they are. -/
@[simp]
theorem getStreamingDestination_start (port : UInt16) :
    (s.start outside).destination.getStreamingDestination port =
      s.destination.getStreamingDestination port := by
  unfold start
  split
  · simp only [accept]
    split_ifs <;> rfl
  · rfl

/-- A new tunnel that has been started. -/
theorem created_tunnel (h : outside.fromString tunnel.address = some address) :
    ((create outside d tunnel).start outside).tunnel =
      { attributes := tunnel
        endpoint := { address, port := tunnel.port }
        portDestination := d.made.length
        acl := newACL outside tunnel } := by
  rw [start_tunnel (by simpa [create] using h)]
  ext1 <;> simp [create, ServerTunnel.setACL_acl, newACL]

/-- A tunnel that has been updated and started again keeps its streaming destination; without a list, it
keeps its access control too. -/
theorem updated_tunnel (h : outside.fromString tunnel.address = some address) :
    ((s.updateServerTunnel outside tunnel).start outside).tunnel =
      { attributes := tunnel
        endpoint := { address, port := tunnel.port }
        portDestination := s.tunnel.portDestination
        acl := if tunnel.acl.list = [] then s.tunnel.acl
          else parseACL outside.decode tunnel.acl.list } := by
  have hstart : outside.fromString (s.updateServerTunnel outside tunnel).tunnel.attributes.address =
      some address := by
    simp [updateServerTunnel, h]
  rw [start_tunnel hstart]
  ext1 <;> simp [updateServerTunnel, h, ServerTunnel.setACL_acl]

end Server

namespace ClientContext

variable {c : ClientContext A} {outside : Outside A} {ident : IdentHash} {s s' : Server A}
  {tunnel : TunnelAttributes}

@[simp]
theorem server_put : (c.put ident s).server ident = some s := by
  simp [server, put]

@[simp]
theorem put_put : (c.put ident s).put ident s' = c.put ident s' := by
  simp [put]

theorem createServerTunnel_eq (hload : outside.loadPrivateKeys tunnel.keys = .ok ident)
    (hnew : c.serverTunnels ident = none) :
    c.createServerTunnel outside ident tunnel =
      .ok (c.put ident
        ((Server.create outside ((c.destinations ident).getD .new) tunnel).start outside)) := by
  have hadd : c.addServerTunnel outside tunnel =
      .ok (c.put ident (Server.create outside ((c.destinations ident).getD .new) tunnel)) := by
    rw [addServerTunnel, loadLocalDestination, hload]
    change (match c.serverTunnels ident with | some t => _ | none => _) = _
    rw [hnew]
    rfl
  rw [createServerTunnel, hadd]
  change Except.ok (startServerTunnel outside _ ident) = _
  rw [startServerTunnel, server_put]
  exact congrArg Except.ok put_put

theorem updateServerTunnel_eq (hload : outside.loadPrivateKeys tunnel.keys = .ok ident) :
    (c.put ident s).updateServerTunnel outside tunnel =
      .ok (c.put ident ((s.updateServerTunnel outside tunnel).start outside)) := by
  rw [updateServerTunnel, hload]
  simp

end ClientContext

/-- The tunnels that are compared. -/
theorem reconfiguredAlike_iff_alike {outside : Outside A} {c : ClientContext A} {a b : TunnelAttributes}
    {ident : IdentHash} (hload : outside.loadPrivateKeys a.keys = .ok ident)
    (hnew : c.serverTunnels ident = none) (hkeys : b.keys = a.keys) :
    ReconfiguredAlike outside c a b ↔
      Alike
        ((((Server.create outside ((c.destinations ident).getD .new) a).start outside).updateServerTunnel
          outside b).start outside)
        ((Server.create outside ((c.destinations ident).getD .new) b).start outside) := by
  have hload' : outside.loadPrivateKeys b.keys = .ok ident := by rw [hkeys, hload]
  constructor
  · rintro ⟨ident', c₁, c₂, c₃, s, s', hident, h₁, h₂, h₃, hs, hs', halike⟩
    obtain rfl : ident = ident' := Except.ok.inj (hload.symm.trans hident)
    rw [ClientContext.createServerTunnel_eq hload hnew] at h₁
    obtain rfl := Except.ok.inj h₁
    rw [ClientContext.updateServerTunnel_eq hload'] at h₂
    obtain rfl := Except.ok.inj h₂
    rw [ClientContext.createServerTunnel_eq hload' hnew] at h₃
    obtain rfl := Except.ok.inj h₃
    rw [ClientContext.server_put, Option.some.injEq] at hs hs'
    rw [hs, hs']
    exact halike
  · intro halike
    exact ⟨ident, _, _, _, _, _, hload, ClientContext.createServerTunnel_eq hload hnew,
      ClientContext.updateServerTunnel_eq hload', ClientContext.createServerTunnel_eq hload' hnew,
      ClientContext.server_put, ClientContext.server_put, halike⟩

/-- A tunnel that has been updated is like a new one if and only if it is found under the same port and its
access control is what the new one would have. -/
theorem alike_iff {outside : Outside A} {d : StreamingPorts} {a b : TunnelAttributes}
    (ha : (outside.fromString a.address).isSome) (hb : (outside.fromString b.address).isSome) :
    Alike (((((Server.create outside d a).start outside).updateServerTunnel outside b)).start outside)
        ((Server.create outside d b).start outside) ↔
      streamingPort a = streamingPort b ∧ (b.acl.list = [] → newACL outside a = ∅) := by
  obtain ⟨address, ha⟩ := Option.isSome_iff_exists.mp ha
  obtain ⟨address', hb⟩ := Option.isSome_iff_exists.mp hb
  set s := (Server.create outside d a).start outside with hs
  have htunnel : s.tunnel = _ := Server.created_tunnel ha
  have hupdated := Server.updated_tunnel (s := s) hb
  have hcreated := Server.created_tunnel (d := d) hb
  have hfound (port : UInt16) :
      ((s.updateServerTunnel outside b).start outside).destination.getStreamingDestination port =
        (d.createStreamingDestination (streamingPort a)).getStreamingDestination port := by
    rw [Server.getStreamingDestination_start]
    change (s.destination.updateLocalPort _ _).getStreamingDestination port = _
    rw [StreamingPorts.updateLocalPort, StreamingPorts.getStreamingDestination_modify, hs,
      Server.getStreamingDestination_start]
    rfl
  have hfound' (port : UInt16) :
      ((Server.create outside d b).start outside).destination.getStreamingDestination port =
        (d.createStreamingDestination (streamingPort b)).getStreamingDestination port :=
    Server.getStreamingDestination_start port
  constructor
  · intro h
    refine ⟨(d.found_iff _ _).mp fun q => ?_, fun hlist => ?_⟩
    · have hq := h.port q
      rwa [hfound, hfound', hupdated, hcreated, htunnel] at hq
    · have hacl := h.acl
      rw [hupdated, hcreated, htunnel] at hacl
      simpa [hlist, newACL] using hacl
  · rintro ⟨hport, hacl⟩
    have htunnels : ((s.updateServerTunnel outside b).start outside).tunnel =
        ((Server.create outside d b).start outside).tunnel := by
      rw [hupdated, hcreated, htunnel]
      ext1 <;> try rfl
      by_cases hlist : b.acl.list = []
      · have hnew : newACL outside b = ∅ := if_pos hlist
        simp [hlist, hacl hlist, hnew]
      · simp [hlist, newACL]
    refine ⟨by rw [htunnels], fun q => ?_, by rw [htunnels], by rw [htunnels], by rw [htunnels],
      fun ident => by rw [htunnels]⟩
    rw [hfound, hfound', htunnels, hport]

/-- An update keeps the port under which the tunnel has been made, and where the new attributes have no list,
its access control. -/
theorem reconfiguredAlike_iff (outside : Outside A) (c : ClientContext A) (a b : TunnelAttributes)
    {ident : IdentHash} (hload : outside.loadPrivateKeys a.keys = .ok ident)
    (hnew : c.serverTunnels ident = none) (hkeys : b.keys = a.keys)
    (ha : (outside.fromString a.address).isSome) (hb : (outside.fromString b.address).isSome) :
    ReconfiguredAlike outside c a b ↔
      streamingPort a = streamingPort b ∧
        (b.acl.list ≠ [] ∨ a.acl.list = [] ∨ parseACL outside.decode a.acl.list = ∅) := by
  rw [reconfiguredAlike_iff_alike hload hnew hkeys, alike_iff ha hb]
  refine and_congr_right fun _ => ?_
  rw [imp_iff_not_or]
  refine or_congr_right ?_
  rw [newACL]
  split_ifs with hlist
  · simp [hlist]
  · simp [hlist]

/-! ## A whitelist that is removed -/

/-- A context that knows one address and one name in base 32. -/
def exampleOutside : Outside UInt32 where
  fromString s := if s = [49, 50, 55, 46, 48, 46, 48, 46, 49] then some 0x7f000001 else none
  unspecified := 0
  decode s := if s = List.replicate 8 97 then List.replicate 5 0 else []
  loadPrivateKeys _ := .ok IdentHash.zero

/-- A tunnel to 127.0.0.1 with a whitelist. -/
def whitelisted : TunnelAttributes where
  address := [49, 50, 55, 46, 48, 46, 48, 46, 49]
  port := 80
  acl := { list := List.replicate 8 97, isWhite := true }

/-- The tunnel without the whitelist. -/
def withoutWhitelist : TunnelAttributes := { whitelisted with acl := {} }

/-- An update with the same attributes. -/
theorem sameAttributes : ReconfiguredAlike exampleOutside {} whitelisted whitelisted :=
  (reconfiguredAlike_iff exampleOutside {} whitelisted whitelisted rfl rfl rfl rfl rfl).mpr
    ⟨rfl, .inl (by decide)⟩

/-- An update that removes the whitelist leaves it in force. -/
theorem removedWhitelist : ¬ ReconfiguredAlike exampleOutside {} whitelisted withoutWhitelist := by
  have hload : exampleOutside.loadPrivateKeys whitelisted.keys = .ok IdentHash.zero := rfl
  have hkeys : withoutWhitelist.keys = whitelisted.keys := rfl
  rw [reconfiguredAlike_iff_alike hload rfl hkeys, alike_iff rfl rfl]
  rintro ⟨-, hacl⟩
  exact absurd (hacl rfl) (by decide)

end ServerTunnels

end Client
