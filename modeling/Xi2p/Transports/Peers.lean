import Xi2p.Router.RouterInfo
import Xi2p.Lib.Runs

/-!
# Peers of the transports

The functions of `core/router/transports/impl.cc` that change `m_Peers`. Each of them concerns one
remote router, except for the clean-up, which does the same for all; so the state is that of a `Link`
for each router, and a step of `Transports` is a step of one link.

A link also keeps what has happened to it: the messages that were posted, numbered in this order, those
that were handed to a session, the entry of `m_Peers` that each delayed message was put in, the
sessions that are connected, and the transports on which connecting has failed since the entry was made.
-/

namespace Transports

open Bytes I2NP Router

/-! ## Addresses -/

/-- `GetAddress`: the first usable address of a transport. -/
def getAddress (c : Contents) (transport : Transport) (hasV6 : Bool) : Option Address :=
  c.addresses.find? fun address =>
    address.transport = transport ∧ (address.host.isV4 ∨ hasV6 ∧ !address.host.isV4)

/-- `GetNTCPAddress`. -/
def getNTCPAddress (c : Contents) (hasV6 : Bool) : Option Address := getAddress c .ntcp hasV6

/-- `GetSSUAddress`. -/
def getSSUAddress (c : Contents) (hasV6 : Bool) : Option Address := getAddress c .ssu hasV6

/-! ## Peers -/

/-- `Peer`. -/
structure Peer where
  /-- `num_attempts`. -/
  numAttempts : ℕ := 0
  /-- `router`: the number of the router info, if there is one. -/
  router : Option ℕ
  sessions : List ℕ := []
  /-- `creation_time`, in seconds. -/
  creationTime : UInt64
  /-- `delayed_messages`. -/
  delayedMessages : List ℕ := []
  /-- The number of the entry of `m_Peers`. -/
  entry : ℕ

/-- What `Transports` finds outside. -/
structure Env where
  /-- The router infos, by their numbers. -/
  routers : ℕ → Contents
  /-- `netdb.FindRouter`, for the remote router. -/
  findRouter : Option ℕ
  /-- `m_NTCPServer` is not null. -/
  hasNTCPServer : Bool
  /-- `m_SSUServer` is not null. -/
  hasSSUServer : Bool
  /-- `context.SupportsV6()`. -/
  supportsV6 : Bool
  /-- The SSU server has a session for an endpoint. -/
  hasSSUSession : SSU.IPAddress → UInt16 → Bool
  /-- A function that is called throws an exception. -/
  throws : Bool
  /-- The time, in seconds. -/
  ts : UInt64

/-- A remote router, as far as `m_Peers` is concerned. -/
structure Link where
  /-- The entry of `m_Peers`. -/
  peer : Option Peer := none
  /-- The number of entries so far. -/
  entries : ℕ := 0
  /-- The number of messages that have been posted. -/
  posted : ℕ := 0
  /-- The messages that have been handed to a session, with the session. -/
  handed : List (ℕ × ℕ) := []
  /-- The messages that have been delayed, with the entry. -/
  queued : List (ℕ × ℕ) := []
  /-- The sessions for which `PeerConnected` has run and `PeerDisconnected` has not. -/
  live : List ℕ := []
  /-- The transports on which connecting has failed since the entry was made. -/
  failures : List Transport := []

/-! ## Connecting -/

section Connect

variable (env : Env)

/-- `ConnectToPeerNTCP`: a session is made, or the address is being resolved. -/
def connectToPeerNTCP (c : Contents) : Bool :=
  env.hasNTCPServer &&
    match getNTCPAddress c env.supportsV6 with
    | none => false
    | some address =>
      if !address.host.isUnspecified then !c.usesIntroducer && !c.isUnreachable
      -- we don't have address, trying to resolve
      else address.address.length > 0

/-- `ConnectToPeerSSU`: `GetSession` has a session, or makes one, directly or through an introducer. -/
def connectToPeerSSU (c : Contents) : Bool :=
  env.hasSSUServer &&
    match getSSUAddress c env.supportsV6 with
    | none => false
    | some address =>
      env.hasSSUSession address.host address.port || !c.usesIntroducer ||
        address.introducers.length > 0

/-- The transport that `ConnectToPeer` tries, if any: the only one that we support, or else NTCP first
and SSU second. -/
def nextTransport (numAttempts : ℕ) : Option Transport :=
  if !env.hasNTCPServer ∧ env.hasSSUServer then some .ssu
  else if env.hasNTCPServer ∧ !env.hasSSUServer then some .ntcp
  else if numAttempts = 0 then some .ntcp
  else if numAttempts = 1 then some .ssu
  else none

/-- An attempt to connect on a transport. -/
def connectOn (c : Contents) : Option Transport → Bool
  | some .ntcp => connectToPeerNTCP env c
  | some .ssu => connectToPeerSSU env c
  | _ => false

end Connect

/-- How `ConnectToPeer` ends. -/
inductive Connect
  /-- It returns true. -/
  | started
  /-- It returns false, and the peer has been removed. -/
  | failed
  | threw

namespace Link

/-- A change of the peer. -/
def setPeer (l : Link) (peer : Peer) : Link := { l with peer := some peer }

/-- A new entry of `m_Peers`. -/
def insertPeer (l : Link) (peer : Peer) : Link :=
  { l with peer := some peer, entries := l.entries + 1, failures := [] }

/-- The removal of the peer, after connecting has failed on a transport. -/
def removePeer (l : Link) (transport : Option Transport) : Link :=
  { l with peer := none, failures := l.failures ++ transport.toList }

/-- `ConnectToPeer`. Without a router info, it is requested. -/
def connectToPeer (env : Env) (l : Link) (peer : Peer) : Link × Connect :=
  if env.throws then (l, .threw)
  else
    match peer.router with
    | none => (l, .started)
    | some r =>
      let transport := nextTransport env peer.numAttempts
      if connectOn env (env.routers r) transport then
        (l.setPeer { peer with numAttempts := peer.numAttempts + 1 }, .started)
      else (l.removePeer transport, .failed)

/-- The end of `PostMessages`: the first session gets the messages, or they are delayed. -/
def deliver (l : Link) (peer : Peer) (msgs : List ℕ) : Link :=
  match peer.sessions with
  | session :: _ => { l with handed := l.handed ++ msgs.map (·, session) }
  | [] =>
    { l with
      peer := some { peer with delayedMessages := peer.delayedMessages ++ msgs }
      queued := l.queued ++ msgs.map (·, peer.entry) }

/-- A new peer that messages are posted to. -/
def newPeer (env : Env) (l : Link) : Peer :=
  { router := env.findRouter, creationTime := env.ts, entry := l.entries }

/-- `PostMessages`, to another router. -/
def postMessages (env : Env) (l : Link) (count : ℕ) : Link :=
  let msgs := List.range' l.posted count
  let l :=
    match l.peer with
    | some peer => l.deliver peer msgs
    | none =>
      match (l.insertPeer (l.newPeer env)).connectToPeer env (l.newPeer env) with
      | (l, .started) =>
        match l.peer with
        | some peer => l.deliver peer msgs
        | none => l
      | (l, _) => l
  { l with posted := l.posted + count }

/-- `HandleRequestComplete`. -/
def handleRequestComplete (env : Env) (l : Link) (router : Option ℕ) : Link :=
  match l.peer with
  | none => l
  | some peer =>
    match router with
    | some r =>
      let peer := { peer with router := some r }
      ((l.setPeer peer).connectToPeer env peer).1
    | none => l.removePeer none

/-- The name was resolved, and there is an NTCP address for the session. -/
def resolved (env : Env) (peer : Peer) (ok : Bool) : Bool :=
  ok && match peer.router with
    | some r => (getNTCPAddress (env.routers r) false).isSome
    | none => false

/-- `HandleNTCPResolve`. -/
def handleNTCPResolve (env : Env) (l : Link) (ok : Bool) : Link :=
  match l.peer with
  | none => l
  | some peer => if resolved env peer ok then l else l.removePeer (some .ntcp)

/-- `PeerConnected`. -/
def peerConnected (l : Link) (ts : UInt64) (session : ℕ) : Link :=
  let l := { l with live := l.live.insert session }
  match l.peer with
  | some peer =>
    { l.setPeer { peer with sessions := peer.sessions ++ [session], delayedMessages := [] } with
      handed := l.handed ++ peer.delayedMessages.map (·, session) }
  -- incoming connection
  | none =>
    l.insertPeer
      { router := none, sessions := [session], creationTime := ts, entry := l.entries }

/-- `PeerDisconnected`. A session that was not connected has failed. -/
def peerDisconnected (env : Env) (l : Link) (transport : Transport) (session : ℕ) : Link :=
  let failures := if session ∈ l.live then l.failures else l.failures ++ [transport]
  let l := { l with live := l.live.filter (· ≠ session), failures }
  match l.peer with
  | none => l
  | some peer =>
    let peer := { peer with sessions := peer.sessions.filter (· ≠ session) }
    if peer.sessions = [] then
      if peer.delayedMessages ≠ [] then ((l.setPeer peer).connectToPeer env peer).1
      else l.removePeer none
    else l.setPeer peer

/-- `SESSION_CREATION_TIMEOUT`, in seconds. -/
abbrev sessionCreationTimeout : UInt64 := 10

/-- `HandlePeerCleanupTimer`. -/
def handlePeerCleanupTimer (l : Link) (ts : UInt64) : Link :=
  match l.peer with
  | none => l
  | some peer =>
    if peer.sessions = [] ∧ ts > peer.creationTime + sessionCreationTimeout then l.removePeer none
    else l

/-- A call for one remote router. -/
inductive Op
  | postMessages (env : Env) (count : ℕ)
  | handleRequestComplete (env : Env) (router : Option ℕ)
  | handleNTCPResolve (env : Env) (ok : Bool)
  | peerConnected (ts : UInt64) (session : ℕ)
  | peerDisconnected (env : Env) (transport : Transport) (session : ℕ)
  | handlePeerCleanupTimer (ts : UInt64)

/-- One call. -/
def step (l : Link) : Op → Link
  | .postMessages env count => l.postMessages env count
  | .handleRequestComplete env router => l.handleRequestComplete env router
  | .handleNTCPResolve env ok => l.handleNTCPResolve env ok
  | .peerConnected ts session => l.peerConnected ts session
  | .peerDisconnected env transport session => l.peerDisconnected env transport session
  | .handlePeerCleanupTimer ts => l.handlePeerCleanupTimer ts

/-- What `ConnectToPeer` can do with a peer. -/
theorem connectToPeer_cases (env : Env) (l : Link) (peer : Peer) :
    (l.connectToPeer env peer).1 = l ∨
      (∃ numAttempts, (l.connectToPeer env peer).1 = l.setPeer { peer with numAttempts }) ∨
      ∃ transport, (l.connectToPeer env peer).1 = l.removePeer transport := by
  unfold connectToPeer
  split
  · exact .inl rfl
  · split
    · exact .inl rfl
    · simp only
      split
      · exact .inr (.inl ⟨_, rfl⟩)
      · exact .inr (.inr ⟨_, rfl⟩)

/-- A property that the changes of `ConnectToPeer` keep is kept by it. -/
theorem connectToPeer_induction {I : Link → Prop} {env : Env} {l : Link} {peer : Peer} (hl : I l)
    (hset : ∀ numAttempts, I (l.setPeer { peer with numAttempts }))
    (hremove : ∀ transport, I (l.removePeer transport)) : I (l.connectToPeer env peer).1 := by
  obtain heq | ⟨numAttempts, heq⟩ | ⟨transport, heq⟩ := connectToPeer_cases env l peer
  · rwa [heq]
  · rw [heq]
    exact hset numAttempts
  · rw [heq]
    exact hremove transport

end Link

/-! ## All routers -/

/-- The hash of the router of a session, and its transport. -/
structure Sessions where
  /-- `GetRemoteIdentity().GetIdentHash()`. -/
  ident : ℕ → IdentHash
  transport : ℕ → Transport

/-- A call of `Transports`. -/
inductive Event
  | postMessages (env : Env) (ident : IdentHash) (count : ℕ)
  | handleRequestComplete (env : Env) (router : Option ℕ) (ident : IdentHash)
  | handleNTCPResolve (env : Env) (ok : Bool) (ident : IdentHash)
  | peerConnected (ts : UInt64) (session : ℕ)
  | peerDisconnected (env : Env) (session : ℕ)
  | handlePeerCleanupTimer (ts : UInt64)

section System

variable (sessions : Sessions) (own : IdentHash)

/-- What a call is for a remote router. Messages to ourselves are handled at once. -/
def Event.callFor (ident : IdentHash) : Event → Option Link.Op
  | .postMessages env receiver count =>
    if receiver = ident ∧ receiver ≠ own then some (.postMessages env count) else none
  | .handleRequestComplete env router requested =>
    if requested = ident then some (.handleRequestComplete env router) else none
  | .handleNTCPResolve env ok remote =>
    if remote = ident then some (.handleNTCPResolve env ok) else none
  | .peerConnected ts session =>
    if sessions.ident session = ident then some (.peerConnected ts session) else none
  | .peerDisconnected env session =>
    if sessions.ident session = ident then
      some (.peerDisconnected env (sessions.transport session) session)
    else none
  | .handlePeerCleanupTimer ts => some (.handlePeerCleanupTimer ts)

/-- One call, on the links of all routers. -/
def step (links : IdentHash → Link) (event : Event) : IdentHash → Link := fun ident =>
  match event.callFor sessions own ident with
  | some op => (links ident).step op
  | none => links ident

/-- A run of all routers is a run for each of them. -/
theorem exec_apply (links : IdentHash → Link) (events : List Event) (ident : IdentHash) :
    Runs.exec (step sessions own) links events ident =
      Runs.exec Link.step (links ident) (events.filterMap (Event.callFor sessions own ident)) := by
  induction events generalizing links with
  | nil => rfl
  | cons event events ih =>
    show Runs.exec (step sessions own) (step sessions own links event) events ident = _
    rw [ih, List.filterMap_cons]
    unfold step
    cases event.callFor sessions own ident with
    | none => rfl
    | some op => rfl

/-- The session of a call that connects or disconnects one. -/
def Link.Op.session? : Link.Op → Option ℕ
  | .peerConnected _ session => some session
  | .peerDisconnected _ _ session => some session
  | _ => none

/-- The calls for a router are about its own sessions. -/
theorem ident_of_callFor {ident : IdentHash} {event : Event} {op : Link.Op} {session : ℕ}
    (h : event.callFor sessions own ident = some op) (hsession : op.session? = some session) :
    sessions.ident session = ident := by
  cases event with
  | peerConnected ts σ =>
    obtain ⟨hident, hop⟩ := Option.ite_none_right_eq_some.mp h
    obtain rfl := Option.some.inj hop
    exact Option.some.inj hsession ▸ hident
  | peerDisconnected env σ =>
    obtain ⟨hident, hop⟩ := Option.ite_none_right_eq_some.mp h
    obtain rfl := Option.some.inj hop
    exact Option.some.inj hsession ▸ hident
  | handlePeerCleanupTimer ts =>
    obtain rfl := Option.some.inj h
    cases hsession
  | _ =>
    obtain ⟨-, hop⟩ := Option.ite_none_right_eq_some.mp h
    obtain rfl := Option.some.inj hop
    cases hsession

end System

end Transports
