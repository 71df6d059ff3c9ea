import Xi2p.Lib.Runs
import Xi2p.SSU.Messages
import Xi2p.SSU.Relay

/-!
# Peer tests

Alice asks Bob to find out whether she can be reached: Bob passes her request on to Charlie, who
answers to Bob and directly to Alice; Alice then writes to Charlie, and he answers once more.
`SSUSession::ProcessPeerTest` plays all the parts, told apart by the table `m_PeerTests` of the
server.

The three routers run over a network that delivers the datagrams in flight in any order.

* `parsePacket_sendPeerTest_iff`: a message of `SendPeerTest` is accepted iff it carries an address.
  Alice's messages carry none.
* `peerTest_fails`: no test gets beyond its first message.
-/

namespace SSU

open Bytes ByteStream CBC Identity

/-! ## Messages -/

/-- A message of `SendPeerTest`, with the arguments of the call and our own key. -/
structure TestMessage where
  /-- `nonce`. -/
  nonce : UInt32
  /-- `address` and `port`. -/
  endpoint : Endpoint
  /-- `intro_key`. -/
  introKey : Block introKeySize
  /-- The key of our own address. -/
  ourKey : Block introKeySize
  /-- `to_address`. -/
  toAddress : Bool := true
  /-- `send_address`. -/
  sendAddress : Bool := true

namespace TestMessage

variable (t : TestMessage)

/-- The message that is written. -/
def message : OutMessage :=
  sendPeerTest t.nonce t.endpoint t.introKey t.ourKey t.toAddress t.sendAddress

/-- The key that is written. -/
def key : Block introKeySize := if t.toAddress then t.ourKey else t.introKey

/-- The packet with the values that the message was built from. -/
def packet : SSUPeerTestPacket := ⟨t.nonce, t.endpoint.address, t.endpoint.port, t.key⟩

/-- The address that is written: none is a size of zero. -/
def addressBytes : List UInt8 :=
  if t.sendAddress && !t.endpoint.address.isUnspecified then t.endpoint.address.sized else [0]

/-- The bytes behind the header. -/
def body : List UInt8 :=
  writeU32 t.nonce ++ (t.addressBytes ++ (writeU16 t.endpoint.port ++ t.key.bytes))

/-- The plain text is accepted, with the values that the message was built from. -/
def Accepted (c : Crypto) (fresh : Mem) (fill : HeaderFill) : Prop :=
  ∃ bytes packet s', t.message.plaintext fresh fill = .ok bytes ∧
    parsePacket c (.of bytes) = .ok (packet, s') ∧ packet.payload = .peerTest t.packet

variable {t}

theorem writes_message : Writes t.message.write (List.replicate headerMin 0 ++ t.body) := by
  have haddress : Writes (writePeerAddress t.endpoint.address t.sendAddress) t.addressBytes := by
    unfold writePeerAddress addressBytes
    split
    · exact writes_writeIPAddress _
    · exact writes_writeZeros Nat.one_pos
  have hkey : 0 < t.key.bytes.length := by
    rw [Block.length_bytes]
    decide
  exact (writes_writeZeros (by decide)).bind ((writes_write32 _).bind (haddress.bind
    ((writes_write16 _).bind (writes_writeData hkey))))

/-- With an IPv4 address, the whole message fits in its buffer. -/
theorem plaintext_message (hv4 : t.endpoint.address.isV4) (fresh : Mem) (fill : HeaderFill) :
    ∃ rest, t.message.plaintext fresh fill =
      .ok ((fill.header .peerTest).bytes ++ (t.body ++ rest)) := by
  have hlen : t.addressBytes.length ≤ 5 := by
    unfold addressBytes
    split
    · rw [IPAddress.length_sized, IPAddress.length_bytes_of_isV4 hv4]
    · decide
  refine ⟨_, OutMessage.plaintext_of_body writes_message ?_ fresh fill⟩
  show _ ≤ peerTestBuffer
  simp only [body, List.length_append, length_writeU32, length_writeU16, Block.length_bytes,
    headerMin, introKeySize, peerTestBuffer]
  omega

theorem parsePeerTest_body (haddress : t.addressBytes = t.endpoint.address.sized) :
    Reads parsePeerTest t.body t.packet := by
  intro size rest
  have hkey : Reads (readBlock introKeySize) t.key.bytes t.key :=
    reads_readBlock t.key (by decide)
  simp only [body, haddress, List.append_assoc]
  rw [parsePeerTest, bind_of_eq_ok (read32_append _),
    bind_of_eq_ok (reads_readSized_sized _ size _), IPAddress.ofBytes?_bytes]
  dsimp only
  rw [bind_of_eq_ok (read16_append _), bind_of_eq_ok (hkey size rest)]
  rfl

/-- Without an address, the read of the address is rejected. -/
theorem parsePeerTest_error (haddress : t.addressBytes = [0]) (size : ℕ) (rest : List UInt8) :
    parsePeerTest ⟨size, t.body ++ rest⟩ =
      .error (.lengthError "ByteStream: invalid length advancement") := by
  simp only [body, haddress, List.append_assoc]
  rw [parsePeerTest, bind_of_eq_ok (read32_append _)]
  rfl

theorem parsePacket_error (hv4 : t.endpoint.address.isV4) (haddress : t.addressBytes = [0])
    (c : Crypto) {fresh : Mem} {fill : HeaderFill} {bytes : List UInt8}
    (htext : t.message.plaintext fresh fill = .ok bytes) (size : ℕ) :
    parsePacket c ⟨size, bytes⟩ =
      .error (.lengthError "ByteStream: invalid length advancement") := by
  obtain ⟨rest, htext'⟩ := plaintext_message hv4 fresh fill
  obtain rfl := Except.ok.inj (htext'.symm.trans htext)
  exact parsePacket_plaintext_error (map_of_eq_error (parsePeerTest_error haddress size rest))

/-- A message is accepted iff it carries an address. -/
theorem accepted_iff (hv4 : t.endpoint.address.isV4) {c : Crypto} {fresh : Mem}
    {fill : HeaderFill} :
    t.Accepted c fresh fill ↔ t.sendAddress ∧ ¬ t.endpoint.address.isUnspecified := by
  by_cases hsends : t.sendAddress ∧ ¬ t.endpoint.address.isUnspecified
  · obtain ⟨rest, htext⟩ := plaintext_message hv4 fresh fill
    have haddress : t.addressBytes = t.endpoint.address.sized := if_pos (by simpa using hsends)
    have hbody : ∀ size, parsePayload c (fill.header .peerTest) ⟨size, t.body ++ rest⟩ =
        .ok (.peerTest t.packet, ⟨size, rest⟩) :=
      fun size => map_of_eq_ok (parsePeerTest_body haddress size rest)
    exact iff_of_true ⟨_, _, _, htext, parsePacket_plaintext (hbody _), rfl⟩ hsends
  · have haddress : t.addressBytes = [0] := if_neg (by simpa using hsends)
    refine iff_of_false ?_ hsends
    rintro ⟨bytes, packet, s', htext, hpacket, -⟩
    cases (parsePacket_error hv4 haddress c htext _).symm.trans hpacket

end TestMessage

/-! ## Routers -/

/-- The three routers of a test. -/
inductive Party
  | alice
  | bob
  | charlie
  deriving DecidableEq

/-- `RouterState`. -/
inductive RouterState
  | ok
  | testing
  | firewalled
  deriving DecidableEq

/-- `PeerTestParticipant`; a nonce that is not in the table stands for `Unknown`. -/
inductive PeerTestParticipant
  | alice1
  | alice2
  | bob
  | charlie
  deriving DecidableEq

/-- A session with another router: a session that is established has keys. -/
structure Session where
  /-- The address of the session object. -/
  id : ℕ
  /-- `m_State == SessionState::Established`. -/
  established : Bool
  deriving DecidableEq

/-- An entry of `m_PeerTests`. -/
structure PeerTest where
  /-- `role`. -/
  role : PeerTestParticipant
  /-- `session`: the other router, and the session object. -/
  session : Option (Party × ℕ) := none

/-- A router, with its SSU server. -/
structure Router where
  /-- `context.GetState()`. -/
  routerState : RouterState
  /-- `m_PeerTests`. -/
  peerTests : UInt32 → Option PeerTest
  /-- `m_Sessions`. -/
  sessions : Party → Option Session
  /-- The address of the next session object. -/
  nextSession : ℕ

/-- What stays the same during a test. -/
structure TestConfig where
  /-- The hash and signature functions. -/
  crypto : Crypto
  /-- The endpoints of the routers. -/
  endpoint : Party → Endpoint
  /-- The introduction keys of the routers. -/
  introKey : Party → Block introKeySize
  /-- What the memory of the buffer of the `n`-th message held. -/
  fresh : ℕ → Mem
  /-- What is filled into the header of the `n`-th message. -/
  fill : ℕ → HeaderFill
  /-- The addresses are IPv4. -/
  isV4 : ∀ p, (endpoint p).address.isV4

/-- The key that a datagram is encrypted with. -/
inductive MessageKey
  | sessionKey
  | introKey (key : Block introKeySize)

/-- A message on its way out of a router; it is lost if no router has the endpoint. -/
structure Outgoing where
  /-- The router it is sent to. -/
  receiver : Option Party
  /-- The key it is encrypted with. -/
  key : MessageKey
  /-- The message. -/
  message : OutMessage
  /-- The call of `SendPeerTest` that built it, unless it was passed on. -/
  built : Option TestMessage

/-- A datagram in flight. -/
structure TestDatagram where
  /-- The router that sent it. -/
  sender : Party
  /-- The router it is sent to. -/
  receiver : Party
  /-- The key it is encrypted with. -/
  key : MessageKey
  /-- The plain text. -/
  plaintext : List UInt8

namespace TestConfig

variable (cfg : TestConfig)

/-- The router with an endpoint. -/
def partyAt (e : Endpoint) : Option Party :=
  [Party.alice, .bob, .charlie].find? fun p =>
    (cfg.endpoint p).address.bytes = e.address.bytes ∧ (cfg.endpoint p).port = e.port

/-- A message of `SendPeerTest` from a session with `peer`. -/
def sendTest (peer : Party) (t : TestMessage) : Outgoing :=
  if t.toAddress then ⟨cfg.partyAt t.endpoint, .introKey t.introKey, t.message, some t⟩
  else ⟨some peer, .sessionKey, t.message, some t⟩

end TestConfig

/-- `SSUSession::Send` of a payload, from a session with `peer`: a packet that is too large for the
MTU is not sent. -/
def sendPayload (peer : Party) (payloadType : SSUPayloadType) (payload : List UInt8) :
    List Outgoing :=
  let size := padTo16 (payload.length + headerMin)
  if size > 1484 then []
  else
    [⟨some peer, .sessionKey,
      { payloadType
        write := writeData (List.replicate headerMin 0 ++ payload ++
          List.replicate (size - (payload.length + headerMin)) 0)
        size }, none⟩]

namespace Router

/-- `m_Server.DeleteSession`, for the session with `peer`. -/
def deleteSession (r : Router) (peer : Party) : Router :=
  { r with sessions := Function.update r.sessions peer none }

/-- `m_Server.GetRandomEstablishedSession`: the other established session. -/
def getRandomEstablishedSession (r : Router) (excluded : Party) : Option Party :=
  [Party.alice, .bob, .charlie].find? fun p =>
    p ≠ excluded ∧ (r.sessions p).any Session.established

/-- The session object with `peer` is established; one that was deleted is closed. -/
def isEstablished (r : Router) (s : Party × ℕ) : Bool :=
  (r.sessions s.1).any fun session => session.id = s.2 && session.established

/-- The session with `peer` is established. -/
def HasSession (r : Router) (peer : Party) : Prop := ∃ id, r.sessions peer = some ⟨id, true⟩

/-- `m_PeerTests[nonce] = …`, or its removal. -/
def setPeerTest (r : Router) (nonce : UInt32) (test : Option PeerTest) : Router :=
  { r with peerTests := Function.update r.peerTests nonce test }

/-- `ProcessPeerTest` of the router `me`, in its session with `peer`. -/
def processPeerTest (cfg : TestConfig) (me peer : Party) (session : Session)
    (rawData : List UInt8) (packet : SSUPeerTestPacket) (r : Router) :
    Router × List Outgoing :=
  let here := some (peer, session.id)
  let ourKey := cfg.introKey me
  if packet.port ≠ 0 ∧ packet.ipAddress.isUnspecified then (r, [])
  else
    match r.peerTests packet.nonce with
    | some ⟨.alice1, s⟩ =>
      if s = here then
        -- from Bob; still not OK
        if r.routerState = .testing then ({ r with routerState := .firewalled }, []) else (r, [])
      else
        -- the first from Charlie
        ({ r with routerState := .ok }.setPeerTest packet.nonce (some ⟨.alice2, s⟩),
          [cfg.sendTest peer
            { nonce := packet.nonce
              endpoint := cfg.endpoint peer
              introKey := packet.introKey
              ourKey
              sendAddress := false }])
    | some ⟨.alice2, s⟩ => if s = here then (r, []) else ({ r with routerState := .ok }, [])
    | some ⟨.bob, s⟩ =>
      -- from Charlie, back to Alice
      let back := match s with
        | some s => if r.isEstablished s then sendPayload s.1 .peerTest rawData else []
        | none => []
      (r.setPeerTest packet.nonce none, back)
    | some ⟨.charlie, _⟩ =>
      -- from Alice, to her actual address
      (r.setPeerTest packet.nonce none,
        [cfg.sendTest peer
          { nonce := packet.nonce
            endpoint := cfg.endpoint peer
            introKey := packet.introKey
            ourKey }])
    | none =>
      if session.established then
        if packet.port ≠ 0 then
          -- from Bob: back to him, and to Alice with the address received from him
          (r.setPeerTest packet.nonce (some ⟨.charlie, none⟩),
            sendPayload peer .peerTest rawData ++
              [cfg.sendTest peer
                { nonce := packet.nonce
                  endpoint := ⟨packet.ipAddress, packet.port⟩
                  introKey := packet.introKey
                  ourKey }])
        else
          -- from Alice: to Charlie with her actual address
          match r.getRandomEstablishedSession peer with
          | some other =>
            (r.setPeerTest packet.nonce (some ⟨.bob, here⟩),
              [cfg.sendTest other
                { nonce := packet.nonce
                  endpoint := cfg.endpoint peer
                  introKey := packet.introKey
                  ourKey
                  toAddress := false }])
          | none => (r, [])
      else (r, [])

/-- `m_Sessions.find`, or else a new session. -/
def findOrCreateSession (r : Router) (peer : Party) : Session × Router :=
  match r.sessions peer with
  | some session => (session, r)
  | none =>
    let session : Session := ⟨r.nextSession, false⟩
    (session, { r with
      sessions := Function.update r.sessions peer (some session)
      nextSession := r.nextSession + 1 })

/-- `HandleReceivedPackets` and `ProcessNextMessage` of the router `me`: a datagram that does not
validate or does not parse costs the session. -/
def processNextMessage (cfg : TestConfig) (me : Party) (d : TestDatagram) (r : Router) :
    Router × List Outgoing :=
  let (session, r) := r.findOrCreateSession d.sender
  let valid := match d.key with
    | .sessionKey => session.established
    | .introKey key => !session.established && key.bytes = (cfg.introKey me).bytes
  let len := d.plaintext.length - d.plaintext.length % 16
  if valid then
    match parsePacket cfg.crypto (.of (d.plaintext.take len)) with
    | .error _ => (r.deleteSession d.sender, [])
    | .ok (packet, _) =>
      match packet.payload with
      | .peerTest test => r.processPeerTest cfg me d.sender session packet.rawData test
      | _ => (r, [])
  else (r.deleteSession d.sender, [])

end Router

/-! ## The network -/

/-- The three routers, and the datagrams between them. -/
structure TestNetwork where
  /-- The routers. -/
  routers : Party → Router
  /-- The datagrams in flight. -/
  inFlight : List TestDatagram
  /-- The calls of `SendPeerTest` so far, with the number of the message. -/
  built : List (TestMessage × ℕ)
  /-- The number of messages sent so far. -/
  count : ℕ

namespace TestNetwork

/-- Send a message. -/
def emit (cfg : TestConfig) (sender : Party) (net : TestNetwork) (out : Outgoing) : TestNetwork :=
  let n := net.count
  let inFlight := match out.receiver, out.message.plaintext (cfg.fresh n) (cfg.fill n) with
    | some receiver, .ok plaintext => net.inFlight ++ [⟨sender, receiver, out.key, plaintext⟩]
    | _, _ => net.inFlight
  { net with
    inFlight
    built := net.built ++ (out.built.map (·, n)).toList
    count := n + 1 }

/-- The `i`-th datagram in flight arrives. -/
def deliver (cfg : TestConfig) (net : TestNetwork) (i : ℕ) : TestNetwork :=
  match net.inFlight[i]? with
  | none => net
  | some d =>
    let (r, out) := (net.routers d.receiver).processNextMessage cfg d.receiver d
    out.foldl (emit cfg d.receiver)
      { net with
        routers := Function.update net.routers d.receiver r
        inFlight := net.inFlight.eraseIdx i }

/-- The nonce of a test, made from a random number. -/
def nonceOf (random : UInt32) : UInt32 := if random = 0 then 1 else random

/-- Alice's first message: her address and port are zero. -/
def firstMessage (cfg : TestConfig) (nonce : UInt32) : TestMessage :=
  { nonce
    endpoint := ⟨.unspecified, 0⟩
    introKey := cfg.introKey .alice
    ourKey := cfg.introKey .alice
    toAddress := false
    sendAddress := false }

/-- Alice calls `SendPeerTest()` in her session with Bob. -/
def startTest (cfg : TestConfig) (random : UInt32) (net : TestNetwork) : TestNetwork :=
  match (net.routers .alice).sessions .bob with
  | none => net
  | some session =>
    let nonce := nonceOf random
    let alice := (net.routers .alice).setPeerTest nonce (some ⟨.alice1, some (.bob, session.id)⟩)
    { net with routers := Function.update net.routers .alice alice }.emit cfg .alice
      (cfg.sendTest .bob (firstMessage cfg nonce))

/-- The sessions of Alice and Bob and of Bob and Charlie are established, and nothing has been sent
for the nonce. -/
structure Ready (net : TestNetwork) (nonce : UInt32) : Prop where
  alice_bob : (net.routers .alice).HasSession .bob
  bob_alice : (net.routers .bob).HasSession .alice
  bob_charlie : (net.routers .bob).HasSession .charlie
  charlie_bob : (net.routers .charlie).HasSession .bob
  peerTests_eq_none : ∀ p, (net.routers p).peerTests nonce = none
  inFlight_eq_nil : net.inFlight = []
  built_eq_nil : net.built = []

/-- Every message is accepted with the values it was built from, and once all datagrams have
arrived, Alice's router is OK and neither Bob nor Charlie keeps an entry. -/
def Succeeds (cfg : TestConfig) (nonce : UInt32) (net : TestNetwork) : Prop :=
  (∀ e ∈ net.built, e.1.Accepted cfg.crypto (cfg.fresh e.2) (cfg.fill e.2)) ∧
    (net.inFlight = [] →
      (net.routers .alice).routerState = .ok ∧ (net.routers .bob).peerTests nonce = none ∧
        (net.routers .charlie).peerTests nonce = none)

/-! ## The first message -/

variable {cfg : TestConfig} {net : TestNetwork} {random : UInt32}

theorem addressBytes_firstMessage (nonce : UInt32) : (firstMessage cfg nonce).addressBytes = [0] := rfl

theorem isV4_firstMessage (nonce : UInt32) : (firstMessage cfg nonce).endpoint.address.isV4 := rfl

/-- The first message has no address, so that no parser accepts it. -/
theorem not_accepted_firstMessage (nonce : UInt32) {fresh : Mem} {fill : HeaderFill} :
    ¬ (firstMessage cfg nonce).Accepted cfg.crypto fresh fill := by
  rw [TestMessage.accepted_iff (isV4_firstMessage nonce)]
  rintro ⟨hsends, -⟩
  cases hsends

/-- Bob loses his session with Alice over her first message. -/
theorem processNextMessage_firstMessage {nonce : UInt32} {n : ℕ} {d : TestDatagram} {r : Router}
    (hr : r.HasSession .alice) (hsender : d.sender = .alice) (hkey : d.key = .sessionKey)
    (htext : (firstMessage cfg nonce).message.plaintext (cfg.fresh n) (cfg.fill n) =
      .ok d.plaintext) :
    r.processNextMessage cfg .bob d = (r.deleteSession .alice, []) := by
  obtain ⟨id, hid⟩ := hr
  have hsession : r.findOrCreateSession .alice = (⟨id, true⟩, r) := by
    rw [Router.findOrCreateSession, hid]
  have hlen : d.plaintext.length = 80 := OutMessage.length_of_plaintext htext
  have htake : d.plaintext.take (d.plaintext.length - d.plaintext.length % 16) = d.plaintext := by
    rw [hlen]
    exact List.take_of_length_le hlen.le
  have hparse : parsePacket cfg.crypto (.of d.plaintext) = .error _ :=
    TestMessage.parsePacket_error (isV4_firstMessage nonce) (addressBytes_firstMessage nonce)
      cfg.crypto htext _
  simp only [Router.processNextMessage, hsender, hsession, hkey, htake, hparse, if_true]

/-- The state in which Alice's first message is in flight, or has been rejected by Bob. -/
inductive Stalled (cfg : TestConfig) (net : TestNetwork) (nonce : UInt32) : TestNetwork → Prop
  | waiting {alice : Router} {d : TestDatagram}
    (hstate : alice.routerState = (net.routers .alice).routerState)
    (hsender : d.sender = .alice) (hreceiver : d.receiver = .bob) (hkey : d.key = .sessionKey)
    (htext : (firstMessage cfg nonce).message.plaintext (cfg.fresh net.count)
      (cfg.fill net.count) = .ok d.plaintext) :
    Stalled cfg net nonce
      { routers := Function.update net.routers .alice alice
        inFlight := [d]
        built := [(firstMessage cfg nonce, net.count)]
        count := net.count + 1 }
  | rejected {alice : Router}
    (hstate : alice.routerState = (net.routers .alice).routerState) :
    Stalled cfg net nonce
      { routers := Function.update (Function.update net.routers .alice alice) .bob
          ((net.routers .bob).deleteSession .alice)
        inFlight := []
        built := [(firstMessage cfg nonce, net.count)]
        count := net.count + 1 }

theorem stalled_startTest (hready : net.Ready (nonceOf random)) :
    Stalled cfg net (nonceOf random) (net.startTest cfg random) := by
  obtain ⟨id, hid⟩ := hready.alice_bob
  obtain ⟨plaintext, htext⟩ : ∃ plaintext, (firstMessage cfg (nonceOf random)).message.plaintext
      (cfg.fresh net.count) (cfg.fill net.count) = .ok plaintext := by
    obtain ⟨rest, htext⟩ := TestMessage.plaintext_message
      (isV4_firstMessage (nonceOf random)) (cfg.fresh net.count) (cfg.fill net.count)
    exact ⟨_, htext⟩
  have hsend : cfg.sendTest .bob (firstMessage cfg (nonceOf random)) =
      ⟨some .bob, .sessionKey, (firstMessage cfg (nonceOf random)).message,
        some (firstMessage cfg (nonceOf random))⟩ := rfl
  let alice := (net.routers .alice).setPeerTest (nonceOf random) (some ⟨.alice1, some (.bob, id)⟩)
  let d : TestDatagram := ⟨.alice, .bob, .sessionKey, plaintext⟩
  have hwaiting : Stalled cfg net (nonceOf random)
      { routers := Function.update net.routers .alice alice
        inFlight := [d]
        built := [(firstMessage cfg (nonceOf random), net.count)]
        count := net.count + 1 } := .waiting rfl rfl rfl rfl htext
  simp only [startTest, hid, hsend, emit, htext, hready.inFlight_eq_nil, hready.built_eq_nil]
  exact hwaiting

theorem Stalled.deliver {nonce : UInt32} {net' : TestNetwork}
    (hbob : (net.routers .bob).HasSession .alice) (h : Stalled cfg net nonce net') (i : ℕ) :
    Stalled cfg net nonce (net'.deliver cfg i) := by
  cases h with
  | rejected hstate => exact .rejected hstate
  | @waiting alice d hstate hsender hreceiver hkey htext =>
    cases i with
    | succ i => exact .waiting hstate hsender hreceiver hkey htext
    | zero =>
      have hrouter : Function.update net.routers .alice alice .bob = net.routers .bob := rfl
      have hprocess := processNextMessage_firstMessage hbob hsender hkey htext
      have hdeliver : TestNetwork.deliver cfg
          { routers := Function.update net.routers .alice alice
            inFlight := [d]
            built := [(firstMessage cfg nonce, net.count)]
            count := net.count + 1 } 0 =
          { routers := Function.update (Function.update net.routers .alice alice) .bob
              ((net.routers .bob).deleteSession .alice)
            inFlight := []
            built := [(firstMessage cfg nonce, net.count)]
            count := net.count + 1 } := by
        simp only [TestNetwork.deliver, List.getElem?_cons_zero, hreceiver, hrouter, hprocess]
        rfl
      rw [hdeliver]
      exact .rejected hstate

theorem Stalled.built_eq {nonce : UInt32} {net' : TestNetwork} (h : Stalled cfg net nonce net') :
    net'.built = [(firstMessage cfg nonce, net.count)] := by
  cases h with
  | waiting => rfl
  | rejected => rfl

theorem Stalled.routerState_eq {nonce : UInt32} {net' : TestNetwork}
    (h : Stalled cfg net nonce net') :
    (net'.routers .alice).routerState = (net.routers .alice).routerState := by
  cases h with
  | waiting hstate => exact hstate
  | rejected hstate => exact hstate

theorem Stalled.sessions_eq_none {nonce : UInt32} {net' : TestNetwork}
    (h : Stalled cfg net nonce net') (harrived : net'.inFlight = []) :
    (net'.routers .bob).sessions .alice = none := by
  cases h with
  | waiting => cases harrived
  | rejected => rfl

theorem Stalled.not_succeeds {nonce : UInt32} {net' : TestNetwork}
    (h : Stalled cfg net nonce net') : ¬ net'.Succeeds cfg nonce := by
  rintro ⟨haccepted, -⟩
  rw [h.built_eq] at haccepted
  exact not_accepted_firstMessage nonce (haccepted (firstMessage cfg nonce, net.count)
    List.mem_cons_self)

theorem stalled_exec (hready : net.Ready (nonceOf random)) (order : List ℕ) :
    Stalled cfg net (nonceOf random) (Runs.exec (deliver cfg) (net.startTest cfg random) order) := by
  have hstep : ∀ net' i, Stalled cfg net (nonceOf random) net' →
      Stalled cfg net (nonceOf random) (deliver cfg net' i) :=
    fun net' i h => h.deliver hready.bob_alice i
  exact Runs.invariant_exec hstep (stalled_startTest hready) order

/-- In whatever order the datagrams arrive, the test does not get beyond its first message: it is not
accepted, Alice's router stays in the state it was in, and Bob deletes his session with her. -/
theorem peerTest_fails (hready : net.Ready (nonceOf random)) (order : List ℕ) :
    let net' := Runs.exec (deliver cfg) (net.startTest cfg random) order
    ¬ net'.Succeeds cfg (nonceOf random) ∧
      (net'.routers .alice).routerState = (net.routers .alice).routerState ∧
      (net'.inFlight = [] → (net'.routers .bob).sessions .alice = none) := by
  intro net'
  have hstalled : Stalled cfg net (nonceOf random) net' := stalled_exec hready order
  exact ⟨hstalled.not_succeeds, hstalled.routerState_eq, hstalled.sessions_eq_none⟩

/-- Three routers whose sessions are established, at the addresses 10.0.0.1 to 10.0.0.3. -/
def exampleConfig : TestConfig :=
  { crypto := noCrypto
    endpoint := fun p => match p with
      | .alice => ⟨.v4 ⟨[10, 0, 0, 1], rfl⟩, 9001⟩
      | .bob => ⟨.v4 ⟨[10, 0, 0, 2], rfl⟩, 9002⟩
      | .charlie => ⟨.v4 ⟨[10, 0, 0, 3], rfl⟩, 9003⟩
    introKey := fun _ => ⟨List.replicate introKeySize 5, rfl⟩
    fresh := fun _ _ => 0
    fill := fun _ => zeroFill
    isV4 := fun p => by cases p <;> rfl }

/-- The routers before the test. -/
def exampleNetwork : TestNetwork :=
  { routers := fun p =>
      { routerState := .testing
        peerTests := fun _ => none
        -- Alice and Charlie do not know each other
        sessions := fun q => match p, q with
          | .alice, .bob => some ⟨0, true⟩
          | .bob, .alice => some ⟨0, true⟩
          | .bob, .charlie => some ⟨1, true⟩
          | .charlie, .bob => some ⟨0, true⟩
          | _, _ => none
        nextSession := 2 }
    inFlight := []
    built := []
    count := 0 }

theorem ready_exampleNetwork (nonce : UInt32) : exampleNetwork.Ready nonce :=
  { alice_bob := ⟨_, rfl⟩
    bob_alice := ⟨_, rfl⟩
    bob_charlie := ⟨_, rfl⟩
    charlie_bob := ⟨_, rfl⟩
    peerTests_eq_none := fun _ => rfl
    inFlight_eq_nil := rfl
    built_eq_nil := rfl }

theorem peerTest_fails_exampleNetwork :
    let net' := Runs.exec (deliver exampleConfig) (exampleNetwork.startTest exampleConfig 7) [0]
    ¬ net'.Succeeds exampleConfig (nonceOf 7) ∧
      (net'.routers .alice).routerState = .testing ∧
      (net'.inFlight = [] → (net'.routers .bob).sessions .alice = none) :=
  peerTest_fails (ready_exampleNetwork _) [0]

theorem not_forall_succeeds :
    ¬ ∀ (cfg : TestConfig) (net : TestNetwork) (random : UInt32) (order : List ℕ),
      net.Ready (nonceOf random) →
        (Runs.exec (deliver cfg) (net.startTest cfg random) order).Succeeds cfg (nonceOf random) := by
  intro hall
  exact (stalled_exec (ready_exampleNetwork _) [0]).not_succeeds
    (hall exampleConfig exampleNetwork 7 [0] (ready_exampleNetwork _))

end TestNetwork

end SSU
