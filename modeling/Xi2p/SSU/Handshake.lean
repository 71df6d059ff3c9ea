import Xi2p.PrivateKeys
import Xi2p.SSU.Envelope
import Xi2p.SSU.Messages
import Xi2p.SSU.Timers

/-!
# SSU handshake

`SSUSession` of `core/router/transports/ssu/session.cc`, from its construction on: session request,
session created and session confirmed, and what else reaches a session over the network.

* `Context`, `Env`: a router, and what a function draws from the clock and the random numbers.
* `SSUSession`, `SSUSession.step`: a session, and everything that happens to it.
-/

namespace SSU.Handshake

open Bytes ByteStream I2NP CBC Identity Envelope

/-! ## Surroundings -/

/-- `SSUSize::SessionDestroyedBuffer`. -/
abbrev sessionDestroyedBuffer : ℕ := 48

/-- `SSUSize::MTUv4`. -/
abbrev mtuV4 : ℕ := 1484

/-- `SSUSize::RawPacketBuffer`. -/
abbrev rawPacketBuffer : ℕ := mtuV4 + bufferMargin

/-- The primitives of a session. -/
structure Primitives where
  identity : Crypto
  schemes : Schemes
  /-- `DiffieHellman::Agree`, for a private key and the public key of the other side. -/
  agree : List UInt8 → List UInt8 → Option (Block dhPublic)
  aes : List UInt8 → BlockCipher ivSize
  /-- `HMACMD5Digest`, under a MAC key. -/
  hmac : List UInt8 → List UInt8 → Block macSize

/-- `DHKeysPair`. -/
structure DHKeysPair where
  privateKey : List UInt8
  publicKey : Block dhPublic

/-- An address with the SSU transport style. -/
structure SSUAddress where
  endpoint : Endpoint
  key : Block introKeySize

/-- The own router. -/
structure Context where
  /-- `GetPrivateKeys`. -/
  keys : PrivateKeys
  /-- `GetSSUAddress` of the own `RouterInfo`, with or without IPv6. -/
  address : Bool → SSUAddress
  /-- `HasV6`. -/
  hasV6 : Bool
  /-- `HasCap(SSUIntroducer)`. -/
  isIntroducer : Bool
  /-- `GetState() == RouterState::OK`. -/
  isOK : Bool
  /-- A number as it stands in memory. -/
  nativeBytes : UInt32 → List UInt8

/-- What a session uses of the `RouterInfo` of the other router. -/
structure RemoteRouter where
  identity : IdentityEx
  introKey : Block introKeySize

/-- A datagram that is sent. -/
structure Out where
  signed : Signed
  len : ℕ
  dest : Endpoint

/-- What a function draws from its surroundings. -/
structure Env where
  /-- `GetSecondsSinceEpoch`. -/
  seconds : UInt32
  /-- The IVs of the messages that are sent. -/
  iv : ℕ → Block ivSize
  /-- The padding within a message, and behind it. -/
  randBytes : (n : ℕ) → Block n
  padding : (n : ℕ) → Block n
  /-- `Rand<std::uint32_t>`. -/
  relayTag : UInt32
  /-- The random numbers of a signature. -/
  random : List UInt8
  /-- `transports.GetNextDHKeysPair()`. -/
  dhKeysPair : DHKeysPair
  /-- The contents of a buffer that is not initialised. -/
  fresh : Mem
  data : DataEnv
  /-- The packet size for a router, if it is found. -/
  packetSize : IdentHash → Option ℕ
  /-- What peer tests and relay messages make the session send, or that they throw. -/
  others : SSUPacket → Option (List Out)

/-- `SSUSession`. -/
structure SSUSession where
  /-- `m_RemoteEndpoint`. -/
  remoteEndpoint : Endpoint
  /-- `m_RemoteRouter`; a session without one is inbound. -/
  remoteRouter : Option RemoteRouter
  /-- `m_RemoteIdentity`. -/
  remoteIdentity : IdentityEx
  /-- `m_DHKeysPair`. -/
  dhKeysPair : Option DHKeysPair := none
  /-- `m_IsSessionKey`. -/
  isSessionKey : Bool := false
  /-- `m_SessionKey`. -/
  sessionKey : List UInt8
  /-- `m_MACKey`. -/
  macKey : List UInt8
  /-- `m_SessionKeyEncryption`. -/
  encryption : Encryption ivSize
  /-- `m_SessionKeyDecryption`. -/
  decryption : Decryption ivSize
  /-- `m_SessionConfirmData`. -/
  sessionConfirmData : List UInt8 := []
  /-- `m_RelayTag`. -/
  relayTag : UInt32 := 0
  /-- `m_Data`, with `m_State`. -/
  data : SSUData
  /-- The datagrams that have been sent. -/
  sent : List Out := []

/-- The keys that follow from a shared key: none if its first 33 bytes are zero. -/
def deriveKeys (sha256 : List UInt8 → IdentHash) (shared : List UInt8) :
    Option (List UInt8 × List UInt8) :=
  let first := shared.getD 0 0
  -- a zero in front keeps the number positive
  if first &&& 0x80 ≠ 0 then some (0 :: shared.take 31, (shared.drop 31).take 32)
  else if first ≠ 0 then some (shared.take 32, (shared.drop 32).take 32)
  else
    match (List.range' 1 32).find? (shared.getD · 0 ≠ 0) with
    | some i => some ((shared.drop i).take 32, (sha256 ((shared.drop i).take (64 - i))).bytes)
    | none => none

/-- What each side signs and checks. -/
def signedData (dhX dhY : Block dhPublic) (alice bob : Endpoint) (relayTag time : UInt32) : List UInt8 :=
  dhX.bytes ++ dhY.bytes ++ alice.address.bytes ++ writeU16 alice.port ++ bob.address.bytes ++
    writeU16 bob.port ++ writeU32 relayTag ++ writeU32 time

theorem nil_of_true_eq_false : true = false → ([0, 0] : List UInt8) = [] := by
  intro h
  cases h

theorem length_options_lt : ([0, 0] : List UInt8).length < 256 := by decide

/-- The header of a message that is to be written, without options. -/
def plainHeader (iv : Block ivSize) (payloadType : SSUPayloadType) : SSUHeader where
  mac := none
  iv
  payloadType
  time := 0
  length_extendedOptions_lt := length_nil_lt
  extendedOptions_eq_nil := nil_of_eq_false

/-- The header of a session request: a router that can be reached does not ask for a relay. -/
def requestHeader (isOK : Bool) (iv : Block ivSize) : SSUHeader :=
  if isOK then
    { mac := none
      iv
      payloadType := .sessionRequest
      time := 0
      extended := true
      extendedOptions := [0, 0]
      length_extendedOptions_lt := length_options_lt
      extendedOptions_eq_nil := nil_of_true_eq_false }
  else plainHeader iv .sessionRequest

namespace SSUSession

variable (prim : Primitives) (ctx : Context) (env : Env) (s : SSUSession)

/-- `m_State`. -/
def state : SessionState := s.data.sessionState

/-- `m_State = …`. -/
def setState (state : SessionState) : SSUSession := { s with data := { s.data with sessionState := state } }

/-- `GetIntroKey`: that of the other router, if this is the client. -/
def introKey : Block introKeySize :=
  match s.remoteRouter with
  | some router => router.introKey
  | none => (ctx.address ctx.hasV6).key

/-- AES and MAC under the introduction key. -/
def introKeys : Envelope.Keys := ⟨prim.aes (s.introKey ctx).bytes, prim.hmac (s.introKey ctx).bytes⟩

/-- AES and MAC under the keys of the session. -/
def sessionKeys : Envelope.Keys := ⟨prim.aes s.sessionKey, prim.hmac s.macKey⟩

/-! ### Sending -/

/-- `Send`. -/
def send (signed : Signed) (len : ℕ) : SSUSession :=
  { s with sent := s.sent ++ [⟨signed, len, s.remoteEndpoint⟩] }

/-- `WriteAndEncrypt` to a buffer for a message of the given size, and `Send`; none is an exception. -/
def writeAndSend (keys : Envelope.Keys) (header : SSUHeader) (payload : SSUPayload) (size : ℕ) :
    Option SSUSession :=
  match writeAndEncrypt keys env.randBytes env.padding env.seconds header payload (fun _ => 0)
    (size + bufferMargin) with
  | .ok (signed, _) => some (s.send signed size)
  | .error _ => none

/-- `FillHeaderAndEncrypt` with the keys of the session, and `Send`. -/
def fillAndSend (iv : Block ivSize) (payloadType : SSUPayloadType) (buf : Mem) (len : ℕ) : SSUSession :=
  let (signed, encryption) := fillHeaderAndEncryptSession s.encryption (prim.hmac s.macKey) iv
    env.seconds payloadType.code buf len
  { s with encryption }.send signed len

/-- The datagrams of `m_Data` are encrypted and sent. -/
def sendData : ℕ → List Datagram → SSUSession → SSUSession
  | _, [], s => s
  | k, g :: datagrams, s => sendData (k + 1) datagrams (s.fillAndSend prim env (env.iv k) .data g.buf g.len)

/-- `m_Data` has changed, and sends what is new. -/
def withData (data : SSUData) : SSUSession :=
  sendData prim env 2 (data.datagrams.drop s.data.datagrams.length) { s with data }

/-- `SendSessionDestroyed`. -/
def sendSessionDestroyed : SSUSession :=
  if s.isSessionKey then
    s.fillAndSend prim env (env.iv 1) .sessionDestroyed env.fresh sessionDestroyedBuffer
  else s

/-- `Close`. -/
def close : SSUSession := (s.setState .closed).sendSessionDestroyed prim env

/-- `m_Server.DeleteSession`, for the session. -/
def deleteSession : SSUSession := s.close prim env

/-- `Failed`. -/
def failed : SSUSession := if s.state = .failed then s else (s.setState .failed).deleteSession prim env

/-- What `Established` does besides the calls of `m_Data`. -/
def clearHandshake : SSUSession := { s with sessionConfirmData := [], dhKeysPair := none }

/-- `Established`. -/
def established : SSUSession :=
  s.clearHandshake.withData prim env (s.data.sessionEstablished env.data env.seconds)

/-! ### Handshake -/

/-- `CreateAESandMACKey`: none if no keys could be created. -/
def createAESandMACKey (pair : DHKeysPair) (pubKey : Block dhPublic) : Option SSUSession :=
  match prim.agree pair.privateKey pubKey.bytes with
  | none => none
  | some shared =>
    match deriveKeys prim.identity.sha256 shared.bytes with
    | none => none
    | some (sessionKey, macKey) =>
      some
        { s with
          sessionKey
          macKey
          encryption := { s.encryption with cipher := prim.aes sessionKey }
          decryption := { s.decryption with cipher := prim.aes sessionKey }
          isSessionKey := true }

/-- `SendSessionRequest`. -/
def sendSessionRequest (pair : DHKeysPair) : Option SSUSession :=
  let header := requestHeader ctx.isOK (env.iv 0)
  let message : SSUSessionRequestPacket := ⟨pair.publicKey, s.remoteEndpoint.address⟩
  s.writeAndSend env (s.introKeys prim ctx) header (.sessionRequest message)
    (getPaddedSize (message.getSize header))

/-- `Connect`. -/
def connect : Option SSUSession :=
  if s.state = .unknown then
    { s with dhKeysPair := some env.dhKeysPair }.sendSessionRequest prim ctx env env.dhKeysPair
  else some s

/-- What `PrivateKeys::Sign` leaves in a vector of zeros. -/
def signature (data : List UInt8) : List UInt8 :=
  (ctx.keys.sign prim.schemes env.random data).getD (List.replicate ctx.keys.pub.getSignatureLen 0)

/-- The signature of `SendSessionCreated`, with random padding. Its length is kept in a byte. -/
def paddedSignature (size : ℕ) (data : List UInt8) : List UInt8 :=
  let signatureSize := ctx.keys.pub.getSignatureLen % 256
  let padding := getPaddingSize (size + signatureSize)
  slice (store (store (fun _ => 0) 0 (signature prim ctx env data)) signatureSize (env.padding padding).bytes)
    0 (signatureSize + padding)

/-- The relay tag that is offered: a router that is no introducer offers none. -/
def offeredTag : UInt32 := if ctx.isIntroducer then (if env.relayTag = 0 then 1 else env.relayTag) else 0

/-- The message of `SendSessionCreated` with its encrypted signature, and the encryption behind it. -/
def createdMessage (pair : DHKeysPair) (dhX : Block dhPublic) : SSUSessionCreatedPacket × Encryption ivSize :=
  let bob := (ctx.address (!s.remoteEndpoint.address.isV4)).endpoint
  let relayTag := offeredTag ctx env
  let message : SSUSessionCreatedPacket :=
    { dhY := pair.publicKey
      ipAddress := s.remoteEndpoint.address
      port := s.remoteEndpoint.port
      relayTag
      signedOnTime := env.seconds
      signature := [] }
  let signature := paddedSignature prim ctx env (message.getSize (plainHeader (env.iv 0) .sessionCreated))
    (signedData dhX pair.publicKey s.remoteEndpoint bob relayTag env.seconds)
  let (cipherText, encryption) := { s.encryption with last := env.iv 0 }.encryptBytes signature
  -- a block that is not full is not encrypted: what has been allocated for it stays zero
  ({ message with signature := cipherText ++ List.replicate (signature.length - cipherText.length) 0 },
    encryption)

/-- `SendSessionCreated`: none is an exception. Space for the confirmed data is reserved, and written
to, but the vector stays empty. -/
def sendSessionCreated (pair : DHKeysPair) (dhX : Block dhPublic) : Option SSUSession :=
  let header := plainHeader (env.iv 0) .sessionCreated
  let (message, encryption) := s.createdMessage prim ctx env pair dhX
  let s := { s with encryption }
  let size := getPaddedSize (message.getSize header)
  if size ≤ mtuV4 then s.writeAndSend env (s.introKeys prim ctx) header (.sessionCreated message) size
  else some s

/-- `ProcessSessionRequest`. -/
def processSessionRequest (packet : SSUSessionRequestPacket) (sender : Endpoint) : SSUSession :=
  if s.remoteRouter.isSome then s
  else
    -- a request that comes again is answered with the same key pair
    let pair := s.dhKeysPair.getD env.dhKeysPair
    let s := { s with remoteEndpoint := sender, dhKeysPair := some pair }
    match s.createAESandMACKey prim pair packet.dhX with
    | none => s
    | some s => (s.sendSessionCreated prim ctx env pair packet.dhX).getD (s.deleteSession prim env)

/-- `SendSessionConfirmed`: none is an exception. -/
def sendSessionConfirmed (pair : DHKeysPair) (dhY : Block dhPublic) (alice : Endpoint) : Option SSUSession :=
  let header := plainHeader (env.iv 0) .sessionConfirmed
  let data := signedData pair.publicKey dhY alice s.remoteEndpoint s.relayTag env.seconds
  let message : SSUSessionConfirmedPacket := ⟨ctx.keys.pub, env.seconds, signature prim ctx env data⟩
  s.writeAndSend env (s.sessionKeys prim) header (.sessionConfirmed message)
    (getPaddedSize (message.getSize header))

/-- `ProcessSessionCreated`, for a message of `len` bytes in a buffer. The signature is read as far as it
should be, whatever the length of the message. -/
def processSessionCreated (m : Mem) (len : ℕ) (header : SSUHeader) (packet : SSUSessionCreatedPacket) :
    SSUSession :=
  match s.remoteRouter, s.dhKeysPair with
  | some _, some pair =>
    match s.createAESandMACKey prim pair packet.dhY with
    | none => s
    | some s =>
      let alice : Endpoint := ⟨packet.ipAddress, packet.port⟩
      let data := signedData pair.publicKey packet.dhY alice s.remoteEndpoint packet.relayTag
        packet.signedOnTime
      let signatureLen := getPaddedSize s.remoteIdentity.getSignatureLen % 256
      -- the signature has been encrypted on its own, with the IV of the header
      let (signature, decryption) := { s.decryption with iv := header.iv }.decryptBytes
        (slice m (len - packet.signature.length) signatureLen)
      let s := { s with relayTag := packet.relayTag, decryption }
      if s.remoteIdentity.verify prim.identity data (signature.take s.remoteIdentity.getSignatureLen) then
        (s.sendSessionConfirmed prim ctx env pair packet.dhY alice).getD (s.deleteSession prim env)
      else { s with isSessionKey := false }
  | _, _ => s

/-- `ProcessSessionConfirmed`. -/
def processSessionConfirmed (packet : SSUSessionConfirmedPacket) : SSUSession :=
  if s.sessionConfirmData = [] then s
  else
    -- the identity is taken over before the signature is checked
    let packetSize := (env.packetSize packet.remoteIdentity.identHash).getD s.data.packetSize
    let data := s.sessionConfirmData.take (s.sessionConfirmData.length - 4) ++
      ctx.nativeBytes packet.signedOnTime
    let s := { s with
      remoteIdentity := packet.remoteIdentity
      sessionConfirmData := data
      data := { s.data with packetSize } }
    if s.remoteIdentity.verify prim.identity data packet.signature then s.established prim env else s

/-! ### Other messages -/

/-- `ProcessData`, for a payload that stands at the end of a message of `len` bytes. -/
def processData (m : Mem) (len : ℕ) (rawData : List UInt8) : SSUSession :=
  match s.data.processMessage env.data env.seconds m rawPacketBuffer (len - rawData.length) with
  | none => s
  | some data =>
    let s' := s.withData prim env data
    if s.state ≠ .established ∧ data.sessionState = .established then s'.clearHandshake else s'

/-- `ProcessDecryptedMessage`. -/
def processDecryptedMessage (m : Mem) (len : ℕ) (sender : Endpoint) : SSUSession :=
  -- what does not fill a block is padding
  let len := len - len % 16
  match parsePacket prim.identity (.of (slice m 0 len)) with
  | .error _ => s.deleteSession prim env
  | .ok (packet, _) =>
    match packet.payload with
    | .data _ => s.processData prim env m len packet.rawData
    | .sessionRequest message => s.processSessionRequest prim ctx env message sender
    | .sessionCreated message => s.processSessionCreated prim ctx env m len packet.header message
    | .sessionConfirmed message => s.processSessionConfirmed prim ctx env message
    | .sessionDestroyed => s.deleteSession prim env
    | .relayResponse _ => if s.state = .established then s else s.deleteSession prim env
    | .peerTest _ | .relayRequest _ | .relayIntro _ =>
      match env.others packet with
      | none => s.deleteSession prim env
      | some out => { s with sent := s.sent ++ out }

/-- The MAC key of `ProcessNextMessage`. -/
def validationKey : List UInt8 := if s.isSessionKey then s.macKey else (s.introKey ctx).bytes

/-- The decryption of `ProcessNextMessage`. -/
def currentDecryption : Decryption ivSize :=
  if s.isSessionKey then s.decryption else ⟨prim.aes (s.introKey ctx).bytes, Block.const 0⟩

/-- `ProcessNextMessage`, for a message in an open session. -/
def processMessage (m : Mem) (len : ℕ) (sender : Endpoint) : SSUSession :=
  let validated := validate (prim.hmac (s.validationKey ctx)) m len
  if validated.valid then
    match decrypt (s.currentDecryption prim ctx) validated.buf len with
    | .error _ => s.deleteSession prim env
    | .ok (m, decryption) =>
      let s := if s.isSessionKey then { s with decryption } else s
      s.processDecryptedMessage prim ctx env m len sender
  else s.deleteSession prim env

/-- `ProcessNextMessage`. -/
def processNextMessage (m : Mem) (len : ℕ) (sender : Endpoint) : SSUSession :=
  if len = 0 ∧ s.state ≠ .introduced then s
  else
    match s.state with
    | .introduced =>
      -- an introduced session waits for a hole punch, and takes any datagram for it
      let s := s.setState .unknown
      (s.connect prim ctx env).getD (s.deleteSession prim env)
    | .established | .unknown => s.processMessage prim ctx env m len sender
    | .closed | .failed => s.deleteSession prim env

/-! ### Steps -/

/-- What happens to a session. -/
inductive Input
  /-- A datagram arrives. -/
  | receive (m : Mem) (len : ℕ) (sender : Endpoint)
  | connect
  | waitForIntroduction
  /-- A connect or termination timer expires, or `Done`. -/
  | failed
  | close
  | postI2NPMessages (msgs : List I2NPMessage)
  | sendKeepAlive
  /-- The timers of `m_Data`. -/
  | resendTimer
  | decayTimer
  | cleanupTimer

/-- `PostI2NPMessages`. -/
def postI2NPMessages (msgs : List I2NPMessage) : SSUSession :=
  if s.state = .established then
    s.withData prim env (msgs.foldl (fun d msg => d.send env.seconds msg) s.data)
  else s

/-- `SendKeepAlive`: the header is not skipped, so that the zeros stand in front of the message. -/
def sendKeepAlive : SSUSession :=
  if s.state = .established then
    s.fillAndSend prim env (env.iv 0) .data (store env.fresh 0 [0, 0]) sessionDestroyedBuffer
  else s

/-- One input. A datagram that is sent once more is the one that has been sent. -/
def step (s : SSUSession) : Env × Input → SSUSession
  | (env, .receive m len sender) => s.processNextMessage prim ctx env m len sender
  | (env, .connect) => (s.connect prim ctx env).getD s
  | (_, .waitForIntroduction) => s.setState .introduced
  | (env, .failed) => s.failed prim env
  | (env, .close) => s.close prim env
  | (env, .postI2NPMessages msgs) => s.postI2NPMessages prim env msgs
  | (env, .sendKeepAlive) => s.sendKeepAlive prim env
  | (env, .resendTimer) => { s with data := s.data.handleResendTimer env.seconds.toNat }
  | (_, .decayTimer) => { s with data := s.data.handleDecayTimer }
  | (env, .cleanupTimer) => { s with data := s.data.handleIncompleteMessagesCleanupTimer env.seconds.toNat }

/-- The constructor: the keys are not set. -/
def new (remoteEndpoint : Endpoint) (remoteRouter : Option RemoteRouter) (packetSize : ℕ)
    (unsetKey : List UInt8) : SSUSession where
  remoteEndpoint
  remoteRouter
  remoteIdentity := (remoteRouter.map RemoteRouter.identity).getD {}
  sessionKey := unsetKey
  macKey := unsetKey
  encryption := ⟨plainKeys.aes, Block.const 0⟩
  decryption := ⟨plainKeys.aes, Block.const 0⟩
  data :=
    { sessionState := .unknown
      packetSize
      incompleteMessages := fun _ => none
      sentMessages := []
      receivedMessages := []
      handled := []
      datagrams := []
      timerCalls := [] }

end SSUSession

end SSU.Handshake
