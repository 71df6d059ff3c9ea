import Xi2p.NTCP.Payload
import Xi2p.PrivateKeys

/-!
# NTCP handshake

The four phases in front of the payload, `core/router/transports/ntcp/session.cc`: a session request, the
key of the server, and a signature of each side over both keys, the hash of the other router and two
timestamps. Timestamps are signed as they stand in memory.

* `Party`, `Session`: a router, and its end of a connection that is not yet established.
* `Session.turn`: what an end does next, with the bytes that have arrived for it.
* `World`: both ends, and the bytes between them.
-/

namespace NTCP

open Bytes I2NP CBC Identity

/-! ## Surroundings -/

/-- `NTCPSize::PubKey`. -/
abbrev pubKeySize : ℕ := 256

/-- `NTCPSize::Hash`. -/
abbrev hashSize : ℕ := 32

/-- `sizeof(NTCPPhase1)`. -/
abbrev phase1Size : ℕ := pubKeySize + hashSize

/-- `sizeof(NTCPPhase2)`: the key, and the encrypted hash, timestamp and padding. -/
abbrev phase2Size : ℕ := pubKeySize + 48

/-- `NTCPSize::Phase3Unencrypted`. -/
abbrev phase3Unencrypted : ℕ := 448

/-- How a machine stores numbers. -/
inductive ByteOrder
  | little
  | big
  deriving DecidableEq

/-- A number as it stands in memory. -/
def ByteOrder.bytes : ByteOrder → UInt32 → List UInt8
  | .little, v => (writeU32 v).reverse
  | .big, v => writeU32 v

/-- `ts_B`: a time of 64 bits is converted before it is cut to 32. -/
def ByteOrder.timestampB : ByteOrder → ℕ → List UInt8
  | .little, seconds => (writeBE 8 seconds).take 4
  | .big, seconds => writeBE 4 seconds

/-- The primitives of a handshake. -/
structure HandshakeCrypto where
  identity : Crypto
  schemes : Schemes
  /-- `DiffieHellman::Agree`, for a private key and the public key of the other side. -/
  agree : List UInt8 → List UInt8 → Option (Block pubKeySize)
  /-- AES with a session key. -/
  cipher : List UInt8 → BlockCipher ivSize

/-- What a router takes to a handshake. -/
structure Party where
  order : ByteOrder
  /-- `context.GetPrivateKeys()`. -/
  keys : PrivateKeys
  dhPrivateKey : List UInt8
  /-- The public key of `m_DHKeysPair`. -/
  dhPublicKey : Block pubKeySize
  /-- `GetSecondsSinceEpoch()`. -/
  seconds : ℕ
  /-- The random numbers of a signature. -/
  random : List UInt8
  /-- What `RandBytes` yields. -/
  padding : Mem
  /-- What is behind the shared key in memory, and the key before it is set. -/
  memory : Mem
  unsetKey : List UInt8
  /-- The routers that `FindNTCPSession` finds a session for. -/
  sessions : List IdentHash

/-- What a session waits for. -/
inductive Pending
  | phase1Sent
  | phase2Received
  | phase3Sent (tsA : List UInt8)
  | phase4Received (tsA : List UInt8) (count : ℕ)
  | phase1Received
  | phase2Sent (tsB : List UInt8)
  | phase3Received (tsB : List UInt8)
  | phase3ExtraReceived (tsB : List UInt8) (paddingLen count : ℕ)
  | phase4Sent
  | payload
  deriving DecidableEq

/-- `NTCPSession` during the handshake. -/
structure Session where
  party : Party
  /-- `m_RemoteIdentity`. -/
  remoteIdentity : IdentityEx
  /-- `phase1.pub_key`. -/
  x : Block pubKeySize := Block.const 0
  /-- `phase1.HXxorHI`. -/
  hxXorHI : Block hashSize := Block.const 0
  /-- `phase2.pub_key`. -/
  y : Block pubKeySize := Block.const 0
  /-- `phase2.encrypted.timestamp`. -/
  timestamp : List UInt8 := []
  /-- `m_Encryption` -/
  encryption : Encryption ivSize
  /-- `m_Decryption` -/
  decryption : Decryption ivSize
  /-- `m_ReceiveBuffer`. -/
  receiveBuffer : Mem
  pending : Pending
  isEstablished : Bool := false
  isTerminated : Bool := false

/-- The padding to whole blocks. -/
def blockPadding (len : ℕ) : ℕ := if len &&& 0x0F ≠ 0 then 16 - (len &&& 0x0F) else 0

/-- The hash of an identity as a block. -/
def hashBlock (hash : IdentHash) : Block hashSize := ⟨hash.bytes, hash.length_eq⟩

/-- The session key for a shared key that stands at the front of the memory: it begins with the first
byte that is not zero, or with a zero in front of a byte that is not positive. The search looks at one
byte behind the shared key; if it finds none the key is not set. -/
def sessionKey (m : Mem) (unsetKey : List UInt8) : List UInt8 :=
  if m 0 &&& 0x80 ≠ 0 then 0 :: slice m 0 31
  else if m 0 ≠ 0 then slice m 0 32
  else
    match (List.range' 1 pubKeySize).find? (m · ≠ 0) with
    | some i => slice m i 32
    | none => unsetKey

namespace Session

variable (crypto : HandshakeCrypto) (s : Session)

/-- `Terminate`. -/
def terminate : Session := { s with isTerminated := true, isEstablished := false }

/-- `CreateAESKey`, with the termination of the session if there is no shared key. -/
def createAESKey (otherKey : Block pubKeySize) : List UInt8 × Session :=
  match crypto.agree s.party.dhPrivateKey otherKey.bytes with
  | some shared => (sessionKey (store s.party.memory 0 shared.bytes) s.party.unsetKey, s)
  | none => (s.party.unsetKey, s.terminate)

/-- What is signed, and checked: both keys, the hash of a router, and the timestamps. -/
def signedData (hash : IdentHash) (tsA tsB : List UInt8) : List UInt8 :=
  s.x.bytes ++ s.y.bytes ++ hash.bytes ++ tsA ++ tsB

/-- `SignedData::Sign` to a place in the receive buffer. -/
def signTo (pos : ℕ) (data : List UInt8) : Mem :=
  match s.party.keys.sign crypto.schemes s.party.random data with
  | some signature => store s.receiveBuffer pos signature
  | none => s.receiveBuffer

/-- Encrypt the front of the receive buffer and write it to the socket. -/
def encryptAndSend (len : ℕ) (pending : Pending) : Session × List UInt8 :=
  let (out, encryption) := s.encryption.encryptBytes (slice s.receiveBuffer 0 len)
  ({ s with encryption, pending, receiveBuffer := store s.receiveBuffer 0 out }, out)

/-- Decrypt what has been read to a place in the receive buffer. -/
def decryptTo (pos : ℕ) (bytes : List UInt8) : Session :=
  let (plain, decryption) := s.decryption.decryptBytes bytes
  { s with decryption, receiveBuffer := store s.receiveBuffer pos plain }

/-! ### Client -/

/-- `SendPhase1`. -/
def sendPhase1 : Session × List UInt8 :=
  let x := s.party.dhPublicKey
  let hxXorHI := (hashBlock (crypto.identity.sha256 x.bytes)).xor (hashBlock s.remoteIdentity.identHash)
  ({ s with x, hxXorHI, pending := .phase1Sent }, x.bytes ++ hxXorHI.bytes)

/-- `SendPhase3`. -/
def sendPhase3 : Session × List UInt8 :=
  let identity := s.party.keys.pub
  let tsA := writeBE 4 s.party.seconds
  let front := writeBE 2 identity.getFullLen ++ identity.toBuffer ++ tsA
  let len := front.length + identity.getSignatureLen
  let paddingSize := blockPadding len
  -- the padding stands in front of the signature, so that the message ends with it
  let buf := store s.receiveBuffer 0 (front ++ slice s.party.padding 0 paddingSize)
  let s := { s with receiveBuffer := buf }
  let data := s.signedData s.remoteIdentity.identHash tsA s.timestamp
  let s := { s with receiveBuffer := s.signTo crypto (front.length + paddingSize) data }
  s.encryptAndSend (len + paddingSize) (.phase3Sent tsA)

/-- `HandlePhase2Received`, without an error code. A session that cannot agree on a key is terminated
and goes on. -/
def handlePhase2Received (bytes : List UInt8) : Session × List UInt8 :=
  let y := Block.ofBytes bytes 0
  let (key, s) := { s with y }.createAESKey crypto y
  -- the IVs are the ends of the key of the server and of the hash that the client has sent
  let decryption : Decryption ivSize := ⟨crypto.cipher key, Block.ofBytes y.bytes 240⟩
  let encryption := ⟨crypto.cipher key, Block.ofBytes s.hxXorHI.bytes 16⟩
  let (plain, decryption) := decryption.decryptBytes (bytes.drop pubKeySize)
  let s := { s with encryption, decryption, timestamp := (plain.drop hashSize).take 4 }
  if plain.take hashSize = (crypto.identity.sha256 (s.x.bytes ++ y.bytes)).bytes then s.sendPhase3 crypto
  else (s.terminate, [])

/-- `HandlePhase3Sent`, without an error code. -/
def handlePhase3Sent (tsA : List UInt8) : Session :=
  let signatureLen := s.remoteIdentity.getSignatureLen
  { s with pending := .phase4Received tsA (signatureLen + blockPadding signatureLen) }

/-- `HandlePhase4Received`, without an error code. -/
def handlePhase4Received (tsA bytes : List UInt8) : Session :=
  let s := s.decryptTo 0 bytes
  let data := s.signedData s.party.keys.pub.identHash tsA s.timestamp
  let signature := slice s.receiveBuffer 0 s.remoteIdentity.getSignatureLen
  if s.remoteIdentity.verify crypto.identity data signature then
    { s with remoteIdentity := s.remoteIdentity.fresh, isEstablished := true, pending := .payload }
  else s.terminate

/-! ### Server -/

/-- `SendPhase2`. -/
def sendPhase2 : Session × List UInt8 :=
  let y := s.party.dhPublicKey
  let hxy := crypto.identity.sha256 (s.x.bytes ++ y.bytes)
  let tsB := s.party.order.timestampB s.party.seconds
  let (key, s) := { s with y }.createAESKey crypto s.x
  let encryption : Encryption ivSize := ⟨crypto.cipher key, Block.ofBytes y.bytes 240⟩
  let decryption := ⟨crypto.cipher key, Block.ofBytes s.hxXorHI.bytes 16⟩
  -- the timestamp is padded to a whole block
  let (out, encryption) := encryption.encryptBytes (hxy.bytes ++ tsB ++ slice s.party.padding 0 12)
  ({ s with encryption, decryption, pending := .phase2Sent tsB }, y.bytes ++ out)

/-- `HandlePhase1Received`, without an error code. -/
def handlePhase1Received (bytes : List UInt8) : Session × List UInt8 :=
  let s := { s with x := Block.ofBytes bytes 0, hxXorHI := Block.ofBytes bytes pubKeySize }
  let ident := hashBlock s.party.keys.pub.identHash
  if s.hxXorHI.xor ident = hashBlock (crypto.identity.sha256 s.x.bytes) then s.sendPhase2 crypto
  else (s.terminate, [])

/-- `SendPhase4`. -/
def sendPhase4 (tsA : UInt32) (tsB : List UInt8) : Session × List UInt8 :=
  let signatureLen := s.party.keys.pub.getSignatureLen
  let data := s.signedData s.remoteIdentity.identHash (s.party.order.bytes tsA) tsB
  let s := { s with receiveBuffer := s.signTo crypto 0 data }
  s.encryptAndSend (signatureLen + blockPadding signatureLen) .phase4Sent

/-- `HandlePhase3`. -/
def handlePhase3 (tsB : List UInt8) (paddingLen : ℕ) : Session × List UInt8 :=
  let pos := s.remoteIdentity.getFullLen + phase3AliceRI
  let tsA := readU32 (slice s.receiveBuffer pos 4)
  let signature := slice s.receiveBuffer (pos + phase3AliceTS + paddingLen) s.remoteIdentity.getSignatureLen
  -- the timestamp has been converted to a number
  let data := s.signedData s.party.keys.pub.identHash (s.party.order.bytes tsA) tsB
  if s.remoteIdentity.verify crypto.identity data signature then
    { s with remoteIdentity := s.remoteIdentity.fresh }.sendPhase4 crypto tsA tsB
  else (s.terminate, [])

/-- `HandlePhase3Received`, without an error code. A session for a router that has one already is
terminated and goes on. -/
def handlePhase3Received (tsB bytes : List UInt8) : Session × List UInt8 :=
  let s := s.decryptTo 0 bytes
  let size := readBE (slice s.receiveBuffer 0 2)
  let (remoteIdentity, _) :=
    IdentityEx.fromBuffer crypto.identity s.remoteIdentity s.receiveBuffer phase3AliceRI size
  let s := { s with remoteIdentity }
  let s := if remoteIdentity.identHash ∈ s.party.sessions then s.terminate else s
  let expectedSize := size + phase3AliceRI + phase3AliceTS + remoteIdentity.getSignatureLen
  let paddingLen := blockPadding expectedSize
  -- that many bytes are read in addition
  if expectedSize > phase3Unencrypted then
    ({ s with pending := .phase3ExtraReceived tsB paddingLen (expectedSize + paddingLen) }, [])
  else s.handlePhase3 crypto tsB paddingLen

/-- `HandlePhase3ExtraReceived`, without an error code. -/
def handlePhase3ExtraReceived (tsB : List UInt8) (paddingLen : ℕ) (bytes : List UInt8) :
    Session × List UInt8 :=
  (s.decryptTo phase3Unencrypted bytes).handlePhase3 crypto tsB paddingLen

/-- `HandlePhase4Sent`, without an error code. -/
def handlePhase4Sent : Session := { s with isEstablished := true, pending := .payload }

/-! ### Turns -/

/-- Read `count` bytes and handle them, if they have arrived. -/
def whenArrived (count : ℕ) (handle : List UInt8 → Session × List UInt8) (arrived : List UInt8) :
    Session × List UInt8 × List UInt8 :=
  if arrived.length < count then (s, arrived, [])
  else
    let (s, out) := handle (arrived.take count)
    (s, arrived.drop count, out)

/-- The next handler: the session, what is left of the bytes that have arrived, and what is written.
The socket of a terminated session is closed. -/
def turn (arrived : List UInt8) : Session × List UInt8 × List UInt8 :=
  if s.isTerminated then (s, arrived, [])
  else
    let (s, rest, out) :=
      match s.pending with
      | .phase1Sent => ({ s with pending := .phase2Received }, arrived, [])
      | .phase2Received => s.whenArrived phase2Size (s.handlePhase2Received crypto) arrived
      | .phase3Sent tsA => (s.handlePhase3Sent tsA, arrived, [])
      | .phase4Received tsA count =>
        s.whenArrived count (fun bytes => (s.handlePhase4Received crypto tsA bytes, [])) arrived
      | .phase1Received => s.whenArrived phase1Size (s.handlePhase1Received crypto) arrived
      | .phase2Sent tsB => ({ s with pending := .phase3Received tsB }, arrived, [])
      | .phase3Received tsB =>
        s.whenArrived phase3Unencrypted (s.handlePhase3Received crypto tsB) arrived
      | .phase3ExtraReceived tsB paddingLen count =>
        s.whenArrived count (s.handlePhase3ExtraReceived crypto tsB paddingLen) arrived
      | .phase4Sent => (s.handlePhase4Sent, arrived, [])
      | .payload => (s, arrived, [])
    (s, rest, if s.isTerminated then [] else out)

end Session

/-! ## Both ends -/

/-- A session before its keys are set. -/
def Session.new (party : Party) (remoteIdentity : IdentityEx) (buffer : Mem) (pending : Pending) : Session where
  party
  remoteIdentity
  encryption := ⟨⟨id, id, fun _ => rfl⟩, Block.const 0⟩
  decryption := ⟨⟨id, id, fun _ => rfl⟩, Block.const 0⟩
  receiveBuffer := buffer
  pending

/-- A client, a server, and what has been written but not read. -/
structure World where
  client : Session
  server : Session
  toServer : List UInt8
  toClient : List UInt8

/-- Whose turn it is. -/
inductive Turn
  | client
  | server

/-- One handler of one end. -/
def World.step (crypto : HandshakeCrypto) (w : World) : Turn → World
  | .client =>
    let (client, toClient, out) := w.client.turn crypto w.toClient
    { w with client, toClient, toServer := w.toServer ++ out }
  | .server =>
    let (server, toServer, out) := w.server.turn crypto w.toServer
    { w with server, toServer, toClient := w.toClient ++ out }

/-- `StartClientSession` and `ServerLogin`. -/
def World.start (crypto : HandshakeCrypto) (client server : Party) (remoteIdentity : IdentityEx)
    (clientBuffer serverBuffer : Mem) : World :=
  let (client, out) := (Session.new client remoteIdentity clientBuffer .phase1Sent).sendPhase1 crypto
  { client
    server := Session.new server {} serverBuffer .phase1Received
    toServer := out
    toClient := [] }

end NTCP
