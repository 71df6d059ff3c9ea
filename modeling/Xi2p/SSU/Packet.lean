import Xi2p.ByteStream
import Xi2p.Identity
import Xi2p.Lib.CBC
import Xi2p.SSU.Data

/-!
# SSU packets

`SSUPacketParser` and `SSUPacketBuilder` of `core/router/transports/ssu/packet.cc`: the header, the
payloads of the nine types, the functions that read them and, for the messages of the handshake, the
functions that write them.

A pointer into a packet is modelled by the bytes it points to.
-/

namespace SSU

open Bytes ByteStream CBC Identity

/-! ## Sizes and flags -/

/-- `SSUSize::MAC`. -/
abbrev macSize : ℕ := 16

/-- `SSUSize::IV`. -/
abbrev ivSize : ℕ := 16

/-- `SSUSize::IntroKey`. -/
abbrev introKeySize : ℕ := 32

/-- `SSUSize::KeyingMaterial`. -/
abbrev keyingMaterial : ℕ := 64

/-- `SSUSize::DHPublic`. -/
abbrev dhPublic : ℕ := 256

/-- `SSUFlag::ExtendedOptions`. -/
abbrev flagExtendedOptions : UInt8 := 0x04

/-- `SSUFlag::Rekey`. -/
abbrev flagRekey : UInt8 := 0x08

/-- `SSUFlag::DataACKBitFieldHasNext`. -/
abbrev dataACKBitFieldHasNext : UInt8 := 0x80

/-! ## Addresses -/

/-- `boost::asio::ip::address`. -/
inductive IPAddress
  | v4 (bytes : Block 4)
  | v6 (bytes : Block 16)

namespace IPAddress

/-- `AddressToByteVector`. -/
def bytes : IPAddress → List UInt8
  | v4 bytes => bytes.bytes
  | v6 bytes => bytes.bytes

/-- `is_v4`. -/
def isV4 : IPAddress → Bool
  | v4 _ => true
  | v6 _ => false

/-- `is_unspecified`. -/
def isUnspecified (a : IPAddress) : Bool := a.bytes.all (· = 0)

/-- The address with the given bytes, if there are four or sixteen. -/
def ofBytes? (bs : List UInt8) : Option IPAddress :=
  if h : bs.length = 4 then some (v4 ⟨bs, h⟩)
  else if h : bs.length = 16 then some (v6 ⟨bs, h⟩)
  else none

/-- An address without bytes set, as `boost::asio::ip::address{}`. -/
def unspecified : IPAddress := v4 ⟨[0, 0, 0, 0], rfl⟩

end IPAddress

/-! ## Headers -/

/-- `SSUPayloadType`. -/
inductive SSUPayloadType
  | sessionRequest
  | sessionCreated
  | sessionConfirmed
  | relayRequest
  | relayResponse
  | relayIntro
  | data
  | peerTest
  | sessionDestroyed
  deriving DecidableEq

namespace SSUPayloadType

/-- The value of a payload type. -/
def code : SSUPayloadType → UInt8
  | sessionRequest => 0
  | sessionCreated => 1
  | sessionConfirmed => 2
  | relayRequest => 3
  | relayResponse => 4
  | relayIntro => 5
  | data => 6
  | peerTest => 7
  | sessionDestroyed => 8

/-- The payload type with a value. -/
def ofCode? (n : UInt8) : Option SSUPayloadType :=
  match n.toNat with
  | 0 => some sessionRequest
  | 1 => some sessionCreated
  | 2 => some sessionConfirmed
  | 3 => some relayRequest
  | 4 => some relayResponse
  | 5 => some relayIntro
  | 6 => some data
  | 7 => some peerTest
  | 8 => some sessionDestroyed
  | _ => none

end SSUPayloadType

/-- `SSUHeader`. -/
structure SSUHeader where
  /-- `m_MAC`; a header that is still to be sent has none. -/
  mac : Option (Block macSize)
  /-- `m_IV`. -/
  iv : Block ivSize
  /-- `m_PayloadType`. -/
  payloadType : SSUPayloadType
  /-- `m_Time`. -/
  time : UInt32
  /-- `m_Rekey`. -/
  rekey : Bool := false
  /-- `m_Extended`. -/
  extended : Bool := false
  /-- `m_ExtendedOptions`, of `m_ExtendedOptionsSize` bytes. -/
  extendedOptions : List UInt8 := []
  /-- The size is a single byte. -/
  length_extendedOptions_lt : extendedOptions.length < 256 := by decide
  /-- Options come with their flag. -/
  extendedOptions_eq_nil : extended = false → extendedOptions = [] := by intro _; rfl

/-- `SSUHeader::GetSize`. -/
def SSUHeader.getSize (h : SSUHeader) : ℕ :=
  headerMin + (if h.rekey then keyingMaterial else 0) +
    (if h.extended then 1 + h.extendedOptions.length else 0)

/-! ## Payloads -/

/-- `SSUSessionRequestPacket`. -/
structure SSUSessionRequestPacket where
  /-- `m_DhX`. -/
  dhX : Block dhPublic
  /-- `m_IPAddress`. -/
  ipAddress : IPAddress

/-- `SSUSessionCreatedPacket`. -/
structure SSUSessionCreatedPacket where
  /-- `m_DhY`. -/
  dhY : Block dhPublic
  /-- `m_IPAddress`. -/
  ipAddress : IPAddress
  /-- `m_Port`. -/
  port : UInt16
  /-- `m_RelayTag`. -/
  relayTag : UInt32
  /-- `m_SignedOnTime`. -/
  signedOnTime : UInt32
  /-- `m_Signature`, of `m_SignatureSize` bytes. -/
  signature : List UInt8

/-- `SSUSessionConfirmedPacket`. -/
structure SSUSessionConfirmedPacket where
  /-- `m_RemoteIdentity`. -/
  remoteIdentity : IdentityEx
  /-- `m_SignedOnTime`. -/
  signedOnTime : UInt32
  /-- `m_Signature`: the bytes behind the pointer. -/
  signature : List UInt8

/-- `SSURelayRequestPacket`. -/
structure SSURelayRequestPacket where
  /-- `m_RelayTag`. -/
  relayTag : UInt32
  /-- `m_IPAddress`. -/
  ipAddress : List UInt8
  /-- `m_Port`. -/
  port : UInt16
  /-- `m_Challenge`. -/
  challenge : List UInt8
  /-- `m_IntroKey`. -/
  introKey : List UInt8
  /-- `m_Nonce`. -/
  nonce : UInt32

/-- `SSURelayResponsePacket`. -/
structure SSURelayResponsePacket where
  /-- `m_IPAddressCharlie`. -/
  ipAddressCharlie : List UInt8
  /-- `m_PortCharlie`. -/
  portCharlie : UInt16
  /-- `m_IPAddressAlice`. -/
  ipAddressAlice : List UInt8
  /-- `m_PortAlice`. -/
  portAlice : UInt16
  /-- `m_Nonce`. -/
  nonce : UInt32

/-- `SSURelayIntroPacket`. -/
structure SSURelayIntroPacket where
  /-- `m_IPAddress`. -/
  ipAddress : List UInt8
  /-- `m_Port`. -/
  port : UInt16
  /-- `m_Challenge`. -/
  challenge : List UInt8

/-- `SSUFragment`. -/
structure SSUFragment where
  /-- `m_MessageID`: one byte only. -/
  messageID : UInt8
  /-- `m_Number`. -/
  number : UInt8
  /-- `m_IsLast`. -/
  isLast : Bool
  /-- `m_Data`, of `m_Size` bytes. -/
  data : List UInt8

/-- `SSUDataPacket`. -/
structure SSUDataPacket where
  /-- `m_ExplicitACKs`. -/
  explicitACKs : List UInt32
  /-- `m_ACKs`. -/
  acks : List UInt32
  /-- `m_ACKBitfields`. -/
  ackBitfields : List UInt8
  /-- `m_Fragments`. -/
  fragments : List SSUFragment

/-- `SSUPeerTestPacket`. -/
structure SSUPeerTestPacket where
  /-- `m_Nonce`. -/
  nonce : UInt32
  /-- `m_IPAddress`. -/
  ipAddress : IPAddress
  /-- `m_Port`. -/
  port : UInt16
  /-- `m_IntroKey`. -/
  introKey : Block introKeySize

/-- The payload of an `SSUPacket`. -/
inductive SSUPayload
  | sessionRequest (packet : SSUSessionRequestPacket)
  | sessionCreated (packet : SSUSessionCreatedPacket)
  | sessionConfirmed (packet : SSUSessionConfirmedPacket)
  | relayRequest (packet : SSURelayRequestPacket)
  | relayResponse (packet : SSURelayResponsePacket)
  | relayIntro (packet : SSURelayIntroPacket)
  | data (packet : SSUDataPacket)
  | peerTest (packet : SSUPeerTestPacket)
  | sessionDestroyed

/-- The type of a payload. -/
def SSUPayload.payloadType : SSUPayload → SSUPayloadType
  | .sessionRequest _ => .sessionRequest
  | .sessionCreated _ => .sessionCreated
  | .sessionConfirmed _ => .sessionConfirmed
  | .relayRequest _ => .relayRequest
  | .relayResponse _ => .relayResponse
  | .relayIntro _ => .relayIntro
  | .data _ => .data
  | .peerTest _ => .peerTest
  | .sessionDestroyed => .sessionDestroyed

/-- `SSUPacket`. -/
structure SSUPacket where
  /-- `m_Header`. -/
  header : SSUHeader
  /-- The payload. -/
  payload : SSUPayload
  /-- `m_RawData`, of `m_RawDataLength` bytes. -/
  rawData : List UInt8

/-! ## Padding -/

/-- `SSUPacketBuilder::GetPaddingSize`. -/
def getPaddingSize (size : ℕ) : ℕ := if size % 16 ≠ 0 then 16 - size % 16 else 0

/-- `SSUPacketBuilder::GetPaddedSize`. -/
def getPaddedSize (size : ℕ) : ℕ := size + getPaddingSize size

/-! ## Parsing -/

/-- `ReadBytes(len)`, for a field of fixed size. -/
def readBlock (n : ℕ) : Parser (Block n) := do
  let bs ← readBytes n
  if h : bs.length = n then return ⟨bs, h⟩
  else throw (.lengthError "ByteStream: invalid length advancement")

/-- A size of one byte, and that many bytes. -/
def readSized : Parser (List UInt8) := do
  let size ← read8
  readBytes size.toNat

/-- Run a reader `n` times. -/
def readMany {α : Type} (p : Parser α) : ℕ → Parser (List α)
  | 0 => return []
  | n + 1 => do
    let a ← p
    return a :: (← readMany p n)

/-- `SetIPAddress`, for an address that has one of the sizes `sizes`. -/
def checkAddressSize (sizes : List ℕ) (address : List UInt8) : Parser (List UInt8) :=
  if address.length ∈ sizes then return address
  else throw (.lengthError "invalid IP address size")

/-- `SetIPAddress`, for an address of four or sixteen bytes. -/
def readIPAddress : Parser IPAddress := do
  match IPAddress.ofBytes? (← readSized) with
  | some address => return address
  | none => throw (.lengthError "invalid IP address size")

/-- The keying material of `ParseHeader`, which is ignored. -/
def skipKeyingMaterial (rekey : Bool) : Parser Unit :=
  if rekey then skipBytes keyingMaterial else pure ()

/-- The extended options of `ParseHeader`. -/
def parseExtendedOptions (extended : Bool) : Parser (List UInt8) :=
  if extended then readSized else pure []

/-- The header with the fields that were read. -/
def makeHeader (mac : Block macSize) (iv : Block ivSize) (payloadType : SSUPayloadType)
    (time : UInt32) (rekey extended : Bool) (options : List UInt8) : Parser SSUHeader :=
  -- the condition always holds of what `parseExtendedOptions` returns
  if h : options.length < 256 ∧ (extended = false → options = []) then
    return ⟨some mac, iv, payloadType, time, rekey, extended, options, h.1, h.2⟩
  else throw (.lengthError "ByteStream: invalid length advancement")

/-- `ParseHeader`, behind the check of the length. -/
def parseHeaderFields : Parser SSUHeader := do
  let mac ← readBlock macSize
  let iv ← readBlock ivSize
  let flag ← read8
  let rekey : Bool := flag &&& flagRekey ≠ 0
  let extended : Bool := flag &&& flagExtendedOptions ≠ 0
  match SSUPayloadType.ofCode? (flag >>> 4) with
  | none => throw (.invalidArgument "SSUHeader::SetPayloadType invalid type given")
  | some payloadType =>
    let time ← read32
    skipKeyingMaterial rekey
    let options ← parseExtendedOptions extended
    makeHeader mac iv payloadType time rekey extended options

/-- `ParseHeader`. -/
def parseHeader : Parser SSUHeader := fun s =>
  if s.rest.length < headerMin then .error (.lengthError "SSU header too small")
  else parseHeaderFields s

/-- `ParseSessionRequest`. -/
def parseSessionRequest : Parser SSUSessionRequestPacket := do
  let dhX ← readBlock dhPublic
  let ipAddress ← readIPAddress
  return { dhX, ipAddress }

/-- `ParseSessionCreated`: the signature is all that is left. -/
def parseSessionCreated : Parser SSUSessionCreatedPacket := do
  let dhY ← readBlock dhPublic
  let ipAddress ← readIPAddress
  let port ← read16
  let relayTag ← read32
  let signedOnTime ← read32
  return { dhY, ipAddress, port, relayTag, signedOnTime, signature := (← get).rest }

/-- The identity of `ParseSessionConfirmed`, behind its size. -/
def parseIdentity (c : Crypto) : Parser IdentityEx := do
  let identitySize ← read16
  let buffer ← readBytes identitySize.toNat
  let r := IdentityEx.fromBuffer c {} (store (fun _ => 0) 0 buffer) 0 identitySize.toNat
  if r.2 = 0 then throw (.lengthError "SSUPacketParser: invalid length within identity")
  else return r.1

/-- `ParseSessionConfirmed`, behind the given header. -/
def parseSessionConfirmed (c : Crypto) (header : SSUHeader) : Parser SSUSessionConfirmedPacket := do
  let initLength := (← get).rest.length
  skipBytes 1
  let identity ← parseIdentity c
  let signedOnTime ← read32
  skipBytes (getPaddingSize (header.getSize + (initLength - (← get).rest.length) +
    identity.getSignatureLen))
  return { remoteIdentity := identity, signedOnTime, signature := (← get).rest }

/-- `ParseRelayRequest`. -/
def parseRelayRequest : Parser SSURelayRequestPacket := do
  let relayTag ← read32
  let ipAddress ← checkAddressSize [0, 4] (← readSized)
  let port ← read16
  let challenge ← readSized
  let introKey ← readBytes introKeySize
  let nonce ← read32
  return { relayTag, ipAddress, port, challenge, introKey, nonce }

/-- `ParseRelayResponse`. -/
def parseRelayResponse : Parser SSURelayResponsePacket := do
  let ipAddressCharlie ← checkAddressSize [4] (← readSized)
  let portCharlie ← read16
  let ipAddressAlice ← checkAddressSize [4, 16] (← readSized)
  let portAlice ← read16
  let nonce ← read32
  return { ipAddressCharlie, portCharlie, ipAddressAlice, portAlice, nonce }

/-- `ParseRelayIntro`. -/
def parseRelayIntro : Parser SSURelayIntroPacket := do
  let ipAddress ← checkAddressSize [4] (← readSized)
  let port ← read16
  let challenge ← readSized
  return { ipAddress, port, challenge }

/-- `ParseFragment`. -/
def parseFragment : Parser SSUFragment := do
  let messageID ← read32
  let info := readBE (← readBytes 3)
  let size := info &&& 0x3FFF
  if size > (← get).size then throw (.lengthError "SSUPacketParser: invalid fragment size")
  let data ← readBytes size
  return ⟨messageID.toUInt8, UInt8.ofNat (info >>> 17), info.testBit 16, data⟩

/-- The bit fields of `ParseData`, up to the first one without a successor. Every round reads a
byte, so that as many rounds as bytes are enough. -/
def readBitfields : ℕ → Parser (List UInt8)
  | 0 => throw (.lengthError "ByteStream: invalid length advancement")
  | rounds + 1 => do
    let bitfield ← read8
    if bitfield &&& dataACKBitFieldHasNext ≠ 0 then return bitfield :: (← readBitfields rounds)
    else return [bitfield]

/-- The explicit ACKs of `ParseData`. -/
def parseExplicitACKs (flags : UInt8) : Parser (List UInt32) :=
  if flags &&& dataExplicitACKsIncluded ≠ 0 then do
    let count ← read8
    readMany read32 count.toNat
  else return []

/-- The ACK bit fields of `ParseData`: all message IDs, then a single chain of bit fields. -/
def parseACKBitfields (flags : UInt8) : Parser (List UInt32 × List UInt8) :=
  if flags &&& dataACKBitfieldsIncluded ≠ 0 then do
    let count ← read8
    let acks ← readMany read32 count.toNat
    let bitfields ← readBitfields (← get).rest.length
    return (acks, bitfields)
  else return ([], [])

/-- The extended data of `ParseData`, which is ignored. -/
def skipExtendedData (flags : UInt8) : Parser Unit :=
  if flags &&& dataExtendedIncluded ≠ 0 then do
    let size ← read8
    skipBytes size.toNat
  else return ()

/-- `ParseData`. -/
def parseData : Parser SSUDataPacket := do
  let flags ← read8
  let explicitACKs ← parseExplicitACKs flags
  let (acks, ackBitfields) ← parseACKBitfields flags
  skipExtendedData flags
  let count ← read8
  let fragments ← readMany parseFragment count.toNat
  return { explicitACKs, acks, ackBitfields, fragments }

/-- `ParsePeerTest`. -/
def parsePeerTest : Parser SSUPeerTestPacket := do
  let nonce ← read32
  match IPAddress.ofBytes? (← readSized) with
  | none => throw (.lengthError "invalid address size")
  | some ipAddress =>
    let port ← read16
    let introKey ← readBlock introKeySize
    return { nonce, ipAddress, port, introKey }

/-- The payload of `ParsePacket`. -/
def parsePayload (c : Crypto) (header : SSUHeader) : Parser SSUPayload :=
  match header.payloadType with
  | .sessionRequest => .sessionRequest <$> parseSessionRequest
  | .sessionCreated => .sessionCreated <$> parseSessionCreated
  | .sessionConfirmed => .sessionConfirmed <$> parseSessionConfirmed c header
  | .relayRequest => .relayRequest <$> parseRelayRequest
  | .relayResponse => .relayResponse <$> parseRelayResponse
  | .relayIntro => .relayIntro <$> parseRelayIntro
  | .data => .data <$> parseData
  | .peerTest => .peerTest <$> parsePeerTest
  | .sessionDestroyed => pure .sessionDestroyed

/-- `ParsePacket`. -/
def parsePacket (c : Crypto) : Parser SSUPacket := do
  let header ← parseHeader
  let rawData := (← get).rest
  let payload ← parsePayload c header
  return { header, payload, rawData }

/-! ## Building -/

/-- `SSUSessionRequestPacket::GetSize`, behind the given header. -/
def SSUSessionRequestPacket.getSize (packet : SSUSessionRequestPacket) (header : SSUHeader) : ℕ :=
  header.getSize + dhPublic + 1 + packet.ipAddress.bytes.length

/-- `SSUSessionCreatedPacket::GetSize`, behind the given header. -/
def SSUSessionCreatedPacket.getSize (packet : SSUSessionCreatedPacket) (header : SSUHeader) : ℕ :=
  header.getSize + dhPublic + 1 + packet.ipAddress.bytes.length + 2 + 4 + 4 +
    packet.signature.length

/-- What `SSUSessionConfirmedPacket::GetSize` rounds up, behind the given header. -/
def SSUSessionConfirmedPacket.unpaddedSize (packet : SSUSessionConfirmedPacket)
    (header : SSUHeader) : ℕ :=
  header.getSize + 3 + packet.remoteIdentity.getFullLen + packet.remoteIdentity.getSignatureLen + 4

/-- `SSUSessionConfirmedPacket::GetSize`, behind the given header. -/
def SSUSessionConfirmedPacket.getSize (packet : SSUSessionConfirmedPacket)
    (header : SSUHeader) : ℕ :=
  getPaddedSize (packet.unpaddedSize header)

/-- The flag of `WriteHeader`. -/
def SSUHeader.flag (header : SSUHeader) : UInt8 :=
  (header.payloadType.code <<< 4) + (header.rekey.toUInt8 <<< 3) + (header.extended.toUInt8 <<< 2)

/-- The MAC of `WriteHeader`; without one, its place is left for later. -/
def writeMAC : Option (Block macSize) → Writer Unit
  | some mac => writeData mac.bytes
  | none => writeZeros macSize

/-- The extended options of `WriteHeader`. -/
def writeExtendedOptions (header : SSUHeader) : Writer Unit :=
  if header.extended then do
    write8 (UInt8.ofNat header.extendedOptions.length)
    writeData header.extendedOptions
  else pure ()

/-- `WriteHeader`: no keying material is written. -/
def writeHeader (header : SSUHeader) : Writer Unit := do
  writeMAC header.mac
  writeData header.iv.bytes
  write8 header.flag
  write32 header.time
  writeExtendedOptions header

/-- An address behind its size. -/
def writeIPAddress (address : IPAddress) : Writer Unit := do
  write8 (UInt8.ofNat address.bytes.length)
  writeData address.bytes

/-- `WriteSessionRequest`. -/
def writeSessionRequest (packet : SSUSessionRequestPacket) : Writer Unit := do
  writeData packet.dhX.bytes
  writeIPAddress packet.ipAddress

/-- `WriteSessionCreated`. -/
def writeSessionCreated (packet : SSUSessionCreatedPacket) : Writer Unit := do
  writeData packet.dhY.bytes
  writeIPAddress packet.ipAddress
  write16 packet.port
  write32 packet.relayTag
  write32 packet.signedOnTime
  writeData packet.signature

/-- `WriteSessionConfirmed`, up to the padding. -/
def writeIdentityAndTime (packet : SSUSessionConfirmedPacket) : Writer Unit := do
  write8 0x01
  let identity := packet.remoteIdentity
  write16 (UInt16.ofNat identity.getFullLen)
  skipAndFill identity.getFullLen identity.toBuffer
  write32 packet.signedOnTime

/-- `WriteSessionConfirmed`, behind the given header; `randBytes` gives the bytes of the padding. -/
def writeSessionConfirmed (randBytes : (n : ℕ) → Block n) (header : SSUHeader)
    (packet : SSUSessionConfirmedPacket) : Writer Unit := do
  let start := (← get).written.length
  writeIdentityAndTime packet
  let signatureSize := packet.remoteIdentity.getSignatureLen
  let paddingSize := getPaddingSize (header.getSize + ((← get).written.length - start) +
    signatureSize)
  skipAndFill paddingSize (randBytes paddingSize).bytes
  writeData (packet.signature.take signatureSize)

/-- `WritePacket`, behind the given header; only the messages of the handshake are written. -/
def writePacket (randBytes : (n : ℕ) → Block n) (header : SSUHeader) : SSUPayload → Writer Unit
  | .sessionRequest packet => writeSessionRequest packet
  | .sessionCreated packet => writeSessionCreated packet
  | .sessionConfirmed packet => writeSessionConfirmed randBytes header packet
  | _ => pure ()

end SSU
