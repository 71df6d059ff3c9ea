import Xi2p.SSU.PacketSize
import Xi2p.SSU.RoundTrip

/-!
# Messages written by the session

The messages of `SSUSession` that do not go through the packet builder: `SendRelayRequest`,
`SendRelayResponse`, `SendRelayIntro`, `SendPeerTest` and `SendKeepAlive` write to a byte stream of
their own, and `FillHeaderAndEncrypt` fills in the header. The stream reserves its memory and does
not clear it.

A message is modelled as it stands before encryption, which is how it reaches the parser of the
receiver.

* `parsePacket_plaintext`: the receiver parses the header and then the bytes behind it.
-/

namespace SSU

open Bytes ByteStream CBC Identity

/-! ## Sizes -/

/-- `SSUSize::RelayRequestBuffer`. -/
abbrev relayRequestBuffer : ℕ := 96

/-- `SSUSize::RelayResponseBuffer`. -/
abbrev relayResponseBuffer : ℕ := 80

/-- `SSUSize::RelayIntroBuffer`. -/
abbrev relayIntroBuffer : ℕ := 48

/-- `SSUSize::PeerTestBuffer`. -/
abbrev peerTestBuffer : ℕ := 80

/-! ## Headers -/

/-- `boost::asio::ip::udp::endpoint`. -/
structure Endpoint where
  /-- `address()`. -/
  address : IPAddress
  /-- `port()`. -/
  port : UInt16

/-- What `FillHeaderAndEncrypt` puts into the header besides the type. -/
structure HeaderFill where
  /-- The MAC. -/
  mac : Block macSize
  /-- The IV, which is random. -/
  iv : Block ivSize
  /-- The time. -/
  time : UInt32

/-- A message for `FillHeaderAndEncrypt`. -/
structure OutMessage where
  /-- `payload_type`. -/
  payloadType : SSUPayloadType
  /-- The writes to the stream. -/
  write : Writer Unit
  /-- The size of the message; the stream has a margin behind it. -/
  size : ℕ

theorem length_nil_lt : ([] : List UInt8).length < 256 := by decide

theorem nil_of_eq_false : false = false → ([] : List UInt8) = [] := fun _ => rfl

/-- The header that is filled in. -/
def HeaderFill.header (fill : HeaderFill) (payloadType : SSUPayloadType) : SSUHeader :=
  { mac := some fill.mac
    iv := fill.iv
    payloadType
    time := fill.time
    length_extendedOptions_lt := length_nil_lt
    extendedOptions_eq_nil := nil_of_eq_false }

/-- The plain text of a message that was written to memory holding `fresh`. -/
def OutMessage.plaintext (fresh : Mem) (fill : HeaderFill) (msg : OutMessage) :
    Except StdException (List UInt8) := do
  let (_, out) ← msg.write (.ofLength (msg.size + bufferMargin))
  let buf := store fresh 0 out.written
  -- MAC at offset 0, IV at 16, flag at 32 and time at 33
  let buf := store buf 0 (fill.mac.bytes ++ (fill.iv.bytes ++
    ([msg.payloadType.code <<< 4] ++ writeU32 fill.time)))
  return slice buf 0 msg.size

/-! ## Senders -/

/-- `SendRelayRequest`, with the random nonce; `key` is our own introduction key, of which one word
is written. -/
def sendRelayRequest (introducerTag nonce : UInt32) (key : Block introKeySize) : OutMessage :=
  { payloadType := .relayRequest
    write := do
      writeZeros headerMin
      write32 introducerTag
      -- address, port and challenge
      writeZeros 4
      write32 (readU32 (key.bytes.take 4))
      write32 nonce
    size := relayRequestBuffer }

/-- `SendRelayResponse`, about Alice at `alice` and Charlie at `charlie`; Charlie's address must be
IPv4. -/
def sendRelayResponse (nonce : UInt32) (alice charlie : Endpoint) : Option OutMessage :=
  if charlie.address.isV4 then
    some
      { payloadType := .relayResponse
        write := do
          writeZeros headerMin
          write8 4
          write32 (readU32 charlie.address.bytes)
          write16 charlie.port
          writeIPAddress alice.address
          write16 alice.port
          write32 nonce
        size := if alice.address.isV4 then relayResponseBuffer - 16 else relayResponseBuffer }
  else none

/-- `SendRelayIntro`, about Alice at `alice`; her address must be IPv4. -/
def sendRelayIntro (alice : Endpoint) : Option OutMessage :=
  if alice.address.isV4 then
    some
      { payloadType := .relayIntro
        write := do
          writeZeros headerMin
          write8 4
          write32 (readU32 alice.address.bytes)
          write16 alice.port
          -- the size of the challenge
          writeZeros 1
        size := relayIntroBuffer }
  else none

/-- `SendKeepAlive`: the header is not skipped, so that the zeros stand in front of the message. -/
def sendKeepAlive : OutMessage :=
  { payloadType := .data
    write := writeZeros 2
    size := 48 }

/-- The address of `SendPeerTest`; a size of zero stands for none. -/
def writePeerAddress (address : IPAddress) (sendAddress : Bool) : Writer Unit :=
  if sendAddress && !address.isUnspecified then writeIPAddress address else writeZeros 1

/-- `SendPeerTest`; `ourKey` is the key of our own address, which is written for messages that go
directly to the address. -/
def sendPeerTest (nonce : UInt32) (endpoint : Endpoint) (introKey ourKey : Block introKeySize)
    (toAddress sendAddress : Bool) : OutMessage :=
  { payloadType := .peerTest
    write := do
      writeZeros headerMin
      write32 nonce
      writePeerAddress endpoint.address sendAddress
      write16 endpoint.port
      writeData (if toAddress then ourKey else introKey).bytes
    size := peerTestBuffer }

/-! ## Parsing -/

namespace HeaderFill

variable (fill : HeaderFill) (payloadType : SSUPayloadType)

theorem bytes_header : (fill.header payloadType).bytes =
    fill.mac.bytes ++ (fill.iv.bytes ++ ([payloadType.code <<< 4] ++ writeU32 fill.time)) := by
  have hflag : (fill.header payloadType).flag = payloadType.code <<< 4 := by
    cases payloadType <;> rfl
  have hoptions : (fill.header payloadType).optionBytes = [] := rfl
  rw [SSUHeader.bytes, hflag, hoptions, List.append_nil]
  rfl

theorem length_bytes_header : (fill.header payloadType).bytes.length = headerMin :=
  (fill.header payloadType).length_bytes

theorem received_header : (fill.header payloadType).received = fill.header payloadType := rfl

theorem optionsPresent_header : (fill.header payloadType).OptionsPresent := by
  intro hextended
  cases hextended

end HeaderFill

/-- The header, and behind it what was written behind its place, or else the fresh memory. -/
theorem OutMessage.plaintext_eq {msg : OutMessage} {bytes : List UInt8} (hw : Writes msg.write bytes)
    (hroom : bytes.length ≤ msg.size + bufferMargin) (hsize : headerMin ≤ msg.size)
    (fresh : Mem) (fill : HeaderFill) :
    msg.plaintext fresh fill =
      .ok ((fill.header msg.payloadType).bytes ++
        slice (store fresh 0 bytes) headerMin (msg.size - headerMin)) := by
  have hlen := fill.length_bytes_header msg.payloadType
  have hout : msg.write (.ofLength (msg.size + bufferMargin)) =
      .ok ((), ⟨[] ++ bytes, msg.size + bufferMargin - bytes.length⟩) := hw _ hroom
  unfold plaintext
  rw [hout, ← fill.bytes_header]
  show Except.ok (slice _ 0 msg.size) = _
  congr 1
  obtain ⟨n, hn⟩ := Nat.exists_eq_add_of_le hsize
  rw [hn, Nat.add_sub_cancel_left, slice_add, List.nil_append]
  congr 1
  · rw [← hlen]
    exact slice_store_self _ _ _
  · apply slice_congr
    intro i hi
    exact store_of_le _ _ (by omega)

theorem OutMessage.length_of_plaintext {msg : OutMessage} {fresh : Mem} {fill : HeaderFill}
    {bytes : List UInt8} (h : msg.plaintext fresh fill = .ok bytes) : bytes.length = msg.size := by
  unfold plaintext at h
  cases hw : msg.write (.ofLength (msg.size + bufferMargin)) with
  | error e =>
    rw [hw] at h
    cases h
  | ok r =>
    rw [hw] at h
    obtain rfl := Except.ok.inj h
    exact length_slice _ _ _

/-- A message whose header is skipped: behind the body stands the fresh memory. -/
theorem OutMessage.plaintext_of_body {msg : OutMessage} {body : List UInt8}
    (hw : Writes msg.write (List.replicate headerMin 0 ++ body))
    (hsize : headerMin + body.length ≤ msg.size) (fresh : Mem) (fill : HeaderFill) :
    msg.plaintext fresh fill =
      .ok ((fill.header msg.payloadType).bytes ++ (body ++
        slice fresh (headerMin + body.length) (msg.size - headerMin - body.length))) := by
  have hlen : (List.replicate headerMin 0 ++ body).length = headerMin + body.length := by
    rw [List.length_append, List.length_replicate]
  rw [plaintext_eq hw (by omega) (by omega)]
  congr 2
  obtain ⟨n, hn⟩ := Nat.exists_eq_add_of_le hsize
  have hrest : msg.size - headerMin = body.length + n := by omega
  rw [hrest, Nat.add_sub_cancel_left, slice_add]
  congr 1
  · have hstands := (standsAt_append.mp (standsAt_store fresh 0 (List.replicate headerMin 0 ++ body))).2
    rw [List.length_replicate, Nat.zero_add] at hstands
    exact hstands
  · apply slice_congr
    intro i hi
    exact store_of_le _ _ (by omega)

/-- The receiver of a message parses what stands behind the header. -/
theorem parsePacket_plaintext {c : Crypto} {fill : HeaderFill} {payloadType : SSUPayloadType}
    {bytes : List UInt8} {size : ℕ} {payload : SSUPayload} {s' : InputByteStream}
    (hbody : parsePayload c (fill.header payloadType) ⟨size, bytes⟩ = .ok (payload, s')) :
    parsePacket c ⟨size, (fill.header payloadType).bytes ++ bytes⟩ =
      .ok (⟨fill.header payloadType, payload, bytes⟩, s') :=
  parsePacket_eq rfl (fill.optionsPresent_header payloadType) size hbody

theorem parsePacket_plaintext_error {c : Crypto} {fill : HeaderFill} {payloadType : SSUPayloadType}
    {bytes : List UInt8} {size : ℕ} {e : StdException}
    (hbody : parsePayload c (fill.header payloadType) ⟨size, bytes⟩ = .error e) :
    parsePacket c ⟨size, (fill.header payloadType).bytes ++ bytes⟩ = .error e :=
  parsePacket_error rfl (fill.optionsPresent_header payloadType) hbody

end SSU
