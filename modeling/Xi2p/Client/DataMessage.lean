import Xi2p.ByteStream
import Xi2p.Client.Datagram
import Xi2p.Garlic.RoundTrip
import Xi2p.Lib.Gzip

/-!
# Data messages

What streams and datagrams send is compressed, and travels in I2NP messages of type Data. The ports and the
protocol stand in six bytes of the gzip header that nobody else needs.

* `createDataMessage`: the message, in the two variants of `Stream` and `DatagramDestination`.
* `Protocols.handleI2NPMessage`: what a destination does with a message that came through a tunnel.
* `receive_putDataMessage`: the other end reads what has been written.
* `receive_createStreamDataMessage`: packets of streams fit and arrive.
* `forall_receive_createDatagramDataMessage_iff`: datagrams of which length always do.
-/

namespace Client

open Bytes I2NP ByteStream

/-! ## Sending -/

/-- `PROTOCOL_TYPE_STREAMING`. -/
abbrev protocolTypeStreaming : UInt8 := 6

/-- `PROTOCOL_TYPE_DATAGRAM`. -/
abbrev protocolTypeDatagram : UInt8 := 17

/-- `COMPRESSION_THRESHOLD_SIZE`. -/
abbrev compressionThresholdSize : ℕ := 66

/-- What the header of a message takes from outside. -/
structure HeaderDraws where
  msgID : UInt32
  milliseconds : ℕ

section Sending

variable (crypto : Garlic.Crypto)

/-- `FillI2NPMessageHeader`, without a message ID for the reply. -/
def fillI2NPMessageHeader (draws : HeaderDraws) (typeID : UInt8) (msg : I2NPMessage) : I2NPMessage :=
  let payloadLength := msg.getLength - headerSize
  let buf := store msg.buf msg.offset [typeID]
  let buf := store buf (msg.offset + headerMsgIDOffset) (writeU32 draws.msgID)
  let buf := store buf (msg.offset + headerExpirationOffset) (writeBE 8 (draws.milliseconds + 60000))
  let buf := store buf (msg.offset + headerSizeOffset) (writeBE 2 payloadLength)
  let hash := crypto.sha256 (slice buf msg.payloadPos payloadLength)
  { msg with buf := store buf (msg.offset + headerChksOffset) (hash.bytes.take 1) }

/-- What the two functions `CreateDataMessage` do with the compressed payload. -/
def putDataMessage (draws : HeaderDraws) (protocol : UInt8) (sourcePort destPort : UInt16)
    (gzip : List UInt8) (msg : I2NPMessage) : I2NPMessage :=
  let buf := store msg.buf msg.payloadPos (writeBE 4 gzip.length)
  let pos := msg.payloadPos + 4
  let buf := store buf pos gzip
  let buf := store buf (pos + 4) (writeU16 sourcePort)
  let buf := store buf (pos + 6) (writeU16 destPort)
  let buf := store buf (pos + 9) [protocol]
  fillI2NPMessageHeader crypto draws 20 { msg with buf, len := msg.len + (gzip.length + 4) }

variable (codec : Gzip.Codec)

/-- `Stream::CreateDataMessage`. -/
def createStreamDataMessage (draws : HeaderDraws) (localPort port : UInt16) (payload : List UInt8) :
    I2NPMessage :=
  let level := if payload.length ≤ compressionThresholdSize then Gzip.minDeflateLevel
    else Gzip.defaultDeflateLevel
  putDataMessage crypto draws protocolTypeStreaming localPort port (codec.compress level payload)
    I2NPMessage.newI2NPShortMessage

/-- `DatagramDestination::CreateDataMessage`. -/
def createDatagramDataMessage (draws : HeaderDraws) (fromPort toPort : UInt16) (payload : List UInt8) :
    I2NPMessage :=
  putDataMessage crypto draws protocolTypeDatagram fromPort toPort
    (codec.compress Gzip.defaultDeflateLevel payload) I2NPMessage.newI2NPMessage

end Sending

/-! ## Receiving -/

/-- The destinations for streams and datagrams of a `ClientDestination`. -/
structure Protocols (σ ρ : Type) where
  streamingDestination : Option σ
  streamingDestinationsByPorts : List (UInt16 × σ)
  datagramDestination : Option (DatagramDestination ρ)

/-- What a message leads to. -/
inductive I2NPHandled (σ ρ : Type)
  /-- `StreamingDestination::HandleDataMessagePayload`. -/
  | streaming (destination : σ) (payload : List UInt8)
  /-- `DatagramDestination::HandleDataMessagePayload`. -/
  | datagram (destination : DatagramDestination ρ) (fromPort toPort : UInt16) (payload : List UInt8)
  /-- `HandleDeliveryStatusMessage` with a copy of the message, and `Publish`. -/
  | deliveryStatus (pos : ℕ)
  /-- A warning, or nothing at all. -/
  | ignored

/-- The constructor of `InputByteStream`. -/
def newInputByteStream (bytes : List UInt8) : Except StdException InputByteStream :=
  if bytes.length = 0 then .error (.lengthError "ByteStream: null length")
  else .ok (.of bytes)

/-- Ports and protocol, in the header of a compressed payload. -/
def readPorts : Parser (UInt16 × UInt16 × UInt8) := do
  skipBytes 4
  let sourcePort ← read16
  let destPort ← read16
  skipBytes 1
  let protocol ← read8
  return (sourcePort, destPort, protocol)

namespace Protocols

variable {σ ρ : Type} (p : Protocols σ ρ)

/-- `GetStreamingDestination`. -/
def getStreamingDestination (port : UInt16) : Option σ :=
  if port = 0 then p.streamingDestination
  else ((p.streamingDestinationsByPorts.find? (·.1 = port)).map Prod.snd).or p.streamingDestination

/-- The destination for a protocol. -/
def dispatch (sourcePort destPort : UInt16) (protocol : UInt8) (payload : List UInt8) : I2NPHandled σ ρ :=
  if protocol = protocolTypeStreaming then
    match p.getStreamingDestination destPort with
    | some destination => .streaming destination payload
    | none => .ignored
  else if protocol = protocolTypeDatagram then
    match p.datagramDestination with
    | some destination => .datagram destination sourcePort destPort payload
    | none => .ignored
  else .ignored

/-- `HandleDataMessage`. -/
def handleDataMessage (m : Mem) (buf : ℕ) : Except StdException (I2NPHandled σ ρ) := do
  let size := (readU32 (slice m buf 4)).toNat
  let bytes := slice m (buf + 4) size
  let stream ← newInputByteStream bytes
  let ((sourcePort, destPort, protocol), _) ← readPorts stream
  -- `Data()` and `Size()` of the stream are still those of all its bytes
  return p.dispatch sourcePort destPort protocol bytes

/-- `HandleI2NPMessage`. -/
def handleI2NPMessage (m : Mem) (buf : ℕ) : Except StdException (I2NPHandled σ ρ) :=
  if m buf = 20 then p.handleDataMessage m (buf + headerSize)
  else if m buf = 10 then return .deliveryStatus buf
  else return .ignored

end Protocols

/-- `MAX_PACKET_SIZE`. -/
abbrev maxPacketSize : ℕ := 4096

/-- The packet that `StreamingDestination::HandleDataMessagePayload` hands to `HandleNextPacket`. -/
def streamingPayload (codec : Gzip.Codec) (bytes : List UInt8) : Option (List UInt8) := do
  let packet ← codec.decompress bytes
  if packet.length > maxPacketSize then none else return packet

/-- The bytes that `DatagramDestination::HandleDataMessagePayload` hands to `HandleDatagram`. -/
def datagramPayload (codec : Gzip.Codec) (bytes : List UInt8) : Option (List UInt8) := do
  let datagram ← codec.decompress bytes
  if datagram.length ≤ maxDatagramSize then return datagram else none

/-- What is handed on after the decompression. -/
inductive Received (σ ρ : Type)
  /-- `StreamingDestination::HandleNextPacket`. -/
  | packet (destination : σ) (packet : List UInt8)
  /-- `DatagramDestination::HandleDatagram`. -/
  | datagram (destination : DatagramDestination ρ) (fromPort toPort : UInt16) (datagram : List UInt8)

/-- The two functions `HandleDataMessagePayload`. -/
def I2NPHandled.received {σ ρ : Type} (codec : Gzip.Codec) : I2NPHandled σ ρ → Option (Received σ ρ)
  | .streaming destination payload => (streamingPayload codec payload).map (.packet destination)
  | .datagram destination fromPort toPort payload =>
    (datagramPayload codec payload).map (.datagram destination fromPort toPort)
  | .deliveryStatus _ => none
  | .ignored => none

/-- What the message at `pos` leads to in the end. -/
def Protocols.receive {σ ρ : Type} (p : Protocols σ ρ) (codec : Gzip.Codec) (m : Mem) (pos : ℕ) :
    Except StdException (Option (Received σ ρ)) :=
  (p.handleI2NPMessage m pos).map (I2NPHandled.received codec)

/-! ## What is in the buffer -/

/-- The compressed payload with ports and protocol in its header. -/
def withPorts (protocol : UInt8) (sourcePort destPort : UInt16) (gzip : List UInt8) : List UInt8 :=
  gzip.take 4 ++ (writeU16 sourcePort ++ (writeU16 destPort ++
    ((gzip.drop 8).take 1 ++ ([protocol] ++ gzip.drop 10))))

variable {crypto : Garlic.Crypto} {codec : Gzip.Codec} {draws : HeaderDraws} {protocol : UInt8}
  {sourcePort destPort : UInt16} {gzip : List UInt8}

theorem take_append_header (gzip : List UInt8) :
    gzip.take 4 ++ ((gzip.drop 4).take 2 ++ ((gzip.drop 6).take 2 ++ ((gzip.drop 8).take 1 ++
      ((gzip.drop 9).take 1 ++ gzip.drop 10)))) = gzip := by
  have hsplit (k n : ℕ) : (gzip.drop k).take n ++ gzip.drop (k + n) = gzip.drop k := by
    rw [← List.drop_drop, List.take_append_drop]
  rw [hsplit 9 1, hsplit 8 1, hsplit 6 2, hsplit 4 2, List.take_append_drop]

theorem length_withPorts (hgzip : 10 ≤ gzip.length) :
    (withPorts protocol sourcePort destPort gzip).length = gzip.length := by
  simp only [withPorts, List.length_append, length_writeU16, List.length_take, List.length_drop,
    List.length_singleton]
  omega

/-- Bytes of the same number in place of a part of a byte string. -/
theorem standsAt_overwrite {m : Mem} {off : ℕ} {front old back : List UInt8} (pos : ℕ)
    (new : List UInt8) (h : StandsAt m off (front ++ (old ++ back))) (hnew : new.length = old.length)
    (hpos : pos = off + front.length) : StandsAt (store m pos new) off (front ++ (new ++ back)) := by
  subst hpos
  rw [standsAt_append, standsAt_append] at h ⊢
  obtain ⟨hfront, -, hback⟩ := h
  refine ⟨hfront.store_of_le le_rfl, standsAt_store _ _ _, ?_⟩
  rw [hnew]
  exact hback.store_of_ge (by rw [hnew])

theorem standsAt_withPorts {m : Mem} {pos : ℕ} (hgzip : 10 ≤ gzip.length) (h : StandsAt m pos gzip) :
    StandsAt (store (store (store m (pos + 4) (writeU16 sourcePort)) (pos + 6) (writeU16 destPort))
      (pos + 9) [protocol]) pos (withPorts protocol sourcePort destPort gzip) := by
  rw [← take_append_header gzip] at h
  have hfront : (gzip.take 4).length = 4 := by
    rw [List.length_take]
    omega
  have hold (k n : ℕ) (hk : k + n ≤ 10) : ((gzip.drop k).take n).length = n := by
    rw [List.length_take, List.length_drop]
    omega
  have hsource := standsAt_overwrite (pos + 4) (writeU16 sourcePort) h
    (by rw [length_writeU16, hold 4 2 (by omega)]) (by rw [hfront])
  rw [← List.append_assoc] at hsource
  have hdest := standsAt_overwrite (pos + 6) (writeU16 destPort) hsource
    (by rw [length_writeU16, hold 6 2 (by omega)])
    (by rw [List.length_append, hfront, length_writeU16])
  -- the byte between the ports and the protocol stays
  rw [← List.append_assoc, ← List.append_assoc] at hdest
  have hprotocol := standsAt_overwrite (pos + 9) [protocol] hdest
    (by rw [List.length_singleton, hold 9 1 (by omega)])
    (by simp only [List.length_append, hfront, length_writeU16, hold 8 1 (by omega)])
  rw [withPorts]
  simpa only [List.append_assoc] using hprotocol

/-- The message from its header on. -/
theorem standsAt_fillI2NPMessageHeader {typeID : UInt8} {msg : I2NPMessage} {payload : List UInt8}
    (h : StandsAt msg.buf msg.payloadPos payload)
    (hlen : msg.len = msg.payloadPos + payload.length) :
    StandsAt (fillI2NPMessageHeader crypto draws typeID msg).buf msg.offset
      (Garlic.fillI2NPMessageHeader crypto typeID draws.msgID draws.milliseconds payload) := by
  have hlength : msg.getLength - headerSize = payload.length := by
    simp only [I2NPMessage.getLength, hlen, I2NPMessage.payloadPos, headerSize]
    omega
  simp only [fillI2NPMessageHeader, hlength]
  -- each field is written behind the one before it
  generalize hfields : [typeID] ++ writeU32 draws.msgID ++ writeBE 8 (draws.milliseconds + 60000) ++
    writeBE 2 payload.length = fields
  have hfifteen : fields.length = 15 := by
    rw [← hfields]
    simp only [List.length_append, List.length_singleton, length_writeU32, length_writeBE]
  have hbuf : store (store (store (store msg.buf msg.offset [typeID])
      (msg.offset + headerMsgIDOffset) (writeU32 draws.msgID)) (msg.offset + headerExpirationOffset)
      (writeBE 8 (draws.milliseconds + 60000))) (msg.offset + headerSizeOffset)
      (writeBE 2 payload.length) = store msg.buf msg.offset fields := by
    rw [← hfields, ← store_store, ← store_store, ← store_store]
    simp only [List.length_append, List.length_singleton, length_writeU32, length_writeBE]
  have hpayload : StandsAt (store msg.buf msg.offset fields) msg.payloadPos payload := by
    apply h.store_of_ge
    rw [hfifteen]
    exact Nat.add_le_add_left (by decide) msg.offset
  have hchks : ((crypto.sha256 payload).bytes.take 1).length = 1 := by
    rw [List.length_take, IdentHash.length_eq]
    rfl
  have hall : Garlic.fillI2NPMessageHeader crypto typeID draws.msgID draws.milliseconds payload =
      fields ++ (crypto.sha256 payload).bytes.take 1 ++ payload := by
    rw [← hfields]
    rfl
  rw [hbuf, hpayload, hall, standsAt_append, standsAt_append, List.length_append, hfifteen, hchks]
  refine ⟨⟨(standsAt_store _ _ _).store_of_le ?_, standsAt_store _ _ _⟩, hpayload.store_of_ge ?_⟩
  · rw [hfifteen]
  · rw [hchks]
    exact Nat.le_refl (msg.offset + 16)

/-- The payload of a message. -/
def dataPayload (protocol : UInt8) (sourcePort destPort : UInt16) (gzip : List UInt8) : List UInt8 :=
  writeBE 4 gzip.length ++ withPorts protocol sourcePort destPort gzip

theorem length_dataPayload (hgzip : 10 ≤ gzip.length) :
    (dataPayload protocol sourcePort destPort gzip).length = gzip.length + 4 := by
  rw [dataPayload, List.length_append, length_writeBE, length_withPorts hgzip, Nat.add_comm]

theorem standsAt_putDataMessage {msg : I2NPMessage} (hgzip : 10 ≤ gzip.length)
    (hlen : msg.len = msg.payloadPos) :
    StandsAt (putDataMessage crypto draws protocol sourcePort destPort gzip msg).buf msg.offset
      (Garlic.fillI2NPMessageHeader crypto 20 draws.msgID draws.milliseconds
        (dataPayload protocol sourcePort destPort gzip)) := by
  apply standsAt_fillI2NPMessageHeader
  · rw [dataPayload, standsAt_append, length_writeBE]
    refine ⟨?_, standsAt_withPorts hgzip (standsAt_store _ _ _)⟩
    -- everything else is written behind the length
    apply ((((standsAt_store _ _ _).store_of_le _).store_of_le _).store_of_le _).store_of_le _ <;>
      rw [length_writeBE] <;> dsimp only [I2NPMessage.payloadPos] <;> omega
  · show msg.len + (gzip.length + 4) = msg.payloadPos + _
    rw [length_dataPayload hgzip, hlen]

/-! ## The other end -/

section OtherEnd

variable {σ ρ : Type} (p : Protocols σ ρ) {m : Mem} {pos : ℕ}

theorem reads_readPorts {front : List UInt8} (hfront : front.length = 4) (sourcePort destPort : UInt16)
    (flags protocol : UInt8) :
    Reads readPorts (front ++ (writeU16 sourcePort ++ (writeU16 destPort ++ ([flags] ++ [protocol]))))
      (sourcePort, destPort, protocol) := by
  apply (reads_skipBytes hfront (by decide)).bind
  apply (reads_read16 sourcePort).bind
  apply (reads_read16 destPort).bind
  apply (reads_skipBytes List.length_singleton Nat.one_pos).bind
  exact (reads_read8 protocol).bind_pure _

theorem handleDataMessage_dataPayload (hgzip : 10 ≤ gzip.length) (hsize : gzip.length < 2 ^ 32)
    (h : StandsAt m pos (dataPayload protocol sourcePort destPort gzip)) :
    p.handleDataMessage m pos =
      .ok (p.dispatch sourcePort destPort protocol (withPorts protocol sourcePort destPort gzip)) := by
  rw [dataPayload, standsAt_append, length_writeBE] at h
  obtain ⟨hlength, hbytes⟩ := h
  -- the length in front is that of the gzip file
  have hread : (readU32 (slice m pos 4)).toNat = gzip.length := by
    rw [readU32, hlength.readBE_eq, UInt32.toNat_ofNat']
    omega
  have hslice : slice m (pos + 4) gzip.length = withPorts protocol sourcePort destPort gzip := by
    rw [← hbytes, length_withPorts hgzip]
  have hnew : newInputByteStream (withPorts protocol sourcePort destPort gzip) =
      .ok (.of (withPorts protocol sourcePort destPort gzip)) := by
    apply if_neg
    rw [length_withPorts hgzip]
    omega
  have hfront : (gzip.take 4).length = 4 := by
    rw [List.length_take]
    omega
  -- the byte between the ports and the protocol
  obtain ⟨flags, hflags⟩ : ∃ flags, (gzip.drop 8).take 1 = [flags] := by
    rw [← List.length_eq_one_iff, List.length_take, List.length_drop]
    omega
  have hports : readPorts (.of (withPorts protocol sourcePort destPort gzip)) =
      .ok ((sourcePort, destPort, protocol), ⟨gzip.length, gzip.drop 10⟩) := by
    have hreads := reads_readPorts hfront sourcePort destPort flags protocol gzip.length (gzip.drop 10)
    rw [← hreads, InputByteStream.of, length_withPorts hgzip, withPorts, hflags]
    simp only [List.append_assoc]
  rw [Protocols.handleDataMessage, hread, hslice, hnew]
  show (readPorts _ >>= _) = _
  rw [hports]
  rfl

/-- What has been written is read again. -/
theorem handleI2NPMessage_dataPayload (hgzip : 10 ≤ gzip.length)
    (hsize : gzip.length < 2 ^ 32)
    (h : StandsAt m pos (Garlic.fillI2NPMessageHeader crypto 20 draws.msgID draws.milliseconds
        (dataPayload protocol sourcePort destPort gzip))) :
    p.handleI2NPMessage m pos =
      .ok (p.dispatch sourcePort destPort protocol (withPorts protocol sourcePort destPort gzip)) := by
  obtain ⟨hheader, hpayload⟩ := standsAt_append.mp h
  have htype : m pos = 20 := (standsAt_cons.mp hheader).1
  have hlength : (20 :: writeU32 draws.msgID ++ writeBE 8 (draws.milliseconds + 60000) ++
      writeBE 2 (dataPayload protocol sourcePort destPort gzip).length ++
      (crypto.sha256 (dataPayload protocol sourcePort destPort gzip)).bytes.take 1).length =
        headerSize := by
    simp
  rw [hlength] at hpayload
  rw [Protocols.handleI2NPMessage, if_pos htype]
  exact handleDataMessage_dataPayload p hgzip hsize hpayload

end OtherEnd

/-! ## Both ends -/

theorem withPorts_eq (protocol : UInt8) (sourcePort destPort : UInt16) (gzip : List UInt8) :
    withPorts protocol sourcePort destPort gzip =
      gzip.take 4 ++ (writeU16 sourcePort ++ writeU16 destPort ++ (gzip.drop 8).take 1 ++ [protocol]) ++
        gzip.drop 10 := by
  simp only [withPorts, List.append_assoc]

/-- Ports and protocol are in the way of no decompressor. -/
theorem decompress_withPorts (hcodec : codec.Standard) (level : ℕ) (payload : List UInt8) :
    codec.decompress (withPorts protocol sourcePort destPort (codec.compress level payload)) =
      some payload := by
  have hheader := hcodec.header level payload
  rw [withPorts_eq]
  apply hcodec.decompress_patch
  simp only [List.length_append, length_writeU16, List.length_take, List.length_drop,
    List.length_singleton]
  omega

section BothEnds

variable {localPort port : UInt16} {payload : List UInt8}

/-- What is outside of the message is not written to. -/
theorem putDataMessage_frame {msg : I2NPMessage} (hgzip : 10 ≤ gzip.length)
    (hlen : msg.len = msg.payloadPos) {i : ℕ}
    (hi : i < msg.offset ∨ msg.len + (gzip.length + 4) ≤ i) :
    (putDataMessage crypto draws protocol sourcePort destPort gzip msg).buf i = msg.buf i := by
  have hchks (hash : IdentHash) : (hash.bytes.take 1).length = 1 := by
    rw [List.length_take, hash.length_eq]
    rfl
  have hpos : msg.payloadPos = msg.offset + 16 := rfl
  simp only [putDataMessage, fillI2NPMessageHeader, headerChksOffset, headerSizeOffset,
    headerExpirationOffset, headerMsgIDOffset]
  rcases hi with hi | hi
  · repeat rw [store_of_lt _ _ (by omega)]
  · repeat rw [store_of_le]
    all_goals
      try simp only [hchks, length_writeBE, length_writeU32, length_writeU16, List.length_singleton]
      omega

/-- The bytes that are sent. -/
theorem bytes_putDataMessage {msg : I2NPMessage} (hgzip : 10 ≤ gzip.length)
    (hlen : msg.len = msg.payloadPos) :
    (putDataMessage crypto draws protocol sourcePort destPort gzip msg).bytes =
      Garlic.fillI2NPMessageHeader crypto 20 draws.msgID draws.milliseconds
        (dataPayload protocol sourcePort destPort gzip) := by
  refine Eq.trans ?_ (standsAt_putDataMessage hgzip hlen)
  have hlength : msg.len + (gzip.length + 4) - msg.offset = headerSize + (gzip.length + 4) := by
    simp only [hlen, I2NPMessage.payloadPos]
    omega
  rw [Garlic.length_fillI2NPMessageHeader, length_dataPayload hgzip, ← hlength]
  rfl

/-- What a destination makes of a message with a compressed payload. -/
theorem receive_putDataMessage (hcodec : codec.Standard) {level : ℕ}
    (hsize : (codec.compress level payload).length < 2 ^ 32) {msg : I2NPMessage}
    (hlen : msg.len = msg.payloadPos) {σ ρ : Type} (p : Protocols σ ρ) {m : Mem} {pos : ℕ}
    (h : StandsAt m pos (putDataMessage crypto draws protocol sourcePort destPort
      (codec.compress level payload) msg).bytes) :
    p.receive codec m pos =
      .ok ((p.dispatch sourcePort destPort protocol (withPorts protocol sourcePort destPort
        (codec.compress level payload))).received codec) := by
  rw [bytes_putDataMessage (hcodec.header level payload) hlen] at h
  rw [Protocols.receive, handleI2NPMessage_dataPayload p (hcodec.header level payload) hsize h]
  rfl

/-- A packet of a stream, with what its message adds, fits a short message, and the other end hands
it on to the destination for its port. -/
theorem receive_createStreamDataMessage (hcodec : codec.Standard) (hpayload : payload.length ≤ 4067) :
    let msg := createStreamDataMessage crypto codec draws localPort port payload
    (msg.Inside ∧ ∀ i, i < msg.offset ∨ msg.len ≤ i → msg.buf i = I2NPMessage.newI2NPShortMessage.buf i) ∧
      ∀ {σ ρ : Type} (p : Protocols σ ρ) (m : Mem) (pos : ℕ), StandsAt m pos msg.bytes →
        p.receive codec m pos =
          .ok ((p.getStreamingDestination port).map fun destination => .packet destination payload) := by
  intro msg
  generalize hlevel : (if payload.length ≤ compressionThresholdSize then Gzip.minDeflateLevel
    else Gzip.defaultDeflateLevel) = level at msg
  have hheader := hcodec.header level payload
  have hlength := hcodec.length_le level payload
  have hblocks : Gzip.blockCount payload.length = 1 := by
    rw [Gzip.blockCount, Nat.div_eq_of_lt (by omega)]
  rw [hblocks] at hlength
  have hmsg : msg = putDataMessage crypto draws protocolTypeStreaming localPort port
      (codec.compress level payload) I2NPMessage.newI2NPShortMessage := by
    rw [← hlevel]
    rfl
  rw [hmsg]
  refine ⟨⟨?_, fun i hi => putDataMessage_frame hheader rfl hi⟩, ?_⟩
  · show 18 + ((codec.compress level payload).length + 4) ≤ 4096 + 16
    omega
  · intro σ ρ p m pos h
    rw [receive_putDataMessage hcodec (by omega) rfl p h, Protocols.dispatch, if_pos rfl]
    cases hdestination : p.getStreamingDestination port with
    | none => rfl
    | some destination =>
      have hpacket : streamingPayload codec (withPorts protocolTypeStreaming localPort port
          (codec.compress level payload)) = some payload := by
        rw [streamingPayload, decompress_withPorts hcodec]
        exact if_neg (by rw [maxPacketSize]; omega)
      simp only [I2NPHandled.received, hpacket, Option.map_some]

theorem standsAt_bytes (msg : I2NPMessage) : StandsAt msg.buf msg.offset msg.bytes := by
  rw [StandsAt, I2NPMessage.length_bytes]
  rfl

/-- Ports 80 and 81 of a destination. -/
def examplePorts : Protocols ℕ ℕ where
  streamingDestination := some 0
  streamingDestinationsByPorts := [(80, 1), (81, 2)]
  datagramDestination := none

theorem receive_createStreamDataMessage_examplePorts :
    let msg := createStreamDataMessage Garlic.exampleCrypto Gzip.stored ⟨7, 1000⟩ 4000 81 [1, 2, 3]
    msg.Inside ∧
      examplePorts.receive Gzip.stored msg.buf msg.offset = .ok (some (.packet 2 [1, 2, 3])) := by
  intro msg
  obtain ⟨⟨hinside, -⟩, hreceive⟩ := @receive_createStreamDataMessage Garlic.exampleCrypto Gzip.stored
    ⟨7, 1000⟩ 4000 81 [1, 2, 3] Gzip.standard_stored (by decide)
  exact ⟨hinside, hreceive examplePorts _ _ (standsAt_bytes msg)⟩

/-- A compressed datagram is inside its message if and only if it has at most 32762 bytes. -/
theorem inside_createDatagramDataMessage_iff :
    (createDatagramDataMessage crypto codec draws sourcePort destPort payload).Inside ↔
      (codec.compress Gzip.defaultDeflateLevel payload).length ≤ 32762 := by
  show 18 + ((codec.compress Gzip.defaultDeflateLevel payload).length + 4) ≤ 32768 + 16 ↔ _
  omega

/-- Datagrams of up to 32734 bytes, and no longer ones, always fit their message and are handed on at the
other end, with their ports. -/
theorem forall_receive_createDatagramDataMessage_iff {n : ℕ} (hn : n ≤ maxDatagramSize) :
    (∀ (codec : Gzip.Codec) (draws : HeaderDraws) (fromPort toPort : UInt16) (payload : List UInt8),
      codec.Standard → payload.length = n →
      let msg := createDatagramDataMessage crypto codec draws fromPort toPort payload
      (msg.Inside ∧ ∀ i, i < msg.offset ∨ msg.len ≤ i → msg.buf i = I2NPMessage.newI2NPMessage.buf i) ∧
        ∀ {σ ρ : Type} (p : Protocols σ ρ) (m : Mem) (pos : ℕ), StandsAt m pos msg.bytes →
          p.receive codec m pos =
            .ok (p.datagramDestination.map fun destination =>
              .datagram destination fromPort toPort payload)) ↔ n ≤ 32734 := by
  constructor
  · intro h
    -- stored blocks are as long as a compressed datagram gets
    obtain ⟨⟨hinside, -⟩, -⟩ := h Gzip.stored ⟨0, 0⟩ 0 0 (List.replicate n 0) Gzip.standard_stored
      List.length_replicate
    rw [inside_createDatagramDataMessage_iff, Gzip.length_compress_stored, List.length_replicate,
      Gzip.blockCount] at hinside
    omega
  · rintro hfits codec draws fromPort toPort payload hcodec rfl
    have hheader := hcodec.header Gzip.defaultDeflateLevel payload
    have hlength := hcodec.length_le Gzip.defaultDeflateLevel payload
    have hinside : (codec.compress Gzip.defaultDeflateLevel payload).length ≤ 32762 := by
      rw [Gzip.blockCount] at hlength
      omega
    refine ⟨⟨inside_createDatagramDataMessage_iff.mpr hinside,
      fun i hi => putDataMessage_frame hheader rfl hi⟩, ?_⟩
    intro σ ρ p m pos h
    rw [receive_putDataMessage hcodec (by omega) rfl p h, Protocols.dispatch, if_neg (by decide), if_pos rfl]
    cases hdestination : p.datagramDestination with
    | none => rfl
    | some destination =>
      have hdatagram : datagramPayload codec (withPorts protocolTypeDatagram fromPort toPort
          (codec.compress Gzip.defaultDeflateLevel payload)) = some payload := by
        rw [datagramPayload, decompress_withPorts hcodec]
        exact if_pos hn
      simp only [I2NPHandled.received, hdatagram, Option.map_some]

theorem forall_receive_createDatagramDataMessage_three :
    (createDatagramDataMessage Garlic.exampleCrypto Gzip.stored ⟨7, 1000⟩ 4000 80 [1, 2, 3]).Inside := by
  have hthree : 3 ≤ maxDatagramSize := by decide
  exact ((forall_receive_createDatagramDataMessage_iff hthree).mpr (by decide) Gzip.stored ⟨7, 1000⟩ 4000 80
    [1, 2, 3] Gzip.standard_stored rfl).1.1

end BothEnds

end Client
