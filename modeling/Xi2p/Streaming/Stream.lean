import Xi2p.Identity
import Xi2p.Streaming.Packet

/-!
# Streams

`Stream` of `client/api/streaming.cc`: one end of a reliable byte stream. Outgoing bytes are cut
into packets that stay in `sentPackets` until they are acknowledged; incoming packets are put in
sequence, early ones wait in `savedPackets`.

* Integers have the widths of the source; `m_LastReceivedSequenceNumber` is signed, with `-1` for
  "nothing received", while sequence numbers are unsigned.
* A timer is modelled by its handler, an operation that may run at any time.
* The last group of fields of `Stream` records what the stream has handed to the outside and which
  packets it has accepted and released; no function reads it.
-/

namespace Streaming

open Bytes Identity

/-! ## Constants -/

/-- `MAX_NUM_RESEND_ATTEMPTS`. -/
abbrev maxNumResendAttempts : ℤ := 6

/-- `WINDOW_SIZE`: the end of slow start. -/
abbrev slowStartWindowSize : ℤ := 6

/-- `MIN_WINDOW_SIZE`. -/
abbrev minWindowSize : ℤ := 1

/-- `MAX_WINDOW_SIZE`. -/
abbrev maxWindowSize : ℤ := 128

/-- `INITIAL_RTT`, in milliseconds. -/
abbrev initialRTT : ℤ := 8000

/-- `INITIAL_RTO`, in milliseconds. -/
abbrev initialRTO : ℤ := 9000

/-! ## State -/

/-- What a stream uses of its surroundings. -/
structure StreamEnv where
  /-- Hashes and signature verification. -/
  crypto : Crypto
  /-- `GetOwner().GetIdentity()`. -/
  identity : IdentityEx
  /-- `GetOwner().Sign`. -/
  sign : List UInt8 → List UInt8
  /-- The bytes in the buffer of a new packet, which is not initialised. -/
  newBuffer : Mem

/-- `StreamStatus`. -/
inductive StreamStatus
  | new
  | open
  | reset
  | closing
  | closed
  deriving DecidableEq

/-- The `std::stringstream` of the bytes to send: the unread bytes and its end-of-file flag, which
is set by a read that asks for more than there is. -/
structure StringStream where
  /-- The bytes that have not been read. -/
  unread : List UInt8 := []
  /-- `eof()`. -/
  eof : Bool := false

namespace StringStream

/-- `read(buf, n)`: the bytes extracted. At end of file nothing is extracted. -/
def read (b : StringStream) (n : ℕ) : StringStream × List UInt8 :=
  if b.eof then (b, [])
  else if b.unread.length < n then ({ unread := [], eof := true }, b.unread)
  else ({ b with unread := b.unread.drop n }, b.unread.take n)

/-- `clear()` and `write(buf, len)`. -/
def write (b : StringStream) (bytes : List UInt8) : StringStream :=
  { unread := b.unread ++ bytes, eof := false }

end StringStream

/-- `Stream`. -/
structure Stream where
  /-- `m_SendStreamID`: the stream ID of the peer, `0` until it is known. -/
  sendStreamID : UInt32 := 0
  /-- `m_RecvStreamID`. -/
  recvStreamID : UInt32
  /-- `m_SequenceNumber`: of the next packet to be created. -/
  sequenceNumber : UInt32 := 0
  /-- `m_LastReceivedSequenceNumber`. -/
  lastReceivedSequenceNumber : Int32 := -1
  /-- `m_Status`. -/
  status : StreamStatus := .new
  /-- `m_IsAckSendScheduled`. -/
  isAckSendScheduled : Bool := false
  /-- `m_RemoteIdentity`. -/
  remoteIdentity : IdentityEx := {}
  /-- `m_ReceiveQueue`. -/
  receiveQueue : List Packet := []
  /-- `m_SavedPackets`. -/
  savedPackets : List Packet := []
  /-- `m_SentPackets`. -/
  sentPackets : List Packet := []
  /-- Whether `m_ResendTimer` is running. -/
  resendTimer : Bool := false
  /-- `m_SendBuffer`. -/
  sendBuffer : StringStream := {}
  /-- `m_WindowSize`. -/
  windowSize : ℤ := minWindowSize
  /-- `m_RTT`. -/
  rtt : ℤ := initialRTT
  /-- `m_RTO`. -/
  rto : ℤ := initialRTO
  /-- `m_LastWindowSizeIncreaseTime`. -/
  lastWindowSizeIncreaseTime : UInt64 := 0
  /-- `m_NumResendAttempts`. -/
  numResendAttempts : ℤ := 0
  /-- `m_SendHandler`, named by a number. -/
  sendHandler : Option ℕ := none
  /-- The packets given to `SendPackets` so far. -/
  wire : List Packet := []
  /-- The packets posted to `SendPacket` that it has not been called with yet. -/
  posted : List Packet := []
  /-- The handler calls so far, with their success. -/
  completions : List (ℕ × Bool) := []
  /-- The bytes handed to readers so far. -/
  delivered : List UInt8 := []
  /-- The sequence numbers of the packets that were processed or saved. -/
  accepted : List UInt32 := []
  /-- The sequence numbers of the packets that `ProcessAck` removed from `m_SentPackets`. -/
  released : List UInt32 := []

namespace Stream

/-- `IsEstablished`. -/
def isEstablished (s : Stream) : Bool := s.sendStreamID != 0

/-! ## Building packets -/

/-- The header fields in front of the NACKs. -/
def packetHead (s : Stream) (seqn ackThrough : UInt32) : List UInt8 :=
  writeU32 s.sendStreamID ++ writeU32 s.recvStreamID ++ writeU32 seqn ++ writeU32 ackThrough

/-- A number of NACKs, the NACKs, resend delay, flags and options size. -/
def packetTail (nacks : List UInt32) (resendDelay : UInt8) (flags : UInt16) (optionsSize : ℕ) :
    List UInt8 :=
  UInt8.ofNat nacks.length :: (nacks.map writeU32).flatten ++
    resendDelay :: (writeBE 2 flags.toNat ++ writeBE 2 optionsSize)

/-- The first packet of a stream: SYN, identity, maximum packet size and a signature over the
packet with a zeroed signature, then payload. -/
def synPacket (env : StreamEnv) (s : Stream) (isNoAck : Bool) : Stream × Packet :=
  let ackThrough := if isNoAck then s.lastReceivedSequenceNumber.toUInt32 else 0
  let flags := packetFlagSynchronize ||| packetFlagFromIncluded ||| packetFlagSignatureIncluded |||
    packetFlagMaxPacketSizeIncluded ||| (if isNoAck then packetFlagNoAck else 0)
  let identityLen := env.identity.getFullLen
  let signatureLen := env.identity.getSignatureLen
  let head := s.packetHead s.sequenceNumber ackThrough ++
    packetTail [] (UInt8.ofInt (s.rto.tdiv 1000)) flags (identityLen + signatureLen + 2)
  let buf := store env.newBuffer 0 head
  let buf := store buf 22 env.identity.toBuffer
  let buf := store buf (22 + identityLen) (writeBE 2 streamingMTU)
  let signature := 22 + identityLen + 2
  let buf := store buf signature (List.replicate signatureLen 0)
  let size := signature + signatureLen
  let (sendBuffer, payload) := s.sendBuffer.read (streamingMTU - size)
  let buf := store buf size payload
  let size := size + payload.length
  let buf := store buf signature (env.sign (slice buf 0 size))
  ({ s with
      sequenceNumber := s.sequenceNumber + 1
      status := .open
      sendBuffer },
    { buf, len := size })

/-- A follow-on packet: no flags, no options, payload. -/
def followOnPacket (env : StreamEnv) (s : Stream) (isNoAck : Bool) : Stream × Packet :=
  let ackThrough := if isNoAck then s.lastReceivedSequenceNumber.toUInt32 else 0
  let head := s.packetHead s.sequenceNumber ackThrough ++
    packetTail [] (UInt8.ofInt (s.rto.tdiv 1000)) 0 0
  let (sendBuffer, payload) := s.sendBuffer.read (streamingMTU - 22)
  ({ s with
      sequenceNumber := s.sequenceNumber + 1
      sendBuffer },
    { buf := store (store env.newBuffer 0 head) 22 payload, len := 22 + payload.length })

/-- The packet built by `SendClose`; the resend delay is left as it was in the buffer. -/
def closePacket (env : StreamEnv) (s : Stream) : Packet :=
  let signatureLen := env.identity.getSignatureLen
  let head := s.packetHead s.sequenceNumber s.lastReceivedSequenceNumber.toUInt32 ++
    packetTail [] (env.newBuffer 17) (packetFlagClose ||| packetFlagSignatureIncluded) signatureLen
  let buf := store env.newBuffer 0 head
  let buf := store buf 22 (List.replicate signatureLen 0)
  let size := 22 + signatureLen
  { buf := store buf 22 (env.sign (slice buf 0 size)), len := size }

/-! ## Sending -/

/-- `SendPackets`. Whether leases and tunnels let the packets through is up to the network. -/
def sendPackets (s : Stream) (packets : List Packet) : Stream :=
  { s with wire := s.wire ++ packets }

/-- `SendPacket`, called with a posted packet. -/
def sendPacket (s : Stream) (packet : Packet) : Stream :=
  let s := { s with isAckSendScheduled := false }
  let s := s.sendPackets [packet]
  if s.status = .open then
    { s with
      sentPackets := insertPacket packet s.sentPackets
      resendTimer := s.resendTimer || s.sentPackets.isEmpty }
  else s

/-- `SendClose`: the packet is posted to `SendPacket`. -/
def sendClose (env : StreamEnv) (s : Stream) : Stream :=
  { s with
    sequenceNumber := s.sequenceNumber + 1
    posted := s.posted ++ [s.closePacket env] }

/-- `Terminate`. -/
def terminate (s : Stream) : Stream :=
  match s.sendHandler with
  | some handler =>
    { s with
      resendTimer := false
      sendHandler := none
      completions := s.completions ++ [(handler, false)] }
  | none => { s with resendTimer := false }

/-- `Close` with the status `closing`. -/
def closeClosing (env : StreamEnv) (s : Stream) : Stream :=
  if s.sentPackets.isEmpty && s.sendBuffer.eof then
    ({ s with status := .closed }.sendClose env).terminate
  else s

/-- `Close`. -/
def close (env : StreamEnv) (s : Stream) : Stream :=
  match s.status with
  | .open => { s with status := .closing }.closeClosing env
  | .reset => (s.sendClose env).terminate
  | .closing => s.closeClosing env
  | .closed => s.terminate
  | .new => s

/-- The loop of `SendBuffer`, with room for `numMsgs` more packets. A stream that is still `new`
has room for its first packet, so the loop ends when the room does. -/
def createPackets (env : StreamEnv) (isNoAck : Bool) : ℕ → Stream → Stream × List Packet
  | 0, s => (s, [])
  | numMsgs + 1, s =>
    if s.status = .new then
      let (s, packet) := s.synPacket env isNoAck
      let (s, packets) := createPackets env isNoAck numMsgs s
      (s, packet :: packets)
    else if s.isEstablished && !s.sendBuffer.eof then
      let (s, packet) := s.followOnPacket env isNoAck
      let (s, packets) := createPackets env isNoAck numMsgs s
      (s, packet :: packets)
    else (s, [])

/-- The call of the send handler once everything has been put into packets. -/
def completeSend (s : Stream) : Stream :=
  match s.sendHandler with
  | some handler =>
    if s.sendBuffer.eof then
      { s with
        sendHandler := none
        completions := s.completions ++ [(handler, true)] }
    else s
  | none => s

/-- The rest of `SendBuffer`, if packets were created. -/
def sendCreated (env : StreamEnv) (now : UInt64) (s : Stream) (packets : List Packet) : Stream :=
  let isEmpty := s.sentPackets.isEmpty
  let packets := packets.map fun p => { p with sendTime := now }
  let s := { s with
    isAckSendScheduled := false
    sentPackets := packets.foldl (fun sent p => insertPacket p sent) s.sentPackets }
  let s := s.sendPackets packets
  let s := if s.status = .closing && s.sendBuffer.eof then s.sendClose env else s
  if isEmpty then { s with resendTimer := true } else s

/-- `SendBuffer`. -/
def sendBufferPackets (env : StreamEnv) (now : UInt64) (s : Stream) : Stream :=
  let numMsgs := s.windowSize - s.sentPackets.length
  if numMsgs ≤ 0 then s
  else
    let isNoAck := s.lastReceivedSequenceNumber < 0
    let (s, packets) := s.createPackets env isNoAck numMsgs.toNat
    let s := s.completeSend
    if packets.isEmpty then s else s.sendCreated env now packets

/-- `Send`: the buffer is filled here, `SendBuffer` is posted. -/
def send (s : Stream) (buf : List UInt8) : Stream :=
  if buf.isEmpty then s else { s with sendBuffer := s.sendBuffer.write buf }

/-- `AsyncSend`. -/
def asyncSend (s : Stream) (buf : List UInt8) (handler : ℕ) : Stream :=
  match s.sendHandler with
  | some _ => { s with completions := s.completions ++ [(handler, false)] }.send buf
  | none => { s with sendHandler := some handler }.send buf

/-! ## Acknowledgements -/

/-- The round-trip estimate and the window after one packet has been acknowledged. The product is
taken in 32 unsigned bits, the sum and the quotient in 64. -/
def acknowledge (now : UInt64) (s : Stream) (sent : Packet) : Stream :=
  let seqn := sent.getSeqn
  let sample := now - sent.sendTime
  let sum := (UInt32.ofInt s.rtt * seqn).toUInt64 + sample
  let rtt := (sum / (seqn + 1).toUInt64).toUInt32.toInt32.toInt
  let s := { s with
    rtt
    rto := (rtt * 3).tdiv 2
    released := s.released ++ [seqn] }
  if s.windowSize < slowStartWindowSize then { s with windowSize := s.windowSize + 1 }
  else if now > s.lastWindowSizeIncreaseTime + UInt64.ofInt s.rtt then
    { s with
      windowSize := min (s.windowSize + 1) maxWindowSize
      lastWindowSizeIncreaseTime := now }
  else s

/-- The loop of `ProcessAck`: the packets that stay in `m_SentPackets`. -/
def releaseAcked (now : UInt64) (packet : Packet) : List Packet → Stream → Stream × List Packet
  | [], s => (s, [])
  | sent :: rest, s =>
    if sent.getSeqn ≤ packet.getAckThrough then
      if sent.getSeqn ∈ packet.nacks then
        let (s, kept) := releaseAcked now packet rest s
        (s, sent :: kept)
      else releaseAcked now packet rest (s.acknowledge now sent)
    else (s, sent :: rest)

/-- Whether `ProcessAck` finds a packet to release. -/
def acknowledges (packet : Packet) : List Packet → Bool
  | [] => false
  | sent :: rest =>
    if sent.getSeqn ≤ packet.getAckThrough then
      if sent.getSeqn ∈ packet.nacks then acknowledges packet rest else true
    else false

/-- The part of `ProcessAck` that removes the acknowledged packets. -/
def releasePackets (now : UInt64) (s : Stream) (packet : Packet) : Stream :=
  let (s, kept) := releaseAcked now packet s.sentPackets s
  { s with
    sentPackets := kept
    resendTimer := s.resendTimer && !kept.isEmpty }

/-- `ProcessAck` up to the check for a closing stream: a release makes room for more packets. -/
def releaseAndSend (env : StreamEnv) (now : UInt64) (s : Stream) (packet : Packet) : Stream :=
  if acknowledges packet s.sentPackets then
    { s.releasePackets now packet with numResendAttempts := 0 }.sendBufferPackets env now
  else s.releasePackets now packet

/-- `ProcessAck`. -/
def processAck (env : StreamEnv) (now : UInt64) (s : Stream) (packet : Packet) : Stream :=
  let s := s.releaseAndSend env now packet
  if s.status = .closing then s.close env else s

/-- The loop of `SendQuickAck` over the saved packets, from `nextSeqn` on with `numNacks` NACKs
written: the NACKs that follow, and the ack-through it is changed to when they do not fit. -/
def fillNacks : List Packet → UInt32 → ℕ → List UInt32 × Option UInt32
  | [], _, _ => ([], none)
  | saved :: rest, nextSeqn, numNacks =>
    let seqn := saved.getSeqn
    if 256 ≤ (UInt32.ofNat numNacks + (seqn - nextSeqn)).toNat then ([], some nextSeqn)
    else
      let missing := (List.range (seqn.toNat - nextSeqn.toNat)).map
        fun i => nextSeqn + UInt32.ofNat i
      let (nacks, ackThrough) := fillNacks rest (seqn + 1) (numNacks + missing.length)
      (missing ++ nacks, ackThrough)

/-- `last_received_seqn` of `SendQuickAck`: the highest sequence number received, as far as it is
positive. -/
def lastReceivedSeqn (last : Int32) (saved : List Packet) : Int32 :=
  match saved.getLast? with
  | some p => if last < p.getSeqn.toInt32 then p.getSeqn.toInt32 else last
  | none => last

/-- The NACKs of `SendQuickAck`, and the ack-through that replaces its first one. -/
def quickAckNacks (last : Int32) (saved : List Packet) : List UInt32 × Option UInt32 :=
  if last < lastReceivedSeqn last saved then fillNacks saved (last + 1).toUInt32 0 else ([], none)

/-- The packet built by `SendQuickAck`; the resend delay is left as it was in the buffer. -/
def quickAckPacket (env : StreamEnv) (s : Stream) : Packet :=
  let lastReceived := lastReceivedSeqn s.lastReceivedSequenceNumber s.savedPackets
  let (nacks, replaced) := quickAckNacks s.lastReceivedSequenceNumber s.savedPackets
  let bytes := s.packetHead 0 (replaced.getD lastReceived.toUInt32) ++
    packetTail nacks (env.newBuffer (17 + 4 * nacks.length)) 0 0
  { buf := store env.newBuffer 0 bytes, len := bytes.length }

/-- `SendQuickAck`. -/
def sendQuickAck (env : StreamEnv) (s : Stream) : Stream :=
  if lastReceivedSeqn s.lastReceivedSequenceNumber s.savedPackets < 0 then s
  else s.sendPackets [s.quickAckPacket env]

/-! ## Receiving -/

/-- The check of a signature at address `pos` of the packet, over the packet with the signature
zeroed. -/
def verifySignature (env : StreamEnv) (s : Stream) (packet : Packet) (pos : ℕ) : Bool :=
  let signatureLen := s.remoteIdentity.getSignatureLen
  let zeroed := store packet.buf pos (List.replicate signatureLen 0)
  s.remoteIdentity.verify env.crypto { packet with buf := zeroed }.contents
    (slice packet.buf pos signatureLen)

/-- The options of `ProcessPacket` in front of the signature: the identity of the peer is taken
over, and the position of the signature is returned. -/
def processFrom (env : StreamEnv) (s : Stream) (packet : Packet) : Stream × ℕ :=
  let flags := packet.getFlags
  let pos := packet.optionDataOffset
  let pos := if Packet.hasFlag flags packetFlagDelayRequested then pos + 2 else pos
  let (remoteIdentity, pos) :=
    if Packet.hasFlag flags packetFlagFromIncluded then
      let (id, n) := s.remoteIdentity.fromBuffer env.crypto packet.buf pos packet.getOptionSize
      (id, pos + n)
    else (s.remoteIdentity, pos)
  let pos := if Packet.hasFlag flags packetFlagMaxPacketSizeIncluded then pos + 2 else pos
  ({ s with remoteIdentity }, pos)

/-- The option part of `ProcessPacket`: the stream and the flags after it. -/
def processOptions (env : StreamEnv) (s : Stream) (packet : Packet) : Stream × UInt16 :=
  let flags := packet.getFlags
  let (s, pos) := s.processFrom env packet
  if Packet.hasFlag flags packetFlagSignatureIncluded then
    let verified := s.verifySignature env packet pos
    let s := { s with remoteIdentity := s.remoteIdentity.withVerifier }
    if verified then (s, flags) else (s.close env, flags ||| packetFlagClose)
  else (s, flags)

/-- `ProcessPacket`. -/
def processPacket (env : StreamEnv) (s : Stream) (packet : Packet) : Stream :=
  let (s, flags) := s.processOptions env packet
  let packet := { packet with offset := packet.payloadOffset }
  let s := { s with
    receiveQueue := if packet.getLength > 0 then s.receiveQueue ++ [packet] else s.receiveQueue
    lastReceivedSequenceNumber := packet.getSeqn.toInt32
    accepted := s.accepted ++ [packet.getSeqn] }
  if Packet.hasFlag flags (packetFlagClose ||| packetFlagReset) then
    { s with status := .reset }.close env
  else s

/-- The loop of `HandleNextPacket` over the saved packets. -/
def processSaved (env : StreamEnv) : List Packet → Stream → Stream
  | [], s => s
  | saved :: rest, s =>
    if saved.getSeqn = (s.lastReceivedSequenceNumber + 1).toUInt32 then
      processSaved env rest ({ s with savedPackets := rest }.processPacket env saved)
    else s

/-- `SavePacket`. -/
def savePacket (s : Stream) (packet : Packet) : Stream :=
  { s with
    savedPackets := insertPacket packet s.savedPackets
    accepted := s.accepted ++ [packet.getSeqn] }

/-- The branch of `HandleNextPacket` for the next packet in sequence and for every SYN. -/
def handleInSequence (env : StreamEnv) (now : UInt64) (s : Stream) (packet : Packet) : Stream :=
  let s := s.processPacket env packet
  let s := s.processSaved env s.savedPackets
  if s.status = .open then { s with isAckSendScheduled := true }
  else if packet.isSYN then s.sendBufferPackets env now
  else s

/-- The branch of `HandleNextPacket` for duplicates and early packets. -/
def handleOutOfSequence (env : StreamEnv) (s : Stream) (packet : Packet) : Stream :=
  if packet.getSeqn.toInt32 ≤ s.lastReceivedSequenceNumber then s.sendQuickAck env
  else
    let s := s.savePacket packet
    if 0 ≤ s.lastReceivedSequenceNumber then
      { s with isAckSendScheduled := false }.sendQuickAck env
    else { s with isAckSendScheduled := true }

/-- The stream ID of the peer is that of the first packet. -/
def learnSendStreamID (s : Stream) (packet : Packet) : Stream :=
  if s.sendStreamID = 0 then { s with sendStreamID := packet.getReceiveStreamID } else s

/-- The part of `HandleNextPacket` in front of the sequence number: the stream ID of the peer and
the acknowledgement. -/
def beforeSequence (env : StreamEnv) (now : UInt64) (s : Stream) (packet : Packet) : Stream :=
  if packet.isNoAck then s.learnSendStreamID packet
  else (s.learnSendStreamID packet).processAck env now packet

/-- `HandleNextPacket`. -/
def handleNextPacket (env : StreamEnv) (now : UInt64) (s : Stream) (packet : Packet) : Stream :=
  let s := s.beforeSequence env now packet
  if packet.getSeqn.toInt32 = 0 && !packet.isSYN then s
  else if packet.isSYN || packet.getSeqn.toInt32 = s.lastReceivedSequenceNumber + 1 then
    s.handleInSequence env now packet
  else s.handleOutOfSequence env packet

/-- `ConcatenatePackets`: the bytes copied. -/
def concatenatePackets : List Packet → ℕ → List Packet × List UInt8
  | [], _ => ([], [])
  | packet :: rest, len =>
    if len = 0 then (packet :: rest, [])
    else
      let l := min packet.getLength len
      let bytes := slice packet.buf packet.offset l
      let packet := { packet with offset := packet.offset + l }
      if packet.getLength = 0 then
        let (queue, more) := concatenatePackets rest (len - l)
        (queue, bytes ++ more)
      else (packet :: rest, bytes)

/-- `ReadSome`. -/
def readSome (s : Stream) (len : ℕ) : Stream :=
  let (queue, bytes) := concatenatePackets s.receiveQueue len
  { s with
    receiveQueue := queue
    delivered := s.delivered ++ bytes }

/-! ## Timers -/

/-- Whether `HandleResendTimer` resends a packet. -/
def isDue (now : UInt64) (s : Stream) (sent : Packet) : Bool :=
  now ≥ sent.sendTime + UInt64.ofInt s.rto

/-- `HandleResendTimer`. -/
def handleResendTimer (env : StreamEnv) (now : UInt64) (s : Stream) : Stream :=
  if s.numResendAttempts ≥ maxNumResendAttempts then { s with status := .reset }.close env
  else
    let packets := (s.sentPackets.filter (s.isDue now)).map fun p => { p with sendTime := now }
    let sentPackets :=
      s.sentPackets.map fun p => if s.isDue now p then { p with sendTime := now } else p
    let s := { s with sentPackets }
    let s :=
      if packets.isEmpty then s
      else
        let attempts := s.numResendAttempts + 1
        let s := { s with
          numResendAttempts := attempts
          rto := if attempts = 2 then initialRTO else s.rto * 2
          windowSize :=
            if attempts = 1 then max (s.windowSize.tdiv 2) minWindowSize else s.windowSize }
        s.sendPackets packets
    { s with resendTimer := true }

/-- `HandleAckSendTimer`. -/
def handleAckSendTimer (env : StreamEnv) (s : Stream) : Stream :=
  if s.isAckSendScheduled then
    if s.lastReceivedSequenceNumber < 0 then { s with status := .reset }.close env
    else
      let s := if s.status = .open then s.sendQuickAck env else s
      { s with isAckSendScheduled := false }
  else s

/-- The posted call of `SendPacket`. -/
def runPosted (s : Stream) : Stream :=
  match s.posted with
  | [] => s
  | packet :: rest => { s with posted := rest }.sendPacket packet

end Stream

/-! ## Operations -/

/-- What can happen to a stream. -/
inductive Operation
  | handleNextPacket (packet : Packet)
  | send (buf : List UInt8)
  | asyncSend (buf : List UInt8) (handler : ℕ)
  | sendBuffer
  | sendPacket
  | readSome (len : ℕ)
  | close
  | terminate
  | handleResendTimer
  | handleAckSendTimer

/-- The effect of an operation at the time `now`. -/
def Stream.step (env : StreamEnv) (now : UInt64) (s : Stream) : Operation → Stream
  | .handleNextPacket packet => s.handleNextPacket env now packet
  | .send buf => s.send buf
  | .asyncSend buf handler => s.asyncSend buf handler
  | .sendBuffer => s.sendBufferPackets env now
  | .sendPacket => s.runPosted
  | .readSome len => s.readSome len
  | .close => s.close env
  | .terminate => s.terminate
  | .handleResendTimer => s.handleResendTimer env now
  | .handleAckSendTimer => s.handleAckSendTimer env

end Streaming
