import Xi2p.Lib.Runs
import Xi2p.Streaming.Stream

/-!
# The receiving half of a stream

`Inbound` is the part of a stream that incoming packets determine: the last sequence number
received, the packets saved, the queue for the reader, and what has been read and accepted.

* Every function that sends leaves it alone (`inbound_sendBufferPackets`, `inbound_processAck`, …).
* `inbound_handleNextPacket`: `HandleNextPacket` acts on it by `Inbound.receive`, whatever the
  status of the stream, its acknowledgements and the signatures of the packets are.
-/

namespace Streaming

open Bytes Identity

/-- The receiving half of a stream. -/
@[ext]
structure Inbound where
  /-- `m_LastReceivedSequenceNumber`. -/
  last : Int32
  /-- `m_SavedPackets`. -/
  saved : List Packet
  /-- `m_ReceiveQueue`. -/
  queue : List Packet
  /-- The bytes handed to readers. -/
  delivered : List UInt8
  /-- The sequence numbers processed or saved. -/
  accepted : List UInt32

/-- The receiving half of `s`. -/
def Stream.inbound (s : Stream) : Inbound where
  last := s.lastReceivedSequenceNumber
  saved := s.savedPackets
  queue := s.receiveQueue
  delivered := s.delivered
  accepted := s.accepted

namespace Inbound

/-- The effect of `ProcessPacket`. -/
def process (r : Inbound) (packet : Packet) : Inbound :=
  { r with
    queue :=
      if { packet with offset := packet.payloadOffset }.getLength > 0 then
        r.queue ++ [{ packet with offset := packet.payloadOffset }]
      else r.queue
    last := packet.getSeqn.toInt32
    accepted := r.accepted ++ [packet.getSeqn] }

/-- The loop over the saved packets. -/
def drain : List Packet → Inbound → Inbound
  | [], r => r
  | saved :: rest, r =>
    if saved.getSeqn = (r.last + 1).toUInt32 then drain rest ({ r with saved := rest }.process saved)
    else r

/-- The effect of `SavePacket`. -/
def save (r : Inbound) (packet : Packet) : Inbound :=
  { r with
    saved := insertPacket packet r.saved
    accepted := r.accepted ++ [packet.getSeqn] }

/-- The effect of `HandleNextPacket`. -/
def receive (r : Inbound) (packet : Packet) : Inbound :=
  if packet.getSeqn.toInt32 = 0 && !packet.isSYN then r
  else if packet.isSYN || packet.getSeqn.toInt32 = r.last + 1 then
    drain r.saved (r.process packet)
  else if packet.getSeqn.toInt32 ≤ r.last then r
  else r.save packet

end Inbound

/-! ## Sending leaves the receiving half alone -/

namespace Stream

variable (env : StreamEnv) (now : UInt64)

@[simp]
theorem inbound_sendPackets (s : Stream) (packets : List Packet) :
    (s.sendPackets packets).inbound = s.inbound := rfl

@[simp]
theorem inbound_sendPacket (s : Stream) (packet : Packet) :
    (s.sendPacket packet).inbound = s.inbound := by
  unfold sendPacket
  dsimp only
  split <;> rfl

@[simp]
theorem inbound_sendClose (s : Stream) : (s.sendClose env).inbound = s.inbound := rfl

@[simp]
theorem inbound_terminate (s : Stream) : s.terminate.inbound = s.inbound := by
  unfold terminate
  split <;> rfl

@[simp]
theorem inbound_closeClosing (s : Stream) : (s.closeClosing env).inbound = s.inbound := by
  unfold closeClosing
  split
  · simp only [inbound_terminate, inbound_sendClose]
    rfl
  · rfl

@[simp]
theorem inbound_close (s : Stream) : (s.close env).inbound = s.inbound := by
  unfold close
  split <;> simp only [inbound_closeClosing, inbound_terminate, inbound_sendClose]
  rfl

@[simp]
theorem inbound_createPackets (isNoAck : Bool) (n : ℕ) (s : Stream) :
    (s.createPackets env isNoAck n).1.inbound = s.inbound := by
  induction n generalizing s with
  | zero => rfl
  | succ n ih =>
    rw [createPackets]
    split
    · exact ih _
    · split
      · exact ih _
      · rfl

@[simp]
theorem inbound_completeSend (s : Stream) : s.completeSend.inbound = s.inbound := by
  unfold completeSend
  split
  · split <;> rfl
  · rfl

@[simp]
theorem inbound_sendCreated (s : Stream) (packets : List Packet) :
    (s.sendCreated env now packets).inbound = s.inbound := by
  unfold sendCreated
  dsimp only
  split <;> split <;> rfl

@[simp]
theorem inbound_sendBufferPackets (s : Stream) :
    (s.sendBufferPackets env now).inbound = s.inbound := by
  unfold sendBufferPackets
  dsimp only
  split
  · rfl
  · split <;> simp

@[simp]
theorem inbound_send (s : Stream) (buf : List UInt8) : (s.send buf).inbound = s.inbound := by
  unfold send
  split <;> rfl

@[simp]
theorem inbound_asyncSend (s : Stream) (buf : List UInt8) (handler : ℕ) :
    (s.asyncSend buf handler).inbound = s.inbound := by
  unfold asyncSend
  split <;> simp only [inbound_send] <;> rfl

@[simp]
theorem inbound_acknowledge (s : Stream) (sent : Packet) :
    (s.acknowledge now sent).inbound = s.inbound := by
  unfold acknowledge
  dsimp only
  split
  · rfl
  · split <;> rfl

@[simp]
theorem inbound_releaseAcked (packet : Packet) (sent : List Packet) (s : Stream) :
    (releaseAcked now packet sent s).1.inbound = s.inbound := by
  induction sent generalizing s with
  | nil => rfl
  | cons p sent ih =>
    rw [releaseAcked]
    split
    · split
      · exact ih s
      · rw [ih, inbound_acknowledge]
    · rfl

@[simp]
theorem inbound_releasePackets (s : Stream) (packet : Packet) :
    (s.releasePackets now packet).inbound = s.inbound :=
  inbound_releaseAcked now packet s.sentPackets s

@[simp]
theorem inbound_releaseAndSend (s : Stream) (packet : Packet) :
    (s.releaseAndSend env now packet).inbound = s.inbound := by
  unfold releaseAndSend
  split
  · rw [inbound_sendBufferPackets]
    exact inbound_releasePackets now s packet
  · exact inbound_releasePackets now s packet

/-- `ProcessAck` does not touch the receiving half. -/
@[simp]
theorem inbound_processAck (s : Stream) (packet : Packet) :
    (s.processAck env now packet).inbound = s.inbound := by
  unfold processAck
  dsimp only
  split
  · rw [inbound_close, inbound_releaseAndSend]
  · exact inbound_releaseAndSend env now s packet

@[simp]
theorem inbound_sendQuickAck (s : Stream) : (s.sendQuickAck env).inbound = s.inbound := by
  unfold sendQuickAck
  split <;> rfl

@[simp]
theorem inbound_handleResendTimer (s : Stream) :
    (s.handleResendTimer env now).inbound = s.inbound := by
  unfold handleResendTimer
  dsimp only
  split
  · rw [inbound_close]
    rfl
  · split <;> rfl

@[simp]
theorem inbound_handleAckSendTimer (s : Stream) :
    (s.handleAckSendTimer env).inbound = s.inbound := by
  unfold handleAckSendTimer
  split
  · split
    · rw [inbound_close]
      rfl
    · dsimp only
      split
      · exact inbound_sendQuickAck env s
      · rfl
  · rfl

@[simp]
theorem inbound_runPosted (s : Stream) : s.runPosted.inbound = s.inbound := by
  unfold runPosted
  split
  · rfl
  · rw [inbound_sendPacket]
    rfl

/-! ## Receiving -/

theorem inbound_processOptions (s : Stream) (packet : Packet) :
    (s.processOptions env packet).1.inbound = s.inbound := by
  unfold processOptions
  dsimp only
  split
  · split
    · rfl
    · rw [inbound_close]
      rfl
  · rfl

theorem inbound_processPacket (s : Stream) (packet : Packet) :
    (s.processPacket env packet).inbound = s.inbound.process packet := by
  have hoptions := inbound_processOptions env s packet
  unfold processPacket Inbound.process
  dsimp only
  rw [← hoptions]
  split
  · rw [inbound_close]
    rfl
  · rfl

theorem inbound_processSaved (saved : List Packet) (s : Stream) :
    (s.processSaved env saved).inbound = s.inbound.drain saved := by
  induction saved generalizing s with
  | nil => rfl
  | cons p saved ih =>
    rw [processSaved, Inbound.drain]
    by_cases h : p.getSeqn = (s.lastReceivedSequenceNumber + 1).toUInt32
    · rw [if_pos h, if_pos (show p.getSeqn = (s.inbound.last + 1).toUInt32 from h), ih,
        inbound_processPacket]
      rfl
    · rw [if_neg h, if_neg (show ¬ p.getSeqn = (s.inbound.last + 1).toUInt32 from h)]

theorem inbound_handleInSequence (s : Stream) (packet : Packet) :
    (s.handleInSequence env now packet).inbound =
      (s.inbound.process packet).drain s.inbound.saved := by
  have hprocess := inbound_processPacket env s packet
  have hsaved : (s.processPacket env packet).savedPackets = s.inbound.saved :=
    congrArg Inbound.saved hprocess
  have hdrain := inbound_processSaved env s.inbound.saved (s.processPacket env packet)
  rw [hprocess] at hdrain
  unfold handleInSequence
  dsimp only
  rw [hsaved]
  split
  · exact hdrain
  · split
    · rw [inbound_sendBufferPackets, hdrain]
    · exact hdrain

theorem inbound_handleOutOfSequence (s : Stream) (packet : Packet) :
    (s.handleOutOfSequence env packet).inbound =
      if packet.getSeqn.toInt32 ≤ s.inbound.last then s.inbound else s.inbound.save packet := by
  unfold handleOutOfSequence
  dsimp only
  by_cases h : packet.getSeqn.toInt32 ≤ s.lastReceivedSequenceNumber
  · rw [if_pos h, if_pos (show packet.getSeqn.toInt32 ≤ s.inbound.last from h),
      inbound_sendQuickAck]
  · rw [if_neg h, if_neg (show ¬ packet.getSeqn.toInt32 ≤ s.inbound.last from h)]
    split
    · rw [inbound_sendQuickAck]
      rfl
    · rfl

@[simp]
theorem inbound_learnSendStreamID (s : Stream) (packet : Packet) :
    (s.learnSendStreamID packet).inbound = s.inbound := by
  unfold learnSendStreamID
  split <;> rfl

theorem inbound_beforeSequence (s : Stream) (packet : Packet) :
    (s.beforeSequence env now packet).inbound = s.inbound := by
  unfold beforeSequence
  split <;> simp

/-- `HandleNextPacket` acts on the receiving half through the packet alone. -/
theorem inbound_handleNextPacket (s : Stream) (packet : Packet) :
    (s.handleNextPacket env now packet).inbound = s.inbound.receive packet := by
  have hbefore := inbound_beforeSequence env now s packet
  have hlast : (s.beforeSequence env now packet).lastReceivedSequenceNumber = s.inbound.last :=
    congrArg Inbound.last hbefore
  unfold handleNextPacket Inbound.receive
  dsimp only
  rw [hlast]
  split
  · exact hbefore
  · split
    · rw [inbound_handleInSequence, hbefore]
    · rw [inbound_handleOutOfSequence, hbefore]

end Stream

end Streaming
