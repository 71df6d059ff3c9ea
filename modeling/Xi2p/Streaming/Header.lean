import Xi2p.Streaming.Stream

/-!
# The header of the packets a stream builds

What the accessors of `Packet` read from the packets built by `SendBuffer`, `SendQuickAck` and
`SendClose`. All of them share the layout `packetHead ++ packetTail`.
-/

namespace Streaming

open Bytes Identity

namespace Packet

variable {p : Packet} {s : Stream} {seqn ackThrough : UInt32} {nacks : List UInt32}
  {resendDelay : UInt8} {flags : UInt16} {optionsSize : ℕ}

/-- The packet starts with the header of the given fields. -/
def HasHeader (p : Packet) (s : Stream) (seqn ackThrough : UInt32) (nacks : List UInt32)
    (resendDelay : UInt8) (flags : UInt16) (optionsSize : ℕ) : Prop :=
  StandsAt p.buf 0
    (s.packetHead seqn ackThrough ++ Stream.packetTail nacks resendDelay flags optionsSize)

theorem HasHeader.head (h : p.HasHeader s seqn ackThrough nacks resendDelay flags optionsSize) :
    StandsAt p.buf 0 (s.packetHead seqn ackThrough) :=
  (standsAt_append.mp h).1

theorem HasHeader.tail (h : p.HasHeader s seqn ackThrough nacks resendDelay flags optionsSize) :
    StandsAt p.buf 16 (Stream.packetTail nacks resendDelay flags optionsSize) := by
  have htail := (standsAt_append.mp h).2
  simpa [Stream.packetHead] using htail

theorem HasHeader.getSeqn_eq
    (h : p.HasHeader s seqn ackThrough nacks resendDelay flags optionsSize) :
    p.getSeqn = seqn := by
  have hhead := h.head
  unfold Stream.packetHead at hhead
  rw [standsAt_append, standsAt_append] at hhead
  exact StandsAt.readU32_eq (by simpa using hhead.1.2)

theorem HasHeader.getAckThrough_eq
    (h : p.HasHeader s seqn ackThrough nacks resendDelay flags optionsSize) :
    p.getAckThrough = ackThrough := by
  have hhead := h.head
  unfold Stream.packetHead at hhead
  rw [standsAt_append] at hhead
  exact StandsAt.readU32_eq (by simpa using hhead.2)

theorem length_flatten_writeU32 (vs : List UInt32) :
    ((vs.map writeU32).flatten).length = 4 * vs.length := by
  induction vs with
  | nil => rfl
  | cons v vs ih =>
    rw [List.map_cons, List.flatten_cons, List.length_append, ih, length_writeU32,
      List.length_cons]
    ring

/-- The word at index `i` of a list of words. -/
theorem standsAt_writeU32_of_flatten {m : Mem} {off : ℕ} {vs : List UInt32}
    (h : StandsAt m off (vs.map writeU32).flatten) {i : ℕ} (hi : i < vs.length) :
    StandsAt m (off + 4 * i) (writeU32 vs[i]) := by
  induction vs generalizing off i with
  | nil => simp at hi
  | cons v vs ih =>
    rw [List.map_cons, List.flatten_cons, standsAt_append, length_writeU32] at h
    cases i with
    | zero => exact h.1
    | succ i =>
      have hrest := ih h.2 (Nat.lt_of_succ_lt_succ hi)
      rw [show off + 4 * (i + 1) = off + 4 + 4 * i by ring]
      exact hrest

section Tail

variable (hnacks : nacks.length < 256)
include hnacks

theorem HasHeader.getNACKCount_eq
    (h : p.HasHeader s seqn ackThrough nacks resendDelay flags optionsSize) :
    p.getNACKCount = nacks.length := by
  have htail := h.tail
  rw [Stream.packetTail, List.cons_append, standsAt_cons] at htail
  unfold getNACKCount
  rw [htail.1, UInt8.toNat_ofNat', Nat.mod_eq_of_lt hnacks]

theorem HasHeader.nacks_eq
    (h : p.HasHeader s seqn ackThrough nacks resendDelay flags optionsSize) :
    p.nacks = nacks := by
  have htail := h.tail
  rw [Stream.packetTail, List.cons_append, standsAt_cons, standsAt_append] at htail
  unfold Packet.nacks
  rw [h.getNACKCount_eq hnacks]
  apply List.ext_getElem (by simp)
  intro i h₁ h₂
  rw [List.getElem_map, List.getElem_range]
  exact (standsAt_writeU32_of_flatten htail.2.1 h₂).readU32_eq

theorem HasHeader.getFlags_eq
    (h : p.HasHeader s seqn ackThrough nacks resendDelay flags optionsSize) :
    p.getFlags = flags := by
  have htail := h.tail
  rw [Stream.packetTail, List.cons_append, standsAt_cons, standsAt_append,
    length_flatten_writeU32, standsAt_cons, standsAt_append] at htail
  have hflags := htail.2.2.2.1
  have hpos : p.optionOffset - 2 = 16 + 1 + 4 * nacks.length + 1 := by
    unfold optionOffset
    rw [h.getNACKCount_eq hnacks]
    omega
  have hlt : flags.toNat < 256 ^ 2 := flags.toNat_lt
  unfold getFlags readU16
  rw [hpos, hflags.readBE_eq, Nat.mod_eq_of_lt hlt, UInt16.ofNat_toNat]

end Tail

end Packet

/-! ## The packets of a stream -/

namespace Stream

variable (env : StreamEnv) (s : Stream)

theorem length_packetTail_nil (resendDelay : UInt8) (flags : UInt16) (optionsSize : ℕ) :
    (packetTail [] resendDelay flags optionsSize).length = 6 := by
  simp [packetTail]

theorem length_packetHead (seqn ackThrough : UInt32) :
    (s.packetHead seqn ackThrough).length = 16 := by
  simp [packetHead]

/-- The ack-through that `SendBuffer` writes. -/
def sentAckThrough (isNoAck : Bool) : UInt32 :=
  if isNoAck then s.lastReceivedSequenceNumber.toUInt32 else 0

/-- The flags of a SYN. -/
def synFlags (isNoAck : Bool) : UInt16 :=
  packetFlagSynchronize ||| packetFlagFromIncluded ||| packetFlagSignatureIncluded |||
    packetFlagMaxPacketSizeIncluded ||| (if isNoAck then packetFlagNoAck else 0)

theorem hasHeader_synPacket (isNoAck : Bool) :
    (s.synPacket env isNoAck).2.HasHeader s s.sequenceNumber (s.sentAckThrough isNoAck) []
      (UInt8.ofInt (s.rto.tdiv 1000)) (synFlags isNoAck)
      (env.identity.getFullLen + env.identity.getSignatureLen + 2) := by
  have hlen : 0 + (s.packetHead s.sequenceNumber (s.sentAckThrough isNoAck) ++
      packetTail [] (UInt8.ofInt (s.rto.tdiv 1000)) (synFlags isNoAck)
        (env.identity.getFullLen + env.identity.getSignatureLen + 2)).length = 22 := by
    rw [List.length_append, length_packetHead, length_packetTail_nil]
  -- everything written after the header lies behind it
  unfold Packet.HasHeader
  apply StandsAt.store_of_le _ (by rw [hlen]; omega)
  apply StandsAt.store_of_le _ (by rw [hlen]; omega)
  apply StandsAt.store_of_le _ (by rw [hlen]; omega)
  apply StandsAt.store_of_le _ (by rw [hlen]; omega)
  apply StandsAt.store_of_le _ (by rw [hlen])
  exact standsAt_store _ _ _

theorem hasHeader_followOnPacket (isNoAck : Bool) :
    (s.followOnPacket env isNoAck).2.HasHeader s s.sequenceNumber (s.sentAckThrough isNoAck) []
      (UInt8.ofInt (s.rto.tdiv 1000)) 0 0 := by
  unfold Packet.HasHeader
  apply StandsAt.store_of_le
  · exact standsAt_store _ _ _
  · rw [List.length_append, length_packetHead, length_packetTail_nil]

theorem hasHeader_closePacket :
    (s.closePacket env).HasHeader s s.sequenceNumber s.lastReceivedSequenceNumber.toUInt32 []
      (env.newBuffer 17) (packetFlagClose ||| packetFlagSignatureIncluded)
      env.identity.getSignatureLen := by
  have hlen : 0 + (s.packetHead s.sequenceNumber s.lastReceivedSequenceNumber.toUInt32 ++
      packetTail [] (env.newBuffer 17) (packetFlagClose ||| packetFlagSignatureIncluded)
        env.identity.getSignatureLen).length = 22 := by
    rw [List.length_append, length_packetHead, length_packetTail_nil]
  unfold Packet.HasHeader
  apply StandsAt.store_of_le _ (by rw [hlen])
  apply StandsAt.store_of_le _ (by rw [hlen])
  exact standsAt_store _ _ _

/-- A quick ack whose NACKs all fit. -/
theorem hasHeader_quickAckPacket
    (hfits : (quickAckNacks s.lastReceivedSequenceNumber s.savedPackets).2 = none) :
    (s.quickAckPacket env).HasHeader s 0
      (lastReceivedSeqn s.lastReceivedSequenceNumber s.savedPackets).toUInt32
      (quickAckNacks s.lastReceivedSequenceNumber s.savedPackets).1
      (env.newBuffer
        (17 + 4 * (quickAckNacks s.lastReceivedSequenceNumber s.savedPackets).1.length)) 0 0 := by
  unfold Packet.HasHeader quickAckPacket
  dsimp only
  rw [hfits]
  exact standsAt_store _ _ _

end Stream

end Streaming
