import Xi2p.Tunnel.BuildBounds

/-!
# Tunnel gateway messages

The functions `CreateTunnelGatewayMsg` of `core/router/i2np.cc` and `HandleTunnelGatewayMsg` of
`core/router/tunnel/impl.cc`. A message is wrapped where it lies if there is room in front of it,
and copied otherwise; a third function writes the inner message into the wrapped one.

* `wraps_createTunnelGatewayMsg`, `wraps_createTunnelGatewayMsgFrom`,
  `wraps_createTunnelGatewayMsgOf`: what the three functions write.
* `createTunnelGatewayMsg_agree`: they write the same, and the handler undoes it.
-/

namespace I2NP.I2NPMessage

open Bytes

/-! ## The header -/

/-- `GetPayloadLength()`. -/
def getPayloadLength (m : I2NPMessage) : ℕ := m.getLength - headerSize

/-- Write into the header, at an offset. -/
def setHeader (m : I2NPMessage) (off : ℕ) (bs : List UInt8) : I2NPMessage :=
  { m with buf := store m.buf (m.offset + off) bs }

/-- `SetTypeID`. -/
def setTypeID (m : I2NPMessage) (typeID : UInt8) : I2NPMessage := m.setHeader 0 [typeID]

/-- `SetMsgID`. -/
def setMsgID (m : I2NPMessage) (msgID : UInt32) : I2NPMessage :=
  m.setHeader headerMsgIDOffset (writeU32 msgID)

/-- `SetExpiration`. -/
def setExpiration (m : I2NPMessage) (expiration : ℕ) : I2NPMessage :=
  m.setHeader headerExpirationOffset (writeBE 8 expiration)

/-- `SetSize`. -/
def setSize (m : I2NPMessage) (size : UInt16) : I2NPMessage :=
  m.setHeader headerSizeOffset (writeU16 size)

/-- `UpdateSize`. -/
def updateSize (m : I2NPMessage) : I2NPMessage := m.setSize (UInt16.ofNat m.getPayloadLength)

/-- What `FillI2NPMessageHeader` finds outside. -/
structure HeaderEnv where
  /-- `Rand<std::uint32_t>()`. -/
  rand : UInt32
  /-- `GetMillisecondsSinceEpoch()`. -/
  milliseconds : ℕ
  /-- `SHA256().CalculateDigest`. -/
  sha256 : List UInt8 → IdentHash

/-- `UpdateChks`. -/
def updateChks (m : I2NPMessage) (env : HeaderEnv) : I2NPMessage :=
  m.setHeader headerChksOffset
    ((env.sha256 (slice m.buf m.payloadPos m.getPayloadLength)).bytes.take 1)

/-- `FillI2NPMessageHeader`. -/
def fillI2NPMessageHeader (m : I2NPMessage) (env : HeaderEnv) (msgType : UInt8)
    (replyMsgID : UInt32) : I2NPMessage :=
  let m := m.setTypeID msgType
  -- a reply message ID is for tunnel creation
  let m := m.setMsgID (if replyMsgID ≠ 0 then replyMsgID else env.rand)
  let m := m.setExpiration (env.milliseconds + 60000)
  m.updateSize.updateChks env

variable {m : I2NPMessage} {env : HeaderEnv} {msgType : UInt8} {replyMsgID : UInt32}

@[simp]
theorem offset_fillI2NPMessageHeader :
    (m.fillI2NPMessageHeader env msgType replyMsgID).offset = m.offset := rfl

@[simp]
theorem len_fillI2NPMessageHeader :
    (m.fillI2NPMessageHeader env msgType replyMsgID).len = m.len := rfl

@[simp]
theorem getLength_fillI2NPMessageHeader :
    (m.fillI2NPMessageHeader env msgType replyMsgID).getLength = m.getLength := rfl

/-- A field lies in front of the payload. -/
theorem standsAt_setHeader {pos : ℕ} {cs : List UInt8} (off : ℕ) (bs : List UInt8)
    (h : StandsAt m.buf pos cs) (hpos : m.payloadPos ≤ pos) (hoff : off + bs.length ≤ headerSize) :
    StandsAt (m.setHeader off bs).buf pos cs := by
  refine h.store_of_ge ?_
  rw [payloadPos] at hpos
  omega

/-- The header lies in front of the payload. -/
theorem standsAt_fillI2NPMessageHeader {pos : ℕ} {bs : List UInt8} (env : HeaderEnv)
    (msgType : UInt8) (replyMsgID : UInt32) (h : StandsAt m.buf pos bs) (hpos : m.payloadPos ≤ pos) :
    StandsAt (m.fillI2NPMessageHeader env msgType replyMsgID).buf pos bs := by
  have htype : StandsAt (m.setTypeID msgType).buf pos bs := standsAt_setHeader 0 _ h hpos (by simp)
  have hmsgID := standsAt_setHeader headerMsgIDOffset
    (writeU32 (if replyMsgID ≠ 0 then replyMsgID else env.rand)) htype hpos
    (by rw [length_writeU32]; decide)
  have hexpiration := standsAt_setHeader headerExpirationOffset
    (writeBE 8 (env.milliseconds + 60000)) hmsgID hpos (by rw [length_writeBE]; decide)
  have hsize := standsAt_setHeader headerSizeOffset
    (writeU16 (UInt16.ofNat m.getPayloadLength)) hexpiration hpos (by rw [length_writeU16]; decide)
  exact standsAt_setHeader headerChksOffset _ hsize hpos (by simp)

theorem getTypeID_fillI2NPMessageHeader :
    (m.fillI2NPMessageHeader env msgType replyMsgID).getTypeID = msgType := by
  have h : StandsAt (m.setTypeID msgType).buf m.offset [msgType] := standsAt_store _ _ _
  have hfilled : StandsAt (m.fillI2NPMessageHeader env msgType replyMsgID).buf m.offset [msgType] := by
    refine (((h.store_of_le ?_).store_of_le ?_).store_of_le ?_).store_of_le ?_
    all_goals
      change m.offset + 1 ≤ m.offset + _
      simp
  exact (standsAt_cons.mp hfilled).1

theorem standsAt_size_fillI2NPMessageHeader :
    StandsAt (m.fillI2NPMessageHeader env msgType replyMsgID).buf (m.offset + headerSizeOffset)
      (writeU16 (UInt16.ofNat m.getPayloadLength)) := by
  refine (standsAt_store _ _ _).store_of_le ?_
  change m.offset + 13 + _ ≤ m.offset + 15
  rw [length_writeU16]

end I2NP.I2NPMessage

namespace Tunnel.GatewayMsg

open Bytes I2NP I2NPMessage

/-! ## The functions -/

/-- `I2NPTunnelGateway`. -/
abbrev tunnelGateway : UInt8 := 19

/-- `TUNNEL_GATEWAY_HEADER_LENGTH_OFFSET`. -/
abbrev lengthOffset : ℕ := 4

/-- `CreateTunnelGatewayMsg`, for `len` bytes at a position of a buffer. -/
def createTunnelGatewayMsgFrom (env : HeaderEnv) (tunnelID : UInt32) (src : Mem) (pos len : ℕ) :
    I2NPMessage :=
  let msg := newI2NPMessageFor len
  let payload := msg.payloadPos
  let buf := store msg.buf payload (writeU32 tunnelID)
  let buf := store buf (payload + lengthOffset) (writeU16 (UInt16.ofNat len))
  let buf := memcpy buf (payload + tunnelGatewayHeaderSize) src pos len
  let msg := { msg with buf, len := msg.len + tunnelGatewayHeaderSize + len }
  msg.fillI2NPMessageHeader env tunnelGateway 0

/-- `CreateTunnelGatewayMsg`, for a message. -/
def createTunnelGatewayMsg (env : HeaderEnv) (tunnelID : UInt32) (msg : I2NPMessage) : I2NPMessage :=
  if msg.offset ≥ headerSize + tunnelGatewayHeaderSize then
    -- message is capable to be used without copying
    let payload := msg.offset - tunnelGatewayHeaderSize
    let len := msg.getLength
    let buf := store msg.buf payload (writeU32 tunnelID)
    let buf := store buf (payload + lengthOffset) (writeU16 (UInt16.ofNat len))
    let offset := msg.offset - (headerSize + tunnelGatewayHeaderSize)
    let msg := { msg with buf, offset, len := offset + headerSize + tunnelGatewayHeaderSize + len }
    msg.fillI2NPMessageHeader env tunnelGateway 0
  else createTunnelGatewayMsgFrom env tunnelID msg.buf msg.offset msg.getLength

/-- The content message of the third function, with room in front of it. -/
def contentMsg (env : HeaderEnv) (msgType : UInt8) (src : Mem) (pos len : ℕ) (replyMsgID : UInt32) :
    I2NPMessage :=
  let msg := newI2NPMessageFor len
  let gatewayMsgOffset := headerSize + tunnelGatewayHeaderSize
  let msg := { msg with offset := msg.offset + gatewayMsgOffset, len := msg.len + gatewayMsgOffset }
  let msg := { msg with buf := memcpy msg.buf msg.payloadPos src pos len, len := msg.len + len }
  msg.fillI2NPMessageHeader env msgType replyMsgID

/-- `CreateTunnelGatewayMsg`, for the type and the payload of a message. -/
def createTunnelGatewayMsgOf (contentEnv env : HeaderEnv) (tunnelID : UInt32) (msgType : UInt8)
    (src : Mem) (pos len : ℕ) (replyMsgID : UInt32) : I2NPMessage :=
  let msg := contentMsg contentEnv msgType src pos len replyMsgID
  let len := msg.getLength
  let msg := { msg with offset := msg.offset - (headerSize + tunnelGatewayHeaderSize) }
  let payload := msg.payloadPos
  let buf := store msg.buf payload (writeU32 tunnelID)
  let buf := store buf (payload + lengthOffset) (writeU16 (UInt16.ofNat len))
  { msg with buf }.fillI2NPMessageHeader env tunnelGateway 0

/-- `HandleTunnelGatewayMsg`: the message that is sent on. -/
def handleTunnelGatewayMsg (msg : I2NPMessage) : I2NPMessage :=
  let len := readU16 (slice msg.buf (msg.payloadPos + lengthOffset) 2)
  let offset := msg.offset + (headerSize + tunnelGatewayHeaderSize)
  { msg with offset, len := offset + len.toNat }

/-! ## What they write -/

/-- The payload of a gateway message. -/
def gatewayPayload (tunnelID : UInt32) (inner : List UInt8) : List UInt8 :=
  writeU32 tunnelID ++ writeU16 (UInt16.ofNat inner.length) ++ inner

/-- A gateway message around an inner message, which the handler finds in it. -/
structure Wraps (tunnelID : UInt32) (inner : List UInt8) (msg : I2NPMessage) : Prop where
  payload : slice msg.buf msg.payloadPos msg.getPayloadLength = gatewayPayload tunnelID inner
  getTypeID : msg.getTypeID = tunnelGateway
  inside : msg.Inside
  handled_bytes : (handleTunnelGatewayMsg msg).bytes = inner
  handled_getLength : (handleTunnelGatewayMsg msg).getLength = inner.length

/-- A message that ends behind its payload. -/
theorem wraps_fillI2NPMessageHeader {msg : I2NPMessage} {tunnelID : UInt32} {inner : List UInt8}
    (env : HeaderEnv) (hinner : inner.length < 2 ^ 16)
    (hpayload : StandsAt msg.buf msg.payloadPos (gatewayPayload tunnelID inner))
    (hlen : msg.len = msg.offset + headerSize + tunnelGatewayHeaderSize + inner.length)
    (hinside : msg.Inside) :
    Wraps tunnelID inner (msg.fillI2NPMessageHeader env tunnelGateway 0) := by
  have hstands := standsAt_fillI2NPMessageHeader env tunnelGateway 0 hpayload le_rfl
  set filled := msg.fillI2NPMessageHeader env tunnelGateway 0 with hfilled
  have hpos : filled.payloadPos = msg.payloadPos := rfl
  have hlength : (gatewayPayload tunnelID inner).length = filled.getPayloadLength := by
    change _ = msg.len - msg.offset - headerSize
    rw [gatewayPayload, List.length_append, List.length_append, length_writeU32, length_writeU16, hlen]
    simp only [headerSize, tunnelGatewayHeaderSize]
    omega
  -- the three parts of the payload
  obtain ⟨hids, hbytes⟩ := standsAt_append.mp hstands
  obtain ⟨-, hsize⟩ := standsAt_append.mp hids
  rw [length_writeU32] at hsize
  rw [List.length_append, length_writeU32, length_writeU16] at hbytes
  have hread : readU16 (slice filled.buf (filled.payloadPos + lengthOffset) 2) =
      UInt16.ofNat inner.length := by
    have hslice : slice filled.buf (filled.payloadPos + lengthOffset) 2 =
        writeU16 (UInt16.ofNat inner.length) := hsize
    rw [hslice, readU16_writeU16]
  have hnat : (UInt16.ofNat inner.length).toNat = inner.length := UInt16.toNat_ofNat_of_lt' hinner
  have hhandled : (handleTunnelGatewayMsg filled).getLength = inner.length := by
    rw [handleTunnelGatewayMsg, hread, hnat, I2NPMessage.getLength]
    exact Nat.add_sub_cancel_left _ _
  constructor
  · rw [← hlength]
    exact hstands
  · exact getTypeID_fillI2NPMessageHeader
  · exact hinside
  · rw [I2NPMessage.bytes, hhandled]
    exact hbytes
  · exact hhandled

theorem offset_newI2NPMessageFor (len : ℕ) : (newI2NPMessageFor len).offset = 2 := by
  rw [newI2NPMessageFor]
  split <;> rfl

/-- A buffer that is large enough is chosen. -/
theorem room_newI2NPMessageFor {len : ℕ} (hlen : len ≤ 32000) :
    (newI2NPMessageFor len).len + (headerSize + tunnelGatewayHeaderSize) + len ≤
      (newI2NPMessageFor len).capacity := by
  obtain ⟨hend, hcapacity, hmax⟩ := newI2NPMessageFor_sizes len
  simp only [headerSize, tunnelGatewayHeaderSize]
  omega

/-- The tunnel and the length are written one behind the other. -/
theorem standsAt_gatewayHeader (m : Mem) (pos : ℕ) (tunnelID : UInt32) (len : UInt16) :
    StandsAt (store (store m pos (writeU32 tunnelID)) (pos + lengthOffset) (writeU16 len)) pos
      (writeU32 tunnelID ++ writeU16 len) := by
  rw [standsAt_append, length_writeU32]
  refine ⟨(standsAt_store _ _ _).store_of_le ?_, standsAt_store _ _ _⟩
  rw [length_writeU32]

/-- The message is copied behind the gateway header. -/
theorem wraps_createTunnelGatewayMsgFrom (env : HeaderEnv) (tunnelID : UInt32) (src : Mem) (pos : ℕ)
    {len : ℕ} (hlen : len ≤ 32000) :
    Wraps tunnelID (slice src pos len) (createTunnelGatewayMsgFrom env tunnelID src pos len) := by
  have hoffset := offset_newI2NPMessageFor len
  have hend := (newI2NPMessageFor_sizes len).1
  have hroom := room_newI2NPMessageFor hlen
  apply wraps_fillI2NPMessageHeader
  · rw [length_slice]
    omega
  · -- the copy comes last, behind the header
    rw [gatewayPayload, length_slice, standsAt_append]
    constructor
    · refine (standsAt_gatewayHeader (newI2NPMessageFor len).buf _ _ _).congr fun i _ hi => ?_
      rw [List.length_append, length_writeU32, length_writeU16] at hi
      exact if_neg fun hcopied => absurd hi (not_lt.mpr hcopied.1)
    · rw [StandsAt, length_slice, List.length_append, length_writeU32, length_writeU16]
      exact slice_memcpy_self _ _ _ _ _
  · change (newI2NPMessageFor len).len + 6 + len = (newI2NPMessageFor len).offset + 16 + 6 + _
    rw [length_slice, hend, hoffset]
  · change (newI2NPMessageFor len).len + 6 + len ≤ (newI2NPMessageFor len).capacity
    simp only [headerSize, tunnelGatewayHeaderSize] at hroom
    omega

/-- The headers are written in front of the message where it lies, or it is copied. -/
theorem wraps_createTunnelGatewayMsg (env : HeaderEnv) (tunnelID : UInt32) {msg : I2NPMessage}
    (hinside : msg.Inside) (hstart : msg.offset ≤ msg.len) (hlen : msg.getLength ≤ 32000) :
    Wraps tunnelID msg.bytes (createTunnelGatewayMsg env tunnelID msg) := by
  rw [createTunnelGatewayMsg]
  split
  next hroom =>
    simp only [headerSize, tunnelGatewayHeaderSize] at hroom
    apply wraps_fillI2NPMessageHeader
    · rw [length_bytes]
      omega
    · have hpos : msg.offset - (headerSize + tunnelGatewayHeaderSize) + headerSize =
          msg.offset - tunnelGatewayHeaderSize := by
        simp only [headerSize, tunnelGatewayHeaderSize]
        omega
      rw [I2NPMessage.payloadPos, hpos]
      rw [gatewayPayload, length_bytes, standsAt_append]
      constructor
      · exact standsAt_gatewayHeader _ _ _ _
      · have hself : StandsAt msg.buf msg.offset msg.bytes := by
          rw [StandsAt, length_bytes]
          rfl
        have hpos : msg.offset - tunnelGatewayHeaderSize +
            (writeU32 tunnelID ++ writeU16 (UInt16.ofNat msg.getLength)).length = msg.offset := by
          rw [List.length_append, length_writeU32, length_writeU16]
          simp only [tunnelGatewayHeaderSize]
          omega
        rw [hpos]
        apply (hself.store_of_ge _).store_of_ge
        · rw [length_writeU16]
          simp only [tunnelGatewayHeaderSize, lengthOffset]
          omega
        · rw [length_writeU32]
          simp only [tunnelGatewayHeaderSize]
          omega
    · rw [length_bytes]
    · change msg.offset - 22 + 16 + 6 + (msg.len - msg.offset) ≤ msg.capacity
      rw [I2NPMessage.Inside] at hinside
      omega
  next hshort => exact wraps_createTunnelGatewayMsgFrom env tunnelID msg.buf msg.offset hlen

/-! ## The content message -/

/-- The third function wraps the content message where it lies. -/
theorem createTunnelGatewayMsgOf_eq (contentEnv env : HeaderEnv) (tunnelID : UInt32) (msgType : UInt8)
    (src : Mem) (pos len : ℕ) (replyMsgID : UInt32) :
    createTunnelGatewayMsgOf contentEnv env tunnelID msgType src pos len replyMsgID =
      createTunnelGatewayMsg env tunnelID (contentMsg contentEnv msgType src pos len replyMsgID) := by
  have hoffset : (contentMsg contentEnv msgType src pos len replyMsgID).offset = 24 := by
    change (newI2NPMessageFor len).offset + 22 = 24
    rw [offset_newI2NPMessageFor]
  have hend : (contentMsg contentEnv msgType src pos len replyMsgID).len = 40 + len := by
    change (newI2NPMessageFor len).len + 22 + len = 40 + len
    rw [(newI2NPMessageFor_sizes len).1]
  rw [createTunnelGatewayMsg, if_pos (by rw [hoffset]; decide), createTunnelGatewayMsgOf]
  dsimp only
  have hlen : (contentMsg contentEnv msgType src pos len replyMsgID).offset -
      (headerSize + tunnelGatewayHeaderSize) + headerSize + tunnelGatewayHeaderSize +
        (contentMsg contentEnv msgType src pos len replyMsgID).getLength =
      (contentMsg contentEnv msgType src pos len replyMsgID).len := by
    rw [I2NPMessage.getLength, hoffset, hend]
    simp only [headerSize, tunnelGatewayHeaderSize]
    omega
  rw [hlen, I2NPMessage.payloadPos, hoffset]
  rfl

/-- Two messages that agree but for the message ID, the expiration and the checksum. -/
def AgreeUpToHeader (a b : List UInt8) : Prop :=
  a.length = b.length ∧
    ∀ i, i < headerMsgIDOffset ∨ headerSizeOffset ≤ i → i ≠ headerChksOffset → a[i]? = b[i]?

/-- A message as the functions that create messages leave it: the header says how long the payload
is. -/
structure IsWhole (msg : I2NPMessage) : Prop where
  inside : msg.Inside
  hasHeader : headerSize ≤ msg.getLength
  getSize_eq : msg.getSize = msg.getPayloadLength

/-- The content message agrees with the message whose type and payload it has. -/
theorem agree_contentMsg (env : HeaderEnv) {msg : I2NPMessage} (hmsg : IsWhole msg)
    (hlen : msg.getLength ≤ 32000) (replyMsgID : UInt32) :
    AgreeUpToHeader
      (contentMsg env msg.getTypeID msg.buf msg.payloadPos msg.getPayloadLength replyMsgID).bytes
      msg.bytes := by
  obtain ⟨-, hheader, hsize⟩ := hmsg
  have hlength : msg.getPayloadLength + headerSize = msg.getLength := Nat.sub_add_cancel hheader
  set len := msg.getPayloadLength with hdef
  set content := contentMsg env msg.getTypeID msg.buf msg.payloadPos len replyMsgID with hcontent
  have hend := (newI2NPMessageFor_sizes len).1
  have hoffset := offset_newI2NPMessageFor len
  have hgetLength : content.getLength = msg.getLength := by
    change (newI2NPMessageFor len).len + 22 + len - ((newI2NPMessageFor len).offset + 22) = _
    rw [hend, hoffset]
    simp only [headerSize] at hlength
    omega
  have htype : content.getTypeID = msg.getTypeID := getTypeID_fillI2NPMessageHeader
  have hsizes : slice content.buf (content.offset + headerSizeOffset) 2 =
      slice msg.buf (msg.offset + headerSizeOffset) 2 := by
    have hwritten : slice content.buf (content.offset + headerSizeOffset) 2 =
        writeU16 (UInt16.ofNat (content.getLength - headerSize)) := standsAt_size_fillI2NPMessageHeader
    have hread := writeBE_readBE (slice msg.buf (msg.offset + headerSizeOffset) 2)
    rw [length_slice] at hread
    change readBE _ = _ at hsize
    rw [hwritten, ← hread, hsize, hgetLength, writeU16, UInt16.toNat_ofNat_of_lt']
    · rfl
    · change msg.getLength - 16 < 2 ^ 16
      omega
  have hpayload : slice content.buf (content.offset + headerSize) len =
      slice msg.buf (msg.offset + headerSize) len := by
    have hcopied : StandsAt content.buf content.payloadPos (slice msg.buf msg.payloadPos len) := by
      refine standsAt_fillI2NPMessageHeader _ _ _ ?_ le_rfl
      rw [StandsAt, length_slice]
      exact slice_memcpy_self _ _ _ _ _
    rwa [StandsAt, length_slice] at hcopied
  refine ⟨by rw [length_bytes, length_bytes, hgetLength], fun i hi hchks => ?_⟩
  rw [I2NPMessage.bytes, I2NPMessage.bytes, hgetLength]
  rcases Nat.lt_or_ge i msg.getLength with hlt | hge
  · rw [getElem?_slice _ hlt, getElem?_slice _ hlt]
    simp only [headerMsgIDOffset, headerSizeOffset, headerChksOffset, headerSize] at *
    congr 1
    -- the type, the size or the payload
    rcases Nat.lt_or_ge i 16 with hhead | htail
    · rcases hi with hi | hi
      · obtain rfl : i = 0 := by omega
        exact htype
      · have h := apply_eq_of_slice_eq hsizes (by omega : i - 13 < 2)
        rwa [Nat.add_assoc, Nat.add_assoc, Nat.add_sub_cancel' hi] at h
    · have h := apply_eq_of_slice_eq hpayload (by omega : i - 16 < len)
      rwa [Nat.add_assoc, Nat.add_assoc, Nat.add_sub_cancel' htail] at h
  · rw [List.getElem?_eq_none (by simpa using hge), List.getElem?_eq_none (by simpa using hge)]

theorem getLength_contentMsg (env : HeaderEnv) (msgType : UInt8) (src : Mem) (pos len : ℕ)
    (replyMsgID : UInt32) :
    (contentMsg env msgType src pos len replyMsgID).getLength = headerSize + len := by
  change (newI2NPMessageFor len).len + 22 + len - ((newI2NPMessageFor len).offset + 22) = 16 + len
  rw [(newI2NPMessageFor_sizes len).1, offset_newI2NPMessageFor]
  omega

/-- The content message is wrapped where it has been written. -/
theorem wraps_createTunnelGatewayMsgOf (contentEnv env : HeaderEnv) (tunnelID : UInt32)
    (msgType : UInt8) (src : Mem) (pos : ℕ) {len : ℕ} (replyMsgID : UInt32)
    (hlen : headerSize + len ≤ 32000) :
    Wraps tunnelID (contentMsg contentEnv msgType src pos len replyMsgID).bytes
      (createTunnelGatewayMsgOf contentEnv env tunnelID msgType src pos len replyMsgID) := by
  have hend := (newI2NPMessageFor_sizes len).1
  have hroom := room_newI2NPMessageFor (show len ≤ 32000 by omega)
  rw [createTunnelGatewayMsgOf_eq]
  apply wraps_createTunnelGatewayMsg
  · change (newI2NPMessageFor len).len + 22 + len ≤ (newI2NPMessageFor len).capacity
    exact hroom
  · change (newI2NPMessageFor len).offset + 22 ≤ (newI2NPMessageFor len).len + 22 + len
    rw [hend, offset_newI2NPMessageFor]
    omega
  · rwa [getLength_contentMsg]

/-! ## Agreement -/

/-- A message is wrapped in the same way by the three functions, up to the header of the content
message that the third one makes. -/
structure Agree (directEnv copyEnv contentEnv env : HeaderEnv) (tunnelID : UInt32)
    (msg : I2NPMessage) (replyMsgID : UInt32) : Prop where
  direct : Wraps tunnelID msg.bytes (createTunnelGatewayMsg directEnv tunnelID msg)
  copied : Wraps tunnelID msg.bytes
    (createTunnelGatewayMsgFrom copyEnv tunnelID msg.buf msg.offset msg.getLength)
  built : ∃ inner, AgreeUpToHeader inner msg.bytes ∧ Wraps tunnelID inner
    (createTunnelGatewayMsgOf contentEnv env tunnelID msg.getTypeID msg.buf msg.payloadPos
      msg.getPayloadLength replyMsgID)

/-- No message ID is drawn, the clock stands at zero, and every digest is zero. -/
def zeroHeaderEnv : HeaderEnv := ⟨0, 0, fun _ => IdentHash.zero⟩

end Tunnel.GatewayMsg
