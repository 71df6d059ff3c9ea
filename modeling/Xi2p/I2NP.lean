import Xi2p.Lib.Bytes

/-!
# I2NP messages

The message object of `core/router/i2np.h`: a byte buffer with a current offset and an end
position. Everything in front of `offset` is head room for the header of an outer layer;
everything behind `len` is unused capacity.

`append` is the buffer extension that both reassemblers (tunnel endpoint and SSU) perform.
-/

namespace I2NP

open Bytes

/-! ## Sizes -/

/-- `I2NP_HEADER_MSGID_OFFSET`. -/
abbrev headerMsgIDOffset : ℕ := 1

/-- `I2NP_HEADER_EXPIRATION_OFFSET`. -/
abbrev headerExpirationOffset : ℕ := 5

/-- `I2NP_HEADER_SIZE_OFFSET`. -/
abbrev headerSizeOffset : ℕ := 13

/-- `I2NP_HEADER_CHKS_OFFSET`. -/
abbrev headerChksOffset : ℕ := 15

/-- `I2NP_HEADER_SIZE`: type, message ID, expiration, size, checksum. -/
abbrev headerSize : ℕ := 16

/-- `I2NP_SHORT_HEADER_SIZE`: type and expiration in seconds. -/
abbrev shortHeaderSize : ℕ := 5

/-- `I2NP_MAX_MESSAGE_SIZE`. -/
abbrev maxMessageSize : ℕ := 32768

/-- `I2NP_MAX_SHORT_MESSAGE_SIZE`. -/
abbrev maxShortMessageSize : ℕ := 4096

/-- `TUNNEL_GATEWAY_HEADER_SIZE`. -/
abbrev tunnelGatewayHeaderSize : ℕ := 6

/-! ## Router hashes -/

/-- `IdentHash`, a `Tag<32>`. -/
structure IdentHash where
  /-- The bytes of the tag. -/
  bytes : List UInt8
  /-- A tag has exactly 32 bytes. -/
  length_eq : bytes.length = 32
  deriving DecidableEq

namespace IdentHash

attribute [simp] length_eq

@[ext]
theorem ext {a b : IdentHash} (h : a.bytes = b.bytes) : a = b := by
  cases a
  cases b
  simpa using h

/-- The all-zero tag of a default-constructed `Tag`. -/
def zero : IdentHash := ⟨List.replicate 32 0, by simp⟩

/-- `IdentHash(buf + pos)`. -/
def ofMem (m : Mem) (pos : ℕ) : IdentHash := ⟨slice m pos 32, by simp⟩

end IdentHash

/-! ## Message buffers -/

/-- `I2NPMessage` together with the `m_Buffer` it points to. -/
structure I2NPMessage where
  /-- The memory behind the pointer `buf`. -/
  buf : Mem
  /-- The number of bytes of `m_Buffer`. -/
  capacity : ℕ
  /-- End position of the message in `buf`. -/
  len : ℕ
  /-- Start position of the message in `buf`. -/
  offset : ℕ
  /-- `max_len`: the nominal size of the buffer. -/
  maxLen : ℕ

namespace I2NPMessage

/-- `GetLength()`. -/
def getLength (m : I2NPMessage) : ℕ := m.len - m.offset

/-- The position of `GetPayload()` in `buf`. -/
def payloadPos (m : I2NPMessage) : ℕ := m.offset + headerSize

/-- The bytes of the message: `GetLength()` bytes from `GetBuffer()` on. -/
def bytes (m : I2NPMessage) : List UInt8 := slice m.buf m.offset m.getLength

/-- `GetMsgID()`. -/
def getMsgID (m : I2NPMessage) : UInt32 :=
  readU32 (slice m.buf (m.offset + headerMsgIDOffset) 4)

/-- `GetTypeID()`. -/
def getTypeID (m : I2NPMessage) : UInt8 := m.buf m.offset

/-- `GetExpiration()`, in milliseconds. -/
def getExpiration (m : I2NPMessage) : ℕ :=
  readBE (slice m.buf (m.offset + headerExpirationOffset) 8)

/-- `GetSize()`: the payload size announced in the header. -/
def getSize (m : I2NPMessage) : ℕ := readBE (slice m.buf (m.offset + headerSizeOffset) 2)

/-- The `GetSize()` bytes from `GetPayload()` on. -/
def payload (m : I2NPMessage) : List UInt8 := slice m.buf m.payloadPos m.getSize

/-- The copy assignment: contents, `from` and `max_len` come from `other`, the position in the
buffer stays. -/
def assign (m other : I2NPMessage) : I2NPMessage :=
  { m with
    buf := memcpy m.buf m.offset other.buf other.offset other.getLength
    len := m.offset + other.getLength
    maxLen := other.maxLen }

/-- `I2NPMessageBuffer<SZ>()`: two bytes are reserved for the NTCP header. -/
def newBuffer (size : ℕ) : I2NPMessage :=
  { buf := fun _ => 0, capacity := size + 16, len := headerSize + 2, offset := 2, maxLen := size }

/-- `NewI2NPMessage()`. -/
def newI2NPMessage : I2NPMessage := newBuffer maxMessageSize

/-- `NewI2NPShortMessage()`. -/
def newI2NPShortMessage : I2NPMessage := newBuffer maxShortMessageSize

/-- Move a message that has no room for `size` more bytes to a full-size buffer, as both
reassemblers do before they append. -/
def reserve (m : I2NPMessage) (size : ℕ) : I2NPMessage :=
  if m.len + size > m.maxLen then newI2NPMessage.assign m else m

/-- `memcpy(msg->buf + msg->len, fragment, size); msg->len += size`. -/
def append (m : I2NPMessage) (src : Mem) (pos size : ℕ) : I2NPMessage :=
  { m with buf := memcpy m.buf m.len src pos size, len := m.len + size }

@[simp]
theorem length_bytes (m : I2NPMessage) : m.bytes.length = m.getLength := by
  simp [bytes]

@[simp]
theorem offset_assign (m other : I2NPMessage) : (m.assign other).offset = m.offset := rfl

@[simp]
theorem maxLen_assign (m other : I2NPMessage) : (m.assign other).maxLen = other.maxLen := rfl

@[simp]
theorem getLength_assign (m other : I2NPMessage) :
    (m.assign other).getLength = other.getLength := by
  simp [getLength, assign]

/-- Assignment copies the message, wherever it lies in either buffer. -/
@[simp]
theorem bytes_assign (m other : I2NPMessage) : (m.assign other).bytes = other.bytes := by
  rw [bytes, getLength_assign]
  exact slice_memcpy_self _ _ _ _ _

@[simp]
theorem bytes_reserve (m : I2NPMessage) (size : ℕ) : (m.reserve size).bytes = m.bytes := by
  unfold reserve
  split
  · exact bytes_assign _ _
  · rfl

@[simp]
theorem maxLen_reserve (m : I2NPMessage) (size : ℕ) : (m.reserve size).maxLen = m.maxLen := by
  unfold reserve
  split <;> rfl

/-- A buffer position is a start in front of its end. -/
theorem offset_le_len_reserve {m : I2NPMessage} (h : m.offset ≤ m.len) (size : ℕ) :
    (m.reserve size).offset ≤ (m.reserve size).len := by
  unfold reserve
  split
  · simp [assign]
  · exact h

@[simp]
theorem offset_append (m : I2NPMessage) (src : Mem) (pos size : ℕ) :
    (m.append src pos size).offset = m.offset := rfl

@[simp]
theorem len_append (m : I2NPMessage) (src : Mem) (pos size : ℕ) :
    (m.append src pos size).len = m.len + size := rfl

@[simp]
theorem maxLen_append (m : I2NPMessage) (src : Mem) (pos size : ℕ) :
    (m.append src pos size).maxLen = m.maxLen := rfl

/-- Appending extends the message by the appended bytes. -/
theorem bytes_append {m : I2NPMessage} (h : m.offset ≤ m.len) (src : Mem) (pos size : ℕ) :
    (m.append src pos size).bytes = m.bytes ++ slice src pos size := by
  have hlen : (m.append src pos size).getLength = m.getLength + size := by
    simp only [getLength, append]
    omega
  have hend : m.offset + m.getLength = m.len := by
    simp only [getLength]
    omega
  rw [bytes, hlen, slice_add, offset_append, hend]
  congr 1
  · exact slice_memcpy_before _ _ (by omega)
  · exact slice_memcpy_self _ _ _ _ _

/-! ## The short header of SSU -/

/-- `GetSSUHeader() - buf`: the short header ends where the regular one does. -/
def ssuHeaderPos (m : I2NPMessage) : ℕ := m.offset + headerSize - shortHeaderSize

/-- `ToSSU`: the message with a short header in place of the regular one, and its message ID. The
expiration is cut to the four bytes of the short header. -/
def toSSU (m : I2NPMessage) : I2NPMessage × UInt32 :=
  let ssu := m.ssuHeaderPos
  let buf := store m.buf ssu [m.getTypeID]
  let buf := store buf (ssu + 1) (writeBE 4 (m.getExpiration / 1000))
  ({ m with buf, len := m.offset + shortHeaderSize + m.getSize }, m.getMsgID)

/-- `FromSSU`: the regular header of a received message. -/
def fromSSU (m : I2NPMessage) (msgID : UInt32) : I2NPMessage :=
  let ssu := m.ssuHeaderPos
  let buf := store m.buf m.offset [m.buf ssu]
  let buf := store buf (m.offset + headerMsgIDOffset) (writeU32 msgID)
  let expiration := readBE (slice buf (ssu + 1) 4) * 1000
  let buf := store buf (m.offset + headerExpirationOffset) (writeBE 8 expiration)
  let buf := store buf (m.offset + headerSizeOffset) (writeBE 2 (m.len - m.offset - headerSize))
  let buf := store buf (m.offset + headerChksOffset) [0]
  { m with buf }

/-- What `Send` puts into fragments: type, seconds, payload. -/
def ssuBytes (m : I2NPMessage) : List UInt8 :=
  m.getTypeID :: (writeBE 4 (m.getExpiration / 1000) ++ m.payload)

theorem length_ssuBytes (m : I2NPMessage) : m.ssuBytes.length = shortHeaderSize + m.getSize := by
  show (m.getTypeID :: (writeBE 4 (m.getExpiration / 1000) ++ m.payload)).length = 5 + m.getSize
  rw [List.length_cons, List.length_append, length_writeBE, payload, length_slice]
  omega

theorem getSize_lt (m : I2NPMessage) : m.getSize < 2 ^ 16 := by
  have h := readBE_lt (slice m.buf (m.offset + headerSizeOffset) 2)
  rw [length_slice] at h
  exact h

theorem getLength_toSSU (m : I2NPMessage) :
    m.toSSU.1.getLength = shortHeaderSize + m.getSize := by
  show m.offset + shortHeaderSize + m.getSize - m.offset = _
  omega

/-- The bytes behind `GetSSUHeader()` after `ToSSU`. -/
theorem slice_toSSU (m : I2NPMessage) :
    slice m.toSSU.1.buf m.toSSU.1.ssuHeaderPos m.toSSU.1.getLength = m.ssuBytes := by
  have hheader : StandsAt m.toSSU.1.buf m.ssuHeaderPos
      (m.getTypeID :: writeBE 4 (m.getExpiration / 1000)) := by
    rw [standsAt_cons]
    refine ⟨?_, standsAt_store _ _ _⟩
    -- the seconds lie behind the type
    have htype : StandsAt m.toSSU.1.buf m.ssuHeaderPos [m.getTypeID] :=
      (standsAt_store _ _ _).store_of_le (by simp)
    exact (standsAt_cons.mp htype).1
  have hpayload : StandsAt m.toSSU.1.buf (m.ssuHeaderPos + 5) m.payload := by
    have hpos : m.ssuHeaderPos + 5 = m.payloadPos := by
      show m.offset + 16 - 5 + 5 = m.offset + 16
      omega
    have hself : StandsAt m.buf m.payloadPos m.payload := by
      simp [StandsAt, payload]
    rw [← hpos] at hself
    -- the short header lies in front of the payload
    apply (hself.store_of_ge _).store_of_ge
    · rw [length_writeBE]
    · simp
  have hall := standsAt_append.mpr ⟨hheader, by simpa using hpayload⟩
  unfold StandsAt at hall
  rw [getLength_toSSU, ← length_ssuBytes]
  exact hall

theorem getMsgID_fromSSU (m : I2NPMessage) (msgID : UInt32) :
    (m.fromSSU msgID).getMsgID = msgID := by
  have hstands : StandsAt (m.fromSSU msgID).buf (m.offset + headerMsgIDOffset)
      (writeU32 msgID) := by
    refine (((standsAt_store _ _ _).store_of_le ?_).store_of_le ?_).store_of_le ?_ <;>
    simp [headerMsgIDOffset, headerExpirationOffset, headerSizeOffset, headerChksOffset]
  exact hstands.readU32_eq

/-- `FromSSU` turns the short header back: type, message ID and payload are those of the sender,
the expiration is its seconds, of which four bytes have been sent. -/
theorem fromSSU_of_standsAt {m : I2NPMessage} {type : UInt8} {seconds : ℕ} {data : List UInt8}
    (h : StandsAt m.buf m.ssuHeaderPos (type :: (writeBE 4 seconds ++ data)))
    (hlen : m.len = m.offset + headerSize + data.length) (hsize : data.length < 2 ^ 16)
    (msgID : UInt32) :
    (m.fromSSU msgID).getTypeID = type ∧ (m.fromSSU msgID).getMsgID = msgID ∧
      (m.fromSSU msgID).getExpiration = seconds % 2 ^ 32 * 1000 ∧
      (m.fromSSU msgID).getSize = data.length ∧ (m.fromSSU msgID).payload = data := by
  rw [standsAt_cons, standsAt_append, length_writeBE] at h
  obtain ⟨htype, hseconds, hdata⟩ := h
  have hread : readBE (slice (store (store m.buf m.offset [m.buf m.ssuHeaderPos])
      (m.offset + headerMsgIDOffset) (writeU32 msgID)) (m.ssuHeaderPos + 1) 4) =
      seconds % 2 ^ 32 := by
    refine ((hseconds.store_of_ge ?_).store_of_ge ?_).readBE_eq
    · show m.offset + 1 ≤ m.offset + 16 - 5 + 1
      omega
    · rw [length_writeU32]
      show m.offset + 1 + 4 ≤ m.offset + 16 - 5 + 1
      omega
  have hsizeEq : m.len - m.offset - headerSize = data.length := by omega
  have hsizeField : (m.fromSSU msgID).getSize = data.length := by
    have hstands : StandsAt (m.fromSSU msgID).buf (m.offset + headerSizeOffset)
        (writeBE 2 (m.len - m.offset - headerSize)) := by
      refine (standsAt_store _ _ _).store_of_le ?_
      simp [headerSizeOffset, headerChksOffset]
    refine hstands.readBE_eq.trans ?_
    rw [hsizeEq]
    exact Nat.mod_eq_of_lt hsize
  refine ⟨?_, getMsgID_fromSSU m msgID, ?_, hsizeField, ?_⟩
  · -- the type is written first and nothing overwrites it
    have hstands : StandsAt (m.fromSSU msgID).buf m.offset [m.buf m.ssuHeaderPos] := by
      refine ((((standsAt_store _ _ _).store_of_le ?_).store_of_le ?_).store_of_le
        ?_).store_of_le ?_ <;>
      simp [headerMsgIDOffset, headerExpirationOffset, headerSizeOffset, headerChksOffset]
    exact (standsAt_cons.mp hstands).1.trans htype
  · have hstands : StandsAt (m.fromSSU msgID).buf (m.offset + headerExpirationOffset)
        (writeBE 8 (readBE (slice (store (store m.buf m.offset [m.buf m.ssuHeaderPos])
          (m.offset + headerMsgIDOffset) (writeU32 msgID)) (m.ssuHeaderPos + 1) 4) * 1000)) := by
      refine ((standsAt_store _ _ _).store_of_le ?_).store_of_le ?_ <;>
      simp [headerExpirationOffset, headerSizeOffset, headerChksOffset]
    refine hstands.readBE_eq.trans ?_
    rw [hread]
    exact Nat.mod_eq_of_lt (by omega)
  · -- the header ends where the payload begins
    have hstands : StandsAt (m.fromSSU msgID).buf (m.ssuHeaderPos + 1 + 4) data := by
      refine ((((hdata.store_of_ge ?_).store_of_ge ?_).store_of_ge ?_).store_of_ge
        ?_).store_of_ge ?_ <;>
      · simp only [List.length_singleton, length_writeU32, length_writeBE, ssuHeaderPos,
          headerMsgIDOffset, headerExpirationOffset, headerSizeOffset, headerChksOffset, headerSize,
          shortHeaderSize]
        omega
    have hpos : m.ssuHeaderPos + 1 + 4 = m.payloadPos := by
      show m.offset + 16 - 5 + 1 + 4 = m.offset + 16
      omega
    unfold payload
    rw [hsizeField]
    rw [hpos] at hstands
    exact hstands

/-! ## Capacity -/

/-- The message ends inside its buffer. -/
def Inside (m : I2NPMessage) : Prop := m.len ≤ m.capacity

instance (m : I2NPMessage) : Decidable m.Inside := inferInstanceAs (Decidable (_ ≤ _))

/-- A message under reassembly: it lies in a short buffer within its nominal size, or at the front
of a full-size one. The nominal size is that of the short buffer in both cases, since the copy
assignment takes it over. -/
structure Growing (m : I2NPMessage) : Prop where
  maxLen_eq : m.maxLen = maxShortMessageSize
  offset_ge : 2 ≤ m.offset
  offset_le : m.offset ≤ m.len
  buffer : (m.capacity = maxShortMessageSize + 16 ∧ m.len ≤ maxShortMessageSize) ∨
    (m.capacity = maxMessageSize + 16 ∧ m.offset = 2)

/-- Appending keeps the shape, whatever the size. -/
theorem Growing.append {m : I2NPMessage} (h : m.Growing) (src : Mem) (pos size : ℕ) :
    ((m.reserve size).append src pos size).Growing := by
  obtain ⟨hmax, hge, hle, hbuffer⟩ := h
  unfold reserve
  split
  next hgt =>
    refine ⟨hmax, ?_, ?_, Or.inr ⟨rfl, rfl⟩⟩
    · show 2 ≤ 2
      omega
    · show 2 ≤ 2 + m.getLength + size
      omega
  next hfits =>
    rw [hmax] at hfits
    refine ⟨hmax, hge, ?_, ?_⟩
    · show m.offset ≤ m.len + size
      omega
    · rcases hbuffer with ⟨hcap, -⟩ | hfull
      · exact Or.inl ⟨hcap, Nat.not_lt.mp hfits⟩
      · exact Or.inr hfull

theorem getLength_reserve_append {m : I2NPMessage} (h : m.offset ≤ m.len) (src : Mem)
    (pos size : ℕ) : ((m.reserve size).append src pos size).getLength = m.getLength + size := by
  have hbytes := congrArg List.length
    (bytes_append (offset_le_len_reserve h size) src pos size)
  rwa [length_bytes, List.length_append, length_slice, bytes_reserve, length_bytes] at hbytes

/-- The end of the message stays inside the buffer exactly if the message with the appended bytes
fits a full-size buffer. -/
theorem Growing.inside_append_iff {m : I2NPMessage} (h : m.Growing) (src : Mem) (pos size : ℕ) :
    ((m.reserve size).append src pos size).Inside ↔
      m.getLength + size ≤ maxMessageSize + 14 := by
  obtain ⟨hmax, hge, hle, hbuffer⟩ := h
  unfold reserve
  split
  next hgt =>
    show 2 + m.getLength + size ≤ maxMessageSize + 16 ↔ _
    omega
  next hfits =>
    rw [hmax] at hfits
    have hlen : m.getLength + size ≤ maxMessageSize + 14 := by
      simp only [getLength, maxShortMessageSize, maxMessageSize] at *
      omega
    refine iff_of_true ?_ hlen
    show m.len + size ≤ m.capacity
    rcases hbuffer with ⟨hcap, -⟩ | ⟨hcap, -⟩ <;>
    · rw [hcap]
      simp only [maxShortMessageSize, maxMessageSize] at *
      omega

end I2NPMessage

end I2NP
