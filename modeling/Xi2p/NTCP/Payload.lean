import Xi2p.I2NP
import Xi2p.Lib.CBC

/-!
# NTCP payload

The established phase of `NTCPSession` of `core/router/transports/ntcp/session.cc`: messages are
framed, encrypted in their own buffers and written to the socket, several to a write; the other
direction decrypts the stream block by block and puts messages together.

A `shared_ptr<I2NPMessage>` is the address of an object in `heap`, the null pointer is a time
synchronisation message. A write hands regions of memory to the socket; they are read after all
regions of the write have been prepared.
-/

namespace NTCP

open Bytes I2NP CBC

/-! ## Sizes -/

/-- `NTCPSize::IV`. -/
abbrev ivSize : ℕ := 16

/-- `NTCPSize::Adler32`. -/
abbrev adler32Size : ℕ := 4

/-- `NTCPSize::Phase3AliceRI`, also the size field of a message. -/
abbrev phase3AliceRI : ℕ := 2

/-- `NTCPSize::Phase3AliceTS`, also the size of a timestamp. -/
abbrev phase3AliceTS : ℕ := 4

/-- `NTCPSize::MaxMessage`. -/
abbrev maxMessage : ℕ := 16378

/-- `NTCPSize::Buffer`. -/
abbrev bufferSize : ℕ := 4160

/-! ## State -/

/-- What the payload path uses of its surroundings. -/
structure PayloadEnv where
  /-- `Adler32`. -/
  adler32 : List UInt8 → UInt32
  /-- The bytes that `RandBytes` yields for the message with the given number. -/
  randBytes : ℕ → Mem
  /-- `time(0)` when the message with the given number is prepared. -/
  time : ℕ → UInt32

/-- A region of memory that is written to the socket: a part of the buffer of a message object, or
of `m_TimeSyncBuffer`. -/
structure Region where
  /-- The object that owns the buffer. -/
  owner : Option ℕ
  /-- The position in the buffer. -/
  pos : ℕ
  /-- The number of bytes. -/
  len : ℕ

/-- `NTCPSession`. -/
structure NTCPSession where
  /-- The message objects. -/
  heap : ℕ → I2NPMessage
  /-- `m_TimeSyncBuffer`. -/
  timeSyncBuffer : Mem
  /-- `m_Encryption`. -/
  encryption : Encryption ivSize
  /-- `m_Decryption`. -/
  decryption : Decryption ivSize
  /-- `m_IsEstablished`. -/
  isEstablished : Bool
  /-- `m_IsTerminated`. -/
  isTerminated : Bool
  /-- `m_IsSending`. -/
  isSending : Bool
  /-- `m_SendQueue`. -/
  sendQueue : List (Option ℕ)
  /-- `m_ReceiveBuffer`. -/
  receiveBuffer : Mem
  /-- `m_ReceiveBufferOffset`. -/
  receiveBufferOffset : ℕ
  /-- `m_NextMessage`. -/
  nextMessage : Option I2NPMessage
  /-- `m_NextMessageOffset`. -/
  nextMessageOffset : ℕ
  /-- The messages passed to `m_Handler` so far. -/
  handled : List I2NPMessage
  /-- The number of messages prepared so far. -/
  prepared : ℕ
  /-- The bytes written to the socket so far. -/
  wire : List UInt8

/-! ## Sending -/

/-- `padding`: the bytes between the message and the checksum. -/
def padding (len : ℕ) : ℕ :=
  let rem := (len + 6) &&& 0x0F
  if rem ≠ 0 then ivSize - rem else 0

/-- Write padding and checksum behind a message of `len` bytes whose size field is at `pos`. The
random bytes begin two bytes behind the message, the checksum overwrites their end. -/
def addChecksum (env : PayloadEnv) (number : ℕ) (buf : Mem) (pos len : ℕ) : Mem :=
  let buf :=
    if padding len ≠ 0 then
      store buf (pos + len + phase3AliceTS) (slice (env.randBytes number) 0 (padding len))
    else buf
  store buf (pos + len + phase3AliceRI + padding len)
    (writeU32 (env.adler32 (slice buf pos (len + phase3AliceRI + padding len))))

namespace NTCPSession

/-- `m_Encryption.Encrypt(send_buffer, encrypted_len, send_buffer)`. -/
def encryptBuffer (s : NTCPSession) (buf : Mem) (pos len : ℕ) : Mem × Encryption ivSize :=
  let (out, encryption) := s.encryption.encrypt (blocksAt buf pos (len / ivSize))
  (store buf pos (bytesOf out), encryption)

/-- `CreateMsgBuffer`. -/
def createMsgBuffer (env : PayloadEnv) (s : NTCPSession) : Option ℕ → NTCPSession × Region
  | some address =>
    let msg := s.heap address
    let pos := msg.offset - phase3AliceRI
    let len := msg.getLength
    let buf := store msg.buf pos (writeBE 2 len)
    let encryptedLen := len + padding len + 6
    let (buf, encryption) := s.encryptBuffer (addChecksum env s.prepared buf pos len) pos encryptedLen
    ({ s with
        heap := Function.update s.heap address { msg with buf }
        encryption
        prepared := s.prepared + 1 },
      { owner := some address, pos, len := encryptedLen })
  | none =>
    let len := phase3AliceTS
    let buf := store s.timeSyncBuffer 0 (writeBE 2 0)
    let buf := store buf phase3AliceTS (writeU32 (env.time s.prepared))
    let encryptedLen := len + padding len + 6
    let (buf, encryption) := s.encryptBuffer (addChecksum env s.prepared buf 0 len) 0 encryptedLen
    ({ s with
        timeSyncBuffer := buf
        encryption
        prepared := s.prepared + 1 },
      { owner := none, pos := 0, len := encryptedLen })

/-- The loop of `SendPayload` over the messages of a write. -/
def createMsgBuffers (env : PayloadEnv) :
    NTCPSession → List (Option ℕ) → NTCPSession × List Region
  | s, [] => (s, [])
  | s, msg :: msgs =>
    let (s, region) := s.createMsgBuffer env msg
    let (s, regions) := s.createMsgBuffers env msgs
    (s, region :: regions)

/-- The bytes in a region. -/
def regionBytes (s : NTCPSession) (r : Region) : List UInt8 :=
  match r.owner with
  | some address => slice (s.heap address).buf r.pos r.len
  | none => slice s.timeSyncBuffer r.pos r.len

/-- `SendPayload`. -/
def sendPayload (env : PayloadEnv) (s : NTCPSession) (msgs : List (Option ℕ)) : NTCPSession :=
  let (s, regions) := { s with isSending := true }.createMsgBuffers env msgs
  { s with wire := s.wire ++ (regions.map s.regionBytes).flatten }

/-- `HandleSentPayload`; `failed` says that there is an error code. -/
def handleSentPayload (env : PayloadEnv) (s : NTCPSession) (failed : Bool) : NTCPSession :=
  let s := { s with isSending := false }
  if failed then s
  else if s.sendQueue ≠ [] then { s.sendPayload env s.sendQueue with sendQueue := [] }
  else s

/-- `PostI2NPMessages`. -/
def postI2NPMessages (env : PayloadEnv) (s : NTCPSession) (msgs : List (Option ℕ)) : NTCPSession :=
  if s.isTerminated then s
  else if s.isSending then { s with sendQueue := s.sendQueue ++ msgs }
  else s.sendPayload env msgs

/-- `Connected`; `databaseStore` is the message of `CreateDatabaseStoreMsg`. -/
def connected (env : PayloadEnv) (s : NTCPSession) (databaseStore : ℕ) : NTCPSession :=
  let s := { s with isEstablished := true }.sendPayload env [none]
  { s with sendQueue := s.sendQueue ++ [some databaseStore] }

/-! ## Receiving -/

/-- `Terminate`. -/
def terminate (s : NTCPSession) : NTCPSession :=
  if s.isTerminated then s
  else { s with isTerminated := true, isEstablished := false, sendQueue := [], nextMessage := none }

/-- The end of `DecryptNextBlock`: pass on the message if it is complete. -/
def finishMessage (env : PayloadEnv) (s : NTCPSession) (msg : I2NPMessage) : NTCPSession :=
  if s.nextMessageOffset ≥ msg.len + adler32Size then
    let size := s.nextMessageOffset - adler32Size
    let s :=
      if writeU32 (env.adler32 (slice msg.buf 0 size)) = slice msg.buf size adler32Size then
        { s with handled := s.handled ++ [msg] }
      else s
    { s with nextMessage := none }
  else { s with nextMessage := some msg }

/-- The message for a header block that announces `dataSize` bytes. -/
def newMessage (dataSize : ℕ) (block : List UInt8) : I2NPMessage :=
  let msg :=
    if dataSize ≤ maxShortMessageSize - phase3AliceRI then I2NPMessage.newI2NPShortMessage
    else I2NPMessage.newI2NPMessage
  { msg with
    buf := store msg.buf 0 block
    offset := phase3AliceRI
    len := dataSize + phase3AliceRI }

/-- `DecryptNextBlock` on a decrypted block; the flag is the result. -/
def takeBlock (env : PayloadEnv) (s : NTCPSession) (block : List UInt8) : NTCPSession × Bool :=
  match s.nextMessage with
  | none =>
    let dataSize := readBE (block.take 2)
    if dataSize ≠ 0 then
      if dataSize > maxMessage then (s, false)
      else ({ s with nextMessageOffset := ivSize }.finishMessage env (newMessage dataSize block), true)
    else (s, true)
  | some msg =>
    let msg := { msg with buf := store msg.buf s.nextMessageOffset block }
    ({ s with nextMessageOffset := s.nextMessageOffset + ivSize }.finishMessage env msg, true)

/-- `DecryptNextBlock`. -/
def decryptNextBlock (env : PayloadEnv) (s : NTCPSession) (encrypted : Block ivSize) :
    NTCPSession × Bool :=
  let (block, decryption) := s.decryption.decryptBlock encrypted
  { s with decryption }.takeBlock env block.bytes

/-- The loop of `HandleReceivedPayload` over the blocks in the buffer. -/
def decryptBlocks (env : PayloadEnv) : NTCPSession → List (Block ivSize) → NTCPSession × Bool
  | s, [] => (s, true)
  | s, block :: blocks =>
    match s.decryptNextBlock env block with
    | (s, true) => s.decryptBlocks env blocks
    | (s, false) => (s, false)

/-- The error code of a read. -/
inductive ReadResult
  | ok
  | eof
  | error
  deriving DecidableEq

/-- `HandleReceivedPayload`, for the bytes `data` that have been read into the buffer. -/
def handleReceivedPayload (env : PayloadEnv) (s : NTCPSession) (ecode : ReadResult)
    (data : List UInt8) : NTCPSession :=
  if ecode = .eof ∧ data.length = 0 then s.terminate
  else if ecode = .error then s.terminate
  else
    let buf := store s.receiveBuffer s.receiveBufferOffset data
    let offset := s.receiveBufferOffset + data.length
    match { s with receiveBuffer := buf }.decryptBlocks env (blocksAt buf 0 (offset / ivSize)) with
    | (s, false) => s.terminate
    | (s, true) =>
      let rest := offset % ivSize
      let s := { s with
        receiveBuffer := memcpy s.receiveBuffer 0 s.receiveBuffer (offset / ivSize * ivSize) rest
        receiveBufferOffset := rest }
      if ecode = .eof then s.terminate else s

/-- A read of the socket: after `Terminate` no further one is started. -/
def read (env : PayloadEnv) (s : NTCPSession) (data : List UInt8) : NTCPSession :=
  if s.isTerminated then s else s.handleReceivedPayload env .ok data

end NTCPSession

end NTCP
