import Xi2p.I2NP
import Xi2p.Lib.KeyedSet

/-!
# SSU data messages

`SSUData` of `core/router/transports/ssu/data.cc`: I2NP messages are cut into fragments, one to a
datagram, and resent until they are acknowledged; incoming fragments are put together again.

A datagram is modelled by its plain text, as `FillHeaderAndEncrypt` takes it and as the session
hands it on after decryption. Calls of the timers are recorded in `timerCalls`.
-/

namespace SSU

open Bytes I2NP

/-! ## Sizes and flags -/

/-- `SSUSize::PacketMaxIPv4`. -/
abbrev packetMaxIPv4 : ℕ := 1456

/-- `SSUSize::PacketMaxIPv6`. -/
abbrev packetMaxIPv6 : ℕ := 1440

/-- `SSUSize::HeaderMin`. -/
abbrev headerMin : ℕ := 37

/-- `SSUSize::MaxReceivedMessages`. -/
abbrev maxReceivedMessages : ℕ := 1000

/-- `SSUFlag::DataExtendedIncluded`. -/
abbrev dataExtendedIncluded : UInt8 := 0x02

/-- `SSUFlag::DataWantReply`. -/
abbrev dataWantReply : UInt8 := 0x04

/-- `SSUFlag::DataACKBitfieldsIncluded`. -/
abbrev dataACKBitfieldsIncluded : UInt8 := 0x40

/-- `SSUFlag::DataExplicitACKsIncluded`. -/
abbrev dataExplicitACKsIncluded : UInt8 := 0x80

/-- `SSUDuration::ResendInterval`, in seconds. -/
abbrev resendInterval : UInt32 := 3

/-- `I2NPDeliveryStatus`. -/
abbrev i2npDeliveryStatus : UInt8 := 10

/-- `I2NPDatabaseStore`. -/
abbrev i2npDatabaseStore : UInt8 := 1

/-! ## State -/

/-- `Fragment`. In a sent message the buffer is the whole datagram, in a saved one the data. -/
structure Fragment where
  /-- `fragment_num`. -/
  fragmentNum : ℕ
  /-- `len`. -/
  len : ℕ
  /-- `is_last`; not set in a sent message. -/
  isLast : Bool := false
  /-- `buffer`. -/
  buffer : Mem

/-- `IncompleteMessage`. -/
structure IncompleteMessage where
  /-- `msg`. -/
  msg : I2NPMessage
  /-- `next_fragment_num`. -/
  nextFragmentNum : ℕ := 0
  /-- `last_fragment_insert_time`, in seconds. -/
  lastFragmentInsertTime : UInt32 := 0
  /-- `saved_fragments`, in the order of `FragmentCmp`. -/
  savedFragments : List Fragment := []

/-- `SentMessage`; a fragment that has been acknowledged is null. -/
structure SentMessage where
  /-- `fragments`. -/
  fragments : List (Option Fragment)
  /-- `next_resend_time`, in seconds. -/
  nextResendTime : UInt32
  /-- `num_resends`. -/
  numResends : ℕ := 0

/-- `SessionState`. -/
inductive SessionState
  | unknown
  | introduced
  | established
  | closed
  | failed
  deriving DecidableEq

/-- The calls that a function makes to the timers. -/
inductive TimerCall
  | scheduleResend
  | cancelResend
  | scheduleDecay
  | scheduleIncompleteMessagesCleanup

/-- A datagram: a buffer and the length to be sent. -/
structure Datagram where
  /-- The plain text. -/
  buf : Mem
  /-- Its length. -/
  len : ℕ

/-- What `SSUData` uses of its surroundings. -/
structure DataEnv where
  /-- The bytes in an array on the stack, which is not initialised. -/
  stack : Mem
  /-- The messages that `SSUSession::Established` sends. -/
  greeting : List I2NPMessage

/-- `SSUData`, with the state of its session. -/
structure SSUData where
  /-- `m_Session.GetState()`. -/
  sessionState : SessionState
  /-- `m_PacketSize`. -/
  packetSize : ℕ
  /-- `m_IncompleteMessages`. -/
  incompleteMessages : UInt32 → Option IncompleteMessage
  /-- `m_SentMessages`, in the order of the message IDs. -/
  sentMessages : List (UInt32 × SentMessage)
  /-- `m_ReceivedMessages`. -/
  receivedMessages : List UInt32
  /-- The messages passed to `m_Handler` so far. -/
  handled : List I2NPMessage
  /-- The datagrams sent so far. -/
  datagrams : List Datagram
  /-- The timer calls so far. -/
  timerCalls : List TimerCall

/-! ## Sending -/

/-- The three bytes of fragment information as a number. -/
def fragmentInfo (fragmentNum : ℕ) (isLast : Bool) (size : ℕ) : ℕ :=
  (fragmentNum <<< 17) ||| (if isLast then 0x010000 else 0) ||| size

/-- The fragment section of a datagram with one fragment. -/
def fragmentSection (msgID : UInt32) (fragmentNum : ℕ) (isLast : Bool) (data : List UInt8) :
    List UInt8 :=
  1 :: (writeU32 msgID ++ (writeBE 3 (fragmentInfo fragmentNum isLast data.length) ++ data))

/-- `size`, raised to a 16 byte boundary. -/
def padTo16 (size : ℕ) : ℕ := if size % 16 ≠ 0 then (size / 16 + 1) * 16 else size

/-- A fragment as `Send` builds it. -/
def makeFragment (msgID : UInt32) (fragmentNum : ℕ) (isLast : Bool) (data : List UInt8) :
    Fragment :=
  { fragmentNum
    len := padTo16 (headerMin + 9 + data.length)
    buffer := store (fun _ => 0) headerMin
      (dataWantReply :: fragmentSection msgID fragmentNum isLast data) }

/-- The loop of `Send` over the message, cut into pieces of `payloadSize` bytes. Every round
shortens the message, so that as many rounds as bytes are enough. -/
def splitFragments (msgID : UInt32) (payloadSize : ℕ) : ℕ → ℕ → List UInt8 → List Fragment
  | 0, _, _ => []
  | rounds + 1, fragmentNum, bytes =>
    if bytes.length = 0 then []
    else if bytes.length ≤ payloadSize then [makeFragment msgID fragmentNum true bytes]
    else
      makeFragment msgID fragmentNum false (bytes.take payloadSize) ::
        splitFragments msgID payloadSize rounds (fragmentNum + 1) (bytes.drop payloadSize)

namespace SSUData

/-- `payload_size` of `Send`, as a `std::size_t`; `9` is flag, number of fragments, message ID and
fragment information. -/
def payloadSize (d : SSUData) : ℕ := (2 ^ 64 + d.packetSize - headerMin - 9) % 2 ^ 64

/-- The fragments into which `Send` cuts a message. -/
def fragmentsOf (d : SSUData) (msg : I2NPMessage) : List Fragment :=
  let (m, msgID) := msg.toSSU
  let bytes := slice m.buf m.ssuHeaderPos m.getLength
  splitFragments msgID d.payloadSize bytes.length 0 bytes

/-- `m_SentMessages.find(msg_id)`. -/
def findSent (d : SSUData) (msgID : UInt32) : Option SentMessage :=
  (d.sentMessages.find? (·.1 = msgID)).map Prod.snd

/-- Replace the fragments of the message `msgID`. -/
def modifySent (d : SSUData) (msgID : UInt32)
    (f : List (Option Fragment) → List (Option Fragment)) : SSUData :=
  { d with
    sentMessages := d.sentMessages.map fun e =>
      if e.1 = msgID then (e.1, { e.2 with fragments := f e.2.fragments }) else e }

/-- `m_Session.Send`. -/
def sendDatagram (d : SSUData) (datagram : Datagram) : SSUData :=
  { d with datagrams := d.datagrams ++ [datagram] }

/-- A call of a timer. -/
def callTimer (d : SSUData) (call : TimerCall) : SSUData :=
  { d with timerCalls := d.timerCalls ++ [call] }

/-- `Send`, at the time `now` in seconds. -/
def send (now : UInt32) (d : SSUData) (msg : I2NPMessage) : SSUData :=
  let msgID := msg.toSSU.2
  if (d.findSent msgID).isSome then d
  else
    let fragments := d.fragmentsOf msg
    let sent : SentMessage :=
      { fragments := fragments.map some, nextResendTime := now + resendInterval }
    let d := if d.sentMessages.isEmpty then d.callTimer .scheduleResend else d
    let d := { d with
      sentMessages := KeyedSet.insert (fun e => e.1.toNat) (msgID, sent) d.sentMessages }
    fragments.foldl (fun d f => d.sendDatagram ⟨f.buffer, f.len⟩) d

/-- `SendMsgACK`. -/
def sendMsgACK (env : DataEnv) (d : SSUData) (msgID : UInt32) : SSUData :=
  let payload := dataExplicitACKsIncluded :: 1 :: (writeU32 msgID ++ [0])
  d.sendDatagram ⟨store env.stack headerMin payload, 48⟩

/-- The bit fields of a fragment ACK: only the bit of the fragment is set. -/
def fragmentACKChain (fragmentNum : ℕ) : List UInt8 :=
  List.replicate (fragmentNum / 7) (0x80 : UInt8) ++ [UInt8.ofNat (1 <<< (fragmentNum % 7))]

/-- The datagram of a fragment ACK: one chain of bit fields, no fragments. -/
def fragmentACKDatagram (env : DataEnv) (msgID : UInt32) (fragmentNum : ℕ) : Datagram :=
  let payload := dataACKBitfieldsIncluded :: 1 ::
    (writeU32 msgID ++ (fragmentACKChain fragmentNum ++ [0]))
  { buf := store env.stack headerMin payload
    len := if fragmentNum / 7 < 4 then 48 else 64 }

/-- `SendFragmentACK`. -/
def sendFragmentACK (env : DataEnv) (d : SSUData) (msgID : UInt32) (fragmentNum : ℕ) : SSUData :=
  if fragmentNum > 64 then d
  else d.sendDatagram (fragmentACKDatagram env msgID fragmentNum)

/-! ## Acknowledgements -/

/-- `ProcessSentMessageACK`. -/
def processSentMessageACK (d : SSUData) (msgID : UInt32) : SSUData :=
  if (d.findSent msgID).isSome then
    let d := { d with sentMessages := d.sentMessages.filter (·.1 ≠ msgID) }
    if d.sentMessages.isEmpty then d.callTimer .cancelResend else d
  else d

/-- The loop of `ProcessACKs` over explicit ACKs. -/
def processExplicitACKs (m : Mem) (pos : ℕ) : ℕ → SSUData → SSUData
  | 0, d => d
  | n + 1, d =>
    processExplicitACKs m (pos + 4) n (d.processSentMessageACK (readU32 (slice m pos 4)))

/-- Release the fragments from number `fragment` on whose bits are set. -/
def releaseBits (bitfield : UInt8) (fragment : ℕ) (fragments : List (Option Fragment)) :
    List (Option Fragment) :=
  (List.range 7).foldl
    (fun fs j => if bitfield.toNat.testBit j then fs.set (fragment + j) none else fs) fragments

/-- The loop of `ProcessACKs` over the bit fields of one message: it reads at most `limit` bytes,
the running fragment number moves on only in bytes in which a bit is set. -/
def processBitfieldChain (m : Mem) (msgID : UInt32) :
    ℕ → ℕ → ℕ → SSUData → Option (SSUData × ℕ)
  | 0, _, _, _ => none
  | limit + 1, pos, fragment, d =>
    let isNotLast := m pos &&& 0x80 ≠ 0
    let bitfield := m pos &&& 0x7F
    let hit := bitfield ≠ 0 ∧ (d.findSent msgID).isSome
    let d' := if hit then d.modifySent msgID (releaseBits bitfield fragment) else d
    let fragment' := if hit then fragment + 7 else fragment
    if isNotLast then processBitfieldChain m msgID limit (pos + 1) fragment' d'
    else some (d', pos + 1)

/-- The loop of `ProcessACKs` over bit fields, in a buffer that ends at `bound`. -/
def processBitfields (m : Mem) (bound : ℕ) : ℕ → ℕ → SSUData → Option (SSUData × ℕ)
  | 0, pos, d => some (d, pos)
  | n + 1, pos, d =>
    match processBitfieldChain m (readU32 (slice m pos 4)) (bound - (pos + 4)) (pos + 4) 0 d with
    | some (d, pos) => processBitfields m bound n pos d
    | none => none

/-- `ProcessACKs`: the state and the position behind the ACKs; `none` if a chain of bit fields runs
out of the buffer. -/
def processACKs (m : Mem) (bound pos : ℕ) (flag : UInt8) (d : SSUData) : Option (SSUData × ℕ) :=
  let explicit := flag &&& dataExplicitACKsIncluded ≠ 0
  let d := if explicit then processExplicitACKs m (pos + 1) (m pos).toNat d else d
  let pos := if explicit then pos + 1 + (m pos).toNat * 4 else pos
  if flag &&& dataACKBitfieldsIncluded ≠ 0 then
    processBitfields m bound (m pos).toNat (pos + 1) d
  else some (d, pos)

end SSUData

/-! ## Reassembly -/

/-- The header of a fragment, and where its data begins. -/
structure FragmentHeader where
  /-- `msg_id`. -/
  msgID : UInt32
  /-- `fragment_size`. -/
  size : ℕ
  /-- `is_last`. -/
  isLast : Bool
  /-- `fragment_num`. -/
  fragmentNum : ℕ
  /-- The position of the data. -/
  pos : ℕ

/-- The header at position `pos`. -/
def readFragmentHeader (m : Mem) (pos : ℕ) : FragmentHeader :=
  let info := readBE (slice m (pos + 4) 3)
  { msgID := readU32 (slice m pos 4)
    size := info &&& 0x3FFF
    isLast := info.testBit 16
    fragmentNum := info >>> 17
    pos := pos + 7 }

open I2NPMessage in
/-- The message created for the first fragment of a message to arrive: the short header will stand
at the end of the place reserved for the regular one. -/
def newIncompleteMessage : IncompleteMessage :=
  { msg := { newI2NPShortMessage with len := newI2NPShortMessage.len - shortHeaderSize } }

namespace IncompleteMessage

/-- `AttachNextFragment`. -/
def attachNextFragment (inc : IncompleteMessage) (src : Mem) (pos size : ℕ) : IncompleteMessage :=
  { inc with
    msg := (inc.msg.reserve size).append src pos size
    nextFragmentNum := inc.nextFragmentNum + 1 }

/-- The loop over the saved fragments; `isLast` is the flag of the fragment attached last. -/
def attachSaved : List Fragment → IncompleteMessage → Bool → IncompleteMessage × Bool
  | [], inc, isLast => (inc, isLast)
  | f :: rest, inc, isLast =>
    if f.fragmentNum = inc.nextFragmentNum then
      attachSaved rest ({ inc with savedFragments := rest }.attachNextFragment f.buffer 0 f.len)
        f.isLast
    else (inc, isLast)

/-- Save a fragment that is not next, unless its number is saved already. -/
def saveFragment (now : UInt32) (inc : IncompleteMessage) (m : Mem) (f : FragmentHeader) :
    IncompleteMessage :=
  if f.fragmentNum ∈ inc.savedFragments.map Fragment.fragmentNum then inc
  else
    { inc with
      savedFragments := KeyedSet.insert Fragment.fragmentNum
        { fragmentNum := f.fragmentNum
          len := f.size
          isLast := f.isLast
          buffer := fun i => m (f.pos + i) } inc.savedFragments
      lastFragmentInsertTime := now }

end IncompleteMessage

namespace SSUData

/-- `SSUSession::Established`. -/
def sessionEstablished (env : DataEnv) (now : UInt32) (d : SSUData) : SSUData :=
  let d := { d with sessionState := .established }.callTimer .scheduleIncompleteMessagesCleanup
  env.greeting.foldl (fun d msg => d.send now msg) d

/-- A complete message: it is acknowledged, and passed on unless its ID has been received. -/
def completeMessage (env : DataEnv) (now : UInt32) (d : SSUData) (msgID : UInt32)
    (msg : I2NPMessage) : SSUData :=
  let d := { d with incompleteMessages := Function.update d.incompleteMessages msgID none }
  let d := d.sendMsgACK env msgID
  let msg := msg.fromSSU msgID
  if d.sessionState = .established then
    if msgID ∈ d.receivedMessages then d
    else
      let d :=
        if d.receivedMessages.length > maxReceivedMessages then { d with receivedMessages := [] }
        else d.callTimer .scheduleDecay
      { d with
        receivedMessages := d.receivedMessages.insert msgID
        handled := d.handled ++ [msg] }
  else if msg.getTypeID = i2npDeliveryStatus then d.sessionEstablished env now
  else if msg.getTypeID = i2npDatabaseStore then
    { d with
      receivedMessages := d.receivedMessages.insert msgID
      handled := d.handled ++ [msg] }
  else d

/-- A fragment of a message that stays incomplete. -/
def keepIncomplete (env : DataEnv) (d : SSUData) (f : FragmentHeader) (inc : IncompleteMessage) :
    SSUData :=
  { d with
    incompleteMessages := Function.update d.incompleteMessages f.msgID (some inc)
  }.sendFragmentACK env f.msgID f.fragmentNum

/-- One round of `ProcessFragments`. -/
def processFragment (env : DataEnv) (now : UInt32) (m : Mem) (d : SSUData) (f : FragmentHeader) :
    SSUData :=
  let inc := (d.incompleteMessages f.msgID).getD newIncompleteMessage
  if f.fragmentNum = inc.nextFragmentNum then
    let inc := inc.attachNextFragment m f.pos f.size
    let (inc, isLast) :=
      if f.isLast then (inc, true) else inc.attachSaved inc.savedFragments false
    if isLast then d.completeMessage env now f.msgID inc.msg else d.keepIncomplete env f inc
  else if f.fragmentNum < inc.nextFragmentNum then d.keepIncomplete env f inc
  else d.keepIncomplete env f (inc.saveFragment now m f)

/-- The loop of `ProcessFragments`; a fragment that is too large ends it. -/
def processFragmentsFrom (env : DataEnv) (now : UInt32) (m : Mem) : ℕ → ℕ → SSUData → SSUData
  | 0, _, d => d
  | n + 1, pos, d =>
    let f := readFragmentHeader m pos
    if f.size ≥ packetMaxIPv4 then d
    else processFragmentsFrom env now m n (f.pos + f.size) (d.processFragment env now m f)

/-- `ProcessFragments`. -/
def processFragments (env : DataEnv) (now : UInt32) (m : Mem) (pos : ℕ) (d : SSUData) : SSUData :=
  d.processFragmentsFrom env now m (m pos).toNat (pos + 1)

/-- `ProcessMessage`, on the payload at position `pos` of a buffer that ends at `bound`. -/
def processMessage (env : DataEnv) (now : UInt32) (m : Mem) (bound pos : ℕ) (d : SSUData) :
    Option SSUData :=
  let flag := m pos
  match processACKs m bound (pos + 1) flag d with
  | none => none
  | some (d, pos) =>
    let pos := if flag &&& dataExtendedIncluded ≠ 0 then pos + 1 + (m pos).toNat else pos
    some (d.processFragments env now m pos)

end SSUData

end SSU
