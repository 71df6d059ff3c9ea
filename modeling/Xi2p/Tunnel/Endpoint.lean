import Xi2p.Tunnel.Gateway

/-!
# Tunnel endpoint

`TunnelEndpoint` of `core/router/tunnel/endpoint.cc`: a decrypted tunnel data message is checked
and cut into fragments along its delivery instructions; fragmented messages are reassembled in
`m_IncompleteMessages` and `m_OutOfSequenceFragments`.

Parsing runs in `Traced`: every byte of the tunnel data message that is read for delivery
instructions, delivered or kept is recorded with its position. The calls of `HandleNextMessage`
are recorded in `handled`; what the router does with a delivered message afterwards is not part
of the endpoint.
-/

namespace Tunnel

open Bytes I2NP TunnelDeliveryType

/-! ## State -/

/-- `TunnelMessageBlockEx`. -/
structure TunnelMessageBlockEx extends TunnelMessageBlock where
  /-- `next_fragment_num`. -/
  nextFragmentNum : UInt8

/-- `TunnelEndpoint::Fragment`. -/
structure Fragment where
  /-- `fragment_num`. -/
  fragmentNum : UInt8
  /-- `is_last_fragment`. -/
  isLastFragment : Bool
  /-- The bytes of the fragment. -/
  data : I2NPMessage

/-- A message together with where it goes. -/
inductive Delivery
  | toLocal (message : List UInt8)
  | toTunnel (tunnelID : UInt32) (hash : IdentHash) (message : List UInt8)
  | toRouter (hash : IdentHash) (message : List UInt8)
  deriving DecidableEq

/-- Where a block goes; a block of unknown type goes nowhere. -/
def TunnelMessageBlock.delivery (block : TunnelMessageBlock) : Option Delivery :=
  match block.deliveryType with
  | deliveryTypeLocal => some (.toLocal block.data.bytes)
  | deliveryTypeTunnel => some (.toTunnel block.tunnelID block.hash block.data.bytes)
  | deliveryTypeRouter => some (.toRouter block.hash block.data.bytes)
  | unknown => none

/-- `TunnelEndpoint`. -/
@[ext]
structure TunnelEndpoint where
  /-- `m_IncompleteMessages`. -/
  incompleteMessages : UInt32 → Option TunnelMessageBlockEx
  /-- `m_OutOfSequenceFragments`. -/
  outOfSequenceFragments : UInt32 → Option Fragment
  /-- The messages that `HandleNextMessage` has passed on, a reassembled one with the key it was
  kept under. -/
  handled : List (Option UInt32 × Delivery)

/-- The constructor. -/
def TunnelEndpoint.init : TunnelEndpoint :=
  { incompleteMessages := fun _ => none
    outOfSequenceFragments := fun _ => none
    handled := [] }

/-! ## Delivery instructions -/

/-- What the loop of `HandleDecryptedTunnelDataMsg` reads before it takes a fragment. -/
structure DeliveryInstructions where
  /-- `is_follow_on_fragment`. -/
  isFollowOnFragment : Bool
  /-- `is_last_fragment`. -/
  isLastFragment : Bool
  /-- `delivery_type`, of a first fragment. -/
  deliveryType : TunnelDeliveryType
  /-- `tunnel_ID`, of a first fragment. -/
  tunnelID : UInt32
  /-- `hash`, of a first fragment. -/
  hash : IdentHash
  /-- `msg_ID`, zero if there is none. -/
  msgID : UInt32
  /-- `fragment_num`. -/
  fragmentNum : UInt8
  /-- `size`. -/
  size : ℕ
  /-- The position of the fragment behind the instructions. -/
  pos : ℕ

/-- The number of destination bytes that the endpoint skips. -/
def destinationSize : TunnelDeliveryType → ℕ
  | deliveryTypeLocal => 0
  | deliveryTypeTunnel => 36
  | deliveryTypeRouter => 32
  | unknown => 0

/-- `Read<std::uint32_t>` at `pos`. -/
def readID (buf : Mem) (pos : ℕ) : Traced UInt32 := do
  return readU32 (← Traced.read buf pos 4)

/-- `IdentHash(fragment)` at `pos`. -/
def readHash (buf : Mem) (pos : ℕ) : Traced IdentHash :=
  ⟨IdentHash.ofMem buf pos, List.range' pos 32⟩

/-- `Read<std::uint16_t>` at `pos`. -/
def readSize (buf : Mem) (pos : ℕ) : Traced ℕ := do
  return readBE (← Traced.read buf pos 2)

/-- The tunnel ID and the hash of a first fragment; an absent one keeps its initial value. -/
def readDestination (buf : Mem) (t : TunnelDeliveryType) (pos : ℕ) :
    Traced (UInt32 × IdentHash) := do
  match t with
  | deliveryTypeTunnel =>
    let tunnelID ← readID buf pos
    let hash ← readHash buf (pos + 4)
    return (tunnelID, hash)
  | deliveryTypeRouter =>
    let hash ← readHash buf pos
    return (0, hash)
  | _ => return (0, IdentHash.zero)

/-- The instructions of a first fragment, behind the flag. -/
def readFirstInstructions (buf : Mem) (flag : UInt8) (pos : ℕ) :
    Traced DeliveryInstructions := do
  let deliveryType := ofCode ((flag >>> 5) &&& 0x03).toNat
  let (tunnelID, hash) ← readDestination buf deliveryType pos
  let pos := pos + destinationSize deliveryType
  if flag &&& 0x08 = 0 then
    let size ← readSize buf pos
    return {
      isFollowOnFragment := false, isLastFragment := true, deliveryType, tunnelID, hash
      msgID := 0, fragmentNum := 0, size, pos := pos + 2 }
  else
    let msgID ← readID buf pos
    let size ← readSize buf (pos + 4)
    return {
      isFollowOnFragment := false, isLastFragment := false, deliveryType, tunnelID, hash, msgID
      fragmentNum := 0, size, pos := pos + 6 }

/-- The instructions of a follow-on fragment, behind the flag. -/
def readFollowOnInstructions (buf : Mem) (flag : UInt8) (pos : ℕ) :
    Traced DeliveryInstructions := do
  let msgID ← readID buf pos
  let size ← readSize buf (pos + 4)
  return {
    isFollowOnFragment := true, isLastFragment := flag &&& 0x01 ≠ 0
    deliveryType := deliveryTypeLocal, tunnelID := 0, hash := IdentHash.zero, msgID
    fragmentNum := (flag >>> 1) &&& 0x3F, size, pos := pos + 6 }

/-- The delivery instructions at `pos`. -/
def readInstructions (buf : Mem) (pos : ℕ) : Traced DeliveryInstructions := do
  let flag ← Traced.readByte buf pos
  if flag &&& 0x80 = 0 then readFirstInstructions buf flag (pos + 1)
  else readFollowOnInstructions buf flag (pos + 1)

theorem lt_pos_readFirstInstructions (buf : Mem) (flag : UInt8) (pos : ℕ) :
    pos < (readFirstInstructions buf flag pos).val.pos := by
  simp only [readFirstInstructions, Traced.val_bind]
  split <;> simp only [Traced.val_bind, Traced.val_pure] <;> omega

theorem lt_pos_readFollowOnInstructions (buf : Mem) (flag : UInt8) (pos : ℕ) :
    pos < (readFollowOnInstructions buf flag pos).val.pos := by
  simp only [readFollowOnInstructions, Traced.val_bind, Traced.val_pure]
  omega

/-- Instructions take at least one byte, so the parser advances. -/
theorem lt_pos_readInstructions (buf : Mem) (pos : ℕ) :
    pos < (readInstructions buf pos).val.pos := by
  have hfirst := lt_pos_readFirstInstructions buf (buf pos) (pos + 1)
  have hfollow := lt_pos_readFollowOnInstructions buf (buf pos) (pos + 1)
  by_cases hflag : buf pos &&& 0x80 = 0
  · simp only [readInstructions, Traced.val_bind, Traced.val_readByte, hflag, if_true]
    omega
  · simp only [readInstructions, Traced.val_bind, Traced.val_readByte, hflag, if_false]
    omega

/-! ## Reassembly -/

namespace TunnelEndpoint

/-- `HandleNextMessage`, for a message kept under `key`. -/
def handleNextMessage (ep : TunnelEndpoint) (key : Option UInt32) (msg : TunnelMessageBlock) :
    TunnelEndpoint :=
  match msg.delivery with
  | some delivery => { ep with handled := ep.handled ++ [(key, delivery)] }
  | none => ep

/-- `AddOutOfSequenceFragment`: a fragment is saved only if none is saved under the ID yet. -/
def addOutOfSequenceFragment (ep : TunnelEndpoint) (msgID : UInt32) (fragmentNum : UInt8)
    (isLastFragment : Bool) (data : I2NPMessage) : TunnelEndpoint :=
  match ep.outOfSequenceFragments msgID with
  | some _ => ep
  | none =>
    { ep with
      outOfSequenceFragments :=
        Function.update ep.outOfSequenceFragments msgID
          (some { fragmentNum, isLastFragment, data }) }

/-- Concatenate a fragment to an incomplete message, moved to a larger buffer if needed. -/
def concatenate (msg : TunnelMessageBlockEx) (data : I2NPMessage) : TunnelMessageBlockEx :=
  { msg with
    data := (msg.data.reserve data.getLength).append data.buf data.offset data.getLength }

/-- Keep `msg` as the incomplete message of `msgID`. -/
def setIncomplete (ep : TunnelEndpoint) (msgID : UInt32) (msg : TunnelMessageBlockEx) :
    TunnelEndpoint :=
  { ep with incompleteMessages := Function.update ep.incompleteMessages msgID (some msg) }

/-- `m_IncompleteMessages.erase(msg_ID)`. -/
def eraseIncomplete (ep : TunnelEndpoint) (msgID : UInt32) : TunnelEndpoint :=
  { ep with incompleteMessages := Function.update ep.incompleteMessages msgID none }

/-- `m_OutOfSequenceFragments.erase(msg_ID)`. -/
def eraseOutOfSequence (ep : TunnelEndpoint) (msgID : UInt32) : TunnelEndpoint :=
  { ep with outOfSequenceFragments := Function.update ep.outOfSequenceFragments msgID none }

/-- `HandleOutOfSequenceFragment`, for `msg` the incomplete message of `msgID`. -/
def handleOutOfSequenceFragment (ep : TunnelEndpoint) (msgID : UInt32)
    (msg : TunnelMessageBlockEx) : TunnelEndpoint :=
  match ep.outOfSequenceFragments msgID with
  | none => ep
  | some fragment =>
    if fragment.fragmentNum = msg.nextFragmentNum then
      let msg := concatenate msg fragment.data
      let ep :=
        if fragment.isLastFragment then
          (ep.handleNextMessage (some msgID) msg.toTunnelMessageBlock).eraseIncomplete msgID
        else
          ep.setIncomplete msgID { msg with nextFragmentNum := msg.nextFragmentNum + 1 }
      ep.eraseOutOfSequence msgID
    else ep

/-- `HandleFollowOnFragment`; the fragment lies at `pos` in the tunnel data message. -/
def handleFollowOnFragment (ep : TunnelEndpoint) (msgID : UInt32) (isLastFragment : Bool)
    (m : TunnelMessageBlockEx) (pos : ℕ) : Traced TunnelEndpoint := do
  let size := m.data.getLength
  match ep.incompleteMessages msgID with
  | some msg =>
    if m.nextFragmentNum = msg.nextFragmentNum then
      if msg.data.len + size < maxMessageSize then
        Traced.touch pos size
        let msg := concatenate msg m.data
        if isLastFragment then
          return (ep.handleNextMessage (some msgID) msg.toTunnelMessageBlock).eraseIncomplete
            msgID
        else
          let msg := { msg with nextFragmentNum := msg.nextFragmentNum + 1 }
          return (ep.setIncomplete msgID msg).handleOutOfSequenceFragment msgID msg
      else
        -- the message would exceed the maximal size: it is dropped
        return ep.eraseIncomplete msgID
    else saveFragment
  | none => saveFragment
where
  /-- The calls of `AddOutOfSequenceFragment`. -/
  saveFragment : Traced TunnelEndpoint := do
    Traced.touchIf (ep.outOfSequenceFragments msgID).isNone pos m.data.getLength
    return ep.addOutOfSequenceFragment msgID m.nextFragmentNum isLastFragment m.data

/-- `msg->offset = fragment - msg->buf; msg->len = msg->offset + size`. -/
def window (msg : I2NPMessage) (pos size : ℕ) : I2NPMessage :=
  { msg with offset := pos, len := pos + size }

/-- A new short message with room for the header of a `TunnelGateway` message. -/
def newFragmentMessage : I2NPMessage :=
  let msg := I2NPMessage.newI2NPShortMessage
  { msg with
    offset := msg.offset + tunnelGatewayHeaderSize
    len := msg.len + tunnelGatewayHeaderSize }

/-- The bytes of a fragment: a message of its own, unless the fragment reaches the end of the
tunnel data message, which is then used itself. -/
def fragmentData (msg : I2NPMessage) (stop : ℕ) (di : DeliveryInstructions) : I2NPMessage :=
  if di.pos + di.size < stop then newFragmentMessage.assign (window msg di.pos di.size)
  else window msg di.pos di.size

/-- The rest of the loop body: what becomes of a fragment with the given instructions. -/
def handleFragment (ep : TunnelEndpoint) (di : DeliveryInstructions) (data : I2NPMessage) :
    Traced TunnelEndpoint := do
  let m : TunnelMessageBlock :=
    { deliveryType := di.deliveryType, hash := di.hash, tunnelID := di.tunnelID, data }
  if !di.isFollowOnFragment && di.isLastFragment then
    Traced.touchIf m.delivery.isSome di.pos di.size
    return ep.handleNextMessage none m
  else if di.msgID = 0 then
    -- fragmented, but the message ID is not presented
    return ep
  else if di.isFollowOnFragment then
    ep.handleFollowOnFragment di.msgID di.isLastFragment
      { m with nextFragmentNum := di.fragmentNum } di.pos
  else
    match ep.incompleteMessages di.msgID with
    | some _ => return ep
    | none =>
      Traced.touch di.pos di.size
      let m : TunnelMessageBlockEx := { m with nextFragmentNum := 1 }
      return (ep.setIncomplete di.msgID m).handleOutOfSequenceFragment di.msgID m

/-! ## A tunnel data message -/

/-- The loop over the fragments of a tunnel data message, from `pos` on. -/
def processFragments (ep : TunnelEndpoint) (msg : I2NPMessage) (stop pos : ℕ) :
    Traced TunnelEndpoint :=
  if pos < stop then
    let di := readInstructions msg.buf pos
    let next := ep.handleFragment di.val (fragmentData msg stop di.val)
    let rest := processFragments next.val msg stop (di.val.pos + di.val.size)
    ⟨rest.val, di.reads ++ next.reads ++ rest.reads⟩
  else pure ep
termination_by stop - pos
decreasing_by
  have hpos := lt_pos_readInstructions msg.buf pos
  omega

/-- The position of the decrypted area, behind tunnel ID and IV. -/
def decrypted (msg : I2NPMessage) : ℕ := msg.payloadPos + 20

/-- The position behind the zero byte that ends the padding. -/
def firstFragmentPos (msg : I2NPMessage) : Option ℕ :=
  ((slice msg.buf (decrypted msg + 4) (tunnelDataEncryptedSize - 4)).idxOf? 0).map
    (decrypted msg + 4 + · + 1)

/-- Copy the IV behind the payload, for the checksum. -/
def copyIV (msg : I2NPMessage) : I2NPMessage :=
  { msg with
    buf := memcpy msg.buf (msg.payloadPos + tunnelDataMsgSize) msg.buf (msg.payloadPos + 4) 16 }

/-- The checksum over payload and IV verifies. -/
def checksumVerifies (sha256 : List UInt8 → List UInt8) (msg : I2NPMessage) (pos : ℕ) : Bool :=
  let hash := sha256 (slice (copyIV msg).buf pos
    (tunnelDataMsgSize - (pos - msg.payloadPos) + 16))
  hash.take 4 = slice msg.buf (decrypted msg) 4

/-- `HandleDecryptedTunnelDataMsg`. -/
def handleDecryptedTunnelDataMsg (sha256 : List UInt8 → List UInt8) (ep : TunnelEndpoint)
    (msg : I2NPMessage) : Traced TunnelEndpoint :=
  match firstFragmentPos msg with
  | none => pure ep
  | some pos =>
    if checksumVerifies sha256 msg pos then
      ep.processFragments (copyIV msg) (decrypted msg + tunnelDataEncryptedSize) pos
    else pure ep

/-- The endpoint after a list of tunnel data messages. -/
def handleAll (sha256 : List UInt8 → List UInt8) (ep : TunnelEndpoint)
    (msgs : List I2NPMessage) : TunnelEndpoint :=
  msgs.foldl (fun ep msg => (ep.handleDecryptedTunnelDataMsg sha256 msg).val) ep

end TunnelEndpoint

end Tunnel
