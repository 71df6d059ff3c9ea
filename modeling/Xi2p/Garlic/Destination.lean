import Xi2p.Garlic.Session

/-!
# Garlic destinations

The receiving side of `core/router/garlic.cc`: a `GarlicDestination` finds the key for a garlic message
through its tag or in its ElGamal block, takes the new tags from the decrypted block, and dispatches the
cloves. The functions read from a memory that holds the message, and the addresses that they read are
recorded. An exception ends them where it is thrown; what they have done before stays done.

* `GarlicDestination.handleGarlicMessage`: the dispatched cloves, and the tags.
-/

namespace Garlic

open Bytes I2NP Traced

/-! ## Data -/

/-- `GarlicDeliveryType`. -/
inductive GarlicDeliveryType
  | locally
  | destination
  | router
  | tunnel
  deriving DecidableEq

/-- The delivery type in the flag of a clove. -/
def GarlicDeliveryType.ofFlag (flag : UInt8) : GarlicDeliveryType :=
  match ((flag >>> 5) &&& 3).toNat with
  | 0 => locally
  | 1 => destination
  | 2 => router
  | _ => tunnel

/-- What is done with a clove. -/
inductive Dispatch
  /-- `HandleI2NPMessage`, and the delivery type that led to it. -/
  | handleI2NPMessage (deliveryType : GarlicDeliveryType) (msg : List UInt8)
  /-- `SendTunnelDataMsg` of an outbound tunnel. -/
  | sendTunnelDataMsg (gatewayHash : Tag) (gatewayTunnel : UInt32) (msg : List UInt8)
  deriving DecidableEq

/-- What `m_Tags` holds for a tag: when it was added, and the key of the decryption. -/
structure IncomingTag where
  creationTime : ℕ
  key : Tag
  deriving DecidableEq

/-- `m_Tags`. -/
abbrev Tags := List (Tag × IncomingTag)

/-- `GarlicDestination`. -/
structure GarlicDestination where
  /-- `m_Tags`. -/
  tags : Tags := []
  /-- `m_LastTagsCleanupTime`. -/
  lastTagsCleanupTime : ℕ := 0
  /-- `GetEncryptionPrivateKey()`. -/
  privateKey : List UInt8

/-- The order of tags. -/
def tagKey (tag : Tag) : ℕ := readBE tag.bytes

/-- `m_Tags[SessionTag(tag, ts)] = decryption`; a tag that is present keeps its creation time. -/
def addTag (ts : ℕ) (key : Tag) (tags : Tags) (tag : Tag) : Tags :=
  match AssocMap.find tags tag with
  | some old => AssocMap.assign tagKey tags tag { old with key }
  | none => AssocMap.assign tagKey tags tag { creationTime := ts, key }

/-! ## Cloves -/

section Payload

variable (m : Mem) (buf1 len : ℕ) (hasTunnel : Bool)

/-- `GetI2NPMessageLength`. -/
def getI2NPMessageLength (buf : ℕ) : Traced ℕ := do
  let size ← Traced.read m (buf + headerSizeOffset) 2
  return readBE size + headerSize

/-- `check_clove_len`: the length of the message and the offset of what is behind the clove, or an
exception. Both have 16 bits. -/
def checkCloveLen (buf : ℕ) : Traced (Option (ℕ × ℕ)) := do
  let msgLen ← getI2NPMessageLength m buf
  let msgLen := msgLen % 65536
  let offset := (msgLen + 4 + 8 + 3) % 65536
  return if len < buf + offset - buf1 then none else some (msgLen, offset)

/-- `CreateI2NPMessage(buf, len, from)`; a message that is too long is not copied. -/
def createI2NPMessage (buf msgLen : ℕ) : Traced (List UInt8) :=
  if 2 + msgLen < maxMessageSize then Traced.read m buf msgLen
  else return List.replicate headerSize 0

/-- The message that is handed to `HandleI2NPMessage`. -/
def messageAt (buf : ℕ) : Traced (List UInt8) := do
  let msgLen ← getI2NPMessageLength m buf
  Traced.read m buf msgLen

/-- The dispatch of a clove: where its message stands, and what is done with it, or an exception. -/
def dispatchClove (deliveryType : GarlicDeliveryType) (buf : ℕ) :
    Traced (ℕ × Option (List Dispatch)) := do
  match deliveryType with
  | .locally =>
    let msg ← messageAt m buf
    return (buf, some [.handleI2NPMessage .locally msg])
  | .destination =>
    let buf := buf + 32
    let msg ← messageAt m buf
    return (buf, some [.handleI2NPMessage .destination msg])
  | .tunnel =>
    let gatewayHash := IdentHash.ofMem m buf
    touch buf 32
    let gatewayTunnel ← Traced.read m (buf + 32) 4
    let buf := buf + 36
    if hasTunnel then
      match ← checkCloveLen m buf1 len buf with
      | some (msgLen, _) =>
        let msg ← createI2NPMessage m buf msgLen
        return (buf, some [.sendTunnelDataMsg gatewayHash (readU32 gatewayTunnel) msg])
      | none => return (buf, none)
    -- no outbound tunnels available for garlic clove
    else return (buf, some [])
  -- not supported
  | .router => return (buf + 32, some [])

/-- The loop over the cloves: what is done with them, and whether an exception is thrown. -/
def handleCloves : ℕ → ℕ → Traced (List Dispatch × Bool)
  | 0, _ => return ([], false)
  | n + 1, buf => do
    let flag ← readByte m buf
    let buf := buf + 1
    -- encrypted?
    let buf := if flag &&& 0x80 ≠ 0 then buf + 32 else buf
    match ← dispatchClove m buf1 len hasTunnel (.ofFlag flag) buf with
    | (_, none) => return ([], true)
    | (buf, some dispatched) =>
      match ← checkCloveLen m buf1 len buf with
      | none => return (dispatched, true)
      | some (_, offset) =>
        let (others, threw) ← handleCloves n (buf + offset)
        return (dispatched ++ others, threw)

/-- `HandleGarlicPayload`. -/
def handleGarlicPayload : Traced (List Dispatch × Bool) := do
  let numCloves ← readByte m buf1
  handleCloves m buf1 len hasTunnel numCloves.toNat (buf1 + 1)

end Payload

/-! ## Blocks -/

/-- The difference of two `size_t`. -/
def subSize (a b : ℕ) : ℕ := (a + 2 ^ 64 - b) % 2 ^ 64

/-- What a handler leaves behind. -/
structure Handled where
  destination : GarlicDestination
  dispatched : List Dispatch := []
  /-- An exception is thrown. -/
  threw : Bool := false

namespace GarlicDestination

variable (crypto : Crypto) (now : ℕ) (hasTunnel : Bool) (destination : GarlicDestination)

/-- `HandleAESBlock`, on `len` decrypted bytes. -/
def handleAESBlock (key : Tag) (m : Mem) (buf len : ℕ) : Traced Handled := do
  let tagCount ← Traced.read m buf 2
  let tagCount := readBE tagCount
  let buf := buf + 2
  let len := subSize len 2
  if 0 < tagCount ∧ len < tagCount * 32 then return { destination }
  else
    let newTags := (List.range tagCount).map fun i => IdentHash.ofMem m (buf + i * 32)
    touch buf (tagCount * 32)
    let destination := { destination with
      tags := newTags.foldl (addTag now key) destination.tags }
    let buf := buf + tagCount * 32
    let len := subSize len (tagCount * 32)
    let payloadSize ← Traced.read m buf 4
    let payloadSize := readBE payloadSize
    if len < payloadSize then return { destination }
    else
      let buf := buf + 4
      let payloadHash ← Traced.read m buf 32
      let buf := buf + 32
      let flag ← readByte m buf
      -- new session key
      let buf := if flag ≠ 0 then buf + 32 else buf
      let buf := buf + 1
      let payload ← Traced.read m buf payloadSize
      if (crypto.sha256 payload).bytes = payloadHash then
        let (dispatched, threw) ← handleGarlicPayload m buf payloadSize hasTunnel
        return { destination, dispatched, threw }
      else return { destination }

/-- The tags that have expired are removed from time to time. -/
def cleanupTags : GarlicDestination :=
  if destination.lastTagsCleanupTime + incomingTagsExpirationTimeout < now then
    { destination with
      tags :=
        if destination.lastTagsCleanupTime ≠ 0 then
          destination.tags.filter fun e =>
            ¬ e.2.creationTime + incomingTagsExpirationTimeout < now
        else destination.tags
      lastTagsCleanupTime := now }
  else destination

/-- The handling of `length` bytes at `buf`, of which the first `start` belong to the key and the
others are decrypted with it. -/
def decryptAndHandle (key : Tag) (iv : List UInt8) (m : Mem) (buf start length : ℕ) :
    Traced Handled := do
  let encrypted ← Traced.read m (buf + start) (length - start)
  let m := store m (buf + start) (crypto.cbcDecrypt key iv encrypted)
  destination.handleAESBlock crypto now hasTunnel key m (buf + start) (length - start)

/-- The bytes `32 * i` to `32 * (i + 1)` of a block. -/
def blockTag (block : List UInt8) (i : ℕ) : Tag := IdentHash.ofMem (store (fun _ => 0) 0 block) (32 * i)

/-- The part of `HandleGarlicMessage` that depends on the tag. -/
def handleByTag (m : Mem) (buf length : ℕ) : Traced Handled := do
  let tag := IdentHash.ofMem m buf
  touch buf 32
  match AssocMap.find destination.tags tag with
  | some entry =>
    let handled ←
      if 32 ≤ length then
        destination.decryptAndHandle crypto now hasTunnel entry.key (crypto.iv tag) m buf 32 length
      else pure { destination }
    if handled.threw then return handled
    -- tag might be used only once
    else return { handled with
      destination.tags := AssocMap.erase handled.destination.tags tag }
  | none =>
    if 514 ≤ length then
      let encrypted ← Traced.read m buf 514
      match crypto.elGamalDecrypt destination.privateKey encrypted with
      | some block =>
        destination.decryptAndHandle crypto now hasTunnel (blockTag block 0)
          (crypto.iv (blockTag block 1)) m buf 514 length
      | none => return { destination }
    else return { destination }

/-- `HandleGarlicMessage`, for a message of `msgLength` bytes at address `0`. -/
def handleGarlicMessage (m : Mem) (msgLength : ℕ) : Traced Handled := do
  let length ← Traced.read m headerSize 4
  let length := readBE length
  if msgLength < length then return { destination }
  else
    let handled ← destination.handleByTag crypto now hasTunnel m (headerSize + 4) length
    if handled.threw then return handled
    else return { handled with destination := handled.destination.cleanupTags now }

end GarlicDestination

end Garlic
