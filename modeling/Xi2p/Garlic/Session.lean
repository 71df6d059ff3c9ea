import Xi2p.I2NP
import Xi2p.Lib.AssocMap
import Xi2p.Lib.CBC

/-!
# Garlic sessions

The sending side of `core/router/garlic.cc`: a `GarlicRoutingSession` wraps an I2NP message, and what
else is due, into an I2NP message of type `I2NPGarlic`. Bytes are written one behind the other, so the
writing functions give the bytes that they write. What they ask of the outside (the clock, the random
numbers, the owner of the session) is an argument.

The message with the delivery status is itself wrapped, by a session that is used once and has no owner
(`GarlicRoutingSession.oneTime`). The wrapping of this message is an argument of the functions that
lead to it, and `wrapSingleMessage` ties the knot: a session without an owner does not look at it.

* `wrapSingleMessage`: the message, with the session and the calls to its owner.
-/

namespace Garlic

open Bytes I2NP CBC

/-! ## Data -/

/-- `Tag<32>`. -/
abbrev Tag := IdentHash

/-- Functions of Crypto++. -/
structure Crypto where
  /-- `SHA256`. -/
  sha256 : List UInt8 → Tag
  /-- `CBCEncryption`, with a key and an IV. -/
  cbcEncrypt : Tag → List UInt8 → List UInt8 → List UInt8
  /-- `CBCDecryption`, with a key and an IV. -/
  cbcDecrypt : Tag → List UInt8 → List UInt8 → List UInt8
  /-- `ElGamalEncryption`, with a public key and random numbers of its own. -/
  elGamalEncrypt : List UInt8 → List UInt8 → List UInt8 → List UInt8
  /-- `ElGamalDecrypt`, with a private key. -/
  elGamalDecrypt : List UInt8 → List UInt8 → Option (List UInt8)

/-- The IV that belongs to a tag or a pre-IV: the first 16 bytes of its hash. -/
def Crypto.iv (crypto : Crypto) (tag : Tag) : List UInt8 := (crypto.sha256 tag.bytes).bytes.take 16

/-- `SessionTag`. -/
structure SessionTag where
  tag : Tag
  /-- `creation_time`, in seconds. -/
  creationTime : ℕ

/-- `LeaseSetUpdateStatus`. -/
inductive LeaseSetUpdateStatus
  | upToDate
  | updated
  | submitted
  | doNotSend
  deriving DecidableEq

/-- `UnconfirmedTags`. -/
structure UnconfirmedTags where
  sessionTags : List SessionTag
  tagsCreationTime : ℕ

/-- `RoutingDestination`. -/
structure RoutingDestination where
  identHash : Tag
  isDestination : Bool
  /-- The key of `GetElGamalEncryption()`. -/
  publicKey : List UInt8

/-- `GarlicRoutingSession`. -/
structure GarlicRoutingSession where
  /-- `m_Owner` is not null. -/
  hasOwner : Bool
  /-- `m_Destination`. -/
  destination : Option RoutingDestination
  /-- `m_SessionKey`. -/
  sessionKey : Tag
  /-- `m_SessionTags`. -/
  sessionTags : List SessionTag
  /-- `m_NumTags`. -/
  numTags : ℕ
  /-- `m_UnconfirmedTagsMsgs`. -/
  unconfirmedTagsMsgs : List (UInt32 × UnconfirmedTags) := []
  /-- `m_LeaseSetUpdateStatus`. -/
  leaseSetUpdateStatus : LeaseSetUpdateStatus
  /-- `m_LeaseSetUpdateMsgID`. -/
  leaseSetUpdateMsgID : UInt32 := 0
  /-- `m_LeaseSetSubmissionTime`, in milliseconds. -/
  leaseSetSubmissionTime : ℕ := 0

/-- `INCOMING_TAGS_EXPIRATION_TIMEOUT`. -/
abbrev incomingTagsExpirationTimeout : ℕ := 960

/-- `OUTGOING_TAGS_EXPIRATION_TIMEOUT`. -/
abbrev outgoingTagsExpirationTimeout : ℕ := 720

/-- `LEASET_CONFIRMATION_TIMEOUT`. -/
abbrev leasetConfirmationTimeout : ℕ := 4000

/-- What the owner of a session answers. -/
structure Owner where
  /-- `GetLeaseSet()`: its hash and its buffer, or null. -/
  leaseSet : Option (Tag × List UInt8)
  /-- `GetTunnelPool()->GetNextInboundTunnel()`: the next hash and the next tunnel ID, or null. -/
  inboundTunnel : Option (Tag × UInt32)

/-- The random numbers of one call of `WrapSingleMessage`. -/
structure Draws where
  /-- The padding of the `ElGamalBlock`. -/
  padding : Block 158
  preIV : Tag
  /-- Those of the ElGamal encryption. -/
  elGamal : List UInt8
  /-- The tags of `GenerateSessionTags`. -/
  sessionTags : ℕ → Tag
  /-- `msg_ID` of `CreateGarlicPayload`. -/
  msgID : UInt32
  /-- The IDs of the cloves with the delivery status, the lease set and the message. -/
  statusCloveID : UInt32
  leaseSetCloveID : UInt32
  cloveID : UInt32
  /-- The session key and the session tag of the delivery status. -/
  statusKey : Tag
  statusTag : Tag
  /-- The message ID of a delivery status for `msg_ID` zero. -/
  statusMsgID : UInt32
  /-- The message IDs in the headers of the delivery status, the store of the lease set and the
  garlic message. -/
  statusHeaderID : UInt32
  leaseSetHeaderID : UInt32
  headerID : UInt32

/-- What a call of `WrapSingleMessage` finds outside. -/
structure Call where
  /-- `GetSecondsSinceEpoch()`. -/
  seconds : ℕ
  /-- `GetMillisecondsSinceEpoch()`. -/
  milliseconds : ℕ
  owner : Owner
  draws : Draws

/-- A call of the owner. -/
inductive OwnerCall
  | submitSessionKey (key tag : Tag)
  | deliveryStatusSent (msgID : UInt32)

/-! ## Messages -/

variable (crypto : Crypto)

/-- `FillI2NPMessageHeader`: the bytes of the message with this payload. -/
def fillI2NPMessageHeader (typeID : UInt8) (msgID : UInt32) (milliseconds : ℕ)
    (payload : List UInt8) : List UInt8 :=
  typeID :: writeU32 msgID ++ writeBE 8 (milliseconds + 60000) ++ writeBE 2 payload.length ++
    (crypto.sha256 payload).bytes.take 1 ++ payload

/-- `I2P_NETWORK_ID`. -/
abbrev i2pNetworkID : ℕ := 2

/-- `CreateDeliveryStatusMsg`. -/
def createDeliveryStatusMsg (call : Call) (msgID : UInt32) : List UInt8 :=
  fillI2NPMessageHeader crypto 10 call.draws.statusHeaderID call.milliseconds
    (if msgID ≠ 0 then writeU32 msgID ++ writeBE 8 call.milliseconds
      else writeU32 call.draws.statusMsgID ++ writeBE 8 i2pNetworkID)

/-- `CreateDatabaseStoreMsg`, for a lease set and no reply token. -/
def createDatabaseStoreMsg (call : Call) (leaseSet : Tag × List UInt8) : List UInt8 :=
  fillI2NPMessageHeader crypto 1 call.draws.leaseSetHeaderID call.milliseconds
    (leaseSet.1.bytes ++ 1 :: writeU32 0 ++ leaseSet.2)

/-! ## Cloves -/

/-- What stands behind the message of a clove: its ID, its expiration and its certificate. -/
def cloveTrailer (cloveID : UInt32) (expiration : ℕ) : List UInt8 :=
  writeU32 cloveID ++ writeBE 8 expiration ++ [0, 0, 0]

namespace GarlicRoutingSession

variable (session : GarlicRoutingSession)

/-- `CreateGarlicClove`. -/
def createGarlicClove (call : Call) (cloveID : UInt32) (msg : List UInt8) (isDestination : Bool) :
    List UInt8 :=
  (match isDestination, session.destination with
    -- `eGarlicDeliveryTypeDestination << 5`
    | true, some destination => 0x20 :: destination.identHash.bytes
    | _, _ => [0]) ++
    msg ++ cloveTrailer cloveID (call.milliseconds + 5000)

/-- `GarlicRoutingSession(owner, destination, num_tags, attach_lease_set)`. -/
def create (hasOwner : Bool) (destination : Option RoutingDestination) (key : Tag) (numTags : ℕ)
    (attachLeaseSet : Bool) : GarlicRoutingSession where
  hasOwner
  destination
  sessionKey := key
  sessionTags := []
  numTags
  leaseSetUpdateStatus := if attachLeaseSet then .updated else .doNotSend

/-- `GarlicRoutingSession(session_key, session_tag)`. -/
def oneTime (call : Call) (key tag : Tag) : GarlicRoutingSession where
  hasOwner := false
  destination := none
  sessionKey := key
  sessionTags := [⟨tag, call.seconds⟩]
  numTags := 1
  leaseSetUpdateStatus := .doNotSend

end GarlicRoutingSession

/-- The wrapping of a message by another session; a null pointer is not followed. -/
abbrev Wrap := GarlicRoutingSession → List UInt8 → Option (List UInt8)

namespace GarlicRoutingSession

variable (wrap : Wrap) (session : GarlicRoutingSession) (call : Call)

/-- `CreateDeliveryStatusClove`, for a session with an owner; without an inbound tunnel nothing is
written. -/
def createDeliveryStatusClove (msgID : UInt32) : Option (List UInt8 × List OwnerCall) :=
  match call.owner.inboundTunnel with
  | none => some ([], [])
  | some (nextIdentHash, nextTunnelID) => do
    let key := call.draws.statusKey
    let tag := call.draws.statusTag
    let msg ← wrap (oneTime call key tag) (createDeliveryStatusMsg crypto call msgID)
    -- `eGarlicDeliveryTypeTunnel << 5`; hash and tunnel ID are in reversed order
    return (0x60 :: nextIdentHash.bytes ++ writeU32 nextTunnelID ++ msg ++
      cloveTrailer call.draws.statusCloveID (call.milliseconds + 5000), [.submitSessionKey key tag])

/-- A lease set that has not been confirmed is submitted again. -/
def resubmitLeaseSet : GarlicRoutingSession :=
  if session.leaseSetUpdateStatus = .submitted ∧
      session.leaseSetSubmissionTime + leasetConfirmationTimeout < call.milliseconds then
    { session with leaseSetUpdateStatus := .updated }
  else session

/-- The clove with the delivery status, if new tags were created or the lease set was updated. -/
def attachDeliveryStatus (newTags : Option UnconfirmedTags) :
    Option (GarlicRoutingSession × List (List UInt8) × List OwnerCall) :=
  if newTags.isSome ∨ session.leaseSetUpdateStatus = .updated then do
    let msgID := call.draws.msgID
    let (clove, calls) ← createDeliveryStatusClove crypto wrap call msgID
    if 0 < clove.length then
      let session := match newTags with
        | some tags => { session with
            unconfirmedTagsMsgs :=
              AssocMap.assign UInt32.toNat session.unconfirmedTagsMsgs msgID tags }
        | none => session
      return (session, [clove], calls ++ [.deliveryStatusSent msgID])
    else return (session, [], calls)
  else return (session, [], [])

/-- The clove with the lease set, if it was updated; a null pointer is not followed. -/
def attachLeaseSet : Option (GarlicRoutingSession × List (List UInt8)) :=
  if session.leaseSetUpdateStatus = .updated then do
    let leaseSet ← call.owner.leaseSet
    let session := { session with
      leaseSetUpdateStatus := .submitted
      leaseSetUpdateMsgID := call.draws.msgID
      leaseSetSubmissionTime := call.milliseconds }
    return (session, [session.createGarlicClove call call.draws.leaseSetCloveID
      (createDatabaseStoreMsg crypto call leaseSet) false])
  else return (session, [])

/-- The clove with the message itself, if there is one. -/
def attachMessage (msg : Option (List UInt8)) : List (List UInt8) :=
  match msg with
  | some msg =>
    let isDestination := (session.destination.map RoutingDestination.isDestination).getD false
    [session.createGarlicClove call call.draws.cloveID msg isDestination]
  | none => []

/-- The number of cloves, the cloves, the certificate, the ID and the expiration. -/
def payloadBytes (cloves : List (List UInt8)) : List UInt8 :=
  UInt8.ofNat cloves.length :: cloves.flatten ++ [0, 0, 0] ++ writeU32 call.draws.msgID ++
    writeBE 8 (call.milliseconds + 5000)

/-- `CreateGarlicPayload`. -/
def createGarlicPayload (msg : Option (List UInt8)) (newTags : Option UnconfirmedTags) :
    Option (GarlicRoutingSession × List UInt8 × List OwnerCall) :=
  if session.hasOwner then do
    let session := session.resubmitLeaseSet call
    let (session, status, calls) ← session.attachDeliveryStatus crypto wrap call newTags
    let (session, leaseSet) ← session.attachLeaseSet crypto call
    return (session, payloadBytes call (status ++ leaseSet ++ session.attachMessage call msg), calls)
  else return (session, payloadBytes call (session.attachMessage call msg), [])

/-! ## Blocks -/

/-- `GenerateSessionTags`. -/
def generateSessionTags : UnconfirmedTags where
  sessionTags := (List.range session.numTags).map fun i => ⟨call.draws.sessionTags i, call.seconds⟩
  tagsCreationTime := call.seconds

/-- `create_new_tags`. -/
def createNewTags : Bool :=
  session.hasOwner && session.numTags ≠ 0 && session.sessionTags.length ≤ session.numTags * 2 / 3

/-- The tags that go with the message. -/
def newTags : Option UnconfirmedTags :=
  if session.createNewTags then some (session.generateSessionTags call) else none

/-- The plain text of the AES block: the tags, the size and the hash of the payload, a flag and the
payload. It is padded with what the buffer holds, which is zeros. -/
def aesPlaintext (tags : List SessionTag) (payload : List UInt8) : List UInt8 :=
  let block := writeBE 2 tags.length ++ (tags.map fun t => t.tag.bytes).flatten ++
    writeBE 4 payload.length ++ (crypto.sha256 payload).bytes ++ 0 :: payload
  block ++ List.replicate ((16 - block.length % 16) % 16) 0

/-- `CreateAESBlock`. -/
def createAESBlock (iv : List UInt8) (msg : Option (List UInt8)) :
    Option (GarlicRoutingSession × List UInt8 × List OwnerCall) := do
  let newTags := session.newTags call
  let tags := (newTags.map UnconfirmedTags.sessionTags).getD []
  let (session, payload, calls) ← session.createGarlicPayload crypto wrap call msg newTags
  return (session, crypto.cbcEncrypt session.sessionKey iv (aesPlaintext crypto tags payload), calls)

/-- The first tag that has not expired, and the tags behind it; the others are removed. -/
def takeTag (seconds : ℕ) : List SessionTag → Option Tag × List SessionTag
  | [] => (none, [])
  | t :: tags =>
    if seconds < t.creationTime + outgoingTagsExpirationTimeout then (some t.tag, tags)
    else takeTag seconds tags

/-- The tag that a message is sent with, and the session without it. -/
def findTag : Option Tag × GarlicRoutingSession :=
  if 0 < session.numTags then
    let (tag, sessionTags) := takeTag call.seconds session.sessionTags
    (tag, { session with sessionTags })
  else (none, session)

/-- `ElGamalBlock`. -/
def elGamalBlock : List UInt8 :=
  session.sessionKey.bytes ++ call.draws.preIV.bytes ++ call.draws.padding.bytes

/-- What a message starts with, and the IV of its block: the tag, or an ElGamal block. -/
def messageStart (tag : Option Tag) : Option (List UInt8 × List UInt8) :=
  match tag, session.destination with
  | some tag, _ => some (tag.bytes, crypto.iv tag)
  | none, some destination =>
    some (crypto.elGamalEncrypt destination.publicKey call.draws.elGamal (session.elGamalBlock call),
      crypto.iv call.draws.preIV)
  -- can't use ElGamal for unknown destination
  | none, none => none

/-- `WrapSingleMessage`, with the wrapping of the delivery status. -/
def wrapSingleMessageWith (msg : Option (List UInt8)) :
    Option (GarlicRoutingSession × List UInt8 × List OwnerCall) := do
  let (tag, session) := session.findTag call
  let (start, iv) ← session.messageStart crypto call tag
  let (session, block, calls) ← session.createAESBlock crypto wrap call iv msg
  return (session, fillI2NPMessageHeader crypto 11 call.draws.headerID call.milliseconds
    (writeBE 4 (start.length + block.length) ++ start ++ block), calls)

/-- The wrapping of a delivery status, with random numbers of its own. -/
def wrapDeliveryStatus (call : Call) (draws : Draws) : Wrap := fun session msg =>
  (session.wrapSingleMessageWith crypto (fun _ _ => none) { call with draws } (some msg)).map
    fun r => r.2.1

/-- `WrapSingleMessage`; `draws` are the random numbers for the delivery status. -/
def wrapSingleMessage (draws : Draws) (msg : Option (List UInt8)) :
    Option (GarlicRoutingSession × List UInt8 × List OwnerCall) :=
  session.wrapSingleMessageWith crypto (wrapDeliveryStatus crypto call draws) call msg

/-! ## Confirmations -/

/-- `TagsConfirmed`. -/
def tagsConfirmed (seconds : ℕ) (msgID : UInt32) : GarlicRoutingSession :=
  match AssocMap.find session.unconfirmedTagsMsgs msgID with
  | some tags => { session with
      sessionTags :=
        if seconds < tags.tagsCreationTime + outgoingTagsExpirationTimeout then
          session.sessionTags ++ tags.sessionTags
        else session.sessionTags
      unconfirmedTagsMsgs := AssocMap.erase session.unconfirmedTagsMsgs msgID }
  | none => session

/-- `CleanupExpiredTags`: the session, and the IDs for `RemoveCreatedSession` of its owner. -/
def cleanupExpiredTags (seconds : ℕ) : GarlicRoutingSession × List UInt32 :=
  let expired := session.unconfirmedTagsMsgs.filter fun e =>
    e.2.tagsCreationTime + outgoingTagsExpirationTimeout ≤ seconds
  ({ session with
      sessionTags := session.sessionTags.filter fun t =>
        ¬ t.creationTime + outgoingTagsExpirationTimeout ≤ seconds
      unconfirmedTagsMsgs := session.unconfirmedTagsMsgs.filter fun e =>
        ¬ e.2.tagsCreationTime + outgoingTagsExpirationTimeout ≤ seconds },
    if session.hasOwner then expired.map Prod.fst else [])

/-- The result of `CleanupExpiredTags`: something is left. -/
def somethingLeft : Bool := !session.sessionTags.isEmpty || session.unconfirmedTagsMsgs.isEmpty

/-- `MessageConfirmed`, with the IDs for `RemoveCreatedSession` of the owner. -/
def messageConfirmed (seconds : ℕ) (msgID : UInt32) : GarlicRoutingSession × List UInt32 :=
  let session := session.tagsConfirmed seconds msgID
  if msgID = session.leaseSetUpdateMsgID then
    ({ session with leaseSetUpdateStatus := .upToDate }, [])
  else session.cleanupExpiredTags seconds

/-- `SetLeaseSetUpdated`. -/
def setLeaseSetUpdated : GarlicRoutingSession :=
  if session.leaseSetUpdateStatus ≠ .doNotSend then
    { session with leaseSetUpdateStatus := .updated }
  else session

end GarlicRoutingSession

end Garlic
