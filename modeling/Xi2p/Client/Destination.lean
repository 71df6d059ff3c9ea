import Xi2p.Garlic.Session
import Xi2p.Router.NetDb

/-!
# Client destinations

`ClientDestination` of `client/destination.cc`: the publication of its own lease set, and the requests
for those of others. The pool of a destination is made by its constructor and never taken away, so it is
not null here. A callback is a number, and what is done outside is given as a list.

* `publish`, `setLeaseSetUpdated`, `handleDeliveryStatusMessage`, `handlePublishConfirmationTimer`.
* `requestDestination`, `requestLeaseSet`, `handleDatabaseStoreMessage`,
  `handleDatabaseSearchReplyMessage`, `handleRequestTimeoutTimer`.
-/

namespace Client

open Bytes I2NP Garlic Router

/-! ## Data -/

/-- `LeaseSetRequest`. -/
structure LeaseSetRequest where
  excluded : List Tag := []
  /-- `request_time`, in seconds. -/
  requestTime : ℕ := 0
  /-- `request_complete`, or none if it is empty. -/
  requestComplete : Option ℕ

/-- `ClientDestination`. -/
structure ClientDestination where
  /-- `m_LeaseSet`: its buffer, or null. -/
  leaseSet : Option (List UInt8) := none
  /-- `m_IsPublic`. -/
  isPublic : Bool
  /-- `m_PublishReplyToken`. -/
  publishReplyToken : UInt32 := 0
  /-- `m_ExcludedFloodfills`. -/
  excludedFloodfills : List Tag := []
  /-- `m_Sessions`. -/
  sessions : List GarlicRoutingSession := []
  /-- `m_RemoteLeaseSets`. -/
  remoteLeaseSets : List (Tag × LeaseSet) := []
  /-- `m_LeaseSetRequests`. -/
  leaseSetRequests : List (Tag × LeaseSetRequest) := []
  /-- The calls of `RequestLeaseSet` that `m_Service` has still to make. -/
  posted : List (Tag × Option ℕ) := []

/-! ## Publication -/

/-- What a publication finds outside. -/
structure Outside where
  /-- The lease set of the pool. -/
  leaseSet : List UInt8
  /-- `GetNextOutboundTunnel()` is not null. -/
  hasOutboundTunnel : Bool
  /-- `GetClosestFloodfill`, for the lease set and the floodfills that are excluded. -/
  closestFloodfill : List Tag → Option Tag
  /-- `Rand<std::uint32_t>()`. -/
  token : UInt32

/-- A message with the lease set, on its way to a floodfill. -/
structure Publication where
  floodfill : Tag
  leaseSet : List UInt8
  token : UInt32
  deriving DecidableEq

namespace ClientDestination

variable (d : ClientDestination) (outside : Outside)

/-- `UpdateLeaseSet`. -/
def updateLeaseSet : ClientDestination := { d with leaseSet := some outside.leaseSet }

/-- `GetLeaseSet`. -/
def getLeaseSet : ClientDestination × Option (List UInt8) :=
  let d := if d.leaseSet.isNone then d.updateLeaseSet outside else d
  (d, d.leaseSet)

/-- `Publish`. -/
def publish : ClientDestination × Option Publication :=
  match d.leaseSet with
  -- can't publish non-existing LeaseSet
  | none => (d, none)
  | some leaseSet =>
    -- publishing is pending
    if d.publishReplyToken ≠ 0 then (d, none)
    else if outside.hasOutboundTunnel then
      match outside.closestFloodfill d.excludedFloodfills with
      -- no more floodfills found
      | none => ({ d with excludedFloodfills := [] }, none)
      | some floodfill =>
        ({ d with
          excludedFloodfills := d.excludedFloodfills.insert floodfill
          publishReplyToken := outside.token },
          some { floodfill, leaseSet, token := outside.token })
    else (d, none)

/-- There is a tunnel and a floodfill for the lease set. -/
def CanPublish : Prop :=
  outside.hasOutboundTunnel = true ∧ outside.closestFloodfill d.excludedFloodfills ≠ none

/-- `SetLeaseSetUpdated`. -/
def setLeaseSetUpdated : ClientDestination × Option Publication :=
  let d := { d with sessions := d.sessions.map GarlicRoutingSession.setLeaseSetUpdated }
  let d := d.updateLeaseSet outside
  if d.isPublic then d.publish outside else (d, none)

/-- `HandleDeliveryStatusMessage`, with the ID that is left to the `GarlicDestination`. -/
def handleDeliveryStatusMessage (msgID : UInt32) : ClientDestination × Option UInt32 :=
  if msgID = d.publishReplyToken then
    ({ d with excludedFloodfills := [], publishReplyToken := 0 }, none)
  else (d, some msgID)

/-- `HandlePublishConfirmationTimer`. -/
def handlePublishConfirmationTimer (aborted : Bool) : ClientDestination × Option Publication :=
  if aborted then (d, none)
  else if d.publishReplyToken ≠ 0 then
    { d with publishReplyToken := 0 }.publish outside
  else (d, none)

end ClientDestination

/-! ## Requests -/

/-- What a request finds outside. -/
structure RequestOutside where
  /-- `GetSecondsSinceEpoch()`. -/
  seconds : ℕ
  /-- The lease set of the destination has a lease that has not expired. -/
  hasNonExpiredLeases : Bool
  /-- `GetOutboundTunnels()` is not empty. -/
  hasOutboundTunnels : Bool
  /-- `GetNextInboundTunnel()` is not null, for each message of the call. -/
  hasInboundTunnel : ℕ → Bool
  /-- `GetNextOutboundTunnel()` is not null, for each message of the call. -/
  hasOutboundTunnel : ℕ → Bool
  /-- `GetClosestFloodfill`. -/
  closestFloodfill : Tag → List Tag → Option Tag
  /-- `FindRouter`: the hash of the router, or null. -/
  findRouter : Tag → Option Tag

/-- What is done outside. -/
inductive Effect
  /-- `request_complete`, with a lease set or null. -/
  | requestComplete (callback : ℕ) (leaseSet : Option LeaseSet)
  /-- A lookup of a lease set at a floodfill. -/
  | lookup (dest floodfill : Tag) (excluded : List Tag)
  /-- `RequestDestination` of the network database. -/
  | requestRouter (ident : Tag)

/-- `request_complete`, unless it is empty. -/
def complete (callback : Option ℕ) (leaseSet : Option LeaseSet) : List Effect :=
  (callback.map fun n => Effect.requestComplete n leaseSet).toList

/-- `MAX_NUM_FLOODFILLS_PER_REQUEST`. -/
abbrev maxNumFloodfillsPerRequest : ℕ := 7

/-- `MAX_LEASESET_REQUEST_TIMEOUT`. -/
abbrev maxLeaseSetRequestTimeout : ℕ := 40

/-- `DATABASE_STORE_HEADER_SIZE`. -/
abbrev databaseStoreHeaderSize : ℕ := 37

/-- `SendLeaseSetRequest`, for a message of the call; none if there are no tunnels. -/
def LeaseSetRequest.send (request : LeaseSetRequest) (outside : RequestOutside) (i : ℕ)
    (dest nextFloodfill : Tag) : Option (LeaseSetRequest × List Effect) :=
  if outside.hasInboundTunnel i && outside.hasOutboundTunnel i then
    let request := { request with
      excluded := request.excluded.insert nextFloodfill
      requestTime := outside.seconds }
    some (request, [.lookup dest nextFloodfill request.excluded])
  else none

namespace ClientDestination

variable (d : ClientDestination) (outside : RequestOutside)

/-- `IsReady`. -/
def isReady : Bool :=
  d.leaseSet.isSome && outside.hasNonExpiredLeases && outside.hasOutboundTunnels

/-- `RequestDestination`. -/
def requestDestination (dest : Tag) (requestComplete : Option ℕ) :
    ClientDestination × List Effect :=
  if d.isReady outside then ({ d with posted := d.posted ++ [(dest, requestComplete)] }, [])
  else (d, complete requestComplete none)

/-- A request after a change. -/
def setRequest (dest : Tag) (request : LeaseSetRequest) : ClientDestination :=
  { d with leaseSetRequests := AssocMap.assign hashKey d.leaseSetRequests dest request }

/-- The callback of a request, and its removal. -/
def finish (dest : Tag) (request : LeaseSetRequest) (leaseSet : Option LeaseSet) :
    ClientDestination × List Effect :=
  ({ d with leaseSetRequests := AssocMap.erase d.leaseSetRequests dest },
    complete request.requestComplete leaseSet)

/-- `RequestLeaseSet`. -/
def requestLeaseSet (dest : Tag) (requestComplete : Option ℕ) : ClientDestination × List Effect :=
  match outside.closestFloodfill dest [] with
  | some floodfill =>
    match AssocMap.find d.leaseSetRequests dest with
    -- duplicate
    | some _ => (d, complete requestComplete none)
    | none =>
      match LeaseSetRequest.send { requestComplete } outside 0 dest floodfill with
      | some (request, effects) => (d.setRequest dest request, effects)
      -- request failed
      | none => (d, complete requestComplete none)
  -- no floodfills found
  | none => (d, [])

/-- The next call of `RequestLeaseSet` that was posted. -/
def runPosted : ClientDestination × List Effect :=
  match d.posted with
  | (dest, requestComplete) :: posted =>
    { d with posted }.requestLeaseSet outside dest requestComplete
  | [] => (d, [])

/-- `HandleRequestTimoutTimer`. -/
def handleRequestTimeoutTimer (aborted : Bool) (dest : Tag) : ClientDestination × List Effect :=
  if aborted then (d, [])
  else
    match AssocMap.find d.leaseSetRequests dest with
    | some request =>
      let sent :=
        if outside.seconds < request.requestTime + maxLeaseSetRequestTimeout then
          (outside.closestFloodfill dest request.excluded).bind (request.send outside 0 dest)
        else none
      match sent with
      | some (request, effects) => (d.setRequest dest request, effects)
      | none => d.finish dest request none
    | none => (d, [])

/-! ### Search replies -/

/-- The loop of `HandleDatabaseSearchReplyMessage`: the request, whether a message was sent, and what is
done outside. -/
def askPeer (key : Tag) (acc : LeaseSetRequest × Bool × List Effect) (peer : ℕ × Tag) :
    LeaseSetRequest × Bool × List Effect :=
  match outside.findRouter peer.2 with
  | some floodfill =>
    match acc.1.send outside peer.1 key floodfill with
    | some (request, effects) => (request, true, acc.2.2 ++ effects)
    | none => acc
  -- found new floodfill, requesting it
  | none => (acc.1, acc.2.1, acc.2.2 ++ [.requestRouter peer.2])

/-- The peers of a search reply, with their positions. -/
def replyPeers (m : Mem) (buf : ℕ) : List (ℕ × Tag) :=
  (List.range (m (buf + 32)).toNat).map fun i => (i, IdentHash.ofMem m (buf + 33 + i * 32))

/-- `HandleDatabaseSearchReplyMessage`. -/
def handleDatabaseSearchReplyMessage (m : Mem) (buf : ℕ) : ClientDestination × List Effect :=
  let key := IdentHash.ofMem m buf
  match AssocMap.find d.leaseSetRequests key with
  | some request =>
    let (request, found, effects) :=
      if request.excluded.length < maxNumFloodfillsPerRequest then
        (replyPeers m buf).foldl (askPeer outside key) (request, false, [])
      else (request, false, [])
    if found then (d.setRequest key request, effects)
    else
      let (d, completed) := d.finish key request none
      (d, effects ++ completed)
  -- request not found
  | none => (d, [])

end ClientDestination

/-! ### Stores -/

/-- The offset of the lease set in a store message; a reply token is ignored. -/
def leaseSetOffset (m : Mem) (buf : ℕ) : ℕ :=
  if readBE (slice m (buf + 33) 4) ≠ 0 then databaseStoreHeaderSize + 36 else databaseStoreHeaderSize

/-- The bytes of the lease set in a store message. -/
def leaseSetData (m : Mem) (buf len : ℕ) : List UInt8 :=
  slice m (buf + leaseSetOffset m buf) (len - leaseSetOffset m buf)

namespace ClientDestination

variable (crypto : Identity.Crypto) (ambient : Ambient) (d : ClientDestination)

/-- The lease set of a store message, in the map and for the request. A lease set that is not valid is
dropped. -/
def storeLeaseSet (key : Tag) (data : List UInt8) : ClientDestination × Option LeaseSet :=
  match AssocMap.find d.remoteLeaseSets key with
  | some old =>
    let leaseSet := old.update crypto ambient data
    if leaseSet.isValid then
      ({ d with remoteLeaseSets := AssocMap.assign hashKey d.remoteLeaseSets key leaseSet },
        some leaseSet)
    else ({ d with remoteLeaseSets := AssocMap.erase d.remoteLeaseSets key }, none)
  | none =>
    let leaseSet := LeaseSet.ofBuffer crypto ambient data
    if leaseSet.isValid then
      ({ d with remoteLeaseSets := AssocMap.assign hashKey d.remoteLeaseSets key leaseSet },
        some leaseSet)
    else (d, none)

/-- A message that is too short: the buffer for its length, which is below zero, cannot be made. A lease
set that is there has lost its leases by then. -/
def clearLeases (key : Tag) : ClientDestination :=
  match AssocMap.find d.remoteLeaseSets key with
  | some old => { d with
      remoteLeaseSets := AssocMap.assign hashKey d.remoteLeaseSets key { old with leases := [] } }
  | none => d

/-- `HandleDatabaseStoreMessage`. -/
def handleDatabaseStoreMessage (m : Mem) (buf len : ℕ) : ClientDestination × List Effect :=
  let key := IdentHash.ofMem m buf
  -- the type of a lease set
  let isLeaseSet := m (buf + 32) = 1
  if isLeaseSet ∧ len < leaseSetOffset m buf then (d.clearLeases key, [])
  else
    let (d, leaseSet) :=
      if isLeaseSet then d.storeLeaseSet crypto ambient key (leaseSetData m buf len) else (d, none)
    match AssocMap.find d.leaseSetRequests key with
    | some request => d.finish key request leaseSet
    | none => (d, [])

end ClientDestination

end Client
