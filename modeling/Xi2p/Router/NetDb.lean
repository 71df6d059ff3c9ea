import Xi2p.Lib.AssocMap
import Xi2p.Lib.Runs
import Xi2p.Router.LeaseSet

/-!
# The network database

`NetDb` of `core/router/net_db/impl.cc`: the maps of router infos and lease sets, the list of
floodfills, and the functions that change and search them. Router infos are objects: the map and the
list of floodfills refer to them by number, and an update of one is seen by both.

`HandleDatabaseStoreMsg` also answers and floods the message; this changes nothing in the database and
is not modelled.
-/

namespace Router

open Bytes I2NP Identity

/-- The order of `IdentHash`. -/
def hashKey (h : IdentHash) : ℕ := readBE h.bytes

theorem hashKey_injective : Function.Injective hashKey := by
  intro a b h
  apply IdentHash.ext
  rw [← writeBE_readBE a.bytes, ← writeBE_readBE b.bytes, a.length_eq, b.length_eq]
  exact congrArg (writeBE 32) h

/-- `NetDb`. -/
structure NetDb where
  /-- The router infos that have been created. -/
  routers : ℕ → RouterInfo := fun _ => {}
  /-- The number of the next router info. -/
  next : ℕ := 0
  /-- `m_RouterInfos`. -/
  routerInfos : List (IdentHash × ℕ) := []
  /-- `m_Floodfills`. -/
  floodfills : List ℕ := []
  /-- `m_LeaseSets`. -/
  leaseSets : List (IdentHash × LeaseSet) := []
  /-- The keys of `m_RequestedDestinations`. -/
  requested : List IdentHash := []

/-! ## Stores -/

/-- How a call ends. -/
inductive Result
  /-- It returns, or its exception is caught; the completed requests with their router infos. -/
  | returns (db : NetDb) (completed : List (IdentHash × ℕ))
  /-- It does not return. -/
  | hangs

/-- A call that throws: the exception is caught, and what has been done stays. -/
def Failure.result (e : Failure) (db : NetDb) : Result :=
  if e = .hangs then .hangs else .returns db []

namespace NetDb

/-- `FindRouter`. -/
def findRouter (db : NetDb) (ident : IdentHash) : Option ℕ := AssocMap.find db.routerInfos ident

/-- `FindLeaseSet`. -/
def findLeaseSet (db : NetDb) (destination : IdentHash) : Option LeaseSet :=
  AssocMap.find db.leaseSets destination

/-- A change of a router info. -/
def setRouter (db : NetDb) (r : ℕ) (info : RouterInfo) : NetDb :=
  { db with routers := Function.update db.routers r info }

/-- `m_Requests.RequestComplete`, with a router info. -/
def requestComplete (db : NetDb) (ident : IdentHash) (r : ℕ) : Result :=
  if ident ∈ db.requested then
    .returns { db with requested := db.requested.filter (· ≠ ident) } [(ident, r)]
  else .returns db []

/-- The part of `AddRouterInfo` for a router info that is not in the database. -/
def addNewRouter (db : NetDb) (info : RouterInfo) : NetDb :=
  { db with
    routers := Function.update db.routers db.next info
    next := db.next + 1
    routerInfos := AssocMap.assign hashKey db.routerInfos info.getIdentHash db.next
    floodfills :=
      if info.contents.hasFloodfill then db.floodfills ++ [db.next] else db.floodfills }

/-- `AddRouterInfo(ident, buf, len)`. -/
def addRouterInfo (env : Env) (ambient : Ambient) (db : NetDb) (ident : IdentHash)
    (data : List UInt8) : Result :=
  match db.findRouter ident with
  | some r =>
    match (db.routers r).update env ambient data with
    | (.error e, info) => e.result (db.setRouter r info)
    | (.ok _, info) => (db.setRouter r info).requestComplete ident r
  | none =>
    match RouterInfo.ofBuffer env ambient data with
    | .error e => e.result db
    | .ok (_, info) => (db.addNewRouter info).requestComplete ident db.next

/-- `AddRouterInfo(buf, len)`. -/
def addRouterInfoFromBuffer (env : Env) (ambient : Ambient) (db : NetDb) (data : List UInt8) :
    Result :=
  let (identity, identLen) :=
    IdentityEx.fromBuffer env.crypto {} (store (fun _ => 0) 0 data) 0 data.length
  if identLen = 0 then .returns db []
  else db.addRouterInfo env ambient identity.identHash data

/-- `RequestDestination`. A request without a floodfill to ask is complete at once. -/
def requestDestination (canAsk : IdentHash → Bool) (db : NetDb) (destination : IdentHash) : NetDb :=
  if destination ∈ db.requested ∨ !canAsk destination then db
  else { db with requested := destination :: db.requested }

/-- The requests for gateways of leases that are not in the database. -/
def requestGateways (canAsk : IdentHash → Bool) (db : NetDb) (leases : List Lease) : NetDb :=
  leases.foldl (fun db lease =>
    if (db.findRouter lease.tunnelGateway).isSome then db
    else db.requestDestination canAsk lease.tunnelGateway) db

/-- `AddLeaseSet`. `hasTunnel` says whether the message came through a tunnel of ours, `canAsk`
whether there is a floodfill to ask for a gateway. -/
def addLeaseSet (crypto : Crypto) (ambient : Ambient) (canAsk : IdentHash → Bool) (db : NetDb)
    (ident : IdentHash) (data : List UInt8) (hasTunnel : Bool) : NetDb :=
  -- unsolicited LS must be received directly
  if hasTunnel then db
  else
    match db.findLeaseSet ident with
    | some l =>
      let l := l.update crypto ambient data
      let db := db.requestGateways canAsk l.leases
      if l.isValid then { db with leaseSets := AssocMap.assign hashKey db.leaseSets ident l }
      else { db with leaseSets := AssocMap.erase db.leaseSets ident }
    | none =>
      let l := LeaseSet.ofBuffer crypto ambient data
      let db := db.requestGateways canAsk l.leases
      if l.isValid then { db with leaseSets := AssocMap.assign hashKey db.leaseSets ident l }
      else db

end NetDb

/-! ## Messages -/

/-- A `DatabaseStore` message. -/
structure StoreMsg where
  /-- The payload, and what stands behind it. -/
  payload : Mem
  /-- `GetSize`. -/
  size : ℕ
  /-- `from` is not null. -/
  hasTunnel : Bool

/-- What a message stores. -/
inductive Stored
  | leaseSet (ident : IdentHash) (data : List UInt8)
  | routerInfo (ident : IdentHash) (data : List UInt8)
  | nothing
  deriving DecidableEq

/-- The reading of `HandleDatabaseStoreMsg`. `gunzip` is the decompressor, and fails if it throws. -/
def StoreMsg.stored (gunzip : List UInt8 → Option (List UInt8)) (msg : StoreMsg) : Stored :=
  let ident := IdentHash.ofMem msg.payload 0
  if ident = IdentHash.zero then .nothing
  else
    let replyToken := readBE (slice msg.payload 33 4)
    -- the header, and with a reply token the tunnel ID and the gateway
    let offset := if replyToken ≠ 0 then 37 + 4 + 32 else 37
    if msg.payload 32 ≠ 0 then
      .leaseSet ident (slice msg.payload offset ((msg.size + 65536 - offset) % 65536))
    else
      let size := readBE (slice msg.payload offset 2)
      let offset := offset + 2
      if size > maxBuffer ∨ (size : ℤ) > (msg.size : ℤ) - offset then .nothing
      else
        match gunzip (slice msg.payload offset size) with
        | none => .nothing
        | some uncompressed =>
          if uncompressed.length > maxBuffer then .nothing else .routerInfo ident uncompressed

/-- `HandleDatabaseStoreMsg`. -/
def NetDb.handleDatabaseStoreMsg (env : Env) (gunzip : List UInt8 → Option (List UInt8))
    (ambient : Ambient) (canAsk : IdentHash → Bool) (db : NetDb) (msg : StoreMsg) : Result :=
  match msg.stored gunzip with
  | .nothing => .returns db []
  | .routerInfo ident data => db.addRouterInfo env ambient ident data
  | .leaseSet ident data =>
    .returns (db.addLeaseSet env.crypto ambient canAsk ident data msg.hasTunnel) []

/-! ## Saving and loading -/

namespace NetDb

/-- `Time::RouterExpiration`, in milliseconds. -/
abbrev routerExpiration : UInt64 := 3600 * 1000

/-- `Time::RouterStartupPeriod`, in seconds. -/
abbrev routerStartupPeriod : UInt64 := 600

/-- `Time::RouterMinGracePeriod`, in hours. -/
abbrev routerMinGracePeriod : UInt64 := 30

/-- `Time::RouterMaxGracePeriod`, in hours. -/
abbrev routerMaxGracePeriod : UInt64 := 72

/-- `Size::RouterUnreachableThreshold`. -/
abbrev routerUnreachableThreshold : UInt64 := 75

/-- `Size::MinRouterUnreachable`. -/
abbrev minRouterUnreachable : UInt64 := 120

/-- `Size::MaxRouterUnreachable`. -/
abbrev maxRouterUnreachable : UInt64 := 300

/-- What the file system does with the file of a router. -/
inductive DiskResult
  /-- It is written, or removed if it existed. -/
  | ok (existed : Bool)
  | throws

/-- What `SaveUpdated` finds outside. -/
structure SaveEnv where
  /-- The time, in milliseconds. -/
  ts : UInt64
  /-- `context.GetStartupTime()`, in seconds. -/
  startupTime : UInt64
  /-- `context.IsFloodfill()`. -/
  isFloodfill : Bool
  /-- The file of the router with a hash. -/
  disk : IdentHash → DiskResult

/-- The variables of `SaveUpdated`. -/
structure SaveState where
  db : NetDb
  /-- `total`. -/
  total : UInt64
  /-- `deleted_count`. -/
  deletedCount : ℕ := 0
  /-- The router infos that have been saved. -/
  saved : List ℕ := []

/-- The grace period of the routers that expire, if they do: with many routers it is shorter. -/
def gracePeriod (env : SaveEnv) (total : UInt64) : Option UInt64 :=
  if total > routerUnreachableThreshold ∧
      env.ts > (env.startupTime + routerStartupPeriod) * 1000 then
    if env.isFloodfill then some 1
    else if total > maxRouterUnreachable then some routerMinGracePeriod
    else if total > minRouterUnreachable then some routerMaxGracePeriod
    else none
  else none

/-- Whether a router that has not been updated is set to unreachable, and whether `total` is
decreased then. -/
def expires (env : SaveEnv) (total : UInt64) (r : RouterInfo) : Bool × Bool :=
  if r.contents.usesIntroducer ∧ env.ts > r.contents.timestamp + routerExpiration then (true, false)
  else
    match gracePeriod env total with
    | some hours =>
      let isOld := env.ts > r.contents.timestamp + hours * routerExpiration
      (isOld, isOld)
    | none => (false, false)

/-- Deletion from the list of floodfills. -/
def removeFloodfill (db : NetDb) (r : ℕ) : NetDb :=
  if (db.routers r).contents.hasFloodfill then
    { db with floodfills := db.floodfills.filter (· ≠ r) }
  else db

/-- The loop of `SaveUpdated` for a router info; whether it goes on. -/
def saveRouter (env : SaveEnv) (st : SaveState) (r : ℕ) : SaveState × Bool :=
  let info := st.db.routers r
  if info.isUpdated then
    -- `SaveToFile` throws if there is no buffer
    match env.disk info.getIdentHash, info.buffer with
    | .ok _, some _ =>
      let info := { info.setUnreachable false with isUpdated := false, buffer := none }
      ({ st with db := st.db.setRouter r info, saved := st.saved ++ [r] }, true)
    | _, _ => (st, false)
  else
    let (isOld, isCounted) := expires env st.total info
    let info := if isOld then info.setUnreachable true else info
    let db := st.db.setRouter r info
    let total := if isCounted then st.total - 1 else st.total
    if info.isUnreachable then
      -- delete RI file
      match env.disk info.getIdentHash with
      | .throws => ({ st with db, total := total - 1 }, false)
      | .ok existed =>
        let deletedCount := if existed then st.deletedCount + 1 else st.deletedCount
        ({ st with db := db.removeFloodfill r, total := total - 1, deletedCount }, true)
    else ({ st with db, total }, true)

/-- The loop of `SaveUpdated`; whether it ends without an exception. -/
def saveRouters (env : SaveEnv) : SaveState → List ℕ → SaveState × Bool
  | st, [] => (st, true)
  | st, r :: rest =>
    match saveRouter env st r with
    | (st, false) => (st, false)
    | (st, true) => saveRouters env st rest

/-- `SaveUpdated`: the database and the router infos that have been saved. -/
def saveUpdated (env : SaveEnv) (db : NetDb) : NetDb × List ℕ :=
  let total := UInt64.ofNat db.routerInfos.length
  let (st, completed) := saveRouters env { db, total } (db.routerInfos.map Prod.snd)
  let db := st.db
  if completed ∧ st.deletedCount ≠ 0 then
    -- clean up RouterInfos table
    let reachable := db.routerInfos.filter fun e => !(db.routers e.2).isUnreachable
    ({ db with routerInfos := reachable }, st.saved)
  else (db, st.saved)

/-- What `Load` does with a file. -/
def loadFile (env : Env) (ambient : Ambient) (ts : UInt64) (db : NetDb) (file : List UInt8) :
    Except Failure NetDb := do
  let info ← RouterInfo.ofFile env ambient file
  if !info.isUnreachable ∧
      (!info.contents.usesIntroducer ∨ ts < info.contents.timestamp + routerExpiration) then
    let info := { info with buffer := none, contents.options := [] }
    return { db with
      routers := Function.update db.routers db.next info
      next := db.next + 1
      routerInfos := AssocMap.insert hashKey db.routerInfos info.getIdentHash db.next
      floodfills :=
        if info.contents.hasFloodfill then db.floodfills ++ [db.next] else db.floodfills }
  else return db

/-- `Load`, of files in the order of the directories; an exception ends it. -/
def load (env : Env) (ts : UInt64) (db : NetDb) (files : List (Ambient × List UInt8)) :
    Option NetDb :=
  go { db with routerInfos := [], floodfills := [] } files
where
  go : NetDb → List (Ambient × List UInt8) → Option NetDb
    | db, [] => some db
    | db, (ambient, file) :: rest =>
      match db.loadFile env ambient ts file with
      | .error .hangs => none
      | .error _ => some db
      | .ok db => go db rest

/-- `ManageLeaseSets`. -/
def manageLeaseSets (ts : UInt64) (db : NetDb) : NetDb :=
  { db with leaseSets := db.leaseSets.filter fun e => e.2.hasNonExpiredLeases ts }

/-- `SetUnreachable`. -/
def setUnreachable (db : NetDb) (ident : IdentHash) (isUnreachable : Bool) : NetDb :=
  match db.findRouter ident with
  | some r => db.setRouter r ((db.routers r).setUnreachable isUnreachable)
  | none => db

/-! ## Searching -/

/-- `GetRandomRouter`, for the keys in random order. -/
def getRandomRouter (db : NetDb) (idents : List IdentHash) (filter : RouterInfo → Bool) : Option ℕ :=
  (idents.filterMap db.findRouter).find? fun r =>
    !(db.routers r).isUnreachable && filter (db.routers r)

/-- `operator^` of two hashes, as a number. -/
def metric (key₁ key₂ : IdentHash) : ℕ :=
  readBE (List.zipWith (· ^^^ ·) key₁.bytes key₂.bytes)

/-- `GetClosestFloodfill`, for a routing key. -/
def getClosestFloodfill (db : NetDb) (destKey : IdentHash) (excluded : List IdentHash) : Option ℕ :=
  (db.floodfills.foldl (fun (best : Option ℕ × ℕ) r =>
    let ident := (db.routers r).getIdentHash
    if !(db.routers r).isUnreachable ∧ metric destKey ident < best.2 ∧ ident ∉ excluded then
      (some r, metric destKey ident)
    else best) (none, 2 ^ 256 - 1)).1

/-- The loop of `GetClosestFloodfills`: the `num` closest ones, in the order of the set. -/
def sortFloodfills (db : NetDb) (destKey : IdentHash) (num : ℕ) : List ℕ :=
  db.floodfills.foldl (fun sorted r =>
    let distance r := metric destKey (db.routers r).getIdentHash
    if (db.routers r).isUnreachable then sorted
    else if sorted.length < num then KeyedSet.insert distance r sorted
    else if sorted.getLast?.any (distance r < distance ·) then
      (KeyedSet.insert distance r sorted).dropLast
    else sorted) []

/-- `GetClosestFloodfills`, for a routing key: the router infos whose hashes are returned. -/
def getClosestFloodfills (db : NetDb) (destKey : IdentHash) (num : ℕ) (excluded : List IdentHash) :
    List ℕ :=
  ((db.sortFloodfills destKey num).filter fun r =>
    (db.routers r).getIdentHash ∉ excluded).take num

/-! ## Steps -/

/-- A call that changes the database. -/
inductive Op
  | databaseStore (ambient : Ambient) (canAsk : IdentHash → Bool) (msg : StoreMsg)
  | addRouterInfo (ambient : Ambient) (ident : IdentHash) (data : List UInt8)
  | addRouterInfoFromBuffer (ambient : Ambient) (data : List UInt8)
  | addLeaseSet (ambient : Ambient) (canAsk : IdentHash → Bool) (ident : IdentHash)
    (data : List UInt8) (hasTunnel : Bool)
  | saveUpdated (save : SaveEnv)
  | load (ts : UInt64) (files : List (Ambient × List UInt8))
  | manageLeaseSets (ts : UInt64)
  | setUnreachable (ident : IdentHash) (isUnreachable : Bool)
  | requestDestination (canAsk : IdentHash → Bool) (destination : IdentHash)
  /-- `ManageRequests` gives a request up. -/
  | dropRequest (destination : IdentHash)

/-- One call. -/
def step (env : Env) (gunzip : List UInt8 → Option (List UInt8)) (db : NetDb) : Op → Result
  | .databaseStore ambient canAsk msg => db.handleDatabaseStoreMsg env gunzip ambient canAsk msg
  | .addRouterInfo ambient ident data => db.addRouterInfo env ambient ident data
  | .addRouterInfoFromBuffer ambient data => db.addRouterInfoFromBuffer env ambient data
  | .addLeaseSet ambient canAsk ident data hasTunnel =>
    .returns (db.addLeaseSet env.crypto ambient canAsk ident data hasTunnel) []
  | .saveUpdated save => .returns (db.saveUpdated save).1 []
  | .load ts files =>
    match db.load env ts files with
    | some db => .returns db []
    | none => .hangs
  | .manageLeaseSets ts => .returns (db.manageLeaseSets ts) []
  | .setUnreachable ident isUnreachable => .returns (db.setUnreachable ident isUnreachable) []
  | .requestDestination canAsk destination => .returns (db.requestDestination canAsk destination) []
  | .dropRequest destination =>
    .returns { db with requested := db.requested.filter (· ≠ destination) } []

/-! ## Runs -/

/-- The database after a call, or `none` if a call does not return. -/
def exec (env : Env) (gunzip : List UInt8 → Option (List UInt8)) (db : Option NetDb) (op : Op) :
    Option NetDb :=
  db.bind fun db =>
    match db.step env gunzip op with
    | .returns db _ => some db
    | .hangs => none

/-- A condition on the calls of a run. -/
def Allows (C : NetDb → Op → Prop) (db : Option NetDb) (op : Op) : Prop := ∀ d ∈ db, C d op

/-- A property of the ends of the calls of a run. -/
def Ends (env : Env) (gunzip : List UInt8 → Option (List UInt8)) (P : Result → Prop) :
    Option NetDb → Op → Prop :=
  Allows fun db op => P (db.step env gunzip op)

/-- What every allowed call leaves and needs holds after every call of a run. -/
theorem meets_ends_of_invariant {env : Env} {gunzip : List UInt8 → Option (List UInt8)}
    {C : NetDb → Op → Prop} {P : Result → Prop} {I : NetDb → Prop}
    (hstep : ∀ db op, I db → C db op → P (db.step env gunzip op))
    (hinv : ∀ db completed, P (.returns db completed) → I db) {db : NetDb} {ops : List Op}
    (hdb : I db) (h : Runs.Meets (exec env gunzip) (Allows C) (some db) ops) :
    Runs.Meets (exec env gunzip) (Ends env gunzip P) (some db) ops := by
  refine Runs.Meets.of_invariant (I := fun db => ∀ d ∈ db, I d) ?_ ?_ ?_ h
  · rintro db op hdb hop d hd
    obtain ⟨d₀, hd₀, hnext⟩ := Option.bind_eq_some_iff.mp hd
    have hend := hstep d₀ op (hdb d₀ hd₀) (hop d₀ hd₀)
    split at hnext
    next d₁ completed hreturns =>
      rw [hreturns] at hend
      exact Option.some.inj hnext ▸ hinv d₁ completed hend
    · cases hnext
  · exact fun db op hdb hop d hd => hstep d op (hdb d hd) (hop d hd)
  · intro d hd
    exact Option.some.inj hd ▸ hdb

/-! ## What calls leave alone -/

/-- Requests for gateways change nothing else. -/
theorem exists_requestGateways (canAsk : IdentHash → Bool) (db : NetDb) (leases : List Lease) :
    ∃ requested, db.requestGateways canAsk leases = { db with requested } := by
  induction leases generalizing db with
  | nil => exact ⟨db.requested, rfl⟩
  | cons lease leases ih =>
    rw [requestGateways, List.foldl_cons]
    split
    · exact ih db
    · obtain ⟨requested, h⟩ := ih (db.requestDestination canAsk lease.tunnelGateway)
      refine ⟨requested, h.trans ?_⟩
      unfold requestDestination
      split <;> rfl

/-- `SaveUpdated` changes only whether router infos are updated and unreachable, and their buffers, and
takes router infos from the list of floodfills. -/
structure SaveState.Keeps (st st' : SaveState) : Prop where
  next : st'.db.next = st.db.next
  routerInfos : st'.db.routerInfos = st.db.routerInfos
  leaseSets : st'.db.leaseSets = st.db.leaseSets
  floodfills : st'.db.floodfills.Sublist st.db.floodfills
  identity : ∀ r, (st'.db.routers r).identity = (st.db.routers r).identity
  hasFloodfill : ∀ r,
    (st'.db.routers r).contents.hasFloodfill = (st.db.routers r).contents.hasFloodfill

theorem SaveState.Keeps.refl (st : SaveState) : st.Keeps st :=
  ⟨rfl, rfl, rfl, .refl _, fun _ => rfl, fun _ => rfl⟩

theorem SaveState.Keeps.trans {st st' st'' : SaveState} (h : st.Keeps st') (h' : st'.Keeps st'') :
    st.Keeps st'' where
  next := h'.next.trans h.next
  routerInfos := h'.routerInfos.trans h.routerInfos
  leaseSets := h'.leaseSets.trans h.leaseSets
  floodfills := h'.floodfills.trans h.floodfills
  identity r := (h'.identity r).trans (h.identity r)
  hasFloodfill r := (h'.hasFloodfill r).trans (h.hasFloodfill r)

theorem removeFloodfill_eq (db : NetDb) (r : ℕ) :
    ∃ floodfills, floodfills.Sublist db.floodfills ∧
      db.removeFloodfill r = { db with floodfills } := by
  unfold removeFloodfill
  split
  · exact ⟨_, List.filter_sublist, rfl⟩
  · exact ⟨_, .refl _, rfl⟩

/-- A router info is changed, but not its identity and capabilities. -/
theorem SaveState.keeps_setRouter {st st' : SaveState} {r : ℕ} {info : RouterInfo}
    {floodfills : List ℕ} (hdb : st'.db = { st.db.setRouter r info with floodfills })
    (hfloodfills : floodfills.Sublist st.db.floodfills)
    (hidentity : info.identity = (st.db.routers r).identity)
    (hcaps : info.contents.hasFloodfill = (st.db.routers r).contents.hasFloodfill) :
    st.Keeps st' := by
  have hrouters : st'.db.routers = Function.update st.db.routers r info := by rw [hdb]; rfl
  refine ⟨by rw [hdb]; rfl, by rw [hdb]; rfl, by rw [hdb]; rfl, by rwa [hdb], fun r' => ?_,
    fun r' => ?_⟩
  · rw [hrouters]
    by_cases hr : r' = r
    · subst hr
      rw [Function.update_self, hidentity]
    · rw [Function.update_of_ne hr]
  · rw [hrouters]
    by_cases hr : r' = r
    · subst hr
      rw [Function.update_self, hcaps]
    · rw [Function.update_of_ne hr]

theorem keeps_saveRouter (env : SaveEnv) (st : SaveState) (r : ℕ) :
    st.Keeps (saveRouter env st r).1 := by
  unfold saveRouter
  dsimp only
  split
  · split
    · exact SaveState.keeps_setRouter rfl (.refl _) rfl rfl
    · exact .refl st
  · generalize expires env st.total (st.db.routers r) = old
    generalize hinfo : (if old.1 then (st.db.routers r).setUnreachable true else st.db.routers r) =
      info
    have hidentity : info.identity = (st.db.routers r).identity := by
      rw [← hinfo]
      split <;> rfl
    have hcaps : info.contents.hasFloodfill = (st.db.routers r).contents.hasFloodfill := by
      rw [← hinfo]
      split <;> rfl
    split
    · split
      · exact SaveState.keeps_setRouter rfl (.refl _) hidentity hcaps
      · obtain ⟨floodfills, hsublist, h⟩ := removeFloodfill_eq (st.db.setRouter r info) r
        exact SaveState.keeps_setRouter h hsublist hidentity hcaps
    · exact SaveState.keeps_setRouter rfl (.refl _) hidentity hcaps

theorem keeps_saveRouters (env : SaveEnv) (st : SaveState) (routers : List ℕ) :
    st.Keeps (saveRouters env st routers).1 := by
  induction routers generalizing st with
  | nil => exact .refl st
  | cons r rest ih =>
    have hkeeps := keeps_saveRouter env st r
    rw [saveRouters]
    split
    next st' hst' =>
      rw [hst'] at hkeeps
      exact hkeeps
    next st' hst' =>
      rw [hst'] at hkeeps
      exact hkeeps.trans (ih st')

/-- A file is left out, or its router info is put into the database. -/
theorem loadFile_cases {env : Env} {ambient : Ambient} {ts : UInt64} {db db' : NetDb}
    {file : List UInt8} (h : db.loadFile env ambient ts file = .ok db') :
    db' = db ∨ ∃ info : RouterInfo, info.isUnreachable = false ∧ db' = { db with
      routers := Function.update db.routers db.next info
      next := db.next + 1
      routerInfos := AssocMap.insert hashKey db.routerInfos info.getIdentHash db.next
      floodfills :=
        if info.contents.hasFloodfill then db.floodfills ++ [db.next] else db.floodfills } := by
  unfold loadFile at h
  cases hinfo : RouterInfo.ofFile env ambient file with
  | error e =>
    rw [hinfo] at h
    cases h
  | ok info =>
    rw [hinfo] at h
    change (if _ then _ else _) = _ at h
    split at h
    next hkept =>
      have hreachable : info.isUnreachable = false := by simpa using hkept.1
      exact .inr ⟨{ info with buffer := none, contents.options := [] }, hreachable,
        (Except.ok.inj h).symm⟩
    · exact .inl (Except.ok.inj h).symm

/-- What holds of a database without router infos and is kept by every file holds after `Load`. -/
theorem load_induction {env : Env} {ts : UInt64} {db db' : NetDb}
    {files : List (Ambient × List UInt8)} {I : NetDb → Prop}
    (hempty : I { db with routerInfos := [], floodfills := [] })
    (hfile : ∀ {db db' : NetDb} {ambient file},
      I db → db.loadFile env ambient ts file = .ok db' → I db')
    (h : db.load env ts files = some db') : I db' := by
  unfold load at h
  generalize ({ db with routerInfos := [], floodfills := [] } : NetDb) = start at hempty h
  induction files generalizing start with
  | nil => exact Option.some.inj h ▸ hempty
  | cons file rest ih =>
    rw [load.go] at h
    split at h
    · cases h
    · exact Option.some.inj h ▸ hempty
    next db₁ hload => exact ih db₁ (hfile hempty hload) h

end NetDb

/-! ## Example data -/

theorem length_replicate_ident (byte : UInt8) : (List.replicate 32 byte).length = 32 :=
  List.length_replicate

/-- A hash with one byte in all places. -/
def exampleIdent (byte : UInt8) : IdentHash :=
  ⟨List.replicate 32 byte, length_replicate_ident byte⟩

/-- The hash of an identity has its first byte in all places, and a signature is valid if it starts
with a one. -/
def exampleEnv : Env where
  crypto :=
    { sha256 := fun bytes => exampleIdent (bytes.headD 0)
      verify := fun _ _ _ signature => signature.headD 0 = 1 }
  parse :=
    { fromString := fun _ => .error true
      lexicalCast16 := fun _ => none
      lexicalCast32 := fun _ => none
      base64Decode := fun _ => none }

/-- Memory that is zero. -/
def exampleAmbient : Ambient where
  junk _ := 0
  outside _ := 0
  fuel := 4

/-- A router info without addresses, with a timestamp, an option with capabilities and a signature. -/
def exampleRouterInfo (ident timestamp : UInt8) (caps : List UInt8) (signature : UInt8) :
    List UInt8 :=
  let identity := ident :: List.replicate 386 0
  let option := (4 :: trait "caps") ++ [61, UInt8.ofNat caps.length] ++ caps ++ [59]
  identity ++ (List.replicate 7 0 ++ [timestamp]) ++ [0, 0] ++ [0, UInt8.ofNat option.length] ++
    option ++ (signature :: List.replicate 39 0)

/-- A lease set with one lease. -/
def exampleLeaseSet (ident signature : UInt8) : List UInt8 :=
  let identity := ident :: List.replicate 386 0
  identity ++ List.replicate 384 0 ++ [1] ++ List.replicate 44 0 ++
    (signature :: List.replicate 39 0)

/-- The message that stores a lease set. -/
def exampleLeaseSetStore (key : IdentHash) (leaseSet : List UInt8) : StoreMsg where
  payload := store (fun _ => 0) 0 (key.bytes ++ [1] ++ List.replicate 4 0 ++ leaseSet)
  size := 37 + leaseSet.length
  hasTunnel := false

theorem stored_exampleLeaseSetStore (gunzip : List UInt8 → Option (List UInt8)) {key : IdentHash}
    {leaseSet : List UInt8} (hkey : key ≠ IdentHash.zero) (hlen : leaseSet.length < 65536) :
    (exampleLeaseSetStore key leaseSet).stored gunzip = .leaseSet key leaseSet := by
  have hstands : StandsAt (exampleLeaseSetStore key leaseSet).payload 0
      (key.bytes ++ [1] ++ List.replicate 4 0 ++ leaseSet) := standsAt_store (fun _ => 0) 0 _
  generalize hpayload : (exampleLeaseSetStore key leaseSet).payload = payload at hstands
  simp only [standsAt_append, standsAt_cons, List.length_append, List.length_replicate,
    List.length_singleton, IdentHash.length_eq] at hstands
  obtain ⟨⟨⟨hident, htype, -⟩, htoken⟩, hdata⟩ := hstands
  have hident : IdentHash.ofMem payload 0 = key := IdentHash.ext (by
    show slice payload 0 32 = key.bytes
    rw [← key.length_eq]
    exact hident)
  have htoken : readBE (slice payload 33 4) = 0 := by
    rw [show slice payload 33 4 = [0, 0, 0, 0] from htoken]
    decide
  have hsize : (37 + leaseSet.length + 65499) % 65536 = leaseSet.length := by omega
  have hdata : slice payload 37 leaseSet.length = leaseSet := hdata
  have htype : payload 32 = 1 := htype
  have hmsg : (exampleLeaseSetStore key leaseSet).size = 37 + leaseSet.length := rfl
  simp [StoreMsg.stored, hpayload, hident, hkey, htoken, htype, hmsg, hsize, hdata]

end Router
