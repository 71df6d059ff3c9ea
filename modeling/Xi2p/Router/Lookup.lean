import Xi2p.Router.NetDb

/-!
# Database lookups

The writers `CreateRouterInfoDatabaseLookupMsg` and `CreateLeaseSetDatabaseLookupMsg` of
`core/router/i2np.cc` and the reader `HandleDatabaseLookupMsg` of `core/router/net_db/impl.cc`.

The reader takes the reply tunnel from the position of the flag, one byte in front of where it was
written, and takes the session key of an encrypted reply from behind the excluded peers only if it has
read these, that is, only if it had to search.

* `NetDb.answersAsWritten_iff`: when a lookup is answered as it was written.
-/

namespace Router

open Bytes I2NP Identity

/-! ## Flags -/

/-- `DATABASE_LOOKUP_DELIVERY_FLAG`. -/
abbrev lookupDeliveryFlag : UInt8 := 0x01

/-- `DATABASE_LOOKUP_ENCYPTION_FLAG`. -/
abbrev lookupEncryptionFlag : UInt8 := 0x02

/-- `DATABASE_LOOKUP_TYPE_FLAGS_MASK`. -/
abbrev lookupTypeFlagsMask : UInt8 := 0x0C

/-- `DATABASE_LOOKUP_TYPE_NORMAL_LOOKUP`. -/
abbrev lookupTypeNormal : UInt8 := 0x00

/-- `DATABASE_LOOKUP_TYPE_LEASESET_LOOKUP`. -/
abbrev lookupTypeLeaseSet : UInt8 := 0x04

/-- `DATABASE_LOOKUP_TYPE_ROUTERINFO_LOOKUP`. -/
abbrev lookupTypeRouterInfo : UInt8 := 0x08

/-- `DATABASE_LOOKUP_TYPE_EXPLORATORY_LOOKUP`. -/
abbrev lookupTypeExploratory : UInt8 := 0x0C

/-- `Size::MaxExcludedPeers`. -/
abbrev maxExcludedPeers : ℕ := 512

/-! ## Writers -/

/-- The number of excluded peers and their hashes. -/
def excludedBytes (excluded : List IdentHash) : List UInt8 :=
  writeU16 (UInt16.ofNat excluded.length) ++ excluded.flatMap IdentHash.bytes

/-- The flag of a lookup of a router info. -/
def routerInfoFlag (replyTunnelID : UInt32) (exploratory : Bool) : UInt8 :=
  let flag := if exploratory then lookupTypeExploratory else lookupTypeRouterInfo
  if replyTunnelID ≠ 0 then flag ||| lookupDeliveryFlag else flag

/-- `CreateRouterInfoDatabaseLookupMsg`: the payload. Without a set of excluded peers their number is
written as zero. -/
def createRouterInfoDatabaseLookupMsg (key sender : IdentHash) (replyTunnelID : UInt32)
    (exploratory : Bool) (excludedPeers : Option (List IdentHash)) : List UInt8 :=
  key.bytes ++ sender.bytes ++ [routerInfoFlag replyTunnelID exploratory] ++
    (if replyTunnelID ≠ 0 then writeU32 replyTunnelID else []) ++
    excludedBytes (excludedPeers.getD [])

/-- The flag of a lookup of a lease set. -/
abbrev leaseSetFlag : UInt8 := lookupDeliveryFlag ||| lookupEncryptionFlag ||| lookupTypeLeaseSet

/-- `CreateLeaseSetDatabaseLookupMsg`: the payload. `gateway` and `nextTunnelID` are those of the reply
tunnel. -/
def createLeaseSetDatabaseLookupMsg (dest : IdentHash) (excludedFloodfills : List IdentHash)
    (gateway : IdentHash) (nextTunnelID : UInt32) (replyKey replyTag : IdentHash) : List UInt8 :=
  dest.bytes ++ gateway.bytes ++ [leaseSetFlag] ++ writeU32 nextTunnelID ++
    excludedBytes excludedFloodfills ++
    -- encryption, with one tag
    (replyKey.bytes ++ [1] ++ replyTag.bytes)

/-! ## Answers -/

/-- What `HandleDatabaseLookupMsg` finds outside. -/
structure LookupEnv where
  /-- `CreateRoutingKey`. -/
  routingKey : IdentHash → IdentHash
  /-- The buffer of a router info can be loaded; otherwise `LoadBuffer` throws. -/
  loads : ℕ → Bool

/-- The reply message. -/
inductive LookupReply
  /-- `CreateDatabaseStoreMsg` of a router info. -/
  | routerInfo (r : ℕ)
  /-- `CreateDatabaseStoreMsg` of a lease set. -/
  | leaseSet (l : LeaseSet)
  /-- `CreateDatabaseSearchReply`. -/
  | searchReply (ident : IdentHash) (routers : List IdentHash)

namespace NetDb

/-- `GetClosestNonFloodfill`, for a routing key. -/
def getClosestNonFloodfill (db : NetDb) (destKey : IdentHash) (excluded : List IdentHash) :
    Option ℕ :=
  (db.routerInfos.foldl (fun (best : Option ℕ × ℕ) e =>
    if !(db.routers e.2).contents.hasFloodfill ∧ metric destKey e.1 < best.2 ∧ e.1 ∉ excluded then
      (some e.2, metric destKey e.1)
    else best) (none, 2 ^ 256 - 1)).1

/-- The loop that collects routers for an exploratory lookup. -/
def exploratoryRouters (db : NetDb) (destKey : IdentHash) : ℕ → List IdentHash → List IdentHash
  | 0, _ => []
  | n + 1, excluded =>
    match db.getClosestNonFloodfill destKey excluded with
    | some r =>
      let ident := (db.routers r).getIdentHash
      ident :: exploratoryRouters db destKey n (excluded ++ [ident])
    | none => exploratoryRouters db destKey n excluded

/-- What is found under a key for a type of lookup; an error is an exception. -/
def lookupEntry (env : LookupEnv) (db : NetDb) (lookupType : UInt8) (ident : IdentHash) :
    Except Unit (Option LookupReply) :=
  let leaseSet : Option LookupReply :=
    if lookupType = lookupTypeLeaseSet ∨ lookupType = lookupTypeNormal then
      (db.findLeaseSet ident).map .leaseSet
    else none
  if lookupType = lookupTypeRouterInfo ∨ lookupType = lookupTypeNormal then
    match db.findRouter ident with
    | some r => if env.loads r then .ok (some (.routerInfo r)) else .error ()
    | none => .ok leaseSet
  else .ok leaseSet

/-- The lookup needs the excluded peers. -/
def searches (env : LookupEnv) (db : NetDb) (lookupType : UInt8) (ident : IdentHash) : Bool :=
  lookupType = lookupTypeExploratory ||
    match db.lookupEntry env lookupType ident with
    | .ok none => true
    | _ => false

/-- The answer to a lookup, given the excluded peers; none if an exception is thrown. -/
def answer (env : LookupEnv) (db : NetDb) (lookupType : UInt8) (ident : IdentHash)
    (excluded : List IdentHash) : Option LookupReply :=
  if lookupType = lookupTypeExploratory then
    some (.searchReply ident (db.exploratoryRouters (env.routingKey ident) 3 excluded))
  else
    match db.lookupEntry env lookupType ident with
    | .error _ => none
    | .ok (some reply) => some reply
    | .ok none =>
      some (.searchReply ident ((db.getClosestFloodfills (env.routingKey ident) 3 excluded).map
        fun r => (db.routers r).getIdentHash))

end NetDb

/-! ## The reader -/

/-- A reply on its way. -/
structure LookupSent where
  /-- The router it goes to, the gateway of the tunnel if there is one. -/
  receiver : IdentHash
  /-- The tunnel at that router, or zero. -/
  replyTunnelID : UInt32
  reply : LookupReply
  /-- The session key and the tag of the garlic message it is wrapped in. -/
  wrapped : Option (IdentHash × IdentHash)

/-- Read a hash, key or tag. -/
def readHash (m : Mem) (pos : ℕ) : Traced IdentHash := do
  let _bytes ← Traced.read m pos 32
  return IdentHash.ofMem m pos

@[simp]
theorem val_readHash (m : Mem) (pos : ℕ) : (readHash m pos).val = IdentHash.ofMem m pos := rfl

/-- The loop that reads excluded peers. -/
def readExcluded (m : Mem) (pos n : ℕ) : Traced (List IdentHash) := do
  Traced.touch pos (32 * n)
  return (List.range n).map fun i => IdentHash.ofMem m (pos + 32 * i)

/-- The session key and the tag of an encrypted reply, if there is a tag. -/
def readSession (m : Mem) (sessionKey : ℕ) : Traced (Option (IdentHash × IdentHash)) := do
  let numTags ← Traced.readByte m (sessionKey + 32)
  if numTags ≠ 0 then
    let key ← readHash m sessionKey
    -- take first tag
    let tag ← readHash m (sessionKey + 33)
    return some (key, tag)
  else return none

namespace NetDb

/-- `HandleDatabaseLookupMsg`, on the payload `m`. -/
def handleDatabaseLookupMsg (env : LookupEnv) (db : NetDb) (m : Mem) :
    Traced (Option LookupSent) := do
  let ident ← readHash m 0
  if ident = IdentHash.zero then return none
  let flag ← Traced.readByte m 64
  let lookupType := flag &&& lookupTypeFlagsMask
  let isDelivery : Bool := flag &&& lookupDeliveryFlag ≠ 0
  -- reply to tunnel
  let replyTunnelID ← Traced.readIf isDelivery (Traced.read m 64 4) []
  let replyTunnelID := readU32 replyTunnelID
  let excluded := if isDelivery then 69 else 65
  let numExcluded ← Traced.read m excluded 2
  let excluded := excluded + 2
  let numExcluded := if readBE numExcluded > maxExcludedPeers then 0 else readBE numExcluded
  let searches := db.searches env lookupType ident
  let excludedRouters ← Traced.readIf searches (readExcluded m excluded numExcluded) []
  -- the list is walked only for a search
  let excluded := if searches then excluded + 32 * numExcluded else excluded
  match db.answer env lookupType ident excludedRouters with
  | none => return none
  | some reply =>
    -- encryption might be used though tunnel only
    let isEncrypted : Bool := replyTunnelID ≠ 0 && flag &&& lookupEncryptionFlag ≠ 0
    let wrapped ← Traced.readIf isEncrypted (readSession m excluded) none
    let receiver ← readHash m 32
    return some { receiver, replyTunnelID, reply, wrapped }

end NetDb

/-! ## Lookups -/

/-- The arguments of the two writers. -/
inductive Lookup
  | routerInfo (key sender : IdentHash) (replyTunnelID : UInt32) (exploratory : Bool)
    (excludedPeers : Option (List IdentHash))
  | leaseSet (dest : IdentHash) (excludedFloodfills : List IdentHash) (gateway : IdentHash)
    (nextTunnelID : UInt32) (replyKey replyTag : IdentHash)

namespace Lookup

/-- The payload that is written. -/
def payload : Lookup → List UInt8
  | routerInfo key sender replyTunnelID exploratory excludedPeers =>
    createRouterInfoDatabaseLookupMsg key sender replyTunnelID exploratory excludedPeers
  | leaseSet dest excludedFloodfills gateway nextTunnelID replyKey replyTag =>
    createLeaseSetDatabaseLookupMsg dest excludedFloodfills gateway nextTunnelID replyKey replyTag

/-- The key that is looked up. -/
def key : Lookup → IdentHash
  | routerInfo key _ _ _ _ => key
  | leaseSet dest _ _ _ _ _ => dest

/-- The router that the reply goes to. -/
def replyTo : Lookup → IdentHash
  | routerInfo _ sender _ _ _ => sender
  | leaseSet _ _ gateway _ _ _ => gateway

/-- The tunnel that the reply goes to, or zero. -/
def replyTunnelID : Lookup → UInt32
  | routerInfo _ _ replyTunnelID _ _ => replyTunnelID
  | leaseSet _ _ _ nextTunnelID _ _ => nextTunnelID

/-- The type of the lookup. -/
def lookupType : Lookup → UInt8
  | routerInfo _ _ _ exploratory _ =>
    if exploratory then lookupTypeExploratory else lookupTypeRouterInfo
  | leaseSet .. => lookupTypeLeaseSet

/-- The excluded peers. -/
def excluded : Lookup → List IdentHash
  | routerInfo _ _ _ _ excludedPeers => excludedPeers.getD []
  | leaseSet _ excludedFloodfills _ _ _ _ => excludedFloodfills

/-- The session key and the tag for the reply. -/
def session : Lookup → Option (IdentHash × IdentHash)
  | routerInfo .. => none
  | leaseSet _ _ _ _ replyKey replyTag => some (replyKey, replyTag)

/-- The flag that is written. -/
def flag : Lookup → UInt8
  | routerInfo _ _ replyTunnelID exploratory _ => routerInfoFlag replyTunnelID exploratory
  | leaseSet .. => leaseSetFlag

/-- The reply goes to a tunnel. -/
def isDelivery : Lookup → Bool
  | routerInfo _ _ replyTunnelID _ _ => replyTunnelID ≠ 0
  | leaseSet .. => true

/-- What is written behind the excluded peers. -/
def sessionBytes (lookup : Lookup) : List UInt8 :=
  match lookup.session with
  | some (key, tag) => key.bytes ++ [1] ++ tag.bytes
  | none => []

theorem payload_eq (lookup : Lookup) :
    lookup.payload = lookup.key.bytes ++ lookup.replyTo.bytes ++ [lookup.flag] ++
      (if lookup.isDelivery then writeU32 lookup.replyTunnelID else []) ++
      excludedBytes lookup.excluded ++ lookup.sessionBytes := by
  cases lookup with
  | routerInfo key sender replyTunnelID exploratory excludedPeers =>
    simp [payload, createRouterInfoDatabaseLookupMsg, Lookup.key, replyTo, flag, isDelivery,
      Lookup.replyTunnelID, excluded, sessionBytes, session]
  | leaseSet dest excludedFloodfills gateway nextTunnelID replyKey replyTag =>
    simp [payload, createLeaseSetDatabaseLookupMsg, Lookup.key, replyTo, flag, isDelivery,
      Lookup.replyTunnelID, excluded, sessionBytes, session]

/-- The flag says what it should. -/
theorem flag_spec (lookup : Lookup) :
    lookup.flag &&& lookupTypeFlagsMask = lookup.lookupType ∧
      (lookup.flag &&& lookupDeliveryFlag ≠ 0 ↔ lookup.isDelivery) ∧
      (lookup.flag &&& lookupEncryptionFlag ≠ 0 ↔ lookup.session.isSome) := by
  cases lookup with
  | routerInfo key sender replyTunnelID exploratory excludedPeers =>
    by_cases hzero : replyTunnelID = 0
    · cases exploratory <;>
        simp only [flag, routerInfoFlag, lookupType, isDelivery, session, hzero] <;> decide
    · cases exploratory <;>
        simp [flag, routerInfoFlag, lookupType, isDelivery, session, hzero] <;> decide
  | leaseSet dest excludedFloodfills gateway nextTunnelID replyKey replyTag =>
    simp only [flag, lookupType, isDelivery, session, Option.isSome_some]
    decide

/-- Where the number of excluded peers stands. -/
def excludedPos (lookup : Lookup) : ℕ := if lookup.isDelivery then 69 else 65

/-- The parts of a payload stand where the reader looks for them. -/
structure Laid (lookup : Lookup) (m : Mem) : Prop where
  key : IdentHash.ofMem m 0 = lookup.key
  replyTo : IdentHash.ofMem m 32 = lookup.replyTo
  flag : m 64 = lookup.flag
  replyTunnelID : lookup.isDelivery → StandsAt m 65 (writeU32 lookup.replyTunnelID)
  numExcluded : StandsAt m lookup.excludedPos (writeU16 (UInt16.ofNat lookup.excluded.length))
  excluded : StandsAt m (lookup.excludedPos + 2)
    (lookup.excluded.flatMap IdentHash.bytes ++ lookup.sessionBytes)

theorem ofMem_of_standsAt {m : Mem} {pos : ℕ} {h : IdentHash} (hstands : StandsAt m pos h.bytes) :
    IdentHash.ofMem m pos = h := by
  apply IdentHash.ext
  show slice m pos 32 = h.bytes
  rw [← h.length_eq]
  exact hstands

theorem laid_of_standsAt {lookup : Lookup} {m : Mem} (h : StandsAt m 0 lookup.payload) :
    Laid lookup m := by
  rw [payload_eq, excludedBytes] at h
  simp only [standsAt_append, standsAt_cons, List.length_append, IdentHash.length_eq,
    List.length_singleton, Nat.zero_add, length_writeU16] at h
  obtain ⟨⟨⟨⟨⟨hkey, hreplyTo⟩, hflag, -⟩, htunnel⟩, hnum, hexcluded⟩, hsession⟩ := h
  have hpos : 32 + 32 + 1 + (if lookup.isDelivery then writeU32 lookup.replyTunnelID else []).length =
      lookup.excludedPos := by
    unfold excludedPos
    split <;> simp
  rw [hpos] at hnum hexcluded hsession
  refine ⟨ofMem_of_standsAt hkey, ofMem_of_standsAt hreplyTo, hflag, fun hdelivery => ?_, hnum, ?_⟩
  · rw [if_pos hdelivery] at htunnel
    exact htunnel
  · refine standsAt_append.mpr ⟨hexcluded, ?_⟩
    rw [Nat.add_assoc]
    exact hsession

/-- The excluded peers are read back. -/
theorem map_ofMem_of_standsAt {m : Mem} {pos : ℕ} {hashes : List IdentHash}
    (h : StandsAt m pos (hashes.flatMap IdentHash.bytes)) :
    ((List.range hashes.length).map fun i => IdentHash.ofMem m (pos + 32 * i)) = hashes := by
  induction hashes generalizing pos with
  | nil => rfl
  | cons hash hashes ih =>
    rw [List.flatMap_cons, standsAt_append, IdentHash.length_eq] at h
    rw [List.length_cons, List.range_succ_eq_map, List.map_cons, List.map_map]
    refine congrArg₂ _ (ofMem_of_standsAt h.1) (Eq.trans ?_ (ih h.2))
    refine List.map_congr_left fun i _ => congrArg (IdentHash.ofMem m) ?_
    simp only [Nat.succ_eq_add_one]
    omega

/-- The reply tunnel as it is read: the flag and the first three bytes. -/
def tunnelRead (lookup : Lookup) : UInt32 :=
  if lookup.isDelivery then readU32 (lookup.flag :: (writeU32 lookup.replyTunnelID).take 3) else 0

theorem readU32_tunnel {lookup : Lookup} {m : Mem} (h : Laid lookup m) :
    readU32 (if lookup.isDelivery then slice m 64 4 else []) = lookup.tunnelRead := by
  unfold tunnelRead
  split
  next hdelivery =>
    have hbytes : slice m 65 4 = writeU32 lookup.replyTunnelID := h.replyTunnelID hdelivery
    have hthree : slice m 65 3 = (writeU32 lookup.replyTunnelID).take 3 := by
      rw [← hbytes, show (4 : ℕ) = 3 + 1 from rfl, slice_add]
      simp
    rw [show (4 : ℕ) = 3 + 1 from rfl, slice_succ, h.flag, hthree]
  · rfl

/-- The reply tunnel is read as it was written only if all its bytes are the flag. -/
theorem tunnelRead_eq_iff (lookup : Lookup) :
    lookup.tunnelRead = lookup.replyTunnelID ↔
      (lookup.isDelivery → writeU32 lookup.replyTunnelID = List.replicate 4 lookup.flag) := by
  have hbytes : ∃ a b c d, writeU32 lookup.replyTunnelID = [a, b, c, d] := by
    have hlen := length_writeU32 lookup.replyTunnelID
    match hmatch : writeU32 lookup.replyTunnelID, hlen with
    | [a, b, c, d], _ => exact ⟨a, b, c, d, rfl⟩
  obtain ⟨a, b, c, d, hbytes⟩ := hbytes
  unfold tunnelRead
  split
  next hdelivery =>
    rw [hbytes]
    generalize lookup.flag = flag
    have hread : readU32 [flag, a, b, c] = lookup.replyTunnelID ↔
        [flag, a, b, c] = [a, b, c, d] := by
      rw [← hbytes]
      constructor
      · intro h
        rw [← h, writeU32_readU32 rfl]
      · intro h
        rw [h, readU32_writeU32]
    refine hread.trans ⟨fun h _ => ?_, fun h => ?_⟩
    · -- each byte is the one in front of it
      obtain ⟨rfl, hb, hc, hd⟩ : flag = a ∧ a = b ∧ b = c ∧ c = d := by
        simpa only [List.cons.injEq, and_true] using h
      rw [← hd, ← hc, ← hb]
      rfl
    · have hflag : [a, b, c, d] = [flag, flag, flag, flag] := h hdelivery
      obtain ⟨rfl, rfl, rfl, rfl⟩ : a = flag ∧ b = flag ∧ c = flag ∧ d = flag := by
        simpa only [List.cons.injEq, and_true] using hflag
      rfl
  next hdelivery =>
    refine iff_of_true ?_ fun h => absurd h hdelivery
    cases lookup with
    | routerInfo key sender replyTunnelID exploratory excludedPeers =>
      have hzero : replyTunnelID = 0 := by simpa [isDelivery] using hdelivery
      exact hzero.symm
    | leaseSet dest excludedFloodfills gateway nextTunnelID replyKey replyTag =>
      exact absurd rfl hdelivery

/-- A tunnel that is read is never zero, since the flag is its highest byte. -/
theorem tunnelRead_ne_zero {lookup : Lookup} (h : lookup.isDelivery) : lookup.tunnelRead ≠ 0 := by
  intro hzero
  rw [tunnelRead, if_pos h] at hzero
  have hlength : (lookup.flag :: (writeU32 lookup.replyTunnelID).take 3).length = 4 := by simp
  have hbytes := writeU32_readU32 hlength
  rw [hzero] at hbytes
  have hflag : lookup.flag = 0 := (List.cons.inj hbytes).1.symm
  refine lookup.flag_spec.2.1.mpr h ?_
  rw [hflag]
  rfl

theorem isDelivery_of_session {lookup : Lookup} (h : lookup.session.isSome) :
    lookup.isDelivery := by
  cases lookup with
  | routerInfo key sender replyTunnelID exploratory excludedPeers => cases h
  | leaseSet dest excludedFloodfills gateway nextTunnelID replyKey replyTag => rfl

/-- What stands where the reader looks for the session key. The excluded peers are in front of it
unless they have been read. -/
def sessionBlock (lookup : Lookup) (searches : Bool) : List UInt8 :=
  (if searches then [] else lookup.excluded.flatMap IdentHash.bytes) ++ lookup.sessionBytes

/-- The reader finds the session key and the tag: it has read the excluded peers, or what stands in
front happens to be the same. -/
def SessionFound (lookup : Lookup) (searches : Bool) : Prop :=
  ∀ key tag, lookup.session = some (key, tag) → searches ∨
    (lookup.sessionBlock false).take 32 = key.bytes ∧
      (lookup.sessionBlock false)[32]? ≠ some 0 ∧
      ((lookup.sessionBlock false).drop 33).take 32 = tag.bytes

/-- Where the reader looks for the session key. -/
def sessionPos (lookup : Lookup) (searches : Bool) : ℕ :=
  lookup.excludedPos + 2 + if searches then 32 * lookup.excluded.length else 0

theorem length_flatMap_bytes (hashes : List IdentHash) :
    (hashes.flatMap IdentHash.bytes).length = 32 * hashes.length := by
  induction hashes with
  | nil => rfl
  | cons hash hashes ih =>
    rw [List.flatMap_cons, List.length_append, IdentHash.length_eq, ih, List.length_cons]
    omega

theorem standsAt_sessionBlock {lookup : Lookup} {m : Mem} (h : Laid lookup m) (searches : Bool) :
    StandsAt m (lookup.sessionPos searches) (lookup.sessionBlock searches) := by
  cases searches with
  | false => exact h.excluded
  | true =>
    have hsession := (standsAt_append.mp h.excluded).2
    rw [length_flatMap_bytes] at hsession
    exact hsession

theorem val_readSession_eq_some_iff {m : Mem} {pos : ℕ} {bs : List UInt8} (h : StandsAt m pos bs)
    (hlen : 65 ≤ bs.length) (key tag : IdentHash) :
    (readSession m pos).val = some (key, tag) ↔
      bs.take 32 = key.bytes ∧ bs[32]? ≠ some 0 ∧ (bs.drop 33).take 32 = tag.bytes := by
  have hkey : slice m pos 32 = bs.take 32 := h.slice_eq (k := 0) (by omega)
  have htag : slice m (pos + 33) 32 = (bs.drop 33).take 32 := h.slice_eq (by omega)
  have hnum : bs[32]? = some (m (pos + 32)) := by
    rw [← h]
    exact getElem?_slice m (by omega)
  have hofMem : ∀ p hash, IdentHash.ofMem m p = hash ↔ slice m p 32 = hash.bytes :=
    fun p hash => ⟨fun heq => heq ▸ rfl, fun heq => IdentHash.ext heq⟩
  rw [← hkey, ← htag, hnum, ← hofMem, ← hofMem]
  by_cases hzero : m (pos + 32) = 0
  · simp [readSession, readHash, hzero]
  · simp [readSession, readHash, hzero]

theorem sessionFound_iff {lookup : Lookup} {m : Mem} (h : Laid lookup m) (searches : Bool) :
    (if lookup.session.isSome then (readSession m (lookup.sessionPos searches)).val else none) =
      lookup.session ↔ lookup.SessionFound searches := by
  have hstands := standsAt_sessionBlock h searches
  cases hsession : lookup.session with
  | none => simp [SessionFound, hsession]
  | some session =>
    obtain ⟨key, tag⟩ := session
    have hbytes : lookup.sessionBytes = key.bytes ++ [1] ++ tag.bytes := by
      rw [sessionBytes, hsession]
    have hlength : 65 ≤ (lookup.sessionBlock searches).length := by
      simp [sessionBlock, hbytes]
    rw [Option.isSome_some, if_pos rfl, val_readSession_eq_some_iff hstands hlength]
    cases searches with
    | false => simp [SessionFound, hsession]
    | true =>
      refine iff_of_true ?_ fun _ _ _ => Or.inl rfl
      have hblock : lookup.sessionBlock true = key.bytes ++ ([1] ++ tag.bytes) := by
        rw [sessionBlock, hbytes, if_pos rfl, List.nil_append, List.append_assoc]
      rw [hblock]
      have hdrop : (key.bytes ++ ([1] ++ tag.bytes)).drop 33 = tag.bytes := by
        rw [List.drop_append, key.length_eq, List.drop_of_length_le (by simp)]
        rfl
      refine ⟨?_, ?_, ?_⟩
      · rw [← key.length_eq, List.take_left]
      · rw [List.getElem?_append_right (by simp), key.length_eq]
        simp
      · rw [hdrop, ← tag.length_eq, List.take_length]

end Lookup

namespace NetDb

variable (env : LookupEnv) (db : NetDb)

/-- Without a search the excluded peers do not matter. -/
theorem answer_of_not_searches {lookupType : UInt8} {ident : IdentHash}
    (h : db.searches env lookupType ident = false) (excluded excluded' : List IdentHash) :
    db.answer env lookupType ident excluded = db.answer env lookupType ident excluded' := by
  unfold searches at h
  simp only [Bool.or_eq_false_iff, decide_eq_false_iff_not] at h
  unfold answer
  rw [if_neg h.1, if_neg h.1]
  have hentry := h.2
  split
  · rfl
  · rfl
  next hnone =>
    rw [hnone] at hentry
    cases hentry

/-- What the reader makes of a written lookup. -/
theorem val_handleDatabaseLookupMsg {lookup : Lookup} {m : Mem} (h : lookup.Laid m)
    (hcount : lookup.excluded.length ≤ maxExcludedPeers) :
    (db.handleDatabaseLookupMsg env m).val =
      if lookup.key = IdentHash.zero then none
      else (db.answer env lookup.lookupType lookup.key lookup.excluded).map fun reply =>
        { receiver := lookup.replyTo
          replyTunnelID := lookup.tunnelRead
          reply := reply
          wrapped :=
            if lookup.session.isSome then
              (readSession m
                (lookup.sessionPos (db.searches env lookup.lookupType lookup.key))).val
            else none } := by
  obtain ⟨htype, hdelivery, hencryption⟩ := lookup.flag_spec
  have hdelivery : decide (lookup.flag &&& lookupDeliveryFlag ≠ 0) = lookup.isDelivery := by
    rw [Bool.eq_iff_iff, decide_eq_true_iff, hdelivery]
  have hnum : readBE (slice m lookup.excludedPos 2) = lookup.excluded.length := by
    have hstands : slice m lookup.excludedPos 2 =
        writeU16 (UInt16.ofNat lookup.excluded.length) := h.numExcluded
    simp only [maxExcludedPeers] at hcount
    rw [hstands, writeU16, readBE_writeBE, UInt16.toNat_ofNat']
    omega
  have hexcluded : (readExcluded m (lookup.excludedPos + 2) lookup.excluded.length).val =
      lookup.excluded :=
    Lookup.map_ofMem_of_standsAt (standsAt_append.mp h.excluded).1
  have hanswer : db.answer env lookup.lookupType lookup.key
      (if db.searches env lookup.lookupType lookup.key then lookup.excluded else []) =
        db.answer env lookup.lookupType lookup.key lookup.excluded := by
    split
    · rfl
    next hsearches => exact answer_of_not_searches env db (by simpa using hsearches) _ _
  have hpos : (if lookup.isDelivery then 69 else 65) = lookup.excludedPos := rfl
  have hsession : (if db.searches env lookup.lookupType lookup.key then
      lookup.excludedPos + 2 + 32 * lookup.excluded.length else lookup.excludedPos + 2) =
        lookup.sessionPos (db.searches env lookup.lookupType lookup.key) := by
    unfold Lookup.sessionPos
    split <;> rfl
  -- the reply is wrapped if there is a session, since a session comes with a tunnel
  have hwrapped : (decide (lookup.tunnelRead ≠ 0) &&
      decide (lookup.flag &&& lookupEncryptionFlag ≠ 0)) = lookup.session.isSome := by
    rw [Bool.eq_iff_iff, Bool.and_eq_true, decide_eq_true_iff, decide_eq_true_iff, hencryption]
    exact ⟨fun hboth => hboth.2, fun hsome =>
      ⟨Lookup.tunnelRead_ne_zero (Lookup.isDelivery_of_session hsome), hsome⟩⟩
  unfold handleDatabaseLookupMsg
  simp only [Traced.val_bind, val_readHash, h.key]
  split
  · rfl
  · simp only [Traced.val_bind, Traced.val_readByte, Traced.val_readIf, Traced.val_read, h.flag,
      htype, hdelivery, Lookup.readU32_tunnel h, hpos, hnum, hexcluded, hanswer, hsession,
      if_neg (Nat.not_lt.mpr hcount)]
    split
    next hnone => rw [hnone]; rfl
    next reply hreply =>
      rw [hreply]
      simp only [Traced.val_bind, Traced.val_readIf, val_readHash, Traced.val_pure, hwrapped,
        h.replyTo, Option.map_some]

/-- The handler uses the key, the reply router, the reply tunnel, the excluded peers and the session
that were written. -/
def AnswersAsWritten (lookup : Lookup) (m : Mem) : Prop :=
  (db.handleDatabaseLookupMsg env m).val =
    (db.answer env lookup.lookupType lookup.key lookup.excluded).map fun reply =>
      { receiver := lookup.replyTo
        replyTunnelID := lookup.replyTunnelID
        reply := reply
        wrapped := lookup.session }

/-- A lookup is answered as written exactly if there is no answer, or if its key is not zero, each byte
of its reply tunnel is the flag, and the session is found. -/
theorem answersAsWritten_iff (lookup : Lookup) (m : Mem) (h : StandsAt m 0 lookup.payload)
    (hcount : lookup.excluded.length ≤ maxExcludedPeers) :
    AnswersAsWritten env db lookup m ↔
      db.answer env lookup.lookupType lookup.key lookup.excluded = none ∨
        lookup.key ≠ IdentHash.zero ∧
          (lookup.isDelivery → writeU32 lookup.replyTunnelID = List.replicate 4 lookup.flag) ∧
          lookup.SessionFound (db.searches env lookup.lookupType lookup.key) := by
  have hlaid := Lookup.laid_of_standsAt h
  rw [AnswersAsWritten, val_handleDatabaseLookupMsg env db hlaid hcount,
    ← Lookup.tunnelRead_eq_iff, ← Lookup.sessionFound_iff hlaid]
  cases db.answer env lookup.lookupType lookup.key lookup.excluded with
  | none => simp
  | some reply =>
    by_cases hkey : lookup.key = IdentHash.zero
    · simp [hkey]
    · simp only [hkey, if_false, Option.map_some, Option.some.injEq, LookupSent.mk.injEq, true_and,
        reduceCtorEq, false_or, ne_eq, not_false_eq_true]

/-- Routing keys are the keys themselves, and every buffer can be loaded. -/
def exampleLookupEnv : LookupEnv where
  routingKey ident := ident
  loads _ := true

/-- A lookup of a lease set with one excluded peer. -/
def exampleLookup (replyTunnelID : UInt32) : Lookup :=
  .leaseSet (exampleIdent 5) [exampleIdent 6] (exampleIdent 7) replyTunnelID (exampleIdent 8)
    (exampleIdent 9)

/-- The payload of a lookup in memory. -/
def examplePayload (lookup : Lookup) : Mem := store (fun _ => 0) 0 lookup.payload

theorem answersAsWritten_flagTunnel :
    AnswersAsWritten exampleLookupEnv {} (exampleLookup 0x07070707)
      (examplePayload (exampleLookup 0x07070707)) := by
  refine (answersAsWritten_iff exampleLookupEnv {} (exampleLookup 0x07070707) _
    (standsAt_store _ _ _) (by decide)).mpr (Or.inr ⟨by decide, fun _ => by decide, ?_⟩)
  intro key tag _
  exact Or.inl (by decide)

theorem not_answersAsWritten_tunnel :
    ¬∀ (env : LookupEnv) (db : NetDb) (lookup : Lookup) (m : Mem), StandsAt m 0 lookup.payload →
      lookup.excluded.length ≤ maxExcludedPeers → AnswersAsWritten env db lookup m := by
  intro h
  have hanswer := h exampleLookupEnv {} (exampleLookup 1) (examplePayload (exampleLookup 1))
    (standsAt_store _ _ _) (by decide)
  have htunnel := congrArg (Option.map LookupSent.replyTunnelID) hanswer
  exact absurd htunnel (by decide +kernel)

end NetDb

end Router
