import Xi2p.Router.Lookup

/-!
# Bounds of database messages

The handlers of `DatabaseStore`, `DatabaseSearchReply` and `DatabaseLookup` messages in
`core/router/net_db/impl.cc` take positions and lengths from the payload and from the size in the
header. None of them looks at the length of the message.

* `StoreMsg.stored_handle`: the accesses are those of the function that `handleDatabaseStoreMsg` uses.
* `DatabaseMsg.inBounds_iff`: the messages that are handled inside of their bounds.
-/

namespace Router

open Bytes Traced I2NP I2NPMessage

/-! ## Stores -/

/-- What the handler of a store finds outside. -/
structure StoreEnv where
  /-- The decompressor, which fails if it throws. -/
  gunzip : List UInt8 → Option (List UInt8)
  /-- The exploratory pool has an outbound tunnel. -/
  hasOutbound : Bool
  /-- `context.IsFloodfill()`. -/
  isFloodfill : Bool

/-- What the handler of a store does. -/
structure StoreHandled where
  stored : Stored := .nothing
  /-- The operands `len` and `offset` of the differences that are formed. -/
  differences : List (ℕ × ℕ) := []
  /-- The size of the payload that is flooded. -/
  flooded : Option ℕ := none

namespace StoreMsg

variable (env : StoreEnv) (msg : StoreMsg)

/-- The reply token. -/
def replyToken : ℕ := readBE (slice msg.payload 33 4)

/-- Where the data starts: behind the header, and with a reply token behind the tunnel ID and the
gateway. -/
def dataOffset : ℕ := if msg.replyToken ≠ 0 then 37 + 4 + 32 else 37

/-- The status message for a reply token, and the flooding. -/
def acknowledge : Traced StoreHandled := do
  let tunnelID ← Traced.read msg.payload 37 4
  -- a response goes directly to the gateway, or through an outbound tunnel if there is one
  readIf (readBE tunnelID = 0 || env.hasOutbound) (touch 41 32) ()
  if env.isFloodfill then
    -- a difference below zero is converted to `size_t`
    let count := (msg.size + 2 ^ 64 - 73) % 2 ^ 64
    touch 0 33
    touch 73 count
    return { differences := [(msg.size, 73)], flooded := some (37 + count) }
  else return {}

/-- A compressed router info behind its size. -/
def readRouterInfo (ident : IdentHash) (acknowledged : StoreHandled) (offset size : ℕ) :
    Traced StoreHandled := do
  if size > maxBuffer then return acknowledged
  let differences := acknowledged.differences ++ [(msg.size, offset)]
  if (size : ℤ) > (msg.size : ℤ) - offset then return { acknowledged with differences }
  let compressed ← Traced.read msg.payload offset size
  let stored :=
    match env.gunzip compressed with
    | none => Stored.nothing
    | some uncompressed =>
      if uncompressed.length > maxBuffer then .nothing else .routerInfo ident uncompressed
  return { acknowledged with stored, differences }

/-- The data behind the header. -/
def readStored (ident : IdentHash) (acknowledged : StoreHandled) : Traced StoreHandled := do
  let offset := msg.dataOffset
  let type ← readByte msg.payload 32
  if type ≠ 0 then
    let count := (msg.size + 65536 - offset) % 65536
    -- `AddLeaseSet` copies a lease set that was received directly
    readIf (!msg.hasTunnel) (touch offset count) ()
    return { acknowledged with
      stored := .leaseSet ident (slice msg.payload offset count)
      differences := acknowledged.differences ++ [(msg.size, offset)] }
  else
    let size ← Traced.read msg.payload offset 2
    msg.readRouterInfo env ident acknowledged (offset + 2) (readBE size)

/-- `HandleDatabaseStoreMsg`: what is read of the payload. -/
def handle : Traced StoreHandled := do
  let ident ← readHash msg.payload 0
  if ident = IdentHash.zero then return {}
  let _replyToken ← Traced.read msg.payload 33 4
  let acknowledged ← readIf (msg.replyToken ≠ 0) (msg.acknowledge env) {}
  msg.readStored env ident acknowledged

theorem stored_acknowledge : (msg.acknowledge env).val.stored = .nothing := by
  unfold acknowledge
  simp only [val_bind]
  split <;> rfl

/-- The handler stores what `stored` says. -/
theorem stored_handle : (msg.handle env).val.stored = msg.stored env.gunzip := by
  unfold handle readStored readRouterInfo StoreMsg.stored
  have hacknowledged : (readIf (msg.replyToken ≠ 0) (msg.acknowledge env) {}).val.stored =
      .nothing := by
    rw [val_readIf]
    split
    · exact stored_acknowledge env msg
    · rfl
  have hoffset : (if readBE (slice msg.payload 33 4) ≠ 0 then 37 + 4 + 32 else 37) =
      msg.dataOffset := rfl
  simp only [val_bind, val_readHash, hoffset]
  by_cases hident : IdentHash.ofMem msg.payload 0 = IdentHash.zero
  · simp only [hident, if_true, val_pure]
  simp only [hident, if_false, val_bind, val_readByte]
  by_cases htype : msg.payload 32 = 0
  swap
  · simp only [ne_eq, htype, not_false_eq_true, if_true, val_bind, val_pure]
  simp only [ne_eq, htype, not_true_eq_false, if_false, val_bind, val_read]
  by_cases hbuffer : readBE (slice msg.payload msg.dataOffset 2) > maxBuffer
  · simp only [hbuffer, if_true, true_or]
    exact hacknowledged
  simp only [hbuffer, if_false, false_or]
  by_cases hsize : (readBE (slice msg.payload msg.dataOffset 2) : ℤ) >
      (msg.size : ℤ) - (msg.dataOffset + 2 : ℕ)
  · simp only [hsize, if_true]
    exact hacknowledged
  · simp only [hsize, if_false]
    rfl

/-- The end of what is read before the data: key, type and token, with a token the tunnel ID, and the
gateway if a response is sent. -/
def answeredEnd : ℕ :=
  if msg.replyToken = 0 then 37
  else if readBE (slice msg.payload 37 4) = 0 ∨ env.hasOutbound then 73 else 41

/-- The end of what is copied to be flooded. -/
def floodedEnd : ℕ :=
  if msg.replyToken ≠ 0 ∧ env.isFloodfill ∧ 73 < msg.size then msg.size else 0

/-- The size of a router info, as it stands in front of it. -/
def routerInfoSize : ℕ := readBE (slice msg.payload msg.dataOffset 2)

/-- The end of what is read of the data. -/
def dataEnd : ℕ :=
  if msg.payload 32 ≠ 0 then
    if !msg.hasTunnel ∧ msg.dataOffset < msg.size then msg.size else 0
  else if msg.routerInfoSize > maxBuffer ∨ msg.routerInfoSize + (msg.dataOffset + 2) > msg.size then
    msg.dataOffset + 2
  else msg.dataOffset + 2 + msg.routerInfoSize

/-- The length of the payload that the handler of a store needs. -/
def needed : ℕ :=
  if IdentHash.ofMem msg.payload 0 = IdentHash.zero then 32
  else max (msg.answeredEnd env) (max (msg.floodedEnd env) msg.dataEnd)

/-- The size in the header is at least the offset wherever the handler of a store subtracts, and small
enough to be flooded. -/
def SizeCovers : Prop :=
  IdentHash.ofMem msg.payload 0 ≠ IdentHash.zero →
    (msg.replyToken ≠ 0 → env.isFloodfill → 73 ≤ msg.size ∧ msg.size ≤ 4130) ∧
      (msg.payload 32 ≠ 0 → msg.dataOffset ≤ msg.size) ∧
      (msg.payload 32 = 0 → msg.routerInfoSize ≤ maxBuffer → msg.dataOffset + 2 ≤ msg.size)

/-- A part of the handler reads inside of a payload, forms no negative difference, and floods what fits
a short message. -/
def Bounded (x : Traced StoreHandled) (actual : ℕ) : Prop :=
  x.Within 0 actual ∧ (∀ d ∈ x.val.differences, d.2 ≤ d.1) ∧
    ∀ n ∈ x.val.flooded, newI2NPShortMessage.payloadPos + n ≤ newI2NPShortMessage.capacity

theorem bounded_pure_empty (actual : ℕ) : Bounded (pure {}) actual := by
  simp [Bounded]

theorem bounded_acknowledge_iff (hsize : msg.size < 65536) (actual : ℕ) :
    Bounded (msg.acknowledge env) actual ↔
      41 ≤ actual ∧ (readBE (slice msg.payload 37 4) = 0 ∨ env.hasOutbound → 73 ≤ actual) ∧
        (env.isFloodfill → 73 ≤ msg.size ∧ msg.size ≤ 4130 ∧ (73 < msg.size → msg.size ≤ actual)) := by
  have hcount : 73 ≤ msg.size → (msg.size + 2 ^ 64 - 73) % 2 ^ 64 = msg.size - 73 := by omega
  unfold acknowledge Bounded
  simp only [within_bind_iff, within_read_iff, within_readIf_iff, within_touch_iff, val_bind,
    Bool.or_eq_true, decide_eq_true_iff]
  rw [val_read]
  cases env.isFloodfill with
  | false => simp
  | true =>
    simp only [if_true, within_bind_iff, within_touch_iff, within_pure_iff, val_bind, val_pure,
      and_true, List.mem_singleton, forall_eq, Option.mem_some, forall_eq', payloadPos,
      newI2NPShortMessage, newBuffer, headerSize, maxShortMessageSize]
    generalize (readBE (slice msg.payload 37 4) = 0 ∨ env.hasOutbound = true) = c
    constructor
    · rintro ⟨⟨h37, hanswered, hflood⟩, hdifference, hfits⟩
      rw [hcount hdifference] at hflood hfits
      exact ⟨by omega, fun hc => by have := hanswered hc; omega, fun _ => by omega⟩
    · rintro ⟨h41, hanswered, hflood⟩
      obtain ⟨hdifference, hle, hflood⟩ := hflood trivial
      rw [hcount hdifference]
      exact ⟨⟨by omega, fun hc => Or.inr (hanswered hc), by omega⟩, by omega, by omega⟩

/-- One more difference is formed. -/
theorem forall_mem_differences (differences : List (ℕ × ℕ)) (len offset : ℕ) :
    (∀ d ∈ differences ++ [(len, offset)], d.2 ≤ d.1) ↔
      (∀ d ∈ differences, d.2 ≤ d.1) ∧ offset ≤ len := by
  simp [or_imp, forall_and]

theorem bounded_readRouterInfo_iff (ident : IdentHash) (acknowledged : StoreHandled)
    {offset : ℕ} (size : ℕ) {actual : ℕ} (hoffset : offset ≤ actual) :
    Bounded (msg.readRouterInfo env ident acknowledged offset size) actual ↔
      Bounded (pure acknowledged) actual ∧ (size ≤ maxBuffer → offset ≤ msg.size ∧
        (size + offset ≤ msg.size → offset + size ≤ actual)) := by
  unfold readRouterInfo Bounded
  simp only [within_pure_iff, val_pure, true_and]
  by_cases hbuffer : size > maxBuffer
  · simp only [hbuffer, if_true, within_pure_iff, val_pure, true_and, Nat.not_le.mpr hbuffer,
      false_implies, and_true]
  have hle : size ≤ maxBuffer := Nat.not_lt.mp hbuffer
  simp only [hbuffer, if_false, hle, true_implies]
  by_cases hsize : (size : ℤ) > (msg.size : ℤ) - offset
  · have hnot : ¬size + offset ≤ msg.size := by omega
    simp only [hsize, if_true, within_pure_iff, val_pure, true_and, forall_mem_differences, hnot,
      false_implies, and_true]
    tauto
  · have hfits : size + offset ≤ msg.size := by omega
    simp only [hsize, if_false, within_bind_iff, within_read_iff, val_bind, val_pure, within_pure_iff,
      and_true, forall_mem_differences, hfits, true_implies]
    have hread : size = 0 ∨ offset + size ≤ actual ↔ offset + size ≤ actual := by omega
    rw [hread]
    tauto

theorem bounded_readStored_iff (hsize : msg.size < 65536) (ident : IdentHash)
    (acknowledged : StoreHandled) (actual : ℕ) :
    Bounded (msg.readStored env ident acknowledged) actual ↔
      Bounded (pure acknowledged) actual ∧ 33 ≤ actual ∧
        (msg.payload 32 ≠ 0 → msg.dataOffset ≤ msg.size ∧
          (!msg.hasTunnel → msg.dataOffset < msg.size → msg.size ≤ actual)) ∧
        (msg.payload 32 = 0 → msg.dataOffset + 2 ≤ actual ∧
          (msg.routerInfoSize ≤ maxBuffer → msg.dataOffset + 2 ≤ msg.size ∧
            (msg.routerInfoSize + (msg.dataOffset + 2) ≤ msg.size →
              msg.dataOffset + 2 + msg.routerInfoSize ≤ actual))) := by
  have hoffset : 0 < msg.dataOffset := by
    unfold dataOffset
    split <;> omega
  have hcount : msg.dataOffset ≤ msg.size →
      (msg.size + 65536 - msg.dataOffset) % 65536 = msg.size - msg.dataOffset := by omega
  by_cases htype : msg.payload 32 = 0
  · have hread : Bounded (msg.readStored env ident acknowledged) actual ↔
        (33 ≤ actual ∧ msg.dataOffset + 2 ≤ actual) ∧
          Bounded (msg.readRouterInfo env ident acknowledged (msg.dataOffset + 2)
            msg.routerInfoSize) actual := by
      unfold readStored Bounded routerInfoSize
      simp only [within_bind_iff, within_readByte_iff, val_bind, val_readByte, htype, ne_eq,
        not_true_eq_false, if_false, within_read_iff, val_read, OfNat.ofNat_ne_zero, false_or]
      tauto
    rw [hread]
    constructor
    · rintro ⟨⟨h33, hdata⟩, hbounded⟩
      obtain ⟨hacknowledged, hinfo⟩ := (bounded_readRouterInfo_iff env msg _ _ _ hdata).mp hbounded
      exact ⟨hacknowledged, h33, fun h => absurd htype h, fun _ => ⟨hdata, hinfo⟩⟩
    · rintro ⟨hacknowledged, h33, -, hinfo⟩
      obtain ⟨hdata, hinfo⟩ := hinfo htype
      exact ⟨⟨h33, hdata⟩, (bounded_readRouterInfo_iff env msg _ _ _ hdata).mpr
        ⟨hacknowledged, hinfo⟩⟩
  · unfold readStored Bounded
    simp only [within_bind_iff, within_readByte_iff, val_bind, val_readByte, htype, ne_eq,
      not_false_eq_true, if_true, within_readIf_iff, within_touch_iff, within_pure_iff, val_pure,
      true_and, and_true, forall_mem_differences, true_implies, false_implies]
    constructor
    · rintro ⟨⟨h33, hcopy⟩, ⟨hdifferences, hle⟩, hfits⟩
      rw [hcount hle] at hcopy
      exact ⟨⟨hdifferences, hfits⟩, h33, hle, fun htunnel hlt => by have := hcopy htunnel; omega⟩
    · rintro ⟨⟨hdifferences, hfits⟩, h33, hle, hcopy⟩
      rw [hcount hle]
      refine ⟨⟨h33, fun htunnel => ?_⟩, ⟨hdifferences, hle⟩, hfits⟩
      rcases Nat.eq_or_lt_of_le hle with heq | hlt
      · exact Or.inl (by omega)
      · exact Or.inr (by have := hcopy htunnel hlt; omega)

theorem bounded_readIf_iff (c : Bool) (x : Traced StoreHandled) (actual : ℕ) :
    Bounded (readIf c x {}) actual ↔ (c = true → Bounded x actual) := by
  cases c with
  | false => exact iff_of_true (bounded_pure_empty actual) fun h => by cases h
  | true => exact ⟨fun h _ => h, fun h => h rfl⟩

/-- The parts of the handler, one after the other. -/
theorem bounded_handle_iff_parts (actual : ℕ) :
    Bounded (msg.handle env) actual ↔
      32 ≤ actual ∧ (IdentHash.ofMem msg.payload 0 ≠ IdentHash.zero → 37 ≤ actual ∧
        (readIf (msg.replyToken ≠ 0) (msg.acknowledge env) {}).Within 0 actual ∧
        Bounded (msg.readStored env (IdentHash.ofMem msg.payload 0)
          (readIf (msg.replyToken ≠ 0) (msg.acknowledge env) {}).val) actual) := by
  have hhash : (readHash msg.payload 0).Within 0 actual ↔ 32 ≤ actual := by
    simp [readHash, within_bind_iff, within_read_iff]
  have htoken : (Traced.read msg.payload 33 4).Within 0 actual ↔ 37 ≤ actual := by
    simp [within_read_iff]
  unfold handle Bounded
  simp only [within_bind_iff, hhash, val_bind, val_readHash]
  by_cases hident : IdentHash.ofMem msg.payload 0 = IdentHash.zero
  · simp [hident]
  · simp only [hident, if_false, within_bind_iff, htoken, val_bind, ne_eq, not_false_eq_true,
      true_implies]
    tauto

theorem answeredEnd_le_iff (actual : ℕ) :
    msg.answeredEnd env ≤ actual ↔ 37 ≤ actual ∧ (msg.replyToken ≠ 0 → 41 ≤ actual ∧
      (readBE (slice msg.payload 37 4) = 0 ∨ env.hasOutbound → 73 ≤ actual)) := by
  unfold answeredEnd
  split
  next htoken => simp [htoken]
  next htoken =>
    split
    next hsent =>
      simp only [ne_eq, htoken, not_false_eq_true, hsent, true_implies]
      omega
    next hsent =>
      simp only [ne_eq, htoken, not_false_eq_true, hsent, true_implies, false_implies, and_true]
      omega

theorem floodedEnd_le_iff (actual : ℕ) :
    msg.floodedEnd env ≤ actual ↔
      (msg.replyToken ≠ 0 → env.isFloodfill → 73 < msg.size → msg.size ≤ actual) := by
  unfold floodedEnd
  split
  next h => exact ⟨fun hle _ _ _ => hle, fun hle => hle h.1 h.2.1 h.2.2⟩
  next h => exact iff_of_true (Nat.zero_le _) fun h₁ h₂ h₃ => absurd ⟨h₁, h₂, h₃⟩ h

theorem dataEnd_le_iff (actual : ℕ) :
    msg.dataEnd ≤ actual ↔
      (msg.payload 32 ≠ 0 → !msg.hasTunnel → msg.dataOffset < msg.size → msg.size ≤ actual) ∧
        (msg.payload 32 = 0 → msg.dataOffset + 2 ≤ actual ∧
          (msg.routerInfoSize ≤ maxBuffer → msg.routerInfoSize + (msg.dataOffset + 2) ≤ msg.size →
            msg.dataOffset + 2 + msg.routerInfoSize ≤ actual)) := by
  unfold dataEnd
  split
  next htype =>
    simp only [htype, ne_eq, not_false_eq_true, true_implies, false_implies, and_true]
    split
    next h => exact ⟨fun hle _ _ => hle, fun hle => hle h.1 h.2⟩
    next h => exact iff_of_true (Nat.zero_le _) fun h₁ h₂ => absurd ⟨h₁, h₂⟩ h
  next htype =>
    simp only [ne_eq, not_not.mp htype, not_true_eq_false, false_implies, true_and, true_implies]
    split <;> omega

/-- The messages that store something inside of their bounds. -/
theorem bounded_handle_iff (hsize : msg.size < 65536) (actual : ℕ) :
    Bounded (msg.handle env) actual ↔ msg.needed env ≤ actual ∧ msg.SizeCovers env := by
  have hacknowledged : Bounded (readIf (msg.replyToken ≠ 0) (msg.acknowledge env) {}) actual ↔
      (readIf (msg.replyToken ≠ 0) (msg.acknowledge env) {}).Within 0 actual ∧
        Bounded (pure (readIf (msg.replyToken ≠ 0) (msg.acknowledge env) {}).val) actual := by
    unfold Bounded
    simp only [within_pure_iff, val_pure, true_and]
  rw [bounded_handle_iff_parts, bounded_readStored_iff env msg hsize, ← and_assoc (a := Within _ _ _),
    ← hacknowledged, bounded_readIf_iff, bounded_acknowledge_iff env msg hsize]
  unfold needed SizeCovers
  by_cases hident : IdentHash.ofMem msg.payload 0 = IdentHash.zero
  · simp [hident]
  simp only [hident, ne_eq, not_false_eq_true, true_implies, if_false, max_le_iff,
    answeredEnd_le_iff, floodedEnd_le_iff, dataEnd_le_iff, decide_eq_true_eq]
  constructor
  · rintro ⟨-, h37, hanswered, -, hleaseSet, hrouterInfo⟩
    refine ⟨⟨⟨h37, fun h => ⟨(hanswered h).1, (hanswered h).2.1⟩⟩,
      fun h hflood => ((hanswered h).2.2 hflood).2.2, fun h => (hleaseSet h).2,
      fun h => ⟨(hrouterInfo h).1, fun hbuffer => ((hrouterInfo h).2 hbuffer).2⟩⟩,
      fun h hflood => ?_, fun h => (hleaseSet h).1, fun h hbuffer => ((hrouterInfo h).2 hbuffer).1⟩
    obtain ⟨hle, hfits, -⟩ := (hanswered h).2.2 hflood
    exact ⟨hle, hfits⟩
  · rintro ⟨⟨⟨h37, hanswered⟩, hflooded, hleaseSet, hrouterInfo⟩, hflood, hoffset, hinfo⟩
    refine ⟨by omega, h37, fun h => ⟨(hanswered h).1, (hanswered h).2, fun hfloodfill => ?_⟩, by omega,
      fun h => ⟨hoffset h, hleaseSet h⟩,
      fun h => ⟨(hrouterInfo h).1, fun hbuffer => ⟨hinfo h hbuffer, (hrouterInfo h).2 hbuffer⟩⟩⟩
    exact ⟨(hflood h hfloodfill).1, (hflood h hfloodfill).2, hflooded h hfloodfill⟩

end StoreMsg

/-! ## Search replies -/

/-- The reading of `HandleDatabaseSearchReplyMsg`: the key and the routers. -/
def readSearchReply (m : Mem) : Traced (IdentHash × List IdentHash) := do
  let num ← readByte m 32
  let ident ← readHash m 0
  let routers ← readExcluded m 33 num.toNat
  return (ident, routers)

/-! ## All messages -/

/-- A message and what its handler finds outside. -/
inductive DatabaseMsg
  | store (env : StoreEnv) (payload : Mem) (size : UInt16) (hasTunnel : Bool)
  | searchReply (payload : Mem)
  | lookup (env : LookupEnv) (db : NetDb) (payload : Mem)

namespace DatabaseMsg

/-- The handler reads inside of the payload, whose length is `actual`, forms no negative difference and
floods what fits a short message. -/
def InBounds : DatabaseMsg → ℕ → Prop
  | store env payload size hasTunnel, actual =>
    StoreMsg.Bounded (StoreMsg.handle env { payload, size := size.toNat, hasTunnel }) actual
  | searchReply payload, actual => (readSearchReply payload).Within 0 actual
  | lookup env db payload, actual => (db.handleDatabaseLookupMsg env payload).Within 0 actual

section Lookup

variable (env : LookupEnv) (db : NetDb) (m : Mem)

/-- A lookup asks for a reply to a tunnel. -/
def delivers : Bool := m 64 &&& lookupDeliveryFlag ≠ 0

/-- Where the number of excluded peers of a lookup stands. -/
def numPos : ℕ := if delivers m then 69 else 65

/-- The number of excluded peers of a lookup, as it is used. -/
def numExcluded : ℕ :=
  if readBE (slice m (numPos m) 2) > maxExcludedPeers then 0 else readBE (slice m (numPos m) 2)

/-- The handler has to search. -/
def searches : Bool := db.searches env (m 64 &&& lookupTypeFlagsMask) (IdentHash.ofMem m 0)

/-- The answer to a lookup, if there is one. -/
def answer : Option LookupReply :=
  db.answer env (m 64 &&& lookupTypeFlagsMask) (IdentHash.ofMem m 0)
    (if searches env db m then (readExcluded m (numPos m + 2) (numExcluded m)).val else [])

/-- Where the handler of a lookup is behind the excluded peers. -/
def sessionPos : ℕ :=
  if searches env db m then numPos m + 2 + 32 * numExcluded m else numPos m + 2

/-- The length of the payload that the handler of a lookup needs. -/
def lookupNeeded : ℕ :=
  if IdentHash.ofMem m 0 = IdentHash.zero then 32
  else if (answer env db m).isSome ∧ delivers m ∧ m 64 &&& lookupEncryptionFlag ≠ 0 then
    -- a session key with a tag, or without
    sessionPos env db m + if m (sessionPos env db m + 32) ≠ 0 then 65 else 33
  else sessionPos env db m

end Lookup

theorem within_readHash_iff (m : Mem) {pos actual : ℕ} :
    (readHash m pos).Within 0 actual ↔ pos + 32 ≤ actual := by
  simp [readHash, within_bind_iff, within_read_iff]

theorem within_readExcluded_iff (m : Mem) {pos n actual : ℕ} (h : pos ≤ actual) :
    (readExcluded m pos n).Within 0 actual ↔ pos + 32 * n ≤ actual := by
  simp only [readExcluded, within_bind_iff, within_touch_iff, within_pure_iff, and_true]
  omega

theorem within_readSession_iff (m : Mem) {pos actual : ℕ} :
    (readSession m pos).Within 0 actual ↔
      pos + (if m (pos + 32) ≠ 0 then 65 else 33) ≤ actual := by
  simp only [readSession, within_bind_iff, within_readByte_iff, val_readByte]
  by_cases hnum : m (pos + 32) = 0
  · simp only [ne_eq, hnum, not_true_eq_false, if_false, within_pure_iff, and_true]
    omega
  · simp only [ne_eq, hnum, not_false_eq_true, if_true, within_bind_iff, within_readHash_iff,
      within_pure_iff, and_true]
    omega

/-- The highest byte of the reply tunnel is the flag. -/
theorem readU32_tunnel_ne_zero_iff (m : Mem) :
    readU32 (if delivers m then slice m 64 4 else []) ≠ 0 ↔ delivers m := by
  by_cases hdelivers : delivers m
  · refine iff_of_true (fun hzero => ?_) hdelivers
    rw [if_pos hdelivers] at hzero
    have hbytes := writeU32_readU32 (length_slice m 64 4)
    rw [hzero, show (4 : ℕ) = 3 + 1 from rfl, slice_succ] at hbytes
    have hflag : m 64 = 0 := (List.cons.inj hbytes).1.symm
    simp [delivers, hflag] at hdelivers
  · rw [if_neg hdelivers]
    exact iff_of_false (fun h => h rfl) hdelivers

/-- What is read before the answer is known ends where the session key is looked for. -/
theorem within_start_iff (env : LookupEnv) (db : NetDb) (m : Mem) (actual : ℕ) (rest : Prop) :
    (0 + 32 ≤ actual ∧ 64 < actual ∧ (delivers m = true → 64 + 4 ≤ actual) ∧
      numPos m + 2 ≤ actual ∧ (searches env db m = true →
        (readExcluded m (numPos m + 2) (numExcluded m)).Within 0 actual) ∧ rest) ↔
      sessionPos env db m ≤ actual ∧ rest := by
  have hnumPos : delivers m = true → numPos m = 69 := fun h => if_pos h
  have hnumPos_ge : 65 ≤ numPos m := by
    unfold numPos
    split <;> omega
  unfold sessionPos
  constructor
  · rintro ⟨-, -, -, hnum, hexcluded, hrest⟩
    refine ⟨?_, hrest⟩
    split
    next h => exact (within_readExcluded_iff m hnum).mp (hexcluded h)
    · exact hnum
  · rintro ⟨hsession, hrest⟩
    have hnum : numPos m + 2 ≤ actual := by
      split at hsession <;> omega
    refine ⟨by omega, by omega, fun h => ?_, hnum, fun h => ?_, hrest⟩
    · have := hnumPos h
      omega
    · rw [if_pos h] at hsession
      exact (within_readExcluded_iff m hnum).mpr hsession

/-- What is read for an answer, once there is one. -/
def readAnswer (env : LookupEnv) (db : NetDb) (m : Mem) : Option LookupReply →
    Traced (Option LookupSent)
  | none => pure none
  | some reply => do
    let wrapped ← readIf (readU32 (if delivers m = true then slice m 64 4 else []) ≠ 0 &&
      m 64 &&& lookupEncryptionFlag ≠ 0) (readSession m (sessionPos env db m)) none
    let receiver ← readHash m 32
    return some ⟨receiver, readU32 (if delivers m = true then slice m 64 4 else []), reply, wrapped⟩

theorem within_lookup_iff (env : LookupEnv) (db : NetDb) (m : Mem) (actual : ℕ) :
    (db.handleDatabaseLookupMsg env m).Within 0 actual ↔ lookupNeeded env db m ≤ actual := by
  have hstart := within_start_iff env db m actual
  unfold NetDb.handleDatabaseLookupMsg lookupNeeded
  simp only [within_bind_iff, within_readHash_iff, val_readHash]
  by_cases hident : IdentHash.ofMem m 0 = IdentHash.zero
  · simp [hident]
  simp only [hident, if_false, within_bind_iff, within_readByte_iff, within_readIf_iff, val_readByte,
    within_read_iff, val_readIf, val_read, OfNat.ofNat_ne_zero, false_or]
  show 0 + 32 ≤ actual ∧ 64 < actual ∧ (delivers m = true → 64 + 4 ≤ actual) ∧ numPos m + 2 ≤ actual ∧
    (searches env db m = true →
      (readExcluded m (numPos m + 2) (numExcluded m)).Within 0 actual) ∧
    (readAnswer env db m (answer env db m)).Within 0 actual ↔ _
  rw [hstart]
  have hsession_ge : 67 ≤ sessionPos env db m := by
    unfold sessionPos numPos
    split_ifs <;> omega
  cases answer env db m with
  | none =>
    simp only [readAnswer, within_pure_iff, and_true, Option.isSome_none, Bool.false_eq_true, false_and,
      if_false]
  | some reply =>
    simp only [readAnswer, within_bind_iff, within_readIf_iff, within_readHash_iff, within_pure_iff, and_true,
      Bool.and_eq_true, decide_eq_true_iff, readU32_tunnel_ne_zero_iff, within_readSession_iff,
      Option.isSome_some, true_and]
    by_cases hencrypted : delivers m = true ∧ m 64 &&& lookupEncryptionFlag ≠ 0
    · rw [if_pos hencrypted]
      exact ⟨fun h => h.2.1 hencrypted, fun h => ⟨by omega, fun _ => h, by omega⟩⟩
    · rw [if_neg hencrypted]
      exact ⟨fun h => h.1, fun h => ⟨h, fun hyes => absurd hyes hencrypted, by omega⟩⟩

/-- The messages whose payload is as long as its handler needs, and whose size in the header covers
what it is used for. -/
def LongEnough : DatabaseMsg → ℕ → Prop
  | store env payload size hasTunnel, actual =>
    StoreMsg.needed env { payload, size := size.toNat, hasTunnel } ≤ actual ∧
      StoreMsg.SizeCovers env { payload, size := size.toNat, hasTunnel }
  | searchReply payload, actual => 33 + 32 * (payload 32).toNat ≤ actual
  | lookup env db payload, actual => lookupNeeded env db payload ≤ actual

/-- The messages that are handled inside of their bounds. -/
theorem inBounds_iff (msg : DatabaseMsg) (actual : ℕ) :
    msg.InBounds actual ↔ msg.LongEnough actual := by
  cases msg with
  | store env payload size hasTunnel =>
    exact StoreMsg.bounded_handle_iff env _ size.toNat_lt actual
  | searchReply payload =>
    show (readSearchReply payload).Within 0 actual ↔ 33 + 32 * (payload 32).toNat ≤ actual
    simp only [readSearchReply, within_bind_iff, within_readByte_iff, within_readHash_iff,
      within_pure_iff, and_true, val_readByte]
    constructor
    · rintro ⟨hnum, -, hrouters⟩
      exact (within_readExcluded_iff payload hnum).mp hrouters
    · intro h
      exact ⟨by omega, by omega, (within_readExcluded_iff payload (by omega)).mpr h⟩
  | lookup env db payload => exact within_lookup_iff env db payload actual

/-- A search reply that announces one router and ends behind the number. -/
theorem not_inBounds_searchReply :
    ¬∀ (msg : DatabaseMsg) (actual : ℕ), msg.InBounds actual := by
  intro h
  have hwithin := h (searchReply (Bytes.store (fun _ => 0) 32 [1])) 33
  have hlast := (hwithin 33 (by decide)).2
  omega

end DatabaseMsg

end Router
