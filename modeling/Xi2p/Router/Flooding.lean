import Xi2p.NTCP.Payload
import Xi2p.Router.ClosestFloodfills

/-!
# Flooding

A floodfill copies a `DatabaseStore` message with a reply token and sends the copy to other floodfills. The copy is one
message object, and every session that sends it converts it in place. `Publish` sends its messages in the same way, each
with an object of its own.

* `publishTo_eq`: `Publish` excludes the floodfills that it has sent a message to, and so finds the closest ones.
* `floodsClosest_iff`: `HandleDatabaseStoreMsg` excludes none, and so finds the same floodfill every time.
-/

namespace Router

open Bytes I2NP KeyedSet

/-! ## The recipients -/

namespace NetDb

/-- The loop of `Publish`. -/
def publishTo (db : NetDb) (destKey : IdentHash) (excluded : List IdentHash) : ℕ → List ℕ
  | 0 => []
  | n + 1 =>
    match db.getClosestFloodfill destKey excluded with
    | some r => r :: db.publishTo destKey ((db.routers r).getIdentHash :: excluded) n
    | none => db.publishTo destKey excluded n

/-- The loop of `HandleDatabaseStoreMsg`. -/
def floodTo (db : NetDb) (destKey : IdentHash) (excluded : List IdentHash) : ℕ → List ℕ
  | 0 => []
  | n + 1 =>
    match db.getClosestFloodfill destKey excluded with
    | some r => r :: db.floodTo destKey excluded n
    | none => db.floodTo destKey excluded n

end NetDb

/-! ## The copy -/

/-- What flooding finds outside. -/
structure FloodEnv where
  /-- `CreateRoutingKey`, at the date. -/
  routingKey : IdentHash → IdentHash
  /-- `context.IsFloodfill()`. -/
  isFloodfill : Bool
  /-- `SHA256`. -/
  sha256 : List UInt8 → IdentHash
  /-- The random message ID. -/
  msgID : UInt32
  /-- The time, in milliseconds. -/
  milliseconds : ℕ

/-- `FillI2NPMessageHeader`. -/
def FloodEnv.fillHeader (env : FloodEnv) (typeID : UInt8) (m : I2NPMessage) : I2NPMessage :=
  let length := m.getLength - headerSize
  let buf := store m.buf m.offset [typeID]
  let buf := store buf (m.offset + headerMsgIDOffset) (writeU32 env.msgID)
  let buf := store buf (m.offset + headerExpirationOffset) (writeBE 8 (env.milliseconds + 60000))
  let buf := store buf (m.offset + headerSizeOffset) (writeBE 2 length)
  let buf := store buf (m.offset + headerChksOffset) ((env.sha256 (slice buf m.payloadPos length)).bytes.take 1)
  { m with buf }

/-- `DATABASE_STORE_HEADER_SIZE`. -/
abbrev databaseStoreHeaderSize : ℕ := 37

/-- Where the data begin in a message with a reply token. -/
abbrev repliedDataOffset : ℕ := databaseStoreHeaderSize + 4 + 32

/-- The copy. There is none if it does not fit into the buffer; the length of the data is converted to `size_t`, so that
of a message without data is huge. -/
def floodMsg (env : FloodEnv) (msg : StoreMsg) : Option I2NPMessage :=
  let copy := I2NPMessage.newI2NPShortMessage
  let pos := copy.payloadPos
  let length := msg.size - repliedDataOffset
  if msg.size < repliedDataOffset ∨ pos + databaseStoreHeaderSize + length > copy.capacity then none
  else
    let buf := memcpy copy.buf pos msg.payload 0 33
    -- zero reply token
    let buf := store buf (pos + 33) (writeU32 0)
    let buf := memcpy buf (pos + databaseStoreHeaderSize) msg.payload repliedDataOffset length
    some (env.fillHeader 1 { copy with buf, len := copy.len + (databaseStoreHeaderSize + length) })

/-- What is to be flooded: the key, the type, a zero token and the data. -/
def floodData (msg : StoreMsg) : List UInt8 :=
  slice msg.payload 0 33 ++ writeU32 0 ++
    slice msg.payload repliedDataOffset (msg.size - repliedDataOffset)

/-! ## The sessions -/

/-- The transport of the session with a router. -/
inductive Link
  | ntcp (env : NTCP.PayloadEnv) (session : NTCP.NTCPSession)
  | ssu

/-- The payload of a message that a session sends, and the message after the conversion. -/
def Link.send (msg : I2NPMessage) : Link → List UInt8 × I2NPMessage
  | .ntcp env session =>
    let session := { session with heap := Function.update session.heap 0 msg }
    (slice msg.buf msg.payloadPos (msg.getLength - headerSize),
      (session.createMsgBuffer env (some 0)).1.heap 0)
  | .ssu => (msg.payload, msg.toSSU.1)

/-- The payloads that are sent to routers one after the other. -/
def sendAll (link : ℕ → Link) : I2NPMessage → List ℕ → List (ℕ × List UInt8)
  | _, [] => []
  | msg, r :: rest =>
    let (bytes, msg) := (link rest.length).send msg
    (r, bytes) :: sendAll link msg rest

/-- The part of `HandleDatabaseStoreMsg` that floods: the routers that the copy is sent to, with the payloads. It fails
if the copy does not fit. -/
def NetDb.flood (env : FloodEnv) (link : ℕ → Link) (db : NetDb) (msg : StoreMsg) :
    Option (List (ℕ × List UInt8)) :=
  let ident := IdentHash.ofMem msg.payload 0
  if ident = IdentHash.zero ∨ readBE (slice msg.payload 33 4) = 0 ∨ !env.isFloodfill then some []
  else (floodMsg env msg).map fun copy => sendAll link copy (db.floodTo (env.routingKey ident) [] 3)

/-! ## The loops -/

namespace NetDb

/-- If no floodfill is found, all that are not excluded are as far away as possible. -/
theorem le_distance_of_getClosestFloodfill {db : NetDb} {destKey : IdentHash} {excluded : List IdentHash}
    (h : db.getClosestFloodfill destKey excluded = none) {r : ℕ} (hr : r ∈ db.candidates excluded) :
    2 ^ 256 - 1 ≤ db.distance destKey r := by
  have hkept : ∀ (rs : List ℕ) (best : Option ℕ × ℕ), best.1 ≠ none →
      (rs.foldl (fun (best : Option ℕ × ℕ) r =>
        if !(db.routers r).isUnreachable ∧ metric destKey (db.routers r).getIdentHash < best.2 ∧
            (db.routers r).getIdentHash ∉ excluded then
          (some r, metric destKey (db.routers r).getIdentHash)
        else best) best).1 ≠ none := by
    intro rs
    induction rs with
    | nil => exact fun _ hsome => hsome
    | cons r rs ih =>
      intro best hsome
      rw [List.foldl_cons]
      refine ih _ ?_
      split_ifs
      · exact Option.some_ne_none r
      · exact hsome
  -- as long as there is no floodfill, the loop compares with the greatest distance
  have hloop : ∀ (rs : List ℕ) (best : Option ℕ × ℕ), best.1 = none → best.2 = 2 ^ 256 - 1 →
      (rs.foldl (fun (best : Option ℕ × ℕ) r =>
        if !(db.routers r).isUnreachable ∧ metric destKey (db.routers r).getIdentHash < best.2 ∧
            (db.routers r).getIdentHash ∉ excluded then
          (some r, metric destKey (db.routers r).getIdentHash)
        else best) best).1 = none →
      ∀ r ∈ rs, Asking.Candidate db excluded r → 2 ^ 256 - 1 ≤ db.distance destKey r := by
    intro rs
    induction rs with
    | nil => exact fun _ _ _ _ r hr => absurd hr List.not_mem_nil
    | cons r rs ih =>
      intro best hnone hmax hend
      rw [List.foldl_cons] at hend
      split_ifs at hend with hbetter
      · exact absurd hend (hkept rs _ (Option.some_ne_none r))
      · intro r' hr' hcandidate
        rcases List.mem_cons.mp hr' with rfl | hr'
        · by_contra hlt
          exact hbetter ⟨by simp [hcandidate.1], hmax ▸ not_le.mp hlt, hcandidate.2⟩
        · exact ih best hnone hmax hend r' hr' hcandidate
  obtain ⟨hmem, hcandidate⟩ := mem_candidates.mp hr
  exact hloop db.floodfills _ rfl rfl h r hmem hcandidate

theorem nodup_candidates (db : NetDb) (hdistinct : db.DistinctFloodfills) (destKey : IdentHash)
    (excluded : List IdentHash) : ((db.candidates excluded).map (db.distance destKey)).Nodup := by
  have hsub : (db.candidates excluded).Sublist db.floodfills :=
    List.filter_sublist.trans List.filter_sublist
  exact (hsub.map _).nodup (hdistinct.nodup destKey)

/-- A closest floodfill is the first one of the sorted list. -/
theorem getClosestFloodfill_eq {db : NetDb} (hdistinct : db.DistinctFloodfills) {destKey : IdentHash}
    {excluded : List IdentHash} (hnear : ∀ r ∈ db.candidates excluded, db.distance destKey r < 2 ^ 256 - 1) :
    db.getClosestFloodfill destKey excluded = (sort (db.distance destKey) (db.candidates excluded)).head? := by
  cases hfound : db.getClosestFloodfill destKey excluded with
  | none =>
    have hempty : db.candidates excluded = [] := by
      refine List.eq_nil_iff_forall_not_mem.mpr fun r hr => ?_
      exact absurd (hnear r hr) (not_lt.mpr (le_distance_of_getClosestFloodfill hfound hr))
    rw [hempty]
    rfl
  | some r =>
    have hleast := least_take_sort (db.nodup_candidates hdistinct destKey excluded) 1
    have hhead := head?_of_least le_rfl hleast hfound
    rw [← hhead, List.head?_take, if_neg one_ne_zero]

theorem publishTo_eq {db : NetDb} (hdistinct : db.DistinctFloodfills) {destKey : IdentHash}
    {excluded : List IdentHash} (hnear : ∀ r ∈ db.candidates excluded, db.distance destKey r < 2 ^ 256 - 1)
    (n : ℕ) :
    db.publishTo destKey excluded n = (sort (db.distance destKey) (db.candidates excluded)).take n := by
  induction n generalizing excluded with
  | zero => rfl
  | succ n ih =>
    rw [publishTo, getClosestFloodfill_eq hdistinct hnear]
    cases hsort : sort (db.distance destKey) (db.candidates excluded) with
    | nil =>
      show db.publishTo destKey excluded n = _
      rw [ih hnear, hsort, List.take_nil, List.take_nil]
    | cons r rest =>
      show r :: db.publishTo destKey ((db.routers r).getIdentHash :: excluded) n = _
      have hfilter : db.candidates ((db.routers r).getIdentHash :: excluded) =
          (db.candidates excluded).filter fun r' => (db.routers r').getIdentHash ≠ (db.routers r).getIdentHash := by
        simp only [candidates, List.filter_filter, List.mem_cons, not_or, Bool.decide_and]
      have hrest : sort (db.distance destKey) (db.candidates ((db.routers r).getIdentHash :: excluded)) = rest := by
        have hsorted : Sorted (db.distance destKey) (r :: rest) := hsort ▸ sorted_sort _
        rw [hfilter, sort_filter (db.nodup_candidates hdistinct destKey excluded), hsort,
          List.filter_cons_of_neg (by simp), List.filter_eq_self]
        intro r' hr'
        have hlt := (List.pairwise_cons.mp hsorted).1 r' hr'
        simpa using fun heq => hlt.ne (congrArg (metric destKey) heq.symm)
      have hnext : ∀ r' ∈ db.candidates ((db.routers r).getIdentHash :: excluded),
          db.distance destKey r' < 2 ^ 256 - 1 := by
        intro r' hr'
        rw [hfilter] at hr'
        exact hnear r' (List.mem_of_mem_filter hr')
      rw [ih hnext, hrest, List.take_succ_cons]

/-- Every round of the loop of `HandleDatabaseStoreMsg` finds the same floodfill. -/
theorem floodTo_eq (db : NetDb) (destKey : IdentHash) (excluded : List IdentHash) (n : ℕ) :
    db.floodTo destKey excluded n =
      ((db.getClosestFloodfill destKey excluded).map (List.replicate n)).getD [] := by
  induction n with
  | zero => cases db.getClosestFloodfill destKey excluded <;> rfl
  | succ n ih =>
    rw [floodTo]
    cases hfound : db.getClosestFloodfill destKey excluded with
    | none => rw [ih, hfound]; rfl
    | some r => rw [ih, hfound]; rfl

end NetDb

/-! ## What is sent -/

theorem standsAt_memcpy (dst src : Mem) (dstOff srcOff n : ℕ) :
    StandsAt (memcpy dst dstOff src srcOff n) dstOff (slice src srcOff n) := by
  rw [StandsAt, length_slice]
  exact slice_memcpy_self dst src dstOff srcOff n

theorem standsAt_memcpy_of_le {m : Mem} {off pos : ℕ} {bs : List UInt8} (h : StandsAt m off bs)
    (src : Mem) (srcOff n : ℕ) (hle : off + bs.length ≤ pos) : StandsAt (memcpy m pos src srcOff n) off bs := by
  rw [StandsAt, slice_memcpy_before m src hle]
  exact h

/-- The header lies in front of the payload, and has its length. -/
theorem fillHeader_spec (env : FloodEnv) (typeID : UInt8) {m : I2NPMessage} {bs : List UInt8}
    (h : StandsAt m.buf m.payloadPos bs) (hlength : m.len = m.payloadPos + bs.length)
    (hshort : bs.length < 256 ^ 2) :
    StandsAt (env.fillHeader typeID m).buf (env.fillHeader typeID m).payloadPos bs ∧
      (env.fillHeader typeID m).getLength - headerSize = bs.length ∧
      (env.fillHeader typeID m).getSize = bs.length := by
  have hpos : m.payloadPos = m.offset + 16 := rfl
  have hlen : m.getLength - headerSize = bs.length := by
    show m.len - m.offset - 16 = bs.length
    omega
  refine ⟨?_, hlen, ?_⟩
  · -- every field of the header ends in front of the payload
    refine ((((h.store_of_ge ?_).store_of_ge ?_).store_of_ge ?_).store_of_ge ?_).store_of_ge ?_ <;>
      simp [hpos, headerMsgIDOffset, headerExpirationOffset, headerSizeOffset, headerChksOffset]
  · have hsize : StandsAt (env.fillHeader typeID m).buf (m.offset + headerSizeOffset)
        (writeBE 2 (m.getLength - headerSize)) :=
      (standsAt_store _ _ _).store_of_le (by rw [length_writeBE]; rfl)
    rw [I2NPMessage.getSize]
    exact hsize.readBE_eq.trans (by rw [hlen, Nat.mod_eq_of_lt hshort])

/-- Key and type, the zero token and the data stand one behind the other. -/
theorem standsAt_copied (m src : Mem) (pos length : ℕ) :
    StandsAt (memcpy (store (memcpy m pos src 0 33) (pos + 33) (writeU32 0)) (pos + databaseStoreHeaderSize)
        src repliedDataOffset length) pos
      (slice src 0 33 ++ writeU32 0 ++ slice src repliedDataOffset length) := by
  refine standsAt_append.mpr ⟨standsAt_append.mpr ⟨?_, ?_⟩, ?_⟩
  · have hfirst := standsAt_memcpy m src pos 0 33
    refine standsAt_memcpy_of_le (hfirst.store_of_le ?_) _ _ _ ?_ <;> rw [length_slice]
    exact Nat.add_le_add_left (by decide) pos
  · rw [length_slice]
    refine standsAt_memcpy_of_le (standsAt_store _ _ _) _ _ _ ?_
    rw [length_writeU32, Nat.add_assoc]
  · rw [List.length_append, length_slice, length_writeU32]
    exact standsAt_memcpy _ _ _ _ _

/-- The payload of the copy is the data, for every session that sends it first. -/
theorem payload_floodMsg {env : FloodEnv} {msg : StoreMsg} {copy : I2NPMessage} (h : floodMsg env msg = some copy)
    (link : Link) : (link.send copy).1 = floodData msg := by
  rw [floodMsg] at h
  dsimp only at h
  split_ifs at h with hfits
  obtain rfl := Option.some.inj h
  obtain ⟨-, hroom⟩ := not_or.mp hfits
  have hroom : 18 + 37 + (msg.size - repliedDataOffset) ≤ 4096 + 16 := not_lt.mp hroom
  have hdata : (floodData msg).length = 37 + (msg.size - repliedDataOffset) := by
    rw [floodData, List.length_append, List.length_append, length_slice, length_slice, length_writeU32]
  set written := I2NPMessage.mk _ _ _ _ _
  have hstands : StandsAt written.buf written.payloadPos (floodData msg) := standsAt_copied _ _ _ _
  have hlength : written.len = written.payloadPos + (floodData msg).length := by
    rw [hdata]
    rfl
  obtain ⟨hpayload, hlen, hsize⟩ := fillHeader_spec env 1 hstands hlength (by omega)
  cases link with
  | ntcp env' session =>
    show slice _ _ ((env.fillHeader 1 written).getLength - headerSize) = _
    rw [hlen]
    exact hpayload
  | ssu =>
    show slice _ _ (env.fillHeader 1 written).getSize = _
    rw [hsize]
    exact hpayload

/-- The first recipient is sent the data. -/
theorem NetDb.flood_head {env : FloodEnv} {link : ℕ → Link} {db : NetDb} {msg : StoreMsg}
    {sent : ℕ × List UInt8} {rest : List (ℕ × List UInt8)} (h : db.flood env link msg = some (sent :: rest)) :
    sent.2 = floodData msg := by
  rw [NetDb.flood] at h
  split_ifs at h
  · cases h
  · obtain ⟨copy, hcopy, hsent⟩ := Option.map_eq_some_iff.mp h
    cases hto : db.floodTo (env.routingKey (IdentHash.ofMem msg.payload 0)) [] 3 with
    | nil =>
      rw [hto] at hsent
      cases hsent
    | cons r rs =>
      rw [hto] at hsent
      obtain ⟨rfl, -⟩ := List.cons.inj hsent
      exact payload_floodMsg hcopy _

/-- A message that has been converted by `ToSSU` has seconds in place of its size. -/
theorem getSize_toSSU (m : I2NPMessage) : m.toSSU.1.getSize = m.getExpiration / 1000 / 256 % 2 ^ 16 := by
  have hinside : slice m.toSSU.1.buf (m.ssuHeaderPos + 1 + 1) 2 =
      ((writeBE 4 (m.getExpiration / 1000)).drop 1).take 2 :=
    slice_store_sub _ (by rw [length_writeBE]; omega)
  have hpos : m.ssuHeaderPos + 1 + 1 = m.toSSU.1.offset + headerSizeOffset := by
    show m.offset + 16 - 5 + 1 + 1 = m.offset + 13
    omega
  have hbytes : ((writeBE 4 (m.getExpiration / 1000)).drop 1).take 2 =
      writeBE 2 (m.getExpiration / 1000 / 256) := by
    simp [writeBE, Nat.div_div_eq_div_mul]
  rw [I2NPMessage.getSize, ← hpos, hinside, hbytes, readBE_writeBE]
  rfl

/-- What a second session over SSU sends of a message has nothing to do with its size. -/
theorem length_send_send_ssu (m : I2NPMessage) :
    (Link.ssu.send (Link.ssu.send m).2).1.length = m.getExpiration / 1000 / 256 % 2 ^ 16 := by
  rw [← getSize_toSSU]
  exact length_slice _ _ _

/-! ## The closest floodfills -/

/-- A message has data, and its copy fits into the buffer of a short message. -/
def StoreMsg.Fits (msg : StoreMsg) : Prop := repliedDataOffset ≤ msg.size ∧ msg.size ≤ 4130

instance (msg : StoreMsg) : Decidable msg.Fits := by unfold StoreMsg.Fits; infer_instance

theorem isSome_floodMsg (env : FloodEnv) (msg : StoreMsg) : (floodMsg env msg).isSome ↔ msg.Fits := by
  have hcapacity : I2NPMessage.newI2NPShortMessage.payloadPos + databaseStoreHeaderSize +
      (msg.size - repliedDataOffset) > I2NPMessage.newI2NPShortMessage.capacity ↔
        18 + 37 + (msg.size - 73) > 4096 + 16 := Iff.rfl
  have hoffset : repliedDataOffset = 73 := rfl
  rw [floodMsg, StoreMsg.Fits, hoffset]
  dsimp only
  split_ifs with hbad
  · simp only [Option.isSome_none, Bool.false_eq_true, false_iff]
    rcases hbad with hshort | hlong
    · omega
    · have := hcapacity.mp hlong
      omega
  · simp only [Option.isSome_some, true_iff]
    obtain ⟨hlong, hroom⟩ := not_or.mp hbad
    have := fun h => hroom (hcapacity.mpr h)
    omega

theorem map_fst_sendAll (link : ℕ → Link) (msg : I2NPMessage) (rs : List ℕ) :
    (sendAll link msg rs).map Prod.fst = rs := by
  induction rs generalizing msg with
  | nil => rfl
  | cons r rs ih => rw [sendAll, List.map_cons, ih]

/-- The copy is sent to the three closest reachable floodfills, or to all if there are fewer, once to each, and each is
sent the data. -/
def NetDb.FloodsClosest (env : FloodEnv) (link : ℕ → Link) (db : NetDb) (msg : StoreMsg) : Prop :=
  ∃ sent, db.flood env link msg = some sent ∧
    Least (db.distance (env.routingKey (IdentHash.ofMem msg.payload 0))) 3 (db.candidates [])
      (sent.map Prod.fst) ∧
    ∀ s ∈ sent, s.2 = floodData msg

namespace NetDb

theorem flood_eq {env : FloodEnv} (hfloodfill : env.isFloodfill = true) (link : ℕ → Link) (db : NetDb)
    {msg : StoreMsg} (htoken : readBE (slice msg.payload 33 4) ≠ 0) :
    db.flood env link msg =
      if IdentHash.ofMem msg.payload 0 = IdentHash.zero then some []
      else (floodMsg env msg).map fun copy =>
        sendAll link copy (db.floodTo (env.routingKey (IdentHash.ofMem msg.payload 0)) [] 3) := by
  rw [flood]
  simp [htoken, hfloodfill]

/-- The closest floodfills are never found in equal rounds. -/
theorem candidates_eq_nil_of_floodTo {db : NetDb} {destKey : IdentHash}
    (h : Least (db.distance destKey) 3 (db.candidates []) (db.floodTo destKey [] 3)) : db.candidates [] = [] := by
  rw [floodTo_eq] at h
  cases hfound : db.getClosestFloodfill destKey [] with
  | none =>
    rw [hfound] at h
    have hlength : 0 = min 3 (db.candidates []).length := h.length_eq
    exact List.eq_nil_of_length_eq_zero (by omega)
  | some r =>
    rw [hfound] at h
    -- a floodfill is not closer than itself
    have hsorted : Sorted (db.distance destKey) [r, r, r] := h.sorted
    exact absurd ((List.pairwise_cons.mp hsorted).1 r List.mem_cons_self) (lt_irrefl _)

theorem FloodsClosest.candidates_eq_nil {env : FloodEnv} {link : ℕ → Link} {db : NetDb} {msg : StoreMsg}
    (h : db.FloodsClosest env link msg) (hfloodfill : env.isFloodfill = true)
    (htoken : readBE (slice msg.payload 33 4) ≠ 0) : db.candidates [] = [] := by
  obtain ⟨sent, hsent, hleast, -⟩ := h
  rw [flood_eq hfloodfill link db htoken] at hsent
  split_ifs at hsent
  · obtain rfl := Option.some.inj hsent
    have hlength : 0 = min 3 (db.candidates []).length := hleast.length_eq
    exact List.eq_nil_of_length_eq_zero (by omega)
  · obtain ⟨copy, -, rfl⟩ := Option.map_eq_some_iff.mp hsent
    rw [map_fst_sendAll] at hleast
    exact candidates_eq_nil_of_floodTo hleast

theorem floodTo_eq_nil {db : NetDb} (h : db.candidates [] = []) (destKey : IdentHash) (n : ℕ) :
    db.floodTo destKey [] n = [] := by
  rw [floodTo_eq]
  cases hfound : db.getClosestFloodfill destKey [] with
  | none => rfl
  | some r =>
    obtain ⟨hmem, hcandidate, -⟩ := Asking.isClosest_of_getClosestFloodfill hfound
    have hr := mem_candidates.mpr ⟨hmem, hcandidate⟩
    rw [h] at hr
    exact absurd hr List.not_mem_nil

/-- The copy reaches the closest floodfills exactly if there are none to reach: the loop never excludes a floodfill that
it has sent the copy to. A message without a key is not flooded. -/
theorem floodsClosest_iff {env : FloodEnv} (hfloodfill : env.isFloodfill = true) (link : ℕ → Link) (db : NetDb)
    {msg : StoreMsg} (htoken : readBE (slice msg.payload 33 4) ≠ 0) :
    db.FloodsClosest env link msg ↔
      db.reachableFloodfills = [] ∧ (IdentHash.ofMem msg.payload 0 = IdentHash.zero ∨ msg.Fits) := by
  have hcandidates : db.candidates [] = db.reachableFloodfills := by
    simp [candidates]
  rw [← hcandidates]
  constructor
  · intro h
    refine ⟨h.candidates_eq_nil hfloodfill htoken, ?_⟩
    obtain ⟨sent, hsent, -⟩ := h
    rw [flood_eq hfloodfill link db htoken] at hsent
    split_ifs at hsent with hzero
    · exact .inl hzero
    · obtain ⟨copy, hcopy, -⟩ := Option.map_eq_some_iff.mp hsent
      exact .inr ((isSome_floodMsg env msg).mp (by rw [hcopy]; rfl))
  · rintro ⟨hnone, hsendable⟩
    have hflood : db.flood env link msg = some [] := by
      rw [flood_eq hfloodfill link db htoken]
      split_ifs with hzero
      · rfl
      · obtain ⟨copy, hcopy⟩ :=
          Option.isSome_iff_exists.mp ((isSome_floodMsg env msg).mpr (hsendable.resolve_left hzero))
        rw [hcopy, floodTo_eq_nil hnone]
        rfl
    refine ⟨[], hflood, ?_, fun _ hsent => absurd hsent List.not_mem_nil⟩
    rw [hnone]
    exact ⟨rfl, fun _ hf => absurd hf List.not_mem_nil, List.Pairwise.nil,
      fun _ hf => absurd hf List.not_mem_nil⟩

/-- A floodfill with the routing keys of the hashes themselves. -/
def exampleFloodEnv : FloodEnv where
  routingKey := id
  isFloodfill := true
  sha256 := fun bytes => exampleIdent (bytes.headD 0)
  msgID := 7
  milliseconds := 1577836800000

/-- A message with a reply token and one byte of data. -/
def exampleRepliedStore : StoreMsg where
  payload := store (fun _ => 0) 0 ((exampleIdent 1).bytes ++ [1] ++ [0, 0, 0, 9] ++ List.replicate 36 2 ++ [5])
  size := 74
  hasTunnel := false

/-- A database without floodfills. -/
theorem floodsClosest_example :
    ({} : NetDb).FloodsClosest exampleFloodEnv (fun _ => .ssu) exampleRepliedStore :=
  (floodsClosest_iff rfl (fun _ => .ssu) {} (by decide +kernel)).mpr ⟨rfl, .inr (by decide)⟩

/-- With two floodfills, the closest one is sent the copy three times. -/
theorem not_floodsClosest_twoFloodfills : ∃ (env : FloodEnv) (link : ℕ → Link) (db : NetDb) (msg : StoreMsg),
    env.isFloodfill = true ∧ readBE (slice msg.payload 33 4) ≠ 0 ∧ msg.Fits ∧
      db.floodTo (env.routingKey (IdentHash.ofMem msg.payload 0)) [] 3 = [1, 1, 1] ∧
      ¬ db.FloodsClosest env link msg := by
  have htoken : readBE (slice exampleRepliedStore.payload 33 4) ≠ 0 := by decide +kernel
  refine ⟨exampleFloodEnv, fun _ => .ssu, twoFloodfills, exampleRepliedStore, rfl, htoken, by decide,
    by decide +kernel, ?_⟩
  intro h
  have hnone := h.candidates_eq_nil rfl htoken
  revert hnone
  decide +kernel

end NetDb

end Router
