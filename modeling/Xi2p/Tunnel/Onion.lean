import Xi2p.Tunnel.Build

/-!
# The onion of a tunnel build message

A build message goes from its creator through the hops of the tunnel and back. Every record is
followed on its own: `recordAt` of the message after one of the functions of `Build.lean` is a
function of `recordAt` before it.

* `recordAt_decryptFollowing`: the record of a hop is wrapped by the hops in front of it.
* `Visit.recordAt_visit`: a hop puts its reply into its record and encrypts all of them.
* `recordAt_decryptPreceding`: the creator takes off the layers of the hops behind a record.
* `build_visitAll`: every hop finds the clear text made for it, and the creator reads the status
  that it wrote.
-/

namespace Tunnel

open Bytes CBC Traced

variable {crypto : BuildCrypto}

/-! ## Layers of a record -/

/-- The encryption of a record by a hop. -/
def encryptRecord (crypto : BuildCrypto) (hop : TunnelHopConfig) (r : List (Block 16)) :
    List (Block 16) :=
  (Encryption.encrypt ⟨crypto.aes hop.aesAttributes.replyKey, hop.aesAttributes.replyIV⟩ r).1

/-- The decryption of a record for a hop. -/
def decryptRecord (crypto : BuildCrypto) (hop : TunnelHopConfig) (r : List (Block 16)) :
    List (Block 16) :=
  (Decryption.decrypt ⟨crypto.aes hop.aesAttributes.replyKey, hop.aesAttributes.replyIV⟩ r).1

theorem encryptRecord_decryptRecord (hop : TunnelHopConfig) (r : List (Block 16)) :
    encryptRecord crypto hop (decryptRecord crypto hop r) = r :=
  InSync.encrypt ⟨rfl, rfl⟩ r

theorem decryptRecord_encryptRecord (hop : TunnelHopConfig) (r : List (Block 16)) :
    decryptRecord crypto hop (encryptRecord crypto hop r) = r :=
  (InSync.decrypt ⟨rfl, rfl⟩ r).1

section Decrypt

variable {records : ℕ} {indices : List ℕ} {i : ℕ}

theorem recordAt_decryptRecords_of_mem (hop : TunnelHopConfig) (hnodup : indices.Nodup) (m : Mem)
    (h : i ∈ indices) : recordAt (decryptRecords crypto hop records indices m).val records i =
      decryptRecord crypto hop (recordAt m records i) := by
  rw [decryptRecords, recordAt_cryptRecords_of_mem hnodup m h, overBlocks_decryptBlock]
  rfl

theorem recordAt_decryptRecords_of_notMem (hop : TunnelHopConfig) (m : Mem) (h : i ∉ indices) :
    recordAt (decryptRecords crypto hop records indices m).val records i = recordAt m records i :=
  recordAt_cryptRecords_of_notMem m h

end Decrypt

/-! ## Making the message -/

section Build

variable {records : ℕ}

theorem recordAt_decryptFollowing_of_notMem {hops : List IndexedHop} (m : Mem) {i : ℕ}
    (h : i ∉ hops.map (·.recordIndex)) :
    recordAt (decryptFollowing crypto records hops m) records i = recordAt m records i := by
  induction hops with
  | nil => rfl
  | cons g following ih =>
    rw [List.map_cons, List.mem_cons, not_or] at h
    rw [decryptFollowing, recordAt_decryptRecords_of_notMem _ _ h.2, ih h.2]

/-- The record of a hop is decrypted for the hops in front of it. The induction is on these. -/
theorem recordAt_decryptFollowing {pre post : List IndexedHop} {h : IndexedHop}
    (hnodup : ((pre ++ h :: post).map (·.recordIndex)).Nodup) (m : Mem) :
    recordAt (decryptFollowing crypto records (pre ++ h :: post) m) records h.recordIndex =
      (pre.map (·.hop)).foldr (decryptRecord crypto) (recordAt m records h.recordIndex) := by
  induction pre with
  | nil =>
    rw [List.nil_append, List.map_cons, List.nodup_cons] at hnodup
    rw [List.nil_append, decryptFollowing, recordAt_decryptRecords_of_notMem _ _ hnodup.1,
      recordAt_decryptFollowing_of_notMem _ hnodup.1]
    rfl
  | cons g pre ih =>
    rw [List.cons_append, List.map_cons, List.nodup_cons] at hnodup
    have hmem : h.recordIndex ∈ (pre ++ h :: post).map (·.recordIndex) := by simp
    rw [List.cons_append, decryptFollowing, recordAt_decryptRecords_of_mem _ hnodup.2 _ hmem,
      ih hnodup.2]
    rfl

theorem decryptFollowing_of_lt (hops : List IndexedHop) (m : Mem) {a : ℕ} (h : a < records) :
    decryptFollowing crypto records hops m a = m a := by
  induction hops with
  | nil => rfl
  | cons g following ih => rw [decryptFollowing, decryptRecords, cryptRecords_of_lt _ _ h, ih]

/-- The bytes of a request record. -/
def requestRecord (hop : TunnelHopConfig) (c : ClearText) : List UInt8 :=
  hop.identHash.bytes.take 16 ++ (hop.elGamalEncrypt c).bytes

theorem slice_of_requestRecord {hop : TunnelHopConfig} {c : ClearText} {m : Mem} {i : ℕ}
    (h : bytesOf (recordAt m records i) = requestRecord hop c) :
    slice m (recordPos records i) 16 = hop.identHash.bytes.take 16 ∧
      slice m (recordPos records i + 16) 512 = (hop.elGamalEncrypt c).bytes := by
  have hsplit : slice m (recordPos records i) tunnelBuildRecordSize =
      slice m (recordPos records i) 16 ++ slice m (recordPos records i + 16) 512 :=
    slice_add _ _ 16 512
  rw [bytesOf_recordAt, hsplit] at h
  exact List.append_inj h (by simp)

theorem bytesOf_recordAt_createBuildRequestRecord (hop : TunnelHopConfig) (env : RecordEnv)
    (replyMsgID : UInt32) (m : Mem) (i : ℕ) :
    bytesOf (recordAt (hop.createBuildRequestRecord env replyMsgID m (recordPos records i))
      records i) = requestRecord hop (hop.clearText env replyMsgID) := by
  have hlen : (hop.identHash.bytes.take 16).length = 16 := by simp
  rw [bytesOf_recordAt]
  show slice _ (recordPos records i) (16 + 512) = _
  rw [slice_add]
  refine congrArg₂ _ ?_ ?_
  · have hself := slice_store_self (store m (recordPos records i + encryptedOffset)
      (hop.elGamalEncrypt (hop.clearText env replyMsgID)).bytes) (recordPos records i)
      (hop.identHash.bytes.take 16)
    rwa [hlen] at hself
  · have hself := slice_store_self m (recordPos records i + encryptedOffset)
      (hop.elGamalEncrypt (hop.clearText env replyMsgID)).bytes
    rw [Block.length_bytes] at hself
    rw [← hself]
    -- the hash is written in front of the encrypted part
    exact slice_congr fun a _ => store_of_le _ _ (by rw [hlen]; omega)

theorem createBuildRequestRecord_of_outside (hop : TunnelHopConfig) (env : RecordEnv)
    (replyMsgID : UInt32) (m : Mem) {pos a : ℕ}
    (h : a < pos ∨ pos + tunnelBuildRecordSize ≤ a) :
    hop.createBuildRequestRecord env replyMsgID m pos a = m a := by
  have hlen : (hop.identHash.bytes.take 16).length = 16 := by simp
  unfold TunnelHopConfig.createBuildRequestRecord
  simp only [tunnelBuildRecordSize] at h
  obtain hlt | hge := h
  · exact (store_of_lt _ _ hlt).trans (store_of_lt _ _ (by omega))
  · exact (store_of_le _ _ (by rw [hlen]; omega)).trans
      (store_of_le _ _ (by rw [Block.length_bytes]; omega))

/-- The ID of the message that the hops behind `following` are to send. -/
def nextMsgID {α : Type} (replyMsgID : UInt32) (env : RecordEnv) (following : List α) : UInt32 :=
  if following.isEmpty then replyMsgID else env.rand

theorem createRecords_cons (replyMsgID : UInt32) (h : IndexedHop) (env : RecordEnv)
    (rest : List (IndexedHop × RecordEnv)) (m : Mem) :
    createRecords replyMsgID records ((h, env) :: rest) m =
      createRecords replyMsgID records rest (h.hop.createBuildRequestRecord env
        (nextMsgID replyMsgID env rest) m (recordPos records h.recordIndex)) := by
  rw [createRecords, nextMsgID]
  cases rest <;> rfl

theorem recordAt_createRecords_of_notMem (replyMsgID : UInt32)
    {hops : List (IndexedHop × RecordEnv)} (m : Mem) {i : ℕ}
    (h : i ∉ hops.map (·.1.recordIndex)) :
    recordAt (createRecords replyMsgID records hops m) records i = recordAt m records i := by
  induction hops generalizing m with
  | nil => rfl
  | cons g rest ih =>
    rw [List.map_cons, List.mem_cons, not_or] at h
    rw [createRecords_cons, ih _ h.2]
    exact recordAt_congr fun a hlo hhi =>
      createBuildRequestRecord_of_outside _ _ _ _ (recordPos_apart h.1 hlo hhi)

/-- The record of a hop is the one that was made for it. -/
theorem bytesOf_recordAt_createRecords (replyMsgID : UInt32)
    {pre post : List (IndexedHop × RecordEnv)} {h : IndexedHop} {env : RecordEnv}
    (hnodup : ((pre ++ (h, env) :: post).map (·.1.recordIndex)).Nodup) (m : Mem) :
    bytesOf (recordAt (createRecords replyMsgID records (pre ++ (h, env) :: post) m) records
      h.recordIndex) =
        requestRecord h.hop (h.hop.clearText env (nextMsgID replyMsgID env post)) := by
  induction pre generalizing m with
  | nil =>
    rw [List.nil_append, List.map_cons, List.nodup_cons] at hnodup
    rw [List.nil_append, createRecords_cons, recordAt_createRecords_of_notMem _ _ hnodup.1,
      bytesOf_recordAt_createBuildRequestRecord]
  | cons g pre ih =>
    rw [List.cons_append, List.map_cons, List.nodup_cons] at hnodup
    rw [List.cons_append, createRecords_cons, ih hnodup.2]

theorem createRecords_of_lt (replyMsgID : UInt32) (hops : List (IndexedHop × RecordEnv)) (m : Mem)
    {a : ℕ} (h : a < records) : createRecords replyMsgID records hops m a = m a := by
  induction hops generalizing m with
  | nil => rfl
  | cons g rest ih =>
    rw [createRecords_cons, ih]
    refine createBuildRequestRecord_of_outside _ _ _ _ (.inl ?_)
    simp only [recordPos]
    omega

theorem recordAt_fillRecords_of_notMem (random : ℕ → Block tunnelBuildRecordSize)
    {indices : List ℕ} (m : Mem) {i : ℕ} (h : i ∉ indices) :
    recordAt (fillRecords random records indices m) records i = recordAt m records i := by
  induction indices generalizing m with
  | nil => rfl
  | cons j rest ih =>
    rw [List.mem_cons, not_or] at h
    rw [fillRecords, ih _ h.2]
    refine recordAt_congr fun a hlo hhi => ?_
    obtain hlt | hge := recordPos_apart h.1 hlo hhi
    · exact store_of_lt _ _ hlt
    · exact store_of_le _ _ (by rw [Block.length_bytes]; exact hge)

theorem fillRecords_of_lt (random : ℕ → Block tunnelBuildRecordSize) (indices : List ℕ) (m : Mem)
    {a : ℕ} (h : a < records) : fillRecords random records indices m a = m a := by
  induction indices generalizing m with
  | nil => rfl
  | cons j rest ih =>
    rw [fillRecords, ih]
    refine store_of_lt _ _ ?_
    simp only [recordPos]
    omega

end Build

/-! ## The hops -/

/-- A hop of the tunnel with its router: the configuration and the record index that the creator
has for it, the state of the router, the padding of its reply, and its buffer for the clear text.
The router has the identity of the configuration, and decrypts what is encrypted to it. -/
structure Visit where
  /-- The hop. -/
  hop : TunnelHopConfig
  /-- What the request record takes from elsewhere. -/
  env : RecordEnv
  /-- `m_RecordIndex`. -/
  recordIndex : ℕ
  /-- The router of the hop. -/
  ctx : RouterContext
  /-- The padding of the reply. -/
  padding : Block randpadSize
  /-- `clear_text`, before the message is handled. -/
  buffer : ClearText
  /-- The router is the one that the creator has in mind. -/
  identHash_eq : ctx.identHash = hop.identHash
  /-- ElGamal decrypts what it encrypted. -/
  decrypts : ∀ c, ctx.elGamalDecrypt (hop.elGamalEncrypt c) = some c

namespace Visit

/-- The hop, as the creator keeps it. -/
def indexedHop (v : Visit) : IndexedHop where
  hop := v.hop
  recordIndex := v.recordIndex

/-- The hop handles a build message with the payload at the given place. -/
def visit (crypto : BuildCrypto) (payload : ℕ) (v : Visit) (m : Mem) : BuildOutcome :=
  (handleBuildRequestRecords crypto v.ctx v.padding (m payload).toNat m (payload + 1)
    v.buffer).val

/-- The reply of the hop, in blocks. -/
def replyBlocks (crypto : BuildCrypto) (v : Visit) : List (Block 16) :=
  blocksAt (store (fun _ => 0) 0 (replyRecord crypto v.padding v.ctx.status)) 0 33

theorem length_replyRecord (crypto : BuildCrypto) (v : Visit) :
    (replyRecord crypto v.padding v.ctx.status).length = tunnelBuildRecordSize := by
  simp [replyRecord, randpadSize, tunnelBuildRecordSize]

theorem bytesOf_replyBlocks (crypto : BuildCrypto) (v : Visit) :
    bytesOf (v.replyBlocks crypto) = replyRecord crypto v.padding v.ctx.status := by
  have hself := slice_store_self (fun _ => 0) 0 (replyRecord crypto v.padding v.ctx.status)
  rw [length_replyRecord] at hself
  rw [replyBlocks, bytesOf_blocksAt]
  exact hself

/-- The hop finds its record. -/
theorem val_findRecord (v : Visit) {m : Mem} {records num : ℕ} {c : ClearText}
    (hlt : v.recordIndex < num)
    (hrecord : bytesOf (recordAt m records v.recordIndex) = requestRecord v.hop c)
    (hother : ∀ i < num, i ≠ v.recordIndex →
      slice m (recordPos records i) 16 ≠ v.ctx.identHash.bytes.take 16) :
    (findRecord v.ctx.identHash m records 0 num).val = some v.recordIndex := by
  refine val_findRecord_eq_some (Nat.zero_le _) (by omega) ?_ fun k _ hk => ?_
  · rw [v.identHash_eq]
    exact (slice_of_requestRecord hrecord).1
  · exact hother k (by omega) (by omega)

/-- And decrypts it. -/
theorem decryptedText_eq (v : Visit) {m : Mem} {records : ℕ} {c : ClearText}
    (hrecord : bytesOf (recordAt m records v.recordIndex) = requestRecord v.hop c) :
    decryptedText v.ctx m records v.recordIndex v.buffer = c := by
  have hencrypted : (Block.ofMem m (recordPos records v.recordIndex + encryptedOffset) : Block 512) =
      v.hop.elGamalEncrypt c := by
    ext1
    rw [Block.bytes_ofMem]
    exact (slice_of_requestRecord hrecord).2
  rw [decryptedText, hencrypted, v.decrypts, Option.getD_some]

/-- What the visit of a hop does to the message. -/
structure Replied (crypto : BuildCrypto) (payload : ℕ) (v : Visit) (m : Mem) (c : ClearText)
    (o : BuildOutcome) : Prop where
  handled : o.handled = true
  clearText_eq : o.clearText = c
  count_eq : o.mem payload = m payload
  own : recordAt o.mem (payload + 1) v.recordIndex =
    encryptRecord crypto v.hop (v.replyBlocks crypto)
  others : ∀ i < (m payload).toNat, i ≠ v.recordIndex →
    recordAt o.mem (payload + 1) i = encryptRecord crypto v.hop (recordAt m (payload + 1) i)

/-- The hop puts its reply into its record and encrypts all of them. -/
theorem replied_visit (v : Visit) {m : Mem} {payload : ℕ} {msgID : UInt32}
    (hlt : v.recordIndex < (m payload).toNat)
    (hrecord : bytesOf (recordAt m (payload + 1) v.recordIndex) =
      requestRecord v.hop (v.hop.clearText v.env msgID))
    (hother : ∀ i < (m payload).toNat, i ≠ v.recordIndex →
      slice m (recordPos (payload + 1) i) 16 ≠ v.ctx.identHash.bytes.take 16) :
    Replied crypto payload v m (v.hop.clearText v.env msgID) (v.visit crypto payload m) := by
  obtain ⟨hkey, hiv⟩ := v.hop.replyKey_clearText v.env msgID
  have hreply := length_replyRecord crypto v
  unfold visit
  rw [val_handleBuildRequestRecords_of_found (v.val_findRecord hlt hrecord hother),
    v.decryptedText_eq hrecord, hkey, hiv]
  constructor
  · rfl
  · rfl
  · dsimp only
    rw [cryptRecords_of_lt _ _ (Nat.lt_succ_self payload)]
    refine store_of_lt _ _ ?_
    simp only [recordPos]
    omega
  · dsimp only
    rw [recordAt_cryptRecords_of_mem List.nodup_range _ (List.mem_range.mpr hlt),
      overBlocks_encryptBlock]
    refine congrArg (encryptRecord crypto v.hop) (eq_of_bytesOf_eq ?_ ?_)
    · simp [recordAt, replyBlocks]
    · rw [bytesOf_recordAt, bytesOf_replyBlocks, ← hreply]
      exact slice_store_self _ _ _
  · intro i hi hne
    dsimp only
    rw [recordAt_cryptRecords_of_mem List.nodup_range _ (List.mem_range.mpr hi),
      overBlocks_encryptBlock]
    refine congrArg (encryptRecord crypto v.hop) (recordAt_congr fun a hlo hhi => ?_)
    obtain hbefore | hafter := recordPos_apart hne hlo hhi
    · exact store_of_lt _ _ hbefore
    · exact store_of_le _ _ (by rw [hreply]; exact hafter)

end Visit

/-- The message goes through the hops in order. -/
def visitAll (crypto : BuildCrypto) (payload : ℕ) : List Visit → Mem → List BuildOutcome × Mem
  | [], m => ([], m)
  | v :: rest, m =>
    let outcome := v.visit crypto payload m
    let (outcomes, m) := visitAll crypto payload rest outcome.mem
    (outcome :: outcomes, m)

/-- When a hop looks, no record other than its own begins with its identity hash. -/
def Unambiguous (crypto : BuildCrypto) (payload : ℕ) : List Visit → Mem → Prop
  | [], _ => True
  | v :: rest, m =>
    (∀ i < (m payload).toNat, i ≠ v.recordIndex →
      slice m (recordPos (payload + 1) i) 16 ≠ v.ctx.identHash.bytes.take 16) ∧
    Unambiguous crypto payload rest (v.visit crypto payload m).mem

/-- The clear texts that the creator makes for the hops. -/
def requests (replyMsgID : UInt32) : List Visit → List ClearText
  | [] => []
  | v :: rest =>
    v.hop.clearText v.env (nextMsgID replyMsgID v.env rest) :: requests replyMsgID rest

/-- The records of the hops still to come are wrapped by the hops in front of them. -/
def Wrapped (crypto : BuildCrypto) (replyMsgID : UInt32) (payload : ℕ) (vs : List Visit) (m : Mem) :
    Prop :=
  ∀ pre v post, vs = pre ++ v :: post → ∃ r : List (Block 16),
    bytesOf r = requestRecord v.hop (v.hop.clearText v.env (nextMsgID replyMsgID v.env post)) ∧
    recordAt m (payload + 1) v.recordIndex =
      (pre.map (·.hop)).foldr (decryptRecord crypto) r

/-- The layers that the hops put on a record, one after the other. -/
def encryptAll (crypto : BuildCrypto) (vs : List Visit) (r : List (Block 16)) : List (Block 16) :=
  (vs.map (·.hop)).foldl (fun r hop => encryptRecord crypto hop r) r

/-- What the visits of all hops do to the message. -/
structure Passed (crypto : BuildCrypto) (replyMsgID : UInt32) (payload : ℕ) (vs : List Visit)
    (m : Mem) (result : List BuildOutcome × Mem) : Prop where
  handled : result.1.map (fun o => (o.handled, o.clearText)) =
    (requests replyMsgID vs).map fun c => (true, c)
  count_eq : result.2 payload = m payload
  own : ∀ pre v post, vs = pre ++ v :: post →
    recordAt result.2 (payload + 1) v.recordIndex =
      encryptAll crypto (v :: post) (v.replyBlocks crypto)
  others : ∀ i < (m payload).toNat, i ∉ vs.map (·.recordIndex) →
    recordAt result.2 (payload + 1) i = encryptAll crypto vs (recordAt m (payload + 1) i)

/-- A visit takes one layer off the records of the hops still to come. -/
theorem Wrapped.tail {replyMsgID : UInt32} {payload : ℕ} {v : Visit} {vs : List Visit} {m m' : Mem}
    (h : Wrapped crypto replyMsgID payload (v :: vs) m)
    (hothers : ∀ w ∈ vs, recordAt m' (payload + 1) w.recordIndex =
      encryptRecord crypto v.hop (recordAt m (payload + 1) w.recordIndex)) :
    Wrapped crypto replyMsgID payload vs m' := by
  intro pre w post heq
  obtain ⟨r, hbytes, hrecord⟩ := h (v :: pre) w post (congrArg (v :: ·) heq)
  refine ⟨r, hbytes, ?_⟩
  have hmem : w ∈ vs := by simp [heq]
  rw [hothers w hmem, hrecord, List.map_cons, List.foldr_cons, encryptRecord_decryptRecord]

/-- The message goes through the hops. The induction is on the hops still to come. -/
theorem passed_visitAll {replyMsgID : UInt32} {payload : ℕ} {vs : List Visit} {m : Mem}
    (hnodup : (vs.map (·.recordIndex)).Nodup)
    (hlt : ∀ v ∈ vs, v.recordIndex < (m payload).toNat)
    (hwrapped : Wrapped crypto replyMsgID payload vs m)
    (hunambiguous : Unambiguous crypto payload vs m) :
    Passed crypto replyMsgID payload vs m (visitAll crypto payload vs m) := by
  induction vs generalizing m with
  | nil =>
    refine ⟨rfl, rfl, ?_, fun i _ _ => rfl⟩
    intro pre v post heq
    simp at heq
  | cons v rest ih =>
    rw [List.map_cons, List.nodup_cons] at hnodup
    obtain ⟨r, hbytes, hrecord⟩ := hwrapped [] v rest rfl
    have hreplied : Visit.Replied crypto payload v m _ (v.visit crypto payload m) :=
      v.replied_visit (hlt v List.mem_cons_self) ((congrArg bytesOf hrecord).trans hbytes)
        hunambiguous.1
    have hne : ∀ w ∈ rest, w.recordIndex ≠ v.recordIndex := by
      intro w hw heq
      exact hnodup.1 (List.mem_map.mpr ⟨w, hw, heq⟩)
    have hrest : ∀ w ∈ rest, w.recordIndex < (m payload).toNat :=
      fun w hw => hlt w (List.mem_cons_of_mem v hw)
    have hpassed := ih hnodup.2
      (fun w hw => by rw [hreplied.count_eq]; exact hrest w hw)
      (hwrapped.tail fun w hw => hreplied.others _ (hrest w hw) (hne w hw)) hunambiguous.2
    constructor
    · show (_, _) :: _ = (true, _) :: _
      rw [hreplied.handled, hreplied.clearText_eq, hpassed.handled]
    · exact hpassed.count_eq.trans hreplied.count_eq
    · intro pre w post heq
      match pre, heq with
      | [], heq =>
        obtain ⟨rfl, rfl⟩ := List.cons_eq_cons.mp heq
        refine (hpassed.others _ ?_ hnodup.1).trans ?_
        · rw [hreplied.count_eq]
          exact hlt v List.mem_cons_self
        · rw [hreplied.own]
          rfl
      | u :: pre, heq => exact hpassed.own pre w post (List.cons_eq_cons.mp heq).2
    · intro i hi hnotMem
      rw [List.map_cons, List.mem_cons, not_or] at hnotMem
      refine (hpassed.others i (by rwa [hreplied.count_eq]) hnotMem.2).trans ?_
      rw [hreplied.others i hi hnotMem.1]
      rfl

/-! ## The reply -/

section Response

variable {num records : ℕ}

theorem val_decryptPreceding_cons (h : IndexedHop) (preceding : List IndexedHop) (m : Mem) :
    (decryptPreceding crypto num records (h :: preceding) m).val =
      (decryptPreceding crypto num records preceding
        (decryptRecords crypto h.hop records
          (((h :: preceding).map (·.recordIndex)).filter (· < num)) m).val).val := rfl

theorem recordAt_decryptPreceding_of_notMem {hops : List IndexedHop} (m : Mem) {i : ℕ}
    (h : i ∉ hops.map (·.recordIndex)) :
    recordAt (decryptPreceding crypto num records hops m).val records i = recordAt m records i := by
  induction hops generalizing m with
  | nil => rfl
  | cons g preceding ih =>
    have hg : i ∉ ((g :: preceding).map (·.recordIndex)).filter (· < num) :=
      fun hmem => h (List.mem_filter.mp hmem).1
    rw [List.map_cons, List.mem_cons, not_or] at h
    rw [val_decryptPreceding_cons, ih _ h.2, recordAt_decryptRecords_of_notMem _ _ hg]

/-- The record of a hop is decrypted for the hops behind it and for the hop itself. The induction is
on the hops behind it, from the last one on. -/
theorem recordAt_decryptPreceding {behind before : List IndexedHop} {h : IndexedHop}
    (hnodup : ((behind ++ h :: before).map (·.recordIndex)).Nodup) (hlt : h.recordIndex < num)
    (m : Mem) :
    recordAt (decryptPreceding crypto num records (behind ++ h :: before) m).val records
      h.recordIndex = decryptRecord crypto h.hop
        ((behind.map (·.hop)).foldl (fun r hop => decryptRecord crypto hop r)
          (recordAt m records h.recordIndex)) := by
  induction behind generalizing m with
  | nil =>
    have hmem : h.recordIndex ∈ ((h :: before).map (·.recordIndex)).filter (· < num) := by
      simp [hlt]
    rw [List.nil_append] at hnodup ⊢
    rw [val_decryptPreceding_cons,
      recordAt_decryptPreceding_of_notMem _ (List.nodup_cons.mp hnodup).1,
      recordAt_decryptRecords_of_mem _ (hnodup.filter _) _ hmem]
    rfl
  | cons g behind ih =>
    have hmem : h.recordIndex ∈
        ((g :: (behind ++ h :: before)).map (·.recordIndex)).filter (· < num) := by
      simp [hlt]
    rw [List.cons_append] at hnodup ⊢
    rw [val_decryptPreceding_cons, ih (List.nodup_cons.mp hnodup).2,
      recordAt_decryptRecords_of_mem _ (hnodup.filter _) _ hmem]
    rfl

/-- The last byte of a reply is its status. -/
theorem ret_of_replyBlocks {v : Visit} {m : Mem} {i : ℕ}
    (h : recordAt m records i = v.replyBlocks crypto) :
    m (recordPos records i + retOffset) = v.ctx.status := by
  have hbytes := congrArg bytesOf h
  rw [bytesOf_recordAt, v.bytesOf_replyBlocks, replyRecord] at hbytes
  have hlast := congrArg (fun bs => bs[retOffset]?) hbytes
  rw [getElem?_slice m (by decide)] at hlast
  simpa [List.getElem?_append, randpadSize, retOffset] using hlast

end Response

/-! ## The whole way -/

/-- A build message for a number of hops fits into a short I2NP message: the buffer has `4096 + 16`
bytes, and the payload starts at `18`. -/
def FitsShortMessage (numHops : ℕ) : Prop :=
  18 + (numRecords numHops * tunnelBuildRecordSize + 1) ≤ 4096 + 16

instance (numHops : ℕ) : Decidable (FitsShortMessage numHops) :=
  inferInstanceAs (Decidable (_ ≤ _))

section Whole

variable {replyMsgID : UInt32} {vs : List Visit} {spare : List ℕ}
  {random : ℕ → Block tunnelBuildRecordSize} {m : Mem} {payload : ℕ}

/-- The message that `Build` makes for the hops, when the shuffle gives them their record indices
and leaves the spare ones. -/
def buildFor (crypto : BuildCrypto) (replyMsgID : UInt32) (vs : List Visit) (spare : List ℕ)
    (random : ℕ → Block tunnelBuildRecordSize) (m : Mem) (payload : ℕ) : Mem :=
  build crypto replyMsgID (vs.map fun v => (v.hop, v.env)) (vs.map (·.recordIndex) ++ spare) random
    m payload

theorem indexHops_visits (vs : List Visit) (spare : List ℕ) :
    indexHops (vs.map fun v => (v.hop, v.env)) (vs.map (·.recordIndex) ++ spare) =
      vs.map fun v => (v.indexedHop, v.env) := by
  induction vs with
  | nil => rfl
  | cons v rest ih => exact congrArg (_ :: ·) ih

theorem buildFor_eq : buildFor crypto replyMsgID vs spare random m payload =
    decryptFollowing crypto (payload + 1) (vs.map (·.indexedHop))
      (fillRecords random (payload + 1) spare
        (createRecords replyMsgID (payload + 1) (vs.map fun v => (v.indexedHop, v.env))
          (store m payload [UInt8.ofNat (numRecords vs.length)]))) := by
  have hdrop : (vs.map (·.recordIndex) ++ spare).drop vs.length = spare :=
    List.drop_left' (List.length_map _)
  rw [buildFor, build, indexHops_visits, List.length_map, hdrop, List.map_map]
  rfl

theorem buildFor_count : buildFor crypto replyMsgID vs spare random m payload payload =
    UInt8.ofNat (numRecords vs.length) := by
  have hlt := Nat.lt_succ_self payload
  rw [buildFor_eq, decryptFollowing_of_lt _ _ hlt, fillRecords_of_lt _ _ _ hlt,
    createRecords_of_lt _ _ _ hlt]
  simp [store]

/-- Every record is wrapped by the hops in front of its hop. -/
theorem wrapped_buildFor (hnodup : (vs.map (·.recordIndex) ++ spare).Nodup) :
    Wrapped crypto replyMsgID payload vs
      (buildFor crypto replyMsgID vs spare random m payload) := by
  intro pre v post heq
  obtain ⟨hvs, -, hdisjoint⟩ := List.nodup_append'.mp hnodup
  have hspare : v.recordIndex ∉ spare := by
    refine fun hmem => hdisjoint (List.mem_map.mpr ⟨v, ?_, rfl⟩) hmem
    simp [heq]
  have hrecord : ((pre.map (·.indexedHop) ++ v.indexedHop :: post.map (·.indexedHop)).map
      (·.recordIndex)).Nodup := by
    simpa [heq, Visit.indexedHop, Function.comp_def] using hvs
  have hcreated : (((pre.map fun v => (v.indexedHop, v.env)) ++ (v.indexedHop, v.env) ::
      post.map fun v => (v.indexedHop, v.env)).map (·.1.recordIndex)).Nodup := by
    simpa [heq, Visit.indexedHop, Function.comp_def] using hvs
  rw [buildFor_eq, heq, List.map_append, List.map_cons, List.map_append, List.map_cons]
  refine ⟨_, ?_, (recordAt_decryptFollowing hrecord _).trans (by rw [List.map_map]; rfl)⟩
  show bytesOf (recordAt _ (payload + 1) v.recordIndex) = _
  rw [recordAt_fillRecords_of_notMem _ _ hspare]
  refine (bytesOf_recordAt_createRecords replyMsgID hcreated _).trans ?_
  simp [nextMsgID, Visit.indexedHop]

/-- The status bytes that the creator reads are those that the hops wrote. -/
theorem rets_of_passed {result : List BuildOutcome × Mem}
    (hpassed : Passed crypto replyMsgID payload vs m result)
    (hnodup : (vs.map (·.recordIndex)).Nodup)
    (hlt : ∀ v ∈ vs, v.recordIndex < (m payload).toNat) :
    (handleTunnelBuildResponse crypto (vs.map (·.indexedHop)) result.2 payload).val.rets =
      vs.map (·.ctx.status) := by
  show (readRets (payload + 1) (decryptPreceding crypto (result.2 payload).toNat (payload + 1)
    (vs.map (·.indexedHop)).reverse result.2).val (vs.map (·.indexedHop))).val = _
  rw [val_readRets, List.map_map]
  refine List.map_congr_left fun v hv => ?_
  obtain ⟨pre, post, heq⟩ := List.append_of_mem hv
  have hreverse : (vs.map (·.indexedHop)).reverse =
      (post.map (·.indexedHop)).reverse ++ v.indexedHop :: (pre.map (·.indexedHop)).reverse := by
    simp [heq]
  have hrecords : (((post.map (·.indexedHop)).reverse ++ v.indexedHop ::
      (pre.map (·.indexedHop)).reverse).map (·.recordIndex)).Nodup := by
    rw [← hreverse, List.map_reverse, List.nodup_reverse, List.map_map]
    exact hnodup
  have hindex : v.indexedHop.recordIndex < (result.2 payload).toNat := by
    rw [hpassed.count_eq]
    exact hlt v hv
  have hreply : recordAt (decryptPreceding crypto (result.2 payload).toNat (payload + 1)
      (vs.map (·.indexedHop)).reverse result.2).val (payload + 1) v.recordIndex =
        v.replyBlocks crypto := by
    rw [hreverse]
    refine (recordAt_decryptPreceding hrecords hindex _).trans ?_
    have hown : recordAt result.2 (payload + 1) v.indexedHop.recordIndex =
        encryptAll crypto (v :: post) (v.replyBlocks crypto) := hpassed.own pre v post heq
    -- the layers come off in the order opposite to the one in which they were put on
    rw [hown, List.map_reverse, List.foldl_reverse, List.map_map]
    exact foldr_foldl_cancel decryptRecord_encryptRecord ((v :: post).map (·.hop)) _
  exact ret_of_replyBlocks hreply

/-- A build message with every shuffle of the record indices goes through the hops of the tunnel:
every hop finds the clear text that was made for it, and the creator reads from what comes back the
status that the hop wrote, and accepts the tunnel if all of them are zero. -/
theorem build_visitAll (crypto : BuildCrypto) (replyMsgID : UInt32) (vs : List Visit)
    (spare : List ℕ) (random : ℕ → Block tunnelBuildRecordSize) (m : Mem) (payload : ℕ)
    (hshuffle : (vs.map (·.recordIndex) ++ spare).Perm (List.range (numRecords vs.length)))
    (hfits : FitsShortMessage vs.length)
    (hunambiguous : Unambiguous crypto payload vs
      (buildFor crypto replyMsgID vs spare random m payload)) :
    let result := visitAll crypto payload vs
      (buildFor crypto replyMsgID vs spare random m payload)
    let response :=
      (handleTunnelBuildResponse crypto (vs.map (·.indexedHop)) result.2 payload).val
    result.1.map (fun o => (o.handled, o.clearText)) =
        (requests replyMsgID vs).map (fun c => (true, c)) ∧
      response.rets = vs.map (·.ctx.status) ∧
      (response.established = true ↔ ∀ v ∈ vs, v.ctx.status = 0) := by
  have hnodup : (vs.map (·.recordIndex) ++ spare).Nodup := hshuffle.nodup_iff.mpr List.nodup_range
  have hvs : (vs.map (·.recordIndex)).Nodup := (List.nodup_append'.mp hnodup).1
  have hcount : (buildFor crypto replyMsgID vs spare random m payload payload).toNat =
      numRecords vs.length := by
    rw [buildFor_count, UInt8.toNat_ofNat']
    simp only [FitsShortMessage, tunnelBuildRecordSize] at hfits
    omega
  have hlt : ∀ v ∈ vs, v.recordIndex <
      (buildFor crypto replyMsgID vs spare random m payload payload).toNat := by
    intro v hv
    rw [hcount, ← List.mem_range, ← hshuffle.mem_iff]
    exact List.mem_append_left _ (List.mem_map.mpr ⟨v, hv, rfl⟩)
  have hpassed := passed_visitAll hvs hlt (wrapped_buildFor hnodup) hunambiguous
  have hrets := rets_of_passed hpassed hvs hlt
  refine ⟨hpassed.handled, hrets, ?_⟩
  rw [established_handleTunnelBuildResponse, hrets]
  simp

theorem length_exampleEncrypted (c : ClearText) :
    (c.bytes ++ List.replicate 290 0).length = 512 := by
  rw [List.length_append, c.length_bytes, List.length_replicate]

theorem length_exampleDecrypted (b : Block 512) : (b.bytes.take 222).length = 222 := by
  rw [List.length_take, b.length_bytes]
  rfl

/-- A hop that accepts, with the identity hash of bytes `7` and the record index `1`. -/
def exampleVisit : Visit where
  hop :=
    { identHash := Block.const 7
      elGamalEncrypt := fun c => ⟨c.bytes ++ List.replicate 290 0, length_exampleEncrypted c⟩
      tunnelID := 5
      nextIdentHash := Block.const 8
      nextTunnelID := 6
      aesAttributes :=
        { layerKey := Block.const 1
          ivKey := Block.const 2
          replyKey := Block.const 3
          replyIV := Block.const 4 }
      isGateway := true
      isEndpoint := false }
  env :=
    { hoursSinceEpoch := 400000
      rand := 9
      padding := Block.const 0 }
  recordIndex := 1
  ctx :=
    { identHash := Block.const 7
      elGamalDecrypt := fun b => some ⟨b.bytes.take 222, length_exampleDecrypted b⟩
      acceptsTunnels := true
      isBandwidthExceeded := false
      transitTunnels := [] }
  padding := Block.const 0
  buffer := Block.const 0
  identHash_eq := rfl
  decrypts c := by
    refine congrArg some (Block.ext ?_)
    exact List.take_left' c.length_bytes

/-- Random records of zeros. -/
def zeroRecords (_ : ℕ) : Block tunnelBuildRecordSize :=
  Block.const 0

theorem build_visitAll_exampleVisit :
    (handleTunnelBuildResponse exampleCrypto [exampleVisit.indexedHop]
      (visitAll exampleCrypto 0 [exampleVisit]
        (buildFor exampleCrypto 77 [exampleVisit] [3, 0, 2] zeroRecords (fun _ => 0) 0)).2
      0).val.established = true :=
  (build_visitAll exampleCrypto 77 [exampleVisit] [3, 0, 2] zeroRecords (fun _ => 0) 0
    (by decide) (by decide) ⟨by decide +kernel, trivial⟩).2.2.mpr (by decide)

end Whole

end Tunnel
