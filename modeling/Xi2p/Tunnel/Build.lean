import Xi2p.Tunnel.Layers

/-!
# Tunnel build messages

The build records of `core/router/tunnel/config.cc`, `Tunnel::Build` and
`Tunnel::HandleTunnelBuildResponse` of `core/router/tunnel/impl.cc`, and
`HandleBuildRequestRecords` of `core/router/i2np.cc`.

A build message is a count followed by records of `528` bytes. The creator makes a record for every
hop and decrypts it with the keys of the hops in front of it. A hop finds its own record, puts its
reply there, and encrypts all records. The creator decrypts what comes back.

Messages are memories, with the accesses to them traced. AES, SHA-256 and ElGamal are parameters.
-/

namespace Tunnel

open Bytes CBC Traced

/-! ## Records -/

/-- `TUNNEL_BUILD_RECORD_SIZE`. -/
abbrev tunnelBuildRecordSize : ℕ := 528

/-- `BUILD_REQUEST_RECORD_CLEAR_TEXT_SIZE`. -/
abbrev clearTextSize : ℕ := 222

/-- `BUILD_REQUEST_RECORD_ENCRYPTED_OFFSET`. -/
abbrev encryptedOffset : ℕ := 16

/-- `BUILD_RESPONSE_RECORD_RANDPAD_OFFSET`. -/
abbrev randpadOffset : ℕ := 32

/-- `BUILD_RESPONSE_RECORD_RANDPAD_SIZE`. -/
abbrev randpadSize : ℕ := 495

/-- `BUILD_RESPONSE_RECORD_RET_OFFSET`. -/
abbrev retOffset : ℕ := 527

/-- The clear text of a request record. -/
abbrev ClearText := Block clearTextSize

/-- The address of a record. -/
abbrev recordPos (records i : ℕ) : ℕ := records + i * tunnelBuildRecordSize

/-- `TunnelAESRecordAttributes`. -/
structure TunnelAESRecordAttributes where
  /-- `layer_key`. -/
  layerKey : AESKey
  /-- `IV_key`. -/
  ivKey : AESKey
  /-- `reply_key`. -/
  replyKey : AESKey
  /-- `reply_IV`. -/
  replyIV : Block 16

/-- `TunnelHopConfig`. -/
structure TunnelHopConfig where
  /-- The identity hash of `GetCurrentRouter()`. -/
  identHash : Block 32
  /-- `GetElGamalEncryption()->Encrypt` of `GetCurrentRouter()`. -/
  elGamalEncrypt : ClearText → Block 512
  /-- `m_TunnelID`. -/
  tunnelID : UInt32
  /-- The identity hash of `GetNextRouter()`. -/
  nextIdentHash : Block 32
  /-- `m_NextTunnelID`. -/
  nextTunnelID : UInt32
  /-- `m_AESRecordAttributes`. -/
  aesAttributes : TunnelAESRecordAttributes
  /-- `m_IsGateway`. -/
  isGateway : Bool
  /-- `m_IsEndpoint`. -/
  isEndpoint : Bool

/-- What a request record takes from elsewhere. -/
structure RecordEnv where
  /-- `GetHoursSinceEpoch()`. -/
  hoursSinceEpoch : UInt32
  /-- `Rand`, for the ID of the next message. -/
  rand : UInt32
  /-- `RandBytes`, for the padding. -/
  padding : Block 29

namespace TunnelHopConfig

/-- The flag of a request record. -/
def flag (hop : TunnelHopConfig) : UInt8 :=
  (if hop.isGateway then 0x80 else 0) ||| (if hop.isEndpoint then 0x40 else 0)

/-- The clear text that `CreateBuildRequestRecord` writes. -/
def clearText (hop : TunnelHopConfig) (env : RecordEnv) (replyMsgID : UInt32) : ClearText :=
  ⟨writeU32 hop.tunnelID ++ (hop.identHash.bytes ++ (writeU32 hop.nextTunnelID ++
    (hop.nextIdentHash.bytes ++ (hop.aesAttributes.layerKey.bytes ++
    (hop.aesAttributes.ivKey.bytes ++ (hop.aesAttributes.replyKey.bytes ++
    (hop.aesAttributes.replyIV.bytes ++ (hop.flag :: (writeU32 env.hoursSinceEpoch ++
    (writeU32 replyMsgID ++ env.padding.bytes)))))))))), by simp⟩

/-- `CreateBuildRequestRecord`. -/
def createBuildRequestRecord (hop : TunnelHopConfig) (env : RecordEnv) (replyMsgID : UInt32)
    (m : Mem) (record : ℕ) : Mem :=
  let m := store m (record + encryptedOffset)
    (hop.elGamalEncrypt (hop.clearText env replyMsgID)).bytes
  store m record (hop.identHash.bytes.take 16)

end TunnelHopConfig

/-! ## Fields of the clear text -/

namespace ClearText

/-- The part of a clear text at an offset. -/
def field (c : ClearText) (off n : ℕ) (h : off + n ≤ clearTextSize) : Block n :=
  ⟨(c.bytes.drop off).take n, by simp; omega⟩

/-- `BUILD_REQUEST_RECORD_RECEIVE_TUNNEL_OFFSET`. -/
def receiveTunnel (c : ClearText) : UInt32 := readU32 (c.field 0 4 (by decide)).bytes

/-- `BUILD_REQUEST_RECORD_NEXT_TUNNEL_OFFSET`. -/
def nextTunnel (c : ClearText) : UInt32 := readU32 (c.field 36 4 (by decide)).bytes

/-- `BUILD_REQUEST_RECORD_NEXT_IDENT_OFFSET`. -/
def nextIdent (c : ClearText) : Block 32 := c.field 40 32 (by decide)

/-- `BUILD_REQUEST_RECORD_LAYER_KEY_OFFSET`. -/
def layerKey (c : ClearText) : AESKey := c.field 72 32 (by decide)

/-- `BUILD_REQUEST_RECORD_IV_KEY_OFFSET`. -/
def ivKey (c : ClearText) : AESKey := c.field 104 32 (by decide)

/-- `BUILD_REQUEST_RECORD_REPLY_KEY_OFFSET`. -/
def replyKey (c : ClearText) : AESKey := c.field 136 32 (by decide)

/-- `BUILD_REQUEST_RECORD_REPLY_IV_OFFSET`. -/
def replyIV (c : ClearText) : Block 16 := c.field 168 16 (by decide)

/-- `BUILD_REQUEST_RECORD_FLAG_OFFSET`. -/
def flag (c : ClearText) : UInt8 := c.bytes.getD 184 0

end ClearText

theorem TunnelHopConfig.bytes_clearText (hop : TunnelHopConfig) (env : RecordEnv)
    (replyMsgID : UInt32) : (hop.clearText env replyMsgID).bytes =
      writeU32 hop.tunnelID ++ (hop.identHash.bytes ++ (writeU32 hop.nextTunnelID ++
      (hop.nextIdentHash.bytes ++ (hop.aesAttributes.layerKey.bytes ++
      (hop.aesAttributes.ivKey.bytes ++ (hop.aesAttributes.replyKey.bytes ++
      (hop.aesAttributes.replyIV.bytes ++ (hop.flag :: (writeU32 env.hoursSinceEpoch ++
      (writeU32 replyMsgID ++ env.padding.bytes)))))))))) := rfl

/-- The hop finds the keys for its reply in the clear text. -/
theorem TunnelHopConfig.replyKey_clearText (hop : TunnelHopConfig) (env : RecordEnv)
    (replyMsgID : UInt32) :
    (hop.clearText env replyMsgID).replyKey = hop.aesAttributes.replyKey ∧
      (hop.clearText env replyMsgID).replyIV = hop.aesAttributes.replyIV := by
  constructor <;> ext1
  · show ((hop.clearText env replyMsgID).bytes.drop 136).take 32 = _
    rw [hop.bytes_clearText]
    simp [List.drop_append, List.drop_eq_nil_of_le]
  · show ((hop.clearText env replyMsgID).bytes.drop 168).take 16 = _
    rw [hop.bytes_clearText]
    simp [List.drop_append, List.drop_eq_nil_of_le]

/-! ## Encryption of records in place -/

section Crypt

variable {σ : Type} (f : σ → Block 16 → Block 16 × σ) (s : σ) (records : ℕ)

/-- The records with the given indices go through a stream, one by one and each from the start. -/
def cryptRecords : List ℕ → Mem → Traced Mem
  | [], m => pure m
  | i :: rest, m => do
    touch (recordPos records i) tunnelBuildRecordSize
    cryptRecords rest (overMem f s m (recordPos records i) (recordPos records i) 33).1

end Crypt

/-! ## A hop -/

/-- The kinds of transit tunnels. -/
inductive TransitRole
  | participant
  | gateway
  | endpoint
  deriving DecidableEq

/-- `TransitTunnel`. -/
structure TransitTunnel where
  /-- `m_TunnelID`. -/
  tunnelID : UInt32
  /-- `m_NextIdent`. -/
  nextIdent : Block 32
  /-- `m_NextTunnelID`. -/
  nextTunnelID : UInt32
  /-- The keys of `m_Encryption`. -/
  keys : LayerKeys
  /-- The class of the tunnel. -/
  role : TransitRole

/-- `CreateTransitTunnel`. -/
def createTransitTunnel (receiveTunnelID : UInt32) (nextIdent : Block 32) (nextTunnelID : UInt32)
    (layerKey ivKey : AESKey) (isGateway isEndpoint : Bool) : TransitTunnel where
  tunnelID := receiveTunnelID
  nextIdent := nextIdent
  nextTunnelID := nextTunnelID
  keys := { layerKey, ivKey }
  role := if isEndpoint then .endpoint else if isGateway then .gateway else .participant

/-- The tunnel that a request record asks for. -/
def ClearText.transitTunnel (c : ClearText) : TransitTunnel :=
  createTransitTunnel c.receiveTunnel c.nextIdent c.nextTunnel c.layerKey c.ivKey
    (c.flag &&& 0x80 ≠ 0) (c.flag &&& 0x40 ≠ 0)

/-- `MAX_NUM_TRANSIT_TUNNELS`. -/
abbrev maxNumTransitTunnels : ℕ := 2500

/-- The parts of a router that handling a build message uses. -/
structure RouterContext where
  /-- `GetIdentHash()`. -/
  identHash : Block 32
  /-- `ElGamalDecrypt` with `GetEncryptionPrivateKey()`; it can fail. -/
  elGamalDecrypt : Block 512 → Option ClearText
  /-- `AcceptsTunnels()`. -/
  acceptsTunnels : Bool
  /-- `IsBandwidthExceeded()`. -/
  isBandwidthExceeded : Bool
  /-- `m_TransitTunnels`. -/
  transitTunnels : List TransitTunnel

namespace RouterContext

/-- `GetTransitTunnel`. -/
def getTransitTunnel (ctx : RouterContext) (tunnelID : UInt32) : Option TransitTunnel :=
  ctx.transitTunnels.find? (·.tunnelID = tunnelID)

/-- `AddTransitTunnel`: a tunnel whose ID is taken is dropped. -/
def addTransitTunnel (ctx : RouterContext) (tunnel : TransitTunnel) : RouterContext :=
  if (ctx.getTransitTunnel tunnel.tunnelID).isSome then ctx
  else { ctx with transitTunnels := tunnel :: ctx.transitTunnels }

/-- The condition for accepting a tunnel. -/
def accepts (ctx : RouterContext) : Bool :=
  ctx.acceptsTunnels && decide (ctx.transitTunnels.length ≤ maxNumTransitTunnels) &&
    !ctx.isBandwidthExceeded

/-- The status byte of the reply. -/
def status (ctx : RouterContext) : UInt8 := if ctx.accepts then 0 else 30

end RouterContext

/-- The primitives that build messages use. -/
structure BuildCrypto where
  /-- AES, for each key. -/
  aes : AESKey → BlockCipher 16
  /-- SHA-256. -/
  sha256 : List UInt8 → Block 32

/-- What `HandleBuildRequestRecords` leaves behind. -/
structure BuildOutcome where
  /-- The message. -/
  mem : Mem
  /-- `clear_text`. -/
  clearText : ClearText
  /-- The router. -/
  ctx : RouterContext
  /-- The value returned. -/
  handled : Bool

section Hop

variable (crypto : BuildCrypto)

/-- The search for the record that begins with the identity hash of the router. -/
def findRecord (identHash : Block 32) (m : Mem) (records : ℕ) : ℕ → ℕ → Traced (Option ℕ)
  | _, 0 => pure none
  | i, rest + 1 => do
    let toPeer ← read m (recordPos records i) 16
    if toPeer = identHash.bytes.take 16 then pure (some i)
    else findRecord identHash m records (i + 1) rest

/-- A reply: the hash of the padding and the status, the padding and the status. -/
def replyRecord (padding : Block randpadSize) (status : UInt8) : List UInt8 :=
  (crypto.sha256 (padding.bytes ++ [status])).bytes ++ (padding.bytes ++ [status])

/-- `HandleBuildRequestRecords`. -/
def handleBuildRequestRecords (ctx : RouterContext) (padding : Block randpadSize) (num : ℕ)
    (m : Mem) (records : ℕ) (clearText : ClearText) : Traced BuildOutcome := do
  match ← findRecord ctx.identHash m records 0 num with
  | none => pure { mem := m, clearText, ctx, handled := false }
  | some i =>
    touch (recordPos records i + encryptedOffset) 512
    -- the clear text stays as it was if the decryption fails
    let clearText :=
      (ctx.elGamalDecrypt (Block.ofMem m (recordPos records i + encryptedOffset))).getD clearText
    let ctx' := if ctx.accepts then ctx.addTransitTunnel clearText.transitTunnel else ctx
    touch (recordPos records i) tunnelBuildRecordSize
    let m := store m (recordPos records i) (replyRecord crypto padding ctx.status)
    let m ← cryptRecords Encryption.encryptBlock ⟨crypto.aes clearText.replyKey, clearText.replyIV⟩
      records (List.range num) m
    pure { mem := m, clearText, ctx := ctx', handled := true }

end Hop

/-! ## The creator -/

/-- `STANDARD_NUM_RECORDS`. -/
abbrev standardNumRecords : ℕ := 4

/-- The number of records for a number of hops. -/
def numRecords (numHops : ℕ) : ℕ :=
  if numHops ≤ standardNumRecords then standardNumRecords else numHops

/-- A hop with its record index. -/
structure IndexedHop where
  /-- The hop. -/
  hop : TunnelHopConfig
  /-- `m_RecordIndex`. -/
  recordIndex : ℕ

section Creator

variable (crypto : BuildCrypto)

/-- The loop of `Build` that makes the records of the hops. Only the last hop gets the ID of the
reply. -/
def createRecords (replyMsgID : UInt32) (records : ℕ) :
    List (IndexedHop × RecordEnv) → Mem → Mem
  | [], m => m
  | (h, env) :: rest, m =>
    createRecords replyMsgID records rest (h.hop.createBuildRequestRecord env
      (if rest = [] then replyMsgID else env.rand) m (recordPos records h.recordIndex))

/-- The loop of `Build` that fills the records without hops. -/
def fillRecords (random : ℕ → Block tunnelBuildRecordSize) (records : ℕ) : List ℕ → Mem → Mem
  | [], m => m
  | i :: rest, m =>
    fillRecords random records rest (store m (recordPos records i) (random i).bytes)

/-- The decryption of records with the reply key of a hop. -/
def decryptRecords (hop : TunnelHopConfig) (records : ℕ) (indices : List ℕ) (m : Mem) :
    Traced Mem :=
  cryptRecords Decryption.decryptBlock
    ⟨crypto.aes hop.aesAttributes.replyKey, hop.aesAttributes.replyIV⟩ records indices m

/-- The loop of `Build` that decrypts, for every hop from the last one to the first, the records of
the hops behind it. -/
def decryptFollowing (records : ℕ) : List IndexedHop → Mem → Mem
  | [], m => m
  | h :: following, m =>
    (decryptRecords crypto h.hop records (following.map (·.recordIndex))
      (decryptFollowing records following m)).val

/-- The hops with the record indices that `Build` sets. -/
def indexHops (hops : List (TunnelHopConfig × RecordEnv)) (recordIndicies : List ℕ) :
    List (IndexedHop × RecordEnv) :=
  List.zipWith (fun hop i => ({ hop := hop.1, recordIndex := i }, hop.2)) hops recordIndicies

/-- `Tunnel::Build`, for shuffled `record_indicies` and a message with the payload at the given
place. -/
def build (replyMsgID : UInt32) (hops : List (TunnelHopConfig × RecordEnv))
    (recordIndicies : List ℕ) (random : ℕ → Block tunnelBuildRecordSize) (m : Mem)
    (payload : ℕ) : Mem :=
  let records := payload + 1
  let indexed := indexHops hops recordIndicies
  let m := store m payload [UInt8.ofNat (numRecords hops.length)]
  let m := createRecords replyMsgID records indexed m
  let m := fillRecords random records (recordIndicies.drop hops.length) m
  decryptFollowing crypto records (indexed.map Prod.fst) m

/-- The loop of `HandleTunnelBuildResponse` that decrypts, for every hop from the last one to the
first, its record and those in front of it. -/
def decryptPreceding (num records : ℕ) : List IndexedHop → Mem → Traced Mem
  | [], m => pure m
  | h :: preceding, m => do
    -- an index that is out of range is skipped
    let indices := ((h :: preceding).map (·.recordIndex)).filter (· < num)
    let m ← decryptRecords crypto h.hop records indices m
    decryptPreceding num records preceding m

/-- The status bytes of the hops. -/
def readRets (records : ℕ) (m : Mem) : List IndexedHop → Traced (List UInt8)
  | [] => pure []
  | h :: following => do
    let ret ← readByte m (recordPos records h.recordIndex + retOffset)
    let rets ← readRets records m following
    pure (ret :: rets)

/-- What `HandleTunnelBuildResponse` leaves behind. -/
structure BuildResponse where
  /-- The message. -/
  mem : Mem
  /-- The status bytes, in the order of the hops. -/
  rets : List UInt8
  /-- The value returned. -/
  established : Bool

/-- `Tunnel::HandleTunnelBuildResponse`. -/
def handleTunnelBuildResponse (hops : List IndexedHop) (m : Mem) (msg : ℕ) :
    Traced BuildResponse := do
  let num ← readByte m msg
  let m ← decryptPreceding crypto num.toNat (msg + 1) hops.reverse m
  let rets ← readRets (msg + 1) m hops
  pure { mem := m, rets, established := rets.all (· = 0) }

end Creator

/-! ## Records as blocks -/

/-- The blocks of a record. -/
def recordAt (m : Mem) (records i : ℕ) : List (Block 16) := blocksAt m (recordPos records i) 33

theorem bytesOf_recordAt (m : Mem) (records i : ℕ) :
    bytesOf (recordAt m records i) = slice m (recordPos records i) tunnelBuildRecordSize :=
  bytesOf_blocksAt m _ 33

theorem recordAt_congr {m m' : Mem} {records i : ℕ}
    (h : ∀ a, recordPos records i ≤ a → a < recordPos records i + tunnelBuildRecordSize →
      m' a = m a) : recordAt m' records i = recordAt m records i :=
  blocksAt_congr h

/-- Records do not overlap. -/
theorem recordPos_apart {records i j a : ℕ} (hne : i ≠ j) (hlo : recordPos records i ≤ a)
    (hhi : a < recordPos records i + tunnelBuildRecordSize) :
    a < recordPos records j ∨ recordPos records j + tunnelBuildRecordSize ≤ a := by
  simp only [recordPos, tunnelBuildRecordSize] at *
  omega

section Crypt

variable {σ : Type} {f : σ → Block 16 → Block 16 × σ} {s : σ} {records : ℕ}

theorem val_cryptRecords_cons (i : ℕ) (rest : List ℕ) (m : Mem) :
    (cryptRecords f s records (i :: rest) m).val =
      (cryptRecords f s records rest
        (overMem f s m (recordPos records i) (recordPos records i) 33).1).val := rfl

/-- The bytes in front of the records stay. -/
theorem cryptRecords_of_lt (indices : List ℕ) (m : Mem) {a : ℕ} (h : a < records) :
    (cryptRecords f s records indices m).val a = m a := by
  induction indices generalizing m with
  | nil => rfl
  | cons i rest ih =>
    rw [val_cryptRecords_cons, ih]
    refine overMem_of_outside _ _ _ (.inl ?_)
    simp only [recordPos]
    omega

theorem recordAt_cryptRecords_of_notMem {indices : List ℕ} (m : Mem) {i : ℕ} (h : i ∉ indices) :
    recordAt (cryptRecords f s records indices m).val records i = recordAt m records i := by
  induction indices generalizing m with
  | nil => rfl
  | cons j rest ih =>
    rw [List.mem_cons, not_or] at h
    rw [val_cryptRecords_cons, ih _ h.2]
    exact recordAt_congr fun a hlo hhi =>
      overMem_of_outside _ _ _ (recordPos_apart h.1 hlo hhi)

/-- Each of the records goes through the stream once. -/
theorem recordAt_cryptRecords_of_mem {indices : List ℕ} (hnodup : indices.Nodup) (m : Mem) {i : ℕ}
    (h : i ∈ indices) : recordAt (cryptRecords f s records indices m).val records i =
      (overBlocks f s (recordAt m records i)).1 := by
  induction indices generalizing m with
  | nil => cases h
  | cons j rest ih =>
    obtain ⟨hj, hrest⟩ := List.nodup_cons.mp hnodup
    rw [val_cryptRecords_cons]
    obtain rfl | hmem := List.mem_cons.mp h
    · rw [recordAt_cryptRecords_of_notMem _ hj]
      exact (overMem_spec s m _ _ (.inl rfl)).1
    · have hne : i ≠ j := fun heq => hj (heq ▸ hmem)
      rw [ih hrest _ hmem]
      have hsame : recordAt (overMem f s m (recordPos records j) (recordPos records j) 33).1
          records i = recordAt m records i :=
        recordAt_congr fun a hlo hhi => overMem_of_outside _ _ _ (recordPos_apart hne hlo hhi)
      rw [hsame]

end Crypt

/-! ## Equations of `HandleBuildRequestRecords` -/

section Hop

variable {crypto : BuildCrypto} {ctx : RouterContext} {padding : Block randpadSize} {num : ℕ}
  {m : Mem} {records : ℕ} {buffer : ClearText} {i : ℕ}

theorem val_findRecord_succ (identHash : Block 32) (rest : ℕ) :
    (findRecord identHash m records i (rest + 1)).val =
      if slice m (recordPos records i) 16 = identHash.bytes.take 16 then some i
      else (findRecord identHash m records (i + 1) rest).val := by
  rw [findRecord, val_bind, val_read]
  split <;> rfl

/-- The first record that begins with the hash is found. -/
theorem val_findRecord_eq_some {identHash : Block 32} {j rest : ℕ} (hle : i ≤ j)
    (hlt : j < i + rest) (hj : slice m (recordPos records j) 16 = identHash.bytes.take 16)
    (hbefore : ∀ k, i ≤ k → k < j →
      slice m (recordPos records k) 16 ≠ identHash.bytes.take 16) :
    (findRecord identHash m records i rest).val = some j := by
  induction rest generalizing i with
  | zero => omega
  | succ rest ih =>
    rw [val_findRecord_succ]
    obtain rfl | hlt' := hle.eq_or_lt
    · rw [if_pos hj]
    · rw [if_neg (hbefore i le_rfl hlt')]
      exact ih hlt' (by omega) fun k hk => hbefore k (by omega)

/-- The clear text after the decryption of the record `i`. -/
def decryptedText (ctx : RouterContext) (m : Mem) (records i : ℕ) (buffer : ClearText) : ClearText :=
  (ctx.elGamalDecrypt (Block.ofMem m (recordPos records i + encryptedOffset))).getD buffer

/-- A record is found: its reply takes its place, and all records are encrypted. -/
theorem val_handleBuildRequestRecords_of_found
    (h : (findRecord ctx.identHash m records 0 num).val = some i) :
    (handleBuildRequestRecords crypto ctx padding num m records buffer).val =
      { mem := (cryptRecords Encryption.encryptBlock
          ⟨crypto.aes (decryptedText ctx m records i buffer).replyKey,
            (decryptedText ctx m records i buffer).replyIV⟩ records (List.range num)
          (store m (recordPos records i) (replyRecord crypto padding ctx.status))).val
        clearText := decryptedText ctx m records i buffer
        ctx := if ctx.accepts then
            ctx.addTransitTunnel (decryptedText ctx m records i buffer).transitTunnel
          else ctx
        handled := true } := by
  rw [handleBuildRequestRecords, val_bind, h]
  rfl

/-- No record is found: nothing happens. -/
theorem val_handleBuildRequestRecords_of_not_found
    (h : (findRecord ctx.identHash m records 0 num).val = none) :
    (handleBuildRequestRecords crypto ctx padding num m records buffer).val =
      { mem := m
        clearText := buffer
        ctx := ctx
        handled := false } := by
  rw [handleBuildRequestRecords, val_bind, h]
  rfl

end Hop

/-! ## Equations of `HandleTunnelBuildResponse` -/

section Response

variable {crypto : BuildCrypto} {records : ℕ}

theorem val_readRets (m : Mem) (hops : List IndexedHop) :
    (readRets records m hops).val =
      hops.map fun h => m (recordPos records h.recordIndex + retOffset) := by
  induction hops with
  | nil => rfl
  | cons h following ih =>
    show m _ :: (readRets records m following).val = _
    rw [ih]
    rfl

theorem established_handleTunnelBuildResponse (hops : List IndexedHop) (m : Mem) (msg : ℕ) :
    (handleTunnelBuildResponse crypto hops m msg).val.established =
      (handleTunnelBuildResponse crypto hops m msg).val.rets.all (· = 0) := rfl

end Response

/-- Primitives that are easy to evaluate. -/
def exampleCrypto : BuildCrypto where
  aes := xorCipher
  sha256 _ := Block.const 0

end Tunnel
