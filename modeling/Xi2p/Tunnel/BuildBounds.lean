import Xi2p.Tunnel.Build

/-!
# Bounds of tunnel build messages

`HandleI2NPMessage` and the handlers of tunnel build messages of `core/router/i2np.cc`. The number of
records, the size in the header and the length of the message are three independent numbers: the
handlers use the first two, and never look at the third.

* `within_handleBuildRequestRecords_iff`, `within_handleTunnelBuildResponse_iff`: the length that the
  functions on records need.
* `safe_iff_wellSized`: the messages that are handled inside of their bounds, forwarded into a buffer
  that has room for them, and taken for an acceptance only if all hops are in range.
-/

namespace Tunnel

open Bytes CBC Traced I2NP I2NPMessage

/-! ## Forwarding -/

/-- `NewI2NPMessage`, for a length. -/
def newI2NPMessageFor (size : ℕ) : I2NPMessage :=
  if size < maxShortMessageSize / 2 then newI2NPShortMessage else newI2NPMessage

/-- `CreateI2NPMessage`, without the header: a payload that is too long is left out. -/
def createI2NPMessage (src : Mem) (pos size : ℕ) : Traced I2NPMessage := do
  let msg := newI2NPMessageFor size
  if msg.len + size < msg.maxLen then
    touch pos size
    pure (msg.append src pos size)
  else pure msg

/-- `CreateTunnelGatewayMsg`, without the headers. -/
def createTunnelGatewayMsg (src : Mem) (pos size : ℕ) : Traced I2NPMessage := do
  let gatewayMsgOffset := headerSize + tunnelGatewayHeaderSize
  let msg := newI2NPMessageFor size
  let msg := { msg with offset := msg.offset + gatewayMsgOffset, len := msg.len + gatewayMsgOffset }
  touch pos size
  let msg := msg.append src pos size
  pure { msg with offset := msg.offset - gatewayMsgOffset }

/-! ## Handlers -/

/-- What the handlers of build messages use. -/
structure BuildEnv where
  /-- The primitives. -/
  crypto : BuildCrypto
  /-- The router. -/
  ctx : RouterContext
  /-- The padding of its reply. -/
  padding : Block randpadSize
  /-- What stands in `clear_text` before `HandleTunnelBuildMsg` uses it. -/
  buffer : ClearText
  /-- `GetPendingInboundTunnel`: the hops of the tunnel. -/
  pendingInbound : UInt32 → Option (List IndexedHop)
  /-- `GetPendingOutboundTunnel`: the hops of the tunnel. -/
  pendingOutbound : UInt32 → Option (List IndexedHop)

/-- A reply that was handled. -/
structure BuildReply where
  /-- The hops of the pending tunnel. -/
  hops : List IndexedHop
  /-- The number of records. -/
  num : UInt8
  /-- What was made of it. -/
  response : BuildResponse

/-- What a handler does. -/
structure BuildHandled where
  /-- The message that is sent on. -/
  forwarded : Option I2NPMessage
  /-- The reply for a pending tunnel. -/
  reply : Option BuildReply

section Handlers

variable (env : BuildEnv)

/-- A request that was for this router is sent on, by the endpoint of an outbound tunnel in a
gateway message. -/
def forwardBuild (o : BuildOutcome) (buf size : ℕ) : Traced BuildHandled := do
  if o.handled then
    let msg ← if o.clearText.flag &&& 0x40 ≠ 0 then createTunnelGatewayMsg o.mem buf size
      else createI2NPMessage o.mem buf size
    pure { forwarded := some msg, reply := none }
  else pure { forwarded := none, reply := none }

/-- A reply for a pending tunnel. -/
def handleReply (hops : List IndexedHop) (m : Mem) (buf : ℕ) : Traced BuildHandled := do
  let response ← handleTunnelBuildResponse env.crypto hops m buf
  pure { forwarded := none, reply := some { hops, num := m buf, response } }

/-- `HandleVariableTunnelBuildMsg`. -/
def handleVariableTunnelBuildMsg (replyMsgID : UInt32) (m : Mem) (buf size : ℕ) :
    Traced BuildHandled := do
  let num ← readByte m buf
  match env.pendingInbound replyMsgID with
  | some hops => handleReply env hops m buf
  | none =>
    let o ← handleBuildRequestRecords env.crypto env.ctx env.padding num.toNat m (buf + 1)
      (Block.const 0)
    forwardBuild o buf size

/-- `NUM_TUNNEL_BUILD_RECORDS`. -/
abbrev numTunnelBuildRecords : ℕ := 8

/-- `HandleTunnelBuildMsg`. -/
def handleTunnelBuildMsg (m : Mem) (buf size : ℕ) : Traced BuildHandled := do
  let o ← handleBuildRequestRecords env.crypto env.ctx env.padding numTunnelBuildRecords m buf
    env.buffer
  forwardBuild o buf size

/-- `HandleVariableTunnelBuildReplyMsg`. -/
def handleVariableTunnelBuildReplyMsg (replyMsgID : UInt32) (m : Mem) (buf : ℕ) :
    Traced BuildHandled :=
  match env.pendingOutbound replyMsgID with
  | some hops => handleReply env hops m buf
  | none => pure { forwarded := none, reply := none }

/-- `I2NPTunnelBuild`. -/
abbrev typeTunnelBuild : UInt8 := 21

/-- `I2NPVariableTunnelBuild`. -/
abbrev typeVariableTunnelBuild : UInt8 := 23

/-- `I2NPVariableTunnelBuildReply`. -/
abbrev typeVariableTunnelBuildReply : UInt8 := 24

/-- `HandleI2NPMessage`, for the message at address `0`. -/
def handleI2NPMessage (m : Mem) : Traced BuildHandled := do
  let typeID ← readByte m 0
  let msgID ← read m headerMsgIDOffset 4
  let size ← read m headerSizeOffset 2
  if typeID = typeVariableTunnelBuild then
    handleVariableTunnelBuildMsg env (readU32 msgID) m headerSize (readBE size)
  else if typeID = typeVariableTunnelBuildReply then
    handleVariableTunnelBuildReplyMsg env (readU32 msgID) m headerSize
  else if typeID = typeTunnelBuild then handleTunnelBuildMsg env m headerSize (readBE size)
  else pure { forwarded := none, reply := none }

end Handlers

/-! ## Accesses to the records -/

section Bounds

variable {records len : ℕ}

theorem recordPos_succ (records i : ℕ) :
    recordPos records (i + 1) = recordPos records i + tunnelBuildRecordSize := by
  simp only [recordPos]
  ring

theorem recordPos_mono (records : ℕ) {i j : ℕ} (h : i ≤ j) :
    recordPos records i ≤ recordPos records j := by
  simp only [recordPos, tunnelBuildRecordSize]
  omega

theorem within_cryptRecords_iff {σ : Type} {f : σ → Block 16 → Block 16 × σ} {s : σ}
    (indices : List ℕ) (m : Mem) : (cryptRecords f s records indices m).Within 0 len ↔
      ∀ i ∈ indices, recordPos records (i + 1) ≤ len := by
  induction indices generalizing m with
  | nil => simp [cryptRecords, within_pure_iff]
  | cons i rest ih =>
    rw [cryptRecords, within_bind_iff, within_touch_iff, ih, ← recordPos_succ]
    simp

theorem within_findRecord_succ (identHash : Block 32) (m : Mem) (i rest : ℕ) :
    (findRecord identHash m records i (rest + 1)).Within 0 len ↔
      recordPos records i + 16 ≤ len ∧
        (slice m (recordPos records i) 16 = identHash.bytes.take 16 ∨
          (findRecord identHash m records (i + 1) rest).Within 0 len) := by
  rw [findRecord, within_bind_iff, within_read_iff, val_read]
  split
  · rename_i hfound
    simp [hfound]
  · rename_i hfound
    simp [hfound]

/-- Without success, the search reads the beginning of every record. -/
theorem within_findRecord_of_none {identHash : Block 32} {m : Mem} {i rest : ℕ}
    (h : (findRecord identHash m records i rest).val = none) :
    (findRecord identHash m records i rest).Within 0 len ↔
      rest = 0 ∨ recordPos records (i + rest - 1) + 16 ≤ len := by
  induction rest generalizing i with
  | zero => simp [findRecord]
  | succ rest ih =>
    rw [val_findRecord_succ] at h
    split at h
    · cases h
    · rename_i hother
      rw [within_findRecord_succ, ih h]
      simp only [hother, false_or, recordPos, tunnelBuildRecordSize]
      omega

/-- Otherwise it ends at the record that it finds. -/
theorem within_findRecord_of_some {identHash : Block 32} {m : Mem} {i rest j : ℕ}
    (h : (findRecord identHash m records i rest).val = some j) :
    i ≤ j ∧ j < i + rest ∧ ((findRecord identHash m records i rest).Within 0 len ↔
      recordPos records j + 16 ≤ len) := by
  induction rest generalizing i with
  | zero => cases h
  | succ rest ih =>
    rw [val_findRecord_succ] at h
    rw [within_findRecord_succ]
    split at h
    · rename_i hfound
      obtain rfl := Option.some.inj h
      simp [hfound]
    · rename_i hother
      obtain ⟨hle, hlt, hwithin⟩ := ih h
      refine ⟨by omega, by omega, ?_⟩
      rw [hwithin]
      simp only [hother, false_or, recordPos, tunnelBuildRecordSize]
      omega

section Hop

variable {crypto : BuildCrypto} {ctx : RouterContext} {padding : Block randpadSize} {num : ℕ}
  {m : Mem} {buffer : ClearText}

theorem within_handleBuildRequestRecords_of_none
    (h : (findRecord ctx.identHash m records 0 num).val = none) :
    (handleBuildRequestRecords crypto ctx padding num m records buffer).Within 0 len ↔
      num = 0 ∨ recordPos records (num - 1) + 16 ≤ len := by
  rw [handleBuildRequestRecords, within_bind_iff, h, within_findRecord_of_none h, Nat.zero_add]
  simp

/-- A router that finds its record goes through all of them. -/
theorem within_handleBuildRequestRecords_of_some {i : ℕ}
    (h : (findRecord ctx.identHash m records 0 num).val = some i) :
    (handleBuildRequestRecords crypto ctx padding num m records buffer).Within 0 len ↔
      recordPos records num ≤ len := by
  obtain ⟨-, hlt, hsearch⟩ :
      0 ≤ i ∧ i < 0 + num ∧ ((findRecord ctx.identHash m records 0 num).Within 0 len ↔ _) :=
    within_findRecord_of_some h
  rw [handleBuildRequestRecords, within_bind_iff, h]
  refine (and_congr_left' hsearch).trans ?_
  simp only [within_bind_iff, within_touch_iff, within_cryptRecords_iff, within_pure_iff,
    List.mem_range, and_true]
  constructor
  · rintro ⟨-, -, -, hall⟩
    have hlast := hall (num - 1) (by omega)
    rwa [Nat.sub_add_cancel (by omega)] at hlast
  · intro hle
    have hi : recordPos records i + tunnelBuildRecordSize ≤ recordPos records num := by
      simpa [recordPos_succ] using recordPos_mono records (show i + 1 ≤ num by omega)
    simp only [tunnelBuildRecordSize, encryptedOffset] at hi ⊢
    refine ⟨by omega, by omega, by omega, fun j hj => ?_⟩
    exact (recordPos_mono records hj).trans hle

end Hop

section Response

variable {crypto : BuildCrypto} {num : ℕ}

theorem within_decryptPreceding_iff (hops : List IndexedHop) (m : Mem) :
    (decryptPreceding crypto num records hops m).Within 0 len ↔
      ∀ h ∈ hops, h.recordIndex < num → recordPos records (h.recordIndex + 1) ≤ len := by
  induction hops generalizing m with
  | nil => simp [decryptPreceding, within_pure_iff]
  | cons h preceding ih =>
    rw [decryptPreceding, within_bind_iff, ih, decryptRecords, within_cryptRecords_iff]
    -- the records in front of a hop are covered by the hops themselves
    simp only [List.mem_filter, List.mem_map, decide_eq_true_eq]
    constructor
    · rintro ⟨hall, -⟩ g hg hlt
      exact hall g.recordIndex ⟨⟨g, hg, rfl⟩, hlt⟩
    · intro hall
      refine ⟨?_, fun g hg => hall g (List.mem_cons_of_mem h hg)⟩
      rintro i ⟨⟨g, hg, rfl⟩, hlt⟩
      exact hall g hg hlt

theorem within_readRets_iff (m : Mem) (hops : List IndexedHop) :
    (readRets records m hops).Within 0 len ↔
      ∀ h ∈ hops, recordPos records (h.recordIndex + 1) ≤ len := by
  induction hops with
  | nil => simp [readRets, within_pure_iff]
  | cons h following ih =>
    rw [readRets, within_bind_iff, within_bind_iff, within_readByte_iff, ih]
    simp only [within_pure_iff, and_true, List.mem_cons, forall_eq_or_imp, recordPos,
      tunnelBuildRecordSize, retOffset]
    refine and_congr_left fun _ => ?_
    omega

/-- A reply has to contain the records of all hops, in range or not. -/
theorem within_handleTunnelBuildResponse_iff (hops : List IndexedHop) (m : Mem) (msg : ℕ) :
    (handleTunnelBuildResponse crypto hops m msg).Within 0 len ↔
      msg < len ∧ ∀ h ∈ hops, recordPos (msg + 1) (h.recordIndex + 1) ≤ len := by
  rw [handleTunnelBuildResponse, within_bind_iff, within_bind_iff, within_bind_iff,
    within_readByte_iff, within_decryptPreceding_iff, within_readRets_iff]
  simp only [within_pure_iff, and_true, List.mem_reverse]
  refine and_congr_right fun _ => ⟨fun h => h.2, fun h => ⟨fun g hg _ => h g hg, h⟩⟩

end Response

end Bounds

/-! ## Safe handling -/

/-- A handler stays inside of the message, sends on only what fits its buffer, and takes a reply for
an acceptance only if the records of all hops are in range and end in `0`. -/
structure Safe (x : Traced BuildHandled) (len : ℕ) : Prop where
  within : x.Within 0 len
  fits : ∀ msg ∈ x.val.forwarded, msg.Inside
  accepted : ∀ r ∈ x.val.reply, r.response.established = true →
    (∀ h ∈ r.hops, h.recordIndex < r.num.toNat) ∧ ∀ ret ∈ r.response.rets, ret = 0

section Safe

variable {len : ℕ}

theorem safe_bind_iff {α : Type} {x : Traced α} {f : α → Traced BuildHandled} :
    Safe (x >>= f) len ↔ x.Within 0 len ∧ Safe (f x.val) len := by
  constructor
  · rintro ⟨hwithin, hfits, haccepted⟩
    obtain ⟨hx, hf⟩ := within_bind_iff.mp hwithin
    exact ⟨hx, hf, hfits, haccepted⟩
  · rintro ⟨hx, hf, hfits, haccepted⟩
    exact ⟨within_bind_iff.mpr ⟨hx, hf⟩, hfits, haccepted⟩

theorem safe_pure_none : Safe (pure { forwarded := none, reply := none }) len where
  within := within_pure _ _ _
  fits := by simp
  accepted := by simp

/-! ### Requests -/

/-- The sizes of a new message. -/
theorem newI2NPMessageFor_sizes (size : ℕ) : (newI2NPMessageFor size).len = 18 ∧
    (newI2NPMessageFor size).capacity = (newI2NPMessageFor size).maxLen + 16 ∧
    (size < 2048 ∧ (newI2NPMessageFor size).maxLen = 4096 ∨
      2048 ≤ size ∧ (newI2NPMessageFor size).maxLen = 32768) := by
  unfold newI2NPMessageFor
  split
  · rename_i hlt
    exact ⟨rfl, rfl, .inl ⟨hlt, rfl⟩⟩
  · rename_i hge
    exact ⟨rfl, rfl, .inr ⟨Nat.not_lt.mp hge, rfl⟩⟩

/-- `CreateI2NPMessage` never writes behind its buffer. -/
theorem inside_createI2NPMessage (src : Mem) (pos size : ℕ) :
    (createI2NPMessage src pos size).val.Inside := by
  obtain ⟨hlen, hcapacity, hmax⟩ := newI2NPMessageFor_sizes size
  unfold createI2NPMessage
  dsimp only
  split
  · show (newI2NPMessageFor size).len + size ≤ (newI2NPMessageFor size).capacity
    omega
  · show (newI2NPMessageFor size).len ≤ (newI2NPMessageFor size).capacity
    omega

theorem within_createI2NPMessage_iff (src : Mem) (pos size : ℕ) :
    (createI2NPMessage src pos size).Within 0 len ↔
      (size < 32750 → size = 0 ∨ pos + size ≤ len) := by
  obtain ⟨hlen, -, hmax⟩ := newI2NPMessageFor_sizes size
  unfold createI2NPMessage
  dsimp only
  split
  · rw [within_bind_iff, within_touch_iff, within_pure_iff, and_true]
    omega
  · rw [within_pure_iff, true_iff]
    omega

/-- `CreateTunnelGatewayMsg` does, if the payload is too long. -/
theorem inside_createTunnelGatewayMsg_iff (src : Mem) (pos size : ℕ) :
    (createTunnelGatewayMsg src pos size).val.Inside ↔ size ≤ 32744 := by
  obtain ⟨hlen, hcapacity, hmax⟩ := newI2NPMessageFor_sizes size
  show (newI2NPMessageFor size).len + (headerSize + tunnelGatewayHeaderSize) + size ≤
    (newI2NPMessageFor size).capacity ↔ _
  simp only [headerSize, tunnelGatewayHeaderSize]
  omega

theorem within_createTunnelGatewayMsg_iff (src : Mem) (pos size : ℕ) :
    (createTunnelGatewayMsg src pos size).Within 0 len ↔ size = 0 ∨ pos + size ≤ len := by
  simp only [createTunnelGatewayMsg, within_bind_iff, within_touch_iff, within_pure_iff, and_true]

/-- The size in the header fits, for a request that is sent on: the message has that many bytes, and
the buffer of a gateway message has room for them. `CreateI2NPMessage` leaves out a payload that is
too long. -/
def ForwardFits (c : ClearText) (buf size len : ℕ) : Prop :=
  if c.flag &&& 0x40 ≠ 0 then buf + size ≤ len ∧ size ≤ 32744
  else size < 32750 → buf + size ≤ len

theorem safe_forwardBuild_iff {o : BuildOutcome} (hhandled : o.handled = true) {buf size : ℕ}
    (hbuf : buf ≤ len) :
    Safe (forwardBuild o buf size) len ↔ ForwardFits o.clearText buf size len := by
  have hempty : size = 0 ∨ buf + size ≤ len ↔ buf + size ≤ len := by omega
  have hreply : ∀ msg : I2NPMessage,
      Safe (pure { forwarded := some msg, reply := none }) len ↔ msg.Inside := by
    intro msg
    refine ⟨fun h => h.fits msg rfl, fun h => ⟨within_pure _ _ _, ?_, by simp⟩⟩
    rintro _ ⟨⟩
    exact h
  unfold forwardBuild ForwardFits
  rw [if_pos hhandled]
  split
  · rw [safe_bind_iff, within_createTunnelGatewayMsg_iff, hempty, hreply,
      inside_createTunnelGatewayMsg_iff]
  · rw [safe_bind_iff, within_createI2NPMessage_iff, hempty, hreply]
    exact and_iff_left (inside_createI2NPMessage _ _ _)

theorem safe_forwardBuild_of_not_handled {o : BuildOutcome} (h : o.handled = false)
    (buf size : ℕ) : Safe (forwardBuild o buf size) len := by
  unfold forwardBuild
  rw [if_neg (by simp [h])]
  exact safe_pure_none

/-- The records of a request fit: a router that does not find its own reads the beginning of all of
them, one that does goes through all of them and sends the message on. -/
def RequestFits (env : BuildEnv) (num : ℕ) (m : Mem) (records : ℕ) (buffer : ClearText)
    (buf size len : ℕ) : Prop :=
  match (findRecord env.ctx.identHash m records 0 num).val with
  | none => num = 0 ∨ recordPos records (num - 1) + 16 ≤ len
  | some i => recordPos records num ≤ len ∧
    ForwardFits (decryptedText env.ctx m records i buffer) buf size len

theorem safe_request_iff (env : BuildEnv) (num : ℕ) (m : Mem) {records : ℕ} (buffer : ClearText)
    {buf : ℕ} (size : ℕ) (hbuf : buf ≤ records) :
    Safe (do
      let o ← handleBuildRequestRecords env.crypto env.ctx env.padding num m records buffer
      forwardBuild o buf size) len ↔ RequestFits env num m records buffer buf size len := by
  rw [safe_bind_iff, RequestFits]
  cases hfound : (findRecord env.ctx.identHash m records 0 num).val with
  | none =>
    rw [within_handleBuildRequestRecords_of_none hfound,
      val_handleBuildRequestRecords_of_not_found hfound]
    exact and_iff_left (safe_forwardBuild_of_not_handled rfl _ _)
  | some i =>
    rw [within_handleBuildRequestRecords_of_some hfound,
      val_handleBuildRequestRecords_of_found hfound]
    refine and_congr_right fun hle => ?_
    have hlen : buf ≤ len := by
      simp only [recordPos] at hle
      omega
    exact safe_forwardBuild_iff rfl hlen

/-! ### Replies -/

/-- A reply does not accept the tunnel: once the records in range are decrypted, the record of some
hop does not end in `0`. -/
def Declines (crypto : BuildCrypto) (hops : List IndexedHop) (m : Mem) (buf : ℕ) : Prop :=
  ∃ h ∈ hops, (decryptPreceding crypto (m buf).toNat (buf + 1) hops.reverse m).val
    (recordPos (buf + 1) h.recordIndex + retOffset) ≠ 0

/-- A reply fits: it has the records of all hops, and counts them unless it declines the tunnel. -/
def ReplyFits (crypto : BuildCrypto) (hops : List IndexedHop) (m : Mem) (buf len : ℕ) : Prop :=
  (buf < len ∧ ∀ h ∈ hops, recordPos (buf + 1) (h.recordIndex + 1) ≤ len) ∧
    ((∀ h ∈ hops, h.recordIndex < (m buf).toNat) ∨ Declines crypto hops m buf)

theorem rets_handleTunnelBuildResponse (crypto : BuildCrypto) (hops : List IndexedHop) (m : Mem)
    (buf : ℕ) : (handleTunnelBuildResponse crypto hops m buf).val.rets =
      hops.map fun h => (decryptPreceding crypto (m buf).toNat (buf + 1) hops.reverse m).val
        (recordPos (buf + 1) h.recordIndex + retOffset) :=
  val_readRets _ _

/-- A reply that is not accepted declines. -/
theorem established_handleTunnelBuildResponse_iff (crypto : BuildCrypto) (hops : List IndexedHop)
    (m : Mem) (buf : ℕ) :
    (handleTunnelBuildResponse crypto hops m buf).val.established = true ↔
      ¬ Declines crypto hops m buf := by
  rw [established_handleTunnelBuildResponse, rets_handleTunnelBuildResponse, Declines]
  simp

theorem safe_handleReply_iff (env : BuildEnv) (hops : List IndexedHop) (m : Mem) (buf : ℕ) :
    Safe (handleReply env hops m buf) len ↔ ReplyFits env.crypto hops m buf len := by
  rw [handleReply, safe_bind_iff, within_handleTunnelBuildResponse_iff, ReplyFits]
  refine and_congr_right fun _ => ?_
  have hiff := established_handleTunnelBuildResponse_iff env.crypto hops m buf
  constructor
  · intro h
    by_cases hdeclines : Declines env.crypto hops m buf
    · exact .inr hdeclines
    · exact .inl (h.accepted _ rfl (hiff.mpr hdeclines)).1
  · intro h
    refine ⟨within_pure _ _ _, by simp, ?_⟩
    rintro _ ⟨⟩ hestablished
    refine ⟨h.resolve_right (hiff.mp hestablished), ?_⟩
    rw [established_handleTunnelBuildResponse] at hestablished
    simpa using hestablished

/-! ### Messages -/

/-- The numbers of a message match its length: the message has a header, and the records and the
size that its type asks for. -/
structure WellSized (env : BuildEnv) (m : Mem) (len : ℕ) : Prop where
  header : 15 ≤ len
  variableTunnelBuild : m 0 = typeVariableTunnelBuild → headerSize < len ∧
    match env.pendingInbound (readU32 (slice m headerMsgIDOffset 4)) with
    | some hops => ReplyFits env.crypto hops m headerSize len
    | none => RequestFits env (m headerSize).toNat m (headerSize + 1) (Block.const 0) headerSize
        (readBE (slice m headerSizeOffset 2)) len
  variableTunnelBuildReply : m 0 = typeVariableTunnelBuildReply →
    ∀ hops ∈ env.pendingOutbound (readU32 (slice m headerMsgIDOffset 4)),
      ReplyFits env.crypto hops m headerSize len
  tunnelBuild : m 0 = typeTunnelBuild →
    RequestFits env numTunnelBuildRecords m headerSize env.buffer headerSize
      (readBE (slice m headerSizeOffset 2)) len

theorem safe_handleVariableTunnelBuildMsg_iff (env : BuildEnv) (replyMsgID : UInt32) (m : Mem)
    (buf size : ℕ) : Safe (handleVariableTunnelBuildMsg env replyMsgID m buf size) len ↔
      buf < len ∧ match env.pendingInbound replyMsgID with
        | some hops => ReplyFits env.crypto hops m buf len
        | none => RequestFits env (m buf).toNat m (buf + 1) (Block.const 0) buf size len := by
  rw [handleVariableTunnelBuildMsg, safe_bind_iff, within_readByte_iff, val_readByte]
  refine and_congr_right fun _ => ?_
  cases env.pendingInbound replyMsgID with
  | some hops => exact safe_handleReply_iff env hops m buf
  | none => exact safe_request_iff env _ m _ size (Nat.le_succ buf)

theorem safe_handleVariableTunnelBuildReplyMsg_iff (env : BuildEnv) (replyMsgID : UInt32) (m : Mem)
    (buf : ℕ) : Safe (handleVariableTunnelBuildReplyMsg env replyMsgID m buf) len ↔
      ∀ hops ∈ env.pendingOutbound replyMsgID, ReplyFits env.crypto hops m buf len := by
  unfold handleVariableTunnelBuildReplyMsg
  cases env.pendingOutbound replyMsgID with
  | some hops => simp [safe_handleReply_iff]
  | none => simp [safe_pure_none]

/-- The fields of the header that are read. -/
theorem safe_handleI2NPMessage_iff (env : BuildEnv) (m : Mem) :
    Safe (handleI2NPMessage env m) len ↔ 15 ≤ len ∧ Safe
      (if m 0 = typeVariableTunnelBuild then
        handleVariableTunnelBuildMsg env (readU32 (slice m headerMsgIDOffset 4)) m headerSize
          (readBE (slice m headerSizeOffset 2))
      else if m 0 = typeVariableTunnelBuildReply then
        handleVariableTunnelBuildReplyMsg env (readU32 (slice m headerMsgIDOffset 4)) m headerSize
      else if m 0 = typeTunnelBuild then
        handleTunnelBuildMsg env m headerSize (readBE (slice m headerSizeOffset 2))
      else pure { forwarded := none, reply := none }) len := by
  rw [handleI2NPMessage, safe_bind_iff, safe_bind_iff, safe_bind_iff, within_readByte_iff,
    within_read_iff, within_read_iff]
  simp only [headerMsgIDOffset, headerSizeOffset]
  constructor
  · rintro ⟨-, -, hsize, hsafe⟩
    exact ⟨by omega, hsafe⟩
  · rintro ⟨hlen, hsafe⟩
    exact ⟨by omega, by omega, by omega, hsafe⟩

/-- A router without pending tunnels, for any contents of the message. -/
def exampleEnv : BuildEnv where
  crypto := exampleCrypto
  ctx :=
    { identHash := Block.const 7
      elGamalDecrypt := fun _ => none
      acceptsTunnels := true
      isBandwidthExceeded := false
      transitTunnels := [] }
  padding := Block.const 0
  buffer := Block.const 0
  pendingInbound _ := none
  pendingOutbound _ := none

/-- A message with a header and a count of `255`, and nothing else. -/
def countOnly : Mem := fun a => if a = 0 then 23 else if a = 16 then 255 else 0

end Safe

end Tunnel
