import Xi2p.Tunnel.Endpoint

/-!
# Fragments on the wire

A tunnel data message is a sequence of wire fragments: whole messages, first fragments and
follow-on fragments. The gateway writes them with `encode`, the endpoint reads them back.

* `readInstructions_of_encode`: the endpoint reads the delivery instructions the gateway wrote.
* `fragmentsFrom_of_encodeAll`: the loop of the endpoint finds the fragments the gateway wrote.
* `received_of_carries`: a tunnel data message of the gateway passes the checksum and yields its
  fragments.
-/

namespace Tunnel

open Bytes I2NP TunnelDeliveryType

/-! ## Wire fragments -/

/-- A fragment with its delivery instructions. -/
inductive WireFragment
  | whole (t : TunnelDeliveryType) (hash : IdentHash) (tunnelID : UInt32) (data : List UInt8)
  | first (t : TunnelDeliveryType) (hash : IdentHash) (tunnelID : UInt32) (msgID : UInt32)
    (data : List UInt8)
  | followOn (msgID : UInt32) (fragmentNumber : ℕ) (isLast : Bool) (data : List UInt8)

namespace WireFragment

/-- The bytes of the message that the fragment carries. -/
def data : WireFragment → List UInt8
  | whole _ _ _ data => data
  | first _ _ _ _ data => data
  | followOn _ _ _ data => data

/-- The delivery instructions without the size. -/
def header : WireFragment → List UInt8
  | whole t hash tunnelID _ => firstFlag t false :: destination t hash tunnelID
  | first t hash tunnelID msgID _ =>
    firstFlag t true :: destination t hash tunnelID ++ writeU32 msgID
  | followOn msgID fragmentNumber isLast _ =>
    followOnFlag fragmentNumber isLast :: writeU32 msgID

/-- The fragment as the gateway writes it. -/
def encode (w : WireFragment) : List UInt8 :=
  w.header ++ writeBE 2 w.data.length ++ w.data

/-- The payload of a tunnel data message. -/
def encodeAll (ws : List WireFragment) : List UInt8 := ws.flatMap encode

/-- A fragment that fits the fields of the delivery instructions. -/
structure WellFormed (w : WireFragment) : Prop where
  /-- A message fits into a tunnel data message. -/
  length_le : w.data.length ≤ tunnelDataMaxPayloadSize
  /-- A first fragment has a known delivery type, a follow-on fragment a number of six bits. -/
  fields : match w with
    | whole t _ _ _ => t ≠ unknown
    | first t _ _ _ _ => t ≠ unknown
    | followOn _ fragmentNumber _ _ => fragmentNumber < 64

/-- The tunnel ID that the endpoint has after reading a destination. -/
def readTunnelID : TunnelDeliveryType → UInt32 → UInt32
  | deliveryTypeTunnel, tunnelID => tunnelID
  | _, _ => 0

/-- The hash that the endpoint has after reading a destination. -/
def readIdentHash : TunnelDeliveryType → IdentHash → IdentHash
  | deliveryTypeTunnel, hash => hash
  | deliveryTypeRouter, hash => hash
  | _, _ => IdentHash.zero

/-- The instructions that the endpoint reads when the fragment starts at `pos`. -/
def instructions (w : WireFragment) (pos : ℕ) : DeliveryInstructions :=
  match w with
  | whole t hash tunnelID data =>
    { isFollowOnFragment := false, isLastFragment := true, deliveryType := t
      tunnelID := readTunnelID t tunnelID, hash := readIdentHash t hash, msgID := 0
      fragmentNum := 0, size := data.length, pos := pos + w.header.length + 2 }
  | first t hash tunnelID msgID data =>
    { isFollowOnFragment := false, isLastFragment := false, deliveryType := t
      tunnelID := readTunnelID t tunnelID, hash := readIdentHash t hash, msgID
      fragmentNum := 0, size := data.length, pos := pos + w.header.length + 2 }
  | followOn msgID fragmentNumber isLast data =>
    { isFollowOnFragment := true, isLastFragment := isLast, deliveryType := deliveryTypeLocal
      tunnelID := 0, hash := IdentHash.zero, msgID, fragmentNum := UInt8.ofNat fragmentNumber
      size := data.length, pos := pos + w.header.length + 2 }

@[simp]
theorem size_instructions (w : WireFragment) (pos : ℕ) :
    (w.instructions pos).size = w.data.length := by
  cases w <;> rfl

@[simp]
theorem pos_instructions (w : WireFragment) (pos : ℕ) :
    (w.instructions pos).pos = pos + w.header.length + 2 := by
  cases w <;> rfl

theorem length_encode (w : WireFragment) :
    w.encode.length = w.header.length + 2 + w.data.length := by
  simp [encode]
  omega

theorem encodeAll_append (ws vs : List WireFragment) :
    encodeAll (ws ++ vs) = encodeAll ws ++ encodeAll vs := List.flatMap_append

theorem encodeAll_cons (w : WireFragment) (ws : List WireFragment) :
    encodeAll (w :: ws) = w.encode ++ encodeAll ws := rfl

end WireFragment

/-! ## Flags -/

theorem firstFlag_and_0x80 (t : TunnelDeliveryType) (fragmented : Bool) :
    firstFlag t fragmented &&& 0x80 = 0 := by
  cases t <;> cases fragmented <;> decide

theorem firstFlag_and_0x08 (t : TunnelDeliveryType) (fragmented : Bool) :
    firstFlag t fragmented &&& 0x08 = 0 ↔ fragmented = false := by
  cases t <;> cases fragmented <;> decide

theorem ofCode_firstFlag (t : TunnelDeliveryType) (fragmented : Bool) :
    ofCode ((firstFlag t fragmented >>> 5) &&& 0x03).toNat = t := by
  cases t <;> cases fragmented <;> decide

/-- The follow-on flag carries its mark, the fragment number and the last-fragment bit. -/
theorem followOnFlag_fields {fragmentNumber : ℕ} (h : fragmentNumber < 64) (isLast : Bool) :
    followOnFlag fragmentNumber isLast &&& 0x80 ≠ 0 ∧
      (followOnFlag fragmentNumber isLast >>> 1) &&& 0x3F = UInt8.ofNat fragmentNumber ∧
      decide (followOnFlag fragmentNumber isLast &&& 0x01 ≠ 0) = isLast := by
  revert isLast
  interval_cases fragmentNumber <;> decide

/-! ## Reading instructions -/

theorem val_readID {buf : Mem} {pos : ℕ} {id : UInt32} (h : StandsAt buf pos (writeU32 id)) :
    (readID buf pos).val = id := by
  have hslice : slice buf pos 4 = writeU32 id := by simpa [StandsAt] using h
  simp [readID, hslice]

theorem val_readSize {buf : Mem} {pos n : ℕ} (h : StandsAt buf pos (writeBE 2 n))
    (hn : n < 65536) : (readSize buf pos).val = n := by
  have hslice : slice buf pos 2 = writeBE 2 n := by simpa [StandsAt] using h
  simp only [readSize, Traced.val_bind, Traced.val_read, Traced.val_pure, hslice,
    readBE_writeBE]
  exact Nat.mod_eq_of_lt hn

theorem val_readHash {buf : Mem} {pos : ℕ} {hash : IdentHash} (h : StandsAt buf pos hash.bytes) :
    (readHash buf pos).val = hash := by
  apply IdentHash.ext
  simpa [StandsAt, readHash, IdentHash.ofMem] using h

theorem length_destination {t : TunnelDeliveryType} (ht : t ≠ unknown) (hash : IdentHash)
    (tunnelID : UInt32) : (destination t hash tunnelID).length = destinationSize t := by
  cases t <;> simp_all [destination, destinationSize]

theorem val_readDestination {buf : Mem} {pos : ℕ} {t : TunnelDeliveryType} {hash : IdentHash}
    {tunnelID : UInt32} (ht : t ≠ unknown)
    (h : StandsAt buf pos (destination t hash tunnelID)) :
    (readDestination buf t pos).val =
      (WireFragment.readTunnelID t tunnelID, WireFragment.readIdentHash t hash) := by
  cases t with
  | deliveryTypeLocal => rfl
  | deliveryTypeTunnel =>
    obtain ⟨hid, hhash⟩ := standsAt_append.mp h
    rw [length_writeU32] at hhash
    simp only [readDestination, Traced.val_bind, Traced.val_pure, val_readID hid,
      val_readHash hhash]
    rfl
  | deliveryTypeRouter =>
    have hhash : StandsAt buf pos hash.bytes := h
    simp only [readDestination, Traced.val_bind, Traced.val_pure, val_readHash hhash]
    rfl
  | unknown => exact absurd rfl ht

/-- The endpoint reads the delivery instructions that the gateway wrote. -/
theorem readInstructions_of_encode {buf : Mem} {pos : ℕ} {w : WireFragment} (hw : w.WellFormed)
    (h : StandsAt buf pos w.encode) : (readInstructions buf pos).val = w.instructions pos := by
  obtain ⟨hhead, -⟩ := standsAt_append.mp h
  obtain ⟨hhead, hsize⟩ := standsAt_append.mp hhead
  have hlen : w.data.length < 65536 := by
    have := hw.length_le
    simp only [tunnelDataMaxPayloadSize] at this
    omega
  cases w with
  | whole t hash tunnelID data =>
    obtain ⟨hflag, hdest⟩ := standsAt_cons.mp hhead
    have ht : t ≠ unknown := hw.fields
    have hdlen := length_destination ht hash tunnelID
    simp only [WireFragment.header, List.length_cons, hdlen] at hsize
    simp only [readInstructions, Traced.val_bind, Traced.val_readByte, hflag, firstFlag_and_0x80,
      if_true, readFirstInstructions, ofCode_firstFlag, val_readDestination ht hdest,
      (firstFlag_and_0x08 t false).mpr rfl, Traced.val_pure, WireFragment.instructions,
      WireFragment.header, List.length_cons, hdlen]
    rw [show pos + 1 + destinationSize t = pos + (destinationSize t + 1) by omega,
      val_readSize hsize hlen]
    rfl
  | first t hash tunnelID msgID data =>
    obtain ⟨hdest, hid⟩ := standsAt_append.mp hhead
    obtain ⟨hflag, hdest⟩ := standsAt_cons.mp hdest
    have ht : t ≠ unknown := hw.fields
    have hdlen := length_destination ht hash tunnelID
    have hfragmented : ¬ firstFlag t true &&& 0x08 = 0 := by simp [firstFlag_and_0x08]
    simp only [List.length_cons, hdlen] at hid
    simp only [WireFragment.header, List.length_cons, List.length_append, hdlen,
      length_writeU32] at hsize
    simp only [readInstructions, Traced.val_bind, Traced.val_readByte, hflag, firstFlag_and_0x80,
      if_true, readFirstInstructions, ofCode_firstFlag, val_readDestination ht hdest,
      hfragmented, if_false, Traced.val_pure, WireFragment.instructions, WireFragment.header,
      List.length_cons, List.length_append, hdlen, length_writeU32]
    rw [show pos + 1 + destinationSize t = pos + (destinationSize t + 1) by omega,
      show pos + (destinationSize t + 1) + 4 = pos + (destinationSize t + 1 + 4) by omega,
      val_readID hid, val_readSize hsize hlen]
    rfl
  | followOn msgID fragmentNumber isLast data =>
    obtain ⟨hflag, hid⟩ := standsAt_cons.mp hhead
    obtain ⟨hmark, hnum, hlast⟩ := followOnFlag_fields hw.fields isLast
    simp only [WireFragment.header, List.length_cons, length_writeU32] at hsize
    simp only [readInstructions, Traced.val_bind, Traced.val_readByte, hflag, hmark, if_false,
      readFollowOnInstructions, val_readID hid, Traced.val_pure, hnum, hlast,
      WireFragment.instructions, WireFragment.header, List.length_cons, length_writeU32]
    rw [show pos + 1 + 4 = pos + (4 + 1) by omega, val_readSize hsize hlen]
    rfl

/-! ## Reading a tunnel data message -/

namespace TunnelEndpoint

/-- The fragments that the loop finds from `pos` on, each with its bytes. -/
def fragmentsFrom (msg : I2NPMessage) (stop pos : ℕ) : List (DeliveryInstructions × I2NPMessage) :=
  if pos < stop then
    let di := (readInstructions msg.buf pos).val
    (di, fragmentData msg stop di) :: fragmentsFrom msg stop (di.pos + di.size)
  else []
termination_by stop - pos
decreasing_by
  have hpos := lt_pos_readInstructions msg.buf pos
  omega

/-- The fragments of a tunnel data message; there are none if the checksum fails. -/
def received (sha256 : List UInt8 → List UInt8) (msg : I2NPMessage) :
    List (DeliveryInstructions × I2NPMessage) :=
  match firstFragmentPos msg with
  | none => []
  | some pos =>
    if checksumVerifies sha256 msg pos then
      fragmentsFrom (copyIV msg) (decrypted msg + tunnelDataEncryptedSize) pos
    else []

theorem received_eq_fragmentsFrom {sha256 : List UInt8 → List UInt8} {msg : I2NPMessage} {pos : ℕ}
    (hpos : firstFragmentPos msg = some pos) (hsum : checksumVerifies sha256 msg pos = true) :
    received sha256 msg =
      fragmentsFrom (copyIV msg) (decrypted msg + tunnelDataEncryptedSize) pos := by
  unfold received
  rw [hpos]
  dsimp only
  rw [hsum, if_pos rfl]

/-- The endpoint after a list of fragments. -/
def handleFragments (ep : TunnelEndpoint) (fs : List (DeliveryInstructions × I2NPMessage)) :
    TunnelEndpoint :=
  fs.foldl (fun ep f => (ep.handleFragment f.1 f.2).val) ep

theorem val_processFragments (ep : TunnelEndpoint) (msg : I2NPMessage) (stop pos : ℕ) :
    (ep.processFragments msg stop pos).val = ep.handleFragments (fragmentsFrom msg stop pos) := by
  fun_induction fragmentsFrom msg stop pos generalizing ep with
  | case1 pos hpos di ih =>
    rw [processFragments, if_pos hpos]
    exact ih _
  | case2 pos hpos =>
    rw [processFragments, if_neg hpos]
    rfl

/-- The endpoint handles tunnel data messages by handling their fragments one after the other. -/
theorem handleAll_eq_handleFragments (sha256 : List UInt8 → List UInt8) (ep : TunnelEndpoint)
    (msgs : List I2NPMessage) :
    ep.handleAll sha256 msgs = ep.handleFragments (msgs.flatMap (received sha256)) := by
  induction msgs generalizing ep with
  | nil => rfl
  | cons msg msgs ih =>
    have hone : (ep.handleDecryptedTunnelDataMsg sha256 msg).val =
        ep.handleFragments (received sha256 msg) := by
      unfold handleDecryptedTunnelDataMsg received
      cases firstFragmentPos msg with
      | none => rfl
      | some pos =>
        simp only
        split
        · exact val_processFragments _ _ _ _
        · rfl
    calc ep.handleAll sha256 (msg :: msgs)
        = (ep.handleDecryptedTunnelDataMsg sha256 msg).val.handleAll sha256 msgs :=
          List.foldl_cons ..
      _ = (ep.handleFragments (received sha256 msg)).handleFragments
            (msgs.flatMap (received sha256)) := by rw [hone, ih]
      _ = ep.handleFragments ((msg :: msgs).flatMap (received sha256)) := by
          rw [List.flatMap_cons]
          exact (List.foldl_append ..).symm

end TunnelEndpoint

open TunnelEndpoint

/-- A buffer that holds `bs` and can still grow: it lies in a short buffer, or has been moved to
the front of a full-size one. -/
structure Holds (m : I2NPMessage) (bs : List UInt8) : Prop where
  bytes_eq : m.bytes = bs
  offset_le : m.offset ≤ m.len
  maxLen_le : m.maxLen ≤ maxShortMessageSize
  room : m.len ≤ maxShortMessageSize ∨ m.offset = 2

/-- The received fragment `f` is the wire fragment `w`. -/
structure Represents (w : WireFragment) (f : DeliveryInstructions × I2NPMessage) : Prop where
  instructions_eq : ∃ pos, f.1 = w.instructions pos
  holds : Holds f.2 w.data

theorem getLength_window (msg : I2NPMessage) (pos size : ℕ) :
    (window msg pos size).getLength = size := by
  simp [window, I2NPMessage.getLength]

theorem bytes_window (msg : I2NPMessage) (pos size : ℕ) :
    (window msg pos size).bytes = slice msg.buf pos size := by
  rw [I2NPMessage.bytes, getLength_window]
  rfl

theorem bytes_fragmentData (msg : I2NPMessage) (stop : ℕ) (di : DeliveryInstructions) :
    (fragmentData msg stop di).bytes = slice msg.buf di.pos di.size := by
  unfold fragmentData
  split
  · rw [I2NPMessage.bytes_assign, bytes_window]
  · exact bytes_window _ _ _

/-- A fragment inside a tunnel data message in a short buffer can be kept. -/
theorem holds_fragmentData {msg : I2NPMessage} {stop : ℕ} {di : DeliveryInstructions}
    {bs : List UInt8} (hsize : di.size = bs.length) (hbs : StandsAt msg.buf di.pos bs)
    (hpos : 8 ≤ di.pos) (hend : di.pos + di.size ≤ stop) (hstop : stop ≤ maxShortMessageSize)
    (hmax : msg.maxLen ≤ maxShortMessageSize) : Holds (fragmentData msg stop di) bs := by
  have hbytes : (fragmentData msg stop di).bytes = bs := by
    rw [bytes_fragmentData, hsize]
    exact hbs
  unfold fragmentData at *
  by_cases hcopy : di.pos + di.size < stop
  · rw [if_pos hcopy] at hbytes ⊢
    -- the copy starts behind the room for the gateway header
    have hlen : (newFragmentMessage.assign (window msg di.pos di.size)).len = 8 + di.size := by
      simp only [I2NPMessage.assign, getLength_window]
      rfl
    refine ⟨hbytes, ?_, hmax, Or.inl (by omega)⟩
    rw [hlen]
    exact Nat.le_add_right 8 _
  · rw [if_neg hcopy] at hbytes ⊢
    exact ⟨hbytes, Nat.le_add_right _ _, hmax, Or.inl (hend.trans hstop)⟩

/-- The loop of the endpoint finds the fragments that the gateway wrote. -/
theorem fragmentsFrom_of_encodeAll {msg : I2NPMessage} {stop : ℕ} {ws : List WireFragment}
    (hws : ∀ w ∈ ws, w.WellFormed) (hstop : stop ≤ maxShortMessageSize)
    (hmax : msg.maxLen ≤ maxShortMessageSize) {pos : ℕ} (hpos : 8 ≤ pos)
    (h : StandsAt msg.buf pos (WireFragment.encodeAll ws))
    (hend : pos + (WireFragment.encodeAll ws).length = stop) :
    List.Forall₂ Represents ws (fragmentsFrom msg stop pos) := by
  induction ws generalizing pos with
  | nil =>
    have hstop' : ¬ pos < stop := by
      simp only [WireFragment.encodeAll, List.flatMap_nil, List.length_nil] at hend
      omega
    rw [fragmentsFrom, if_neg hstop']
    exact List.Forall₂.nil
  | cons w ws ih =>
    obtain ⟨hw, htail⟩ := standsAt_append.mp h
    obtain ⟨-, hdata⟩ := standsAt_append.mp hw
    have hread := readInstructions_of_encode (hws w (by simp)) hw
    have hlen := w.length_encode
    rw [WireFragment.encodeAll_cons, List.length_append] at hend
    have hnext : (w.instructions pos).pos + (w.instructions pos).size = pos + w.encode.length := by
      simp only [WireFragment.pos_instructions, WireFragment.size_instructions]
      omega
    rw [fragmentsFrom, if_pos (by omega)]
    simp only [hread]
    refine List.Forall₂.cons ⟨⟨pos, rfl⟩, ?_⟩ ?_
    · refine holds_fragmentData (by simp) ?_ ?_ (by omega) hstop hmax
      · simpa [Nat.add_assoc] using hdata
      · rw [WireFragment.pos_instructions]
        omega
    · rw [hnext]
      exact ih (fun v hv => hws v (by simp [hv])) (by omega) htail (by omega)

/-- A tunnel data message `msg` with the bytes `wire`, in a short buffer. -/
structure Carries (msg : I2NPMessage) (wire : List UInt8) : Prop where
  payload : StandsAt msg.buf msg.payloadPos wire
  room : msg.payloadPos + tunnelDataMsgSize ≤ msg.maxLen
  maxLen_le : msg.maxLen ≤ maxShortMessageSize

/-- The non-zero padding of a tunnel data message. -/
def padding (env : GatewayEnv) (i n : ℕ) : List UInt8 :=
  (env.nonZeroRandomBuffer.drop (env.randOffset i (tunnelDataMaxPayloadSize -
    (tunnelDataMsgSize - n - 25)))).take (tunnelDataMsgSize - n - 25)

theorem length_padding (env : GatewayEnv) (i : ℕ) {n : ℕ} (hn : n ≤ tunnelDataMaxPayloadSize) :
    (padding env i n).length + n = tunnelDataMaxPayloadSize := by
  have hoff := env.randOffset_le i (tunnelDataMaxPayloadSize - (tunnelDataMsgSize - n - 25))
  simp only [padding, GatewayEnv.nonZeroRandomBuffer, List.length_take, List.length_drop,
    List.length_map, env.randBuffer_length]
  simp only [tunnelDataMaxPayloadSize, tunnelDataMsgSize] at *
  omega

theorem zero_notMem_padding (env : GatewayEnv) (i n : ℕ) : 0 ∉ padding env i n := by
  intro hmem
  obtain ⟨b, -, hb⟩ := List.mem_map.mp (List.mem_of_mem_drop (List.mem_of_mem_take hmem))
  split at hb
  · exact absurd hb (by decide)
  · contradiction

/-- `memchr` finds the separator behind a padding without zeros. -/
theorem idxOf?_zero_append {pad rest : List UInt8} (h : 0 ∉ pad) :
    (pad ++ 0 :: rest).idxOf? 0 = some pad.length := by
  induction pad with
  | nil => simp [List.idxOf?_cons]
  | cons b pad ih =>
    rw [List.mem_cons, not_or] at h
    obtain ⟨hb, hpad⟩ := h
    rw [List.cons_append, List.idxOf?_cons, ih hpad]
    simp [Ne.symm hb]

section Layout

variable {env : GatewayEnv} {tunnelID : UInt32} {i : ℕ} {payload : List UInt8} {msg : I2NPMessage}

/-- Where the parts of a tunnel data message stand. -/
theorem standsAt_of_carries
    (h : Carries msg (TunnelGatewayBuffer.tunnelDataMsg env tunnelID i payload)) :
    StandsAt msg.buf (msg.payloadPos + 4) (env.randIV i) ∧
      StandsAt msg.buf (decrypted msg) ((env.sha256 (payload ++ env.randIV i)).take 4) ∧
      StandsAt msg.buf (decrypted msg + 4) (padding env i payload.length ++ 0 :: payload) := by
  have hstands : StandsAt msg.buf msg.payloadPos
      (writeU32 tunnelID ++ env.randIV i ++ (env.sha256 (payload ++ env.randIV i)).take 4 ++
        (padding env i payload.length ++ 0 :: payload)) := by
    simpa [TunnelGatewayBuffer.tunnelDataMsg, padding] using h.payload
  rw [standsAt_append, standsAt_append, standsAt_append] at hstands
  obtain ⟨⟨⟨-, hiv⟩, hsum⟩, hrest⟩ := hstands
  simp only [List.length_append, length_writeU32, env.randIV_length, List.length_take,
    env.sha256_length] at hiv hsum hrest
  refine ⟨hiv, hsum, ?_⟩
  exact hrest

/-- The position of the payload. -/
theorem firstFragmentPos_of_carries (hlen : payload.length ≤ tunnelDataMaxPayloadSize)
    (h : Carries msg (TunnelGatewayBuffer.tunnelDataMsg env tunnelID i payload)) :
    firstFragmentPos msg = some (decrypted msg + 4 + (padding env i payload.length).length + 1) := by
  obtain ⟨-, -, hrest⟩ := standsAt_of_carries h
  have hsize : tunnelDataEncryptedSize - 4 =
      (padding env i payload.length ++ 0 :: payload).length := by
    have hpad := length_padding env i hlen
    rw [List.length_append, List.length_cons]
    simp only [tunnelDataEncryptedSize, tunnelDataMaxPayloadSize] at *
    omega
  rw [firstFragmentPos, hsize, hrest, idxOf?_zero_append (zero_notMem_padding env i _),
    Option.map_some]

/-- Copying the IV leaves the payload in place. -/
theorem standsAt_copyIV_of_carries (hlen : payload.length ≤ tunnelDataMaxPayloadSize)
    (h : Carries msg (TunnelGatewayBuffer.tunnelDataMsg env tunnelID i payload)) :
    StandsAt (copyIV msg).buf (decrypted msg + 4 + (padding env i payload.length).length + 1)
      payload := by
  obtain ⟨-, -, hrest⟩ := standsAt_of_carries h
  obtain ⟨-, hbody⟩ := standsAt_append.mp hrest
  obtain ⟨-, hbody⟩ := standsAt_cons.mp hbody
  have hpad := length_padding env i hlen
  refine hbody.congr fun j _ hj => ?_
  have hout : ¬ (msg.payloadPos + tunnelDataMsgSize ≤ j ∧
      j < msg.payloadPos + tunnelDataMsgSize + 16) := by
    simp only [tunnelDataMsgSize, tunnelDataMaxPayloadSize, decrypted] at *
    omega
  simp only [copyIV, memcpy, if_neg hout]

theorem checksumVerifies_of_carries (hlen : payload.length ≤ tunnelDataMaxPayloadSize)
    (h : Carries msg (TunnelGatewayBuffer.tunnelDataMsg env tunnelID i payload)) :
    checksumVerifies env.sha256 msg
      (decrypted msg + 4 + (padding env i payload.length).length + 1) = true := by
  obtain ⟨hiv, hsum, -⟩ := standsAt_of_carries h
  have hbody := standsAt_copyIV_of_carries hlen h
  have hpad := length_padding env i hlen
  have hsize : tunnelDataMsgSize -
      (decrypted msg + 4 + (padding env i payload.length).length + 1 - msg.payloadPos) + 16 =
      payload.length + 16 := by
    simp only [tunnelDataMsgSize, tunnelDataMaxPayloadSize, decrypted] at *
    omega
  have hend : decrypted msg + 4 + (padding env i payload.length).length + 1 + payload.length =
      msg.payloadPos + tunnelDataMsgSize := by
    simp only [tunnelDataMsgSize, tunnelDataMaxPayloadSize, decrypted] at *
    omega
  have hhashed : slice (copyIV msg).buf
      (decrypted msg + 4 + (padding env i payload.length).length + 1) (payload.length + 16) =
      payload ++ env.randIV i := by
    have hiv' : slice msg.buf (msg.payloadPos + 4) 16 = env.randIV i := by
      simpa [StandsAt, env.randIV_length] using hiv
    rw [slice_add, hbody, hend, copyIV, slice_memcpy_self, hiv']
  have hsum' : slice msg.buf (decrypted msg) 4 =
      (env.sha256 (payload ++ env.randIV i)).take 4 := by
    simpa [StandsAt, env.sha256_length] using hsum
  simp only [checksumVerifies, hsize, hhashed, hsum', decide_true]

end Layout

/-- A tunnel data message of the gateway passes the checksum and yields its fragments. -/
theorem received_of_carries {env : GatewayEnv} {tunnelID : UInt32} {i : ℕ}
    {ws : List WireFragment} {msg : I2NPMessage} (hws : ∀ w ∈ ws, w.WellFormed)
    (hlen : (WireFragment.encodeAll ws).length ≤ tunnelDataMaxPayloadSize)
    (h : Carries msg (TunnelGatewayBuffer.tunnelDataMsg env tunnelID i
      (WireFragment.encodeAll ws))) :
    List.Forall₂ Represents ws (TunnelEndpoint.received env.sha256 msg) := by
  have hpad := length_padding env i hlen
  have hroom := h.room
  have hmax := h.maxLen_le
  rw [received_eq_fragmentsFrom (firstFragmentPos_of_carries hlen h)
    (checksumVerifies_of_carries hlen h)]
  have hstop : decrypted msg + tunnelDataEncryptedSize ≤ maxShortMessageSize := by
    simp only [decrypted, tunnelDataEncryptedSize, tunnelDataMsgSize] at *
    omega
  have hpos : 8 ≤ decrypted msg + 4 + (padding env i
      (WireFragment.encodeAll ws).length).length + 1 := by
    simp only [decrypted]
    omega
  have hend : decrypted msg + 4 + (padding env i (WireFragment.encodeAll ws).length).length + 1 +
      (WireFragment.encodeAll ws).length = decrypted msg + tunnelDataEncryptedSize := by
    simp only [tunnelDataEncryptedSize, tunnelDataMaxPayloadSize] at *
    omega
  have hmax' : (copyIV msg).maxLen ≤ maxShortMessageSize := hmax
  exact fragmentsFrom_of_encodeAll hws hstop hmax' hpos (standsAt_copyIV_of_carries hlen h) hend

end Tunnel
