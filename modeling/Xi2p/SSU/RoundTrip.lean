import Xi2p.SSU.Packet

/-!
# Round trip of the handshake packets

What `SSUPacketBuilder` writes for a header and a message of the handshake, and what
`SSUPacketParser` makes of it. Both streams reject a field of no bytes, so that a field that may be
empty is lost; the keying material announced by a header is read but never written.

* `writes_writeHeader`, `reads_parseHeader`, …: what is written and read for each part.
* `roundTrips_iff_survives`: the headers and bodies that come back.
-/

namespace SSU

open Bytes ByteStream CBC Identity

/-! ## Fields -/

theorem reads_readBlock {n : ℕ} (b : Block n) (hpos : 0 < n) : Reads (readBlock n) b.bytes b := by
  intro size rest
  refine (bind_of_eq_ok (reads_readBytes b.length_bytes hpos size rest)).trans ?_
  exact congrFun (dif_pos b.length_bytes) _

theorem reads_readSized {bs : List UInt8} (hpos : 0 < bs.length) (hlt : bs.length < 256) :
    Reads readSized (UInt8.ofNat bs.length :: bs) bs := by
  have hsize : (UInt8.ofNat bs.length).toNat = bs.length := by
    rw [UInt8.toNat_ofNat']
    exact Nat.mod_eq_of_lt hlt
  exact (reads_read8 _).bind (reads_readBytes hsize.symm (hsize.symm ▸ hpos))

namespace IPAddress

theorem length_bytes_eq (a : IPAddress) : a.bytes.length = 4 ∨ a.bytes.length = 16 := by
  cases a with
  | v4 b => exact Or.inl b.length_bytes
  | v6 b => exact Or.inr b.length_bytes

theorem ofBytes?_bytes (a : IPAddress) : ofBytes? a.bytes = some a := by
  cases a with
  | v4 b => exact dif_pos b.length_bytes
  | v6 b =>
    have hlen : b.bytes.length = 16 := b.length_bytes
    have hne : ¬ b.bytes.length = 4 := by omega
    exact (dif_neg hne).trans (dif_pos hlen)

/-- An address behind its size. -/
def sized (a : IPAddress) : List UInt8 := UInt8.ofNat a.bytes.length :: a.bytes

theorem length_sized (a : IPAddress) : a.sized.length = 1 + a.bytes.length := by
  rw [sized, List.length_cons, Nat.add_comm]

end IPAddress

theorem reads_readIPAddress (a : IPAddress) : Reads readIPAddress a.sized a := by
  have hlen := a.length_bytes_eq
  intro size rest
  refine (bind_of_eq_ok (reads_readSized (by omega) (by omega) size rest)).trans ?_
  rw [a.ofBytes?_bytes]
  rfl

theorem writes_writeIPAddress (a : IPAddress) : Writes (writeIPAddress a) a.sized := by
  have hlen := a.length_bytes_eq
  exact (writes_write8 _).bind (writes_writeData (by omega))

/-! ## Headers -/

/-- The place of a MAC that is written later. -/
def zeroMAC : Block macSize := ⟨List.replicate macSize 0, rfl⟩

namespace SSUHeader

variable (h : SSUHeader)

/-- The header as the parser returns it: there always is a MAC. -/
def received : SSUHeader := { h with mac := some (h.mac.getD zeroMAC) }

/-- The extended options behind their size. -/
def optionBytes : List UInt8 :=
  if h.extended then UInt8.ofNat h.extendedOptions.length :: h.extendedOptions else []

/-- The bytes that are written. -/
def bytes : List UInt8 :=
  (h.mac.getD zeroMAC).bytes ++ (h.iv.bytes ++ ([h.flag] ++ (writeU32 h.time ++ h.optionBytes)))

/-- If there are options, they are not empty. -/
def OptionsPresent : Prop := h.extended → h.extendedOptions ≠ []

theorem length_bytes : h.bytes.length + (if h.rekey then keyingMaterial else 0) = h.getSize := by
  have hmac : (h.mac.getD zeroMAC).bytes.length = 16 := Block.length_bytes _
  have hiv : h.iv.bytes.length = 16 := Block.length_bytes _
  have hoptions : h.optionBytes.length =
      if h.extended then 1 + h.extendedOptions.length else 0 := by
    unfold optionBytes
    split
    · rw [List.length_cons, Nat.add_comm]
    · rfl
  simp only [bytes, getSize, List.length_append, List.length_singleton, length_writeU32, hmac, hiv,
    hoptions, headerMin]
  omega

theorem headerMin_le_length_bytes : headerMin ≤ h.bytes.length := by
  have hmac : (h.mac.getD zeroMAC).bytes.length = 16 := Block.length_bytes _
  have hiv : h.iv.bytes.length = 16 := Block.length_bytes _
  simp only [bytes, List.length_append, List.length_singleton, length_writeU32, hmac, hiv,
    headerMin]
  omega

/-! The flag keeps what it is made of. -/

theorem flag_rekey : decide (h.flag &&& flagRekey ≠ 0) = h.rekey := by
  unfold flag
  cases h.payloadType <;> cases h.rekey <;> cases h.extended <;> rfl

theorem flag_extended : decide (h.flag &&& flagExtendedOptions ≠ 0) = h.extended := by
  unfold flag
  cases h.payloadType <;> cases h.rekey <;> cases h.extended <;> rfl

theorem ofCode?_flag : SSUPayloadType.ofCode? (h.flag >>> 4) = some h.payloadType := by
  unfold flag
  cases h.payloadType <;> cases h.rekey <;> cases h.extended <;> rfl

end SSUHeader

theorem writes_writeMAC (mac : Option (Block macSize)) :
    Writes (writeMAC mac) (mac.getD zeroMAC).bytes := by
  cases mac with
  | none => exact writes_writeZeros (by decide)
  | some mac => exact writes_writeData (by rw [mac.length_bytes]; decide)

theorem writes_writeExtendedOptions {h : SSUHeader} (hoptions : h.OptionsPresent) :
    Writes (writeExtendedOptions h) h.optionBytes := by
  unfold writeExtendedOptions SSUHeader.optionBytes
  split
  next hextended =>
    exact (writes_write8 _).bind (writes_writeData (List.length_pos_of_ne_nil (hoptions hextended)))
  next => exact writes_pure

theorem writes_writeHeader {h : SSUHeader} (hoptions : h.OptionsPresent) :
    Writes (writeHeader h) h.bytes := by
  have hiv : 0 < h.iv.bytes.length := by
    rw [h.iv.length_bytes]
    decide
  exact (writes_writeMAC _).bind ((writes_writeData hiv).bind ((writes_write8 _).bind
    ((writes_write32 _).bind (writes_writeExtendedOptions hoptions))))

theorem throws_writeHeader {h : SSUHeader} (hoptions : ¬ h.OptionsPresent) :
    Throws (writeHeader h) := by
  obtain ⟨hextended, hnil⟩ := Classical.not_imp.mp hoptions
  have hthrows : Throws (writeExtendedOptions h) := by
    rw [writeExtendedOptions, if_pos hextended, not_not.mp hnil]
    exact Throws.bind_right fun _ => throws_writeData_nil
  exact Throws.bind_right fun _ => Throws.bind_right fun _ => Throws.bind_right fun _ =>
    Throws.bind_right fun _ => hthrows

theorem reads_parseExtendedOptions {h : SSUHeader} (hoptions : h.OptionsPresent) :
    Reads (parseExtendedOptions h.extended) h.optionBytes h.extendedOptions := by
  unfold parseExtendedOptions SSUHeader.optionBytes
  split
  next hextended =>
    exact reads_readSized (List.length_pos_of_ne_nil (hoptions hextended))
      h.length_extendedOptions_lt
  next hextended =>
    rw [h.extendedOptions_eq_nil (by simpa using hextended)]
    exact reads_pure []

theorem reads_makeHeader (h : SSUHeader) :
    Reads (makeHeader (h.mac.getD zeroMAC) h.iv h.payloadType h.time h.rekey h.extended
      h.extendedOptions) [] h.received := by
  intro size rest
  exact congrFun (dif_pos ⟨h.length_extendedOptions_lt, h.extendedOptions_eq_nil⟩) _

/-- Without keying material, the header comes back. -/
theorem reads_parseHeader {h : SSUHeader} (hrekey : h.rekey = false)
    (hoptions : h.OptionsPresent) : Reads parseHeader h.bytes h.received := by
  have hfields : Reads parseHeaderFields h.bytes h.received := by
    refine (reads_readBlock (h.mac.getD zeroMAC) (by decide)).bind
      ((reads_readBlock h.iv (by decide)).bind ((reads_read8 h.flag).bind ?_))
    dsimp only
    rw [h.flag_rekey, h.flag_extended, h.ofCode?_flag]
    have hskip : Reads (skipKeyingMaterial h.rekey) [] () := by
      rw [hrekey]
      exact reads_pure ()
    refine (reads_read32 h.time).bind (hskip.bind ?_)
    have hrest := (reads_parseExtendedOptions hoptions).bind (reads_makeHeader h)
    rwa [List.append_nil] at hrest
  intro size rest
  have hlen := h.headerMin_le_length_bytes
  have hroom : ¬ (h.bytes ++ rest).length < headerMin := by
    rw [List.length_append]
    omega
  exact (if_neg hroom).trans (hfields size rest)

/-! ## Session requests -/

/-- The bytes that are written for a session request. -/
def SSUSessionRequestPacket.bytes (p : SSUSessionRequestPacket) : List UInt8 :=
  p.dhX.bytes ++ p.ipAddress.sized

theorem writes_writeSessionRequest (p : SSUSessionRequestPacket) :
    Writes (writeSessionRequest p) p.bytes := by
  have hdh : 0 < p.dhX.bytes.length := by
    rw [p.dhX.length_bytes]
    decide
  exact (writes_writeData hdh).bind (writes_writeIPAddress p.ipAddress)

theorem reads_parseSessionRequest (p : SSUSessionRequestPacket) :
    Reads parseSessionRequest p.bytes p :=
  (reads_readBlock p.dhX (by decide)).bind
    ((reads_readIPAddress p.ipAddress).bind_pure (SSUSessionRequestPacket.mk p.dhX))

/-! ## Sessions created -/

namespace SSUSessionCreatedPacket

/-- The bytes in front of the signature. -/
def front (p : SSUSessionCreatedPacket) : List UInt8 :=
  p.dhY.bytes ++ (p.ipAddress.sized ++ (writeU16 p.port ++ (writeU32 p.relayTag ++
    writeU32 p.signedOnTime)))

end SSUSessionCreatedPacket

theorem writes_writeSessionCreated {p : SSUSessionCreatedPacket} (hsig : p.signature ≠ []) :
    Writes (writeSessionCreated p) (p.front ++ p.signature) := by
  have hdh : 0 < p.dhY.bytes.length := by
    rw [p.dhY.length_bytes]
    decide
  have hwrites := (writes_writeData hdh).bind ((writes_writeIPAddress p.ipAddress).bind
    ((writes_write16 p.port).bind ((writes_write32 p.relayTag).bind
      ((writes_write32 p.signedOnTime).bind
        (writes_writeData (List.length_pos_of_ne_nil hsig))))))
  simp only [SSUSessionCreatedPacket.front, List.append_assoc]
  exact hwrites

theorem throws_writeSessionCreated {p : SSUSessionCreatedPacket} (hsig : p.signature = []) :
    Throws (writeSessionCreated p) := by
  unfold writeSessionCreated
  rw [hsig]
  exact Throws.bind_right fun _ => Throws.bind_right fun _ => Throws.bind_right fun _ =>
    Throws.bind_right fun _ => Throws.bind_right fun _ => throws_writeData_nil

/-- All that is left is taken for the signature. -/
theorem parseSessionCreated_front (p : SSUSessionCreatedPacket) (size : ℕ) (rest : List UInt8) :
    parseSessionCreated ⟨size, p.front ++ rest⟩ =
      .ok ({ p with signature := rest }, ⟨size, rest⟩) := by
  simp only [SSUSessionCreatedPacket.front, List.append_assoc]
  refine (bind_of_eq_ok (reads_readBlock p.dhY (by decide) _ _)).trans ?_
  refine (bind_of_eq_ok (reads_readIPAddress p.ipAddress _ _)).trans ?_
  refine (bind_of_eq_ok (reads_read16 p.port _ _)).trans ?_
  refine (bind_of_eq_ok (reads_read32 p.relayTag _ _)).trans ?_
  refine (bind_of_eq_ok (reads_read32 p.signedOnTime _ _)).trans ?_
  rfl

/-! ## Sessions confirmed -/

namespace SSUSessionConfirmedPacket

/-- The identity is well-formed, and the signature has the length of its scheme. -/
structure WellFormed (c : Crypto) (p : SSUSessionConfirmedPacket) : Prop where
  remoteIdentity : p.remoteIdentity.WellFormed c
  length_signature : p.signature.length = p.remoteIdentity.getSignatureLen

/-- The bytes in front of the padding. -/
def front (p : SSUSessionConfirmedPacket) : List UInt8 :=
  [0x01] ++ (writeU16 (UInt16.ofNat p.remoteIdentity.getFullLen) ++
    (p.remoteIdentity.toBuffer ++ writeU32 p.signedOnTime))

theorem WellFormed.length_front {c : Crypto} {p : SSUSessionConfirmedPacket} (h : p.WellFormed c) :
    p.front.length = 7 + p.remoteIdentity.getFullLen := by
  simp only [front, List.length_append, List.length_singleton, length_writeU16, length_writeU32,
    h.remoteIdentity.length_toBuffer]
  omega

theorem WellFormed.signature_pos {c : Crypto} {p : SSUSessionConfirmedPacket} (h : p.WellFormed c) :
    0 < p.signature.length :=
  h.length_signature ▸ h.remoteIdentity.getSignatureLen_pos

end SSUSessionConfirmedPacket

section SessionConfirmed

variable {c : Crypto} {randBytes : (n : ℕ) → Block n} {h : SSUHeader}
  {p : SSUSessionConfirmedPacket}

theorem writes_writeIdentityAndTime (hp : p.WellFormed c) :
    Writes (writeIdentityAndTime p) p.front := by
  have hbuffer := hp.remoteIdentity.length_toBuffer
  have hpos : 0 < p.remoteIdentity.toBuffer.length := by
    rw [hbuffer]
    exact Nat.lt_of_lt_of_le (by decide) (Nat.le_add_left defaultIdentitySize _)
  have hfill : Writes (skipAndFill p.remoteIdentity.getFullLen p.remoteIdentity.toBuffer)
      p.remoteIdentity.toBuffer := by
    rw [← hbuffer]
    exact writes_skipAndFill hpos
  exact (writes_write8 _).bind ((writes_write16 _).bind (hfill.bind (writes_write32 _)))

/-- The padding that is written is the one that `GetSize` counts. -/
theorem writeSessionConfirmed_eq (hp : p.WellFormed c) {s : OutputByteStream}
    (hroom : p.front.length ≤ s.length) :
    writeSessionConfirmed randBytes h p s =
      (skipAndFill (getPaddingSize (p.unpaddedSize h))
          (randBytes (getPaddingSize (p.unpaddedSize h))).bytes >>= fun _ =>
        writeData (p.signature.take p.remoteIdentity.getSignatureLen))
      ⟨s.written ++ p.front, s.length - p.front.length⟩ := by
  have hget : ∀ s : OutputByteStream, (get : Writer OutputByteStream) s = .ok (s, s) := fun _ => rfl
  have hsize : h.getSize + ((s.written ++ p.front).length - s.written.length) +
      p.remoteIdentity.getSignatureLen = p.unpaddedSize h := by
    rw [List.length_append, hp.length_front, SSUSessionConfirmedPacket.unpaddedSize]
    omega
  rw [writeSessionConfirmed, bind_of_eq_ok (hget s), (writes_writeIdentityAndTime hp).run hroom,
    bind_of_eq_ok (hget _)]
  dsimp only
  rw [hsize]

/-- The bytes that are written for a session confirmed. -/
def confirmedBytes (randBytes : (n : ℕ) → Block n) (h : SSUHeader)
    (p : SSUSessionConfirmedPacket) : List UInt8 :=
  p.front ++ ((randBytes (getPaddingSize (p.unpaddedSize h))).bytes ++ p.signature)

theorem writes_writeSessionConfirmed (hp : p.WellFormed c)
    (hpadding : p.unpaddedSize h % 16 ≠ 0) :
    Writes (writeSessionConfirmed randBytes h p) (confirmedBytes randBytes h p) := by
  intro s hroom
  have hpos : 0 < getPaddingSize (p.unpaddedSize h) := by
    rw [getPaddingSize, if_pos hpadding]
    omega
  have hsignature : p.signature.take p.remoteIdentity.getSignatureLen = p.signature :=
    List.take_of_length_le hp.length_signature.le
  have hfill := writes_skipAndFill
    (show 0 < (randBytes (getPaddingSize (p.unpaddedSize h))).bytes.length by
      rwa [Block.length_bytes])
  rw [Block.length_bytes] at hfill
  have hwrites := hfill.bind (writes_writeData hp.signature_pos)
  rw [confirmedBytes, List.length_append] at hroom
  rw [writeSessionConfirmed_eq hp (by omega), hsignature, hwrites _ (by dsimp only; omega)]
  simp only [confirmedBytes, List.append_assoc, List.length_append, Nat.sub_sub]

/-- Where no padding is needed, the builder throws. -/
theorem writeSessionConfirmed_error (hp : p.WellFormed c) (hpadding : p.unpaddedSize h % 16 = 0)
    {s : OutputByteStream} (hroom : p.front.length ≤ s.length) :
    ∃ e, writeSessionConfirmed randBytes h p s = .error e := by
  have hzero : getPaddingSize (p.unpaddedSize h) = 0 := if_neg (not_not.mpr hpadding)
  rw [writeSessionConfirmed_eq hp hroom, hzero]
  exact (throws_skipAndFill_zero _).bind _

theorem reads_parseIdentity {id : IdentityEx} (hid : id.WellFormed c)
    (hlt : id.getFullLen < 2 ^ 16) :
    Reads (parseIdentity c) (writeU16 (UInt16.ofNat id.getFullLen) ++ id.toBuffer) id.fresh := by
  have hsize : (UInt16.ofNat id.getFullLen).toNat = id.getFullLen := by
    rw [UInt16.toNat_ofNat']
    exact Nat.mod_eq_of_lt hlt
  have hpos : 0 < id.getFullLen :=
    Nat.lt_of_lt_of_le (by decide) (Nat.le_add_left defaultIdentitySize _)
  refine (reads_read16 _).bind ?_
  rw [hsize]
  intro size rest
  rw [bind_of_eq_ok (reads_readBytes hid.length_toBuffer hpos size rest)]
  rw [hid.fromBuffer_toBuffer {} (standsAt_store _ _ _)]
  exact congrFun (if_neg hpos.ne') _

/-- An identity whose length does not fit in the two bytes of its size is rejected. -/
theorem parseIdentity_error {id : IdentityEx} (hid : id.WellFormed c) (hle : 2 ^ 16 ≤ id.getFullLen)
    (size : ℕ) (rest : List UInt8) :
    ∃ e, parseIdentity c ⟨size, writeU16 (UInt16.ofNat id.getFullLen) ++ rest⟩ = .error e := by
  have hext : id.extendedLen < 2 ^ 16 := by
    rw [hid.extendedLen_eq]
    have hlt := readBE_lt (id.standardIdentity.drop 385)
    rwa [List.length_drop, hid.length_standardIdentity] at hlt
  have hsmall : (UInt16.ofNat id.getFullLen).toNat < defaultIdentitySize := by
    rw [UInt16.toNat_ofNat']
    unfold IdentityEx.getFullLen at *
    simp only [defaultIdentitySize] at *
    omega
  rw [parseIdentity, bind_of_eq_ok (reads_read16 _ size rest)]
  cases hread : readBytes (UInt16.ofNat id.getFullLen).toNat ⟨size, rest⟩ with
  | error e => exact ⟨e, bind_of_eq_error hread⟩
  | ok r =>
    rw [bind_of_eq_ok hread]
    refine ⟨_, congrFun (if_pos ?_) _⟩
    unfold IdentityEx.fromBuffer
    rw [if_pos hsmall]

/-- The parser in front of the padding. -/
theorem parseSessionConfirmed_front (hp : p.WellFormed c)
    (hlt : p.remoteIdentity.getFullLen < 2 ^ 16) (size : ℕ) (rest : List UInt8) :
    parseSessionConfirmed c h ⟨size, p.front ++ rest⟩ =
      (do
        skipBytes (getPaddingSize (p.unpaddedSize h))
        return SSUSessionConfirmedPacket.mk p.remoteIdentity.fresh p.signedOnTime (← get).rest)
      ⟨size, rest⟩ := by
  have hget : ∀ s : InputByteStream, (get : Parser InputByteStream) s = .ok (s, s) := fun _ => rfl
  have hskip : Reads (skipBytes 1) [0x01] () := reads_skipBytes rfl Nat.one_pos
  have hsize : h.getSize + ((p.front ++ rest).length - rest.length) +
      p.remoteIdentity.fresh.getSignatureLen = p.unpaddedSize h := by
    rw [List.length_append, hp.length_front, SSUSessionConfirmedPacket.unpaddedSize,
      hp.remoteIdentity.getSignatureLen_fresh]
    omega
  have hfront : p.front ++ rest = [0x01] ++ (writeU16 (UInt16.ofNat p.remoteIdentity.getFullLen) ++
      p.remoteIdentity.toBuffer ++ (writeU32 p.signedOnTime ++ rest)) := by
    simp only [SSUSessionConfirmedPacket.front, List.append_assoc]
  rw [parseSessionConfirmed, bind_of_eq_ok (hget _), hfront, bind_of_eq_ok (hskip size _),
    bind_of_eq_ok (reads_parseIdentity hp.remoteIdentity hlt size _),
    bind_of_eq_ok (reads_read32 p.signedOnTime size rest), bind_of_eq_ok (hget _)]
  dsimp only
  rw [← hfront, hsize]

theorem parseSessionConfirmed_error (hp : p.WellFormed c)
    (hle : 2 ^ 16 ≤ p.remoteIdentity.getFullLen) (size : ℕ) (rest : List UInt8) :
    ∃ e, parseSessionConfirmed c h ⟨size, p.front ++ rest⟩ = .error e := by
  have hget : ∀ s : InputByteStream, (get : Parser InputByteStream) s = .ok (s, s) := fun _ => rfl
  have hskip : Reads (skipBytes 1) [0x01] () := reads_skipBytes rfl Nat.one_pos
  obtain ⟨e, he⟩ := parseIdentity_error hp.remoteIdentity hle size
    (p.remoteIdentity.toBuffer ++ (writeU32 p.signedOnTime ++ rest))
  refine ⟨e, ?_⟩
  simp only [SSUSessionConfirmedPacket.front, List.append_assoc]
  rw [parseSessionConfirmed, bind_of_eq_ok (hget _), bind_of_eq_ok (hskip size _),
    bind_of_eq_error he]

theorem parseSessionConfirmed_confirmedBytes (hp : p.WellFormed c)
    (hlt : p.remoteIdentity.getFullLen < 2 ^ 16) (hpadding : p.unpaddedSize h % 16 ≠ 0)
    (size : ℕ) :
    parseSessionConfirmed c h ⟨size, confirmedBytes randBytes h p⟩ =
      .ok ({ p with remoteIdentity := p.remoteIdentity.fresh }, ⟨size, p.signature⟩) := by
  have hpos : 0 < getPaddingSize (p.unpaddedSize h) := by
    rw [getPaddingSize, if_pos hpadding]
    omega
  rw [confirmedBytes, parseSessionConfirmed_front hp hlt]
  exact bind_of_eq_ok (reads_skipBytes (Block.length_bytes _) hpos size p.signature)

end SessionConfirmed

/-! ## The round trip -/

namespace SSUPayload

/-- `GetSize`, for the messages of the handshake. -/
def handshakeSize (h : SSUHeader) : SSUPayload → Option ℕ
  | sessionRequest p => some (p.getSize h)
  | sessionCreated p => some (p.getSize h)
  | sessionConfirmed p => some (p.getSize h)
  | _ => none

/-- A body that `SSUSession` can give to the builder. -/
def WellFormed (c : Crypto) : SSUPayload → Prop
  | sessionConfirmed p => p.WellFormed c
  | _ => True

/-- The body as the parser returns it: the verifier of an identity is created when it is needed. -/
def received : SSUPayload → SSUPayload
  | sessionConfirmed p => sessionConfirmed { p with remoteIdentity := p.remoteIdentity.fresh }
  | p => p

/-- No field of the body is lost: the signature of a session created is not empty and fills the
last block, a session confirmed needs padding and its identity has a length of two bytes. -/
def Survives (h : SSUHeader) : SSUPayload → Prop
  | sessionCreated p => p.signature ≠ [] ∧ p.getSize h % 16 = 0
  | sessionConfirmed p => p.unpaddedSize h % 16 ≠ 0 ∧ p.remoteIdentity.getFullLen < 2 ^ 16
  | _ => True

end SSUPayload

/-- `WriteHeader` and `WritePacket` fill a buffer of the padded size with `size` bytes, and
`ParsePacket` of the buffer, whatever stands behind these bytes, returns header and body. -/
def RoundTrips (c : Crypto) (randBytes : (n : ℕ) → Block n) (h : SSUHeader) (body : SSUPayload)
    (size : ℕ) : Prop :=
  ∃ out, (do writeHeader h; writePacket randBytes h body)
      (.ofLength (getPaddedSize size)) = .ok ((), out) ∧
    out.written.length = size ∧
    ∀ pad : List UInt8, pad.length = getPaddedSize size - size →
      ∃ packet s', parsePacket c (.of (out.written ++ pad)) = .ok (packet, s') ∧
        packet.header = h.received ∧ packet.payload = body.received

theorem parsePacket_eq {c : Crypto} {h : SSUHeader} {body : SSUPayload} (hrekey : h.rekey = false)
    (hoptions : h.OptionsPresent) {bytes : List UInt8} {s' : InputByteStream} (size : ℕ)
    (hbody : parsePayload c h.received ⟨size, bytes⟩ = .ok (body, s')) :
    parsePacket c ⟨size, h.bytes ++ bytes⟩ = .ok (⟨h.received, body, bytes⟩, s') := by
  refine (bind_of_eq_ok (reads_parseHeader hrekey hoptions size bytes)).trans ?_
  have hget : (get : Parser InputByteStream) ⟨size, bytes⟩ = .ok (⟨size, bytes⟩, ⟨size, bytes⟩) := rfl
  refine (bind_of_eq_ok hget).trans ?_
  exact bind_of_eq_ok hbody

theorem parsePacket_error {c : Crypto} {h : SSUHeader} (hrekey : h.rekey = false)
    (hoptions : h.OptionsPresent) {bytes : List UInt8} {size : ℕ} {e : StdException}
    (hbody : parsePayload c h.received ⟨size, bytes⟩ = .error e) :
    parsePacket c ⟨size, h.bytes ++ bytes⟩ = .error e := by
  refine (bind_of_eq_ok (reads_parseHeader hrekey hoptions size bytes)).trans ?_
  have hget : (get : Parser InputByteStream) ⟨size, bytes⟩ = .ok (⟨size, bytes⟩, ⟨size, bytes⟩) := rfl
  refine (bind_of_eq_ok hget).trans ?_
  exact bind_of_eq_error hbody

theorem getPaddedSize_eq_of_dvd {n : ℕ} (h : n % 16 = 0) : getPaddedSize n = n := by
  rw [getPaddedSize, getPaddingSize, if_neg (not_not.mpr h), Nat.add_zero]

theorem getPaddedSize_mod (n : ℕ) : getPaddedSize n % 16 = 0 := by
  rw [getPaddedSize, getPaddingSize]
  split <;> omega

section RoundTrip

variable {c : Crypto} {randBytes : (n : ℕ) → Block n} {h : SSUHeader} {body : SSUPayload} {size : ℕ}

theorem not_roundTrips_of_error
    (herror : ∃ e, (do writeHeader h; writePacket randBytes h body)
      (.ofLength (getPaddedSize size)) = .error e) :
    ¬ RoundTrips c randBytes h body size := by
  rintro ⟨out, hout, -⟩
  obtain ⟨e, he⟩ := herror
  cases he.symm.trans hout

theorem roundTrips_imp_optionsPresent (hround : RoundTrips c randBytes h body size) :
    h.OptionsPresent := by
  by_contra hoptions
  exact not_roundTrips_of_error ((throws_writeHeader hoptions).bind _) hround

/-- A body that is written comes back iff no keying material is announced and the parser returns
it. -/
theorem roundTrips_iff_of_writes (hoptions : h.OptionsPresent) {bytes : List UInt8}
    (hwrites : Writes (writePacket randBytes h body) bytes)
    (hsize : h.getSize + bytes.length = size) :
    RoundTrips c randBytes h body size ↔
      h.rekey = false ∧ ∀ pad : List UInt8, pad.length = getPaddedSize size - size →
        ∃ packet s', parsePacket c (.of (h.bytes ++ (bytes ++ pad))) = .ok (packet, s') ∧
          packet.header = h.received ∧ packet.payload = body.received := by
  have hlen := h.length_bytes
  have hout := (writes_writeHeader hoptions).bind hwrites (.ofLength (getPaddedSize size)) (by
    rw [List.length_append]
    show _ ≤ size + _
    omega)
  constructor
  · rintro ⟨out, hout', hwritten, hparse⟩
    obtain ⟨-, rfl⟩ := Prod.mk.inj (Except.ok.inj (hout.symm.trans hout'))
    have hwritten : ([] ++ (h.bytes ++ bytes)).length = size := hwritten
    rw [List.nil_append, List.length_append] at hwritten
    refine ⟨?_, fun pad hpad => ?_⟩
    · by_contra hrekey
      rw [if_pos (by simpa using hrekey)] at hlen
      simp only [keyingMaterial] at hlen
      omega
    · rw [← List.append_assoc]
      exact hparse pad hpad
  · rintro ⟨hrekey, hparse⟩
    rw [if_neg (by simp [hrekey])] at hlen
    refine ⟨_, hout, ?_, fun pad hpad => ?_⟩
    · show ([] ++ (h.bytes ++ bytes)).length = size
      rw [List.nil_append, List.length_append]
      omega
    · have hparsed := hparse pad hpad
      rw [← List.append_assoc] at hparsed
      exact hparsed

theorem roundTrips_sessionRequest_iff {p : SSUSessionRequestPacket}
    (htype : h.payloadType = .sessionRequest) (hoptions : h.OptionsPresent) :
    RoundTrips c randBytes h (.sessionRequest p) (p.getSize h) ↔ h.rekey = false := by
  have hsize : h.getSize + p.bytes.length = p.getSize h := by
    simp only [SSUSessionRequestPacket.bytes, SSUSessionRequestPacket.getSize, List.length_append,
      Block.length_bytes, IPAddress.length_sized]
    omega
  have hwrites : Writes (writePacket randBytes h (.sessionRequest p)) p.bytes :=
    writes_writeSessionRequest p
  rw [roundTrips_iff_of_writes hoptions hwrites hsize]
  refine ⟨And.left, fun hrekey => ⟨hrekey, fun pad _ => ?_⟩⟩
  have hparse : ∀ size, parsePayload c h.received ⟨size, p.bytes ++ pad⟩ =
      .ok (.sessionRequest p, ⟨size, pad⟩) := by
    intro size
    unfold parsePayload
    rw [show h.received.payloadType = .sessionRequest from htype]
    exact map_of_eq_ok (reads_parseSessionRequest p size pad)
  exact ⟨_, _, parsePacket_eq hrekey hoptions _ (hparse _), rfl, rfl⟩

/-- The padding of the packet is taken for a part of the signature. -/
theorem roundTrips_sessionCreated_iff {p : SSUSessionCreatedPacket}
    (htype : h.payloadType = .sessionCreated) (hoptions : h.OptionsPresent) :
    RoundTrips c randBytes h (.sessionCreated p) (p.getSize h) ↔
      h.rekey = false ∧ p.signature ≠ [] ∧ p.getSize h % 16 = 0 := by
  by_cases hsig : p.signature = []
  · have hthrows : Throws (do writeHeader h; writePacket randBytes h (.sessionCreated p)) :=
      Throws.bind_right fun _ => throws_writeSessionCreated hsig
    simp only [not_roundTrips_of_error (hthrows _), hsig, ne_eq, not_true_eq_false, false_and,
      and_false]
  have hsize : h.getSize + (p.front ++ p.signature).length = p.getSize h := by
    simp only [SSUSessionCreatedPacket.front, SSUSessionCreatedPacket.getSize, List.length_append,
      Block.length_bytes, IPAddress.length_sized, length_writeU16, length_writeU32]
    omega
  have hwrites : Writes (writePacket randBytes h (.sessionCreated p)) (p.front ++ p.signature) :=
    writes_writeSessionCreated hsig
  have hparse : h.rekey = false → ∀ pad, ∃ s',
      parsePacket c (.of (h.bytes ++ (p.front ++ p.signature ++ pad))) =
        .ok (⟨h.received, .sessionCreated { p with signature := p.signature ++ pad },
          p.front ++ p.signature ++ pad⟩, s') := by
    intro hrekey pad
    have hbody : ∀ size, parsePayload c h.received ⟨size, p.front ++ p.signature ++ pad⟩ =
        .ok (.sessionCreated { p with signature := p.signature ++ pad },
          ⟨size, p.signature ++ pad⟩) := by
      intro size
      unfold parsePayload
      rw [show h.received.payloadType = .sessionCreated from htype, List.append_assoc]
      exact map_of_eq_ok (parseSessionCreated_front p _ _)
    exact ⟨_, parsePacket_eq hrekey hoptions _ (hbody _)⟩
  rw [roundTrips_iff_of_writes hoptions hwrites hsize]
  constructor
  · rintro ⟨hrekey, hround⟩
    refine ⟨hrekey, hsig, ?_⟩
    by_contra hpadding
    let n := getPaddedSize (p.getSize h) - p.getSize h
    obtain ⟨packet, s', hpacket, -, hbody⟩ := hround (List.replicate n 0) List.length_replicate
    obtain ⟨s'', hpacket'⟩ := hparse hrekey (List.replicate n 0)
    obtain ⟨rfl, -⟩ := Prod.mk.inj (Except.ok.inj (hpacket'.symm.trans hpacket))
    have hsignature : p.signature ++ List.replicate n 0 = p.signature :=
      congrArg SSUSessionCreatedPacket.signature (SSUPayload.sessionCreated.inj hbody)
    have hlen := congrArg List.length hsignature
    rw [List.length_append, List.length_replicate] at hlen
    have hmod := getPaddedSize_mod (p.getSize h)
    have hle : p.getSize h ≤ getPaddedSize (p.getSize h) := Nat.le_add_right _ _
    have hsame : getPaddedSize (p.getSize h) = p.getSize h := by omega
    rw [hsame] at hmod
    exact hpadding hmod
  · rintro ⟨hrekey, -, hpadding⟩
    refine ⟨hrekey, fun pad hpad => ?_⟩
    rw [getPaddedSize_eq_of_dvd hpadding, Nat.sub_self] at hpad
    obtain rfl := List.eq_nil_of_length_eq_zero hpad
    obtain ⟨s', hpacket⟩ := hparse hrekey []
    refine ⟨_, s', hpacket, rfl, ?_⟩
    rw [List.append_nil]
    rfl

theorem length_confirmedBytes {p : SSUSessionConfirmedPacket} (hp : p.WellFormed c) :
    h.getSize + (confirmedBytes randBytes h p).length = p.getSize h := by
  rw [confirmedBytes, List.length_append, List.length_append, hp.length_front, Block.length_bytes,
    hp.length_signature, SSUSessionConfirmedPacket.getSize, getPaddedSize]
  show _ = h.getSize + 3 + p.remoteIdentity.getFullLen + p.remoteIdentity.getSignatureLen + 4 + _
  omega

/-- Neither stream takes a padding of no bytes. -/
theorem roundTrips_sessionConfirmed_iff {p : SSUSessionConfirmedPacket}
    (htype : h.payloadType = .sessionConfirmed) (hoptions : h.OptionsPresent)
    (hp : p.WellFormed c) :
    RoundTrips c randBytes h (.sessionConfirmed p) (p.getSize h) ↔
      h.rekey = false ∧ p.unpaddedSize h % 16 ≠ 0 ∧ p.remoteIdentity.getFullLen < 2 ^ 16 := by
  have hsize : h.getSize + (confirmedBytes randBytes h p).length = p.getSize h :=
    length_confirmedBytes hp
  by_cases hpadding : p.unpaddedSize h % 16 = 0
  · have hheader := h.length_bytes
    have hpadded : p.getSize h ≤ getPaddedSize (p.getSize h) := Nat.le_add_right _ _
    rw [confirmedBytes, List.length_append] at hsize
    have herror : ∃ e, (do writeHeader h; writePacket randBytes h (.sessionConfirmed p))
        (.ofLength (getPaddedSize (p.getSize h))) = .error e := by
      rw [(writes_writeHeader hoptions).run (show h.bytes.length ≤ getPaddedSize _ by omega)]
      apply writeSessionConfirmed_error hp hpadding
      show p.front.length ≤ getPaddedSize _ - h.bytes.length
      omega
    simp only [not_roundTrips_of_error herror, hpadding, ne_eq, not_true_eq_false, false_and,
      and_false]
  have hwrites : Writes (writePacket randBytes h (.sessionConfirmed p))
      (confirmedBytes randBytes h p) := writes_writeSessionConfirmed hp hpadding
  have hfull : getPaddedSize (p.getSize h) - p.getSize h = 0 := by
    rw [getPaddedSize_eq_of_dvd (show p.getSize h % 16 = 0 from getPaddedSize_mod _), Nat.sub_self]
  rw [roundTrips_iff_of_writes hoptions hwrites hsize, hfull]
  constructor
  · rintro ⟨hrekey, hround⟩
    refine ⟨hrekey, hpadding, ?_⟩
    by_contra hlt
    obtain ⟨packet, s', hpacket, -⟩ := hround [] rfl
    obtain ⟨e, he⟩ := parseSessionConfirmed_error hp (Nat.not_lt.mp hlt)
      (h.bytes ++ (confirmedBytes randBytes h p ++ [])).length
      ((randBytes (getPaddingSize (p.unpaddedSize h))).bytes ++ p.signature ++ [])
    have hpayload : parsePayload c h.received ⟨(h.bytes ++ (confirmedBytes randBytes h p ++ [])).length,
        confirmedBytes randBytes h p ++ []⟩ = .error e := by
      unfold parsePayload
      rw [show h.received.payloadType = .sessionConfirmed from htype]
      rw [confirmedBytes, List.append_assoc] at he ⊢
      exact map_of_eq_error he
    cases (parsePacket_error hrekey hoptions hpayload).symm.trans hpacket
  · rintro ⟨hrekey, -, hlt⟩
    refine ⟨hrekey, fun pad hpad => ?_⟩
    obtain rfl := List.eq_nil_of_length_eq_zero hpad
    have hparse : ∀ size, parsePayload c h.received ⟨size, confirmedBytes randBytes h p⟩ =
        .ok (.sessionConfirmed { p with remoteIdentity := p.remoteIdentity.fresh },
          ⟨size, p.signature⟩) := by
      intro size
      unfold parsePayload
      rw [show h.received.payloadType = .sessionConfirmed from htype]
      exact map_of_eq_ok (parseSessionConfirmed_confirmedBytes hp hlt hpadding size)
    rw [List.append_nil]
    exact ⟨_, _, parsePacket_eq hrekey hoptions _ (hparse _), rfl, rfl⟩

/-- The headers and bodies that come back are those without keying material and without a field of
no bytes. -/
theorem roundTrips_iff_survives (htype : h.payloadType = body.payloadType)
    (hbody : body.WellFormed c) (hsize : body.handshakeSize h = some size) :
    RoundTrips c randBytes h body size ↔
      h.rekey = false ∧ h.OptionsPresent ∧ body.Survives h := by
  by_cases hoptions : h.OptionsPresent
  · cases body with
    | sessionRequest p =>
      obtain rfl := Option.some.inj hsize
      rw [roundTrips_sessionRequest_iff htype hoptions]
      exact ⟨fun hrekey => ⟨hrekey, hoptions, trivial⟩, And.left⟩
    | sessionCreated p =>
      obtain rfl := Option.some.inj hsize
      rw [roundTrips_sessionCreated_iff htype hoptions]
      exact and_congr_right fun _ => (and_iff_right hoptions).symm
    | sessionConfirmed p =>
      obtain rfl := Option.some.inj hsize
      rw [roundTrips_sessionConfirmed_iff htype hoptions hbody]
      exact and_congr_right fun _ => (and_iff_right hoptions).symm
    | _ => cases hsize
  · have hlost : ¬ RoundTrips c randBytes h body size :=
      fun hround => hoptions (roundTrips_imp_optionsPresent hround)
    exact ⟨fun hround => absurd hround hlost, fun hall => absurd hall.2.1 hoptions⟩

end RoundTrip

/-- A session created for an IPv6 address, with a signature of three blocks. -/
def createdIPv6 : SSUSessionCreatedPacket :=
  { dhY := ⟨List.replicate dhPublic 2, List.length_replicate⟩
    ipAddress := .v6 ⟨List.replicate 16 1, rfl⟩
    port := 9111
    relayTag := 0
    signedOnTime := 1500000000
    signature := List.replicate 48 7 }

/-- No hash and no signature is checked when these packets are read. -/
def noCrypto : Crypto := ⟨fun _ => I2NP.IdentHash.zero, fun _ _ _ _ => false⟩

/-- Padding of zeros. -/
def zeroBytes (n : ℕ) : Block n := ⟨List.replicate n 0, List.length_replicate⟩

/-- A header without options. -/
def plainHeader (payloadType : SSUPayloadType) : SSUHeader :=
  { mac := none
    iv := ⟨List.replicate ivSize 3, rfl⟩
    payloadType
    time := 1500000000 }

theorem roundTrips_createdIPv6 :
    RoundTrips noCrypto zeroBytes (plainHeader .sessionCreated) (.sessionCreated createdIPv6) 368 := by
  have hsize : createdIPv6.getSize (plainHeader .sessionCreated) = 368 := rfl
  have hsurvives : createdIPv6.signature ≠ [] ∧
      createdIPv6.getSize (plainHeader .sessionCreated) % 16 = 0 := by
    rw [hsize]
    decide
  have hoptions : (plainHeader .sessionCreated).OptionsPresent := by
    intro hextended
    cases hextended
  have hbody : (SSUPayload.sessionCreated createdIPv6).WellFormed noCrypto := trivial
  exact (roundTrips_iff_survives rfl hbody (congrArg some hsize)).mpr ⟨rfl, hoptions, hsurvives⟩

/-- A session request. -/
def requestIPv4 : SSUSessionRequestPacket :=
  { dhX := ⟨List.replicate dhPublic 2, List.length_replicate⟩
    ipAddress := .v4 ⟨[127, 0, 0, 1], rfl⟩ }

/-- The keying material that a header announces is counted and read, but not written. -/
theorem not_roundTrips_rekey :
    ¬ ∀ (c : Crypto) (randBytes : (n : ℕ) → Block n) (h : SSUHeader) (body : SSUPayload) (size : ℕ),
      h.payloadType = body.payloadType → body.WellFormed c → body.handshakeSize h = some size →
        RoundTrips c randBytes h body size := by
  intro hall
  have hround := hall noCrypto zeroBytes { plainHeader .sessionRequest with rekey := true }
    (.sessionRequest requestIPv4) _ rfl trivial rfl
  have hoptions : { plainHeader .sessionRequest with rekey := true }.OptionsPresent := by
    intro hextended
    cases hextended
  have hrekey := (roundTrips_sessionRequest_iff rfl hoptions).mp hround
  cases hrekey

end SSU
