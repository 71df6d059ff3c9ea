import Xi2p.SSU.RoundTrip

/-!
# The encryption envelope of SSU

The functions `FillHeaderAndEncrypt`, `WriteAndEncrypt`, `Validate` and `Decrypt` of
`core/router/transports/ssu/session.cc`. A datagram begins with MAC and IV; what stands behind is
encrypted in place. The MAC is that of the cipher text, the IV and the length, which are written
behind the cipher text for this purpose.

* `Carries.received`: what makes a datagram valid, and what is decrypted then.
* `fillAndEncrypt_received`, `writeAndEncrypt_received`: what the senders make is received.
* `sent_received`: the two ends together.
-/

namespace SSU.Envelope

open Bytes CBC ByteStream

/-! ## Keys -/

/-- AES under an AES key, and `HMACMD5Digest` under a MAC key. -/
structure Keys where
  aes : BlockCipher ivSize
  mac : List UInt8 → Block macSize

/-- `SSUSessionPacket::IV() - data`. -/
abbrev ivPos : ℕ := 16

/-- `SSUSessionPacket::Encrypted() - data`. -/
abbrev encryptedPos : ℕ := 32

/-- `SSUSize::BufferMargin`. -/
abbrev bufferMargin : ℕ := ivSize + 2

/-- `CBCEncryption::Encrypt`, in place. -/
def encryptInPlace (e : Encryption ivSize) (m : Mem) (pos len : ℕ) : Mem × Encryption ivSize :=
  overMem Encryption.encryptBlock e m pos pos (len / 16)

/-- `CBCDecryption::Decrypt`, in place. -/
def decryptInPlace (d : Decryption ivSize) (m : Mem) (pos len : ℕ) : Mem × Decryption ivSize :=
  overMem Decryption.decryptBlock d m pos pos (len / 16)

theorem mul_div_ivSize (count : ℕ) : ivSize * count / 16 = count :=
  Nat.mul_div_cancel_left count (by decide)

/-- The blocks are encrypted one behind the other. -/
theorem blocksAt_encryptInPlace (e : Encryption ivSize) (m : Mem) (pos count : ℕ) :
    blocksAt (encryptInPlace e m pos (ivSize * count)).1 pos count =
      (e.encrypt (blocksAt m pos count)).1 := by
  rw [encryptInPlace, mul_div_ivSize, ← overBlocks_encryptBlock]
  exact (overMem_spec e m pos pos (.inl rfl)).1

theorem encryptInPlace_of_outside (e : Encryption ivSize) (m : Mem) {pos count i : ℕ}
    (h : i < pos ∨ pos + ivSize * count ≤ i) :
    (encryptInPlace e m pos (ivSize * count)).1 i = m i := by
  rw [encryptInPlace, mul_div_ivSize]
  exact overMem_of_outside e m pos h

/-- The blocks are decrypted one behind the other. -/
theorem blocksAt_decryptInPlace (d : Decryption ivSize) (m : Mem) (pos count : ℕ) :
    blocksAt (decryptInPlace d m pos (ivSize * count)).1 pos count =
      (d.decrypt (blocksAt m pos count)).1 := by
  rw [decryptInPlace, mul_div_ivSize, ← overBlocks_decryptBlock]
  exact (overMem_spec d m pos pos (.inl rfl)).1

/-! ## Senders -/

/-- A buffer with its MAC, and the bytes that have been hashed for it. -/
structure Signed where
  buf : Mem
  hashed : List UInt8

/-- The IV and the length are written behind `len` bytes. -/
def appendIVAndLength (m : Mem) (len : ℕ) : Mem :=
  let m := memcpy m len m ivPos ivSize
  store m (len + ivSize) (writeU16 (UInt16.ofNat (len - encryptedPos)))

/-- What the two functions `FillHeaderAndEncrypt` do, with an encryption that is new or that of the
session. -/
def fillAndEncrypt (encryption : Encryption ivSize) (mac : List UInt8 → Block macSize)
    (iv : Block ivSize) (time : UInt32) (payloadType : UInt8) (m : Mem) (len : ℕ) (flag : UInt8) :
    Signed × Encryption ivSize :=
  if len < headerMin then (⟨m, []⟩, encryption)
  else
    let m := store m ivPos iv.bytes
    let m := store m encryptedPos [flag ||| (payloadType <<< 4)]
    let m := store m (encryptedPos + 1) (writeU32 time)
    let encryptedLen := len - encryptedPos
    let (m, encryption) := encryptInPlace { encryption with last := iv } m encryptedPos encryptedLen
    let m := appendIVAndLength m len
    let hashed := slice m encryptedPos (encryptedLen + bufferMargin)
    (⟨store m 0 (mac hashed).bytes, hashed⟩, encryption)

/-- `FillHeaderAndEncrypt`, with an AES key and a MAC key. -/
def fillHeaderAndEncrypt (keys : Keys) (iv : Block ivSize) (time : UInt32) (payloadType : UInt8)
    (m : Mem) (len : ℕ) (flag : UInt8) : Signed :=
  (fillAndEncrypt ⟨keys.aes, iv⟩ keys.mac iv time payloadType m len flag).1

/-- `FillHeaderAndEncrypt`, with `m_SessionKeyEncryption` and `m_MACKey`. -/
def fillHeaderAndEncryptSession (sessionKeyEncryption : Encryption ivSize)
    (macKey : List UInt8 → Block macSize) (iv : Block ivSize) (time : UInt32) (payloadType : UInt8)
    (m : Mem) (len : ℕ) : Signed × Encryption ivSize :=
  fillAndEncrypt sessionKeyEncryption macKey iv time payloadType m len 0

/-- `WriteAndEncrypt`: the buffer, and the number of bytes that have been encrypted. -/
def writeAndEncrypt (keys : Keys) (randBytes padding : (n : ℕ) → Block n) (time : UInt32)
    (header : SSUHeader) (payload : SSUPayload) (m : Mem) (bufferSize : ℕ) :
    Except StdException (Signed × ℕ) := do
  let header := { header with time }
  let builder := OutputByteStream.ofLength bufferSize
  let (_, builder) ← (do writeHeader header; writePacket randBytes header payload : Writer Unit) builder
  let encryptedLen := builder.written.length - encryptedPos
  let paddingSize := getPaddingSize encryptedLen
  let (_, builder) ←
    (if paddingSize ≠ 0 then writeData (padding paddingSize).bytes else pure () : Writer Unit) builder
  let encryptedLen := encryptedLen + paddingSize
  let m := store m 0 builder.written
  let (m, _) := encryptInPlace ⟨keys.aes, header.iv⟩ m encryptedPos encryptedLen
  let (_, stream) ← (do writeData header.iv.bytes; write16 (UInt16.ofNat encryptedLen) : Writer Unit)
    (OutputByteStream.ofLength (bufferSize - encryptedPos))
  let m := store m (encryptedPos + encryptedLen) stream.written
  let hashed := slice m encryptedPos (encryptedLen + bufferMargin)
  return (⟨store m 0 (keys.mac hashed).bytes, hashed⟩, encryptedLen)

/-! ## Receivers -/

/-- The buffer after `Validate`, the bytes that have been hashed, and the result. -/
structure Validated where
  buf : Mem
  hashed : List UInt8
  valid : Bool

/-- `Validate`. -/
def validate (mac : List UInt8 → Block macSize) (m : Mem) (len : ℕ) : Validated :=
  if len < headerMin then ⟨m, [], false⟩
  else
    let m := appendIVAndLength m len
    let hashed := slice m encryptedPos (len - encryptedPos + bufferMargin)
    ⟨m, hashed, Block.ofMem m 0 = mac hashed⟩

/-- `Decrypt`; `decryption` has the AES key, and its state is that of the session or new. -/
def decrypt (decryption : Decryption ivSize) (m : Mem) (len : ℕ) :
    Except StdException (Mem × Decryption ivSize) :=
  if len < headerMin then .error (.lengthError "unexpected SSU message length")
  else .ok (decryptInPlace { decryption with iv := Block.ofMem m ivPos } m encryptedPos
    (len - encryptedPos))

/-! ## What is hashed -/

/-- Only what stands behind the datagram is written. -/
theorem appendIVAndLength_of_lt (m : Mem) {len i : ℕ} (hi : i < len) :
    appendIVAndLength m len i = m i := by
  refine (store_of_lt _ _ (by omega)).trans ?_
  exact if_neg fun hcopied => absurd hi (not_lt.mpr hcopied.1)

/-- The cipher text, the IV and the length. -/
theorem slice_appendIVAndLength (m : Mem) (n : ℕ) :
    slice (appendIVAndLength m (encryptedPos + n)) encryptedPos (n + bufferMargin) =
      slice m encryptedPos n ++ (slice m ivPos ivSize ++ writeU16 (UInt16.ofNat n)) := by
  have hlen : encryptedPos + n - encryptedPos = n := Nat.add_sub_cancel_left _ _
  rw [slice_add]
  congr 1
  · exact slice_congr fun i hi => appendIVAndLength_of_lt m (by omega)
  · have hiv : StandsAt (appendIVAndLength m (encryptedPos + n)) (encryptedPos + n)
        (slice m ivPos ivSize) := by
      refine StandsAt.store_of_le ?_ (by rw [length_slice])
      rw [StandsAt, length_slice]
      exact slice_memcpy_self _ _ _ _ _
    have hsize : StandsAt (appendIVAndLength m (encryptedPos + n)) (encryptedPos + n + ivSize)
        (writeU16 (UInt16.ofNat n)) := by
      rw [appendIVAndLength, hlen]
      exact standsAt_store _ _ _
    have hboth := standsAt_append.mpr ⟨hiv, by rwa [length_slice]⟩
    rwa [StandsAt, List.length_append, length_slice, length_writeU16] at hboth

/-! ## What a datagram carries -/

/-- The datagram at the front of a buffer: it carries blocks, in cipher text. -/
structure Carries (keys : Keys) (blocks : List (Block ivSize)) (m : Mem) : Prop where
  cipher_eq : blocksAt m encryptedPos blocks.length =
    (Encryption.encrypt ⟨keys.aes, Block.ofMem m ivPos⟩ blocks).1
  mac_eq : Block.ofMem m 0 = keys.mac (slice m encryptedPos (ivSize * blocks.length) ++
    (slice m ivPos ivSize ++ writeU16 (UInt16.ofNat (ivSize * blocks.length))))

variable {keys : Keys} {blocks : List (Block ivSize)} {m m' : Mem}

/-- It depends on the bytes of the datagram only. -/
theorem Carries.congr (h : Carries keys blocks m)
    (heq : ∀ i, i < encryptedPos + ivSize * blocks.length → m' i = m i) :
    Carries keys blocks m' := by
  have hiv : slice m' ivPos ivSize = slice m ivPos ivSize := by
    refine slice_congr fun i hi => heq _ ?_
    simp only [ivPos, encryptedPos, ivSize] at hi ⊢
    omega
  have hcipher : slice m' encryptedPos (ivSize * blocks.length) =
      slice m encryptedPos (ivSize * blocks.length) := slice_congr fun i hi => heq _ (by omega)
  have hmac : (Block.ofMem m' 0 : Block macSize) = Block.ofMem m 0 := by
    ext1
    refine slice_congr fun i hi => heq _ ?_
    simp only [encryptedPos, macSize] at hi ⊢
    omega
  have hblock : (Block.ofMem m' ivPos : Block ivSize) = Block.ofMem m ivPos := Block.ext hiv
  constructor
  · rw [hblock, ← h.cipher_eq]
    exact blocksAt_congr fun i _ hi => heq i hi
  · rw [hmac, hcipher, hiv]
    exact h.mac_eq

/-- What a receiver makes of a datagram that has been signed: it is valid, the same bytes are hashed
for it, and the plain text behind the IV comes back. -/
structure Received (keys : Keys) (plain : List UInt8) (sent : Signed) (m : Mem) (len : ℕ) : Prop where
  valid : (validate keys.mac m len).valid = true
  hashed_eq : (validate keys.mac m len).hashed = sent.hashed
  decrypted : ∀ d : Decryption ivSize, d.cipher = keys.aes →
    ∃ m' d', decrypt d (validate keys.mac m len).buf len = .ok (m', d') ∧
      slice m' encryptedPos (len - encryptedPos) = plain

/-- A datagram with at least one block is valid, and its blocks come back. -/
theorem Carries.received (h : Carries keys blocks m) (hpos : 0 < blocks.length) (sent : Signed)
    (hsent : sent.hashed = slice m encryptedPos (ivSize * blocks.length) ++
      (slice m ivPos ivSize ++ writeU16 (UInt16.ofNat (ivSize * blocks.length)))) :
    Received keys (bytesOf blocks) sent m (encryptedPos + ivSize * blocks.length) := by
  have hmin : ¬ encryptedPos + ivSize * blocks.length < headerMin := by
    simp only [encryptedPos, ivSize, headerMin]
    omega
  have hlen : encryptedPos + ivSize * blocks.length - encryptedPos = ivSize * blocks.length :=
    Nat.add_sub_cancel_left _ _
  have hhashed := slice_appendIVAndLength m (ivSize * blocks.length)
  have hkept : ∀ i, i < encryptedPos + ivSize * blocks.length →
      appendIVAndLength m (encryptedPos + ivSize * blocks.length) i = m i :=
    fun i hi => appendIVAndLength_of_lt m hi
  have hcarries := h.congr hkept
  set len := encryptedPos + ivSize * blocks.length with hdef
  have hvalidate : validate keys.mac m len = ⟨appendIVAndLength m len,
      slice (appendIVAndLength m len) encryptedPos (ivSize * blocks.length + bufferMargin),
      (Block.ofMem (appendIVAndLength m len) 0 : Block macSize) = keys.mac
        (slice (appendIVAndLength m len) encryptedPos (ivSize * blocks.length + bufferMargin))⟩ := by
    rw [validate, if_neg hmin, hlen]
  constructor
  · -- the MAC is that of the bytes behind it
    rw [hvalidate, hhashed]
    have hmac : (Block.ofMem (appendIVAndLength m len) 0 : Block macSize) = Block.ofMem m 0 := by
      ext1
      refine slice_congr fun i hi => hkept _ ?_
      simp only [hdef, encryptedPos, macSize] at hi ⊢
      omega
    rw [hmac]
    exact decide_eq_true h.mac_eq
  · rw [hvalidate, hsent]
    exact hhashed
  · intro d hd
    rw [hvalidate, decrypt, if_neg hmin, hlen]
    refine ⟨_, _, rfl, ?_⟩
    -- the decryption starts with the IV of the datagram
    have hsync : InSync ⟨keys.aes, Block.ofMem (appendIVAndLength m len) ivPos⟩
        { d with iv := Block.ofMem (appendIVAndLength m len) ivPos } := ⟨hd, rfl⟩
    have hplain := blocksAt_decryptInPlace
      { d with iv := Block.ofMem (appendIVAndLength m len) ivPos } (appendIVAndLength m len)
      encryptedPos blocks.length
    rw [hcarries.cipher_eq, (hsync.decrypt blocks).1] at hplain
    refine Eq.trans ?_ (congrArg bytesOf hplain)
    exact (bytesOf_blocksAt _ _ _).symm

/-! ## What the senders make -/

/-- Cipher text, IV, length and MAC make a datagram. -/
theorem carries_of_signed {e : Encryption ivSize} {m signed : Mem} {n : ℕ}
    (he : e = ⟨keys.aes, Block.ofMem m ivPos⟩)
    (hsigned : ∀ i, i < encryptedPos + ivSize * n →
      signed i = (encryptInPlace e m encryptedPos (ivSize * n)).1 i) {hashed : List UInt8}
    (hhashed : hashed = slice signed encryptedPos (ivSize * n) ++
      (slice signed ivPos ivSize ++ writeU16 (UInt16.ofNat (ivSize * n)))) :
    Carries keys (blocksAt m encryptedPos n) (store signed 0 (keys.mac hashed).bytes) := by
  have hbehind : ∀ i, macSize ≤ i → store signed 0 (keys.mac hashed).bytes i = signed i :=
    fun i hi => store_of_le _ _ (by rw [Block.length_bytes]; omega)
  have hiv : slice (store signed 0 (keys.mac hashed).bytes) ivPos ivSize = slice signed ivPos ivSize :=
    slice_congr fun i _ => hbehind _ (Nat.le_add_right _ _)
  have hcipher : slice (store signed 0 (keys.mac hashed).bytes) encryptedPos (ivSize * n) =
      slice signed encryptedPos (ivSize * n) := by
    refine slice_congr fun i _ => hbehind _ ?_
    simp only [encryptedPos, macSize]
    omega
  have hblock : (Block.ofMem (store signed 0 (keys.mac hashed).bytes) ivPos : Block ivSize) =
      Block.ofMem m ivPos := by
    ext1
    refine hiv.trans (slice_congr fun i hi => ?_)
    simp only [ivSize] at hi
    rw [hsigned _ (by simp only [ivPos, encryptedPos]; omega)]
    exact encryptInPlace_of_outside e m (.inl (by simp only [ivPos, encryptedPos]; omega))
  constructor
  · rw [length_blocksAt, hblock, ← he, ← blocksAt_encryptInPlace]
    refine blocksAt_congr fun i hlo hhi => ?_
    rw [hbehind i (by simp only [encryptedPos, macSize] at hlo ⊢; omega)]
    exact hsigned i hhi
  · rw [length_blocksAt, hiv, hcipher, ← hhashed]
    ext1
    have hself := slice_store_self signed 0 (keys.mac hashed).bytes
    rwa [Block.length_bytes] at hself

/-- A datagram that has been signed is received, with the bytes that have been encrypted. -/
theorem received_of_signed {e : Encryption ivSize} {m signed : Mem} {n : ℕ}
    (he : e = ⟨keys.aes, Block.ofMem m ivPos⟩) (hn : 0 < n)
    (hsigned : ∀ i, i < encryptedPos + ivSize * n →
      signed i = (encryptInPlace e m encryptedPos (ivSize * n)).1 i) {hashed : List UInt8}
    (hhashed : hashed = slice signed encryptedPos (ivSize * n) ++
      (slice signed ivPos ivSize ++ writeU16 (UInt16.ofNat (ivSize * n))))
    (hsame : slice m' 0 (encryptedPos + ivSize * n) =
      slice (store signed 0 (keys.mac hashed).bytes) 0 (encryptedPos + ivSize * n)) :
    Received keys (slice m encryptedPos (ivSize * n))
      ⟨store signed 0 (keys.mac hashed).bytes, hashed⟩ m' (encryptedPos + ivSize * n) := by
  have hbytes : ∀ i, i < encryptedPos + ivSize * n →
      m' i = store signed 0 (keys.mac hashed).bytes i := by
    intro i hi
    have h := apply_eq_of_slice_eq hsame hi
    rwa [Nat.zero_add] at h
  have hbehind : ∀ i, macSize ≤ i → i < encryptedPos + ivSize * n → m' i = signed i :=
    fun i hi hlt => (hbytes i hlt).trans (store_of_le _ _ (by rw [Block.length_bytes]; omega))
  have hcarries : Carries keys (blocksAt m encryptedPos n) m' :=
    (carries_of_signed he hsigned hhashed).congr (by rwa [length_blocksAt])
  have hreceived := hcarries.received (by rwa [length_blocksAt])
    ⟨store signed 0 (keys.mac hashed).bytes, hashed⟩
  rw [length_blocksAt, bytesOf_blocksAt] at hreceived
  apply hreceived
  refine hhashed.trans (congrArg₂ _ ?_ (congrArg₂ _ ?_ rfl))
  · refine (slice_congr fun i hi => hbehind _ ?_ ?_).symm
    · simp only [encryptedPos, macSize]
      omega
    · omega
  · refine (slice_congr fun i hi => hbehind _ ?_ ?_).symm
    · simp only [ivPos, macSize]
      omega
    · simp only [ivPos, ivSize, encryptedPos] at hi ⊢
      omega

/-- The header as `FillHeaderAndEncrypt` writes it. -/
def withHeader (iv : Block ivSize) (time : UInt32) (payloadType flag : UInt8) (m : Mem) : Mem :=
  store (store (store m ivPos iv.bytes) encryptedPos [flag ||| (payloadType <<< 4)])
    (encryptedPos + 1) (writeU32 time)

/-- The plain text behind the IV: flag, time and payload. -/
theorem slice_withHeader (iv : Block ivSize) (time : UInt32) (payloadType flag : UInt8) (m : Mem)
    (n : ℕ) :
    slice (withHeader iv time payloadType flag m) encryptedPos (5 + n) =
      (flag ||| (payloadType <<< 4)) :: (writeU32 time ++ slice m headerMin n) := by
  have hheader : StandsAt (withHeader iv time payloadType flag m) encryptedPos
      ((flag ||| (payloadType <<< 4)) :: writeU32 time) := by
    refine standsAt_cons.mpr ⟨?_, standsAt_store _ _ _⟩
    have hflag : StandsAt (withHeader iv time payloadType flag m) encryptedPos
        [flag ||| (payloadType <<< 4)] := (standsAt_store _ _ _).store_of_le (by simp)
    exact (standsAt_cons.mp hflag).1
  have hlength : ((flag ||| (payloadType <<< 4)) :: writeU32 time).length = 5 := by
    rw [List.length_cons, length_writeU32]
  rw [StandsAt, hlength] at hheader
  rw [slice_add, hheader, List.cons_append]
  congr 2
  -- the header ends in front of the payload
  refine slice_congr fun i _ => ?_
  refine (store_of_le _ _ ?_).trans ((store_of_le _ _ ?_).trans (store_of_le _ _ ?_))
  · rw [length_writeU32]
    simp only [encryptedPos]
    omega
  · simp only [List.length_singleton, encryptedPos]
    omega
  · rw [Block.length_bytes]
    simp only [ivPos, ivSize, encryptedPos]
    omega

theorem ofMem_withHeader (iv : Block ivSize) (time : UInt32) (payloadType flag : UInt8) (m : Mem) :
    Block.ofMem (withHeader iv time payloadType flag m) ivPos = iv := by
  have hiv : StandsAt (withHeader iv time payloadType flag m) ivPos iv.bytes := by
    apply ((standsAt_store _ _ _).store_of_le _).store_of_le
    · rw [Block.length_bytes]
      decide
    · rw [Block.length_bytes]
      decide
  ext1
  rwa [StandsAt, Block.length_bytes] at hiv

theorem fillAndEncrypt_eq (encryption : Encryption ivSize) (mac : List UInt8 → Block macSize)
    (iv : Block ivSize) (time : UInt32) (payloadType flag : UInt8) (m : Mem) {len : ℕ}
    (hmin : headerMin ≤ len) :
    (fillAndEncrypt encryption mac iv time payloadType m len flag).1 =
      let signed := appendIVAndLength (encryptInPlace { encryption with last := iv }
        (withHeader iv time payloadType flag m) encryptedPos (len - encryptedPos)).1 len
      let hashed := slice signed encryptedPos (len - encryptedPos + bufferMargin)
      ⟨store signed 0 (mac hashed).bytes, hashed⟩ := by
  rw [fillAndEncrypt, if_neg (not_lt.mpr hmin)]
  rfl

/-- A datagram that `FillHeaderAndEncrypt` has made of a buffer of whole blocks is received, with
flag, time and payload. -/
theorem fillAndEncrypt_received {encryption : Encryption ivSize}
    (hkeys : encryption.cipher = keys.aes) (iv : Block ivSize) (time : UInt32)
    (payloadType flag : UInt8) (m : Mem) {len : ℕ} (hmin : 48 ≤ len) (hblocks : len % 16 = 0)
    {m' : Mem} (hsame : slice m' 0 len =
      slice (fillAndEncrypt encryption keys.mac iv time payloadType m len flag).1.buf 0 len) :
    Received keys
      ((flag ||| (payloadType <<< 4)) :: (writeU32 time ++ slice m headerMin (len - headerMin)))
      (fillAndEncrypt encryption keys.mac iv time payloadType m len flag).1 m' len := by
  obtain ⟨n, rfl⟩ : ∃ n, len = encryptedPos + ivSize * n := by
    refine ⟨len / 16 - 2, ?_⟩
    simp only [encryptedPos, ivSize]
    omega
  have hheader : headerMin ≤ encryptedPos + ivSize * n := le_trans (by decide) hmin
  have hn : 0 < n := by
    simp only [encryptedPos, ivSize] at hmin
    omega
  rw [fillAndEncrypt_eq _ _ _ _ _ _ _ hheader] at hsame ⊢
  rw [Nat.add_sub_cancel_left] at hsame ⊢
  set start := withHeader iv time payloadType flag m with hstart
  set encrypted := (encryptInPlace { encryption with last := iv } start encryptedPos (ivSize * n)).1
    with hencrypted
  set signed := appendIVAndLength encrypted (encryptedPos + ivSize * n) with hsigned
  have hkept : ∀ i, i < encryptedPos + ivSize * n → signed i = encrypted i :=
    fun i hi => appendIVAndLength_of_lt encrypted hi
  have hhashed : slice signed encryptedPos (ivSize * n + bufferMargin) =
      slice signed encryptedPos (ivSize * n) ++
        (slice signed ivPos ivSize ++ writeU16 (UInt16.ofNat (ivSize * n))) := by
    rw [hsigned, slice_appendIVAndLength, ← hsigned]
    congr 1
    · exact (slice_congr fun i hi => hkept _ (by omega)).symm
    · congr 1
      refine (slice_congr fun i hi => hkept _ ?_).symm
      simp only [ivPos, ivSize, encryptedPos] at hi ⊢
      omega
  have hcipher : ({ encryption with last := iv } : Encryption ivSize) =
      ⟨keys.aes, Block.ofMem start ivPos⟩ := by
    rw [hstart, ofMem_withHeader, ← hkeys]
  have hreceived := received_of_signed hcipher hn hkept hhashed hsame
  have hplain : slice start encryptedPos (ivSize * n) = (flag ||| (payloadType <<< 4)) ::
      (writeU32 time ++ slice m headerMin (encryptedPos + ivSize * n - headerMin)) := by
    rw [← slice_withHeader, ← hstart]
    congr 1
    simp only [encryptedPos, headerMin] at hheader ⊢
    omega
  rwa [hplain] at hreceived

/-! ## The builder -/

theorem appends_writeIPAddress (address : IPAddress) : Appends (writeIPAddress address) :=
  (appends_writeData _).bind fun _ => appends_writeData _

/-- The packet is written behind the header. -/
theorem appends_writePacket (randBytes : (n : ℕ) → Block n) (header : SSUHeader)
    (payload : SSUPayload) : Appends (writePacket randBytes header payload) := by
  cases payload with
  | sessionRequest packet => exact (appends_writeData _).bind fun _ => appends_writeIPAddress _
  | sessionCreated packet =>
    refine (appends_writeData _).bind fun _ => (appends_writeIPAddress _).bind fun _ => ?_
    refine (appends_writeData _).bind fun _ => (appends_writeData _).bind fun _ => ?_
    exact (appends_writeData _).bind fun _ => appends_writeData _
  | sessionConfirmed packet =>
    have hidentity : Appends (writeIdentityAndTime packet) := by
      refine (appends_writeData _).bind fun _ => (appends_writeData _).bind fun _ => ?_
      exact (appends_skipAndFill _ _).bind fun _ => appends_writeData _
    refine appends_get.bind fun _ => hidentity.bind fun _ => appends_get.bind fun _ => ?_
    exact (appends_skipAndFill _ _).bind fun _ => appends_writeData _
  | _ => exact appends_pure ()

theorem written_writeMAC {mac : Option (Block macSize)} {s s' : OutputByteStream}
    (h : writeMAC mac s = .ok ((), s')) : s'.written = s.written ++ (mac.getD zeroMAC).bytes := by
  cases mac with
  | none => exact written_writeData h
  | some mac => exact written_writeData h

theorem written_writeExtendedOptions {header : SSUHeader} {s s' : OutputByteStream}
    (h : writeExtendedOptions header s = .ok ((), s')) :
    s'.written = s.written ++ header.optionBytes := by
  rw [writeExtendedOptions] at h
  rw [SSUHeader.optionBytes]
  split at h
  next hextended =>
    obtain ⟨_, s₁, hsize, hoptions⟩ := bind_eq_ok_iff.mp h
    rw [if_pos hextended, written_writeData hoptions, written_writeData hsize, List.append_assoc]
    rfl
  next hplain =>
    cases h
    rw [if_neg hplain, List.append_nil]

/-- The bytes of the header, when it has been written. -/
theorem written_writeHeader {header : SSUHeader} {s s' : OutputByteStream}
    (h : writeHeader header s = .ok ((), s')) : s'.written = s.written ++ header.bytes := by
  obtain ⟨_, s₁, hmac, h⟩ := bind_eq_ok_iff.mp h
  obtain ⟨_, s₂, hiv, h⟩ := bind_eq_ok_iff.mp h
  obtain ⟨_, s₃, hflag, h⟩ := bind_eq_ok_iff.mp h
  obtain ⟨_, s₄, htime, hoptions⟩ := bind_eq_ok_iff.mp h
  rw [written_writeExtendedOptions hoptions, written_writeData htime, written_writeData hflag,
    written_writeData hiv, written_writeMAC hmac, SSUHeader.bytes]
  simp only [List.append_assoc]

/-- What stands in front of the body: the place of the MAC, the IV, flag and time. -/
theorem written_writePacket {randBytes : (n : ℕ) → Block n} {header : SSUHeader}
    {payload : SSUPayload} {len : ℕ} {builder : OutputByteStream}
    (h : (do writeHeader header; writePacket randBytes header payload : Writer Unit)
      (.ofLength len) = .ok ((), builder)) :
    ∃ body, builder.written = (header.mac.getD zeroMAC).bytes ++ (header.iv.bytes ++
      (header.flag :: (writeU32 header.time ++ body))) := by
  obtain ⟨_, s₁, hheader, hpacket⟩ := bind_eq_ok_iff.mp h
  obtain ⟨body, hbody⟩ := appends_writePacket randBytes header payload s₁ () builder hpacket
  have hstart := written_writeHeader hheader
  refine ⟨header.optionBytes ++ body, ?_⟩
  rw [← hbody, hstart, OutputByteStream.ofLength, SSUHeader.bytes]
  simp only [List.nil_append, List.append_assoc, List.cons_append]

/-- What the builder has written, with the padding. -/
def padded (padding : (n : ℕ) → Block n) (written : List UInt8) : List UInt8 :=
  written ++ (padding (getPaddingSize (written.length - encryptedPos))).bytes

/-- What `WriteAndEncrypt` does when it does not throw. -/
theorem writeAndEncrypt_eq_ok {randBytes padding : (n : ℕ) → Block n} {time : UInt32}
    {header : SSUHeader} {payload : SSUPayload} {m : Mem} {bufferSize : ℕ} {sent : Signed}
    {encryptedLen : ℕ} (h : writeAndEncrypt keys randBytes padding time header payload m
      bufferSize = .ok (sent, encryptedLen)) :
    ∃ builder : OutputByteStream,
      (do writeHeader { header with time }
          writePacket randBytes { header with time } payload : Writer Unit)
        (.ofLength bufferSize) = .ok ((), builder) ∧
      encryptedLen = getPaddedSize (builder.written.length - encryptedPos) ∧
      sent =
        let encrypted := (encryptInPlace ⟨keys.aes, header.iv⟩
          (store m 0 (padded padding builder.written)) encryptedPos encryptedLen).1
        let signed := store encrypted (encryptedPos + encryptedLen)
          (header.iv.bytes ++ writeU16 (UInt16.ofNat encryptedLen))
        let hashed := slice signed encryptedPos (encryptedLen + bufferMargin)
        ⟨store signed 0 (keys.mac hashed).bytes, hashed⟩ := by
  rw [writeAndEncrypt] at h
  obtain ⟨⟨_, builder⟩, hbuilder, h⟩ := except_bind_eq_ok_iff.mp h
  obtain ⟨⟨_, builder'⟩, hpadding, h⟩ := except_bind_eq_ok_iff.mp h
  obtain ⟨⟨_, stream⟩, hstream, h⟩ := except_bind_eq_ok_iff.mp h
  refine ⟨builder, hbuilder, ?_⟩
  have hwritten : builder'.written = padded padding builder.written := by
    rw [padded]
    split at hpadding
    · exact written_writeData hpadding
    next hnone =>
      cases hpadding
      have hnil : (padding (getPaddingSize (builder.written.length - encryptedPos))).bytes = [] := by
        rw [← List.length_eq_zero_iff, Block.length_bytes]
        exact not_not.mp hnone
      rw [hnil, List.append_nil]
  have hbehind : stream.written = header.iv.bytes ++ writeU16 (UInt16.ofNat
      (getPaddedSize (builder.written.length - encryptedPos))) := by
    obtain ⟨_, s₁, hiv, hlen⟩ := bind_eq_ok_iff.mp hstream
    rw [written_writeData hlen, written_writeData hiv]
    rfl
  cases h
  refine ⟨rfl, ?_⟩
  rw [hwritten, hbehind]
  rfl

/-- A buffer is signed as the IV and the length are written behind the cipher text. -/
theorem slice_signed {e : Encryption ivSize} {start : Mem} {iv : Block ivSize} {n : ℕ}
    (hiv : Block.ofMem start ivPos = iv) {signed : Mem} (hsigned : signed =
      store (encryptInPlace e start encryptedPos (ivSize * n)).1 (encryptedPos + ivSize * n)
        (iv.bytes ++ writeU16 (UInt16.ofNat (ivSize * n)))) :
    slice signed encryptedPos (ivSize * n + bufferMargin) = slice signed encryptedPos (ivSize * n) ++
      (slice signed ivPos ivSize ++ writeU16 (UInt16.ofNat (ivSize * n))) := by
  have hfront : slice signed ivPos ivSize = iv.bytes := by
    subst hsigned hiv
    refine slice_congr fun i hi => ?_
    simp only [ivSize] at hi
    refine (store_of_lt _ _ (by simp only [ivPos, encryptedPos]; omega)).trans ?_
    exact encryptInPlace_of_outside e start (.inl (by simp only [ivPos, encryptedPos]; omega))
  rw [slice_add, hfront]
  congr 1
  have hstands := standsAt_store (encryptInPlace e start encryptedPos (ivSize * n)).1
    (encryptedPos + ivSize * n) (iv.bytes ++ writeU16 (UInt16.ofNat (ivSize * n)))
  rw [StandsAt, List.length_append, Block.length_bytes, length_writeU16, ← hsigned] at hstands
  exact hstands

/-- A datagram that `WriteAndEncrypt` has made is received, with what stands behind the IV. -/
theorem writeAndEncrypt_received {randBytes padding : (n : ℕ) → Block n} {time : UInt32}
    {header : SSUHeader} {payload : SSUPayload} {m : Mem} {bufferSize : ℕ} {sent : Signed}
    {encryptedLen : ℕ} (hsent : writeAndEncrypt keys randBytes padding time header payload m
      bufferSize = .ok (sent, encryptedLen))
    (hsame : slice m' 0 (encryptedPos + encryptedLen) =
      slice sent.buf 0 (encryptedPos + encryptedLen)) :
    ∃ (builder : OutputByteStream) (body : List UInt8),
      (do writeHeader { header with time }
          writePacket randBytes { header with time } payload : Writer Unit)
        (.ofLength bufferSize) = .ok ((), builder) ∧
      (padded padding builder.written).drop encryptedPos =
        header.flag :: (writeU32 time ++ body) ∧
      Received keys (header.flag :: (writeU32 time ++ body)) sent m'
        (encryptedPos + encryptedLen) := by
  obtain ⟨builder, hbuilder, hlen, rfl⟩ := writeAndEncrypt_eq_ok hsent
  obtain ⟨body, hwritten⟩ := written_writePacket hbuilder
  set pad := (padding (getPaddingSize (builder.written.length - encryptedPos))).bytes with hpad
  have hpadded : padded padding builder.written = ((header.mac.getD zeroMAC).bytes ++
      header.iv.bytes) ++ (header.flag :: (writeU32 time ++ (body ++ pad))) := by
    rw [padded, ← hpad, hwritten]
    simp only [List.append_assoc, List.cons_append]
    rfl
  have hfront : ((header.mac.getD zeroMAC).bytes ++ header.iv.bytes).length = encryptedPos := by
    rw [List.length_append, Block.length_bytes, Block.length_bytes]
    rfl
  set plain := header.flag :: (writeU32 time ++ (body ++ pad)) with hplain
  have hdrop : (padded padding builder.written).drop encryptedPos = plain := by
    rw [hpadded, List.drop_left' hfront]
  refine ⟨builder, body ++ pad, hbuilder, hdrop, ?_⟩
  -- the padding fills the last block
  have hlength : plain.length = encryptedLen := by
    rw [← hdrop, hlen, List.length_drop, padded, List.length_append, Block.length_bytes, getPaddedSize]
    have hmin : encryptedPos ≤ builder.written.length := by
      rw [hwritten]
      simp only [List.length_append, Block.length_bytes, encryptedPos, macSize, ivSize]
      omega
    omega
  obtain ⟨n, rfl⟩ : ∃ n, encryptedLen = ivSize * n := by
    refine ⟨encryptedLen / 16, (Nat.mul_div_cancel' ?_).symm⟩
    rw [hlen]
    exact Nat.dvd_of_mod_eq_zero (getPaddedSize_mod _)
  have hn : 0 < n := by
    rw [hplain, List.length_cons] at hlength
    rcases Nat.eq_zero_or_pos n with rfl | hn
    · cases hlength
    · exact hn
  have hstart := standsAt_store m 0 (padded padding builder.written)
  rw [hpadded, standsAt_append, hfront, ← hpadded, Nat.zero_add, standsAt_append,
    Block.length_bytes, Nat.zero_add] at hstart
  obtain ⟨⟨-, hiv⟩, hbehind⟩ := hstart
  rw [StandsAt, Block.length_bytes] at hiv
  rw [StandsAt, hlength] at hbehind
  have hblock : Block.ofMem (store m 0 (padded padding builder.written)) ivPos = header.iv :=
    Block.ext hiv
  have hreceived : Received keys _ _ m' _ := received_of_signed (by rw [hblock]) hn
    (fun i hi => store_of_lt _ _ hi) (slice_signed hblock rfl) hsame
  rwa [hbehind] at hreceived

/-! ## The two ends -/

/-- A datagram of a sender, with its length and the plain text behind the IV. -/
inductive Sent (keys : Keys) : Signed → ℕ → List UInt8 → Prop
  | fillHeaderAndEncrypt (iv : Block ivSize) (time : UInt32) (payloadType flag : UInt8) (m : Mem)
      (len : ℕ) (hmin : 48 ≤ len) (hblocks : len % 16 = 0) :
      Sent keys (fillHeaderAndEncrypt keys iv time payloadType m len flag) len
        ((flag ||| (payloadType <<< 4)) :: (writeU32 time ++ slice m headerMin (len - headerMin)))
  | fillHeaderAndEncryptSession (sessionKeyEncryption : Encryption ivSize)
      (hkeys : sessionKeyEncryption.cipher = keys.aes) (iv : Block ivSize) (time : UInt32)
      (payloadType : UInt8) (m : Mem) (len : ℕ) (hmin : 48 ≤ len) (hblocks : len % 16 = 0) :
      Sent keys
        (fillHeaderAndEncryptSession sessionKeyEncryption keys.mac iv time payloadType m len).1 len
        ((payloadType <<< 4) :: (writeU32 time ++ slice m headerMin (len - headerMin)))
  | writeAndEncrypt (randBytes padding : (n : ℕ) → Block n) (time : UInt32) (header : SSUHeader)
      (payload : SSUPayload) (m : Mem) (bufferSize : ℕ) (sent : Signed) (encryptedLen : ℕ)
      (hsent : writeAndEncrypt keys randBytes padding time header payload m bufferSize =
        .ok (sent, encryptedLen))
      (builder : OutputByteStream)
      (hbuilder : (do writeHeader { header with time }
                      writePacket randBytes { header with time } payload : Writer Unit)
        (.ofLength bufferSize) = .ok ((), builder)) :
      Sent keys sent (encryptedPos + encryptedLen)
        ((padded padding builder.written).drop encryptedPos)

/-- A datagram of any sender is valid when it arrives, the same bytes are hashed for it, and `Decrypt`
restores what stood behind the IV. -/
theorem sent_received {sent : Signed} {len : ℕ} {plain : List UInt8} (h : Sent keys sent len plain)
    (hsame : slice m' 0 len = slice sent.buf 0 len) : Received keys plain sent m' len := by
  cases h with
  | fillHeaderAndEncrypt iv time payloadType flag m len hmin hblocks =>
    exact fillAndEncrypt_received rfl iv time payloadType flag m hmin hblocks hsame
  | fillHeaderAndEncryptSession encryption hkeys iv time payloadType m len hmin hblocks =>
    have h := fillAndEncrypt_received hkeys iv time payloadType 0 m hmin hblocks hsame
    rwa [UInt8.zero_or] at h
  | writeAndEncrypt randBytes padding time header payload m bufferSize sent encryptedLen hsent
      builder hbuilder =>
    obtain ⟨builder', body, hbuilder', hdrop, hreceived⟩ := writeAndEncrypt_received hsent hsame
    obtain ⟨-, rfl⟩ := Prod.mk.inj (Except.ok.inj (hbuilder.symm.trans hbuilder'))
    rwa [hdrop]

/-- A cipher and a MAC that do nothing. -/
def plainKeys : Keys where
  aes := ⟨id, id, fun _ => rfl⟩
  mac _ := .const 0

/-- A datagram of 48 bytes. -/
theorem sent_received_oneBlock :
    Received plainKeys (0x70 :: (writeU32 1000 ++ slice (fun _ => 0) headerMin (48 - headerMin)))
      (fillHeaderAndEncrypt plainKeys (.const 1) 1000 7 (fun _ => 0) 48 0)
      (fillHeaderAndEncrypt plainKeys (.const 1) 1000 7 (fun _ => 0) 48 0).buf 48 :=
  sent_received (.fillHeaderAndEncrypt (.const 1) 1000 7 0 (fun _ => 0) 48 (by decide) (by decide)) rfl

end SSU.Envelope
