import Xi2p.PrivateKeys

/-!
# Identities as bytes

`IdentityEx::ToBuffer` with the memory it writes to, the copies of an `IdentityEx`, and what
`IdentityEx::FromBuffer` and `PrivateKeys::FromBuffer` of `core/router/identity.cc` leave behind
when the buffer is too short.

* `IdentityEx.fromBuffer_encodes`: an accepted identity and its copies are written as the bytes that
  were read, and a created identity is read back.
* `rejects_iff`: a rejected identity is left as it was only if the buffer is shorter than a standard
  identity, or if the standard identity, and no more, was there before. Private keys are never
  rejected.
-/

namespace Identity

open Bytes I2NP CBC

namespace IdentityEx

variable {c : Crypto} {id : IdentityEx} {m : Mem} {pos len : ℕ}

/-! ## Writing and copying -/

/-- `ToBuffer`, to the `buflen` bytes at address `pos`: the memory, and the length unless it throws. -/
def toBufferAt (id : IdentityEx) (m : Mem) (pos buflen : ℕ) : Mem × Option ℕ :=
  if buflen < defaultIdentitySize then (m, none)
  else
    let m := store m pos id.standardIdentity
    match id.extendedBuffer with
    | none => (m, some id.getFullLen)
    | some ext =>
      if 0 < id.extendedLen then
        -- the standard part has been written when this throws
        if buflen < defaultIdentitySize + id.extendedLen then (m, none)
        else (store m (pos + defaultIdentitySize) (ext.take id.extendedLen), some id.getFullLen)
      else (m, some id.getFullLen)

/-- `operator=(const IdentityEx& other)`, where `none` is the object itself: the identity, and whether
the function returns. -/
def operatorAssign (id : IdentityEx) : Option IdentityEx → IdentityEx × Bool
  | none => (id, true)
  | some other =>
    let id := { id with
      standardIdentity := other.standardIdentity
      identHash := other.identHash
      extendedLen := other.extendedLen
      extendedBuffer := none }
    if other.extendedLen ≠ 0 then
      match other.extendedBuffer with
      -- it throws behind the allocation
      | none => ({ id with extendedBuffer := some (List.replicate other.extendedLen 0) }, false)
      | some ext =>
        ({ id with extendedBuffer := some (ext.take other.extendedLen), verifier := none }, true)
    else ({ id with verifier := none }, true)

/-- `IdentityEx(const IdentityEx& other)`, from the members in memory. -/
def copyOf (memory other : IdentityEx) : IdentityEx × Bool :=
  operatorAssign { memory with verifier := none, extendedBuffer := none } (some other)

/-- The length of the public key behind `signing_key`, of which the constructor reads all. -/
def signingKeyLen (t : SigningKeyType) : ℕ :=
  match signatureLenOf t with
  | some n => publicKeyLenOf t n
  | none => 0

/-! ## Well formed identities -/

theorem wellFormed_withVerifier (h : id.WellFormed c) : id.withVerifier.WellFormed c := by
  rw [IdentityEx.withVerifier]
  split
  · exact h
  · exact { h with verifier_eq := .inr rfl }

/-- An accepted identity is well formed, has no verifier yet, and is written as it was read. -/
theorem fromBuffer_of_pos (h : 0 < (fromBuffer c id m pos len).2) :
    (fromBuffer c id m pos len).1.WellFormed c ∧ (fromBuffer c id m pos len).1.verifier = none ∧
      (fromBuffer c id m pos len).1.toBuffer = slice m pos (fromBuffer c id m pos len).2 := by
  have hlen : ¬ len < defaultIdentitySize := fun hlt => by
    rw [fromBuffer, if_pos hlt] at h
    exact absurd h (Nat.lt_irrefl 0)
  have hcertificate : (slice m pos defaultIdentitySize).drop 385 = slice m (pos + 385) 2 := by
    rw [show defaultIdentitySize = 385 + 2 from rfl, slice_add, List.drop_left' (length_slice _ _ _)]
  rw [fromBuffer, if_neg hlen] at h ⊢
  dsimp only at h ⊢
  by_cases hzero : readBE (slice m (pos + 385) 2) = 0
  · rw [if_pos hzero] at h ⊢
    refine ⟨⟨length_slice _ _ _, ?_, fun _ => rfl, fun hne => absurd rfl hne, ?_, .inl rfl⟩, rfl, ?_⟩
    · show 0 = readBE ((slice m pos defaultIdentitySize).drop 385)
      rw [hcertificate, hzero]
    · show c.sha256 (slice m pos (0 + defaultIdentitySize)) = c.sha256 (_ ++ [])
      rw [List.append_nil, Nat.zero_add]
    · show slice m pos defaultIdentitySize ++ [] = slice m pos (0 + defaultIdentitySize)
      rw [List.append_nil, Nat.zero_add]
  · rw [if_neg hzero] at h ⊢
    by_cases hroom : readBE (slice m (pos + 385) 2) + defaultIdentitySize ≤ len
    · rw [if_pos hroom] at h ⊢
      generalize hext : readBE (slice m (pos + 385) 2) = n at h hzero hroom ⊢
      have hwhole : slice m pos defaultIdentitySize ++ slice m (pos + defaultIdentitySize) n =
          slice m pos (n + defaultIdentitySize) := by
        rw [Nat.add_comm n, slice_add]
      have hpos : 0 < n := Nat.pos_of_ne_zero hzero
      refine ⟨⟨length_slice _ _ _, ?_, fun hn => absurd hn hzero,
        fun _ => ⟨_, rfl, length_slice _ _ _⟩, ?_, .inl rfl⟩, rfl, ?_⟩
      · show n = readBE ((slice m pos defaultIdentitySize).drop 385)
        rw [hcertificate, hext]
      · simp only [toBuffer, getFullLen, if_pos hpos, Option.getD_some, hwhole]
      · simp only [toBuffer, getFullLen, if_pos hpos, Option.getD_some, hwhole]
    · rw [if_neg hroom] at h
      exact absurd h (Nat.lt_irrefl 0)

theorem WellFormed.toBufferAt_eq (h : id.WellFormed c) (m : Mem) (pos : ℕ) {buflen : ℕ}
    (hlen : id.getFullLen ≤ buflen) :
    id.toBufferAt m pos buflen = (store m pos id.toBuffer, some id.getFullLen) := by
  have hfull : id.getFullLen = id.extendedLen + defaultIdentitySize := rfl
  rw [toBufferAt, if_neg (by omega)]
  dsimp only
  by_cases hzero : id.extendedLen = 0
  · rw [h.extendedBuffer_eq_none hzero, toBuffer, if_neg (by omega), List.append_nil]
  · obtain ⟨ext, hext, hlength⟩ := h.extendedBuffer_eq_some hzero
    have hpos : 0 < id.extendedLen := Nat.pos_of_ne_zero hzero
    rw [hext, toBuffer, if_pos hpos]
    dsimp only
    rw [if_pos hpos, if_neg (by omega), hext, ← h.length_standardIdentity, store_store,
      List.take_of_length_le hlength.le]
    rfl

/-- A copy of a well formed identity, which has no verifier yet. -/
theorem WellFormed.operatorAssign_eq (h : id.WellFormed c) (target : IdentityEx) :
    target.operatorAssign (some id) = (id.fresh, true) := by
  rw [operatorAssign]
  dsimp only
  by_cases hzero : id.extendedLen = 0
  · rw [if_neg (not_not.mpr hzero)]
    simp only [fresh, h.extendedBuffer_eq_none hzero]
  · obtain ⟨ext, hext, hlength⟩ := h.extendedBuffer_eq_some hzero
    rw [if_pos hzero, hext]
    simp only [fresh, hext, List.take_of_length_le hlength.le]

/-- Every created identity is well formed, also for a key type that is not supported. -/
theorem wellFormed_create (publicKey : Block 256) (random : Block 128) {key : List UInt8}
    {t : SigningKeyType} (hkey : key.length = signingKeyLen t) :
    (create c publicKey key t random).WellFormed c := by
  by_cases ht : t = 0
  · -- the certificate of a key of type DSA is null
    subst ht
    have hlength : key.length = 128 := hkey
    obtain ⟨hstandard, hdrop, -, -⟩ := standardIdentity_parts
      { standardIdentity := publicKey.bytes ++ key.take 128 ++ 0 :: [0, 0] }
      (by rw [List.length_take, hlength]; rfl) (by rfl) rfl
    rw [create, if_neg (not_not.mpr rfl)]
    refine wellFormed_withVerifier ⟨hstandard, ?_, fun _ => rfl, fun hne => absurd rfl hne, ?_,
      .inl rfl⟩
    · exact (congrArg readBE hdrop).symm
    · exact congrArg c.sha256 (List.append_nil _).symm
  · rcases hn : signatureLenOf t with _ | n
    · rw [create, if_pos ht, hn]
      dsimp only
      set id : IdentityEx :=
        { standardIdentity := publicKey.bytes ++ random.bytes ++
            certificateTypeKey :: writeBE 2 (4 + ([] : List UInt8).length)
          extendedLen := 4 + ([] : List UInt8).length
          extendedBuffer := some (writeU16 t ++ writeU16 0 ++ []) }
      obtain ⟨hlength, hdrop, -, -⟩ := standardIdentity_parts id random.length_bytes
        (length_writeBE 2 _) rfl
      refine wellFormed_withVerifier ⟨hlength, ?_, fun hzero => ?_, fun _ => ⟨_, rfl, ?_⟩, rfl,
        .inl rfl⟩
      · exact (congrArg readBE hdrop).symm
      · exact absurd (show 4 = 0 from hzero) (by decide)
      · rw [List.append_nil, List.length_append, length_writeU16, length_writeU16]
        rfl
    · rw [signingKeyLen, hn] at hkey
      exact (isFor_create publicKey random ht hn hkey (PrivateKeys.publicKeyLenOf_le hn)).wellFormed

/-! ## Round trips -/

/-- The identity is written as these bytes, wherever there is room for them, and its hash is theirs. -/
structure Encodes (c : Crypto) (id : IdentityEx) (bytes : List UInt8) : Prop where
  getFullLen_eq : id.getFullLen = bytes.length
  toBufferAt_eq : ∀ (m : Mem) (pos buflen : ℕ), bytes.length ≤ buflen →
    id.toBufferAt m pos buflen = (store m pos bytes, some bytes.length)
  identHash_eq : id.identHash = c.sha256 bytes

theorem WellFormed.encodes (h : id.WellFormed c) : id.Encodes c id.toBuffer where
  getFullLen_eq := h.length_toBuffer.symm
  toBufferAt_eq m pos buflen hlen := by
    rw [h.length_toBuffer] at hlen ⊢
    exact h.toBufferAt_eq m pos hlen
  identHash_eq := h.identHash_eq

/-- The identity, everything it is assigned to and its copies are written as these bytes. -/
def EncodesAll (c : Crypto) (id : IdentityEx) (bytes : List UInt8) : Prop :=
  id.Encodes c bytes ∧ id.operatorAssign none = (id, true) ∧
    ∀ target : IdentityEx, ∃ copy, copy.Encodes c bytes ∧
      target.operatorAssign (some id) = (copy, true) ∧ copyOf target id = (copy, true)

theorem WellFormed.encodesAll (h : id.WellFormed c) : id.EncodesAll c id.toBuffer := by
  refine ⟨h.encodes, rfl, fun target => ⟨id.fresh, ?_, h.operatorAssign_eq target, ?_⟩⟩
  · have hfresh : id.fresh.WellFormed c := { h with verifier_eq := .inl rfl }
    exact hfresh.encodes
  · exact h.operatorAssign_eq _

/-- The identity that is read back from where it was written: it is the same one, but its verifier has
not been created again. -/
theorem WellFormed.fromBuffer_toBufferAt (h : id.WellFormed c) (id₀ : IdentityEx) (m : Mem)
    (pos : ℕ) {buflen len : ℕ} (hbuflen : id.getFullLen ≤ buflen) (hlen : id.getFullLen ≤ len) :
    fromBuffer c id₀ (id.toBufferAt m pos buflen).1 pos len = (id.fresh, id.getFullLen) := by
  rw [h.toBufferAt_eq m pos hbuflen]
  exact h.fromBuffer_eq id₀ hlen (standsAt_store m pos _)

theorem withVerifier_fresh_withVerifier (id : IdentityEx) (h : id.verifier = none) :
    id.withVerifier.fresh.withVerifier = id.withVerifier := by
  have hwith : id.withVerifier = { id with verifier := id.createVerifier } := by
    rw [IdentityEx.withVerifier, h]
  rw [hwith]
  rfl

theorem exists_withVerifier_create (c : Crypto) (publicKey : Block 256) (key : List UInt8)
    (t : SigningKeyType) (random : Block 128) :
    ∃ id : IdentityEx, id.verifier = none ∧ create c publicKey key t random = id.withVerifier := by
  rw [create]
  split
  · exact ⟨_, rfl, rfl⟩
  · exact ⟨_, rfl, rfl⟩

/-- Whatever is accepted is written as it was read, by the identity and by its copies, and its hash is
that of the bytes; and every identity that is created, from keys in memory, is read back from where it
was written. -/
theorem fromBuffer_encodes (c : Crypto) :
    (∀ (id : IdentityEx) (m : Mem) (pos len n : ℕ), 0 < n → (fromBuffer c id m pos len).2 = n →
      (fromBuffer c id m pos len).1.EncodesAll c (slice m pos n)) ∧
    ∀ (publicKey : Block 256) (keys : Mem) (keyPos : ℕ) (t : SigningKeyType) (random : Block 128)
      (id : IdentityEx) (m : Mem) (pos buflen : ℕ),
      let created := create c publicKey (slice keys keyPos (signingKeyLen t)) t random
      created.getFullLen ≤ buflen →
        (created.toBufferAt m pos buflen).2 = some created.getFullLen ∧
          fromBuffer c id (created.toBufferAt m pos buflen).1 pos created.getFullLen =
            (created.fresh, created.getFullLen) ∧
          created.fresh.withVerifier = created := by
  constructor
  · rintro id m pos len n hn rfl
    obtain ⟨hwell, -, hbytes⟩ := fromBuffer_of_pos hn
    rw [← hbytes]
    exact hwell.encodesAll
  · intro publicKey keys keyPos t random id m pos buflen created hbuflen
    have hwell : created.WellFormed c := wellFormed_create publicKey random (length_slice _ _ _)
    refine ⟨?_, hwell.fromBuffer_toBufferAt id m pos hbuflen le_rfl, ?_⟩
    · rw [hwell.toBufferAt_eq m pos hbuflen]
    · obtain ⟨made, hnone, hmade⟩ := exists_withVerifier_create c publicKey
        (slice keys keyPos (signingKeyLen t)) t random
      show (create _ _ _ _ _).fresh.withVerifier = create _ _ _ _ _
      rw [hmade]
      exact withVerifier_fresh_withVerifier made hnone

/-- Memory that holds an identity with a certificate of five bytes, at address `1`. -/
def exampleIdentityMem : Mem := store (fun _ => 9) 385 [5, 0, 5, 0, 7, 0, 0, 8]

theorem fromBuffer_encodes_exampleIdentity :
    ((fromBuffer exampleCrypto {} exampleIdentityMem 1 400).1.EncodesAll exampleCrypto
      (slice exampleIdentityMem 1 392)) :=
  (fromBuffer_encodes exampleCrypto).1 {} exampleIdentityMem 1 400 392 (by decide)
    (by rw [fromBuffer_snd]; decide)

/-! ## Rejected buffers -/

/-- Nothing but the verifier has changed. -/
structure Unchanged (before after : IdentityEx) : Prop where
  standardIdentity : after.standardIdentity = before.standardIdentity
  extendedBuffer : after.extendedBuffer = before.extendedBuffer
  extendedLen : after.extendedLen = before.extendedLen
  identHash : after.identHash = before.identHash

/-- The standard identity of the buffer is already there, without the extension that it announces. -/
structure Overwritten (id : IdentityEx) (m : Mem) (pos : ℕ) : Prop where
  standardIdentity : id.standardIdentity = slice m pos defaultIdentitySize
  extendedBuffer : id.extendedBuffer = none
  extendedLen : id.extendedLen = readBE (slice m (pos + 385) 2)

/-- What a rejected buffer leaves behind: the standard part and the announced length, but no
extension. -/
theorem fromBuffer_of_lenIn_eq_zero (h : lenIn m pos len = 0) (hlen : defaultIdentitySize ≤ len) :
    (fromBuffer c id m pos len).1 =
      { id with
        standardIdentity := slice m pos defaultIdentitySize
        extendedLen := readBE (slice m (pos + 385) 2)
        extendedBuffer := none } := by
  have hshort : ¬ readBE (slice m (pos + 385) 2) + defaultIdentitySize ≤ len := by
    intro hroom
    rw [lenIn, if_neg (not_lt.mpr hlen), if_pos hroom] at h
    exact absurd h (Nat.succ_ne_zero _)
  have hne : readBE (slice m (pos + 385) 2) ≠ 0 := fun hzero => hshort (by rw [hzero]; omega)
  rw [fromBuffer, if_neg (not_lt.mpr hlen)]
  dsimp only
  rw [if_neg hne, if_neg hshort]

/-- A rejected buffer leaves the identity as it was iff it is shorter than a standard identity, or has
been read before. -/
theorem unchanged_iff (h : (fromBuffer c id m pos len).2 = 0) :
    Unchanged id (fromBuffer c id m pos len).1 ↔
      len < defaultIdentitySize ∨ id.Overwritten m pos := by
  by_cases hlen : len < defaultIdentitySize
  · have hsame : (fromBuffer c id m pos len).1 = id := by rw [fromBuffer, if_pos hlen]
    rw [hsame]
    exact iff_of_true ⟨rfl, rfl, rfl, rfl⟩ (.inl hlen)
  · rw [fromBuffer_snd] at h
    rw [fromBuffer_of_lenIn_eq_zero h (not_lt.mp hlen)]
    constructor
    · rintro ⟨hstandard, hbuffer, hext, -⟩
      exact .inr ⟨hstandard.symm, hbuffer.symm, hext.symm⟩
    · intro h
      have hover := h.resolve_left hlen
      exact ⟨hover.standardIdentity.symm, hover.extendedBuffer.symm, hover.extendedLen.symm, rfl⟩

/-- `FromBuffer`, with the addresses that it reads. -/
def readBuffer (c : Crypto) (id : IdentityEx) (m : Mem) (pos len : ℕ) : Traced (IdentityEx × ℕ) := do
  if len < defaultIdentitySize then return (id, 0)
  let standardIdentity ← Traced.read m pos defaultIdentitySize
  let id := { id with
    extendedLen := 0
    extendedBuffer := none
    standardIdentity }
  let certificateLen := readBE (standardIdentity.drop 385)
  if certificateLen = 0 then
    let digested ← Traced.read m pos id.getFullLen
    return ({ id with identHash := c.sha256 digested, verifier := none }, id.getFullLen)
  let id := { id with extendedLen := certificateLen }
  if certificateLen + defaultIdentitySize ≤ len then
    let extension ← Traced.read m (pos + defaultIdentitySize) certificateLen
    let digested ← Traced.read m pos id.getFullLen
    return ({ id with
      extendedBuffer := some extension
      identHash := c.sha256 digested
      verifier := none }, id.getFullLen)
  return (id, 0)

theorem certificateLen_slice (m : Mem) (pos : ℕ) :
    readBE ((slice m pos defaultIdentitySize).drop 385) = readBE (slice m (pos + 385) 2) := by
  rw [show defaultIdentitySize = 385 + 2 from rfl, slice_add, List.drop_left' (length_slice _ _ _)]

theorem val_readBuffer (c : Crypto) (id : IdentityEx) (m : Mem) (pos len : ℕ) :
    (readBuffer c id m pos len).val = fromBuffer c id m pos len := by
  by_cases hlen : len < defaultIdentitySize
  · rw [readBuffer, fromBuffer, if_pos hlen, if_pos hlen]
    rfl
  · rw [readBuffer, fromBuffer, if_neg hlen, if_neg hlen]
    simp only [Traced.val_bind, Traced.val_read, certificateLen_slice]
    split
    · rfl
    · split
      · rfl
      · rfl

/-- Only bytes of the buffer are read. -/
theorem within_readBuffer (c : Crypto) (id : IdentityEx) (m : Mem) (pos len : ℕ) :
    (readBuffer c id m pos len).Within pos (pos + len) := by
  by_cases hlen : len < defaultIdentitySize
  · rw [readBuffer, if_pos hlen]
    exact Traced.within_pure _ _ _
  · rw [readBuffer, if_neg hlen]
    have hsize : defaultIdentitySize ≤ len := not_lt.mp hlen
    refine (Traced.within_read m le_rfl (by omega)).bind ?_
    rw [Traced.val_read, certificateLen_slice]
    by_cases hzero : readBE (slice m (pos + 385) 2) = 0
    · rw [if_pos hzero]
      exact (Traced.within_read m le_rfl
        (by simp only [getFullLen, Nat.zero_add]; omega)).bind (Traced.within_pure _ _ _)
    · rw [if_neg hzero]
      by_cases hroom : readBE (slice m (pos + 385) 2) + defaultIdentitySize ≤ len
      · rw [if_pos hroom]
        exact (Traced.within_read m (Nat.le_add_right _ _) (by omega)).bind
          ((Traced.within_read m le_rfl (Nat.add_le_add_left hroom pos)).bind
            (Traced.within_pure _ _ _))
      · rw [if_neg hroom]
        exact Traced.within_pure _ _ _

end IdentityEx

namespace PrivateKeys

variable {c : Crypto}

/-- `FromBuffer`, with the addresses that it reads. -/
def readBuffer (c : Crypto) (keys : PrivateKeys) (m : Mem) (pos len : ℕ) :
    Traced (PrivateKeys × ℕ) := do
  let (pub, ret) ← keys.pub.readBuffer c m pos len
  let privateKey ← Traced.read m (pos + ret) 256
  let size := pub.getSigningPrivateKeyLen
  let signingPrivateKey ← Traced.read m (pos + ret + 256) size
  return ({ pub
            privateKey
            signingPrivateKey := overwrite keys.signingPrivateKey signingPrivateKey :
              PrivateKeys }.createSigner, ret + 256 + size)

theorem val_readBuffer (c : Crypto) (keys : PrivateKeys) (m : Mem) (pos len : ℕ) :
    (readBuffer c keys m pos len).val = fromBuffer c keys m pos len := by
  rw [readBuffer, fromBuffer]
  simp only [Traced.val_bind, Traced.val_read, IdentityEx.val_readBuffer]
  rfl

/-- The bytes in front of the returned length are read, whatever the length of the buffer is. -/
theorem within_readBuffer_iff (c : Crypto) (keys : PrivateKeys) (m : Mem) (pos len : ℕ) :
    (readBuffer c keys m pos len).Within pos (pos + len) ↔ (fromBuffer c keys m pos len).2 ≤ len := by
  have hfirst := IdentityEx.within_readBuffer c keys.pub m pos len
  obtain ⟨pub, ret, hread⟩ : ∃ pub ret, (keys.pub.readBuffer c m pos len).val = (pub, ret) :=
    ⟨_, _, rfl⟩
  have hlength : (fromBuffer c keys m pos len).2 = ret + 256 + pub.getSigningPrivateKeyLen := by
    rw [fromBuffer, ← IdentityEx.val_readBuffer, hread]
  rw [readBuffer, Traced.within_bind_iff, hread, hlength]
  simp only [Traced.within_bind_iff, Traced.within_pure_iff, and_true, hfirst, true_and]
  constructor
  · rintro ⟨hkey, hsigning⟩
    -- the last byte of each part is read
    have hkeyLast := (hkey (pos + ret + 255) (List.mem_range'_1.mpr (by omega))).2
    rcases Nat.eq_zero_or_pos pub.getSigningPrivateKeyLen with hsize | hsize
    · omega
    · have hlast := (hsigning (pos + ret + 256 + (pub.getSigningPrivateKeyLen - 1))
        (List.mem_range'_1.mpr (by omega))).2
      omega
  · intro hle
    exact ⟨Traced.within_read m (by omega) (by omega), Traced.within_read m (by omega) (by omega)⟩

/-- The buffer does not hold an identity, or ends in front of the keys behind it. -/
def TooShort (c : Crypto) (keys : PrivateKeys) (m : Mem) (pos len : ℕ) : Prop :=
  (keys.pub.fromBuffer c m pos len).2 = 0 ∨ len < (fromBuffer c keys m pos len).2

/-- The buffer is rejected, and nothing behind it has been read. -/
def Rejects (c : Crypto) (keys : PrivateKeys) (m : Mem) (pos len : ℕ) : Prop :=
  (readBuffer c keys m pos len).val.2 = 0 ∧ (readBuffer c keys m pos len).Within pos (pos + len)

/-- Private keys are never rejected. -/
theorem not_rejects (c : Crypto) (keys : PrivateKeys) (m : Mem) (pos len : ℕ) :
    ¬ keys.Rejects c m pos len := by
  rintro ⟨hzero, -⟩
  rw [val_readBuffer] at hzero
  have hpos : 256 ≤ (fromBuffer c keys m pos len).2 := by
    show 256 ≤ _ + 256 + _
    omega
  omega

end PrivateKeys

/-- A rejected buffer leaves the identity as it was iff it is shorter than a standard identity or has
been read before. Private keys are rejected for no buffer that is too short, and bytes behind it are
read iff the keys would end there. -/
theorem rejects_iff (c : Crypto) (id : IdentityEx) (keys : PrivateKeys) (m : Mem) (pos len : ℕ) :
    ((id.fromBuffer c m pos len).2 = 0 →
      (IdentityEx.Unchanged id (id.fromBuffer c m pos len).1 ↔
        len < defaultIdentitySize ∨ id.Overwritten m pos)) ∧
      (keys.TooShort c m pos len →
        ¬ keys.Rejects c m pos len ∧
          ((keys.readBuffer c m pos len).Within pos (pos + len) ↔
            (keys.fromBuffer c m pos len).2 ≤ len)) :=
  ⟨IdentityEx.unchanged_iff, fun _ =>
    ⟨keys.not_rejects c m pos len, keys.within_readBuffer_iff c m pos len⟩⟩

/-- Private keys in whose memory nothing stands. -/
def emptyKeys : PrivateKeys := { privateKey := [], signingPrivateKey := List.replicate 1024 0 }

/-- An empty buffer. -/
theorem rejects_iff_empty :
    (IdentityEx.Unchanged {} (IdentityEx.fromBuffer exampleCrypto {} (fun _ => 1) 0 0).1 ↔
      0 < defaultIdentitySize ∨ ({} : IdentityEx).Overwritten (fun _ => 1) 0) ∧
      ¬ emptyKeys.Rejects exampleCrypto (fun _ => 1) 0 0 := by
  have hboth := rejects_iff exampleCrypto {} emptyKeys (fun _ => 1) 0 0
  exact ⟨hboth.1 rfl, (hboth.2 (.inl rfl)).1⟩

/-- A certificate that announces `257` bytes behind a standard identity: the identity cannot be copied
any more. And keys are read from a buffer without any bytes. -/
theorem not_unchanged_rejected :
    (IdentityEx.fromBuffer exampleCrypto {} (fun _ => 1) 0 387).2 = 0 ∧
      ¬ IdentityEx.Unchanged {} (IdentityEx.fromBuffer exampleCrypto {} (fun _ => 1) 0 387).1 ∧
      (IdentityEx.operatorAssign {} (some {})).2 = true ∧
      (IdentityEx.operatorAssign {}
        (some (IdentityEx.fromBuffer exampleCrypto {} (fun _ => 1) 0 387).1)).2 = false ∧
      emptyKeys.TooShort exampleCrypto (fun _ => 1) 0 0 ∧
      (emptyKeys.readBuffer exampleCrypto (fun _ => 1) 0 0).val.2 = 276 ∧
      ¬ (emptyKeys.readBuffer exampleCrypto (fun _ => 1) 0 0).Within 0 0 := by
  have hlenIn : IdentityEx.lenIn (fun _ => 1) 0 387 = 0 := by decide
  have hleft := @IdentityEx.fromBuffer_of_lenIn_eq_zero exampleCrypto {} _ _ _ hlenIn le_rfl
  refine ⟨?_, fun h => ?_, rfl, ?_, .inl rfl, rfl, fun h => ?_⟩
  · rw [IdentityEx.fromBuffer_snd]
    exact hlenIn
  · have hext := h.extendedLen
    rw [hleft] at hext
    revert hext
    decide
  · rw [hleft]
    rfl
  · rw [show (0 : ℕ) = 0 + 0 from rfl, emptyKeys.within_readBuffer_iff] at h
    revert h
    decide

end Identity
