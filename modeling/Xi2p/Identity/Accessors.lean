import Xi2p.Identity.Codec

/-!
# Bounds of the accessors of an identity

`GetSigningKeyType`, `GetCryptoKeyType`, `CreateVerifier` and the functions that create a verifier
first, of `IdentityEx` in `core/router/identity.cc`, with what they read of the standard identity and
of the extended buffer. `FromBuffer` takes the length of the extended buffer from the certificate and
compares it with nothing but the length of the input.

* `IdentityEx.val_readCreateVerifier`: the reads are those of `CreateVerifier`.
* `IdentityEx.accessorsInBounds_iff`: the identities that are read within their bounds.
-/

namespace Identity

open Bytes I2NP

/-! ## Reads -/

/-- The two parts of the memory of an `IdentityEx`. -/
inductive Part
  | standard
  | extended
  deriving DecidableEq

/-- Bytes of a part. -/
structure Extent where
  part : Part
  offset : ℕ
  size : ℕ

/-- A result with the bytes that are read for it. -/
structure Accessed (α : Type) where
  val : α
  reads : List Extent

namespace Accessed

variable {α β : Type}

instance : Monad Accessed where
  pure a := ⟨a, []⟩
  bind x f := ⟨(f x.val).val, x.reads ++ (f x.val).reads⟩

@[simp]
theorem val_pure (a : α) : (pure a : Accessed α).val = a := rfl

@[simp]
theorem reads_pure (a : α) : (pure a : Accessed α).reads = [] := rfl

@[simp]
theorem val_bind (x : Accessed α) (f : α → Accessed β) : (x >>= f).val = (f x.val).val := rfl

@[simp]
theorem reads_bind (x : Accessed α) (f : α → Accessed β) :
    (x >>= f).reads = x.reads ++ (f x.val).reads := rfl

/-- Only bytes of the identity are read. -/
def InBounds (x : Accessed α) (id : IdentityEx) : Prop :=
  ∀ r ∈ x.reads, r.offset + r.size ≤
    match r.part with
    | .standard => defaultIdentitySize
    | .extended => id.extendedLen

theorem inBounds_pure (a : α) (id : IdentityEx) : (pure a : Accessed α).InBounds id := by
  intro r hr
  cases hr

theorem inBounds_bind {x : Accessed α} {f : α → Accessed β} {id : IdentityEx} :
    (x >>= f).InBounds id ↔ x.InBounds id ∧ (f x.val).InBounds id := by
  rw [InBounds, reads_bind, List.forall_mem_append]
  rfl

end Accessed

namespace IdentityEx

open Accessed

variable (id : IdentityEx)

/-- Read `n` bytes of the standard identity. -/
def readStandard (offset n : ℕ) : Accessed (List UInt8) :=
  ⟨(id.standardIdentity.drop offset).take n, [⟨.standard, offset, n⟩]⟩

/-- Read `n` bytes of the extended buffer. -/
def readExtended (offset n : ℕ) : Accessed (List UInt8) :=
  ⟨((id.extendedBuffer.getD []).drop offset).take n, [⟨.extended, offset, n⟩]⟩

/-! ## Accessors -/

/-- The field of two bytes at `offset` of a key certificate, or `0`. -/
def readKeyType (offset : ℕ) : Accessed UInt16 := do
  let type ← id.readStandard 384 1
  if type.getD 0 0 = certificateTypeKey ∧ id.extendedBuffer.isSome then
    let keyType ← id.readExtended offset 2
    return readU16 keyType
  return 0

/-- `GetSigningKeyType`. -/
def readSigningKeyType : Accessed SigningKeyType := id.readKeyType 0

/-- `GetCryptoKeyType`; `CRYPTO_KEY_TYPE_ELGAMAL` is `0`. -/
def readCryptoKeyType : Accessed UInt16 := id.readKeyType 2

/-- The public key that is handed to the verifier. -/
def readVerifierKey (keyLen : ℕ) : Accessed (List UInt8) := do
  if keyLen ≤ 128 then
    let padding := 128 - keyLen
    id.readStandard (256 + padding) keyLen
  else
    let signingKey ← id.readStandard 256 128
    let excess ← id.readExtended 4 (keyLen - 128)
    return signingKey ++ excess

/-- `CreateVerifier`. -/
def readCreateVerifier : Accessed (Option Verifier) := do
  let keyType ← id.readSigningKeyType
  match signatureLenOf keyType with
  | none => return none
  | some n =>
    let key ← id.readVerifierKey (publicKeyLenOf keyType n)
    return some ⟨keyType, n, key⟩

/-- `if (!m_Verifier) CreateVerifier();`, and then `f` of the verifier. -/
def readVerifier {α : Type} (f : Option Verifier → α) : Accessed α :=
  match id.verifier with
  | some v => return f (some v)
  | none => do
    let verifier ← id.readCreateVerifier
    return f verifier

/-- `GetSignatureLen`. -/
def readSignatureLen : Accessed ℕ :=
  id.readVerifier fun
    | some v => v.signatureLen
    | none => dsaSignatureLength

/-- `GetSigningPublicKeyLen`. -/
def readSigningPublicKeyLen : Accessed ℕ :=
  id.readVerifier fun
    | some v => publicKeyLenOf v.keyType v.signatureLen
    | none => 128

/-- `Verify`. -/
def readVerify (c : Crypto) (buf signature : List UInt8) : Accessed Bool :=
  id.readVerifier fun
    | some v => c.verify v.keyType v.publicKey buf signature
    | none => false

variable {id}

theorem getD_drop (l : List UInt8) (n : ℕ) : ((l.drop n).take 1).getD 0 0 = l.getD n 0 := by
  simp [List.getElem?_drop]

theorem val_readSigningKeyType : id.readSigningKeyType.val = id.getSigningKeyType := by
  rw [readSigningKeyType, readKeyType, getSigningKeyType, val_bind]
  rw [show (id.readStandard 384 1).val.getD 0 0 = id.certificateType from getD_drop _ _]
  cases hext : id.extendedBuffer with
  | none => simp
  | some ext =>
    by_cases htype : id.certificateType = certificateTypeKey
    · rw [if_pos ⟨htype, rfl⟩, val_bind, val_pure, readExtended, hext]
      exact (if_pos htype).symm
    · rw [if_neg fun h => htype h.1]
      exact (if_neg htype).symm

theorem val_readVerifierKey (keyLen : ℕ) :
    (id.readVerifierKey keyLen).val = id.verifierKey keyLen := by
  rw [readVerifierKey, verifierKey, signingKey]
  split
  next hle =>
    have hsub : 128 - (128 - keyLen) = keyLen := by omega
    rw [List.drop_take, List.drop_drop, hsub, readStandard]
  next => simp only [val_bind, val_pure, readStandard, readExtended]

/-- The verifier that is created. -/
theorem val_readCreateVerifier : id.readCreateVerifier.val = id.createVerifier := by
  rw [readCreateVerifier, createVerifier, val_bind, val_readSigningKeyType]
  cases signatureLenOf id.getSigningKeyType with
  | none => rfl
  | some n => simp only [val_bind, val_pure, val_readVerifierKey, Option.map_some]

theorem val_readVerifier {α : Type} (f : Option Verifier → α) :
    (id.readVerifier f).val = f id.withVerifier.verifier := by
  cases hverifier : id.verifier with
  | none =>
    rw [readVerifier, withVerifier, hverifier]
    exact congrArg f val_readCreateVerifier
  | some v =>
    rw [readVerifier, withVerifier, hverifier]
    exact congrArg f hverifier.symm

/-! ## Bounds -/

/-- The bytes of a public key that stand in the extension, behind the key types. -/
def excessLenOf (t : SigningKeyType) : ℕ := signingKeyLen t - 128

theorem inBounds_readStandard {offset n : ℕ} :
    (id.readStandard offset n).InBounds id ↔ offset + n ≤ defaultIdentitySize := by
  simp [InBounds, readStandard]

theorem inBounds_readExtended {offset n : ℕ} :
    (id.readExtended offset n).InBounds id ↔ offset + n ≤ id.extendedLen := by
  simp [InBounds, readExtended]

/-- A key type is read behind the standard identity if there is a key certificate. -/
theorem inBounds_readKeyType {c : Crypto} (h : id.WellFormed c) (offset : ℕ) :
    (id.readKeyType offset).InBounds id ↔
      id.certificateType ≠ certificateTypeKey ∨ id.extendedLen = 0 ∨ offset + 2 ≤ id.extendedLen := by
  rw [readKeyType, inBounds_bind, inBounds_readStandard, and_iff_right (by decide),
    show (id.readStandard 384 1).val.getD 0 0 = id.certificateType from getD_drop _ _]
  by_cases htype : id.certificateType = certificateTypeKey
  · by_cases hzero : id.extendedLen = 0
    · rw [h.extendedBuffer_eq_none hzero, if_neg (by simp)]
      exact iff_of_true (inBounds_pure _ _) (.inr (.inl hzero))
    · obtain ⟨ext, hext, -⟩ := h.extendedBuffer_eq_some hzero
      rw [hext, if_pos ⟨htype, rfl⟩, inBounds_bind, inBounds_readExtended]
      simp [htype, hzero, inBounds_pure]
  · rw [if_neg fun h => htype h.1]
    exact iff_of_true (inBounds_pure _ _) (.inl htype)

/-- The part of a public key of more than `128` bytes that is read from the extension. -/
theorem inBounds_readVerifierKey (keyLen : ℕ) :
    (id.readVerifierKey keyLen).InBounds id ↔ keyLen ≤ 128 ∨ 4 + (keyLen - 128) ≤ id.extendedLen := by
  rw [readVerifierKey]
  split
  next hle =>
    rw [inBounds_readStandard]
    exact iff_of_true (by simp only [defaultIdentitySize]; omega) (.inl hle)
  next hgt =>
    rw [inBounds_bind, inBounds_bind, inBounds_readStandard, inBounds_readExtended]
    simp only [hgt, false_or, inBounds_pure, and_true]
    exact and_iff_right (by decide)

theorem inBounds_readCreateVerifier :
    id.readCreateVerifier.InBounds id ↔
      id.readSigningKeyType.InBounds id ∧
        (excessLenOf id.getSigningKeyType = 0 ∨
          4 + excessLenOf id.getSigningKeyType ≤ id.extendedLen) := by
  rw [readCreateVerifier, inBounds_bind, val_readSigningKeyType]
  cases hn : signatureLenOf id.getSigningKeyType with
  | none =>
    have hlen : signingKeyLen id.getSigningKeyType = 0 := by rw [signingKeyLen, hn]
    have hnone : excessLenOf id.getSigningKeyType = 0 := by
      unfold excessLenOf
      omega
    rw [hnone]
    exact and_congr_right fun _ => iff_of_true (inBounds_pure _ _) (.inl rfl)
  | some n =>
    have hlen : signingKeyLen id.getSigningKeyType = publicKeyLenOf id.getSigningKeyType n := by
      rw [signingKeyLen, hn]
    unfold excessLenOf
    rw [hlen, Nat.sub_eq_zero_iff_le]
    dsimp only
    rw [inBounds_bind, inBounds_readVerifierKey]
    exact and_congr_right fun _ => and_iff_left (inBounds_pure _ _)

theorem inBounds_readVerifier {α : Type} (h : id.verifier = none) (f : Option Verifier → α) :
    (id.readVerifier f).InBounds id ↔ id.readCreateVerifier.InBounds id := by
  rw [readVerifier, h, inBounds_bind]
  exact and_iff_left (inBounds_pure _ _)

/-- All accessors read only bytes of the identity. -/
structure AccessorsInBounds (id : IdentityEx) : Prop where
  getSigningKeyType : id.readSigningKeyType.InBounds id
  getCryptoKeyType : id.readCryptoKeyType.InBounds id
  createVerifier : id.readCreateVerifier.InBounds id
  getSignatureLen : id.readSignatureLen.InBounds id
  getSigningPublicKeyLen : id.readSigningPublicKeyLen.InBounds id
  verify : ∀ c buf signature, (id.readVerify c buf signature).InBounds id

/-- There is no key certificate, or no extension, or it holds the key types and all of the key. -/
theorem WellFormed.inBounds_accessors_iff {c : Crypto} (h : id.WellFormed c)
    (hverifier : id.verifier = none) :
    id.AccessorsInBounds ↔
      id.certificateType ≠ certificateTypeKey ∨ id.extendedLen = 0 ∨
        4 + excessLenOf id.getSigningKeyType ≤ id.extendedLen := by
  have hsigning := inBounds_readKeyType h 0
  have hcrypto := inBounds_readKeyType h 2
  have hcreate := @inBounds_readCreateVerifier id
  constructor
  · intro hbounds
    rcases hcrypto.mp hbounds.getCryptoKeyType with htype | hzero | hfour
    · exact .inl htype
    · exact .inr (.inl hzero)
    · rcases (hcreate.mp hbounds.createVerifier).2 with hexcess | hexcess
      · exact .inr (.inr (by omega))
      · exact .inr (.inr hexcess)
  · intro hfits
    -- without a key certificate the key is of type DSA, and stands in the standard identity
    have hdsa (hno : id.certificateType ≠ certificateTypeKey ∨ id.extendedLen = 0) :
        excessLenOf id.getSigningKeyType = 0 := by
      have hzero : id.getSigningKeyType = 0 := by
        rw [IdentityEx.getSigningKeyType]
        rcases hno with htype | hlen
        · cases id.extendedBuffer with
          | none => rfl
          | some ext => exact if_neg htype
        · rw [h.extendedBuffer_eq_none hlen]
      rw [hzero]
      rfl
    have hkeyType (offset : ℕ) (hle : offset ≤ 2) : (id.readKeyType offset).InBounds id :=
      (inBounds_readKeyType h offset).mpr (hfits.imp_right (Or.imp_right (by omega)))
    have hverifierBounds : id.readCreateVerifier.InBounds id := by
      refine hcreate.mpr ⟨hkeyType 0 (by omega), ?_⟩
      rcases hfits with htype | hzero | hfour
      · exact .inl (hdsa (.inl htype))
      · exact .inl (hdsa (.inr hzero))
      · exact .inr hfour
    have hwith {α : Type} (f : Option Verifier → α) : (id.readVerifier f).InBounds id :=
      (inBounds_readVerifier hverifier f).mpr hverifierBounds
    exact ⟨hkeyType 0 (by omega), hkeyType 2 le_rfl, hverifierBounds, hwith _, hwith _,
      fun _ _ _ => hwith _⟩

/-- The key certificate of the identity at `pos`, if there is one, holds its key. -/
def CertificateFits (m : Mem) (pos : ℕ) : Prop :=
  let certificateLen := readBE (slice m (pos + 385) 2)
  m (pos + 384) ≠ certificateTypeKey ∨ certificateLen = 0 ∨
    4 + excessLenOf (readU16 (slice m (pos + defaultIdentitySize) 2)) ≤ certificateLen

/-- The parts of an identity that has been read. -/
theorem fromBuffer_parts {c : Crypto} {m : Mem} {pos len : ℕ}
    (h : 0 < (fromBuffer c id m pos len).2) :
    (fromBuffer c id m pos len).1.certificateType = m (pos + 384) ∧
      (fromBuffer c id m pos len).1.extendedLen = readBE (slice m (pos + 385) 2) ∧
      ∀ ext, (fromBuffer c id m pos len).1.extendedBuffer = some ext →
        ext = slice m (pos + defaultIdentitySize) (readBE (slice m (pos + 385) 2)) := by
  obtain ⟨hwell, -, hbytes⟩ := fromBuffer_of_pos h
  have hstandard : (fromBuffer c id m pos len).1.standardIdentity = slice m pos defaultIdentitySize := by
    have htake := congrArg (List.take defaultIdentitySize) hbytes
    have hfull : (fromBuffer c id m pos len).2 =
        defaultIdentitySize + (fromBuffer c id m pos len).1.extendedLen := by
      rw [← length_slice m pos (fromBuffer c id m pos len).2, ← hbytes, hwell.length_toBuffer,
        getFullLen, Nat.add_comm]
    rw [toBuffer, List.take_left' hwell.length_standardIdentity, hfull, slice_add,
      List.take_left' (length_slice _ _ _)] at htake
    exact htake
  have hlen : (fromBuffer c id m pos len).1.extendedLen = readBE (slice m (pos + 385) 2) := by
    rw [hwell.extendedLen_eq, hstandard, certificateLen_slice]
  refine ⟨?_, hlen, fun ext hext => ?_⟩
  · rw [certificateType, hstandard, List.getD_eq_getElem?_getD, getElem?_slice m (by decide)]
    rfl
  · have hpos : 0 < (fromBuffer c id m pos len).1.extendedLen := by
      refine Nat.pos_of_ne_zero fun hzero => ?_
      rw [hwell.extendedBuffer_eq_none hzero] at hext
      cases hext
    obtain ⟨ext', hext', hlength⟩ := hwell.extendedBuffer_eq_some hpos.ne'
    obtain rfl : ext' = ext := Option.some.inj (hext'.symm.trans hext)
    have hfull : (fromBuffer c id m pos len).2 =
        defaultIdentitySize + (fromBuffer c id m pos len).1.extendedLen := by
      rw [← length_slice m pos (fromBuffer c id m pos len).2, ← hbytes, hwell.length_toBuffer,
        getFullLen, Nat.add_comm]
    rw [toBuffer, if_pos hpos, hext, hstandard, hfull, slice_add, hlen] at hbytes
    exact List.append_cancel_left hbytes

/-- The accessors of an identity that has been accepted stay within it iff its certificate is no key
certificate, or is empty, or has room for the key types and the excess of its key. -/
theorem accessorsInBounds_iff (c : Crypto) (id : IdentityEx) (m : Mem) (pos len : ℕ)
    (h : 0 < (fromBuffer c id m pos len).2) :
    (fromBuffer c id m pos len).1.AccessorsInBounds ↔ CertificateFits m pos := by
  obtain ⟨hwell, hverifier, -⟩ := fromBuffer_of_pos h
  obtain ⟨htype, hlen, hbuffer⟩ := fromBuffer_parts h
  rw [hwell.inBounds_accessors_iff hverifier, CertificateFits, htype, hlen]
  by_cases hkey : m (pos + 384) = certificateTypeKey
  swap
  · exact iff_of_true (.inl hkey) (.inl hkey)
  refine or_congr_right (or_congr_right ?_)
  -- with room for the key types, the type is the one that stands in the certificate
  by_cases hfour : 4 ≤ readBE (slice m (pos + 385) 2)
  · have hne : (fromBuffer c id m pos len).1.extendedLen ≠ 0 := by omega
    obtain ⟨ext, hext, -⟩ := hwell.extendedBuffer_eq_some hne
    have hkeyType : (fromBuffer c id m pos len).1.getSigningKeyType =
        readU16 (slice m (pos + defaultIdentitySize) 2) := by
      rw [getSigningKeyType, hext]
      dsimp only
      rw [if_pos (htype.trans hkey), hbuffer ext hext,
        show readBE (slice m (pos + 385) 2) = 2 + (readBE (slice m (pos + 385) 2) - 2) by omega,
        slice_add, List.take_left' (length_slice _ _ _)]
    rw [hkeyType]
  · exact iff_of_false (by omega) (by omega)

/-- A certificate for a key of `132` bytes that has room for it. -/
def exampleKeyMem : Mem := store (fun _ => 9) 384 [5, 0, 8, 0, 3, 0, 0]

theorem accessorsInBounds_exampleKey :
    (fromBuffer exampleCrypto {} exampleKeyMem 0 395).1.AccessorsInBounds ↔
      CertificateFits exampleKeyMem 0 :=
  accessorsInBounds_iff exampleCrypto {} exampleKeyMem 0 395 (by rw [fromBuffer_snd]; decide)

/-- A key certificate of one byte: the key type is read from the byte and the one behind it. -/
def shortKeyMem : Mem := store (fun _ => 0) 384 [5, 0, 1]

theorem not_accessorsInBounds_shortKey :
    (fromBuffer exampleCrypto {} shortKeyMem 0 388).2 = 388 ∧
      ¬ (fromBuffer exampleCrypto {} shortKeyMem 0 388).1.readSigningKeyType.InBounds
        (fromBuffer exampleCrypto {} shortKeyMem 0 388).1 ∧
      ¬ (fromBuffer exampleCrypto {} shortKeyMem 0 388).1.AccessorsInBounds := by
  have haccepted : (fromBuffer exampleCrypto {} shortKeyMem 0 388).2 = 388 := by
    rw [fromBuffer_snd]
    decide
  have hpos : 0 < (fromBuffer exampleCrypto {} shortKeyMem 0 388).2 := by omega
  obtain ⟨hwell, -, -⟩ := fromBuffer_of_pos hpos
  obtain ⟨htype, hlen, -⟩ := fromBuffer_parts hpos
  have houtside : ¬ (fromBuffer exampleCrypto {} shortKeyMem 0 388).1.readSigningKeyType.InBounds
      (fromBuffer exampleCrypto {} shortKeyMem 0 388).1 := by
    rw [readSigningKeyType, inBounds_readKeyType hwell, htype, hlen]
    decide
  exact ⟨haccepted, houtside, fun h => houtside h.getSigningKeyType⟩

end IdentityEx

end Identity
