import Xi2p.I2NP

/-!
# Identities

`IdentityEx` of `core/router/identity.cc`: a standard identity of `387` bytes (public key, signing
key, certificate), the extension announced by its certificate, the identity hash, and the verifier
that is created when it is first needed.

The hash function and the signature schemes are the fields of `Crypto`.
-/

namespace Identity

open Bytes I2NP

/-! ## Primitives -/

/-- `SigningKeyType`: the 16-bit code of a signature scheme. -/
abbrev SigningKeyType := UInt16

/-- `SHA256` and the `Verify` functions of the signature schemes. -/
structure Crypto where
  /-- `SHA256().CalculateDigest`. -/
  sha256 : List UInt8 → IdentHash
  /-- `Verifier::Verify` for a key type, a public key, a message and a signature. -/
  verify : SigningKeyType → List UInt8 → List UInt8 → List UInt8 → Bool

/-! ## Sizes and key types -/

/-- `DEFAULT_IDENTITY_SIZE`. -/
abbrev defaultIdentitySize : ℕ := 387

/-- `CERTIFICATE_TYPE_KEY`. -/
abbrev certificateTypeKey : UInt8 := 5

/-- `GetSignatureLen` of the verifier for a key type, if the key type is supported. -/
def signatureLenOf (t : SigningKeyType) : Option ℕ :=
  match t.toNat with
  | 0 => some 40
  | 1 => some 64
  | 2 => some 96
  | 3 => some 132
  | 4 => some 256
  | 5 => some 384
  | 6 => some 512
  | 7 => some 64
  | _ => none

/-- `DSA_SIGNATURE_LENGTH`. -/
abbrev dsaSignatureLength : ℕ := 40

/-- A `Verifier`: the key type it was created for and its public key. -/
structure Verifier where
  /-- The signature scheme. -/
  keyType : SigningKeyType
  /-- `GetSignatureLen`. -/
  signatureLen : ℕ
  /-- The public key. -/
  publicKey : List UInt8

/-! ## Identities -/

/-- `IdentityEx`. -/
structure IdentityEx where
  /-- `m_StandardIdentity`. -/
  standardIdentity : List UInt8 := List.replicate defaultIdentitySize 0
  /-- `m_IdentHash`. -/
  identHash : IdentHash := IdentHash.zero
  /-- `m_Verifier`; `none` until it is first used. -/
  verifier : Option Verifier := none
  /-- `m_ExtendedLen`. -/
  extendedLen : ℕ := 0
  /-- `m_ExtendedBuffer`. -/
  extendedBuffer : Option (List UInt8) := none

namespace IdentityEx

/-- `m_StandardIdentity.signing_key`. -/
def signingKey (id : IdentityEx) : List UInt8 := (id.standardIdentity.drop 256).take 128

/-- `m_StandardIdentity.certificate.type`. -/
def certificateType (id : IdentityEx) : UInt8 := id.standardIdentity.getD 384 0

/-- `GetFullLen`. -/
def getFullLen (id : IdentityEx) : ℕ := id.extendedLen + defaultIdentitySize

/-- `GetSigningKeyType`. -/
def getSigningKeyType (id : IdentityEx) : SigningKeyType :=
  match id.extendedBuffer with
  | some ext => if id.certificateType = certificateTypeKey then readU16 (ext.take 2) else 0
  | none => 0

/-- The public key that `CreateVerifier` hands to the verifier: `keyLen` bytes, right-aligned in
the signing key of the standard identity, the excess behind the key types of the extension. -/
def verifierKey (id : IdentityEx) (keyLen : ℕ) : List UInt8 :=
  if keyLen ≤ 128 then id.signingKey.drop (128 - keyLen)
  else id.signingKey ++ ((id.extendedBuffer.getD []).drop 4).take (keyLen - 128)

/-- The length of the public key of a key type; it differs from the signature length for DSA and
EdDSA. -/
def publicKeyLenOf (t : SigningKeyType) (signatureLen : ℕ) : ℕ :=
  match t.toNat with
  | 0 => 128
  | 7 => 32
  | _ => signatureLen

/-- `CreateVerifier`. -/
def createVerifier (id : IdentityEx) : Option Verifier :=
  let t := id.getSigningKeyType
  (signatureLenOf t).map fun n => ⟨t, n, id.verifierKey (publicKeyLenOf t n)⟩

/-- `if (!m_Verifier) CreateVerifier();`. -/
def withVerifier (id : IdentityEx) : IdentityEx :=
  match id.verifier with
  | some _ => id
  | none => { id with verifier := id.createVerifier }

/-- `GetSignatureLen`. -/
def getSignatureLen (id : IdentityEx) : ℕ :=
  match id.withVerifier.verifier with
  | some v => v.signatureLen
  | none => dsaSignatureLength

/-- `Verify`. -/
def verify (c : Crypto) (id : IdentityEx) (buf signature : List UInt8) : Bool :=
  match id.withVerifier.verifier with
  | some v => c.verify v.keyType v.publicKey buf signature
  | none => false

/-- `FromBuffer`, on the memory `m` at address `pos` with `len` bytes. A buffer that ends inside
the announced extension is rejected after the standard part has been overwritten. -/
def fromBuffer (c : Crypto) (id : IdentityEx) (m : Mem) (pos len : ℕ) : IdentityEx × ℕ :=
  if len < defaultIdentitySize then (id, 0)
  else
    let id := { id with
      extendedLen := 0
      extendedBuffer := none
      standardIdentity := slice m pos defaultIdentitySize }
    let certificateLen := readBE (slice m (pos + 385) 2)
    if certificateLen = 0 then
      let id := { id with
        identHash := c.sha256 (slice m pos id.getFullLen)
        verifier := none }
      (id, id.getFullLen)
    else
      let id := { id with extendedLen := certificateLen }
      if certificateLen + defaultIdentitySize ≤ len then
        let id := { id with
          extendedBuffer := some (slice m (pos + defaultIdentitySize) certificateLen)
          identHash := c.sha256 (slice m pos id.getFullLen)
          verifier := none }
        (id, id.getFullLen)
      else (id, 0)

/-- The length of the identity at `pos`, or `0` if the `len` bytes hold none. -/
def lenIn (m : Mem) (pos len : ℕ) : ℕ :=
  let certificateLen := readBE (slice m (pos + 385) 2)
  if len < defaultIdentitySize then 0
  else if certificateLen + defaultIdentitySize ≤ len then certificateLen + defaultIdentitySize
  else 0

theorem fromBuffer_snd (c : Crypto) (id : IdentityEx) (m : Mem) (pos len : ℕ) :
    (fromBuffer c id m pos len).2 = lenIn m pos len := by
  unfold fromBuffer lenIn
  dsimp only
  split
  · rfl
  next hlen =>
    split
    next hzero =>
      rw [hzero, if_pos (by omega)]
      rfl
    · split
      · rfl
      · rfl

/-- The hash is that of the identity that was read, if one was. -/
theorem fromBuffer_identHash (c : Crypto) (id : IdentityEx) (m : Mem) (pos len : ℕ) :
    (fromBuffer c id m pos len).1.identHash =
      if lenIn m pos len = 0 then id.identHash else c.sha256 (slice m pos (lenIn m pos len)) := by
  unfold fromBuffer lenIn
  dsimp only
  split
  · simp
  next hlen =>
    split
    next hzero =>
      have hroom : 0 + defaultIdentitySize ≤ len := by omega
      simp only [hzero, if_pos hroom]
      rfl
    · split
      next hroom => simp [getFullLen]
      · simp

/-- `ToBuffer`: the bytes written. -/
def toBuffer (id : IdentityEx) : List UInt8 :=
  id.standardIdentity ++
    (if 0 < id.extendedLen then id.extendedBuffer.getD [] else [])

/-! ## Identities that have been read or created -/

/-- The extension has the length that the certificate announces, the hash is that of the whole
identity, and the verifier is the one that belongs to its key. -/
structure WellFormed (c : Crypto) (id : IdentityEx) : Prop where
  length_standardIdentity : id.standardIdentity.length = defaultIdentitySize
  extendedLen_eq : id.extendedLen = readBE (id.standardIdentity.drop 385)
  extendedBuffer_eq_none : id.extendedLen = 0 → id.extendedBuffer = none
  extendedBuffer_eq_some : id.extendedLen ≠ 0 →
    ∃ ext, id.extendedBuffer = some ext ∧ ext.length = id.extendedLen
  identHash_eq : id.identHash = c.sha256 id.toBuffer
  verifier_eq : id.verifier = none ∨ id.verifier = id.createVerifier

/-- The identity before its verifier is needed. -/
def fresh (id : IdentityEx) : IdentityEx := { id with verifier := none }

theorem WellFormed.length_toBuffer {c : Crypto} {id : IdentityEx} (h : id.WellFormed c) :
    id.toBuffer.length = id.getFullLen := by
  unfold toBuffer getFullLen
  rw [List.length_append, h.length_standardIdentity]
  by_cases hext : id.extendedLen = 0
  · simp [hext]
  · obtain ⟨ext, hsome, hlen⟩ := h.extendedBuffer_eq_some hext
    rw [if_pos (Nat.pos_of_ne_zero hext), hsome]
    show _ + ext.length = _
    omega

/-- The length of a signature does not depend on whether the verifier has been created. -/
theorem WellFormed.getSignatureLen_fresh {c : Crypto} {id : IdentityEx} (h : id.WellFormed c) :
    id.fresh.getSignatureLen = id.getSignatureLen := by
  have hcreate : id.fresh.createVerifier = id.createVerifier := rfl
  unfold getSignatureLen withVerifier
  rw [show id.fresh.verifier = none from rfl]
  rcases h.verifier_eq with hnone | hcreated
  · rw [hnone]
    rfl
  · cases hv : id.verifier with
    | none => rfl
    | some v =>
      dsimp only
      rw [hcreate, ← hcreated, hv]

theorem pos_of_signatureLenOf {t : SigningKeyType} {n : ℕ} (h : signatureLenOf t = some n) :
    0 < n := by
  unfold signatureLenOf at h
  split at h <;> simp_all <;> omega

theorem WellFormed.getSignatureLen_pos {c : Crypto} {id : IdentityEx} (h : id.WellFormed c) :
    0 < id.getSignatureLen := by
  rw [← h.getSignatureLen_fresh]
  show 0 < (match id.createVerifier with | some v => v.signatureLen | none => dsaSignatureLength)
  simp only [createVerifier]
  cases hlen : signatureLenOf id.getSigningKeyType with
  | none => exact Nat.zero_lt_succ _
  | some n => exact pos_of_signatureLenOf hlen

/-- `FromBuffer` reads back what `ToBuffer` wrote. -/
theorem WellFormed.fromBuffer_toBuffer {c : Crypto} {id : IdentityEx} (h : id.WellFormed c)
    (id₀ : IdentityEx) {m : Mem} {pos : ℕ} (hm : StandsAt m pos id.toBuffer) :
    fromBuffer c id₀ m pos id.getFullLen = (id.fresh, id.getFullLen) := by
  have hfull : slice m pos id.getFullLen = id.toBuffer := by
    rw [← h.length_toBuffer]
    exact hm
  have hparts := standsAt_append.mp hm
  have hstandard : slice m pos defaultIdentitySize = id.standardIdentity := by
    rw [← h.length_standardIdentity]
    exact hparts.1
  have hcertificate : readBE (slice m (pos + 385) 2) = id.extendedLen := by
    rw [h.extendedLen_eq, ← hstandard, show defaultIdentitySize = 385 + 2 from rfl, slice_add,
      List.drop_left' (length_slice _ _ _)]
  have hlt : ¬ id.getFullLen < defaultIdentitySize := Nat.not_lt.mpr (Nat.le_add_left _ _)
  unfold fromBuffer
  rw [if_neg hlt]
  dsimp only
  rw [hcertificate, hstandard]
  by_cases hext : id.extendedLen = 0
  · have hfullLen : id.getFullLen = defaultIdentitySize := by
      rw [getFullLen, hext, Nat.zero_add]
    have hhash : id.identHash = c.sha256 (slice m pos defaultIdentitySize) := by
      rw [h.identHash_eq, ← hfull, hfullLen]
    rw [if_pos hext]
    simp only [getFullLen, Nat.zero_add, hext, fresh, h.extendedBuffer_eq_none hext, hhash]
  · obtain ⟨ext, hsome, hlen⟩ := h.extendedBuffer_eq_some hext
    have hextended : slice m (pos + defaultIdentitySize) id.extendedLen = ext := by
      have hstands := hparts.2
      rw [if_pos (Nat.pos_of_ne_zero hext), hsome, h.length_standardIdentity] at hstands
      rw [← hlen]
      exact hstands
    have hhash : id.identHash = c.sha256 (slice m pos (id.extendedLen + defaultIdentitySize)) := by
      rw [h.identHash_eq, ← hfull, getFullLen]
    have hroom : id.extendedLen + defaultIdentitySize ≤ id.getFullLen := le_rfl
    rw [if_neg hext, if_pos hroom]
    simp only [getFullLen, fresh, hextended, hsome, hhash]

end IdentityEx

end Identity
