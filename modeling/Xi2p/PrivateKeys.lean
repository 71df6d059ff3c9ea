import Xi2p.Identity
import Xi2p.Lib.CBC

/-!
# Private keys

`PrivateKeys` of `core/router/identity.cc`: the public identity with the private keys, and the signer that
is made from the private signing key. A signing public key of up to 128 bytes stands at the end of the
signing key of the identity, and the rest of a longer one in its extension. The keys of type DSA are made
through the older structures `Keys` and `Identity`.

The signature schemes are the fields of `Crypto` and of `Schemes`.

* `PrivateKeys.createRandomKeys`, `assign`, `fromBuffer`, `toBuffer`, `sign`.
* `signsForItself_iff`: created keys sign for their own identity, unless they are of type DSA.
-/

namespace Identity

open Bytes I2NP CBC

/-! ## Primitives -/

/-- The functions of the signature schemes that make keys and sign. Random numbers are arguments. -/
structure Schemes where
  /-- `CreateDSARandomKeys`, `CreateECDSAP256RandomKeys` and so on: the private and the public key. -/
  createRandomKeys : SigningKeyType → List UInt8 → List UInt8 × List UInt8
  /-- `Signer::Sign`, for a key type, a private key, random numbers and a message. -/
  sign : SigningKeyType → List UInt8 → List UInt8 → List UInt8 → List UInt8
  /-- `GenerateElGamalKeyPair`: the private and the public key. -/
  generateElGamalKeyPair : List UInt8 → Block 256 × Block 256

/-- `GetPrivateKeyLen` of the verifier for a key type. -/
def privateKeyLenOf (t : SigningKeyType) : ℕ :=
  match t.toNat with
  | 0 => 20
  | 1 => 32
  | 2 => 48
  | 3 => 66
  | 4 => 512
  | 5 => 768
  | 6 => 1024
  | _ => 32

/-! ## Older structures -/

/-- `Keys`. -/
structure Keys where
  privateKey : Block 256
  signingPrivateKey : List UInt8
  publicKey : Block 256
  signingKey : List UInt8

namespace IdentityEx

variable (crypto : Crypto)

/-- `operator=(const Identity&)`, for `Identity(keys)`: the signing key of the `Identity` is never
assigned, and holds what was in memory. -/
def ofKeys (keys : Keys) (memory : Block 128) : IdentityEx :=
  -- the certificate is null
  let standardIdentity := keys.publicKey.bytes ++ memory.bytes ++ [0, 0, 0]
  { standardIdentity, identHash := crypto.sha256 standardIdentity }

/-- `IdentityEx(public_key, signing_key, type)`. The part of the signing key before a public key of less
than 128 bytes is random. -/
def create (publicKey : Block 256) (signingKey : List UInt8) (t : SigningKeyType)
    (random : Block 128) : IdentityEx :=
  if t ≠ 0 then
    let (key, excess) :=
      match signatureLenOf t with
      | some n =>
        let keyLen := publicKeyLenOf t n
        if keyLen ≤ 128 then (random.bytes.take (128 - keyLen) ++ signingKey.take keyLen, [])
        else (signingKey.take 128, (signingKey.take keyLen).drop 128)
      -- the signing key type is not supported, and the memory is left as it is
      | none => (random.bytes, [])
    let extendedLen := 4 + excess.length
    let id : IdentityEx :=
      { standardIdentity := publicKey.bytes ++ key ++ certificateTypeKey :: writeBE 2 extendedLen
        extendedLen
        -- the key types, and the rest of the key
        extendedBuffer := some (writeU16 t ++ writeU16 0 ++ excess) }
    { id with identHash := crypto.sha256 id.toBuffer }.withVerifier
  else
    let standardIdentity := publicKey.bytes ++ signingKey.take 128 ++ [0, 0, 0]
    { standardIdentity, identHash := crypto.sha256 standardIdentity : IdentityEx }.withVerifier

/-- `GetSigningPrivateKeyLen`. -/
def getSigningPrivateKeyLen (id : IdentityEx) : ℕ :=
  match id.withVerifier.verifier with
  | some v => privateKeyLenOf v.keyType
  | none => id.getSignatureLen / 2

/-- `operator=(const IdentityEx&)`. -/
def assign (other : IdentityEx) : IdentityEx :=
  { other with
    extendedBuffer := if other.extendedLen ≠ 0 then other.extendedBuffer else none
    verifier := none }

end IdentityEx

/-! ## Private keys -/

/-- A `Signer`: the key type it was created for and its private key. -/
structure Signer where
  keyType : SigningKeyType
  privateKey : List UInt8

/-- `PrivateKeys`. -/
structure PrivateKeys where
  /-- `m_Public`. -/
  pub : IdentityEx := {}
  /-- `m_PrivateKey`. -/
  privateKey : List UInt8
  /-- `m_SigningPrivateKey`, which is longer than most keys. -/
  signingPrivateKey : List UInt8
  /-- `m_Signer`. -/
  signer : Option Signer := none

/-- The random numbers of `CreateRandomKeys`, and what is in memory that it does not assign. -/
structure KeyDraws where
  elGamal : List UInt8
  signing : List UInt8
  padding : Block 128
  /-- `signing_key` of an `Identity`. -/
  identityMemory : Block 128
  /-- `m_SigningPrivateKey`. -/
  privateMemory : List UInt8

/-- `memcpy` to the start of an array. -/
def overwrite (array bytes : List UInt8) : List UInt8 := bytes ++ array.drop bytes.length

namespace PrivateKeys

variable (crypto : Crypto) (schemes : Schemes) (keys : PrivateKeys)

/-- `CreateSigner`. -/
def createSigner : PrivateKeys :=
  let t := keys.pub.getSigningKeyType
  if (signatureLenOf t).isSome then
    { keys with signer := some ⟨t, keys.signingPrivateKey.take (privateKeyLenOf t)⟩ }
  else keys

/-- `operator=(const Keys&)`. -/
def assignKeys (legacy : Keys) (memory : Block 128) : PrivateKeys :=
  let pub := IdentityEx.ofKeys crypto legacy memory
  { pub
    privateKey := legacy.privateKey.bytes
    signingPrivateKey := overwrite keys.signingPrivateKey
      (legacy.signingPrivateKey.take pub.getSigningPrivateKeyLen) : PrivateKeys }.createSigner

/-- `operator=(const PrivateKeys&)`. -/
def assign (other : PrivateKeys) : PrivateKeys :=
  let pub := other.pub.assign
  { pub
    privateKey := other.privateKey
    signingPrivateKey := overwrite keys.signingPrivateKey
      (other.signingPrivateKey.take pub.getSigningPrivateKeyLen) : PrivateKeys }.createSigner

/-- `FromBuffer`, on the memory `m` at address `pos` with `len` bytes. -/
def fromBuffer (m : Mem) (pos len : ℕ) : PrivateKeys × ℕ :=
  let (pub, ret) := keys.pub.fromBuffer crypto m pos len
  let size := pub.getSigningPrivateKeyLen
  ({ pub
     privateKey := slice m (pos + ret) 256
     signingPrivateKey := overwrite keys.signingPrivateKey (slice m (pos + ret + 256) size) :
       PrivateKeys }.createSigner, ret + 256 + size)

/-- `ToBuffer`: the bytes written. -/
def toBuffer : List UInt8 :=
  keys.pub.toBuffer ++ keys.privateKey ++
    keys.signingPrivateKey.take keys.pub.getSigningPrivateKeyLen

/-- `GetFullLen`. -/
def getFullLen : ℕ := keys.pub.getFullLen + 256 + keys.pub.getSigningPrivateKeyLen

/-- `Sign`: the signature, if there is a signer. -/
def sign (random message : List UInt8) : Option (List UInt8) :=
  keys.signer.map fun s => schemes.sign s.keyType s.privateKey random message

/-- `CreateRandomKeys()`, without a type. -/
def createRandomKeysDSA (draws : KeyDraws) : Keys :=
  let (privateKey, publicKey) := schemes.generateElGamalKeyPair draws.elGamal
  let (signingPrivateKey, signingKey) := schemes.createRandomKeys 0 draws.signing
  { privateKey, signingPrivateKey, publicKey, signingKey }

/-- `CreateRandomKeys`. -/
def createRandomKeys (t : SigningKeyType) (draws : KeyDraws) : PrivateKeys :=
  let keys : PrivateKeys := { privateKey := [], signingPrivateKey := draws.privateMemory }
  if t ≠ 0 ∧ (signatureLenOf t).isSome then
    let (signingPrivateKey, signingPublicKey) := schemes.createRandomKeys t draws.signing
    let (privateKey, publicKey) := schemes.generateElGamalKeyPair draws.elGamal
    { keys with
      pub := (IdentityEx.create crypto publicKey signingPublicKey t draws.padding).assign
      privateKey := privateKey.bytes
      signingPrivateKey := overwrite keys.signingPrivateKey signingPrivateKey }.createSigner
  -- DSA, also for a type that is not supported
  else keys.assignKeys crypto (createRandomKeysDSA schemes draws) draws.identityMemory

end PrivateKeys

/-! ## Identities and their verifiers -/

namespace IdentityEx

variable {crypto : Crypto} {id : IdentityEx} {t : SigningKeyType} {n : ℕ} {key : List UInt8}

/-- A well formed identity whose verifier is for this key type and this public key. -/
structure IsFor (crypto : Crypto) (id : IdentityEx) (t : SigningKeyType) (n : ℕ) (key : List UInt8) :
    Prop where
  wellFormed : id.WellFormed crypto
  signatureLenOf_eq : signatureLenOf t = some n
  keyType_eq : id.getSigningKeyType = t
  key_eq : id.verifierKey (publicKeyLenOf t n) = key

theorem IsFor.createVerifier_eq (h : id.IsFor crypto t n key) :
    id.createVerifier = some ⟨t, n, key⟩ := by
  rw [createVerifier, h.keyType_eq, h.signatureLenOf_eq, Option.map_some, h.key_eq]

theorem IsFor.verifier_eq (h : id.IsFor crypto t n key) :
    id.withVerifier.verifier = some ⟨t, n, key⟩ := by
  have hcreate := h.createVerifier_eq
  rw [withVerifier]
  obtain hnone | hcreated := h.wellFormed.verifier_eq
  · rw [hnone]
    exact hcreate
  · rw [hcreated, hcreate]
    exact hcreated.trans hcreate

theorem IsFor.getSigningPrivateKeyLen_eq (h : id.IsFor crypto t n key) :
    id.getSigningPrivateKeyLen = privateKeyLenOf t := by
  rw [getSigningPrivateKeyLen, h.verifier_eq]

theorem IsFor.fresh (h : id.IsFor crypto t n key) : id.fresh.IsFor crypto t n key where
  wellFormed := { h.wellFormed with verifier_eq := .inl rfl }
  signatureLenOf_eq := h.signatureLenOf_eq
  keyType_eq := h.keyType_eq
  key_eq := h.key_eq

theorem IsFor.withVerifier (h : id.IsFor crypto t n key) :
    id.withVerifier.IsFor crypto t n key := by
  rw [IdentityEx.withVerifier]
  split
  next => exact h
  next =>
    exact ⟨{ h.wellFormed with verifier_eq := .inr rfl }, h.signatureLenOf_eq, h.keyType_eq, h.key_eq⟩

theorem WellFormed.assign_eq (h : id.WellFormed crypto) : id.assign = id.fresh := by
  rw [assign, IdentityEx.fresh]
  split
  next => rfl
  next hzero => rw [h.extendedBuffer_eq_none (not_not.mp hzero)]

/-- More bytes behind the identity do not matter. -/
theorem fromBuffer_of_le (id : IdentityEx) {m : Mem} {pos len len' : ℕ}
    (hlen : readBE (slice m (pos + 385) 2) + defaultIdentitySize ≤ len) (hle : len ≤ len') :
    fromBuffer crypto id m pos len' = fromBuffer crypto id m pos len := by
  have hshort : ¬ len < defaultIdentitySize := by omega
  have hshort' : ¬ len' < defaultIdentitySize := by omega
  have hlen' := hlen.trans hle
  simp only [fromBuffer, if_neg hshort, if_neg hshort', if_pos hlen, if_pos hlen']

theorem WellFormed.fromBuffer_eq (h : id.WellFormed crypto) (id₀ : IdentityEx) {m : Mem} {pos len : ℕ}
    (hlen : id.getFullLen ≤ len) (hm : StandsAt m pos id.toBuffer) :
    fromBuffer crypto id₀ m pos len = (id.fresh, id.getFullLen) := by
  have hstandard : slice m pos defaultIdentitySize = id.standardIdentity := by
    rw [← h.length_standardIdentity]
    exact (standsAt_append.mp hm).1
  have hcertificate : readBE (slice m (pos + 385) 2) = id.extendedLen := by
    rw [h.extendedLen_eq, ← hstandard, show defaultIdentitySize = 385 + 2 from rfl,
      slice_add, List.drop_left' (length_slice _ _ _)]
  rw [fromBuffer_of_le id₀ (by rw [hcertificate]; exact Nat.le_refl _) hlen]
  exact h.fromBuffer_toBuffer id₀ hm

/-- The parts of a standard identity. -/
theorem standardIdentity_parts (id : IdentityEx) {publicKey : Block 256} {key : List UInt8} {certificate : UInt8}
    {length : List UInt8} (hkey : key.length = 128) (hlength : length.length = 2)
    (h : id.standardIdentity = publicKey.bytes ++ key ++ certificate :: length) :
    id.standardIdentity.length = defaultIdentitySize ∧ id.standardIdentity.drop 385 = length ∧
      id.certificateType = certificate ∧ id.signingKey = key := by
  have hfront : (publicKey.bytes ++ key).length = 384 := by
    rw [List.length_append, publicKey.length_bytes, hkey]
  refine ⟨?_, ?_, ?_, ?_⟩
  · rw [h, List.length_append, hfront, List.length_cons, hlength]
  · rw [h, show 385 = (publicKey.bytes ++ key).length + 1 by omega, List.drop_length_add_append]
    rfl
  · rw [certificateType, h, List.getD_eq_getElem?_getD, List.getElem?_append_right (by omega), hfront]
    rfl
  · rw [signingKey, h, List.append_assoc, List.drop_left' publicKey.length_bytes,
      List.take_left' hkey]

theorem isFor_ofKeys (keys : Keys) (memory : Block 128) :
    (ofKeys crypto keys memory).IsFor crypto 0 40 memory.bytes := by
  obtain ⟨hlength, hdrop, htype, hkey⟩ := standardIdentity_parts
    (ofKeys crypto keys memory)
    memory.length_bytes (by rfl) rfl
  refine ⟨⟨hlength, ?_, fun _ => rfl, fun hne => absurd rfl hne, ?_, .inl rfl⟩, rfl, rfl, ?_⟩
  · rw [hdrop]
    rfl
  · rw [toBuffer]
    exact congrArg crypto.sha256 (List.append_nil _).symm
  · exact (List.drop_zero).trans hkey

/-- The identity that is created for a public key. -/
theorem isFor_create (publicKey : Block 256) (random : Block 128) (ht : t ≠ 0)
    (hn : signatureLenOf t = some n) (hkey : key.length = publicKeyLenOf t n)
    (hmax : publicKeyLenOf t n ≤ 512) :
    (create crypto publicKey key t random).IsFor crypto t n key := by
  rw [create, if_pos ht, hn]
  dsimp only
  generalize hkeyLen : publicKeyLenOf t n = keyLen at hkey hmax ⊢
  -- a short key stands at the end of the signing key, a long one goes on in the extension
  obtain ⟨part, excess, hparts, hpart, hexcess, hverifier⟩ : ∃ part excess : List UInt8,
      (if keyLen ≤ 128 then (random.bytes.take (128 - keyLen) ++ key.take keyLen, [])
        else (key.take 128, (key.take keyLen).drop 128)) = (part, excess) ∧
      part.length = 128 ∧ excess.length ≤ 384 ∧
      (if keyLen ≤ 128 then part.drop (128 - keyLen) else part ++ excess.take (keyLen - 128)) =
        key := by
    have htake : key.take keyLen = key := List.take_of_length_le hkey.le
    by_cases hshort : keyLen ≤ 128
    · have hrandom : (random.bytes.take (128 - keyLen)).length = 128 - keyLen := by
        rw [List.length_take, random.length_bytes]
        omega
      refine ⟨_, _, if_pos hshort, ?_, Nat.zero_le _, ?_⟩
      · rw [List.length_append, hrandom, htake, hkey]
        omega
      · rw [if_pos hshort, List.drop_left' hrandom, htake]
    · have hrest : ((key.take keyLen).drop 128).length = keyLen - 128 := by
        rw [List.length_drop, htake, hkey]
      refine ⟨_, _, if_neg hshort, ?_, by omega, ?_⟩
      · rw [List.length_take, hkey]
        omega
      · rw [if_neg hshort, List.take_of_length_le hrest.le, htake, List.take_append_drop]
  rw [hparts]
  dsimp only
  set id : IdentityEx :=
    { standardIdentity := publicKey.bytes ++ part ++
        certificateTypeKey :: writeBE 2 (4 + excess.length)
      extendedLen := 4 + excess.length
      extendedBuffer := some (writeU16 t ++ writeU16 0 ++ excess) } with hid
  obtain ⟨hlength, hdrop, htype, hsigningKey⟩ := standardIdentity_parts id hpart
    (length_writeBE 2 _) rfl
  have hext : (writeU16 t ++ writeU16 0 ++ excess).take 2 = writeU16 t := by
    rw [List.append_assoc, List.take_left' (length_writeU16 t)]
  refine IsFor.withVerifier ⟨⟨hlength, ?_, fun hzero => ?_, fun _ => ⟨_, rfl, ?_⟩, rfl, .inl rfl⟩, hn,
    ?_, ?_⟩
  · show 4 + excess.length = readBE (id.standardIdentity.drop 385)
    rw [hdrop, readBE_writeBE]
    exact (Nat.mod_eq_of_lt (by omega)).symm
  · have : 4 + excess.length = 0 := hzero
    omega
  · show (writeU16 t ++ writeU16 0 ++ excess).length = 4 + excess.length
    rw [List.length_append, List.length_append, length_writeU16, length_writeU16]
  · show (if id.certificateType = certificateTypeKey then
      readU16 ((writeU16 t ++ writeU16 0 ++ excess).take 2) else 0) = t
    rw [if_pos htype, hext, readU16_writeU16]
  · rw [hkeyLen]
    show (if keyLen ≤ 128 then id.signingKey.drop (128 - keyLen)
      else id.signingKey ++ ((writeU16 t ++ writeU16 0 ++ excess).drop 4).take (keyLen - 128)) = key
    have hdrop4 : (writeU16 t ++ writeU16 0 ++ excess).drop 4 = excess :=
      List.drop_left' (by simp)
    rw [hsigningKey, hdrop4]
    exact hverifier

end IdentityEx

/-! ## Signing -/

/-- The schemes are correct: keys have the lengths of their type, and what is signed with a private key
is accepted with the public key. -/
structure Schemes.Correct (crypto : Crypto) (schemes : Schemes) : Prop where
  length_privateKey : ∀ t random, (signatureLenOf t).isSome →
    (schemes.createRandomKeys t random).1.length = privateKeyLenOf t
  length_publicKey : ∀ t n random, signatureLenOf t = some n →
    (schemes.createRandomKeys t random).2.length = IdentityEx.publicKeyLenOf t n
  verify_sign : ∀ t random random' message, (signatureLenOf t).isSome →
    crypto.verify t (schemes.createRandomKeys t random).2 message
      (schemes.sign t (schemes.createRandomKeys t random).1 random' message) = true

namespace PrivateKeys

variable {crypto : Crypto} {schemes : Schemes} {keys : PrivateKeys} {t : SigningKeyType} {n : ℕ}
  {key privateKey : List UInt8}

/-- Whatever the keys sign, their identity accepts. -/
def SignsAs (crypto : Crypto) (schemes : Schemes) (keys : PrivateKeys) : Prop :=
  ∀ random message, ∃ signature, keys.sign schemes random message = some signature ∧
    keys.pub.verify crypto message signature = true

/-- The verifier of the keys is made from this public key, and the keys sign for their identity, also
after they have been written and read, and after an assignment. -/
structure SignsForItself (crypto : Crypto) (schemes : Schemes) (keys : PrivateKeys)
    (publicKey : List UInt8) : Prop where
  verifier : ∃ v, keys.pub.withVerifier.verifier = some v ∧ v.publicKey = publicKey
  signs : keys.SignsAs crypto schemes
  read : ∀ (other : PrivateKeys) (m : Mem) (pos len : ℕ), keys.getFullLen ≤ len →
    StandsAt m pos keys.toBuffer → (other.fromBuffer crypto m pos len).1.SignsAs crypto schemes
  assigned : ∀ other : PrivateKeys, (other.assign keys).SignsAs crypto schemes

/-- Keys of a type, with this public and this private signing key. -/
structure HasKeys (crypto : Crypto) (keys : PrivateKeys) (t : SigningKeyType) (n : ℕ)
    (key privateKey : List UInt8) : Prop where
  isFor : keys.pub.IsFor crypto t n key
  length_privateKey : keys.privateKey.length = 256
  signingPrivateKey : keys.signingPrivateKey.take (privateKeyLenOf t) = privateKey
  length_signingPrivateKey : privateKey.length = privateKeyLenOf t
  signer : keys.signer = some ⟨t, privateKey⟩

/-- The signer is made from the private key that stands in the array. -/
theorem hasKeys_createSigner (hisFor : keys.pub.IsFor crypto t n key)
    (hlength : keys.privateKey.length = 256) (hprivate : privateKey.length = privateKeyLenOf t)
    (harray : privateKey <+: keys.signingPrivateKey) :
    keys.createSigner.HasKeys crypto t n key privateKey := by
  have htake : keys.signingPrivateKey.take (privateKeyLenOf t) = privateKey := by
    rw [← hprivate, ← List.prefix_iff_eq_take.mp harray]
  have hsome : (signatureLenOf keys.pub.getSigningKeyType).isSome = true := by
    rw [hisFor.keyType_eq, hisFor.signatureLenOf_eq]
    rfl
  rw [createSigner, if_pos hsome]
  refine ⟨hisFor, hlength, htake, hprivate, ?_⟩
  dsimp only
  rw [hisFor.keyType_eq, htake]

theorem HasKeys.signsAs (h : keys.HasKeys crypto t n key privateKey)
    (hverify : ∀ random message,
      crypto.verify t key message (schemes.sign t privateKey random message) = true) :
    keys.SignsAs crypto schemes := by
  intro random message
  refine ⟨schemes.sign t privateKey random message, ?_, ?_⟩
  · rw [sign, h.signer]
    rfl
  · rw [IdentityEx.verify, h.isFor.verifier_eq]
    exact hverify random message

theorem HasKeys.assign (h : keys.HasKeys crypto t n key privateKey) (other : PrivateKeys) :
    (other.assign keys).HasKeys crypto t n key privateKey := by
  have hisFor := h.isFor.fresh
  rw [← h.isFor.wellFormed.assign_eq] at hisFor
  refine hasKeys_createSigner hisFor h.length_privateKey h.length_signingPrivateKey ?_
  rw [overwrite, hisFor.getSigningPrivateKeyLen_eq, h.signingPrivateKey]
  exact List.prefix_append _ _

theorem HasKeys.fromBuffer (h : keys.HasKeys crypto t n key privateKey) (other : PrivateKeys) {m : Mem}
    {pos len : ℕ} (hlen : keys.getFullLen ≤ len) (hm : StandsAt m pos keys.toBuffer) :
    (other.fromBuffer crypto m pos len).1.HasKeys crypto t n key privateKey := by
  have hsize := h.isFor.getSigningPrivateKeyLen_eq
  rw [toBuffer, hsize, h.signingPrivateKey] at hm
  obtain ⟨hfront, hprivate⟩ := standsAt_append.mp hm
  obtain ⟨hpub, hprivateKey⟩ := standsAt_append.mp hfront
  rw [List.length_append, h.isFor.wellFormed.length_toBuffer, h.length_privateKey, StandsAt,
    h.length_signingPrivateKey, ← Nat.add_assoc] at hprivate
  have hread := h.isFor.wellFormed.fromBuffer_eq other.pub
    (show keys.pub.getFullLen ≤ len by rw [getFullLen] at hlen; omega) hpub
  rw [PrivateKeys.fromBuffer, hread]
  refine hasKeys_createSigner h.isFor.fresh (length_slice _ _ _) h.length_signingPrivateKey ?_
  dsimp only
  rw [overwrite, h.isFor.fresh.getSigningPrivateKeyLen_eq, hprivate]
  exact List.prefix_append _ _

theorem HasKeys.signsForItself (h : keys.HasKeys crypto t n key privateKey)
    (hverify : ∀ random message,
      crypto.verify t key message (schemes.sign t privateKey random message) = true) :
    keys.SignsForItself crypto schemes key where
  verifier := ⟨_, h.isFor.verifier_eq, rfl⟩
  signs := h.signsAs hverify
  read other _ _ _ hlen hm := (h.fromBuffer other hlen hm).signsAs hverify
  assigned other := (h.assign other).signsAs hverify

theorem publicKeyLenOf_le (h : signatureLenOf t = some n) :
    IdentityEx.publicKeyLenOf t n ≤ 512 := by
  unfold signatureLenOf at h
  unfold IdentityEx.publicKeyLenOf
  split at h <;> simp_all <;> omega

/-- Created keys have the public key that was generated; for DSA, what was in memory stands in its
place. -/
theorem hasKeys_createRandomKeys (hcorrect : schemes.Correct crypto) (hn : signatureLenOf t = some n)
    (draws : KeyDraws) :
    (createRandomKeys crypto schemes t draws).HasKeys crypto t n
      (if t = 0 then draws.identityMemory.bytes else (schemes.createRandomKeys t draws.signing).2)
      (schemes.createRandomKeys t draws.signing).1 := by
  have hsome : (signatureLenOf t).isSome = true := Option.isSome_of_eq_some hn
  have hprivate := hcorrect.length_privateKey t draws.signing hsome
  by_cases ht : t = 0
  · subst ht
    obtain rfl : 40 = n := Option.some.inj hn
    have hisFor : (IdentityEx.ofKeys crypto (createRandomKeysDSA schemes draws)
        draws.identityMemory).IsFor crypto 0 40 draws.identityMemory.bytes :=
      IdentityEx.isFor_ofKeys _ _
    rw [createRandomKeys, if_neg (fun h => h.1 rfl), if_pos rfl, assignKeys]
    dsimp only
    refine hasKeys_createSigner hisFor ?_ hprivate ?_
    · exact Block.length_bytes _
    dsimp only
    rw [hisFor.getSigningPrivateKeyLen_eq, createRandomKeysDSA, List.take_of_length_le hprivate.le]
    exact List.prefix_append _ _
  · have hisFor : (IdentityEx.create crypto (schemes.generateElGamalKeyPair draws.elGamal).2
        (schemes.createRandomKeys t draws.signing).2 t draws.padding).IsFor crypto t n
          (schemes.createRandomKeys t draws.signing).2 :=
      IdentityEx.isFor_create _ _ ht hn (hcorrect.length_publicKey t n draws.signing hn)
        (publicKeyLenOf_le hn)
    have hassigned := hisFor.fresh
    rw [← hisFor.wellFormed.assign_eq] at hassigned
    rw [createRandomKeys, if_pos ⟨ht, hsome⟩, if_neg ht]
    refine hasKeys_createSigner hassigned ?_ hprivate (List.prefix_append _ _)
    exact Block.length_bytes _

end PrivateKeys

/-- The keys that are created sign for their own identity, for every type but DSA; for DSA only if the
memory of the identity happened to hold the public key. -/
theorem signsForItself_iff {crypto : Crypto} {schemes : Schemes} (hcorrect : schemes.Correct crypto)
    (t : SigningKeyType) (ht : (signatureLenOf t).isSome = true) (draws : KeyDraws) :
    (PrivateKeys.createRandomKeys crypto schemes t draws).SignsForItself crypto schemes
        (schemes.createRandomKeys t draws.signing).2 ↔
      t ≠ 0 ∨ draws.identityMemory.bytes = (schemes.createRandomKeys t draws.signing).2 := by
  obtain ⟨n, hn⟩ := Option.isSome_iff_exists.mp ht
  have hkeys := PrivateKeys.hasKeys_createRandomKeys hcorrect hn draws
  have hverify := fun random message => hcorrect.verify_sign t draws.signing random message ht
  constructor
  · intro h
    obtain ⟨v, hv, hpublic⟩ := h.verifier
    rw [hkeys.isFor.verifier_eq] at hv
    obtain rfl := Option.some.inj hv
    refine or_iff_not_imp_left.mpr fun hzero => ?_
    rwa [if_pos (not_not.mp hzero)] at hpublic
  · intro h
    have hkey : (if t = 0 then draws.identityMemory.bytes
        else (schemes.createRandomKeys t draws.signing).2) =
          (schemes.createRandomKeys t draws.signing).2 := by
      split
      next hzero => exact h.resolve_left (not_not.mpr hzero)
      next => rfl
    rw [hkey] at hkeys
    exact hkeys.signsForItself hverify

/-! ### Examples -/

/-- A scheme whose keys consist of one byte, and whose signatures are this byte and the message. -/
def exampleSchemes : Schemes where
  createRandomKeys t random :=
    (List.replicate (privateKeyLenOf t) (random.headD 0),
      List.replicate (((signatureLenOf t).map (IdentityEx.publicKeyLenOf t)).getD 0) (random.headD 0))
  sign _ privateKey _ message := privateKey.headD 0 :: message
  generateElGamalKeyPair _ := (Block.const 0, Block.const 0)

def exampleCrypto : Crypto where
  sha256 _ := IdentHash.zero
  verify _ publicKey message signature := signature = publicKey.headD 0 :: message

theorem exampleSchemes_correct : exampleSchemes.Correct exampleCrypto where
  length_privateKey t random _ := List.length_replicate
  length_publicKey t n random hn := by
    show (List.replicate (((signatureLenOf t).map (IdentityEx.publicKeyLenOf t)).getD 0) _).length = _
    rw [hn, List.length_replicate]
    rfl
  verify_sign t random random' message ht := by
    have hhead : ∀ k : ℕ, k ≠ 0 → (List.replicate k (random.headD 0)).headD 0 = random.headD 0 :=
      fun k hk => by
        obtain ⟨k, rfl⟩ := Nat.exists_eq_succ_of_ne_zero hk
        rfl
    obtain ⟨n, hn⟩ := Option.isSome_iff_exists.mp ht
    have hprivate : privateKeyLenOf t ≠ 0 := by
      unfold privateKeyLenOf
      split <;> simp
    have hpublic : ((signatureLenOf t).map (IdentityEx.publicKeyLenOf t)).getD 0 ≠ 0 := by
      have hpos := IdentityEx.pos_of_signatureLenOf hn
      rw [hn]
      unfold IdentityEx.publicKeyLenOf
      simp only [Option.map_some, Option.getD_some]
      split <;> omega
    refine decide_eq_true ?_
    show (List.replicate _ _).headD 0 :: message = (List.replicate _ _).headD 0 :: message
    rw [hhead _ hprivate, hhead _ hpublic]

def exampleKeyDraws : KeyDraws where
  elGamal := []
  signing := [5]
  padding := Block.const 1
  identityMemory := Block.const 2
  privateMemory := List.replicate 1024 3

theorem signsForItself_exampleKeyDraws :
    (PrivateKeys.createRandomKeys exampleCrypto exampleSchemes 7 exampleKeyDraws).SignsForItself
      exampleCrypto exampleSchemes (exampleSchemes.createRandomKeys 7 [5]).2 :=
  (signsForItself_iff exampleSchemes_correct 7 rfl exampleKeyDraws).mpr (.inl (by decide))

/-- Keys of type DSA do not. -/
theorem not_signsForItself_exampleKeyDraws :
    ¬ (PrivateKeys.createRandomKeys exampleCrypto exampleSchemes 0 exampleKeyDraws).SignsForItself
      exampleCrypto exampleSchemes (exampleSchemes.createRandomKeys 0 [5]).2 := by
  intro h
  obtain ⟨v, hv, hpublic⟩ := h.verifier
  have hlength : signatureLenOf 0 = some 40 := rfl
  have hkeys := PrivateKeys.hasKeys_createRandomKeys exampleSchemes_correct hlength exampleKeyDraws
  rw [hkeys.isFor.verifier_eq] at hv
  obtain rfl := Option.some.inj hv
  revert hpublic
  decide

end Identity
