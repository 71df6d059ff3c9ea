import Xi2p.PrivateKeys
import Xi2p.Router.RoundTrip

/-!
# The buffer of a created router info

`CreateBuffer` of `core/router/info.cc`. It tests the size of the encoding, and then has the signature
written behind it, into a buffer of `MaxBuffer` bytes.

* `createsAcceptable_iff`: the encodings for which the signature has room.
-/

namespace Identity

open Bytes

/-! ## Signatures -/

/-- What the keys sign is accepted by their identity, and a signature has the length that the identity
gives. -/
structure PrivateKeys.Signing (crypto : Crypto) (schemes : Schemes) (keys : PrivateKeys) : Prop where
  wellFormed : keys.pub.WellFormed crypto
  signs : keys.SignsAs crypto schemes
  length_signature : ∀ random message signature, keys.sign schemes random message = some signature →
    signature.length = keys.pub.getSignatureLen

theorem PrivateKeys.HasKeys.signing {crypto : Crypto} {schemes : Schemes} {keys : PrivateKeys}
    {t : SigningKeyType} {n : ℕ} {key privateKey : List UInt8}
    (h : keys.HasKeys crypto t n key privateKey)
    (hverify : ∀ random message,
      crypto.verify t key message (schemes.sign t privateKey random message) = true)
    (hlength : ∀ random message, (schemes.sign t privateKey random message).length = n) :
    keys.Signing crypto schemes where
  wellFormed := h.isFor.wellFormed
  signs := h.signsAs hverify
  length_signature random message signature hsign := by
    rw [sign, h.signer, Option.map_some] at hsign
    obtain rfl := Option.some.inj hsign
    rw [IdentityEx.getSignatureLen, h.isFor.verifier_eq]
    exact hlength random message

/-- An identity that has been read has the same verifier. -/
theorem IdentityEx.WellFormed.verifier_fresh {crypto : Crypto} {id : IdentityEx}
    (h : id.WellFormed crypto) : id.fresh.withVerifier.verifier = id.withVerifier.verifier := by
  have hfresh : id.fresh.withVerifier.verifier = id.createVerifier := rfl
  rw [hfresh, withVerifier]
  rcases h.verifier_eq with hnone | hcreated
  · rw [hnone]
  · cases hv : id.verifier with
    | none => rfl
    | some v =>
      dsimp only
      rw [← hcreated, hv]

theorem IdentityEx.WellFormed.verify_fresh {crypto : Crypto} {id : IdentityEx}
    (h : id.WellFormed crypto) (message signature : List UInt8) :
    id.fresh.verify crypto message signature = id.verify crypto message signature := by
  rw [verify, verify, h.verifier_fresh]

end Identity

namespace Router

open Bytes I2NP Identity

namespace RouterInfo

/-! ## Creating the buffer -/

/-- `CreateBuffer`, at time `now`. The buffer has `MaxBuffer` bytes, and a write behind them is one to
the memory that follows. -/
def createBuffer (w : WriteEnv) (schemes : Schemes) (keys : PrivateKeys) (random : List UInt8)
    (now : UInt64) (ambient : Ambient) (r : RouterInfo) : Except Failure Unit × RouterInfo :=
  match createRouterInfo w keys.pub now r.contents with
  | .error e =>
    -- the timestamp is set once the identity has been written
    (.error e,
      if 1024 < keys.pub.toBuffer.length then r else { r with contents.timestamp := now })
  | .ok (contents, encoding) =>
    if maxBuffer < encoding.length then
      (.error (.lengthError "created RI is too big"), { r with contents })
    else
      let m := store (r.buffer.getD (ambient.newBuffer maxBuffer)) 0 encoding
      -- without a signer nothing is written
      let m := match keys.sign schemes random (slice m 0 encoding.length) with
        | some signature => store m encoding.length signature
        | none => m
      (.ok (), { r with
        contents
        buffer := some m
        bufferLen := encoding.length + keys.pub.getSignatureLen })

/-- The buffer fits and holds the encoding and its signature, and any router that is sent these bytes
takes them for a router info with a valid signature. -/
def Acceptable (env : Env) (schemes : Schemes) (keys : PrivateKeys) (random encoding : List UInt8)
    (r : RouterInfo) : Prop :=
  r.bufferLen ≤ maxBuffer ∧ ∃ m signature, r.buffer = some m ∧
    keys.sign schemes random encoding = some signature ∧
    slice m 0 r.bufferLen = encoding ++ signature ∧
    ∀ ambient, maxBuffer ≤ ambient.fuel →
      ∃ accepted, ofBuffer env ambient (encoding ++ signature) = .ok (true, accepted)

/-- `CreateBuffer` throws, or leaves an acceptable buffer with what `CreateRouterInfo` has written. -/
def CreatesAcceptable (env : Env) (w : WriteEnv) (schemes : Schemes) (keys : PrivateKeys)
    (random : List UInt8) (now : UInt64) (ambient : Ambient) (r : RouterInfo) : Prop :=
  ∀ r', r.createBuffer w schemes keys random now ambient = (.ok (), r') →
    ∃ encoding, createRouterInfo w keys.pub now r.contents = .ok (r'.contents, encoding) ∧
      r'.Acceptable env schemes keys random encoding

end RouterInfo

/-! ## Sizes -/

/-- The size of key pairs. -/
def keyPairsSize (pairs : List KeyPair) : ℕ :=
  (pairs.map fun pair => pair.1.length + pair.2.length + 4).sum

/-- The size of an address: cost, date, transport and options. -/
def addressSize (w : WriteEnv) (caps : List UInt8) (a : Address) : ℕ :=
  1 + 8 + (1 + a.transport.name.length) + (2 + keyPairsSize (addressPairs w caps a))

/-- The size of an encoding: identity, timestamp, addresses, peers and options. -/
def encodingSize (w : WriteEnv) (identity : IdentityEx) (c : Contents) : ℕ :=
  identity.getFullLen + 8 + (1 + (c.addresses.map (addressSize w (ssuCapsFlags c))).sum) + 1 +
    (2 + keyPairsSize c.options)

theorem length_keyPairsBytes (pairs : List KeyPair) :
    (keyPairsBytes pairs).length = keyPairsSize pairs := by
  rw [keyPairsBytes, List.length_flatMap, keyPairsSize]
  congr 2
  funext pair
  exact length_keyPairBytes pair

theorem length_addressBytes_eq (w : WriteEnv) (caps : List UInt8) (a : Address) :
    (addressBytes w caps a).length = addressSize w caps a := by
  simp only [addressBytes, List.length_append, List.length_cons, List.length_reverse, length_writeBE,
    length_optionsBytes, length_keyPairsBytes, addressSize]
  omega

theorem length_encoding {crypto : Crypto} {identity : IdentityEx} (h : identity.WellFormed crypto)
    (w : WriteEnv) (now : UInt64) (c : Contents) :
    (identity.toBuffer ++ writeBE 8 now.toNat ++ membersBytes w c).length =
      encodingSize w identity c := by
  have haddresses : (c.addresses.flatMap (addressBytes w (ssuCapsFlags c))).length =
      (c.addresses.map (addressSize w (ssuCapsFlags c))).sum := by
    rw [List.length_flatMap]
    congr 2
    funext a
    exact length_addressBytes_eq w _ a
  simp only [membersBytes, List.length_append, List.length_cons, length_writeBE, h.length_toBuffer,
    length_optionsBytes, length_keyPairsBytes, haddresses, encodingSize]
  omega

@[simp]
theorem keyPairsSize_append (ps qs : List KeyPair) :
    keyPairsSize (ps ++ qs) = keyPairsSize ps + keyPairsSize qs := by
  simp [keyPairsSize]

@[simp]
theorem keyPairsSize_cons (key value : List UInt8) (ps : List KeyPair) :
    keyPairsSize ((key, value) :: ps) = key.length + value.length + 4 + keyPairsSize ps :=
  List.sum_cons

/-- Each introducer takes some of the bytes. -/
theorem length_introducers_le (w : WriteEnv) (count : UInt8) (introducers : List Introducer) :
    38 * introducers.length ≤ keyPairsSize (introducersPairs w count introducers) := by
  induction introducers generalizing count with
  | nil => exact Nat.le_refl 0
  | cons introducer introducers ih =>
    have hihost : (trait "ihost").length = 5 := by decide +kernel
    have hikey : (trait "ikey").length = 4 := by decide +kernel
    have hiport : (trait "iport").length = 5 := by decide +kernel
    have hitag : (trait "itag").length = 4 := by decide +kernel
    have hrest := ih (count + 1)
    simp only [introducersPairs, introducerPairs, characterText, keyPairsSize_append,
      keyPairsSize_cons, List.length_append, List.length_cons, List.length_nil, hihost, hikey,
      hiport, hitag]
    omega

/-- An encoding that fits the buffer has few introducers in each address. -/
theorem introducers_le_of_encodingSize_le {w : WriteEnv} {identity : IdentityEx} {c : Contents}
    (h : encodingSize w identity c ≤ maxBuffer) {a : Address} (ha : a ∈ c.addresses)
    (hssu : a.transport = .ssu) : a.introducers.length ≤ 48 := by
  have hpairs := length_introducers_le w 0 a.introducers
  have haddress : addressSize w (ssuCapsFlags c) a ≤
      (c.addresses.map (addressSize w (ssuCapsFlags c))).sum :=
    List.le_sum_of_mem (List.mem_map_of_mem ha)
  have hoptions : keyPairsSize (introducersPairs w 0 a.introducers) ≤
      keyPairsSize (addressPairs w (ssuCapsFlags c) a) := by
    simp only [addressPairs, ssuPairs, if_pos hssu, keyPairsSize_append, keyPairsSize_cons]
    omega
  -- the identity alone takes 387 of the 2048 bytes
  simp only [encodingSize, IdentityEx.getFullLen, defaultIdentitySize, addressSize, maxBuffer] at h haddress
  omega

namespace RouterInfo

variable {env : Env} {w : WriteEnv} {schemes : Schemes} {keys : PrivateKeys} {random : List UInt8}
  {now : UInt64} {c : Contents}

/-! ## Reading the buffer -/

/-- A router info that has been written and signed is accepted. -/
theorem ofBuffer_signed {identity : IdentityEx} (hidentity : identity.WellFormed env.crypto)
    (hnumbers : env.parse.ReadsNumbers) (hc : c.Encodable env.parse w) (now : UInt64)
    {encoding signature : List UInt8}
    (hencoding : encoding = identity.toBuffer ++ writeBE 8 now.toNat ++ membersBytes w c)
    (hlength : signature.length = identity.getSignatureLen)
    (hverify : identity.verify env.crypto encoding signature = true)
    (hfit : (encoding ++ signature).length ≤ maxBuffer) {ambient : Ambient}
    (hfuel : maxBuffer ≤ ambient.fuel) :
    ∃ accepted, ofBuffer env ambient (encoding ++ signature) = .ok (true, accepted) := by
  have hfull := hidentity.length_toBuffer
  have hlen : (encoding ++ signature).length =
      identity.getFullLen + 8 + (membersBytes w c).length + identity.getSignatureLen := by
    simp only [hencoding, List.length_append, hfull, length_writeBE, hlength]
  have hmin : defaultIdentitySize ≤ identity.getFullLen := Nat.le_add_left _ _
  have hbounds : ¬ ((encoding ++ signature).length < minBuffer ∨
      maxBuffer < (encoding ++ signature).length) := by
    simp only [minBuffer, defaultIdentitySize] at hmin ⊢
    omega
  rw [ofBuffer, if_neg hbounds]
  dsimp only
  set m := store (ambient.newBuffer maxBuffer) 0 (encoding ++ signature)
  have hm : StandsAt m 0 (encoding ++ signature) := standsAt_store _ _ _
  obtain ⟨hmEncoding, hmSignature⟩ := standsAt_append.mp hm
  have hmIdentity : StandsAt m 0 identity.toBuffer := by
    rw [hencoding, List.append_assoc] at hmEncoding
    exact (standsAt_append.mp hmEncoding).1
  -- the identity, and what stands behind it
  have hread := hidentity.fromBuffer_eq {} (show identity.getFullLen ≤ (encoding ++ signature).length
    by omega) hmIdentity
  have hrest : slice m identity.getFullLen ((encoding ++ signature).length - identity.getFullLen) =
      writeBE 8 now.toNat ++ membersBytes w c ++ signature := by
    have hall : encoding ++ signature =
        identity.toBuffer ++ (writeBE 8 now.toNat ++ membersBytes w c ++ signature) := by
      simp only [hencoding, List.append_assoc]
    rw [hall] at hm
    obtain ⟨-, hbehind⟩ := standsAt_append.mp hm
    rw [Nat.zero_add, hfull] at hbehind
    have hsize : (encoding ++ signature).length - identity.getFullLen =
        (writeBE 8 now.toNat ++ membersBytes w c ++ signature).length := by
      rw [hall, List.length_append, hfull, Nat.add_sub_cancel_left]
    rw [hsize]
    exact hbehind
  obtain ⟨c', hparse, -⟩ := parseContents_written hnumbers hc (by omega) hfuel 0 now signature
  -- the signature, behind what has been signed
  have hsigned : ((encoding ++ signature).length + 65536 - identity.getSignatureLen) % 65536 =
      encoding.length := by
    rw [List.length_append, hlength] at hfit ⊢
    simp only [maxBuffer] at hfit
    omega
  have hvalid : verify env.crypto identity.fresh m (encoding ++ signature).length = true := by
    rw [verify, hidentity.getSignatureLen_fresh, hsigned, hidentity.verify_fresh, ← hlength, hmEncoding,
      ← Nat.zero_add encoding.length, hmSignature]
    exact hverify
  have hne : identity.getFullLen ≠ 0 := by
    simp only [defaultIdentitySize] at hmin
    omega
  have hbuffer : ∃ accepted, readFromBuffer env ambient true
      { buffer := some m, bufferLen := (encoding ++ signature).length } m =
        (.ok (some true), accepted) := by
    rw [readFromBuffer]
    dsimp only
    rw [hread]
    dsimp only
    rw [if_neg hne, hrest, hparse]
    dsimp only
    rw [if_pos rfl, hvalid]
    exact ⟨_, rfl⟩
  obtain ⟨accepted, hbuffer⟩ := hbuffer
  rw [hbuffer]
  exact ⟨_, rfl⟩

/-! ## The room for the signature -/

/-- What fits and is not too big is written, and the signature behind it. -/
theorem createBuffer_of_fits (hkeys : keys.Signing env.crypto schemes) {r : RouterInfo}
    (hfits : w.Fits keys.pub r.contents) (hsize : encodingSize w keys.pub r.contents ≤ maxBuffer)
    (random : List UInt8) (now : UInt64) (ambient : Ambient) :
    ∃ encoding m signature, encoding.length = encodingSize w keys.pub r.contents ∧
      encoding = keys.pub.toBuffer ++ writeBE 8 now.toNat ++ membersBytes w r.contents ∧
      signature.length = keys.pub.getSignatureLen ∧
      keys.sign schemes random encoding = some signature ∧
      keys.pub.verify env.crypto encoding signature = true ∧
      StandsAt m 0 (encoding ++ signature) ∧
      r.createBuffer w schemes keys random now ambient = (.ok (), { r with
        contents := { r.contents with timestamp := now }
        buffer := some m
        bufferLen := (encoding ++ signature).length }) := by
  set encoding := keys.pub.toBuffer ++ writeBE 8 now.toNat ++ membersBytes w r.contents with hencoding
  have hlen : encoding.length = encodingSize w keys.pub r.contents :=
    length_encoding hkeys.wellFormed w now r.contents
  have hcreate : createRouterInfo w keys.pub now r.contents =
      .ok ({ r.contents with timestamp := now }, encoding) :=
    createRouterInfo_eq_ok_iff_fits.mpr ⟨hfits, rfl⟩
  obtain ⟨signature, hsign, hverify⟩ := hkeys.signs random encoding
  have hlength := hkeys.length_signature random encoding signature hsign
  set m := store (r.buffer.getD (ambient.newBuffer maxBuffer)) 0 encoding with hm
  have hstands : StandsAt m 0 encoding := standsAt_store _ _ _
  refine ⟨encoding, store m encoding.length signature, signature, hlen, rfl, hlength, hsign, hverify,
    standsAt_append.mpr ⟨hstands.store_of_le (by omega), ?_⟩, ?_⟩
  · rw [Nat.zero_add]
    exact standsAt_store _ _ _
  · have hsmall : ¬ maxBuffer < encoding.length := by omega
    have htotal : (encoding ++ signature).length = encoding.length + keys.pub.getSignatureLen := by
      rw [List.length_append, hlength]
    rw [createBuffer, hcreate]
    dsimp only
    rw [if_neg hsmall, ← hm, hstands, hsign, htotal]

/-- `CreateBuffer` throws, or leaves a buffer that is accepted, if the encoding does not fit its fields
or the buffer, or the signature has room behind it. -/
theorem createsAcceptable_iff (hkeys : keys.Signing env.crypto schemes)
    (hnumbers : env.parse.ReadsNumbers) {r : RouterInfo}
    (hreads : ∀ a ∈ r.contents.addresses, env.parse.ReadsAddress w a)
    (hsorted : KeyedSet.Sorted optionKey r.contents.options) (random : List UInt8) (now : UInt64)
    (ambient : Ambient) :
    r.CreatesAcceptable env w schemes keys random now ambient ↔
      (w.Fits keys.pub r.contents → encodingSize w keys.pub r.contents ≤ maxBuffer →
        encodingSize w keys.pub r.contents + keys.pub.getSignatureLen ≤ maxBuffer) := by
  constructor
  · intro h hfits hsize
    obtain ⟨encoding, m, signature, hlen, -, hlength, -, -, -, hcreate⟩ :=
      createBuffer_of_fits hkeys hfits hsize random now ambient
    obtain ⟨_, -, hbuffer, -⟩ := h _ hcreate
    rw [← hlen, ← hlength, ← List.length_append]
    exact hbuffer
  · intro h r' hr'
    -- it does not throw, so everything fits
    have hfits : w.Fits keys.pub r.contents := by
      by_contra hfits
      cases hcreate : createRouterInfo w keys.pub now r.contents with
      | ok created => exact hfits (createRouterInfo_eq_ok_iff_fits.mp hcreate).1
      | error e =>
        rw [createBuffer, hcreate] at hr'
        cases hr'
    have hcreated : createRouterInfo w keys.pub now r.contents = .ok ({ r.contents with timestamp := now },
        keys.pub.toBuffer ++ writeBE 8 now.toNat ++ membersBytes w r.contents) :=
      createRouterInfo_eq_ok_iff_fits.mpr ⟨hfits, rfl⟩
    have hsize : encodingSize w keys.pub r.contents ≤ maxBuffer := by
      by_contra hbig
      rw [← length_encoding hkeys.wellFormed w now] at hbig
      rw [createBuffer, hcreated] at hr'
      dsimp only at hr'
      rw [if_pos (Nat.not_le.mp hbig)] at hr'
      cases hr'
    obtain ⟨encoding, m, signature, hlen, hencoding, hlength, hsign, hverify, hstands, hcreate⟩ :=
      createBuffer_of_fits hkeys hfits hsize random now ambient
    rw [hcreate] at hr'
    obtain rfl := (Prod.mk.inj hr').2
    have hroom : (encoding ++ signature).length ≤ maxBuffer := by
      rw [List.length_append, hlen, hlength]
      exact h hfits hsize
    have hc : r.contents.Encodable env.parse w :=
      ⟨hreads, hfits.address, fun a ha hssu => introducers_le_of_encodingSize_le hsize ha hssu, hsorted,
        hfits.options⟩
    rw [← hencoding] at hcreated
    exact ⟨encoding, hcreated, hroom, m, signature, rfl, hsign, hstands, fun ambient' hfuel =>
      ofBuffer_signed hkeys.wellFormed hnumbers hc now hencoding hlength hverify hroom hfuel⟩

end RouterInfo

/-! ### Examples -/

/-- Keys of one byte, which is added to the bytes of the message. -/
def sumSchemes : Schemes where
  createRandomKeys := exampleSchemes.createRandomKeys
  sign t privateKey _ message :=
    List.replicate ((signatureLenOf t).getD 0) (message.foldl (· + ·) (privateKey.headD 0))
  generateElGamalKeyPair := exampleSchemes.generateElGamalKeyPair

/-- The texts of `exampleReadEnv`, and the signatures of `sumSchemes`. -/
def sumEnv : Env where
  crypto :=
    { sha256 := fun _ => IdentHash.zero
      verify := fun t publicKey message signature => signature =
        List.replicate ((signatureLenOf t).getD 0) (message.foldl (· + ·) (publicKey.headD 0)) }
  parse := exampleReadEnv.parse

/-- Keys of EdDSA. -/
def sumKeys : PrivateKeys := PrivateKeys.createRandomKeys sumEnv.crypto sumSchemes 7 exampleKeyDraws

theorem sumSchemes_correct : sumSchemes.Correct sumEnv.crypto where
  length_privateKey := exampleSchemes_correct.length_privateKey
  length_publicKey := exampleSchemes_correct.length_publicKey
  verify_sign t random random' message ht := by
    have hheads : (sumSchemes.createRandomKeys t random).1.headD 0 =
        (sumSchemes.createRandomKeys t random).2.headD 0 := by
      have h := of_decide_eq_true (exampleSchemes_correct.verify_sign t random [] [] ht)
      exact (List.cons.inj h).1
    refine decide_eq_true ?_
    show List.replicate _ _ = List.replicate _ _
    rw [hheads]

theorem sumKeys_signing : sumKeys.Signing sumEnv.crypto sumSchemes := by
  have hlength : signatureLenOf 7 = some 64 := rfl
  have hkeys := PrivateKeys.hasKeys_createRandomKeys sumSchemes_correct hlength exampleKeyDraws
  rw [if_neg (by decide)] at hkeys
  exact hkeys.signing (fun random message => sumSchemes_correct.verify_sign 7 _ random message rfl)
    fun random message => List.length_replicate

/-- A router info that is not far below the limit. -/
def crowdedInfo : Contents where
  options := (List.range 6).map (fun i => ([UInt8.ofNat (97 + i)], List.replicate 255 120)) ++
    [([122], List.replicate 60 120)]

namespace RouterInfo

theorem createsAcceptable_plainInfo :
    RouterInfo.CreatesAcceptable sumEnv exampleWriteEnv sumSchemes sumKeys [] 1 exampleRun
      { contents := plainInfo } := by
  have hsize : encodingSize exampleWriteEnv sumKeys.pub plainInfo + sumKeys.pub.getSignatureLen ≤
      maxBuffer := by decide +kernel
  exact (createsAcceptable_iff sumKeys_signing exampleReadEnv_readsNumbers
    plainInfo_writable.reads_address plainInfo_writable.options_sorted [] 1 exampleRun).mpr
      fun _ _ => hsize

/-- The signature of 64 bytes goes 44 bytes beyond the buffer. -/
theorem not_createsAcceptable_crowdedInfo :
    ¬ RouterInfo.CreatesAcceptable sumEnv exampleWriteEnv sumSchemes sumKeys [] 1 exampleRun
      { contents := crowdedInfo } := by
  intro h
  have hidentity : sumKeys.pub.toBuffer.length ≤ 1024 := by decide +kernel
  have hoptions : PairsFit crowdedInfo.options := by
    rw [PairsFit]
    decide +kernel
  have hsize : encodingSize exampleWriteEnv sumKeys.pub crowdedInfo = 2028 := by decide +kernel
  have hlength : sumKeys.pub.getSignatureLen = 64 := by decide +kernel
  obtain ⟨encoding, m, signature, hencoding, -, hsignature, -, -, -, hcreate⟩ :=
    createBuffer_of_fits (r := { contents := crowdedInfo }) sumKeys_signing
      ⟨hidentity, nofun, hoptions⟩ (hsize.trans_le (by decide)) [] 1 exampleRun
  obtain ⟨_, -, hbuffer, -⟩ := h _ hcreate
  have htotal : (encoding ++ signature).length = 2092 := by
    rw [List.length_append, hencoding, hsize, hsignature, hlength]
  have hfits : (encoding ++ signature).length ≤ maxBuffer := hbuffer
  rw [htotal] at hfits
  exact absurd hfits (by decide)

end RouterInfo

end Router
