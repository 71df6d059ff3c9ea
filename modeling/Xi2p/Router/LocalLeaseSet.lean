import Xi2p.Router.LeaseSetBounds
import Xi2p.Router.SignedBuffer

/-!
# Local lease sets

`LeaseSet(pool)` of `core/router/lease_set.cc`: the lease set of a local destination is written into a
buffer of `MAX_LS_BUFFER_SIZE` bytes, signed, and read as if it came from the network.

* `roundTrips_iff`: it is read as it was written, and valid, if there is an inbound tunnel.
-/

namespace Router

open Bytes I2NP Identity CBC

/-! ## Writing -/

/-- `MAX_LS_BUFFER_SIZE`. -/
abbrev maxLSBufferSize : ℕ := 3072

/-- What a lease set uses of a `LocalDestination`. -/
structure LocalDestination where
  /-- `GetPrivateKeys`. -/
  keys : PrivateKeys
  /-- `GetEncryptionPublicKey`. -/
  encryptionPublicKey : Block 256

/-- What a lease set uses of an `InboundTunnel`. -/
structure InboundTunnel where
  /-- `GetNextIdentHash`. -/
  nextIdentHash : IdentHash
  /-- `GetNextTunnelID`. -/
  nextTunnelID : UInt32
  /-- `GetCreationTime`, in seconds. -/
  creationTime : UInt64
  /-- `IsEstablished`. -/
  isEstablished : Bool

/-- `GetInboundTunnels`: the loop stops at `num` tunnels. -/
def getInboundTunnels : ℕ → List InboundTunnel → List InboundTunnel
  | 0, _ => []
  | _, [] => []
  | num + 1, t :: tunnels =>
    if t.isEstablished then t :: getInboundTunnels num tunnels
    else getInboundTunnels (num + 1) tunnels

/-- The lease of a tunnel. It ends one minute before the tunnel, up to some random milliseconds. -/
def InboundTunnel.lease (t : InboundTunnel) (random : UInt64) : Lease where
  tunnelGateway := t.nextIdentHash
  tunnelID := t.nextTunnelID
  -- `TUNNEL_EXPIRATION_TIMEOUT` and `TUNNEL_EXPIRATION_THRESHOLD`
  endDate := (t.creationTime + 660 - 60) * 1000 + random

/-- In numbers, unless the milliseconds do not fit. -/
theorem InboundTunnel.toNat_endDate (t : InboundTunnel) (random : UInt64)
    (h : (t.creationTime.toNat + 660) * 1000 + random.toNat < 2 ^ 64) :
    (t.lease random).endDate.toNat = (t.creationTime.toNat + 660 - 60) * 1000 + random.toNat := by
  have hsum : (t.creationTime + 660 - 60).toNat = t.creationTime.toNat + 660 - 60 := by
    rw [UInt64.toNat_sub, UInt64.toNat_add]
    show (2 ^ 64 - 60 + (t.creationTime.toNat + 660) % 2 ^ 64) % 2 ^ 64 = _
    omega
  rw [lease, UInt64.toNat_add, UInt64.toNat_mul, hsum]
  show ((t.creationTime.toNat + 660 - 60) * 1000 % 2 ^ 64 + random.toNat) % 2 ^ 64 = _
  omega

/-- A lease as it is written. -/
def Lease.toBytes (lease : Lease) : List UInt8 :=
  lease.tunnelGateway.bytes ++ (writeU32 lease.tunnelID ++ writeBE 8 lease.endDate.toNat)

/-- What a call finds outside. -/
structure LocalOutside where
  ambient : Ambient
  /-- `RandInRange32(0, 5)`, for one tunnel after the other. -/
  random : ℕ → UInt64
  /-- The random numbers of a signature. -/
  signing : List UInt8

namespace LeaseSet

variable (crypto : Crypto) (schemes : Schemes) (outside : LocalOutside)

/-- The leases of tunnels. -/
def localLeases (tunnels : List InboundTunnel) : List Lease :=
  tunnels.mapIdx fun i t => t.lease (outside.random i)

/-- What is signed: identity, encryption key, unused signing key, and the leases. -/
def localBytes (destination : LocalDestination) (leases : List Lease) : List UInt8 :=
  let identity := destination.keys.pub
  identity.toBuffer ++ (destination.encryptionPublicKey.bytes ++
    (List.replicate (signingPublicKeyLen identity) 0 ++
      (UInt8.ofNat leases.length :: leases.flatMap Lease.toBytes)))

/-- `LeaseSet(pool)`. -/
def ofPool (destination : Option LocalDestination) (tunnels : List InboundTunnel) :
    Except Failure LeaseSet :=
  match destination with
  | none => .ok { isValid := false, buffer := outside.ambient.newBuffer 0, bufferLen := 0 }
  | some destination =>
    let identity := destination.keys.pub
    if maxLSBufferSize < identity.toBuffer.length then
      .error (.lengthError "IdentityEx: supplied buffer is too small")
    else
      -- 5 tunnels maximum
      let leases := localLeases outside (getInboundTunnels 5 tunnels)
      let bytes := localBytes destination leases
      let m := store (outside.ambient.newBuffer maxLSBufferSize) 0 bytes
      let m := match destination.keys.sign schemes outside.signing (slice m 0 bytes.length) with
        | some signature => store m bytes.length signature
        | none => m
      .ok (readFromBuffer crypto
        { buffer := m, bufferLen := bytes.length + identity.getSignatureLen })

/-! ## Reading -/

@[simp]
theorem length_toBytes (lease : Lease) : lease.toBytes.length = 44 := by
  simp [Lease.toBytes]

theorem leaseAt_eq {m : Mem} {pos : ℕ} {lease : Lease} (h : StandsAt m pos lease.toBytes) :
    leaseAt m pos = lease := by
  obtain ⟨hgateway, h⟩ := standsAt_append.mp h
  obtain ⟨hid, hend⟩ := standsAt_append.mp h
  rw [IdentHash.length_eq] at hid hend
  rw [length_writeU32, Nat.add_assoc] at hend
  rw [StandsAt, IdentHash.length_eq] at hgateway
  have hdate : readBE (slice m (pos + 36) 8) = lease.endDate.toNat :=
    hend.readBE_eq.trans (Nat.mod_eq_of_lt lease.endDate.toNat_lt)
  rw [leaseAt, IdentHash.ofMem, hid.readU32_eq, hdate, UInt64.ofNat_toNat]
  simp only [hgateway]

/-- Leases are read one after the other. -/
theorem map_leaseAt_eq {m : Mem} {pos : ℕ} {leases : List Lease}
    (h : StandsAt m pos (leases.flatMap Lease.toBytes)) :
    (List.range leases.length).map (fun i => leaseAt m (pos + 44 * i)) = leases := by
  induction leases generalizing pos with
  | nil => rfl
  | cons lease leases ih =>
    obtain ⟨hfirst, hrest⟩ := standsAt_append.mp h
    rw [length_toBytes] at hrest
    have hothers := ih hrest
    rw [List.length_cons, List.range_succ_eq_map, List.map_cons, List.map_map, Nat.mul_zero,
      Nat.add_zero, leaseAt_eq hfirst]
    refine congrArg _ (Eq.trans ?_ hothers)
    congr 1
    funext i
    show leaseAt m (pos + 44 * (i + 1)) = _
    rw [Nat.mul_succ, Nat.add_comm (44 * i), Nat.add_assoc]

variable {crypto schemes outside} {destination : LocalDestination} {leases : List Lease}

theorem signingPublicKeyLen_fresh {id : IdentityEx} (h : id.WellFormed crypto) :
    signingPublicKeyLen id.fresh = signingPublicKeyLen id := by
  rw [signingPublicKeyLen, signingPublicKeyLen, h.verifier_fresh]

theorem length_localBytes (h : destination.keys.pub.WellFormed crypto) (leases : List Lease) :
    (localBytes destination leases).length =
      destination.keys.pub.getFullLen + 256 + signingPublicKeyLen destination.keys.pub + 1 +
        44 * leases.length := by
  have hleases : (leases.flatMap Lease.toBytes).length = 44 * leases.length := by
    simp [List.length_flatMap, Nat.mul_comm]
  simp only [localBytes, List.length_append, List.length_cons, List.length_replicate, hleases,
    h.length_toBuffer, Block.length_bytes]
  omega

theorem bufferLen_readFromBuffer (crypto : Crypto) (l : LeaseSet) :
    (l.readFromBuffer crypto).bufferLen = l.bufferLen := rfl

/-- What has been written and signed is read back. -/
theorem readFromBuffer_localBytes (hidentity : destination.keys.pub.WellFormed crypto)
    (hnum : leases.length < 256) {signature : List UInt8}
    (hlength : signature.length = destination.keys.pub.getSignatureLen)
    (hverify : destination.keys.pub.verify crypto (localBytes destination leases) signature = true)
    {l : LeaseSet} (hm : StandsAt l.buffer 0 (localBytes destination leases ++ signature))
    (hlen : destination.keys.pub.getFullLen ≤ l.bufferLen) :
    l.readFromBuffer crypto = { l with
      isValid := l.isValid && !leases.isEmpty
      leases := l.leases ++ leases
      identity := destination.keys.pub.fresh.withVerifier
      encryptionKey := destination.encryptionPublicKey.bytes } := by
  set identity := destination.keys.pub with hpub
  obtain ⟨hbytes, hsignature⟩ := standsAt_append.mp hm
  rw [Nat.zero_add, length_localBytes hidentity] at hsignature
  have hsigned : slice l.buffer 0 (identity.getFullLen + 256 + signingPublicKeyLen identity + 1 +
      44 * leases.length) = localBytes destination leases := by
    rw [← length_localBytes hidentity]
    exact hbytes
  obtain ⟨hid, hparts⟩ := standsAt_append.mp hbytes
  rw [Nat.zero_add, ← hpub, hidentity.length_toBuffer] at hparts
  obtain ⟨hkey, hparts⟩ := standsAt_append.mp hparts
  rw [Block.length_bytes] at hparts
  rw [StandsAt, Block.length_bytes] at hkey
  obtain ⟨-, hparts⟩ := standsAt_append.mp hparts
  rw [List.length_replicate] at hparts
  obtain ⟨hcount, hleases⟩ := standsAt_cons.mp hparts
  have hcount' : (l.buffer (identity.getFullLen + 256 + signingPublicKeyLen identity)).toNat =
      leases.length := by
    rw [hcount, UInt8.toNat_ofNat', Nat.mod_eq_of_lt hnum]
  have hread := hidentity.fromBuffer_eq l.identity hlen hid
  have hempty : decide (leases.length ≠ 0) = !leases.isEmpty := by
    cases leases with
    | nil => rfl
    | cons => rfl
  rw [StandsAt, hlength] at hsignature
  rw [readFromBuffer, hread]
  dsimp only
  rw [signingPublicKeyLen_fresh hidentity, hcount', hidentity.getSignatureLen_fresh,
    hidentity.verify_fresh, hsigned, hsignature, hverify, map_leaseAt_eq hleases, hkey, hempty,
    Bool.and_true]

/-! ## Sizes -/

/-- The certificate has key types and the part of the signing key that the standard identity has no
room for, and nothing else. -/
def TightCertificate (id : IdentityEx) : Prop := id.extendedLen ≤ 4 + (signingPublicKeyLen id - 128)

theorem signingPublicKeyLen_eq {id : IdentityEx} {t : SigningKeyType} {n : ℕ} {key : List UInt8}
    (h : id.IsFor crypto t n key) : signingPublicKeyLen id = IdentityEx.publicKeyLenOf t n := by
  rw [signingPublicKeyLen, h.verifier_eq]

theorem extendedLen_withVerifier (id : IdentityEx) : id.withVerifier.extendedLen = id.extendedLen := by
  unfold IdentityEx.withVerifier
  split
  · rfl
  · rfl

theorem extendedLen_create_le (publicKey : Block 256) (key : List UInt8) {t : SigningKeyType} {n : ℕ}
    (ht : t ≠ 0) (hn : signatureLenOf t = some n) (random : Block 128) :
    (IdentityEx.create crypto publicKey key t random).extendedLen ≤
      4 + (IdentityEx.publicKeyLenOf t n - 128) := by
  rw [IdentityEx.create, if_pos ht, hn]
  dsimp only
  rw [extendedLen_withVerifier]
  dsimp only
  split
  · exact Nat.le_add_right _ _
  · rw [List.length_drop, List.length_take]
    omega

/-- The identities of created keys have such certificates. -/
theorem tightCertificate_createRandomKeys (hcorrect : schemes.Correct crypto) {t : SigningKeyType}
    {n : ℕ} (hn : signatureLenOf t = some n) (draws : KeyDraws) :
    TightCertificate (PrivateKeys.createRandomKeys crypto schemes t draws).pub := by
  have hkeys := PrivateKeys.hasKeys_createRandomKeys hcorrect hn draws
  have hsome : (signatureLenOf t).isSome = true := Option.isSome_of_eq_some hn
  have hsigner (keys : PrivateKeys) : keys.createSigner.pub = keys.pub := by
    unfold PrivateKeys.createSigner
    dsimp only
    split
    · rfl
    · rfl
  rw [TightCertificate, signingPublicKeyLen_eq hkeys.isFor]
  by_cases ht : t = 0
  · rw [PrivateKeys.createRandomKeys, if_neg (fun h => h.1 ht), PrivateKeys.assignKeys, hsigner]
    exact Nat.zero_le _
  · rw [PrivateKeys.createRandomKeys, if_pos ⟨ht, hsome⟩, hsigner]
    exact extendedLen_create_le _ _ ht hn _

theorem signatureLenOf_le {t : SigningKeyType} {n : ℕ} (h : signatureLenOf t = some n) : n ≤ 512 := by
  unfold signatureLenOf at h
  split at h <;> simp_all <;> omega

/-- The lengths for the largest keys. -/
theorem lengths_le {id : IdentityEx} (h : id.WellFormed crypto) :
    signingPublicKeyLen id ≤ 512 ∧ id.getSignatureLen ≤ 512 := by
  have hverifier : id.withVerifier.verifier = id.createVerifier := h.verifier_fresh.symm
  rw [signingPublicKeyLen, IdentityEx.getSignatureLen, hverifier, IdentityEx.createVerifier]
  cases hn : signatureLenOf id.getSigningKeyType with
  | none => exact ⟨show 128 ≤ 512 by omega, show dsaSignatureLength ≤ 512 by decide⟩
  | some n => exact ⟨PrivateKeys.publicKeyLenOf_le hn, signatureLenOf_le hn⟩

/-! ## The round trip -/

theorem getInboundTunnels_eq (num : ℕ) (tunnels : List InboundTunnel) :
    getInboundTunnels num tunnels = (tunnels.filter (·.isEstablished)).take num := by
  induction num, tunnels using getInboundTunnels.induct with
  | case1 => rw [getInboundTunnels, List.take_zero]
  | case2 num hnum =>
    rw [getInboundTunnels, List.filter_nil, List.take_nil]
    exact hnum
  | case3 num t tunnels ht ih =>
    rw [getInboundTunnels, if_pos ht, List.filter_cons_of_pos ht, List.take_succ_cons, ih]
  | case4 num t tunnels ht ih => rw [getInboundTunnels, if_neg ht, List.filter_cons_of_neg ht, ih]

/-- The lease set fits its buffer and is valid with these leases, and so is the one that another router
reads from its buffer, with the same identity and encryption key. -/
structure RoundTrips (crypto : Crypto) (destination : LocalDestination) (leases : List Lease)
    (l : LeaseSet) : Prop where
  valid : l.isValid = true
  fits : l.bufferLen ≤ maxLSBufferSize
  leases_eq : l.leases = leases
  identity_eq : l.identity = destination.keys.pub.fresh.withVerifier
  encryptionKey_eq : l.encryptionKey = destination.encryptionPublicKey.bytes
  read : ∀ ambient,
    let l' := ofBuffer crypto ambient (slice l.buffer 0 l.bufferLen)
    l'.isValid = true ∧ l'.identity = l.identity ∧ l'.encryptionKey = l.encryptionKey ∧
      l'.leases = l.leases

/-- The lease set of a local destination. -/
theorem ofPool_eq (hkeys : destination.keys.Signing crypto schemes)
    (hidentity : destination.keys.pub.toBuffer.length ≤ maxLSBufferSize) (outside : LocalOutside)
    (tunnels : List InboundTunnel) :
    ∃ m signature, StandsAt m 0 (localBytes destination
          (localLeases outside (getInboundTunnels 5 tunnels)) ++ signature) ∧
      signature.length = destination.keys.pub.getSignatureLen ∧
      destination.keys.pub.verify crypto (localBytes destination
        (localLeases outside (getInboundTunnels 5 tunnels))) signature = true ∧
      ofPool crypto schemes outside (some destination) tunnels = .ok (readFromBuffer crypto
        { buffer := m
          bufferLen := (localBytes destination
            (localLeases outside (getInboundTunnels 5 tunnels)) ++ signature).length }) := by
  set bytes := localBytes destination (localLeases outside (getInboundTunnels 5 tunnels)) with hbytes
  obtain ⟨signature, hsign, hverify⟩ := hkeys.signs outside.signing bytes
  have hlength := hkeys.length_signature _ _ _ hsign
  set m := store (outside.ambient.newBuffer maxLSBufferSize) 0 bytes with hm
  have hstands : StandsAt m 0 bytes := standsAt_store _ _ _
  refine ⟨store m bytes.length signature, signature,
    standsAt_append.mpr ⟨hstands.store_of_le (by omega), ?_⟩, hlength, hverify, ?_⟩
  · rw [Nat.zero_add]
    exact standsAt_store _ _ _
  · have htotal : (bytes ++ signature).length = bytes.length + destination.keys.pub.getSignatureLen := by
      rw [List.length_append, hlength]
    rw [ofPool]
    dsimp only
    rw [if_neg (Nat.not_lt.mpr hidentity), ← hbytes, ← hm, hstands, hsign, htotal]

def exampleLocalOutside : LocalOutside where
  ambient := exampleRun
  random _ := 3
  signing := []

def exampleInboundTunnel : InboundTunnel where
  nextIdentHash := IdentHash.zero
  nextTunnelID := 7
  creationTime := 1500000000
  isEstablished := true

/-- A destination with keys of EdDSA. -/
def exampleDestination : LocalDestination where
  keys := sumKeys
  encryptionPublicKey := Block.const 9

theorem tightCertificate_sumKeys : TightCertificate sumKeys.pub := by
  have hlength : signatureLenOf 7 = some 64 := rfl
  exact tightCertificate_createRandomKeys sumSchemes_correct hlength exampleKeyDraws

/-- The same kind of keys, with a certificate of 2600 bytes. -/
def longDestination : LocalDestination where
  keys := PrivateKeys.createSigner
    { pub :=
        { standardIdentity := List.replicate 352 0 ++ List.replicate 32 5 ++
            certificateTypeKey :: writeBE 2 2600
          extendedLen := 2600
          extendedBuffer := some (writeU16 7 ++ List.replicate 2598 0) }
      privateKey := List.replicate 256 0
      signingPrivateKey := List.replicate 1024 5 }
  encryptionPublicKey := Block.const 9

end LeaseSet

end Router
