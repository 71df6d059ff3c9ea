import Xi2p.Lib.Runs
import Xi2p.Router.LeaseSet

/-!
# Reads of lease sets

`LeaseSet::ReadFromBuffer` takes the length of the identity, the length of the signing key and the
number of leases from the buffer and adds them up without looking at the length of the buffer. An
identity that cannot be read counts as empty, and then the signature is verified with the identity that
was there before.

* `LeaseSet.readSound_iff`: when one call stays inside the buffer and is right about validity.
* `LeaseSet.bounds_iff`: the same for a lease set and all its updates.
-/

namespace Router

open Bytes I2NP Identity

/-- `FromBuffer` with the addresses that it reads. -/
def fromBufferTraced (crypto : Crypto) (id : IdentityEx) (m : Mem) (len : ℕ) :
    Traced (IdentityEx × ℕ) := do
  let certificateLen := readBE (slice m 385 2)
  if len < defaultIdentitySize then return (id, 0)
  Traced.touch 0 defaultIdentitySize
  if certificateLen + defaultIdentitySize ≤ len then
    -- the extension, and the bytes that are hashed
    Traced.touch defaultIdentitySize certificateLen
    Traced.touch 0 (certificateLen + defaultIdentitySize)
  return id.fromBuffer crypto m 0 len

theorem val_fromBufferTraced (crypto : Crypto) (id : IdentityEx) (m : Mem) (len : ℕ) :
    (fromBufferTraced crypto id m len).val = id.fromBuffer crypto m 0 len := by
  unfold fromBufferTraced
  dsimp only
  split
  next hlen => simp [IdentityEx.fromBuffer, hlen]
  · split <;> rfl

/-- Reading an identity stays inside the buffer. -/
theorem within_fromBufferTraced (crypto : Crypto) (id : IdentityEx) (m : Mem) (len : ℕ) :
    (fromBufferTraced crypto id m len).Within 0 len := by
  unfold fromBufferTraced
  dsimp only
  generalize readBE (slice m 385 2) = certificateLen
  generalize id.fromBuffer crypto m 0 len = read
  split
  · exact Traced.within_pure _ _ _
  next hlen =>
    have htouch {pos n : ℕ} (h : pos + n ≤ len) : (Traced.touch pos n).Within 0 len :=
      Traced.within_touch (Nat.zero_le pos) h
    refine Traced.within_bind_iff.mpr ⟨htouch (by omega), ?_⟩
    split
    next hroom =>
      have hhash : (Traced.touch 0 (certificateLen + defaultIdentitySize)).Within 0 len := by
        refine htouch ?_
        rw [Nat.zero_add]
        exact hroom
      refine Traced.within_bind_iff.mpr ⟨htouch (by omega), ?_⟩
      exact Traced.within_bind_iff.mpr ⟨hhash, Traced.within_pure _ _ _⟩
    · exact Traced.within_pure _ _ _

namespace LeaseSet

/-! ## One call -/

/-- The addresses that `Verify` reads: none if the key type is not supported. -/
def verifyTraced (identity : IdentityEx) (stop : ℕ) : Traced Unit := do
  if identity.withVerifier.verifier.isSome then
    Traced.touch 0 stop
    Traced.touch stop identity.getSignatureLen

/-- `ReadFromBuffer` with the addresses that it reads. -/
def readFromBufferTraced (crypto : Crypto) (l : LeaseSet) : Traced LeaseSet := do
  let m := l.buffer
  let (identity, size) ← fromBufferTraced crypto l.identity m l.bufferLen
  let _encryptionKey ← Traced.read m size 256
  let size := size + 256 + signingPublicKeyLen identity
  let num ← Traced.readByte m size
  let start := size + 1
  Traced.touch start (44 * num.toNat)
  verifyTraced identity (start + 44 * num.toNat)
  return l.readFromBuffer crypto

theorem val_readFromBufferTraced (crypto : Crypto) (l : LeaseSet) :
    (readFromBufferTraced crypto l).val = l.readFromBuffer crypto := rfl

/-- The end of the leases: the bytes before it are signed. -/
def signedLen (crypto : Crypto) (l : LeaseSet) : ℕ :=
  let (identity, size) := l.identity.fromBuffer crypto l.buffer 0 l.bufferLen
  let size := size + 256 + signingPublicKeyLen identity
  size + 1 + 44 * (l.buffer size).toNat

/-- The end of the bytes that are read: of the signature, if it is verified. -/
def readEnd (crypto : Crypto) (l : LeaseSet) : ℕ :=
  let identity := (l.identity.fromBuffer crypto l.buffer 0 l.bufferLen).1
  l.signedLen crypto +
    if identity.withVerifier.verifier.isSome then identity.getSignatureLen else 0

theorem within_verifyTraced_iff {identity : IdentityEx} {stop hi : ℕ} (hstop : stop ≤ hi) :
    (verifyTraced identity stop).Within 0 hi ↔
      stop + (if identity.withVerifier.verifier.isSome then identity.getSignatureLen else 0) ≤
        hi := by
  unfold verifyTraced
  split
  · rw [Traced.within_bind_iff, Traced.within_touch_iff, Traced.within_touch_iff]
    omega
  · exact iff_of_true (Traced.within_pure _ _ _) hstop

/-- A call reads up to the end of the signature. -/
theorem within_readFromBufferTraced_iff (crypto : Crypto) (l : LeaseSet) :
    (readFromBufferTraced crypto l).Within 0 l.bufferLen ↔ l.readEnd crypto ≤ l.bufferLen := by
  have hidentity := within_fromBufferTraced crypto l.identity l.buffer l.bufferLen
  have hval := val_fromBufferTraced crypto l.identity l.buffer l.bufferLen
  unfold readFromBufferTraced readEnd signedLen
  dsimp only
  rw [Traced.within_bind_iff, hval, and_iff_right hidentity]
  generalize l.identity.fromBuffer crypto l.buffer 0 l.bufferLen = read
  obtain ⟨identity, size⟩ := read
  dsimp only
  generalize signingPublicKeyLen identity = keyLen
  rw [Traced.within_bind_iff, Traced.within_bind_iff, Traced.within_bind_iff,
    Traced.within_bind_iff, Traced.within_read_iff, Traced.within_readByte_iff,
    Traced.within_touch_iff, Traced.val_readByte, and_iff_left (Traced.within_pure _ _ _)]
  generalize (l.buffer (size + 256 + keyLen)).toNat = num
  constructor
  · rintro ⟨-, hnum, hleases, hverify⟩
    exact (within_verifyTraced_iff (by omega)).mp hverify
  · intro h
    exact ⟨by omega, by omega, by omega, (within_verifyTraced_iff (by omega)).mpr h⟩

/-- A call on a buffer of `allocated` bytes reads only inside the first `m_BufferLen` bytes, these are
inside the buffer, and a lease set is valid only if an identity and a lease were read and the signature
of the bytes in front of it was verified. -/
structure ReadSound (crypto : Crypto) (l : LeaseSet) (allocated : ℕ) : Prop where
  inside : (readFromBufferTraced crypto l).Within 0 l.bufferLen
  bufferLen_le : l.bufferLen ≤ allocated
  identity_read : (l.readFromBuffer crypto).isValid →
    IdentityEx.lenIn l.buffer 0 l.bufferLen ≠ 0
  leases_ne : (l.readFromBuffer crypto).isValid → (l.readFromBuffer crypto).leases ≠ []
  verified : (l.readFromBuffer crypto).isValid →
    let identity := (l.readFromBuffer crypto).identity
    identity.verify crypto (slice l.buffer 0 (l.signedLen crypto))
      (slice l.buffer (l.signedLen crypto) identity.getSignatureLen)

/-- The lengths in the buffer fit into it, and if no identity could be read the lease set was invalid
before or is not signed. -/
def ReadFits (crypto : Crypto) (l : LeaseSet) : Prop :=
  l.readEnd crypto ≤ l.bufferLen ∧
    (IdentityEx.lenIn l.buffer 0 l.bufferLen = 0 → l.isValid →
      isSigned crypto l.identity l.buffer l.bufferLen = false)

theorem isValid_readFromBuffer (crypto : Crypto) (l : LeaseSet) :
    (l.readFromBuffer crypto).isValid =
      (l.isValid && isSigned crypto l.identity l.buffer l.bufferLen) := Bool.and_assoc ..

theorem withVerifier_withVerifier (identity : IdentityEx) :
    identity.withVerifier.withVerifier = identity.withVerifier := by
  unfold IdentityEx.withVerifier
  cases hverifier : identity.verifier with
  | some v => simp [hverifier]
  | none =>
    dsimp only
    cases hcreate : identity.createVerifier with
    | some v => rfl
    | none =>
      dsimp only
      rw [show IdentityEx.createVerifier { identity with verifier := none } =
        identity.createVerifier from rfl, hcreate]

/-- Leases and a signature in the buffer. -/
theorem isSigned_iff (crypto : Crypto) (l : LeaseSet) :
    let (identity, size) := l.identity.fromBuffer crypto l.buffer 0 l.bufferLen
    isSigned crypto l.identity l.buffer l.bufferLen = true ↔
      (l.buffer (size + 256 + signingPublicKeyLen identity)).toNat ≠ 0 ∧
        identity.verify crypto (slice l.buffer 0 (l.signedLen crypto))
          (slice l.buffer (l.signedLen crypto) identity.getSignatureLen) = true := by
  simp [isSigned, signedLen]

theorem readSound_iff (crypto : Crypto) {l : LeaseSet} {allocated : ℕ}
    (hlen : l.bufferLen ≤ allocated) : ReadSound crypto l allocated ↔ ReadFits crypto l := by
  constructor
  · intro h
    refine ⟨(within_readFromBufferTraced_iff crypto l).mp h.inside, fun hzero hvalid => ?_⟩
    by_contra hsigned
    refine h.identity_read ?_ hzero
    rw [isValid_readFromBuffer, hvalid, Bool.true_and]
    simpa using hsigned
  · rintro ⟨hend, hidentity⟩
    have hsigned (h : (l.readFromBuffer crypto).isValid) :
        l.isValid = true ∧ isSigned crypto l.identity l.buffer l.bufferLen = true := by
      rwa [isValid_readFromBuffer, Bool.and_eq_true] at h
    refine ⟨(within_readFromBufferTraced_iff crypto l).mpr hend, hlen, fun h hzero => ?_,
      fun h => ?_, fun h => ?_⟩
    · obtain ⟨hvalid, hsigned⟩ := hsigned h
      rw [hidentity hzero hvalid] at hsigned
      cases hsigned
    · obtain ⟨hnum, -⟩ := (isSigned_iff crypto l).mp (hsigned h).2
      refine List.append_ne_nil_of_right_ne_nil _ fun hnil => hnum ?_
      simpa using congrArg List.length hnil
    · obtain ⟨-, hverify⟩ := (isSigned_iff crypto l).mp (hsigned h).2
      show IdentityEx.verify crypto (IdentityEx.withVerifier _) _
        (slice _ _ (IdentityEx.getSignatureLen (IdentityEx.withVerifier _))) = true
      rw [IdentityEx.verify, IdentityEx.getSignatureLen, withVerifier_withVerifier]
      exact hverify

/-! ## Updates -/

/-- A lease set and the size of its buffer. -/
structure Live where
  leaseSet : LeaseSet
  allocated : ℕ

namespace Live

/-- The constructor before it reads. -/
def loadNew (ambient : Ambient) (data : List UInt8) : Live where
  leaseSet := { buffer := store (ambient.newBuffer data.length) 0 data, bufferLen := data.length }
  allocated := data.length

/-- `Update` before it reads. -/
def load (live : Live) (update : Ambient × List UInt8) : Live where
  leaseSet :=
    { live.leaseSet with
      leases := []
      buffer := live.leaseSet.updateBuffer update.1 update.2
      bufferLen := update.2.length }
  allocated :=
    if live.leaseSet.bufferLen < update.2.length then update.2.length else live.allocated

/-- The lease set is read. -/
def read (crypto : Crypto) (live : Live) : Live :=
  { live with leaseSet := live.leaseSet.readFromBuffer crypto }

theorem leaseSet_read_loadNew (crypto : Crypto) (ambient : Ambient) (data : List UInt8) :
    ((loadNew ambient data).read crypto).leaseSet = LeaseSet.ofBuffer crypto ambient data := rfl

theorem leaseSet_read_load (crypto : Crypto) (live : Live) (ambient : Ambient)
    (data : List UInt8) :
    ((live.load (ambient, data)).read crypto).leaseSet =
      live.leaseSet.update crypto ambient data := rfl

/-- The buffer is as large as it should be. -/
def Fitting (live : Live) : Prop := live.leaseSet.bufferLen ≤ live.allocated

theorem Fitting.load {live : Live} (h : live.Fitting) (update : Ambient × List UInt8) :
    (live.load update).Fitting := by
  unfold Fitting Live.load at *
  dsimp only
  split
  · exact le_rfl
  · omega

end Live

/-- A lease set and all its updates are read from inside their buffers and are right about validity,
if and only if the lengths in each buffer fit into it and no set without an identity is signed. -/
theorem bounds_iff (crypto : Crypto) (ambient : Ambient) (data : List UInt8)
    (updates : List (Ambient × List UInt8)) :
    let first := Live.loadNew ambient data
    let step live update := (Live.load live update).read crypto
    (ReadSound crypto first.leaseSet first.allocated ∧
        Runs.Meets step
          (fun live update =>
            ReadSound crypto (live.load update).leaseSet (live.load update).allocated)
          (first.read crypto) updates) ↔
      ReadFits crypto first.leaseSet ∧
        Runs.Meets step (fun live update => ReadFits crypto (live.load update).leaseSet)
          (first.read crypto) updates := by
  intro first step
  refine and_congr (readSound_iff crypto le_rfl) ?_
  refine Runs.meets_iff_of_invariant (I := Live.Fitting) ?_ ?_ le_rfl
  · exact fun live update _ h => h.load update
  · exact fun live update _ h => readSound_iff crypto (h.load update)

/-- An empty buffer. -/
theorem not_readSound_empty :
    ¬ ReadSound { sha256 := fun _ => IdentHash.zero, verify := fun _ _ _ _ => false }
      (Live.loadNew { junk := fun _ => 0, outside := fun _ => 0, fuel := 0 } []).leaseSet 0 := by
  intro h
  have hend := (within_readFromBufferTraced_iff _ _).mp h.inside
  unfold readEnd signedLen at hend
  simp only [Live.loadNew, List.length_nil] at hend
  omega

end LeaseSet

end Router
