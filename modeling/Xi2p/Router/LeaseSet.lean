import Xi2p.Router.RouterInfo

/-!
# Lease sets

`LeaseSet` of `core/router/lease_set.cc`, as it is read from the network. Nothing is checked while it
is read: bytes behind the buffer are taken as they stand in memory, and an identity that cannot be
read leaves the one that was there before.
-/

namespace Router

open Bytes I2NP Identity

/-- `Lease`. -/
structure Lease where
  tunnelGateway : IdentHash
  tunnelID : UInt32
  endDate : UInt64

/-- `LeaseSet`. -/
structure LeaseSet where
  /-- `m_IsValid`. -/
  isValid : Bool := true
  /-- `m_Leases`. -/
  leases : List Lease := []
  /-- `m_Identity`. -/
  identity : IdentityEx := {}
  /-- `m_EncryptionKey`. -/
  encryptionKey : List UInt8 := []
  /-- `m_Buffer`. -/
  buffer : Mem
  /-- `m_BufferLen`. -/
  bufferLen : ℕ

namespace LeaseSet

/-- `GetIdentHash`. -/
def getIdentHash (l : LeaseSet) : IdentHash := l.identity.identHash

/-- `GetSigningPublicKeyLen`. -/
def signingPublicKeyLen (identity : IdentityEx) : ℕ :=
  match identity.withVerifier.verifier with
  | some v => IdentityEx.publicKeyLenOf v.keyType v.signatureLen
  | none => 128

/-- The lease at a position of the buffer. -/
def leaseAt (m : Mem) (pos : ℕ) : Lease where
  tunnelGateway := IdentHash.ofMem m pos
  tunnelID := readU32 (slice m (pos + 32) 4)
  endDate := UInt64.ofNat (readBE (slice m (pos + 36) 8))

/-- `ReadFromBuffer`. The gateways of the leases are looked up in the database, see
`NetDb.requestGateways`. -/
def readFromBuffer (crypto : Crypto) (l : LeaseSet) : LeaseSet :=
  let m := l.buffer
  let (identity, size) := l.identity.fromBuffer crypto m 0 l.bufferLen
  let encryptionKey := slice m size 256
  -- encryption key, unused signing key
  let size := size + 256 + signingPublicKeyLen identity
  let num := (m size).toNat
  let start := size + 1
  let leases := (List.range num).map fun i => leaseAt m (start + 44 * i)
  let stop := start + 44 * num
  let verified :=
    identity.verify crypto (slice m 0 stop) (slice m stop identity.getSignatureLen)
  { l with
    isValid := l.isValid && num ≠ 0 && verified
    leases := l.leases ++ leases
    identity := identity.withVerifier
    encryptionKey }

/-- `LeaseSet(buf, len)`. -/
def ofBuffer (crypto : Crypto) (ambient : Ambient) (data : List UInt8) : LeaseSet :=
  readFromBuffer crypto
    { buffer := store (ambient.newBuffer data.length) 0 data
      bufferLen := data.length }

/-- `Update`. -/
def update (crypto : Crypto) (ambient : Ambient) (l : LeaseSet) (data : List UInt8) : LeaseSet :=
  let buffer := if l.bufferLen < data.length then ambient.newBuffer data.length else l.buffer
  readFromBuffer crypto
    { l with
      leases := []
      buffer := store buffer 0 data
      bufferLen := data.length }

theorem readFromBuffer_identHash (crypto : Crypto) (l : LeaseSet) :
    (l.readFromBuffer crypto).getIdentHash =
      (l.identity.fromBuffer crypto l.buffer 0 l.bufferLen).1.identHash := by
  show (IdentityEx.withVerifier _).identHash = _
  unfold IdentityEx.withVerifier
  split <;> rfl

theorem ofBuffer_identHash (crypto : Crypto) (ambient : Ambient) (data : List UInt8) :
    (ofBuffer crypto ambient data).getIdentHash = (dataIdent crypto data).getD IdentHash.zero :=
  (readFromBuffer_identHash crypto _).trans (fromBuffer_store_identHash crypto _ _ data)

theorem update_identHash (crypto : Crypto) (ambient : Ambient) (l : LeaseSet) (data : List UInt8) :
    (l.update crypto ambient data).getIdentHash = (dataIdent crypto data).getD l.getIdentHash :=
  (readFromBuffer_identHash crypto _).trans (fromBuffer_store_identHash crypto _ _ data)

/-- There are leases in the buffer, and the signature behind them is valid. -/
def isSigned (crypto : Crypto) (identity : IdentityEx) (m : Mem) (len : ℕ) : Bool :=
  let (identity, size) := identity.fromBuffer crypto m 0 len
  let size := size + 256 + signingPublicKeyLen identity
  let num := (m size).toNat
  let stop := size + 1 + 44 * num
  num ≠ 0 && identity.verify crypto (slice m 0 stop) (slice m stop identity.getSignatureLen)

/-- The buffer into which `Update` copies the data. -/
def updateBuffer (ambient : Ambient) (l : LeaseSet) (data : List UInt8) : Mem :=
  store (if l.bufferLen < data.length then ambient.newBuffer data.length else l.buffer) 0 data

theorem isValid_update (crypto : Crypto) (ambient : Ambient) (l : LeaseSet) (data : List UInt8) :
    (l.update crypto ambient data).isValid =
      (l.isValid && isSigned crypto l.identity (l.updateBuffer ambient data) data.length) :=
  Bool.and_assoc ..

/-- `TUNNEL_EXPIRATION_THRESHOLD`, in milliseconds. -/
abbrev tunnelExpirationThreshold : UInt64 := 60000

/-- `GetNonExpiredLeases`, at time `ts`. -/
def getNonExpiredLeases (ts : UInt64) (withThreshold : Bool) (l : LeaseSet) : List Lease :=
  l.leases.filter fun lease =>
    ts < if withThreshold then lease.endDate else lease.endDate - tunnelExpirationThreshold

/-- `HasNonExpiredLeases`. -/
def hasNonExpiredLeases (ts : UInt64) (l : LeaseSet) : Bool := l.leases.any (ts < ·.endDate)

end LeaseSet

end Router
