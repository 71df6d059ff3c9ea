import Xi2p.PrivateKeys
import Xi2p.Garlic.RoundTrip
import Xi2p.Router.LeaseSetBounds

/-!
# Datagrams

A datagram is the identity of its sender, a signature, and the payload. Neither side compares the length
of the header with the buffer: the sender writes into a buffer of fixed size, and the receiver takes the
length of the header from the bytes that it got. An identity that cannot be read counts as one of no
length.

* `DatagramDestination`: the receivers of a destination.
* `buildDatagram`, `DatagramDestination.handleDatagram`: the two sides.
* `datagram_iff`: when a datagram is delivered, and when the receiver stays inside its bytes.
-/

namespace Client

open Bytes I2NP Identity
open Garlic (subSize subSize_of_le)

/-! ## The two sides -/

/-- `MAX_DATAGRAM_SIZE`. -/
abbrev maxDatagramSize : ℕ := 32768

/-- The receivers `ρ` of a destination. -/
structure DatagramDestination (ρ : Type) where
  receiver : Option ρ := none
  receiversByPorts : List (UInt16 × ρ) := []

/-- A call of a receiver. -/
structure DatagramCall (ρ : Type) where
  receiver : ρ
  identity : IdentityEx
  fromPort : UInt16
  toPort : UInt16
  payload : List UInt8

/-- What is signed: the payload, or its hash for DSA. -/
def signedMessage (crypto : Crypto) (identity : IdentityEx) (payload : List UInt8) : List UInt8 :=
  if identity.getSigningKeyType = 0 then (crypto.sha256 payload).bytes else payload

/-- `ToBuffer` throws if the identity does not fit. -/
def toBufferThrows (identity : IdentityEx) (buflen : ℕ) : Bool :=
  buflen < defaultIdentitySize ||
    (0 < identity.extendedLen && identity.extendedBuffer.isSome &&
      buflen < defaultIdentitySize + identity.extendedLen)

/-- The buffer of `SendDatagramTo`, what is written into it, and the length that is sent. -/
structure BuiltDatagram where
  buf : Mem
  /-- Where something is written, and its length. -/
  writes : List (ℕ × ℕ)
  len : ℕ

/-- `SendDatagramTo` up to the message that is sent; `none` where `ToBuffer` throws. The buffer holds
what was in memory. -/
def buildDatagram (crypto : Crypto) (schemes : Schemes) (keys : PrivateKeys) (random : List UInt8)
    (memory : Mem) (payload : List UInt8) : Option BuiltDatagram :=
  if toBufferThrows keys.pub maxDatagramSize then none
  else
    let identityLen := keys.pub.getFullLen
    let signatureLen := keys.pub.getSignatureLen
    let headerLen := identityLen + signatureLen
    let buf := store memory 0 keys.pub.toBuffer
    let buf := store buf headerLen payload
    let buf := match keys.sign schemes random (signedMessage crypto keys.pub payload) with
      | some signature => store buf identityLen signature
      | none => buf
    some {
      buf
      writes := [(0, identityLen), (headerLen, payload.length), (identityLen, signatureLen)]
      len := payload.length + headerLen }

namespace DatagramDestination

variable {ρ : Type} (d : DatagramDestination ρ)

/-- The receiver for a port, or the default one. -/
def receiverFor (toPort : UInt16) : Option ρ :=
  ((d.receiversByPorts.find? (·.1 = toPort)).map Prod.snd).or d.receiver

/-- `HandleDatagram`, with the addresses that it reads. -/
def handleDatagram (crypto : Crypto) (fromPort toPort : UInt16) (buf : Mem) (len : ℕ) :
    Traced (Option (DatagramCall ρ)) := do
  let (identity, identityLen) ← Router.fromBufferTraced crypto {} buf len
  let headerLen := identityLen + identity.getSignatureLen
  let payloadLen := subSize len headerLen
  let payload := slice buf headerLen payloadLen
  -- DSA hashes the payload, the other schemes read it if there is a verifier
  let hasVerifier := identity.withVerifier.verifier.isSome
  Traced.touchIf (decide (identity.getSigningKeyType = 0) || hasVerifier) headerLen payloadLen
  Traced.touchIf hasVerifier identityLen identity.getSignatureLen
  if identity.verify crypto (signedMessage crypto identity payload)
      (slice buf identityLen identity.getSignatureLen) then
    return (d.receiverFor toPort).map fun receiver =>
      { receiver, identity, fromPort, toPort, payload }
  else return none

end DatagramDestination

/-! ## What the two sides should do -/

/-- The length of the header that a receiver sees. -/
def headerLenIn (crypto : Crypto) (buf : Mem) (len : ℕ) : ℕ :=
  let (identity, identityLen) := IdentityEx.fromBuffer crypto {} buf 0 len
  identityLen + identity.getSignatureLen

/-- The identity that `FromBuffer` leaves behind accepts the rest of the bytes. -/
def acceptedIn (crypto : Crypto) (buf : Mem) (len : ℕ) : Bool :=
  let (identity, identityLen) := IdentityEx.fromBuffer crypto {} buf 0 len
  identity.verify crypto
    (signedMessage crypto identity
      (slice buf (headerLenIn crypto buf len) (len - headerLenIn crypto buf len)))
    (slice buf identityLen identity.getSignatureLen)

/-- A datagram that is sent stays inside its buffer, and is handed to the receiver. -/
def Delivers {ρ : Type} (crypto : Crypto) (schemes : Schemes) (keys : PrivateKeys)
    (random : List UInt8) (memory : Mem) (payload : List UInt8) (d : DatagramDestination ρ)
    (fromPort toPort : UInt16) (receiver : ρ) : Prop :=
  ∀ built, buildDatagram crypto schemes keys random memory payload = some built →
    (∀ write ∈ built.writes, write.1 + write.2 ≤ maxDatagramSize) ∧
      (d.handleDatagram crypto fromPort toPort built.buf built.len).val =
        some { receiver, identity := keys.pub.fresh, fromPort, toPort, payload }

/-- Only the bytes of the datagram are read, the length of the payload does not wrap, and a receiver is
called only for an identity that was read and a signature that it accepts. -/
structure SoundlyHandled {ρ : Type} (crypto : Crypto) (d : DatagramDestination ρ)
    (fromPort toPort : UInt16) (buf : Mem) (len : ℕ) : Prop where
  within : (d.handleDatagram crypto fromPort toPort buf len).Within 0 len
  header : headerLenIn crypto buf len ≤ len
  called : ∀ call, (d.handleDatagram crypto fromPort toPort buf len).val = some call →
    IdentityEx.lenIn buf 0 len ≠ 0 ∧
      call.identity = (IdentityEx.fromBuffer crypto {} buf 0 len).1 ∧
      call.identity.verify crypto (signedMessage crypto call.identity call.payload)
        (slice buf (IdentityEx.lenIn buf 0 len) call.identity.getSignatureLen) = true

/-! ## Receiving -/

variable {ρ : Type} {crypto : Crypto} {d : DatagramDestination ρ} {fromPort toPort : UInt16} {buf : Mem}
  {len : ℕ}

/-- The call that a datagram leads to, when the length of its payload does not wrap. -/
theorem val_handleDatagram (d : DatagramDestination ρ) (fromPort toPort : UInt16)
    (hlen : len < 2 ^ 64) (hheader : headerLenIn crypto buf len ≤ len) :
    (d.handleDatagram crypto fromPort toPort buf len).val =
      if acceptedIn crypto buf len then
        (d.receiverFor toPort).map fun receiver =>
          { receiver, identity := (IdentityEx.fromBuffer crypto {} buf 0 len).1, fromPort, toPort
            payload := slice buf (headerLenIn crypto buf len) (len - headerLenIn crypto buf len) }
      else none := by
  have hval := Router.val_fromBufferTraced crypto {} buf len
  rw [headerLenIn] at hheader
  rw [acceptedIn, headerLenIn, DatagramDestination.handleDatagram, Traced.val_bind, hval]
  generalize IdentityEx.fromBuffer crypto {} buf 0 len = read at hheader ⊢
  obtain ⟨identity, identityLen⟩ := read
  dsimp only at hheader ⊢
  rw [subSize_of_le hheader hlen, Traced.val_bind, Traced.val_bind]
  split
  · rfl
  · rfl

theorem within_touchIf {c : Bool} {pos n hi : ℕ} (h : pos + n ≤ hi) :
    (Traced.touchIf c pos n).Within 0 hi := by
  intro i hi'
  rw [Traced.reads_touchIf] at hi'
  split at hi'
  · obtain ⟨-, hlt⟩ := List.mem_range'_1.mp hi'
    omega
  · cases hi'

/-- When the length of the payload does not wrap, only the bytes of the datagram are read. -/
theorem within_handleDatagram (hlen : len < 2 ^ 64) (hheader : headerLenIn crypto buf len ≤ len) :
    (d.handleDatagram crypto fromPort toPort buf len).Within 0 len := by
  have hval := Router.val_fromBufferTraced crypto {} buf len
  rw [headerLenIn] at hheader
  rw [DatagramDestination.handleDatagram]
  refine (Router.within_fromBufferTraced crypto {} buf len).bind ?_
  rw [hval]
  generalize IdentityEx.fromBuffer crypto {} buf 0 len = read at hheader ⊢
  obtain ⟨identity, identityLen⟩ := read
  dsimp only at hheader ⊢
  rw [subSize_of_le hheader hlen]
  refine (within_touchIf (by omega)).bind ((within_touchIf hheader).bind ?_)
  split
  · exact Traced.within_pure _ _ _
  · exact Traced.within_pure _ _ _

/-- When the receiver is right about a datagram. -/
theorem soundlyHandled_iff (d : DatagramDestination ρ) (fromPort toPort : UInt16) (hlen : len < 2 ^ 64) :
    SoundlyHandled crypto d fromPort toPort buf len ↔
      headerLenIn crypto buf len ≤ len ∧
        (IdentityEx.lenIn buf 0 len = 0 → acceptedIn crypto buf len = true →
          d.receiverFor toPort = none) := by
  constructor
  · intro h
    refine ⟨h.header, fun hnone haccepted => ?_⟩
    have hval := val_handleDatagram d fromPort toPort hlen h.header
    rw [if_pos haccepted] at hval
    rcases hreceiver : d.receiverFor toPort with _ | receiver
    · rfl
    · rw [hreceiver] at hval
      exact absurd hnone (h.called _ hval).1
  · rintro ⟨hheader, hnone⟩
    refine ⟨within_handleDatagram hlen hheader, hheader, fun call hcall => ?_⟩
    rw [val_handleDatagram d fromPort toPort hlen hheader] at hcall
    split at hcall
    next haccepted =>
      obtain ⟨receiver, hreceiver, rfl⟩ := Option.map_eq_some_iff.mp hcall
      refine ⟨fun hzero => ?_, rfl, ?_⟩
      · rw [hnone hzero haccepted] at hreceiver
        cases hreceiver
      · rw [← IdentityEx.fromBuffer_snd crypto {}]
        exact haccepted
    · cases hcall

/-! ## Sending -/

variable {schemes : Schemes} {keys : PrivateKeys} {random payload : List UInt8} {memory : Mem}

/-- What stands where the signature belongs: without a signer it is what was in memory. -/
def signatureBytes (crypto : Crypto) (schemes : Schemes) (keys : PrivateKeys) (random : List UInt8)
    (memory : Mem) (payload : List UInt8) : List UInt8 :=
  (keys.sign schemes random (signedMessage crypto keys.pub payload)).getD
    (slice memory keys.pub.getFullLen keys.pub.getSignatureLen)

/-- The length of the header that is sent. -/
def headerLenOf (keys : PrivateKeys) : ℕ := keys.pub.getFullLen + keys.pub.getSignatureLen

theorem length_signatureBytes (crypto : Crypto) (memory : Mem) (payload : List UInt8)
    (hsignature : ∀ message signature, keys.sign schemes random message = some signature →
      signature.length = keys.pub.getSignatureLen) :
    (signatureBytes crypto schemes keys random memory payload).length = keys.pub.getSignatureLen := by
  rw [signatureBytes]
  rcases hsign : keys.sign schemes random (signedMessage crypto keys.pub payload) with _ | signature
  · exact length_slice _ _ _
  · exact hsignature _ _ hsign

/-- What a datagram that is built consists of. -/
theorem buildDatagram_spec (hkeys : keys.pub.WellFormed crypto)
    (hsignature : ∀ message signature, keys.sign schemes random message = some signature →
      signature.length = keys.pub.getSignatureLen) {built : BuiltDatagram}
    (hbuilt : buildDatagram crypto schemes keys random memory payload = some built) :
    StandsAt built.buf 0 (keys.pub.toBuffer ++
        (signatureBytes crypto schemes keys random memory payload ++ payload)) ∧
      built.len = payload.length + headerLenOf keys ∧
      ((∀ write ∈ built.writes, write.1 + write.2 ≤ maxDatagramSize) ↔
        headerLenOf keys + payload.length ≤ maxDatagramSize) := by
  have hidentity := hkeys.length_toBuffer
  have hlength := length_signatureBytes crypto memory payload hsignature
  rw [buildDatagram] at hbuilt
  split at hbuilt
  · cases hbuilt
  obtain rfl := Option.some.inj hbuilt
  refine ⟨?_, rfl, ?_⟩
  · rw [standsAt_append, standsAt_append, hlength, hidentity, Nat.zero_add]
    rw [signatureBytes] at hlength ⊢
    dsimp only
    rcases hsign : keys.sign schemes random (signedMessage crypto keys.pub payload) with _ | signature
    · -- nobody signs, and the place of the signature is left as it is
      have hmemory : StandsAt memory keys.pub.getFullLen
          (slice memory keys.pub.getFullLen keys.pub.getSignatureLen) := by
        rw [StandsAt, length_slice]
      refine ⟨(standsAt_store memory 0 _).store_of_le (by omega), ?_, standsAt_store _ _ _⟩
      exact (hmemory.store_of_ge (by omega)).store_of_le (by rw [length_slice])
    · rw [hsign] at hlength
      refine ⟨((standsAt_store memory 0 _).store_of_le (by omega)).store_of_le (by omega),
        standsAt_store _ _ _, (standsAt_store _ _ _).store_of_ge (Nat.add_le_add_left hlength.le _)⟩
  · rw [headerLenOf]
    simp only [List.forall_mem_cons, Nat.zero_add]
    refine ⟨fun h => h.2.1, fun h => ⟨by omega, h, by omega, ?_⟩⟩
    exact fun _ hmem => absurd hmem List.not_mem_nil

/-- The receiver sees the header that was sent. -/
theorem fromBuffer_built (hkeys : keys.pub.WellFormed crypto) {rest : List UInt8}
    (hstands : StandsAt buf 0 (keys.pub.toBuffer ++ rest)) (hlen : keys.pub.getFullLen ≤ len) :
    IdentityEx.fromBuffer crypto {} buf 0 len = (keys.pub.fresh, keys.pub.getFullLen) :=
  hkeys.fromBuffer_eq {} hlen (standsAt_append.mp hstands).1

theorem headerLenIn_built (hkeys : keys.pub.WellFormed crypto) {rest : List UInt8}
    (hstands : StandsAt buf 0 (keys.pub.toBuffer ++ rest)) (hlen : keys.pub.getFullLen ≤ len) :
    headerLenIn crypto buf len = headerLenOf keys := by
  rw [headerLenIn, fromBuffer_built hkeys hstands hlen]
  exact congrArg (keys.pub.getFullLen + ·) hkeys.getSignatureLen_fresh

/-- It makes no difference to a signature whether the verifier has been created. -/
theorem verify_fresh (hkeys : keys.pub.WellFormed crypto) (message signature : List UInt8) :
    keys.pub.fresh.verify crypto message signature = keys.pub.verify crypto message signature := by
  have hfresh : keys.pub.fresh.withVerifier.verifier = keys.pub.createVerifier := rfl
  have hverifier : keys.pub.withVerifier.verifier = keys.pub.createVerifier := by
    rw [IdentityEx.withVerifier]
    split
    next hsome => exact hkeys.verifier_eq.resolve_left (hsome ▸ Option.some_ne_none _)
    · rfl
  rw [IdentityEx.verify, IdentityEx.verify, hfresh, hverifier]

/-- The receiver checks the signature that was sent, for the payload that was sent. -/
theorem handleDatagram_built (d : DatagramDestination ρ) (fromPort toPort : UInt16)
    (hkeys : keys.pub.WellFormed crypto) {signature : List UInt8}
    (hlength : signature.length = keys.pub.getSignatureLen)
    (hfits : headerLenOf keys + payload.length ≤ maxDatagramSize)
    (hstands : StandsAt buf 0 (keys.pub.toBuffer ++ (signature ++ payload)))
    (hlen : len = payload.length + headerLenOf keys) :
    (d.handleDatagram crypto fromPort toPort buf len).val =
      if keys.pub.verify crypto (signedMessage crypto keys.pub payload) signature then
        (d.receiverFor toPort).map fun receiver =>
          { receiver, identity := keys.pub.fresh, fromPort, toPort, payload }
      else none := by
  have hidentity := hkeys.length_toBuffer
  have hheader : headerLenOf keys = keys.pub.getFullLen + keys.pub.getSignatureLen := rfl
  have hread := fromBuffer_built hkeys hstands (show keys.pub.getFullLen ≤ len by omega)
  have hheaderIn := headerLenIn_built hkeys hstands (show keys.pub.getFullLen ≤ len by omega)
  obtain ⟨-, hrest⟩ := standsAt_append.mp hstands
  rw [hidentity, Nat.zero_add] at hrest
  obtain ⟨hsignature, hpayload⟩ := standsAt_append.mp hrest
  rw [StandsAt, hlength] at hsignature
  rw [hlength, ← hheader, StandsAt] at hpayload
  have hpayloadLen : len - headerLenOf keys = payload.length := by omega
  have haccepted : acceptedIn crypto buf len =
      keys.pub.verify crypto (signedMessage crypto keys.pub payload) signature := by
    rw [acceptedIn, hread, hheaderIn, hpayloadLen, hpayload, ← verify_fresh hkeys]
    dsimp only
    rw [hkeys.getSignatureLen_fresh, hsignature]
    rfl
  have hsmall : maxDatagramSize < 2 ^ 64 := by norm_num
  rw [val_handleDatagram d fromPort toPort (by omega) (by omega), haccepted, hread, hheaderIn, hpayloadLen, hpayload]

/-- When a datagram arrives. -/
theorem delivers_iff (hkeys : keys.pub.WellFormed crypto)
    (hsignature : ∀ message signature, keys.sign schemes random message = some signature →
      signature.length = keys.pub.getSignatureLen) {receiver : ρ}
    (hreceiver : d.receiverFor toPort = some receiver) :
    Delivers crypto schemes keys random memory payload d fromPort toPort receiver ↔
      toBufferThrows keys.pub maxDatagramSize = true ∨
        headerLenOf keys + payload.length ≤ maxDatagramSize ∧
          keys.pub.verify crypto (signedMessage crypto keys.pub payload)
            (signatureBytes crypto schemes keys random memory payload) = true := by
  by_cases hthrows : toBufferThrows keys.pub maxDatagramSize = true
  · refine iff_of_true (fun built hbuilt => ?_) (.inl hthrows)
    rw [buildDatagram, if_pos hthrows] at hbuilt
    cases hbuilt
  · obtain ⟨built, hbuilt⟩ : ∃ built,
        buildDatagram crypto schemes keys random memory payload = some built := by
      rw [buildDatagram, if_neg hthrows]
      exact ⟨_, rfl⟩
    obtain ⟨hstands, hlen, hwrites⟩ := buildDatagram_spec hkeys hsignature hbuilt
    have hlength := length_signatureBytes crypto memory payload hsignature
    rw [Delivers, or_iff_right hthrows]
    constructor
    · intro h
      obtain ⟨hinside, hcall⟩ := h built hbuilt
      have hfits := hwrites.mp hinside
      refine ⟨hfits, ?_⟩
      rw [handleDatagram_built d fromPort toPort hkeys hlength hfits hstands hlen] at hcall
      by_contra hrejected
      rw [if_neg hrejected] at hcall
      cases hcall
    · rintro ⟨hfits, hverified⟩ other hother
      obtain rfl := Option.some.inj (hbuilt.symm.trans hother)
      refine ⟨hwrites.mpr hfits, ?_⟩
      rw [handleDatagram_built d fromPort toPort hkeys hlength hfits hstands hlen, if_pos hverified,
        hreceiver]
      rfl

/-- A datagram is rejected, or stays inside its buffer and arrives, if and only if the identity does not
fit or all of it fits and is signed as its identity accepts. A receiver is right about the bytes that it
got, if and only if they hold the header, and it calls nobody when they hold no identity. -/
theorem datagram_iff (hkeys : keys.pub.WellFormed crypto)
    (hsignature : ∀ message signature, keys.sign schemes random message = some signature →
      signature.length = keys.pub.getSignatureLen) {receiver : ρ}
    (hreceiver : d.receiverFor toPort = some receiver) (anyPort : UInt16) (hlen : len < 2 ^ 64) :
    (Delivers crypto schemes keys random memory payload d fromPort toPort receiver ↔
      toBufferThrows keys.pub maxDatagramSize = true ∨
        headerLenOf keys + payload.length ≤ maxDatagramSize ∧
          keys.pub.verify crypto (signedMessage crypto keys.pub payload)
            (signatureBytes crypto schemes keys random memory payload) = true) ∧
    (SoundlyHandled crypto d fromPort anyPort buf len ↔
      headerLenIn crypto buf len ≤ len ∧
        (IdentityEx.lenIn buf 0 len = 0 → acceptedIn crypto buf len = true →
          d.receiverFor anyPort = none)) :=
  ⟨delivers_iff hkeys hsignature hreceiver, soundlyHandled_iff d fromPort anyPort hlen⟩

/-! ### Examples -/

/-- A scheme whose signatures are the start of the message. -/
def prefixSignature (message : List UInt8) : List UInt8 := (message ++ List.replicate 40 0).take 40

def prefixCrypto : Crypto where
  sha256 _ := IdentHash.zero
  verify _ _ message signature := signature = prefixSignature message

def prefixSchemes : Schemes where
  createRandomKeys _ _ := ([], [])
  sign _ _ _ message := prefixSignature message
  generateElGamalKeyPair _ := (CBC.Block.const 0, CBC.Block.const 0)

/-- Keys of type DSA. -/
def dsaKeys : PrivateKeys where
  privateKey := List.replicate 256 0
  signingPrivateKey := List.replicate 20 0
  signer := some ⟨0, List.replicate 20 0⟩

theorem wellFormed_dsaKeys : dsaKeys.pub.WellFormed prefixCrypto where
  length_standardIdentity := List.length_replicate
  extendedLen_eq := by decide +kernel
  extendedBuffer_eq_none _ := rfl
  extendedBuffer_eq_some h := absurd rfl h
  identHash_eq := rfl
  verifier_eq := .inl rfl

theorem length_sign_dsaKeys (message signature : List UInt8)
    (h : dsaKeys.sign prefixSchemes [] message = some signature) :
    signature.length = dsaKeys.pub.getSignatureLen := by
  obtain rfl : prefixSignature message = signature := Option.some.inj h
  rw [prefixSignature, List.length_take, List.length_append, List.length_replicate]
  exact Nat.min_eq_left (Nat.le_add_left _ _)

theorem datagram_iff_example :
    (Delivers prefixCrypto prefixSchemes dsaKeys [] (fun _ => 0) [1, 2] ⟨some (), []⟩ 3 4 () ↔
      toBufferThrows dsaKeys.pub maxDatagramSize = true ∨
        headerLenOf dsaKeys + 2 ≤ maxDatagramSize ∧
          dsaKeys.pub.verify prefixCrypto (signedMessage prefixCrypto dsaKeys.pub [1, 2])
            (signatureBytes prefixCrypto prefixSchemes dsaKeys [] (fun _ => 0) [1, 2]) = true) ∧
    (SoundlyHandled prefixCrypto ⟨some (), []⟩ 3 5 (fun _ => 0) 500 ↔
      headerLenIn prefixCrypto (fun _ => 0) 500 ≤ 500 ∧
        (IdentityEx.lenIn (fun _ => 0) 0 500 = 0 → acceptedIn prefixCrypto (fun _ => 0) 500 = true →
          (⟨some (), []⟩ : DatagramDestination Unit).receiverFor 5 = none)) :=
  datagram_iff wellFormed_dsaKeys length_sign_dsaKeys (by rfl) 5 (by norm_num)

/-- A payload of the size of the buffer is written behind its end, and a datagram of no bytes has a
header that is longer than it. -/
theorem datagram_overflow :
    ¬ Delivers prefixCrypto prefixSchemes dsaKeys [] (fun _ => 0) (List.replicate maxDatagramSize 0)
        ⟨some (), []⟩ 3 4 () ∧
      ¬ SoundlyHandled prefixCrypto ⟨some (), []⟩ 3 4 (fun _ => 0) 0 := by
  constructor
  · rw [delivers_iff wellFormed_dsaKeys length_sign_dsaKeys (by rfl), List.length_replicate]
    rintro (hthrows | ⟨hfits, -⟩)
    · exact absurd hthrows (by decide)
    · exact absurd hfits (by decide)
  · intro h
    exact absurd h.header (by decide)

end Client
