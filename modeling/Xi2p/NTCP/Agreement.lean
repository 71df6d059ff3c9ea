import Xi2p.Lib.Runs
import Xi2p.NTCP.Handshake
import Xi2p.Router.SignedBuffer

/-!
# Agreement of the NTCP handshake

Two routers that both follow the protocol, over a connection that loses nothing. Bytes are read in any
order of turns.

* `Exchange.Honest`: keys that belong together on both sides.
* `Exchange.Completes`: what a handshake needs in addition. The server reads too much if the identity
  and the signature of the client do not fit into 448 bytes, and checks a timestamp in its own byte order.
* `Exchange.Stage`: how far the handshake is; `Stage.step`, `stage_run`.
* `agreement`, `completes_iff`: what the two ends know of each other, and when they get there.
-/

namespace NTCP

open Bytes I2NP CBC Identity

/-! ## Identities -/

namespace Handshake

variable {crypto : Crypto} {id : IdentityEx}

theorem getSignatureLen_of_verifier (h : id.verifier = none) :
    id.getSignatureLen = (signatureLenOf id.getSigningKeyType).getD dsaSignatureLength := by
  unfold IdentityEx.getSignatureLen IdentityEx.withVerifier
  rw [h]
  simp only [IdentityEx.createVerifier]
  cases signatureLenOf id.getSigningKeyType <;> rfl

theorem le_signatureLenOf {t : SigningKeyType} {n : ℕ} (h : signatureLenOf t = some n) : 40 ≤ n := by
  unfold signatureLenOf at h
  split at h <;> simp_all <;> omega

/-- No signature is shorter than that of DSA. -/
theorem le_getSignatureLen (h : id.WellFormed crypto) : dsaSignatureLength ≤ id.getSignatureLen := by
  rw [← h.getSignatureLen_fresh, getSignatureLen_of_verifier rfl]
  cases hlen : signatureLenOf id.fresh.getSigningKeyType with
  | none => exact le_rfl
  | some n => exact le_signatureLenOf hlen

theorem take_slice (m : Mem) (pos n k : ℕ) : (slice m pos n).take k = slice m pos (min k n) := by
  rcases Nat.le_total k n with hle | hle
  · obtain ⟨d, rfl⟩ := Nat.exists_eq_add_of_le hle
    rw [slice_add, List.take_left' (length_slice m pos k), Nat.min_eq_left hle]
  · rw [List.take_of_length_le (by rwa [length_slice]), Nat.min_eq_right hle]

/-- The length of a signature is known from the first 391 bytes of an identity. -/
theorem getSignatureLen_fromBuffer_congr (crypto : Crypto) {m m' : Mem} {pos : ℕ} (len : ℕ)
    (h : ∀ i < 391, m' (pos + i) = m (pos + i)) :
    (IdentityEx.fromBuffer crypto {} m' pos len).1.getSignatureLen =
      (IdentityEx.fromBuffer crypto {} m pos len).1.getSignatureLen := by
  -- only the standard identity and the start of the certificate count
  have hslice (off n : ℕ) (hle : off + n ≤ 391) : slice m' (pos + off) n = slice m (pos + off) n := by
    apply slice_congr
    intro i hi
    rw [Nat.add_assoc]
    exact h (off + i) (by omega)
  have hstandard : slice m' pos defaultIdentitySize = slice m pos defaultIdentitySize :=
    hslice 0 _ (by decide)
  have htype (n : ℕ) : (slice m' (pos + defaultIdentitySize) n).take 2 =
      (slice m (pos + defaultIdentitySize) n).take 2 := by
    rw [take_slice, take_slice]
    exact hslice _ _ (by rw [defaultIdentitySize]; omega)
  simp only [IdentityEx.fromBuffer, hstandard, hslice 385 2 (by decide)]
  split
  · rfl
  · split
    · rw [getSignatureLen_of_verifier rfl, getSignatureLen_of_verifier rfl]
      rfl
    · split
      · rw [getSignatureLen_of_verifier rfl, getSignatureLen_of_verifier rfl]
        simp only [IdentityEx.getSigningKeyType, htype]
        rfl
      · rfl

/-! ## Keys -/

theorem blockPadding_lt (len : ℕ) : blockPadding len < 16 := by
  have hmod : len &&& 0x0F = len % 16 := Nat.and_two_pow_sub_one_eq_mod len 4
  rw [blockPadding, hmod]
  split <;> omega

theorem dvd_add_blockPadding (len : ℕ) : ivSize ∣ len + blockPadding len := by
  have hmod : len &&& 0x0F = len % 16 := Nat.and_two_pow_sub_one_eq_mod len 4
  rw [blockPadding, hmod, Nat.dvd_iff_mod_eq_zero]
  split <;> simp only [ivSize] <;> omega

/-- A shared key with a byte that is not zero in front of its last 31 determines the session key. -/
theorem sessionKey_congr {shared : Block pubKeySize} (h : ∃ i ≤ 224, shared.bytes.getD i 0 ≠ 0)
    (m m' : Mem) (unset unset' : List UInt8) :
    sessionKey (store m 0 shared.bytes) unset = sessionKey (store m' 0 shared.bytes) unset' := by
  have hbyte {i : ℕ} (hi : i < 256) (m : Mem) : store m 0 shared.bytes i = shared.bytes.getD i 0 := by
    have hlt : i < shared.bytes.length := by rwa [shared.length_bytes]
    show (if 0 ≤ i then shared.bytes.getD (i - 0) (m i) else m i) = _
    rw [if_pos (Nat.zero_le i), Nat.sub_zero, List.getD, List.getD, List.getElem?_eq_getElem hlt,
      Option.getD_some, Option.getD_some]
  have hslice (i n : ℕ) (hi : i + n ≤ 256) :
      slice (store m 0 shared.bytes) i n = slice (store m' 0 shared.bytes) i n := by
    apply slice_congr
    intro k hk
    rw [hbyte (by omega), hbyte (by omega)]
  have hfind (m : Mem) : (List.range' 1 pubKeySize).find? (store m 0 shared.bytes · ≠ 0) =
      ((List.range' 1 224).find? (shared.bytes.getD · 0 ≠ 0)).or
        ((List.range' 225 32).find? (store m 0 shared.bytes · ≠ 0)) := by
    have hrange : List.range' 1 pubKeySize = List.range' 1 224 ++ List.range' 225 32 :=
      (List.range'_append_1 (s := 1) (m := 224) (n := 32)).symm
    rw [hrange, List.find?_append]
    congr 1
    apply List.find?_congr
    intro i hi
    have hlt := (List.mem_range'_1.mp hi).2
    simp only [hbyte (show i < 256 by omega) m]
  simp only [sessionKey, hfind, hbyte (show 0 < 256 by decide), hslice 0 31 (by decide),
    hslice 0 32 (by decide)]
  split
  · rfl
  · split
    · rfl
    next hzero =>
      obtain ⟨i, hi, hne⟩ := h
      have hpos : i ≠ 0 := by
        rintro rfl
        exact hzero hne
      -- the search ends within the shared key
      have hsome : ((List.range' 1 224).find? (shared.bytes.getD · 0 ≠ 0)).isSome := by
        rw [List.find?_isSome]
        exact ⟨i, List.mem_range'_1.mpr (by omega), by simpa using hne⟩
      obtain ⟨k, hk⟩ := Option.isSome_iff_exists.mp hsome
      have hlt := (List.mem_range'_1.mp (List.mem_of_find?_eq_some hk)).2
      rw [hk]
      exact hslice k 32 (by omega)

end Handshake

/-! ## Two honest ends -/

/-- The keys of a router sign `data`, and their signature is accepted for nothing else. -/
def HandshakeCrypto.SignsOnly (crypto : HandshakeCrypto) (keys : PrivateKeys) (random data : List UInt8) : Prop :=
  ∃ signature, keys.sign crypto.schemes random data = some signature ∧
    signature.length = keys.pub.getSignatureLen ∧
      ∀ message, keys.pub.verify crypto.identity message signature = true ↔ message = data

/-- What the two ends of a connection start with. -/
structure Exchange where
  crypto : HandshakeCrypto
  client : Party
  server : Party
  /-- The identity in the `RouterInfo` that the client connects to. -/
  remote : IdentityEx
  shared : Block pubKeySize
  clientBuffer : Mem
  serverBuffer : Mem

namespace Exchange

variable (e : Exchange)

/-- Both ends before the first turn. -/
def start : World := World.start e.crypto e.client e.server e.remote e.clientBuffer e.serverBuffer

/-- Both ends after some turns. -/
def run (turns : List Turn) : World := Runs.exec (World.step e.crypto) e.start turns

/-! ### Messages -/

def key : List UInt8 := sessionKey (store e.client.memory 0 e.shared.bytes) e.client.unsetKey

def hxXorHI : Block hashSize :=
  (hashBlock (e.crypto.identity.sha256 e.client.dhPublicKey.bytes)).xor
    (hashBlock e.server.keys.pub.identHash)

/-- `Phase1`. -/
def phase1 : List UInt8 := e.client.dhPublicKey.bytes ++ e.hxXorHI.bytes

/-- The encryption of the client, before its first message. -/
def fromClient : Encryption ivSize := ⟨e.crypto.cipher e.key, Block.ofBytes e.hxXorHI.bytes 16⟩

/-- The encryption of the server, before its first message. -/
def fromServer : Encryption ivSize := ⟨e.crypto.cipher e.key, Block.ofBytes e.server.dhPublicKey.bytes 240⟩

def tsA : List UInt8 := writeBE 4 e.client.seconds

def tsB : List UInt8 := e.server.order.timestampB e.server.seconds

/-- The encrypted part of `Phase2`. -/
def created : List UInt8 :=
  (e.crypto.identity.sha256 (e.client.dhPublicKey.bytes ++ e.server.dhPublicKey.bytes)).bytes ++ e.tsB ++
    slice e.server.padding 0 12

/-- `Phase2`. -/
def phase2 : List UInt8 := e.server.dhPublicKey.bytes ++ (e.fromServer.encryptBytes e.created).1

/-- What each side signs, with the hash of the other. -/
def signed (hash : IdentHash) : List UInt8 :=
  e.client.dhPublicKey.bytes ++ e.server.dhPublicKey.bytes ++ hash.bytes ++ e.tsA ++ e.tsB

def signatureA : List UInt8 :=
  (e.client.keys.sign e.crypto.schemes e.client.random
    (e.signed e.server.keys.pub.identHash)).getD []

def signatureB : List UInt8 :=
  (e.server.keys.sign e.crypto.schemes e.server.random
    (e.signed e.client.keys.pub.identHash)).getD []

/-- What stands in front of the padding of `Phase3`. -/
def confirmFront : List UInt8 :=
  writeBE 2 e.client.keys.pub.getFullLen ++ e.client.keys.pub.toBuffer ++ e.tsA

/-- The padding of `Phase3`. -/
def confirmPadding : ℕ := blockPadding (e.confirmFront.length + e.client.keys.pub.getSignatureLen)

/-- The plain text of `Phase3`. -/
def confirm : List UInt8 := e.confirmFront ++ slice e.client.padding 0 e.confirmPadding ++ e.signatureA

/-- `Phase3`. -/
def phase3 : List UInt8 := (e.fromClient.encryptBytes e.confirm).1

/-- The length of `Phase4`. -/
def phase4Size : ℕ :=
  e.server.keys.pub.getSignatureLen + blockPadding e.server.keys.pub.getSignatureLen

/-- The encryption of the server, after its first message. -/
def fromServer' : Encryption ivSize := (e.fromServer.encryptBytes e.created).2

/-- The encryption of the client, after its last message. -/
def fromClient' : Encryption ivSize := (e.fromClient.encryptBytes e.confirm).2

/-! ### What the two ends have -/

/-- The client knows the server, the two agree on a key and sign with their own keys, and the first message
of the client with a signature fits its buffer. -/
structure Honest : Prop where
  client_wellFormed : e.client.keys.pub.WellFormed e.crypto.identity
  server_wellFormed : e.server.keys.pub.WellFormed e.crypto.identity
  remote_wellFormed : e.remote.WellFormed e.crypto.identity
  remote_eq : e.remote.fresh = e.server.keys.pub.fresh
  client_signs :
    e.crypto.SignsOnly e.client.keys e.client.random (e.signed e.server.keys.pub.identHash)
  server_signs :
    e.crypto.SignsOnly e.server.keys e.server.random (e.signed e.client.keys.pub.identHash)
  client_agree : e.crypto.agree e.client.dhPrivateKey e.server.dhPublicKey.bytes = some e.shared
  server_agree : e.crypto.agree e.server.dhPrivateKey e.client.dhPublicKey.bytes = some e.shared
  shared_ne_zero : ∃ i ≤ 224, e.shared.bytes.getD i 0 ≠ 0
  fits : e.client.keys.pub.getFullLen + e.client.keys.pub.getSignatureLen + 21 ≤ bufferSize

/-- What a handshake between honest routers needs: the server has no session with the client, the identity
and the signature of the client fit the first read, and the server stores numbers as they are sent, or the
four bytes of the time of the client are a palindrome. -/
structure Completes : Prop where
  first : e.client.keys.pub.identHash ∉ e.server.sessions
  fits : e.client.keys.pub.getFullLen + e.client.keys.pub.getSignatureLen ≤ 442
  order : e.server.order = .big ∨ e.tsA.reverse = e.tsA

/-! ### Stages -/

/-- The client has sent its first message. -/
structure Requested (c : Session) : Prop where
  party_eq : c.party = e.client
  remoteIdentity_eq : c.remoteIdentity = e.remote
  x_eq : c.x = e.client.dhPublicKey
  hxXorHI_eq : c.hxXorHI = e.hxXorHI
  pending : c.pending = .phase1Sent ∨ c.pending = .phase2Received
  isEstablished_eq : c.isEstablished = false
  isTerminated_eq : c.isTerminated = false

/-- The client has sent its last message. -/
structure Confirmed (c : Session) : Prop where
  party_eq : c.party = e.client
  remoteIdentity_eq : c.remoteIdentity = e.remote
  x_eq : c.x = e.client.dhPublicKey
  y_eq : c.y = e.server.dhPublicKey
  timestamp_eq : c.timestamp = e.tsB
  encryption_eq : c.encryption = e.fromClient'
  inSync : InSync e.fromServer' c.decryption
  pending : c.pending = .phase3Sent e.tsA ∨ c.pending = .phase4Received e.tsA e.phase4Size
  isEstablished_eq : c.isEstablished = false
  isTerminated_eq : c.isTerminated = false

/-- The server has not read anything. -/
structure Listening (s : Session) : Prop where
  party_eq : s.party = e.server
  remoteIdentity_eq : s.remoteIdentity = {}
  pending : s.pending = .phase1Received
  isEstablished_eq : s.isEstablished = false
  isTerminated_eq : s.isTerminated = false

/-- The server has sent its first message. -/
structure Created (s : Session) : Prop where
  party_eq : s.party = e.server
  remoteIdentity_eq : s.remoteIdentity = {}
  x_eq : s.x = e.client.dhPublicKey
  y_eq : s.y = e.server.dhPublicKey
  encryption_eq : s.encryption = e.fromServer'
  inSync : InSync e.fromClient s.decryption
  pending : s.pending = .phase2Sent e.tsB ∨ s.pending = .phase3Received e.tsB
  isEstablished_eq : s.isEstablished = false
  isTerminated_eq : s.isTerminated = false

/-- The server has sent its last message, whose plain text is given. -/
structure Answered (answer : List UInt8) (s : Session) : Prop where
  remoteIdentity_eq : s.remoteIdentity = e.client.keys.pub.fresh
  x_eq : s.x = e.client.dhPublicKey
  y_eq : s.y = e.server.dhPublicKey
  encryption_eq : s.encryption = (e.fromServer'.encryptBytes answer).2
  inSync : InSync e.fromClient' s.decryption
  pending : s.pending = .phase4Sent ∧ s.isEstablished = false ∨ s.pending = .payload ∧ s.isEstablished = true
  isTerminated_eq : s.isTerminated = false

/-- The server has closed the connection, or waits for more bytes than there are. -/
structure Failed (s : Session) (arrived : List UInt8) : Prop where
  isEstablished_eq : s.isEstablished = false
  stuck : s.isTerminated = true ∨
    ∃ tsB paddingLen count, s.pending = .phase3ExtraReceived tsB paddingLen count ∧ arrived.length < count

/-- The client has read the last message. -/
structure Finished (answer : List UInt8) (c : Session) : Prop where
  remoteIdentity_eq : c.remoteIdentity = e.server.keys.pub.fresh
  x_eq : c.x = e.client.dhPublicKey
  y_eq : c.y = e.server.dhPublicKey
  encryption_eq : c.encryption = e.fromClient'
  inSync : InSync (e.fromServer'.encryptBytes answer).2 c.decryption
  pending : c.pending = .payload
  isEstablished_eq : c.isEstablished = true
  isTerminated_eq : c.isTerminated = false

/-- How far a handshake is. -/
inductive Stage : World → Prop
  | requested {c s} (hc : e.Requested c) (hs : e.Listening s) : Stage ⟨c, s, e.phase1, []⟩
  | created {c s} (hc : e.Requested c) (hs : e.Created s) : Stage ⟨c, s, [], e.phase2⟩
  | confirmed {c s} (hc : e.Confirmed c) (hs : e.Created s) : Stage ⟨c, s, e.phase3, []⟩
  | failed {c s arrived} (hnot : ¬ e.Completes) (hc : e.Confirmed c) (hs : Failed s arrived) :
    Stage ⟨c, s, arrived, []⟩
  | answered {c s answer} (hcompletes : e.Completes) (hlength : answer.length = e.phase4Size)
    (hanswer : e.signatureB <+: answer) (hc : e.Confirmed c) (hs : e.Answered answer s) :
    Stage ⟨c, s, [], (e.fromServer'.encryptBytes answer).1⟩
  | finished {c s answer} (hcompletes : e.Completes) (hc : e.Finished answer c)
    (hs : e.Answered answer s) : Stage ⟨c, s, [], []⟩

variable {e}

theorem bytes_readU32_tsA : e.server.order.bytes (readU32 e.tsA) = e.tsA ↔
    e.server.order = .big ∨ e.tsA.reverse = e.tsA := by
  have hword : writeU32 (readU32 e.tsA) = e.tsA := writeU32_readU32 (length_writeBE 4 _)
  cases e.server.order with
  | little => simp [ByteOrder.bytes, hword]
  | big => simp [ByteOrder.bytes, hword]

/-! ### Lengths -/

theorem Honest.identHash_eq (h : e.Honest) : e.remote.identHash = e.server.keys.pub.identHash := by
  have hfresh : e.remote.fresh.identHash = e.server.keys.pub.fresh.identHash := congrArg _ h.remote_eq
  exact hfresh

theorem Honest.getSignatureLen_remote (h : e.Honest) :
    e.remote.getSignatureLen = e.server.keys.pub.getSignatureLen := by
  rw [← h.remote_wellFormed.getSignatureLen_fresh, h.remote_eq,
    h.server_wellFormed.getSignatureLen_fresh]

theorem Honest.verify_remote (h : e.Honest) (message signature : List UInt8) :
    e.remote.verify e.crypto.identity message signature =
      e.server.keys.pub.verify e.crypto.identity message signature := by
  rw [← h.remote_wellFormed.verify_fresh, h.remote_eq, h.server_wellFormed.verify_fresh]

theorem Honest.signatureA_spec (h : e.Honest) :
    e.client.keys.sign e.crypto.schemes e.client.random (e.signed e.server.keys.pub.identHash) =
        some e.signatureA ∧
      e.signatureA.length = e.client.keys.pub.getSignatureLen ∧
        ∀ message, e.client.keys.pub.verify e.crypto.identity message e.signatureA = true ↔
          message = e.signed e.server.keys.pub.identHash := by
  obtain ⟨signature, hsign, hlength, hverify⟩ := h.client_signs
  have heq : e.signatureA = signature := by rw [signatureA, hsign, Option.getD_some]
  rw [heq]
  exact ⟨hsign, hlength, hverify⟩

theorem Honest.signatureB_spec (h : e.Honest) :
    e.server.keys.sign e.crypto.schemes e.server.random (e.signed e.client.keys.pub.identHash) =
        some e.signatureB ∧
      e.signatureB.length = e.server.keys.pub.getSignatureLen ∧
        ∀ message, e.server.keys.pub.verify e.crypto.identity message e.signatureB = true ↔
          message = e.signed e.client.keys.pub.identHash := by
  obtain ⟨signature, hsign, hlength, hverify⟩ := h.server_signs
  have heq : e.signatureB = signature := by rw [signatureB, hsign, Option.getD_some]
  rw [heq]
  exact ⟨hsign, hlength, hverify⟩

theorem length_phase1 (e : Exchange) : e.phase1.length = phase1Size := by
  rw [phase1, List.length_append, Block.length_bytes, Block.length_bytes]

theorem length_tsB (e : Exchange) : e.tsB.length = 4 := by
  rw [tsB]
  cases e.server.order with
  | little => rw [ByteOrder.timestampB, List.length_take, length_writeBE]; rfl
  | big => exact length_writeBE 4 _

theorem length_created (e : Exchange) : e.created.length = 48 := by
  simp only [created, List.length_append, IdentHash.length_eq, length_tsB, length_slice]

theorem length_phase2 (e : Exchange) : e.phase2.length = phase2Size := by
  have hdvd : ivSize ∣ e.created.length := by
    rw [length_created]
    decide
  rw [phase2, List.length_append, Block.length_bytes, Encryption.length_encryptBytes _ hdvd, length_created]

theorem Honest.length_confirmFront (h : e.Honest) :
    e.confirmFront.length = e.client.keys.pub.getFullLen + 6 := by
  simp only [confirmFront, tsA, List.length_append, length_writeBE,
    h.client_wellFormed.length_toBuffer]
  omega

theorem Honest.length_confirm (h : e.Honest) :
    e.confirm.length = e.confirmFront.length + e.client.keys.pub.getSignatureLen + e.confirmPadding := by
  rw [confirm, List.length_append, List.length_append, length_slice, h.signatureA_spec.2.1]
  omega

theorem Honest.dvd_length_confirm (h : e.Honest) : ivSize ∣ e.confirm.length := by
  rw [h.length_confirm]
  exact Handshake.dvd_add_blockPadding _

theorem Honest.length_phase3 (h : e.Honest) : e.phase3.length = e.confirm.length :=
  Encryption.length_encryptBytes _ h.dvd_length_confirm

/-! ### Client -/

/-- What the client confirms with. -/
theorem Honest.sendPhase3_spec (h : e.Honest) {c : Session} (hparty : c.party = e.client)
    (hremote : c.remoteIdentity = e.remote) (hx : c.x = e.client.dhPublicKey)
    (hy : c.y = e.server.dhPublicKey) (htimestamp : c.timestamp = e.tsB)
    (hencryption : c.encryption = e.fromClient) (hsync : InSync e.fromServer' c.decryption)
    (hestablished : c.isEstablished = false) (hterminated : c.isTerminated = false) :
    ∃ c', c.sendPhase3 e.crypto = (c', e.phase3) ∧ e.Confirmed c' := by
  obtain ⟨hsign, hlength, -⟩ := h.signatureA_spec
  have hdata : e.client.dhPublicKey.bytes ++ e.server.dhPublicKey.bytes ++ e.remote.identHash.bytes ++
      writeBE 4 e.client.seconds ++ e.tsB = e.signed e.server.keys.pub.identHash := by
    rw [h.identHash_eq]
    rfl
  have hpos : e.confirmFront.length + e.confirmPadding =
      0 + (e.confirmFront ++ slice e.client.padding 0 e.confirmPadding).length := by
    rw [Nat.zero_add, List.length_append, length_slice]
  -- the signature stands behind the padding
  have hbuffer : slice (store (store c.receiveBuffer 0
      (e.confirmFront ++ slice e.client.padding 0 e.confirmPadding))
      (e.confirmFront.length + e.confirmPadding) e.signatureA) 0
      (e.confirmFront.length + e.client.keys.pub.getSignatureLen + e.confirmPadding) = e.confirm := by
    rw [hpos, store_store, ← h.length_confirm]
    exact slice_store_self _ 0 e.confirm
  have hfront : writeBE 2 e.client.keys.pub.getFullLen ++ e.client.keys.pub.toBuffer ++
      writeBE 4 e.client.seconds = e.confirmFront := rfl
  have hpadding : blockPadding (e.confirmFront.length + e.client.keys.pub.getSignatureLen) =
      e.confirmPadding := rfl
  have hsend : c.sendPhase3 e.crypto =
      ({ c with
          encryption := e.fromClient'
          pending := .phase3Sent e.tsA
          receiveBuffer := store (store (store c.receiveBuffer 0
            (e.confirmFront ++ slice e.client.padding 0 e.confirmPadding))
            (e.confirmFront.length + e.confirmPadding) e.signatureA) 0 e.phase3 }, e.phase3) := by
    simp only [Session.sendPhase3, Session.signTo, Session.signedData, Session.encryptAndSend, hparty,
      hremote, hx, hy, htimestamp, hencryption, hfront, hpadding, hdata, hsign, hbuffer]
    rfl
  rw [hsend]
  exact ⟨_, rfl, hparty, hremote, hx, hy, htimestamp, rfl, hsync, .inl rfl, hestablished, hterminated⟩

/-- A client that has sent its first message answers the message of the server. -/
theorem Requested.handlePhase2Received (h : e.Honest) {c : Session} (hc : e.Requested c) :
    ∃ c', c.handlePhase2Received e.crypto e.phase2 = (c', e.phase3) ∧ e.Confirmed c' := by
  have hy : (Block.ofBytes e.phase2 0 : Block pubKeySize) = e.server.dhPublicKey :=
    Block.ofBytes_append [] e.server.dhPublicKey _
  have hdrop : e.phase2.drop pubKeySize = (e.fromServer.encryptBytes e.created).1 :=
    List.drop_left' (Block.length_bytes _)
  have hkey : sessionKey (store e.client.memory 0 e.shared.bytes) e.client.unsetKey = e.key := rfl
  -- both ends take the IV from the end of the public key of the server
  have hsync : InSync e.fromServer
      ⟨e.crypto.cipher e.key, Block.ofBytes e.server.dhPublicKey.bytes 240⟩ := ⟨rfl, rfl⟩
  have hdvd : ivSize ∣ e.created.length := by
    rw [length_created]
    decide
  obtain ⟨hplain, hsync'⟩ := hsync.decryptBytes (by decide) hdvd
  have hhash : e.created.take hashSize = (e.crypto.identity.sha256
      (e.client.dhPublicKey.bytes ++ e.server.dhPublicKey.bytes)).bytes := by
    rw [created, List.append_assoc, List.take_left' (IdentHash.length_eq _)]
  have htimestamp : (e.created.drop hashSize).take 4 = e.tsB := by
    rw [created, List.append_assoc, List.drop_left' (IdentHash.length_eq _),
      List.take_left' e.length_tsB]
  simp only [Session.handlePhase2Received, Session.createAESKey, hy, hdrop, hc.party_eq, h.client_agree, hkey,
    hplain, hhash, htimestamp, hc.x_eq, hc.hxXorHI_eq, if_true]
  exact h.sendPhase3_spec rfl hc.remoteIdentity_eq rfl rfl rfl rfl hsync' hc.isEstablished_eq
    hc.isTerminated_eq

theorem dvd_phase4Size (e : Exchange) : ivSize ∣ e.phase4Size := Handshake.dvd_add_blockPadding _

/-- A client that has sent its last message accepts the answer of the server. -/
theorem Confirmed.handlePhase4Received (h : e.Honest) {c : Session} (hc : e.Confirmed c)
    {answer : List UInt8} (hlength : answer.length = e.phase4Size) (hanswer : e.signatureB <+: answer) :
    e.Finished answer
      (c.handlePhase4Received e.crypto e.tsA (e.fromServer'.encryptBytes answer).1) := by
  -- the answer starts with the signature of the server
  obtain ⟨-, hsignature, hverify⟩ := h.signatureB_spec
  have hdvd : ivSize ∣ answer.length := hlength ▸ e.dvd_phase4Size
  obtain ⟨hplain, hsync⟩ := hc.inSync.decryptBytes (by decide) hdvd
  have hslice : slice (store c.receiveBuffer 0 answer) 0 e.server.keys.pub.getSignatureLen =
      e.signatureB := by
    obtain ⟨padding, hpadding⟩ := hanswer
    rw [← hpadding, ← hsignature]
    exact (standsAt_append.mp (standsAt_store _ _ _)).1
  have hdata : e.client.dhPublicKey.bytes ++ e.server.dhPublicKey.bytes ++
      e.client.keys.pub.identHash.bytes ++ e.tsA ++ e.tsB = e.signed e.client.keys.pub.identHash := rfl
  have hok : e.server.keys.pub.verify e.crypto.identity (e.signed e.client.keys.pub.identHash)
      e.signatureB = true := (hverify _).mpr rfl
  simp only [Session.handlePhase4Received, Session.decryptTo, Session.signedData, hc.party_eq,
    hc.remoteIdentity_eq, hc.x_eq, hc.y_eq, hc.timestamp_eq, hplain, h.getSignatureLen_remote,
    h.verify_remote, hslice, hdata, hok, if_true]
  exact ⟨h.remote_eq, rfl, rfl, hc.encryption_eq, hsync, rfl, rfl, hc.isTerminated_eq⟩

/-! ### Server -/

/-- A server that has not read anything answers the request of the client. -/
theorem Listening.handlePhase1Received (h : e.Honest) {s : Session} (hs : e.Listening s) :
    ∃ s', s.handlePhase1Received e.crypto e.phase1 = (s', e.phase2) ∧ e.Created s' := by
  have hx : (Block.ofBytes e.phase1 0 : Block pubKeySize) = e.client.dhPublicKey :=
    Block.ofBytes_append [] e.client.dhPublicKey _
  have hxor : (Block.ofBytes e.phase1 pubKeySize : Block hashSize) = e.hxXorHI := by
    have happend := Block.ofBytes_append e.client.dhPublicKey.bytes e.hxXorHI []
    rwa [List.append_nil, Block.length_bytes] at happend
  have hident : e.hxXorHI.xor (hashBlock e.server.keys.pub.identHash) =
      hashBlock (e.crypto.identity.sha256 e.client.dhPublicKey.bytes) := by
    rw [hxXorHI, Block.xor_comm (hashBlock _), Block.xor_xor_cancel]
  -- what was in memory before does not count in the key
  have hkey : sessionKey (store e.server.memory 0 e.shared.bytes) e.server.unsetKey = e.key :=
    Handshake.sessionKey_congr h.shared_ne_zero _ _ _ _
  have hcreated : (e.crypto.identity.sha256
      (e.client.dhPublicKey.bytes ++ e.server.dhPublicKey.bytes)).bytes ++
      e.server.order.timestampB e.server.seconds ++ slice e.server.padding 0 12 = e.created := rfl
  simp only [Session.handlePhase1Received, Session.sendPhase2, Session.createAESKey, hx, hxor, hs.party_eq,
    hident, h.server_agree, hkey, hcreated, if_true]
  exact ⟨_, rfl, rfl, hs.remoteIdentity_eq, rfl, rfl, rfl, ⟨rfl, rfl⟩, .inl rfl, hs.isEstablished_eq,
    hs.isTerminated_eq⟩

/-- Where the parts of `Phase3` stand. -/
theorem Honest.standsAt_confirm (h : e.Honest) (buffer : Mem) :
    let m := store buffer 0 e.confirm
    let pos := e.client.keys.pub.getFullLen + 2
    readBE (slice m 0 2) = e.client.keys.pub.getFullLen ∧ StandsAt m 2 e.client.keys.pub.toBuffer ∧
      slice m pos 4 = e.tsA ∧
        slice m (pos + 4 + e.confirmPadding) e.client.keys.pub.getSignatureLen = e.signatureA := by
  intro m pos
  have hfull := h.fits
  simp only [bufferSize] at hfull
  -- from the end of the confirmation to its front
  obtain ⟨hrest, hsignature⟩ := standsAt_append.mp (standsAt_store buffer 0 e.confirm)
  obtain ⟨hfront, -⟩ := standsAt_append.mp hrest
  obtain ⟨hidentity, hts⟩ := standsAt_append.mp hfront
  obtain ⟨hsize, hidentity⟩ := standsAt_append.mp hidentity
  have hmiddle : 0 + (writeBE 2 e.client.keys.pub.getFullLen ++ e.client.keys.pub.toBuffer).length = pos := by
    rw [List.length_append, length_writeBE, h.client_wellFormed.length_toBuffer]
    omega
  have hend : 0 + (e.confirmFront ++ slice e.client.padding 0 e.confirmPadding).length =
      pos + 4 + e.confirmPadding := by
    rw [List.length_append, h.length_confirmFront, length_slice]
    omega
  rw [hmiddle] at hts
  rw [hend] at hsignature
  refine ⟨?_, ?_, ?_, ?_⟩
  · rw [hsize.readBE_eq]
    exact Nat.mod_eq_of_lt (by omega)
  · rwa [length_writeBE] at hidentity
  · rw [StandsAt, tsA, length_writeBE] at hts
    exact hts
  · rw [StandsAt, h.signatureA_spec.2.1] at hsignature
    exact hsignature

/-- What the first read of the third phase finds, whether the rest has arrived or not. -/
theorem Honest.firstRead (h : e.Honest) (buffer : Mem) :
    448 ≤ e.confirm.length ∧
      e.phase3.take phase3Unencrypted = (e.fromClient.encryptBytes (e.confirm.take phase3Unencrypted)).1 ∧
        ivSize ∣ (e.confirm.take phase3Unencrypted).length ∧
          readBE (slice (store buffer 0 (e.confirm.take phase3Unencrypted)) 0 2) =
            e.client.keys.pub.getFullLen ∧
          (IdentityEx.fromBuffer e.crypto.identity {}
            (store buffer 0 (e.confirm.take phase3Unencrypted)) 2
              e.client.keys.pub.getFullLen).1.getSignatureLen = e.client.keys.pub.getSignatureLen := by
  have hsignatureLen := Handshake.le_getSignatureLen h.client_wellFormed
  have hfullLen : 387 ≤ e.client.keys.pub.getFullLen := Nat.le_add_left _ _
  have hlength := h.length_confirm
  have hfront := h.length_confirmFront
  have hdvd := h.dvd_length_confirm
  simp only [dsaSignatureLength] at hsignatureLen
  simp only [ivSize] at hdvd
  have hle : 448 ≤ e.confirm.length := by omega
  have htake : (e.confirm.take phase3Unencrypted).length = 448 := by
    rw [List.length_take]
    exact Nat.min_eq_left hle
  have hdvdTake : ivSize ∣ (e.confirm.take phase3Unencrypted).length := by
    rw [htake]
    decide
  have hdvdDrop : ivSize ∣ (e.confirm.drop phase3Unencrypted).length := by
    rw [List.length_drop]
    exact Nat.dvd_sub hdvd (by decide)
  obtain ⟨hsize, hidentity, -, -⟩ := h.standsAt_confirm buffer
  -- the bytes that have been read are those of the whole message
  have hagree (i : ℕ) (hi : i < 448) :
      store buffer 0 (e.confirm.take phase3Unencrypted) i = store buffer 0 e.confirm i := by
    simp [store, phase3Unencrypted, hi]
  refine ⟨hle, ?_, hdvdTake, ?_, ?_⟩
  · have happend := e.fromClient.encryptBytes_append (by decide) hdvdTake hdvdDrop
    rw [List.take_append_drop] at happend
    rw [phase3, happend]
    apply List.take_left'
    rw [Encryption.length_encryptBytes _ hdvdTake, htake]
  · rw [← hsize, slice_congr fun i hi => hagree (0 + i) (by omega)]
  · rw [Handshake.getSignatureLen_fromBuffer_congr e.crypto.identity _
      fun i hi => hagree (2 + i) (by omega)]
    rw [h.client_wellFormed.fromBuffer_toBuffer {} hidentity]
    exact h.client_wellFormed.getSignatureLen_fresh

/-- A terminated session stays terminated. -/
theorem isTerminated_handlePhase3 (crypto : HandshakeCrypto) {s : Session} (h : s.isTerminated = true)
    (tsB : List UInt8) (paddingLen : ℕ) : (s.handlePhase3 crypto tsB paddingLen).1.isTerminated = true := by
  unfold Session.handlePhase3
  dsimp only
  split
  · exact h
  · rfl

theorem isEstablished_handlePhase3 (crypto : HandshakeCrypto) {s : Session} (h : s.isEstablished = false)
    (tsB : List UInt8) (paddingLen : ℕ) : (s.handlePhase3 crypto tsB paddingLen).1.isEstablished = false := by
  unfold Session.handlePhase3
  dsimp only
  split
  · exact h
  · rfl

/-- What a server does with a complete third phase. -/
theorem Honest.handlePhase3_spec (h : e.Honest) {s : Session} {buffer : Mem} (hparty : s.party = e.server)
    (hremote : s.remoteIdentity = e.client.keys.pub.fresh) (hx : s.x = e.client.dhPublicKey)
    (hy : s.y = e.server.dhPublicKey) (hbuffer : s.receiveBuffer = store buffer 0 e.confirm)
    (hencryption : s.encryption = e.fromServer') (hsync : InSync e.fromClient' s.decryption)
    (hestablished : s.isEstablished = false) (hterminated : s.isTerminated = false) :
    if e.server.order.bytes (readU32 e.tsA) = e.tsA then
      ∃ answer, answer.length = e.phase4Size ∧ e.signatureB <+: answer ∧
        ∃ s', s.handlePhase3 e.crypto e.tsB e.confirmPadding =
          (s', (e.fromServer'.encryptBytes answer).1) ∧ e.Answered answer s'
    else s.handlePhase3 e.crypto e.tsB e.confirmPadding = (s.terminate, []) := by
  obtain ⟨-, -, htsA, hsignatureA⟩ := h.standsAt_confirm buffer
  obtain ⟨-, -, hverifyA⟩ := h.signatureA_spec
  obtain ⟨hsignB, hlengthB, -⟩ := h.signatureB_spec
  have hfull : s.remoteIdentity.getFullLen = e.client.keys.pub.getFullLen := by
    rw [hremote]
    rfl
  have hsignatureLen : s.remoteIdentity.getSignatureLen = e.client.keys.pub.getSignatureLen := by
    rw [hremote, h.client_wellFormed.getSignatureLen_fresh]
  have hverify (data : List UInt8) : s.remoteIdentity.verify e.crypto.identity data e.signatureA = true ↔
      data = e.signed e.server.keys.pub.identHash := by
    rw [hremote, h.client_wellFormed.verify_fresh]
    exact hverifyA data
  -- what the server checks is what the client has signed, unless the bytes of the time are in another order
  have hdata : e.client.dhPublicKey.bytes ++ e.server.dhPublicKey.bytes ++
      e.server.keys.pub.identHash.bytes ++ e.server.order.bytes (readU32 e.tsA) ++ e.tsB =
        e.signed e.server.keys.pub.identHash ↔ e.server.order.bytes (readU32 e.tsA) = e.tsA := by
    rw [signed, List.append_left_inj, List.append_right_inj]
  have hanswerData : e.client.dhPublicKey.bytes ++ e.server.dhPublicKey.bytes ++
      e.client.keys.pub.identHash.bytes ++ e.tsA ++ e.tsB = e.signed e.client.keys.pub.identHash := rfl
  have hidentHash : s.remoteIdentity.fresh.identHash = e.client.keys.pub.identHash := by
    rw [hremote]
    rfl
  simp only [Session.handlePhase3, Session.signedData, phase3AliceRI, phase3AliceTS, hfull, hsignatureLen,
    hbuffer, hparty, hx, hy, htsA, hsignatureA]
  split
  next horder =>
    rw [if_pos ((hverify _).mpr (hdata.mpr horder))]
    refine ⟨slice (store (store buffer 0 e.confirm) 0 e.signatureB) 0 e.phase4Size, length_slice _ _ _, ?_,
      ?_⟩
    · rw [phase4Size, slice_add, ← hlengthB]
      exact ⟨_, congrArg (· ++ _) (slice_store_self _ 0 e.signatureB).symm⟩
    · simp only [Session.sendPhase4, Session.signTo, Session.encryptAndSend, Session.signedData, hidentHash,
        horder, hanswerData, hsignB, hencryption]
      refine ⟨_, rfl, ?_, rfl, rfl, rfl, hsync, .inl ⟨rfl, hestablished⟩, hterminated⟩
      rw [hremote]
      rfl
  next horder =>
    rw [if_neg (by rwa [hverify, hdata])]

/-- What a server does with the first read of the third phase. -/
theorem Created.handlePhase3Received (h : e.Honest) {s : Session} (hs : e.Created s) :
    let r := s.handlePhase3Received e.crypto e.tsB (e.phase3.take phase3Unencrypted)
    (e.Completes → e.phase3.drop phase3Unencrypted = [] ∧ ∃ answer, answer.length = e.phase4Size ∧
      e.signatureB <+: answer ∧ r.2 = (e.fromServer'.encryptBytes answer).1 ∧ e.Answered answer r.1) ∧
    (¬ e.Completes → Failed r.1 (e.phase3.drop phase3Unencrypted) ∧
      (r.1.isTerminated = true ∨ r.2 = [])) := by
  obtain ⟨hle, htake, hdvdTake, hsize, hsignatureLen⟩ := h.firstRead s.receiveBuffer
  obtain ⟨hplain, hsync⟩ := hs.inSync.decryptBytes (by decide) hdvdTake
  have hlength := h.length_confirm
  have hfront := h.length_confirmFront
  have hphase3 := h.length_phase3
  have hdvd := h.dvd_length_confirm
  simp only [ivSize] at hdvd
  have hexpected : e.client.keys.pub.getFullLen + phase3AliceRI + phase3AliceTS +
      e.client.keys.pub.getSignatureLen = e.confirmFront.length + e.client.keys.pub.getSignatureLen := by
    simp only [hfront, phase3AliceRI, phase3AliceTS]
  have hpadding : blockPadding (e.confirmFront.length + e.client.keys.pub.getSignatureLen) =
      e.confirmPadding := rfl
  have hlt : e.confirmPadding < 16 := Handshake.blockPadding_lt _
  simp only [Session.handlePhase3Received, Session.decryptTo, htake, hplain, hs.remoteIdentity_eq, hsize,
    hsignatureLen, hexpected, hpadding]
  split
  next hmore =>
    -- the rest of the message is shorter than what the server waits for
    refine ⟨fun hcompletes => ?_, fun _ => ⟨⟨?_, .inr ⟨_, _, _, rfl, ?_⟩⟩, .inr rfl⟩⟩
    · have hfits := hcompletes.fits
      simp only [phase3Unencrypted] at hmore
      omega
    · split
      · rfl
      · exact hs.isEstablished_eq
    · rw [List.length_drop, hphase3, hlength]
      simp only [phase3Unencrypted]
      omega
  next hall =>
    have hconfirm : e.confirm.length = 448 := by
      simp only [phase3Unencrypted] at hall
      omega
    have htakeAll : e.confirm.take phase3Unencrypted = e.confirm :=
      List.take_of_length_le (by rw [hconfirm])
    have hdropAll : e.phase3.drop phase3Unencrypted = [] :=
      List.drop_of_length_le (by rw [hphase3, hconfirm])
    have hfits : e.client.keys.pub.getFullLen + e.client.keys.pub.getSignatureLen ≤ 442 := by
      simp only [phase3Unencrypted] at hall
      omega
    obtain ⟨-, hidentity, -, -⟩ := h.standsAt_confirm s.receiveBuffer
    have hread := h.client_wellFormed.fromBuffer_toBuffer {} hidentity
    simp only [htakeAll] at hsync
    simp only [htakeAll, hdropAll, phase3AliceRI, hread, hs.party_eq]
    by_cases hfirst : e.client.keys.pub.fresh.identHash ∈ e.server.sessions
    · -- a second session for the same router is closed
      rw [if_pos hfirst]
      refine ⟨fun hcompletes => absurd hfirst hcompletes.first, fun _ => ⟨⟨?_, .inl ?_⟩, .inl ?_⟩⟩
      · exact isEstablished_handlePhase3 _ rfl _ _
      · exact isTerminated_handlePhase3 _ rfl _ _
      · exact isTerminated_handlePhase3 _ rfl _ _
    · rw [if_neg hfirst]
      have hspec := h.handlePhase3_spec (s := { s with
          party := e.server
          remoteIdentity := e.client.keys.pub.fresh
          decryption := (s.decryption.decryptBytes (e.fromClient.encryptBytes e.confirm).1).2
          receiveBuffer := store s.receiveBuffer 0 e.confirm })
        rfl rfl hs.x_eq hs.y_eq rfl hs.encryption_eq hsync hs.isEstablished_eq hs.isTerminated_eq
      split at hspec
      next horder =>
        obtain ⟨answer, hanswer, hprefix, s', heq, hanswered⟩ := hspec
        rw [heq]
        exact ⟨fun _ => ⟨trivial, answer, hanswer, hprefix, rfl, hanswered⟩,
          fun hnot => absurd ⟨hfirst, hfits, bytes_readU32_tsA.mp horder⟩ hnot⟩
      next horder =>
        rw [hspec]
        exact ⟨fun hcompletes => absurd (bytes_readU32_tsA.mpr hcompletes.order) horder,
          fun _ => ⟨⟨rfl, .inl rfl⟩, .inl rfl⟩⟩

/-! ### Turns -/

section Turns

variable {c s : Session} {answer arrived : List UInt8}

theorem whenArrived_nil {count : ℕ} (hpos : 0 < count) (handle : List UInt8 → Session × List UInt8) :
    s.whenArrived count handle [] = (s, [], []) := if_pos hpos

theorem Requested.turn_nil (hc : e.Requested c) :
    ∃ c', c.turn e.crypto [] = (c', [], []) ∧ e.Requested c' := by
  have hpos : 0 < phase2Size := by decide
  rcases hc.pending with hpending | hpending <;>
    simp only [Session.turn, whenArrived_nil hpos, hc.isTerminated_eq, hpending, Bool.false_eq_true, if_false]
  · exact ⟨_, rfl, { hc with pending := .inr rfl, isTerminated_eq := rfl }⟩
  · exact ⟨c, rfl, hc⟩

theorem Requested.turn_phase2 (h : e.Honest) (hc : e.Requested c) :
    (c.pending ≠ .phase2Received ∧ ∃ c', c.turn e.crypto e.phase2 = (c', e.phase2, []) ∧ e.Requested c' ∧
        c'.pending = .phase2Received) ∨
      ∃ c', c.turn e.crypto e.phase2 = (c', [], e.phase3) ∧ e.Confirmed c' := by
  rcases hc.pending with hpending | hpending
  · simp only [Session.turn, hc.isTerminated_eq, hpending, Bool.false_eq_true, if_false]
    exact .inl ⟨by simp, _, rfl, { hc with pending := .inr rfl, isTerminated_eq := rfl }, rfl⟩
  · obtain ⟨c', heq, hc'⟩ := hc.handlePhase2Received h
    have hall : e.phase2.take phase2Size = e.phase2 := List.take_of_length_le (by rw [length_phase2])
    have hnone : e.phase2.drop phase2Size = [] := List.drop_of_length_le (by rw [length_phase2])
    refine .inr ⟨c', ?_, hc'⟩
    simp only [Session.turn, Session.whenArrived, hc.isTerminated_eq, hpending, length_phase2, lt_irrefl, hall,
      hnone, heq, hc'.isTerminated_eq, Bool.false_eq_true, if_false]

theorem Confirmed.turn_nil (h : e.Honest) (hc : e.Confirmed c) :
    ∃ c', c.turn e.crypto [] = (c', [], []) ∧ e.Confirmed c' := by
  have hpos : 0 < e.phase4Size := by
    have hsignature := Handshake.le_getSignatureLen h.server_wellFormed
    rw [phase4Size]
    exact Nat.add_pos_left (Nat.lt_of_lt_of_le (by decide) hsignature) _
  -- the client may still have to notice that its message has been sent
  rcases hc.pending with hpending | hpending
  · simp only [Session.turn, Session.handlePhase3Sent, hc.isTerminated_eq, hpending, Bool.false_eq_true,
      if_false]
    refine ⟨_, rfl, { hc with pending := .inr ?_, isTerminated_eq := rfl }⟩
    rw [hc.remoteIdentity_eq, h.getSignatureLen_remote]
    rfl
  · simp only [Session.turn, whenArrived_nil hpos, hc.isTerminated_eq, hpending, Bool.false_eq_true, if_false]
    exact ⟨c, rfl, hc⟩

theorem Confirmed.turn_answer (h : e.Honest) (hc : e.Confirmed c) (hlength : answer.length = e.phase4Size)
    (hanswer : e.signatureB <+: answer) :
    (c.pending ≠ .phase4Received e.tsA e.phase4Size ∧
      ∃ c', c.turn e.crypto (e.fromServer'.encryptBytes answer).1 =
        (c', (e.fromServer'.encryptBytes answer).1, []) ∧ e.Confirmed c' ∧
          c'.pending = .phase4Received e.tsA e.phase4Size) ∨
      ∃ c', c.turn e.crypto (e.fromServer'.encryptBytes answer).1 = (c', [], []) ∧
        e.Finished answer c' := by
  have hdvd : ivSize ∣ answer.length := hlength ▸ e.dvd_phase4Size
  have hsize : (e.fromServer'.encryptBytes answer).1.length = e.phase4Size := by
    rw [Encryption.length_encryptBytes _ hdvd, hlength]
  rcases hc.pending with hpending | hpending
  · simp only [Session.turn, Session.handlePhase3Sent, hc.isTerminated_eq, hpending, Bool.false_eq_true,
      if_false]
    -- it waits for as many bytes as the server sends
    have hsize : Pending.phase4Received e.tsA
        (c.remoteIdentity.getSignatureLen + blockPadding c.remoteIdentity.getSignatureLen) =
          .phase4Received e.tsA e.phase4Size := by
      rw [hc.remoteIdentity_eq, h.getSignatureLen_remote]
      rfl
    exact .inl ⟨by simp, _, rfl, { hc with pending := .inr hsize, isTerminated_eq := rfl }, hsize⟩
  · have hfinished := hc.handlePhase4Received h hlength hanswer
    have hall : (e.fromServer'.encryptBytes answer).1.take e.phase4Size =
        (e.fromServer'.encryptBytes answer).1 := List.take_of_length_le (by rw [hsize])
    have hnone : (e.fromServer'.encryptBytes answer).1.drop e.phase4Size = [] :=
      List.drop_of_length_le (by rw [hsize])
    refine .inr ⟨_, ?_, hfinished⟩
    simp only [Session.turn, Session.whenArrived, hc.isTerminated_eq, hpending, hsize, lt_irrefl, hall, hnone,
      hfinished.isTerminated_eq, Bool.false_eq_true, if_false]

theorem Finished.turn_nil (hc : e.Finished answer c) : c.turn e.crypto [] = (c, [], []) := by
  simp only [Session.turn, hc.isTerminated_eq, hc.pending, Bool.false_eq_true, if_false]

theorem Listening.turn_phase1 (h : e.Honest) (hs : e.Listening s) :
    ∃ s', s.turn e.crypto e.phase1 = (s', [], e.phase2) ∧ e.Created s' := by
  obtain ⟨s', heq, hs'⟩ := hs.handlePhase1Received h
  have hall : e.phase1.take phase1Size = e.phase1 := List.take_of_length_le (by rw [length_phase1])
  have hnone : e.phase1.drop phase1Size = [] := List.drop_of_length_le (by rw [length_phase1])
  refine ⟨s', ?_, hs'⟩
  simp only [Session.turn, Session.whenArrived, hs.isTerminated_eq, hs.pending, length_phase1, lt_irrefl, hall,
    hnone, heq, hs'.isTerminated_eq, Bool.false_eq_true, if_false]

theorem Created.turn_nil (hs : e.Created s) : ∃ s', s.turn e.crypto [] = (s', [], []) ∧ e.Created s' := by
  have hpos : 0 < phase3Unencrypted := by decide
  rcases hs.pending with hpending | hpending <;>
    simp only [Session.turn, whenArrived_nil hpos, hs.isTerminated_eq, hpending, Bool.false_eq_true, if_false]
  · exact ⟨_, rfl, { hs with pending := .inr rfl, isTerminated_eq := rfl }⟩
  · exact ⟨s, rfl, hs⟩

theorem Created.turn_phase3 (h : e.Honest) (hs : e.Created s) :
    (s.pending ≠ .phase3Received e.tsB ∧ ∃ s', s.turn e.crypto e.phase3 = (s', e.phase3, []) ∧
        e.Created s' ∧ s'.pending = .phase3Received e.tsB) ∨
      (e.Completes ∧ ∃ s' answer, s.turn e.crypto e.phase3 =
        (s', [], (e.fromServer'.encryptBytes answer).1) ∧ answer.length = e.phase4Size ∧
          e.signatureB <+: answer ∧ e.Answered answer s') ∨
      (¬ e.Completes ∧ ∃ s' arrived, s.turn e.crypto e.phase3 = (s', arrived, []) ∧ Failed s' arrived) := by
  rcases hs.pending with hpending | hpending
  · simp only [Session.turn, hs.isTerminated_eq, hpending, Bool.false_eq_true, if_false]
    exact .inl ⟨by simp, _, rfl, { hs with pending := .inr rfl, isTerminated_eq := rfl }, rfl⟩
  · -- the whole message is there
    have hle : ¬ e.phase3.length < phase3Unencrypted := by
      rw [h.length_phase3, Nat.not_lt]
      exact (h.firstRead s.receiveBuffer).1
    obtain ⟨hcompletes, hfails⟩ := hs.handlePhase3Received h
    simp only [Session.turn, Session.whenArrived, hs.isTerminated_eq, hpending, hle, Bool.false_eq_true,
      if_false]
    by_cases hall : e.Completes
    · obtain ⟨hnone, answer, hlength, hanswer, hout, hanswered⟩ := hcompletes hall
      refine .inr (.inl ⟨hall, _, answer, ?_, hlength, hanswer, hanswered⟩)
      simp only [hnone, hout, hanswered.isTerminated_eq, Bool.false_eq_true, if_false]
    · obtain ⟨hfailed, hout⟩ := hfails hall
      refine .inr (.inr ⟨hall, _, _, ?_, hfailed⟩)
      rcases hout with hterminated | hout
      · simp only [hterminated, if_true]
      · simp only [hout, ite_self]

theorem Failed.turn (hs : Failed s arrived) : s.turn e.crypto arrived = (s, arrived, []) := by
  rcases hs.stuck with hterminated | ⟨tsB, paddingLen, count, hpending, hlt⟩
  · exact if_pos hterminated
  · simp only [Session.turn, Session.whenArrived, hpending, hlt, if_true, ite_self]

theorem Answered.turn_nil (hs : e.Answered answer s) :
    ∃ s', s.turn e.crypto [] = (s', [], []) ∧ e.Answered answer s' ∧ s'.isEstablished = true := by
  rcases hs.pending with ⟨hpending, -⟩ | ⟨hpending, hestablished⟩ <;>
    simp only [Session.turn, Session.handlePhase4Sent, hs.isTerminated_eq, hpending, Bool.false_eq_true, if_false]
  · exact ⟨_, rfl, { hs with pending := .inr ⟨rfl, rfl⟩, isTerminated_eq := rfl }, rfl⟩
  · exact ⟨s, rfl, hs, hestablished⟩

end Turns

theorem stage_start (h : e.Honest) : e.Stage e.start := by
  have hhash : (hashBlock (e.crypto.identity.sha256 e.client.dhPublicKey.bytes)).xor
      (hashBlock e.remote.identHash) = e.hxXorHI := by
    rw [h.identHash_eq]
    rfl
  simp only [start, World.start, Session.sendPhase1, Session.new, hhash]
  exact .requested ⟨rfl, rfl, rfl, rfl, .inl rfl, rfl, rfl⟩ ⟨rfl, rfl, rfl, rfl, rfl⟩

/-- A turn of either end takes the handshake to the next stage, or leaves it in its stage. -/
theorem Stage.step (h : e.Honest) {w : World} (hw : e.Stage w) (t : Turn) : e.Stage (w.step e.crypto t) := by
  -- in each stage one side acts, and a turn of the other side changes nothing
  cases hw with
  | requested hc hs =>
    cases t with
    | client =>
      obtain ⟨c', heq, hc'⟩ := hc.turn_nil
      simp only [World.step, heq, List.append_nil]
      exact .requested hc' hs
    | server =>
      obtain ⟨s', heq, hs'⟩ := hs.turn_phase1 h
      simp only [World.step, heq, List.nil_append]
      exact .created hc hs'
  | created hc hs =>
    cases t with
    | client =>
      rcases hc.turn_phase2 h with ⟨-, c', heq, hc', -⟩ | ⟨c', heq, hc'⟩ <;>
        simp only [World.step, heq, List.nil_append]
      · exact .created hc' hs
      · exact .confirmed hc' hs
    | server =>
      obtain ⟨s', heq, hs'⟩ := hs.turn_nil
      simp only [World.step, heq, List.append_nil]
      exact .created hc hs'
  | confirmed hc hs =>
    cases t with
    | client =>
      obtain ⟨c', heq, hc'⟩ := hc.turn_nil h
      simp only [World.step, heq, List.append_nil]
      exact .confirmed hc' hs
    | server =>
      rcases hs.turn_phase3 h with ⟨-, s', heq, hs', -⟩ | ⟨hcompletes, s', answer, heq, hlength, hanswer, hs'⟩ |
        ⟨hnot, s', arrived, heq, hs'⟩ <;>
        simp only [World.step, heq, List.nil_append]
      · exact .confirmed hc hs'
      · exact .answered hcompletes hlength hanswer hc hs'
      · exact .failed hnot hc hs'
  | failed hnot hc hs =>
    cases t with
    | client =>
      obtain ⟨c', heq, hc'⟩ := hc.turn_nil h
      simp only [World.step, heq, List.append_nil]
      exact .failed hnot hc' hs
    | server =>
      simp only [World.step, hs.turn, List.append_nil]
      exact .failed hnot hc hs
  | answered hcompletes hlength hanswer hc hs =>
    cases t with
    | client =>
      rcases hc.turn_answer h hlength hanswer with ⟨-, c', heq, hc', -⟩ | ⟨c', heq, hc'⟩ <;>
        simp only [World.step, heq, List.append_nil]
      · exact .answered hcompletes hlength hanswer hc' hs
      · exact .finished hcompletes hc' hs
    | server =>
      obtain ⟨s', heq, hs', -⟩ := hs.turn_nil
      simp only [World.step, heq, List.append_nil]
      exact .answered hcompletes hlength hanswer hc hs'
  | finished hcompletes hc hs =>
    cases t with
    | client =>
      simp only [World.step, hc.turn_nil, List.append_nil]
      exact .finished hcompletes hc hs
    | server =>
      obtain ⟨s', heq, hs', -⟩ := hs.turn_nil
      simp only [World.step, heq, List.append_nil]
      exact .finished hcompletes hc hs'

theorem stage_run (h : e.Honest) (turns : List Turn) : e.Stage (e.run turns) :=
  Runs.invariant_exec (fun _ t hw => hw.step h t) (stage_start h) turns

/-! ### Progress -/

/-- There are turns after which both ends are connected. -/
def CanConnect (e : Exchange) (w : World) : Prop :=
  ∃ more, (Runs.exec (World.step e.crypto) w more).client.isEstablished = true ∧
    (Runs.exec (World.step e.crypto) w more).server.isEstablished = true

theorem canConnect_of_step {w : World} (t : Turn) (h : e.CanConnect (w.step e.crypto t)) : e.CanConnect w := by
  obtain ⟨more, hmore⟩ := h
  exact ⟨t :: more, hmore⟩

section CanConnect

variable {c s : Session} {answer : List UInt8}

theorem canConnect_finished (hc : e.Finished answer c) (hs : e.Answered answer s) :
    e.CanConnect ⟨c, s, [], []⟩ := by
  obtain ⟨s', heq, -, hestablished⟩ := hs.turn_nil
  apply canConnect_of_step .server
  simp only [World.step, heq, List.append_nil]
  exact ⟨[], hc.isEstablished_eq, hestablished⟩

theorem canConnect_answered (h : e.Honest) (hlength : answer.length = e.phase4Size)
    (hanswer : e.signatureB <+: answer) (hc : e.Confirmed c) (hs : e.Answered answer s) :
    e.CanConnect ⟨c, s, [], (e.fromServer'.encryptBytes answer).1⟩ := by
  -- at most one turn to notice that the last message has been sent, and one to read the answer
  have hreads {c : Session} (hc : e.Confirmed c)
      (hpending : c.pending = .phase4Received e.tsA e.phase4Size) :
      e.CanConnect ⟨c, s, [], (e.fromServer'.encryptBytes answer).1⟩ := by
    rcases hc.turn_answer h hlength hanswer with ⟨hne, -⟩ | ⟨c', heq, hc'⟩
    · exact absurd hpending hne
    · apply canConnect_of_step .client
      simp only [World.step, heq, List.append_nil]
      exact canConnect_finished hc' hs
  rcases hc.turn_answer h hlength hanswer with ⟨-, c', heq, hc', hpending⟩ | ⟨c', heq, hc'⟩ <;>
    apply canConnect_of_step .client <;> simp only [World.step, heq, List.append_nil]
  · exact hreads hc' hpending
  · exact canConnect_finished hc' hs

theorem canConnect_confirmed (h : e.Honest) (hcompletes : e.Completes) (hc : e.Confirmed c)
    (hs : e.Created s) : e.CanConnect ⟨c, s, e.phase3, []⟩ := by
  have hreads {s : Session} (hs : e.Created s) (hpending : s.pending = .phase3Received e.tsB) :
      e.CanConnect ⟨c, s, e.phase3, []⟩ := by
    rcases hs.turn_phase3 h with ⟨hne, -⟩ | ⟨-, s', answer, heq, hlength, hanswer, hs'⟩ | ⟨hnot, -⟩
    · exact absurd hpending hne
    · apply canConnect_of_step .server
      simp only [World.step, heq, List.nil_append]
      exact canConnect_answered h hlength hanswer hc hs'
    · exact absurd hcompletes hnot
  rcases hs.turn_phase3 h with ⟨-, s', heq, hs', hpending⟩ | ⟨-, s', answer, heq, hlength, hanswer, hs'⟩ |
    ⟨hnot, -⟩
  · apply canConnect_of_step .server
    simp only [World.step, heq, List.nil_append]
    exact hreads hs' hpending
  · apply canConnect_of_step .server
    simp only [World.step, heq, List.nil_append]
    exact canConnect_answered h hlength hanswer hc hs'
  · exact absurd hcompletes hnot

theorem canConnect_created (h : e.Honest) (hcompletes : e.Completes) (hc : e.Requested c)
    (hs : e.Created s) : e.CanConnect ⟨c, s, [], e.phase2⟩ := by
  have hreads {c : Session} (hc : e.Requested c) (hpending : c.pending = .phase2Received) :
      e.CanConnect ⟨c, s, [], e.phase2⟩ := by
    rcases hc.turn_phase2 h with ⟨hne, -⟩ | ⟨c', heq, hc'⟩
    · exact absurd hpending hne
    · apply canConnect_of_step .client
      simp only [World.step, heq, List.nil_append]
      exact canConnect_confirmed h hcompletes hc' hs
  rcases hc.turn_phase2 h with ⟨-, c', heq, hc', hpending⟩ | ⟨c', heq, hc'⟩ <;>
    apply canConnect_of_step .client <;> simp only [World.step, heq, List.nil_append]
  · exact hreads hc' hpending
  · exact canConnect_confirmed h hcompletes hc' hs

/-- From wherever a handshake is that can complete. -/
theorem Stage.canConnect (h : e.Honest) (hcompletes : e.Completes) {w : World} (hw : e.Stage w) :
    e.CanConnect w := by
  cases hw with
  | requested hc hs =>
    obtain ⟨s', heq, hs'⟩ := hs.turn_phase1 h
    apply canConnect_of_step .server
    simp only [World.step, heq, List.nil_append]
    exact canConnect_created h hcompletes hc hs'
  | created hc hs => exact canConnect_created h hcompletes hc hs
  | confirmed hc hs => exact canConnect_confirmed h hcompletes hc hs
  | failed hnot => exact absurd hcompletes hnot
  | answered _ hlength hanswer hc hs => exact canConnect_answered h hlength hanswer hc hs
  | finished _ hc hs => exact canConnect_finished hc hs

end CanConnect

theorem Stage.completes {w : World} (hw : e.Stage w) (hestablished : w.client.isEstablished = true) : e.Completes := by
  cases hw with
  | requested hc => simp [hc.isEstablished_eq] at hestablished
  | created hc => simp [hc.isEstablished_eq] at hestablished
  | confirmed hc => simp [hc.isEstablished_eq] at hestablished
  | failed _ hc => simp [hc.isEstablished_eq] at hestablished
  | answered hcompletes => exact hcompletes
  | finished hcompletes => exact hcompletes

end Exchange

/-! ## An example -/

/-- A router with an identity of type DSA and nothing but zeros in it. -/
def exampleParty (order : ByteOrder) (dhKey : UInt8) (seconds : ℕ) : Party where
  order
  keys :=
    { pub := {}
      privateKey := []
      signingPrivateKey := []
      signer := some ⟨0, []⟩ }
  dhPrivateKey := []
  dhPublicKey := Block.const dhKey
  seconds
  random := []
  padding _ := 0
  memory _ := 0
  unsetKey := []
  sessions := []

/-- What both ends sign, if all hashes are zero. -/
def exampleData : List UInt8 :=
  (Block.const 1 : Block pubKeySize).bytes ++ (Block.const 2 : Block pubKeySize).bytes ++
    IdentHash.zero.bytes ++ writeBE 4 0x01020201 ++ ByteOrder.timestampB .little 7

theorem id_id_eq (b : Block ivSize) : id (id b) = b := rfl

/-- One signature, for one message. -/
def exampleHandshakeCrypto : HandshakeCrypto where
  identity := ⟨fun _ => IdentHash.zero,
    fun _ _ message signature => message = exampleData ∧ signature = List.replicate 40 1⟩
  schemes := ⟨fun _ _ => ([], []), fun _ _ _ _ => List.replicate 40 1,
    fun _ => (Block.const 0, Block.const 0)⟩
  agree _ _ := some (Block.const 1)
  cipher _ := ⟨id, id, id_id_eq⟩

def exampleExchange : Exchange where
  crypto := exampleHandshakeCrypto
  client := exampleParty .little 1 0x01020201
  server := exampleParty .little 2 7
  remote := {}
  shared := Block.const 1
  clientBuffer _ := 0
  serverBuffer _ := 0

theorem honest_exampleExchange : exampleExchange.Honest := by
  have hwellFormed : ({} : IdentityEx).WellFormed exampleHandshakeCrypto.identity :=
    ⟨List.length_replicate, by decide, fun _ => rfl, fun h => absurd rfl h, rfl, .inl rfl⟩
  have hsigns (order : ByteOrder) (dhKey : UInt8) (seconds : ℕ) :
      exampleHandshakeCrypto.SignsOnly (exampleParty order dhKey seconds).keys [] exampleData := by
    refine ⟨List.replicate 40 1, rfl, rfl, fun message => ?_⟩
    show decide (message = exampleData ∧ List.replicate 40 1 = List.replicate 40 1) = true ↔ _
    rw [decide_eq_true_iff]
    exact and_iff_left rfl
  exact ⟨hwellFormed, hwellFormed, hwellFormed, rfl, hsigns _ _ _, hsigns _ _ _, rfl, rfl,
    ⟨0, by decide, by decide⟩, by decide⟩

theorem completes_exampleExchange : exampleExchange.Completes :=
  ⟨List.not_mem_nil, by decide, .inr (by decide)⟩

/-! ## Results -/

namespace Exchange

variable {e : Exchange}

/-- From any point of a handshake both ends can still get connected if and only if it can complete. -/
theorem completes_iff (h : e.Honest) (turns : List Turn) :
    (∃ more, (e.run (turns ++ more)).client.isEstablished = true ∧
      (e.run (turns ++ more)).server.isEstablished = true) ↔ e.Completes := by
  constructor
  · rintro ⟨more, hclient, -⟩
    exact (stage_run h (turns ++ more)).completes hclient
  · intro hcompletes
    obtain ⟨more, hmore⟩ := (stage_run h turns).canConnect h hcompletes
    refine ⟨more, ?_⟩
    rwa [run, Runs.exec_append]

theorem exists_connected_exampleExchange :
    ∃ turns, (exampleExchange.run turns).client.isEstablished = true ∧
      (exampleExchange.run turns).server.isEstablished = true :=
  (completes_iff honest_exampleExchange []).mpr completes_exampleExchange

end Exchange

end NTCP
