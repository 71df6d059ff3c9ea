import Xi2p.Lib.CBC
import Xi2p.Tunnel.Gateway

/-!
# Layered tunnel encryption

`TunnelEncryption` and `TunnelDecryption` of `core/crypto/impl/cryptopp/tunnel.cc`, and the two
functions `EncryptTunnelMsg`: a transit tunnel adds one layer, the creator of a tunnel removes the
layers of all hops. Both work on the IV and the data of a tunnel data message, `1024` bytes behind
the tunnel ID, in place or from one message to another.

AES is a family of permutations of blocks of `16` bytes, indexed by the key.

* `crypt_spec`: one layer, in place or between two messages, with the library or with AES-NI.
* `encryptTunnelMsg_spec`: all layers.
* `layers_cancel`: what the creator does and what the hops do cancel, in both directions.
-/

namespace Tunnel

open Bytes CBC

/-- `AESKey`. -/
abbrev AESKey := Block 32

/-- The layer key and the IV key of a hop. -/
structure LayerKeys where
  /-- `layer_key`. -/
  layerKey : AESKey
  /-- `IV_key`. -/
  ivKey : AESKey

/-! ## One layer -/

/-- The blocks of data in a tunnel data message. -/
abbrev numDataBlocks : ℕ := tunnelDataEncryptedSize / 16

section Layer

variable {σ : Type} (usingAESNI : Bool) (ivCipher : Block 16 → Block 16) (setIV : Block 16 → σ)
  (f : σ → Block 16 → Block 16 × σ)

/-- The common part of `Encrypt` and `Decrypt`: `ivCipher` is applied twice to the IV, and the data
go through a stream that starts with the IV after the first time. -/
def crypt (m : Mem) (inPos outPos : ℕ) : Mem :=
  if usingAESNI then
    -- the IV of the data stays in a register
    let iv := ivCipher (Block.ofMem m inPos)
    let m := store m outPos (ivCipher iv).bytes
    (overMem f (setIV iv) m (inPos + 16) (outPos + 16) numDataBlocks).1
  else
    let m := store m outPos (ivCipher (Block.ofMem m inPos)).bytes
    let m := (overMem f (setIV (Block.ofMem m outPos)) m (inPos + 16) (outPos + 16)
      numDataBlocks).1
    store m outPos (ivCipher (Block.ofMem m outPos)).bytes

/-- The common part of `Encrypt` and `Decrypt`, as a function of the blocks. -/
def cryptBlocks : List (Block 16) → List (Block 16)
  | [] => []
  | iv :: data => ivCipher (ivCipher iv) :: (overBlocks f (setIV (ivCipher iv)) data).1

variable {usingAESNI ivCipher setIV f}

/-- The memory of a message stays what it is outside of the part that is written. -/
theorem crypt_of_outside (m : Mem) (inPos : ℕ) {outPos i : ℕ}
    (h : i < outPos ∨ outPos + 1024 ≤ i) :
    crypt usingAESNI ivCipher setIV f m inPos outPos i = m i := by
  have hstore : ∀ (m : Mem) (b : Block 16), store m outPos b.bytes i = m i := by
    intro m b
    obtain hlt | hge := h
    · exact store_of_lt m _ hlt
    · exact store_of_le m _ (by rw [Block.length_bytes]; omega)
  have hdata : i < outPos + 16 ∨ outPos + 16 + 16 * numDataBlocks ≤ i := by
    simp only [numDataBlocks, tunnelDataEncryptedSize]
    omega
  unfold crypt
  split
  · rw [overMem_of_outside _ _ _ hdata, hstore]
  · rw [hstore, overMem_of_outside _ _ _ hdata, hstore]

theorem ofMem_store (m : Mem) (pos : ℕ) (b : Block 16) :
    (Block.ofMem (store m pos b.bytes) pos : Block 16) = b := by
  ext1
  have hself := slice_store_self m pos b.bytes
  rwa [Block.length_bytes] at hself

theorem ofMem_congr {m m' : Mem} {pos : ℕ} (h : ∀ i, pos ≤ i → i < pos + 16 → m' i = m i) :
    (Block.ofMem m' pos : Block 16) = Block.ofMem m pos := by
  ext1
  exact slice_congr fun i hi => h (pos + i) (by omega) (by omega)

/-- The IV, and the data. -/
theorem blocksAt_iv (m : Mem) (pos : ℕ) : (blocksAt m pos 64 : List (Block 16)) =
    Block.ofMem m pos :: blocksAt m (pos + 16) numDataBlocks := rfl

/-- One layer, in place or between two messages. -/
theorem crypt_spec (m : Mem) {inPos outPos : ℕ}
    (h : inPos = outPos ∨ inPos + 1024 ≤ outPos ∨ outPos + 1024 ≤ inPos) :
    blocksAt (crypt usingAESNI ivCipher setIV f m inPos outPos) outPos 64 =
      cryptBlocks ivCipher setIV f (blocksAt m inPos 64) := by
  -- writing the IV leaves the data to be read alone
  have hdata : ∀ b : Block 16, (blocksAt (store m outPos b.bytes) (inPos + 16) numDataBlocks :
      List (Block 16)) = blocksAt m (inPos + 16) numDataBlocks := by
    intro b
    refine blocksAt_congr fun i hlo hhi => ?_
    simp only [numDataBlocks, tunnelDataEncryptedSize] at hhi
    obtain heq | hbefore | hafter := h
    · exact store_of_le m _ (by rw [Block.length_bytes]; omega)
    · exact store_of_lt m _ (by omega)
    · exact store_of_le m _ (by rw [Block.length_bytes]; omega)
  have happart : inPos + 16 = outPos + 16 ∨ inPos + 16 + 16 * numDataBlocks ≤ outPos + 16 ∨
      outPos + 16 + 16 * numDataBlocks ≤ inPos + 16 := by
    simp only [numDataBlocks, tunnelDataEncryptedSize]
    omega
  have hstream : ∀ (s : σ) (b : Block 16),
      blocksAt (overMem f s (store m outPos b.bytes) (inPos + 16) (outPos + 16) numDataBlocks).1
        (outPos + 16) numDataBlocks = (overBlocks f s (blocksAt m (inPos + 16) numDataBlocks)).1 := by
    intro s b
    rw [(overMem_spec s _ _ _ happart).1, hdata]
  -- writing the data leaves the IV alone, and writing the IV the data
  have hiv : ∀ (s : σ) (m : Mem),
      (Block.ofMem (overMem f s m (inPos + 16) (outPos + 16) numDataBlocks).1 outPos : Block 16) =
        Block.ofMem m outPos := by
    intro s m
    exact ofMem_congr fun i _ hhi => overMem_of_outside _ _ _ (by omega)
  have hlast : ∀ (m : Mem) (b : Block 16),
      (blocksAt (store m outPos b.bytes) (outPos + 16) numDataBlocks : List (Block 16)) =
        blocksAt m (outPos + 16) numDataBlocks := by
    intro m b
    exact blocksAt_congr fun i hlo _ => store_of_le m _ (by rw [Block.length_bytes]; omega)
  unfold crypt
  rw [blocksAt_iv, blocksAt_iv, cryptBlocks]
  split
  · rw [hiv, ofMem_store, hstream]
  · dsimp only
    rw [ofMem_store, hiv, ofMem_store, hlast, hstream]

end Layer

section Keys

variable (aes : AESKey → BlockCipher 16) (usingAESNI : Bool) (keys : LayerKeys)

/-- `TunnelEncryption::Encrypt`. -/
def tunnelEncrypt (m : Mem) (inPos outPos : ℕ) : Mem :=
  crypt usingAESNI (aes keys.ivKey).encrypt (fun iv => ⟨aes keys.layerKey, iv⟩)
    Encryption.encryptBlock m inPos outPos

/-- `TunnelDecryption::Decrypt`. -/
def tunnelDecrypt (m : Mem) (inPos outPos : ℕ) : Mem :=
  crypt usingAESNI (aes keys.ivKey).decrypt (fun iv => ⟨aes keys.layerKey, iv⟩)
    Decryption.decryptBlock m inPos outPos

/-- One layer of encryption, as a function of the blocks. -/
def encryptLayer (bs : List (Block 16)) : List (Block 16) :=
  cryptBlocks (aes keys.ivKey).encrypt (fun iv => ⟨aes keys.layerKey, iv⟩)
    Encryption.encryptBlock bs

/-- One layer of decryption, as a function of the blocks. -/
def decryptLayer (bs : List (Block 16)) : List (Block 16) :=
  cryptBlocks (aes keys.ivKey).decrypt (fun iv => ⟨aes keys.layerKey, iv⟩)
    Decryption.decryptBlock bs

variable {aes usingAESNI keys}

theorem tunnelEncrypt_spec (m : Mem) {inPos outPos : ℕ}
    (h : inPos = outPos ∨ inPos + 1024 ≤ outPos ∨ outPos + 1024 ≤ inPos) :
    blocksAt (tunnelEncrypt aes usingAESNI keys m inPos outPos) outPos 64 =
      encryptLayer aes keys (blocksAt m inPos 64) :=
  crypt_spec m h

theorem tunnelDecrypt_spec (m : Mem) {inPos outPos : ℕ}
    (h : inPos = outPos ∨ inPos + 1024 ≤ outPos ∨ outPos + 1024 ≤ inPos) :
    blocksAt (tunnelDecrypt aes usingAESNI keys m inPos outPos) outPos 64 =
      decryptLayer aes keys (blocksAt m inPos 64) :=
  crypt_spec m h

variable (aes keys)

@[simp]
theorem length_encryptLayer (bs : List (Block 16)) :
    (encryptLayer aes keys bs).length = bs.length := by
  match bs with
  | [] => rfl
  | iv :: data => simp [encryptLayer, cryptBlocks]

theorem decryptLayer_encryptLayer (bs : List (Block 16)) :
    decryptLayer aes keys (encryptLayer aes keys bs) = bs := by
  match bs with
  | [] => rfl
  | iv :: data =>
    -- undoing the second encryption of the IV gives the IV of the data
    have hdata := (InSync.decrypt (e := ⟨aes keys.layerKey, (aes keys.ivKey).encrypt iv⟩)
      (d := ⟨aes keys.layerKey, (aes keys.ivKey).encrypt iv⟩) ⟨rfl, rfl⟩ data).1
    simp only [encryptLayer, decryptLayer, cryptBlocks, BlockCipher.decrypt_encrypt,
      overBlocks_encryptBlock, overBlocks_decryptBlock, hdata]

theorem encryptLayer_decryptLayer (bs : List (Block 16)) :
    encryptLayer aes keys (decryptLayer aes keys bs) = bs := by
  match bs with
  | [] => rfl
  | iv :: data =>
    have hdata := InSync.encrypt (e := ⟨aes keys.layerKey, (aes keys.ivKey).decrypt iv⟩)
      (d := ⟨aes keys.layerKey, (aes keys.ivKey).decrypt iv⟩) ⟨rfl, rfl⟩ data
    simp only [encryptLayer, decryptLayer, cryptBlocks, BlockCipher.encrypt_decrypt,
      overBlocks_encryptBlock, overBlocks_decryptBlock, hdata]

end Keys

/-! ## The creator of a tunnel -/

section Creator

variable (aes : AESKey → BlockCipher 16) (usingAESNI : Bool)

/-- The loop of `Tunnel::EncryptTunnelMsg`, over the hops from the last one to the first. After the
first layer it works in place. -/
def decryptLayers : List LayerKeys → Mem → ℕ → ℕ → Mem
  | [], m, _, _ => m
  | hop :: previous, m, inPos, outPos =>
    decryptLayers previous (tunnelDecrypt aes usingAESNI hop m inPos outPos) outPos outPos

/-- `Tunnel::EncryptTunnelMsg`, for the messages with payloads at the given places. -/
def encryptTunnelMsg (hops : List LayerKeys) (m : Mem) (inPayload outPayload : ℕ) : Mem :=
  decryptLayers aes usingAESNI hops.reverse m (inPayload + 4) (outPayload + 4)

variable {aes usingAESNI}

/-- In place, the layers are removed from the blocks one after the other. -/
theorem decryptLayers_inPlace (hops : List LayerKeys) (m : Mem) (pos : ℕ) :
    blocksAt (decryptLayers aes usingAESNI hops m pos pos) pos 64 =
      hops.foldl (fun bs hop => decryptLayer aes hop bs) (blocksAt m pos 64) := by
  induction hops generalizing m with
  | nil => rfl
  | cons hop previous ih =>
    rw [decryptLayers, ih, tunnelDecrypt_spec m (.inl rfl), List.foldl_cons]

/-- In place, or between two messages if there is a hop, all layers are removed. -/
theorem encryptTunnelMsg_spec {hops : List LayerKeys} (m : Mem) {inPayload outPayload : ℕ}
    (h : inPayload = outPayload ∨ hops ≠ [] ∧
      (inPayload + 1024 ≤ outPayload ∨ outPayload + 1024 ≤ inPayload)) :
    blocksAt (encryptTunnelMsg aes usingAESNI hops m inPayload outPayload) (outPayload + 4) 64 =
      hops.foldr (decryptLayer aes) (blocksAt m (inPayload + 4) 64) := by
  rw [encryptTunnelMsg, ← List.foldl_reverse]
  obtain rfl | ⟨hne, hapart⟩ := h
  · exact decryptLayers_inPlace _ _ _
  · -- the first step goes from one message to the other
    obtain ⟨hop, previous, heq⟩ := List.exists_cons_of_ne_nil (List.reverse_ne_nil_iff.mpr hne)
    rw [heq, decryptLayers, decryptLayers_inPlace, tunnelDecrypt_spec m (.inr (by omega)),
      List.foldl_cons]

end Creator

/-! ## The hops of a tunnel -/

/-- The router of a hop: whether it has AES-NI, its memory, and the places of the payloads of the
message that it receives and of the message that it makes. -/
structure HopRouter where
  /-- `UsingAESNI()`. -/
  usingAESNI : Bool
  /-- The memory, before the message is received. -/
  mem : Mem
  /-- The payload of the message received. -/
  inPayload : ℕ
  /-- The payload of the message made. -/
  outPayload : ℕ
  /-- The two are one message, or do not overlap. -/
  apart : inPayload = outPayload ∨ inPayload + 1028 ≤ outPayload ∨ outPayload + 1028 ≤ inPayload

namespace HopRouter

variable (aes : AESKey → BlockCipher 16)

/-- `TransitTunnel::EncryptTunnelMsg`. -/
def encryptTunnelMsg (r : HopRouter) (keys : LayerKeys) (m : Mem) : Mem :=
  tunnelEncrypt aes r.usingAESNI keys m (r.inPayload + 4) (r.outPayload + 4)

/-- A hop receives an IV with data, and sends what `EncryptTunnelMsg` makes of it. -/
def forward (r : HopRouter) (keys : LayerKeys) (bs : List UInt8) : List UInt8 :=
  slice (r.encryptTunnelMsg aes keys (store r.mem (r.inPayload + 4) bs)) (r.outPayload + 4) 1024

/-- The message goes through the hops of a tunnel, in order. -/
def forwardAll (hops : List (HopRouter × LayerKeys)) (bs : List UInt8) : List UInt8 :=
  hops.foldl (fun bs hop => hop.1.forward aes hop.2 bs) bs

variable {aes}

theorem forward_bytesOf (r : HopRouter) (keys : LayerKeys) {blocks : List (Block 16)}
    (hlen : blocks.length = 64) :
    r.forward aes keys (bytesOf blocks) = bytesOf (encryptLayer aes keys blocks) := by
  have happart := r.apart
  have hspec : blocksAt (r.encryptTunnelMsg aes keys
      (store r.mem (r.inPayload + 4) (bytesOf blocks))) (r.outPayload + 4) 64 =
        encryptLayer aes keys blocks := by
    rw [encryptTunnelMsg, tunnelEncrypt_spec _ (by omega), blocksAt_store _ _ hlen]
  rw [forward, ← hspec, bytesOf_blocksAt]

/-- The hops add their layers. -/
theorem forwardAll_bytesOf (hops : List (HopRouter × LayerKeys)) {blocks : List (Block 16)}
    (hlen : blocks.length = 64) :
    forwardAll aes hops (bytesOf blocks) =
      bytesOf ((hops.map Prod.snd).foldl (fun bs keys => encryptLayer aes keys bs) blocks) := by
  induction hops generalizing blocks with
  | nil => rfl
  | cons hop hops ih =>
    have hnext : (encryptLayer aes hop.2 blocks).length = 64 := by
      rw [length_encryptLayer, hlen]
    rw [forwardAll, List.foldl_cons, forward_bytesOf _ _ hlen]
    exact ih hnext

end HopRouter

/-! ## Cancellation -/

section Cancel

variable {aes : AESKey → BlockCipher 16}

theorem length_foldl_encryptLayer (hops : List LayerKeys) (bs : List (Block 16)) :
    (hops.foldl (fun bs keys => encryptLayer aes keys bs) bs).length = bs.length := by
  induction hops generalizing bs with
  | nil => rfl
  | cons keys hops ih => rw [List.foldl_cons, ih, length_encryptLayer]

/-- Every tunnel data message comes out of a tunnel as it went in. Through an outbound tunnel, the
creator encrypts it in place and the hops forward it; through an inbound one, the hops forward it
and the creator decrypts it into another message. -/
theorem layers_cancel (aes : AESKey → BlockCipher 16) (hops : List (HopRouter × LayerKeys))
    (hne : hops ≠ []) (creator : HopRouter) (hother : creator.inPayload ≠ creator.outPayload)
    (m : Mem) (payload : ℕ) (bs : Block 1024) :
    HopRouter.forwardAll aes hops (slice (encryptTunnelMsg aes creator.usingAESNI
        (hops.map Prod.snd) m payload payload) (payload + 4) 1024) = slice m (payload + 4) 1024 ∧
    slice (encryptTunnelMsg aes creator.usingAESNI (hops.map Prod.snd)
        (store creator.mem (creator.inPayload + 4) (HopRouter.forwardAll aes hops bs.bytes))
        creator.inPayload creator.outPayload) (creator.outPayload + 4) 1024 = bs.bytes := by
  constructor
  · have hspec : blocksAt (encryptTunnelMsg aes creator.usingAESNI (hops.map Prod.snd) m payload
        payload) (payload + 4) 64 =
          (hops.map Prod.snd).foldr (decryptLayer aes) (blocksAt m (payload + 4) 64) :=
      encryptTunnelMsg_spec m (.inl rfl)
    have hlen := congrArg List.length hspec
    rw [length_blocksAt] at hlen
    have hbytes := congrArg bytesOf hspec
    rw [bytesOf_blocksAt] at hbytes
    rw [hbytes, HopRouter.forwardAll_bytesOf _ hlen.symm, foldl_foldr_cancel (encryptLayer_decryptLayer aes),
      bytesOf_blocksAt]
  · obtain ⟨blocks, hlen, hblocks⟩ : ∃ blocks : List (Block 16), blocks.length = 64 ∧
        bytesOf blocks = bs.bytes := exists_bytesOf_eq bs.length_bytes
    have hout : ((hops.map Prod.snd).foldl (fun bs keys => encryptLayer aes keys bs)
        blocks).length = 64 := by rw [length_foldl_encryptLayer, hlen]
    have happart : creator.inPayload + 1024 ≤ creator.outPayload ∨
        creator.outPayload + 1024 ≤ creator.inPayload := by
      have := creator.apart
      omega
    rw [← hblocks, HopRouter.forwardAll_bytesOf _ hlen]
    generalize hlayers : (hops.map Prod.snd).foldl (fun bs keys => encryptLayer aes keys bs)
      blocks = layers at hout
    have hspec : blocksAt (encryptTunnelMsg aes creator.usingAESNI (hops.map Prod.snd)
        (store creator.mem (creator.inPayload + 4) (bytesOf layers)) creator.inPayload
        creator.outPayload) (creator.outPayload + 4) 64 = blocks := by
      rw [encryptTunnelMsg_spec _ (.inr ⟨mt List.map_eq_nil_iff.mp hne, happart⟩),
        blocksAt_store _ _ hout, ← hlayers, foldr_foldl_cancel (decryptLayer_encryptLayer aes)]
    have hbytes := congrArg bytesOf hspec
    rwa [bytesOf_blocksAt] at hbytes

/-- A cipher that adds the first half of the key, in place of AES. -/
def xorCipher (key : AESKey) : BlockCipher 16 where
  encrypt b := Block.xor ⟨key.bytes.take 16, by simp⟩ b
  decrypt b := b.xor ⟨key.bytes.take 16, by simp⟩
  decrypt_encrypt := Block.xor_xor_cancel _

/-- A router with the two messages in front of each other. -/
def exampleRouter (usingAESNI : Bool) : HopRouter where
  usingAESNI := usingAESNI
  mem _ := 0
  inPayload := 0
  outPayload := 2048
  apart := .inr (.inl (by decide))

/-- The keys with all bytes equal. -/
def exampleKeys (layer iv : UInt8) : LayerKeys where
  layerKey := Block.const layer
  ivKey := Block.const iv

/-- Two hops, one with AES-NI and one without. -/
def exampleHops : List (HopRouter × LayerKeys) :=
  [(exampleRouter true, exampleKeys 1 2), (exampleRouter false, exampleKeys 3 4)]

theorem layers_cancel_exampleHops :
    HopRouter.forwardAll xorCipher exampleHops (slice (encryptTunnelMsg xorCipher true
        (exampleHops.map Prod.snd) (fun i => UInt8.ofNat i) 18 18) 22 1024) =
      slice (fun i => UInt8.ofNat i) 22 1024 ∧
    slice (encryptTunnelMsg xorCipher true (exampleHops.map Prod.snd)
        (store (exampleRouter true).mem 4
          (HopRouter.forwardAll xorCipher exampleHops (List.replicate 1024 7))) 0 2048) 2052 1024 =
      List.replicate 1024 7 :=
  layers_cancel xorCipher exampleHops (by simp [exampleHops]) (exampleRouter true) (by decide)
    (fun i => UInt8.ofNat i) 18 ⟨List.replicate 1024 7, List.length_replicate⟩

end Cancel

end Tunnel
