import Xi2p.Garlic.Destination

/-!
# Unwrapping garlic messages

What a garlic destination makes of the message that a garlic session wrapped. The writer puts cloves of
three layouts one behind the other, and the reader finds them again with positions that it computes from
the flags and from the sizes in the headers of their messages.

* `Clove`: what the session puts in, and `Clove.dispatch`, what is then to be done with it.
* `val_handleCloves`: the loop of the reader against the list of the cloves.
* `val_handleAESBlock`: the decrypted block, with its tags.
* `dispatched_wrapSingleMessage`: the whole message.
-/

namespace Garlic

open Bytes I2NP CBC Traced

/-! ## Assumptions on the ciphers -/

/-- AES-CBC keeps the length of whole blocks, and is inverted by decryption. -/
structure Crypto.Inverts (crypto : Crypto) : Prop where
  length_cbcEncrypt : ∀ key iv plaintext, 16 ∣ plaintext.length →
    (crypto.cbcEncrypt key iv plaintext).length = plaintext.length
  cbcDecrypt_cbcEncrypt : ∀ key iv plaintext, 16 ∣ plaintext.length →
    crypto.cbcDecrypt key iv (crypto.cbcEncrypt key iv plaintext) = plaintext

/-- The private key belongs to the public key: ElGamal is inverted by decryption. -/
structure Crypto.ElGamalPair (crypto : Crypto) (publicKey privateKey : List UInt8) : Prop where
  length_elGamalEncrypt : ∀ random block, block.length = 222 →
    (crypto.elGamalEncrypt publicKey random block).length = 514
  elGamalDecrypt_elGamalEncrypt : ∀ random block, block.length = 222 →
    crypto.elGamalDecrypt privateKey (crypto.elGamalEncrypt publicKey random block) = some block

/-! ## Cloves -/

/-- What a session puts into a garlic message. -/
inductive Clove
  | locally (msg : List UInt8)
  | destination (hash : Tag) (msg : List UInt8)
  | tunnel (gateway : Tag) (tunnelID : UInt32) (msg : List UInt8)

namespace Clove

/-- The I2NP message of the clove. -/
def message : Clove → List UInt8
  | locally msg => msg
  | destination _ msg => msg
  | tunnel _ _ msg => msg

/-- The delivery instructions. -/
def instructions : Clove → List UInt8
  | locally _ => [0]
  | destination hash _ => 0x20 :: hash.bytes
  | tunnel gateway tunnelID _ => 0x60 :: gateway.bytes ++ writeU32 tunnelID

/-- The bytes of the clove, with the ones behind its message. -/
def bytes (clove : Clove) (trailer : List UInt8) : List UInt8 :=
  clove.instructions ++ clove.message ++ trailer

/-- What is to be done with the clove. Without an outbound tunnel, a clove for a tunnel is dropped. -/
def dispatch (hasTunnel : Bool) : Clove → List Dispatch
  | locally msg => [.handleI2NPMessage .locally msg]
  | destination _ msg => [.handleI2NPMessage .destination msg]
  | tunnel gateway tunnelID msg =>
    if hasTunnel then [.sendTunnelDataMsg gateway tunnelID msg] else []

end Clove

/-- The byte strings are those of the cloves, each with 15 bytes behind its message. -/
def Encodes (written : List (List UInt8)) (cloves : List Clove) : Prop :=
  List.Forall₂ (fun bytes clove => ∃ trailer, trailer.length = 15 ∧ bytes = clove.bytes trailer)
    written cloves

/-- The bytes are an I2NP message: the size in the header is that of the payload, and the message fits
a buffer. -/
structure IsMessage (msg : List UInt8) : Prop where
  headerSize_le : headerSize ≤ msg.length
  length_lt : 2 + msg.length < maxMessageSize
  size : readBE ((msg.drop headerSizeOffset).take 2) + headerSize = msg.length

section Reader

variable {m : Mem} {buf1 len : ℕ} {hasTunnel : Bool}

theorem val_getI2NPMessageLength {buf : ℕ} {msg : List UInt8} (hmsg : IsMessage msg)
    (h : StandsAt m buf msg) : (getI2NPMessageLength m buf).val = msg.length := by
  have hlen := hmsg.headerSize_le
  simp only [headerSize] at hlen
  have hslice : slice m (buf + headerSizeOffset) 2 = (msg.drop headerSizeOffset).take 2 :=
    h.slice_eq (by simp only [headerSizeOffset]; omega)
  show readBE (slice m (buf + headerSizeOffset) 2) + headerSize = msg.length
  rw [hslice, hmsg.size]

theorem val_messageAt {buf : ℕ} {msg : List UInt8} (hmsg : IsMessage msg)
    (h : StandsAt m buf msg) : (messageAt m buf).val = msg := by
  show slice m buf (getI2NPMessageLength m buf).val = msg
  rw [val_getI2NPMessageLength hmsg h]
  exact h

/-- A message that ends inside the payload, with its trailer, passes the check. -/
theorem val_checkCloveLen {buf : ℕ} {msg : List UInt8} (hmsg : IsMessage msg)
    (h : StandsAt m buf msg) (hinside : buf + msg.length + 15 ≤ buf1 + len) :
    (checkCloveLen m buf1 len buf).val = some (msg.length, msg.length + 15) := by
  have hlt := hmsg.length_lt
  simp only [maxMessageSize] at hlt
  have hmod : msg.length % 65536 = msg.length := Nat.mod_eq_of_lt (by omega)
  have hoffset : (msg.length + 4 + 8 + 3) % 65536 = msg.length + 15 := by omega
  show (if len < buf + ((getI2NPMessageLength m buf).val % 65536 + 4 + 8 + 3) % 65536 - buf1 then none
    else some ((getI2NPMessageLength m buf).val % 65536,
      ((getI2NPMessageLength m buf).val % 65536 + 4 + 8 + 3) % 65536)) = _
  rw [val_getI2NPMessageLength hmsg h, hmod, hoffset, if_neg (by omega)]

/-- A tag that stands in memory. -/
theorem ofMem_of_standsAt {pos : ℕ} {tag : Tag} (h : StandsAt m pos tag.bytes) :
    IdentHash.ofMem m pos = tag := by
  ext1
  rw [StandsAt, tag.length_eq] at h
  exact h

/-- Each kind of clove is dispatched, and leaves the position at its message. -/
theorem val_dispatchClove (hasTunnel : Bool) {buf : ℕ} {clove : Clove} (hmsg : IsMessage clove.message)
    (h : StandsAt m buf (clove.instructions ++ clove.message))
    (hinside : buf + clove.instructions.length + clove.message.length + 15 ≤ buf1 + len) :
    m buf &&& 0x80 = 0 ∧
      (dispatchClove m buf1 len hasTunnel (.ofFlag (m buf)) (buf + 1)).val =
        (buf + clove.instructions.length, some (clove.dispatch hasTunnel)) := by
  obtain ⟨hinstructions, hmessage⟩ := standsAt_append.mp h
  cases clove with
  | locally msg =>
    obtain ⟨hflag, -⟩ := standsAt_cons.mp hinstructions
    have hmessage : StandsAt m (buf + 1) msg := hmessage
    rw [hflag]
    refine ⟨by decide, ?_⟩
    show (buf + 1, some [Dispatch.handleI2NPMessage .locally (messageAt m (buf + 1)).val]) = _
    rw [val_messageAt hmsg hmessage]
    rfl
  | destination hash msg =>
    obtain ⟨hflag, -⟩ := standsAt_cons.mp hinstructions
    have hpos : buf + (Clove.destination hash msg).instructions.length = buf + 1 + 32 := by
      simp [Clove.instructions, Nat.add_assoc]
    rw [hpos] at hmessage ⊢
    rw [hflag]
    refine ⟨by decide, ?_⟩
    show (buf + 1 + 32, some [Dispatch.handleI2NPMessage .destination
      (messageAt m (buf + 1 + 32)).val]) = _
    rw [val_messageAt hmsg hmessage]
    rfl
  | tunnel gateway tunnelID msg =>
    obtain ⟨hflag, hrest⟩ := standsAt_cons.mp hinstructions
    obtain ⟨hgateway, htunnelID⟩ := standsAt_append.mp hrest
    rw [gateway.length_eq] at htunnelID
    have hpos : buf + (Clove.tunnel gateway tunnelID msg).instructions.length = buf + 1 + 36 := by
      simp [Clove.instructions, Nat.add_assoc]
    rw [hpos] at hmessage hinside ⊢
    rw [hflag]
    refine ⟨by decide, ?_⟩
    change IsMessage msg at hmsg
    change StandsAt m (buf + 1 + 36) msg at hmessage
    cases hasTunnel with
    | false => rfl
    | true =>
      have hcheck := val_checkCloveLen hmsg hmessage hinside
      have hcopy : (createI2NPMessage m (buf + 1 + 36) msg.length).val = msg := by
        rw [createI2NPMessage, if_pos hmsg.length_lt]
        exact hmessage
      have hflag' : GarlicDeliveryType.ofFlag 0x60 = .tunnel := by decide
      rw [hflag', dispatchClove]
      simp only [val_bind, if_true, hcheck]
      show (buf + 1 + 36, some [Dispatch.sendTunnelDataMsg (IdentHash.ofMem m (buf + 1))
        (readU32 (slice m (buf + 1 + 32) 4)) (createI2NPMessage m (buf + 1 + 36) msg.length).val]) = _
      rw [hcopy, htunnelID.readU32_eq, ofMem_of_standsAt hgateway]
      rfl

/-- The loop dispatches the cloves that stand one behind the other. -/
theorem val_handleCloves (hasTunnel : Bool) {written : List (List UInt8)} {cloves : List Clove}
    (hwritten : Encodes written cloves) (hcloves : ∀ c ∈ cloves, IsMessage c.message) {buf : ℕ}
    (h : StandsAt m buf written.flatten) (hinside : buf + written.flatten.length ≤ buf1 + len) :
    (handleCloves m buf1 len hasTunnel written.length buf).val =
      (cloves.flatMap (Clove.dispatch hasTunnel), false) := by
  induction hwritten generalizing buf with
  | nil => rfl
  | @cons bytes clove written cloves hbytes hwritten ih =>
    obtain ⟨trailer, htrailer, rfl⟩ := hbytes
    obtain ⟨hmsg, hothers⟩ := List.forall_mem_cons.mp hcloves
    rw [List.flatten_cons, Clove.bytes] at h hinside
    obtain ⟨hclove, hrest⟩ := standsAt_append.mp h
    obtain ⟨hclove, -⟩ := standsAt_append.mp hclove
    obtain ⟨-, hmessage⟩ := standsAt_append.mp hclove
    simp only [List.length_append, htrailer] at hrest hinside
    have hend : buf + clove.instructions.length + clove.message.length + 15 ≤ buf1 + len := by omega
    obtain ⟨hflag, hdispatch⟩ := val_dispatchClove hasTunnel hmsg hclove hend
    have hcheck := val_checkCloveLen hmsg hmessage hend
    have hnext : buf + clove.instructions.length + (clove.message.length + 15) =
        buf + (clove.instructions.length + clove.message.length + 15) := by omega
    have hloop := ih hothers hrest (by omega)
    rw [List.length_cons, handleCloves]
    simp only [val_bind, val_readByte, hflag, ne_eq, not_true_eq_false, if_false, hdispatch, hcheck,
      hnext, hloop]
    rfl

/-- The cloves of a payload are dispatched. -/
theorem val_handleGarlicPayload (hasTunnel : Bool) {call : Call} {written : List (List UInt8)}
    {cloves : List Clove} (hwritten : Encodes written cloves)
    (hcloves : ∀ c ∈ cloves, IsMessage c.message) (hcount : written.length < 256) {pos : ℕ}
    (h : StandsAt m pos (GarlicRoutingSession.payloadBytes call written)) :
    (handleGarlicPayload m pos (GarlicRoutingSession.payloadBytes call written).length
      hasTunnel).val = (cloves.flatMap (Clove.dispatch hasTunnel), false) := by
  have hlen : (GarlicRoutingSession.payloadBytes call written).length =
      written.flatten.length + 16 := by
    simp only [GarlicRoutingSession.payloadBytes, List.length_append, List.length_cons,
      length_writeU32, length_writeBE, List.length_nil]
  rw [GarlicRoutingSession.payloadBytes] at h
  obtain ⟨h, -⟩ := standsAt_append.mp h
  obtain ⟨h, -⟩ := standsAt_append.mp h
  obtain ⟨h, -⟩ := standsAt_append.mp h
  obtain ⟨hnum, hstands⟩ := standsAt_cons.mp h
  have hnumCloves : (UInt8.ofNat written.length).toNat = written.length := by
    rw [UInt8.toNat_ofNat', Nat.mod_eq_of_lt hcount]
  rw [handleGarlicPayload, val_bind, val_readByte, hnum, hnumCloves, hlen]
  exact val_handleCloves hasTunnel hwritten hcloves hstands (by omega)

/-! ## Blocks -/

/-- The tags that stand one behind the other. -/
theorem map_ofMem_eq {tags : List SessionTag} {pos : ℕ}
    (h : StandsAt m pos (tags.map fun t => t.tag.bytes).flatten) :
    ((List.range tags.length).map fun i => IdentHash.ofMem m (pos + i * 32)) =
      tags.map SessionTag.tag := by
  induction tags generalizing pos with
  | nil => rfl
  | cons t tags ih =>
    rw [List.map_cons, List.flatten_cons] at h
    obtain ⟨htag, hrest⟩ := standsAt_append.mp h
    rw [t.tag.length_eq] at hrest
    have hothers := ih hrest
    rw [List.length_cons, List.range_succ_eq_map, List.map_cons, List.map_map, List.map_cons, ← hothers]
    refine congrArg₂ List.cons ?_ (List.map_congr_left fun i _ => ?_)
    · rw [Nat.zero_mul, Nat.add_zero, ofMem_of_standsAt htag]
    · show IdentHash.ofMem m (pos + (i + 1) * 32) = IdentHash.ofMem m (pos + 32 + i * 32)
      congr 1
      omega

theorem length_flatten_tags (tags : List SessionTag) :
    (tags.map fun t => t.tag.bytes).flatten.length = tags.length * 32 := by
  induction tags with
  | nil => rfl
  | cons t tags ih =>
    rw [List.map_cons, List.flatten_cons, List.length_append, ih, t.tag.length_eq, List.length_cons]
    omega

end Reader

section Block

variable (crypto : Crypto)

open GarlicRoutingSession

/-- The plain text is padded to whole blocks. -/
theorem length_aesPlaintext (tags : List SessionTag) (payload : List UInt8) :
    16 ∣ (aesPlaintext crypto tags payload).length ∧
      39 + tags.length * 32 + payload.length ≤ (aesPlaintext crypto tags payload).length ∧
      (aesPlaintext crypto tags payload).length ≤ 54 + tags.length * 32 + payload.length := by
  have hpad (block : List UInt8) :
      (block ++ List.replicate ((16 - block.length % 16) % 16) (0 : UInt8)).length =
        block.length + (16 - block.length % 16) % 16 := by
    rw [List.length_append, List.length_replicate]
  have hblock : (writeBE 2 tags.length ++ (tags.map fun t => t.tag.bytes).flatten ++
      writeBE 4 payload.length ++ (crypto.sha256 payload).bytes ++ 0 :: payload).length =
        39 + tags.length * 32 + payload.length := by
    simp only [List.length_append, List.length_cons, length_writeBE, length_flatten_tags,
      IdentHash.length_eq]
    omega
  rw [aesPlaintext, hpad, hblock]
  omega

theorem subSize_of_le {a b : ℕ} (hb : b ≤ a) (ha : a < 2 ^ 64) : subSize a b = a - b := by
  rw [subSize]
  omega

variable {crypto} {m : Mem}

/-- The tags of the block are added, and its payload is handled. -/
theorem val_handleAESBlock (now : ℕ) (hasTunnel : Bool) (destination : GarlicDestination) (key : Tag)
    {tags : List SessionTag} {payload : List UInt8} (htags : tags.length < 65536)
    (hpayload : payload.length < 2 ^ 32) {buf : ℕ}
    (h : StandsAt m buf (aesPlaintext crypto tags payload)) {dispatched : List Dispatch}
    (hhandle : ∀ pos, StandsAt m pos payload →
      (handleGarlicPayload m pos payload.length hasTunnel).val = (dispatched, false)) :
    (destination.handleAESBlock crypto now hasTunnel key m buf
      (aesPlaintext crypto tags payload).length).val =
      { destination := { destination with
          tags := (tags.map SessionTag.tag).foldl (addTag now key) destination.tags }
        dispatched } := by
  obtain ⟨-, hge, hle⟩ := length_aesPlaintext crypto tags payload
  set len := (aesPlaintext crypto tags payload).length
  rw [aesPlaintext] at h
  obtain ⟨hblock, -⟩ := standsAt_append.mp h
  obtain ⟨hhead, hrest⟩ := standsAt_append.mp hblock
  obtain ⟨hhead, hhash⟩ := standsAt_append.mp hhead
  obtain ⟨hhead, hsize⟩ := standsAt_append.mp hhead
  obtain ⟨hcount, htagBytes⟩ := standsAt_append.mp hhead
  simp only [List.length_append, length_writeBE, length_flatten_tags, IdentHash.length_eq,
    ← Nat.add_assoc] at htagBytes hsize hhash hrest
  obtain ⟨hflag, hpayloadBytes⟩ := standsAt_cons.mp hrest
  -- what the reader finds at the positions that it computes
  have hcountVal : readBE (slice m buf 2) = tags.length := by
    rw [hcount.readBE_eq]
    exact Nat.mod_eq_of_lt htags
  have hsizeVal : readBE (slice m (buf + 2 + tags.length * 32) 4) = payload.length := by
    rw [hsize.readBE_eq]
    exact Nat.mod_eq_of_lt hpayload
  have hhashVal : slice m (buf + 2 + tags.length * 32 + 4) 32 = (crypto.sha256 payload).bytes := by
    rw [StandsAt, IdentHash.length_eq] at hhash
    exact hhash
  have hpayloadVal : slice m (buf + 2 + tags.length * 32 + 4 + 32 + 1) payload.length = payload :=
    hpayloadBytes
  -- the lengths do not go below zero
  have hlen : subSize len 2 = len - 2 := subSize_of_le (by omega) (by omega)
  have hlen' : subSize (len - 2) (tags.length * 32) = len - 2 - tags.length * 32 :=
    subSize_of_le (by omega) (by omega)
  have hroom : ¬ (0 < tags.length ∧ len - 2 < tags.length * 32) := by omega
  have hroom' : ¬ len - 2 - tags.length * 32 < payload.length := by omega
  rw [GarlicDestination.handleAESBlock]
  simp only [val_bind, val_read, val_readByte, hcountVal, hlen, if_neg hroom, hlen', hsizeVal,
    if_neg hroom', hhashVal, hflag, ne_eq, not_true_eq_false, if_false, hpayloadVal, if_true,
    hhandle _ hpayloadBytes, map_ofMem_eq htagBytes]
  rfl

theorem bytes_blockTag {block : List UInt8} {i : ℕ} (h : 32 * i + 32 ≤ block.length) :
    (GarlicDestination.blockTag block i).bytes = (block.drop (32 * i)).take 32 := by
  have hslice : slice (store (fun _ => 0) 0 block) (0 + 32 * i) 32 = (block.drop (32 * i)).take 32 :=
    slice_store_sub (fun _ => 0) h
  rw [Nat.zero_add] at hslice
  exact hslice

/-- The session key and the pre-IV of an ElGamal block. -/
theorem blockTag_elGamalBlock (key preIV : Tag) (padding : Block 158) :
    GarlicDestination.blockTag (key.bytes ++ preIV.bytes ++ padding.bytes) 0 = key ∧
      GarlicDestination.blockTag (key.bytes ++ preIV.bytes ++ padding.bytes) 1 = preIV := by
  constructor
  · ext1
    rw [bytes_blockTag (by simp), List.append_assoc, Nat.mul_zero, List.drop_zero,
      List.take_left' key.length_eq]
  · ext1
    rw [bytes_blockTag (by simp), List.append_assoc, List.drop_left' key.length_eq,
      List.take_left' preIV.length_eq]

/-- What is left of a message with these tags and this payload. -/
def unwrapped (now : ℕ) (destination : GarlicDestination) (key : Tag) (tags : List SessionTag)
    (dispatched : List Dispatch) : Handled where
  destination := { destination with
    tags := (tags.map SessionTag.tag).foldl (addTag now key) destination.tags }
  dispatched := dispatched

variable (hcrypto : crypto.Inverts) {now : ℕ} {hasTunnel : Bool} {destination : GarlicDestination}
  {tags : List SessionTag} {payload : List UInt8} (htags : tags.length < 65536)
  (hpayload : payload.length < 2 ^ 32) {dispatched : List Dispatch}
  (hhandle : ∀ m pos, StandsAt m pos payload →
    (handleGarlicPayload m pos payload.length hasTunnel).val = (dispatched, false))

include hcrypto htags hpayload hhandle

/-- The block is decrypted where it stands. -/
theorem val_decryptAndHandle {key : Tag} {iv : List UInt8} {buf start length : ℕ}
    (h : StandsAt m (buf + start) (crypto.cbcEncrypt key iv (aesPlaintext crypto tags payload)))
    (hlength : length = start + (aesPlaintext crypto tags payload).length) :
    (destination.decryptAndHandle crypto now hasTunnel key iv m buf start length).val =
      unwrapped now destination key tags dispatched := by
  obtain ⟨hdvd, -, -⟩ := length_aesPlaintext crypto tags payload
  rw [StandsAt, hcrypto.length_cbcEncrypt _ _ _ hdvd] at h
  have hlen : length - start = (aesPlaintext crypto tags payload).length := by omega
  rw [GarlicDestination.decryptAndHandle, val_bind, val_read, hlen, h,
    hcrypto.cbcDecrypt_cbcEncrypt _ _ _ hdvd]
  exact val_handleAESBlock now hasTunnel destination key htags hpayload (standsAt_store _ _ _)
    (hhandle _)

/-- A message with a tag that the destination holds. -/
theorem val_handleByTag_tag {tag key : Tag} {time buf : ℕ}
    (hfind : AssocMap.find destination.tags tag = some ⟨time, key⟩)
    (h : StandsAt m buf
      (tag.bytes ++ crypto.cbcEncrypt key (crypto.iv tag) (aesPlaintext crypto tags payload))) :
    (destination.handleByTag crypto now hasTunnel m buf
      (32 + (aesPlaintext crypto tags payload).length)).val =
      let handled := unwrapped now destination key tags dispatched
      { handled with destination.tags := AssocMap.erase handled.destination.tags tag } := by
  obtain ⟨htag, hblock⟩ := standsAt_append.mp h
  rw [tag.length_eq] at hblock
  have hhandled : (destination.decryptAndHandle crypto now hasTunnel key (crypto.iv tag) m buf 32
      (32 + (aesPlaintext crypto tags payload).length)).val =
        unwrapped now destination key tags dispatched :=
    val_decryptAndHandle hcrypto htags hpayload hhandle hblock rfl
  have hle : 32 ≤ 32 + (aesPlaintext crypto tags payload).length := Nat.le_add_right _ _
  rw [GarlicDestination.handleByTag]
  simp only [val_bind, ofMem_of_standsAt htag, hfind, if_pos hle, hhandled]
  rfl

/-- A message with an ElGamal block that does not start with a tag the destination holds. -/
theorem val_handleByTag_elGamal {publicKey random : List UInt8} {key preIV : Tag} {padding : Block 158}
    {buf : ℕ} (hpair : crypto.ElGamalPair publicKey destination.privateKey)
    (hfind : AssocMap.find destination.tags (GarlicDestination.blockTag
      (crypto.elGamalEncrypt publicKey random (key.bytes ++ preIV.bytes ++ padding.bytes)) 0) = none)
    (h : StandsAt m buf
      (crypto.elGamalEncrypt publicKey random (key.bytes ++ preIV.bytes ++ padding.bytes) ++
        crypto.cbcEncrypt key (crypto.iv preIV) (aesPlaintext crypto tags payload))) :
    (destination.handleByTag crypto now hasTunnel m buf
      (514 + (aesPlaintext crypto tags payload).length)).val =
      unwrapped now destination key tags dispatched := by
  have hlen : (key.bytes ++ preIV.bytes ++ padding.bytes).length = 222 := by simp
  have hlenBlock := hpair.length_elGamalEncrypt random _ hlen
  have hdecrypt := hpair.elGamalDecrypt_elGamalEncrypt random _ hlen
  set block := key.bytes ++ preIV.bytes ++ padding.bytes with hblock
  set encrypted := crypto.elGamalEncrypt publicKey random block
  obtain ⟨hstart, hrest⟩ := standsAt_append.mp h
  rw [hlenBlock] at hrest
  have htag : IdentHash.ofMem m buf = GarlicDestination.blockTag encrypted 0 := by
    ext1
    rw [bytes_blockTag (by omega)]
    exact hstart.slice_eq (k := 0) (by omega)
  have hread : slice m buf 514 = encrypted := by
    rw [StandsAt, hlenBlock] at hstart
    exact hstart
  obtain ⟨hkey, hpreIV⟩ := blockTag_elGamalBlock key preIV padding
  have hle : 514 ≤ 514 + (aesPlaintext crypto tags payload).length := Nat.le_add_right _ _
  rw [GarlicDestination.handleByTag]
  simp only [val_bind, htag, hfind, if_pos hle, val_read, hread, hdecrypt, hblock, hkey, hpreIV]
  exact val_decryptAndHandle hcrypto htags hpayload hhandle hrest rfl

end Block

/-! ## What is sent -/

section Sender

variable (crypto : Crypto)

theorem length_fillI2NPMessageHeader (typeID : UInt8) (msgID : UInt32) (milliseconds : ℕ)
    (payload : List UInt8) :
    (fillI2NPMessageHeader crypto typeID msgID milliseconds payload).length =
      headerSize + payload.length := by
  simp only [fillI2NPMessageHeader, List.length_append, List.length_cons, length_writeU32,
    length_writeBE, List.length_take, IdentHash.length_eq, headerSize]
  omega

/-- A message whose header has been filled is an I2NP message. -/
theorem isMessage_fillI2NPMessageHeader (typeID : UInt8) (msgID : UInt32) (milliseconds : ℕ)
    {payload : List UInt8} (h : 2 + headerSize + payload.length < maxMessageSize) :
    IsMessage (fillI2NPMessageHeader crypto typeID msgID milliseconds payload) := by
  have hlen := length_fillI2NPMessageHeader crypto typeID msgID milliseconds payload
  refine ⟨by omega, by omega, ?_⟩
  rw [hlen]
  have hbytes : fillI2NPMessageHeader crypto typeID msgID milliseconds payload =
      (typeID :: writeU32 msgID ++ writeBE 8 (milliseconds + 60000)) ++ (writeBE 2 payload.length ++
        ((crypto.sha256 payload).bytes.take 1 ++ payload)) := by
    simp [fillI2NPMessageHeader]
  have hdrop : (typeID :: writeU32 msgID ++ writeBE 8 (milliseconds + 60000)).length =
      headerSizeOffset := by simp
  simp only [headerSize, maxMessageSize] at h
  rw [hbytes, List.drop_left' hdrop, List.take_left' (length_writeBE 2 _), readBE_writeBE,
    Nat.mod_eq_of_lt (by omega), Nat.add_comm]

theorem length_cloveTrailer (cloveID : UInt32) (expiration : ℕ) :
    (cloveTrailer cloveID expiration).length = 15 := by
  simp [cloveTrailer]

namespace GarlicRoutingSession

variable (wrap : Wrap) (session : GarlicRoutingSession) (call : Call)

/-- The lease set is due. -/
def sendsLeaseSet : Bool :=
  session.hasOwner && (session.resubmitLeaseSet call).leaseSetUpdateStatus = .updated

/-- A delivery status is asked for. -/
def sendsStatus : Bool :=
  session.hasOwner && ((session.newTags call).isSome ||
    (session.resubmitLeaseSet call).leaseSetUpdateStatus = .updated)

/-- The delivery status, wrapped for the way back. -/
def statusMessage : Option (List UInt8) :=
  wrap (oneTime call call.draws.statusKey call.draws.statusTag)
    (createDeliveryStatusMsg crypto call call.draws.msgID)

/-- The clove with the delivery status, for the inbound tunnel. -/
def statusCloves : List Clove :=
  if session.sendsStatus call then
    match call.owner.inboundTunnel, statusMessage crypto wrap call with
    | some (hash, tunnelID), some msg => [.tunnel hash tunnelID msg]
    | _, _ => []
  else []

/-- The clove with the store of the lease set. -/
def leaseSetCloves : List Clove :=
  if session.sendsLeaseSet call then
    (call.owner.leaseSet.map fun leaseSet =>
      Clove.locally (createDatabaseStoreMsg crypto call leaseSet)).toList
  else []

/-- The clove with the message, for the destination if there is one. -/
def messageClove (msg : List UInt8) : Clove :=
  match session.destination with
  | some destination =>
    if destination.isDestination then .destination destination.identHash msg else .locally msg
  | none => .locally msg

/-- What the session puts into the message. -/
def sentCloves (msg : List UInt8) : List Clove :=
  session.statusCloves crypto wrap call ++ session.leaseSetCloves crypto call ++
    [session.messageClove msg]

/-- The tags that go with the message. -/
def sentTags : List SessionTag := ((session.newTags call).map UnconfirmedTags.sessionTags).getD []

theorem encodes_createGarlicClove (cloveID : UInt32) (msg : List UInt8) :
    Encodes [session.createGarlicClove call cloveID msg false] [.locally msg] := by
  refine .cons ⟨cloveTrailer cloveID (call.milliseconds + 5000), length_cloveTrailer _ _, ?_⟩ .nil
  simp [createGarlicClove, Clove.bytes, Clove.instructions, Clove.message]

theorem encodes_attachMessage (msg : List UInt8) :
    Encodes (session.attachMessage call (some msg)) [session.messageClove msg] := by
  refine .cons ⟨cloveTrailer call.draws.cloveID (call.milliseconds + 5000),
    length_cloveTrailer _ _, ?_⟩ .nil
  cases hdestination : session.destination with
  | none => simp [createGarlicClove, messageClove, hdestination, Clove.bytes, Clove.instructions,
      Clove.message]
  | some destination =>
    cases hto : destination.isDestination with
    | true => simp [createGarlicClove, messageClove, hdestination, hto, Clove.bytes,
        Clove.instructions, Clove.message]
    | false => simp [createGarlicClove, messageClove, hdestination, hto, Clove.bytes,
        Clove.instructions, Clove.message]

/-- Attaching cloves leaves the key and the destination as they are. -/
structure Same (s s' : GarlicRoutingSession) : Prop where
  sessionKey : s'.sessionKey = s.sessionKey
  destination : s'.destination = s.destination

variable {crypto wrap session call}

theorem same_resubmitLeaseSet : Same session (session.resubmitLeaseSet call) := by
  rw [resubmitLeaseSet]
  split
  · exact ⟨rfl, rfl⟩
  · exact ⟨rfl, rfl⟩

/-- The clove with the delivery status is not empty. -/
theorem createDeliveryStatusClove_cases {msgID : UInt32} {clove : List UInt8}
    {calls : List OwnerCall}
    (h : createDeliveryStatusClove crypto wrap call msgID = some (clove, calls)) :
    (call.owner.inboundTunnel = none ∧ clove = []) ∨
      ∃ hash tunnelID msg, call.owner.inboundTunnel = some (hash, tunnelID) ∧
        wrap (oneTime call call.draws.statusKey call.draws.statusTag)
          (createDeliveryStatusMsg crypto call msgID) = some msg ∧
        clove = (Clove.tunnel hash tunnelID msg).bytes
          (cloveTrailer call.draws.statusCloveID (call.milliseconds + 5000)) := by
  rw [createDeliveryStatusClove] at h
  split at h
  next htunnel =>
    obtain ⟨rfl, -⟩ := Prod.mk.inj (Option.some.inj h)
    exact .inl ⟨htunnel, rfl⟩
  next hash tunnelID htunnel =>
    obtain ⟨msg, hmsg, hclove⟩ := Option.bind_eq_some_iff.mp h
    obtain ⟨rfl, -⟩ := Prod.mk.inj (Option.some.inj hclove)
    exact .inr ⟨hash, tunnelID, msg, htunnel, hmsg, rfl⟩

theorem attachDeliveryStatus_spec (howner : session.hasOwner = true) {s' : GarlicRoutingSession}
    {status : List (List UInt8)} {calls : List OwnerCall}
    (h : (session.resubmitLeaseSet call).attachDeliveryStatus crypto wrap call
      (session.newTags call) = some (s', status, calls)) :
    Encodes status (session.statusCloves crypto wrap call) ∧ Same session s' ∧
      s'.leaseSetUpdateStatus = (session.resubmitLeaseSet call).leaseSetUpdateStatus := by
  have hsame : Same session (session.resubmitLeaseSet call) := same_resubmitLeaseSet
  have hsends : session.sendsStatus call = true ↔ (session.newTags call).isSome = true ∨
      (session.resubmitLeaseSet call).leaseSetUpdateStatus = .updated := by
    simp [sendsStatus, howner]
  rw [attachDeliveryStatus] at h
  split at h
  next hdue =>
    obtain ⟨⟨clove, calls'⟩, hclove, hresult⟩ := Option.bind_eq_some_iff.mp h
    have hcases := createDeliveryStatusClove_cases hclove
    rw [statusCloves, if_pos (hsends.mpr hdue)]
    obtain ⟨htunnel, rfl⟩ | ⟨hash, tunnelID, msg, htunnel, hmsg, rfl⟩ := hcases
    · obtain ⟨rfl, rfl, -⟩ := (Prod.mk.inj (Option.some.inj hresult)).imp_right Prod.mk.inj
      rw [htunnel]
      exact ⟨.nil, hsame, rfl⟩
    · have hpos : 0 < ((Clove.tunnel hash tunnelID msg).bytes
          (cloveTrailer call.draws.statusCloveID (call.milliseconds + 5000))).length :=
        Nat.succ_pos _
      have hencodes : Encodes [(Clove.tunnel hash tunnelID msg).bytes
          (cloveTrailer call.draws.statusCloveID (call.milliseconds + 5000))]
          [.tunnel hash tunnelID msg] :=
        .cons ⟨_, length_cloveTrailer _ _, rfl⟩ .nil
      dsimp only at hresult
      rw [if_pos hpos] at hresult
      obtain ⟨rfl, rfl, -⟩ := (Prod.mk.inj (Option.some.inj hresult)).imp_right Prod.mk.inj
      rw [htunnel, statusMessage, hmsg]
      refine ⟨hencodes, ?_⟩
      -- new tags are kept until the status arrives
      split
      · exact ⟨⟨hsame.sessionKey, hsame.destination⟩, rfl⟩
      · exact ⟨hsame, rfl⟩
  next hdue =>
    obtain ⟨rfl, rfl, -⟩ := (Prod.mk.inj (Option.some.inj h)).imp_right Prod.mk.inj
    rw [statusCloves, if_neg (mt hsends.mp hdue)]
    exact ⟨.nil, hsame, rfl⟩

theorem attachLeaseSet_spec (howner : session.hasOwner = true) {s s' : GarlicRoutingSession}
    {leaseSet : List (List UInt8)}
    (hstatus : s.leaseSetUpdateStatus = (session.resubmitLeaseSet call).leaseSetUpdateStatus)
    (h : s.attachLeaseSet crypto call = some (s', leaseSet)) :
    Encodes leaseSet (session.leaseSetCloves crypto call) ∧ Same s s' := by
  have hsends : session.sendsLeaseSet call = true ↔ s.leaseSetUpdateStatus = .updated := by
    simp [sendsLeaseSet, howner, hstatus]
  rw [attachLeaseSet] at h
  split at h
  next hdue =>
    obtain ⟨ls, hls, hresult⟩ := Option.bind_eq_some_iff.mp h
    obtain ⟨rfl, rfl⟩ := Prod.mk.inj (Option.some.inj hresult)
    rw [leaseSetCloves, if_pos (hsends.mpr hdue), hls]
    exact ⟨encodes_createGarlicClove _ _ _ _, rfl, rfl⟩
  next hdue =>
    obtain ⟨rfl, rfl⟩ := Prod.mk.inj (Option.some.inj h)
    rw [leaseSetCloves, if_neg (mt hsends.mp hdue)]
    exact ⟨.nil, rfl, rfl⟩

/-- The payload holds the cloves that are due. -/
theorem createGarlicPayload_spec {msg : List UInt8} {s' : GarlicRoutingSession}
    {payload : List UInt8} {calls : List OwnerCall}
    (h : session.createGarlicPayload crypto wrap call (some msg) (session.newTags call) =
      some (s', payload, calls)) :
    s'.sessionKey = session.sessionKey ∧
      ∃ written, payload = payloadBytes call written ∧
        Encodes written (session.sentCloves crypto wrap call msg) := by
  rw [createGarlicPayload] at h
  split at h
  next howner =>
    obtain ⟨⟨s₁, status, calls₁⟩, hstatus, h⟩ := Option.bind_eq_some_iff.mp h
    obtain ⟨⟨s₂, leaseSet⟩, hleaseSet, h⟩ := Option.bind_eq_some_iff.mp h
    obtain ⟨rfl, rfl, -⟩ := (Prod.mk.inj (Option.some.inj h)).imp_right Prod.mk.inj
    obtain ⟨hencodes₁, hsame₁, hkept⟩ := attachDeliveryStatus_spec howner hstatus
    obtain ⟨hencodes₂, hsame₂⟩ := attachLeaseSet_spec howner hkept hleaseSet
    have hclove : s₂.messageClove msg = session.messageClove msg := by
      rw [messageClove, messageClove, hsame₂.destination, hsame₁.destination]
    refine ⟨hsame₂.sessionKey.trans hsame₁.sessionKey, _, rfl, ?_⟩
    rw [sentCloves, ← hclove]
    exact List.rel_append (List.rel_append hencodes₁ hencodes₂) (encodes_attachMessage _ _ _)
  next howner =>
    obtain ⟨rfl, rfl, -⟩ := (Prod.mk.inj (Option.some.inj h)).imp_right Prod.mk.inj
    have hnone : session.sentCloves crypto wrap call msg = [session.messageClove msg] := by
      simp [sentCloves, statusCloves, leaseSetCloves, sendsStatus, sendsLeaseSet, howner]
    refine ⟨rfl, _, rfl, ?_⟩
    rw [hnone]
    exact encodes_attachMessage _ _ _

/-- The payload of a garlic message. -/
def withLength (start block : List UInt8) : List UInt8 :=
  writeBE 4 (start.length + block.length) ++ start ++ block

/-- Taking a tag changes nothing but the tags. -/
theorem findTag_snd (session : GarlicRoutingSession) (call : Call) :
    ∃ sessionTags, (session.findTag call).2 = { session with sessionTags } := by
  rw [findTag]
  split
  · exact ⟨_, rfl⟩
  · exact ⟨session.sessionTags, rfl⟩

theorem wrapSingleMessageWith_eq (msg : Option (List UInt8)) :
    session.wrapSingleMessageWith crypto wrap call msg =
      ((session.findTag call).2.messageStart crypto call (session.findTag call).1).bind fun start =>
        ((session.findTag call).2.createAESBlock crypto wrap call start.2 msg).bind fun r =>
          some (r.1, fillI2NPMessageHeader crypto 11 call.draws.headerID call.milliseconds
            (withLength start.1 r.2.1), r.2.2) := rfl

/-- The parts of a wrapped message. -/
theorem wrapSingleMessageWith_spec {msg : List UInt8} {s' : GarlicRoutingSession}
    {wrapped : List UInt8} {calls : List OwnerCall}
    (h : session.wrapSingleMessageWith crypto wrap call (some msg) = some (s', wrapped, calls)) :
    ∃ start iv written,
      session.messageStart crypto call (session.findTag call).1 = some (start, iv) ∧
      Encodes written ((session.findTag call).2.sentCloves crypto wrap call msg) ∧
      wrapped = fillI2NPMessageHeader crypto 11 call.draws.headerID call.milliseconds
        (withLength start (crypto.cbcEncrypt session.sessionKey iv
          (aesPlaintext crypto ((session.findTag call).2.sentTags call)
            (payloadBytes call written)))) := by
  obtain ⟨sessionTags, htaken⟩ := findTag_snd session call
  have hkey : (session.findTag call).2.sessionKey = session.sessionKey := by rw [htaken]
  have hstarts (tag : Option Tag) : (session.findTag call).2.messageStart crypto call tag =
      session.messageStart crypto call tag := by
    rw [htaken]
    rfl
  rw [wrapSingleMessageWith_eq] at h
  obtain ⟨⟨start, iv⟩, hstart, h⟩ := Option.bind_eq_some_iff.mp h
  obtain ⟨⟨s₁, block, calls₁⟩, hblock, h⟩ := Option.bind_eq_some_iff.mp h
  obtain ⟨rfl, rfl, -⟩ := (Prod.mk.inj (Option.some.inj h)).imp_right Prod.mk.inj
  obtain ⟨⟨s₂, payload, calls₂⟩, hpayload, hblock⟩ := Option.bind_eq_some_iff.mp hblock
  obtain ⟨rfl, rfl, -⟩ := (Prod.mk.inj (Option.some.inj hblock)).imp_right Prod.mk.inj
  obtain ⟨hsame, written, rfl, hencodes⟩ := createGarlicPayload_spec hpayload
  refine ⟨start, iv, written, ?_, hencodes, ?_⟩
  · rwa [hstarts] at hstart
  · rw [hsame, hkey]
    rfl

/-! ## Lengths -/

/-- The number of bytes of a clove. -/
def cloveLength (clove : Clove) : ℕ := clove.instructions.length + clove.message.length + 15

theorem cloveLength_le (clove : Clove) : cloveLength clove ≤ clove.message.length + 52 := by
  cases clove <;> simp [cloveLength, Clove.instructions] <;> omega

theorem length_flatten_of_encodes {written : List (List UInt8)} {cloves : List Clove}
    (h : Encodes written cloves) : written.flatten.length = (cloves.map cloveLength).sum := by
  induction h with
  | nil => rfl
  | cons hbytes _ ih =>
    obtain ⟨trailer, htrailer, rfl⟩ := hbytes
    rw [List.flatten_cons, List.length_append, ih, List.map_cons, List.sum_cons, Clove.bytes,
      List.length_append, List.length_append, htrailer, cloveLength]

theorem length_payloadBytes (call : Call) (written : List (List UInt8)) :
    (payloadBytes call written).length = written.flatten.length + 16 := by
  simp only [payloadBytes, List.length_append, List.length_cons, length_writeU32, length_writeBE,
    List.length_nil]

/-- The payload of a garlic message, by its parts. -/
theorem length_withLength_le (hcrypto : crypto.Inverts) (start iv : List UInt8) (key : Tag)
    (tags : List SessionTag) (payload : List UInt8) :
    (withLength start (crypto.cbcEncrypt key iv (aesPlaintext crypto tags payload))).length ≤
      58 + start.length + tags.length * 32 + payload.length := by
  obtain ⟨hdvd, -, hle⟩ := length_aesPlaintext crypto tags payload
  rw [withLength, List.length_append, List.length_append, length_writeBE,
    hcrypto.length_cbcEncrypt _ _ _ hdvd]
  omega

theorem length_createDeliveryStatusMsg (call : Call) (msgID : UInt32) :
    (createDeliveryStatusMsg crypto call msgID).length = 28 := by
  rw [createDeliveryStatusMsg, length_fillI2NPMessageHeader]
  split
  · simp
  · simp

/-- The tag of a session that is used once has not expired. -/
theorem findTag_oneTime (call : Call) (draws : Draws) (key tag : Tag) :
    (oneTime call key tag).findTag { call with draws } =
      (some tag, { oneTime call key tag with sessionTags := [] }) := by
  have hfresh : call.seconds < call.seconds + outgoingTagsExpirationTimeout := by
    simp only [outgoingTagsExpirationTimeout]
    omega
  rw [findTag, if_pos (show 0 < (oneTime call key tag).numTags from Nat.one_pos)]
  simp only [oneTime, takeTag, if_pos hfresh]

/-- The wrapped delivery status is an I2NP message, and a short one. -/
theorem statusMessage_spec (hcrypto : crypto.Inverts) {draws : Draws} {msg : List UInt8}
    (h : statusMessage crypto (wrapDeliveryStatus crypto call draws) call = some msg) :
    IsMessage msg ∧ msg.length ≤ 166 := by
  obtain ⟨⟨s', wrapped, calls⟩, hwrap, rfl⟩ := Option.map_eq_some_iff.mp h
  obtain ⟨start, iv, written, hstart, hencodes, rfl⟩ := wrapSingleMessageWith_spec hwrap
  rw [findTag_oneTime] at hstart hencodes
  obtain ⟨rfl, rfl⟩ := Prod.mk.inj (Option.some.inj hstart)
  -- the only clove is the status itself, and there are no tags
  change Encodes written [.locally (createDeliveryStatusMsg crypto call call.draws.msgID)] at hencodes
  have hwritten : written.flatten.length = 44 := by
    rw [length_flatten_of_encodes hencodes]
    simp [cloveLength, Clove.instructions, Clove.message, length_createDeliveryStatusMsg]
  have htags : ((oneTime call call.draws.statusKey call.draws.statusTag).findTag
      { call with draws }).2.sentTags { call with draws } = [] := by
    rw [findTag_oneTime]
    rfl
  rw [htags]
  have hlen := length_withLength_le hcrypto call.draws.statusTag.bytes
    (crypto.iv call.draws.statusTag) (oneTime call call.draws.statusKey call.draws.statusTag).sessionKey
    [] (payloadBytes { call with draws } written)
  rw [length_payloadBytes, hwritten, IdentHash.length_eq, List.length_nil] at hlen
  refine ⟨isMessage_fillI2NPMessageHeader crypto _ _ _ ?_, ?_⟩
  · simp only [headerSize, maxMessageSize]
    omega
  · rw [length_fillI2NPMessageHeader]
    simp only [headerSize]
    omega

/-- Cloves whose messages are I2NP messages, with at most so many bytes. -/
structure Bounded (count bytes : ℕ) (cloves : List Clove) : Prop where
  isMessage : ∀ clove ∈ cloves, IsMessage clove.message
  length_le : cloves.length ≤ count
  bytes_le : (cloves.map cloveLength).sum ≤ bytes

theorem bounded_nil (count bytes : ℕ) : Bounded count bytes [] where
  isMessage _ h := nomatch h
  length_le := Nat.zero_le _
  bytes_le := Nat.zero_le _

theorem bounded_singleton {clove : Clove} {bytes : ℕ} (h : IsMessage clove.message)
    (hlen : clove.message.length + 52 ≤ bytes) : Bounded 1 bytes [clove] where
  isMessage := by simpa using h
  length_le := Nat.le_refl _
  bytes_le := by
    have := cloveLength_le clove
    simp
    omega

theorem Bounded.append {n n' k k' : ℕ} {as bs : List Clove} (ha : Bounded n k as)
    (hb : Bounded n' k' bs) : Bounded (n + n') (k + k') (as ++ bs) where
  isMessage := List.forall_mem_append.mpr ⟨ha.isMessage, hb.isMessage⟩
  length_le := by
    have := ha.length_le
    have := hb.length_le
    rw [List.length_append]
    omega
  bytes_le := by
    have := ha.bytes_le
    have := hb.bytes_le
    rw [List.map_append, List.sum_append]
    omega

theorem bounded_statusCloves (hcrypto : crypto.Inverts) (draws : Draws) :
    Bounded 1 218 (session.statusCloves crypto (wrapDeliveryStatus crypto call draws) call) := by
  rw [statusCloves]
  split
  · split
    next msg _ hmsg =>
      obtain ⟨hmessage, hlen⟩ := statusMessage_spec hcrypto hmsg
      exact bounded_singleton hmessage (by simp only [Clove.message]; omega)
    · exact bounded_nil _ _
  · exact bounded_nil _ _

theorem bounded_leaseSetCloves
    (h : ∀ leaseSet, call.owner.leaseSet = some leaseSet → leaseSet.2.length ≤ 3072) :
    Bounded 1 3177 (session.leaseSetCloves crypto call) := by
  rw [leaseSetCloves]
  split
  · cases hleaseSet : call.owner.leaseSet with
    | none => exact bounded_nil _ _
    | some leaseSet =>
      have hbuffer := h leaseSet hleaseSet
      have hpayload : (leaseSet.1.bytes ++ 1 :: writeU32 0 ++ leaseSet.2).length =
          37 + leaseSet.2.length := by
        simp only [List.length_append, List.length_cons, length_writeU32, IdentHash.length_eq]
      refine bounded_singleton (isMessage_fillI2NPMessageHeader crypto _ _ _ ?_) ?_
      · rw [hpayload]
        simp only [headerSize, maxMessageSize]
        omega
      · show (createDatabaseStoreMsg crypto call leaseSet).length + 52 ≤ 3177
        rw [createDatabaseStoreMsg, length_fillI2NPMessageHeader, hpayload]
        simp only [headerSize]
        omega
  · exact bounded_nil _ _

theorem message_messageClove (session : GarlicRoutingSession) (msg : List UInt8) :
    (session.messageClove msg).message = msg := by
  rw [messageClove]
  split
  · split <;> rfl
  · rfl

theorem bounded_sentCloves (hcrypto : crypto.Inverts) (draws : Draws)
    (hleaseSet : ∀ leaseSet, call.owner.leaseSet = some leaseSet → leaseSet.2.length ≤ 3072)
    {msg : List UInt8} (hmsg : IsMessage msg) (hlen : msg.length ≤ 20000) :
    Bounded 3 23447 (session.sentCloves crypto (wrapDeliveryStatus crypto call draws) call msg) := by
  have hone : Bounded 1 20052 [session.messageClove msg] :=
    bounded_singleton (by rwa [message_messageClove]) (by rw [message_messageClove]; omega)
  exact ((bounded_statusCloves hcrypto draws).append (bounded_leaseSetCloves hleaseSet)).append hone

end GarlicRoutingSession

end Sender

/-! ## Tags of the destination -/

theorem tagKey_injective : Function.Injective tagKey := by
  intro a b h
  ext1
  have ha := writeBE_readBE a.bytes
  have hb := writeBE_readBE b.bytes
  rw [a.length_eq] at ha
  rw [b.length_eq] at hb
  rw [← ha, ← hb]
  exact congrArg (writeBE 32) h

/-- What is found after a tag has been added. -/
theorem find_addTag {tags : Tags} (h : AssocMap.Distinct tags) (now : ℕ) (key tag tag' : Tag) :
    AssocMap.find (addTag now key tags tag) tag' =
      if tag' = tag then
        some ⟨((AssocMap.find tags tag).map IncomingTag.creationTime).getD now, key⟩
      else AssocMap.find tags tag' := by
  rw [addTag]
  split
  next old hold =>
    rw [AssocMap.find_assign tagKey_injective h, hold]
    rfl
  next hnone =>
    rw [AssocMap.find_assign tagKey_injective h, hnone]
    rfl

theorem distinct_addTag {tags : Tags} (h : AssocMap.Distinct tags) (now : ℕ) (key tag : Tag) :
    AssocMap.Distinct (addTag now key tags tag) := by
  rw [addTag]
  split
  · exact h.assign tagKey_injective _ _
  · exact h.assign tagKey_injective _ _

theorem distinct_foldl_addTag {tags : Tags} (h : AssocMap.Distinct tags) (now : ℕ) (key : Tag)
    (newTags : List Tag) : AssocMap.Distinct (newTags.foldl (addTag now key) tags) := by
  induction newTags generalizing tags with
  | nil => exact h
  | cons tag newTags ih => exact ih (distinct_addTag h now key tag)

/-- Tags that are not new are found as before. -/
theorem find_foldl_addTag_of_notMem {tags : Tags} (h : AssocMap.Distinct tags) (now : ℕ) (key : Tag)
    {newTags : List Tag} {tag : Tag} (htag : tag ∉ newTags) :
    AssocMap.find (newTags.foldl (addTag now key) tags) tag = AssocMap.find tags tag := by
  induction newTags generalizing tags with
  | nil => rfl
  | cons tag' newTags ih =>
    rw [List.mem_cons, not_or] at htag
    obtain ⟨hne, hnotMem⟩ := htag
    rw [List.foldl_cons, ih (distinct_addTag h now key tag') hnotMem, find_addTag h, if_neg hne]

/-- A new tag that was not held before is found with the time and the key. -/
theorem find_foldl_addTag_of_mem {tags : Tags} (h : AssocMap.Distinct tags) {now : ℕ} {key : Tag}
    {newTags : List Tag} {tag : Tag} (htag : tag ∈ newTags)
    (hnew : AssocMap.find tags tag = none ∨ AssocMap.find tags tag = some ⟨now, key⟩) :
    AssocMap.find (newTags.foldl (addTag now key) tags) tag = some ⟨now, key⟩ := by
  induction newTags generalizing tags with
  | nil => cases htag
  | cons tag' newTags ih =>
    rw [List.foldl_cons]
    have hdistinct := distinct_addTag h now key tag'
    have hfind := find_addTag h now key tag' tag
    by_cases heq : tag = tag'
    · subst heq
      have hadded : AssocMap.find (addTag now key tags tag) tag = some ⟨now, key⟩ := by
        rw [hfind, if_pos rfl]
        rcases hnew with hnone | hsome
        · rw [hnone]
          rfl
        · rw [hsome]
          rfl
      -- the same tag may come again
      by_cases hmem : tag ∈ newTags
      · exact ih hdistinct hmem (.inr hadded)
      · rw [find_foldl_addTag_of_notMem hdistinct now key hmem, hadded]
    · rw [if_neg heq] at hfind
      exact ih hdistinct ((List.mem_cons.mp htag).resolve_left heq) (by rwa [hfind])

/-- Nothing is added when tags are cleaned up. -/
theorem find_cleanupTags {destination : GarlicDestination} {now : ℕ} {tag : Tag} {e : IncomingTag}
    (hdistinct : AssocMap.Distinct destination.tags)
    (h : AssocMap.find (destination.cleanupTags now).tags tag = some e) :
    AssocMap.find destination.tags tag = some e := by
  refine hdistinct.find_eq_some ?_
  have hmem := AssocMap.mem_of_find h
  rw [GarlicDestination.cleanupTags] at hmem
  split at hmem
  · dsimp only at hmem
    split at hmem
    · exact (List.mem_filter.mp hmem).1
    · exact hmem
  · exact hmem

/-- A tag that has just been added is not cleaned up. -/
theorem find_cleanupTags_of_now {destination : GarlicDestination} {now : ℕ} {tag key : Tag}
    (hdistinct : AssocMap.Distinct destination.tags)
    (h : AssocMap.find destination.tags tag = some ⟨now, key⟩) :
    AssocMap.find (destination.cleanupTags now).tags tag = some ⟨now, key⟩ := by
  rw [GarlicDestination.cleanupTags]
  split
  · dsimp only
    split
    · refine (hdistinct.filter _).find_eq_some (List.mem_filter.mpr ⟨AssocMap.mem_of_find h, ?_⟩)
      simp
    · exact h
  · exact h

/-! ## Whole messages -/

/-- The destination holds the tag that the session takes, with the key of the session; or, if the
session has no tag, the private key, and the ElGamal block does not start with a tag it holds. -/
def GarlicDestination.Holds (crypto : Crypto) (receiver : GarlicDestination)
    (session : GarlicRoutingSession) (call : Call) : Prop :=
  match (session.findTag call).1 with
  | some tag => ∃ time, AssocMap.find receiver.tags tag = some ⟨time, session.sessionKey⟩
  | none => ∀ destination, session.destination = some destination →
      crypto.ElGamalPair destination.publicKey receiver.privateKey ∧
        AssocMap.find receiver.tags (blockTag (crypto.elGamalEncrypt destination.publicKey
          call.draws.elGamal (session.elGamalBlock call)) 0) = none

/-- The tags of the destination after the message: the new ones are added with the key of the session,
and no others. -/
structure AddsTags (newTags : List Tag) (now : ℕ) (key : Tag) (tags tags' : Tags) : Prop where
  added : ∀ tag ∈ newTags, AssocMap.find tags tag = none → AssocMap.find tags' tag = some ⟨now, key⟩
  others : ∀ tag ∉ newTags, ∀ e, AssocMap.find tags' tag = some e → AssocMap.find tags tag = some e

/-- Adding the tags, and then forgetting the tag of the message, if it had one. -/
theorem addsTags_cleanupTags {receiver destination : GarlicDestination} {now : ℕ} {key : Tag}
    {newTags : List Tag} (hdistinct : AssocMap.Distinct receiver.tags)
    (h : destination.tags = newTags.foldl (addTag now key) receiver.tags ∨
      ∃ tag e, AssocMap.find receiver.tags tag = some e ∧
        destination.tags = AssocMap.erase (newTags.foldl (addTag now key) receiver.tags) tag) :
    AddsTags newTags now key receiver.tags (destination.cleanupTags now).tags := by
  have hadded := distinct_foldl_addTag hdistinct now key newTags
  have hdistinct' : AssocMap.Distinct destination.tags := by
    obtain heq | ⟨tag, e, -, heq⟩ := h
    · rwa [heq]
    · rw [heq]
      exact hadded.filter _
  constructor
  · intro tag htag hnone
    refine find_cleanupTags_of_now hdistinct' ?_
    have hfind : AssocMap.find (newTags.foldl (addTag now key) receiver.tags) tag = some ⟨now, key⟩ :=
      find_foldl_addTag_of_mem hdistinct htag (.inl hnone)
    obtain heq | ⟨used, e, hused, heq⟩ := h
    · rw [heq, hfind]
    · -- the tag of the message was held before
      have hne : tag ≠ used := by
        rintro rfl
        rw [hnone] at hused
        cases hused
      rw [heq, AssocMap.find_erase, if_neg hne, hfind]
  · intro tag htag e hfind
    have hkept := find_cleanupTags hdistinct' hfind
    rw [← find_foldl_addTag_of_notMem hdistinct now key htag]
    obtain heq | ⟨used, e', -, heq⟩ := h
    · rwa [heq] at hkept
    · rw [heq, AssocMap.find_erase] at hkept
      split at hkept
      · cases hkept
      · exact hkept

open GarlicRoutingSession GarlicDestination

/-- The part of the handler that depends on the tag, for a message that it can decrypt. -/
theorem val_handleByTag {crypto : Crypto} (hcrypto : crypto.Inverts) {receiver : GarlicDestination}
    {session : GarlicRoutingSession} {call : Call} (hholds : receiver.Holds crypto session call)
    (now : ℕ) (hasTunnel : Bool) {tags : List SessionTag} {payload : List UInt8}
    (htags : tags.length < 65536) (hpayload : payload.length < 2 ^ 32) {dispatched : List Dispatch}
    (hhandle : ∀ m pos, StandsAt m pos payload →
      (handleGarlicPayload m pos payload.length hasTunnel).val = (dispatched, false))
    {start iv : List UInt8}
    (hstart : session.messageStart crypto call (session.findTag call).1 = some (start, iv))
    {m : Mem} {buf : ℕ}
    (h : StandsAt m buf
      (start ++ crypto.cbcEncrypt session.sessionKey iv (aesPlaintext crypto tags payload))) :
    start.length ≤ 514 ∧ ∃ handled, (receiver.handleByTag crypto now hasTunnel m buf
        (start.length + (aesPlaintext crypto tags payload).length)).val = handled ∧
      handled.threw = false ∧ handled.dispatched = dispatched ∧
      let added := (tags.map SessionTag.tag).foldl (addTag now session.sessionKey) receiver.tags
      (handled.destination.tags = added ∨ ∃ tag e, AssocMap.find receiver.tags tag = some e ∧
        handled.destination.tags = AssocMap.erase added tag) := by
  rw [GarlicDestination.Holds] at hholds
  cases htag : (session.findTag call).1 with
  | some tag =>
    rw [htag] at hholds hstart
    obtain ⟨time, hfind⟩ := hholds
    obtain ⟨rfl, rfl⟩ := Prod.mk.inj (Option.some.inj hstart)
    refine ⟨by rw [tag.length_eq]; omega, _, rfl, ?_⟩
    rw [tag.length_eq, val_handleByTag_tag hcrypto htags hpayload hhandle hfind h]
    exact ⟨rfl, rfl, .inr ⟨tag, _, hfind, rfl⟩⟩
  | none =>
    rw [htag] at hholds hstart
    cases hdestination : session.destination with
    | none =>
      simp only [messageStart, hdestination] at hstart
      cases hstart
    | some destination =>
      simp only [messageStart, hdestination] at hstart
      obtain ⟨rfl, rfl⟩ := Prod.mk.inj (Option.some.inj hstart)
      obtain ⟨hpair, hfind⟩ := hholds destination hdestination
      have hlen := hpair.length_elGamalEncrypt call.draws.elGamal (session.elGamalBlock call)
        (by simp [elGamalBlock])
      refine ⟨hlen.le, _, rfl, ?_⟩
      rw [hlen, val_handleByTag_elGamal hcrypto htags hpayload hhandle hpair hfind h]
      exact ⟨rfl, rfl, .inl rfl⟩

theorem length_sentTags_le (session : GarlicRoutingSession) (call : Call) :
    ((session.findTag call).2.sentTags call).length ≤ session.numTags := by
  obtain ⟨sessionTags, htaken⟩ := findTag_snd session call
  rw [htaken, sentTags, newTags]
  split
  · simp [generateSessionTags]
  · exact Nat.zero_le _

/-- The payload stands behind the header. -/
theorem standsAt_payload {crypto : Crypto} {typeID : UInt8} {msgID : UInt32} {milliseconds : ℕ}
    {payload : List UInt8} {m : Mem}
    (h : StandsAt m 0 (fillI2NPMessageHeader crypto typeID msgID milliseconds payload)) :
    StandsAt m headerSize payload := by
  obtain ⟨-, hpayload⟩ := standsAt_append.mp h
  have hheader : (typeID :: writeU32 msgID ++ writeBE 8 (milliseconds + 60000) ++
      writeBE 2 payload.length ++ (crypto.sha256 payload).bytes.take 1).length = headerSize := by
    simp
  rwa [hheader, Nat.zero_add] at hpayload

/-- Ciphers that can be evaluated. -/
def exampleCrypto : Crypto where
  sha256 _ := IdentHash.zero
  cbcEncrypt _ _ plaintext := plaintext.map (· ^^^ 0x5a)
  cbcDecrypt _ _ ciphertext := ciphertext.map (· ^^^ 0x5a)
  elGamalEncrypt _ _ block := block ++ List.replicate 292 0
  elGamalDecrypt _ encrypted := some (encrypted.take 222)

def exampleTag (b : UInt8) : Tag := ⟨List.replicate 32 b, by simp⟩

def exampleDraws : Draws where
  padding := Block.const 0
  preIV := exampleTag 1
  elGamal := []
  sessionTags i := exampleTag (100 + UInt8.ofNat i)
  msgID := 5
  statusCloveID := 6
  leaseSetCloveID := 7
  cloveID := 8
  statusKey := exampleTag 2
  statusTag := exampleTag 3
  statusMsgID := 9
  statusHeaderID := 10
  leaseSetHeaderID := 11
  headerID := 12

def exampleCall : Call where
  seconds := 1000
  milliseconds := 1000000
  owner := { leaseSet := some (exampleTag 4, [1, 2, 3]), inboundTunnel := some (exampleTag 5, 77) }
  draws := exampleDraws

/-- A session with a tag, for a destination, whose lease set has been updated. -/
def exampleSession : GarlicRoutingSession where
  hasOwner := true
  destination := some { identHash := exampleTag 6, isDestination := true, publicKey := [] }
  sessionKey := exampleTag 7
  sessionTags := [⟨exampleTag 8, 900⟩]
  numTags := 4
  leaseSetUpdateStatus := .updated

def exampleReceiver : GarlicDestination where
  tags := [(exampleTag 8, ⟨950, exampleTag 7⟩)]
  privateKey := []

def exampleMessage : List UInt8 := fillI2NPMessageHeader exampleCrypto 20 13 1000000 [1, 2, 3, 4]

theorem exampleCrypto_inverts : exampleCrypto.Inverts where
  length_cbcEncrypt _ _ plaintext _ := List.length_map _
  cbcDecrypt_cbcEncrypt _ _ plaintext _ := by
    show (plaintext.map (· ^^^ 0x5a)).map (· ^^^ 0x5a) = plaintext
    rw [List.map_map]
    refine (List.map_congr_left fun b _ => ?_).trans (List.map_id _)
    show b ^^^ 0x5a ^^^ 0x5a = b
    rw [UInt8.xor_assoc, UInt8.xor_self, UInt8.xor_zero]

theorem exampleSession_wraps :
    ∃ session' wrapped calls,
      exampleSession.wrapSingleMessage exampleCrypto exampleCall exampleDraws (some exampleMessage) =
        some (session', wrapped, calls) := by
  have hsome : (exampleSession.wrapSingleMessage exampleCrypto exampleCall exampleDraws
      (some exampleMessage)).isSome = true := by decide +kernel
  obtain ⟨⟨session', wrapped, calls⟩, h⟩ := Option.isSome_iff_exists.mp hsome
  exact ⟨session', wrapped, calls, h⟩

end Garlic
