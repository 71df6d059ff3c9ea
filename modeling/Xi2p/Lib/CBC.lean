import Xi2p.Lib.Bytes

/-!
# Cipher block chaining

Blocks of `n` bytes, a block cipher on them, and the two stateful ends of a CBC stream.

* `Block n`: a byte string of length `n`; `blocksAt` reads consecutive ones from a memory.
* `Encryption`, `Decryption`: a cipher with the last block of cipher text.
* `InSync`: a decryption that continues where an encryption stands; `InSync.decryptBlock` is the
  step, `InSync.decrypt` the run. Blocks are finite, so the other order cancels too
  (`InSync.encrypt`).
* `overMem`: a stream that runs over a memory, in place or from one region to another
  (`overMem_spec`).
* `InSync.decryptBytes`: byte strings instead of blocks.
* `foldl_foldr_cancel`, `foldr_foldl_cancel`: layers that are put on and taken off again.
-/

namespace CBC

open Bytes

variable {n : ℕ}

/-! ## Blocks -/

/-- A block of `n` bytes. -/
def Block (n : ℕ) : Type := { bs : List UInt8 // bs.length = n }

namespace Block

/-- The bytes of a block. -/
def bytes (b : Block n) : List UInt8 := b.1

@[simp]
theorem length_bytes (b : Block n) : b.bytes.length = n := b.2

@[ext]
theorem ext {a b : Block n} (h : a.bytes = b.bytes) : a = b := Subtype.ext h

instance : DecidableEq (Block n) :=
  inferInstanceAs (DecidableEq { bs : List UInt8 // bs.length = n })

/-- The block with all bytes equal. -/
def const (b : UInt8) : Block n := ⟨List.replicate n b, List.length_replicate⟩

/-- `operator^=`. -/
def xor (a b : Block n) : Block n :=
  ⟨List.zipWith (· ^^^ ·) a.bytes b.bytes, by simp⟩

theorem zipWith_xor_cancel {as bs : List UInt8} (h : as.length = bs.length) :
    List.zipWith (· ^^^ ·) (List.zipWith (· ^^^ ·) as bs) as = bs := by
  induction as generalizing bs with
  | nil =>
    rw [List.length_nil] at h
    rw [List.eq_nil_of_length_eq_zero h.symm]
    rfl
  | cons a as ih =>
    cases bs with
    | nil => simp at h
    | cons b bs =>
      have hhead : a ^^^ b ^^^ a = b := by
        rw [UInt8.xor_comm a b, UInt8.xor_assoc, UInt8.xor_self, UInt8.xor_zero]
      simp only [List.zipWith_cons_cons, hhead]
      rw [ih (by simpa using h)]

theorem xor_xor_cancel (a b : Block n) : (a.xor b).xor a = b := by
  ext1
  exact zipWith_xor_cancel (by simp)

/-- The block of a memory at a position. -/
def ofMem (m : Mem) (pos : ℕ) : Block n := ⟨slice m pos n, by simp⟩

theorem bytes_ofMem (m : Mem) (pos : ℕ) : (ofMem m pos : Block n).bytes = slice m pos n := rfl

end Block

/-- `count` blocks of a memory, from a position on. -/
def blocksAt (m : Mem) (pos : ℕ) : ℕ → List (Block n)
  | 0 => []
  | count + 1 => Block.ofMem m pos :: blocksAt m (pos + n) count

/-- The bytes of consecutive blocks. -/
def bytesOf (bs : List (Block n)) : List UInt8 := (bs.map Block.bytes).flatten

@[simp]
theorem bytesOf_nil : bytesOf ([] : List (Block n)) = [] := rfl

@[simp]
theorem bytesOf_cons (b : Block n) (bs : List (Block n)) :
    bytesOf (b :: bs) = b.bytes ++ bytesOf bs := rfl

@[simp]
theorem bytesOf_append (as bs : List (Block n)) : bytesOf (as ++ bs) = bytesOf as ++ bytesOf bs := by
  simp [bytesOf]

@[simp]
theorem length_bytesOf (bs : List (Block n)) : (bytesOf bs).length = n * bs.length := by
  induction bs with
  | nil => rfl
  | cons b bs ih => simp [ih, Nat.mul_add, Nat.add_comm]

@[simp]
theorem length_blocksAt (m : Mem) (pos count : ℕ) :
    (blocksAt m pos count : List (Block n)).length = count := by
  induction count generalizing pos with
  | zero => rfl
  | succ count ih => simp [blocksAt, ih]

@[simp]
theorem bytesOf_blocksAt (m : Mem) (pos count : ℕ) :
    bytesOf (blocksAt m pos count : List (Block n)) = slice m pos (n * count) := by
  induction count generalizing pos with
  | zero => rfl
  | succ count ih =>
    rw [blocksAt, bytesOf_cons, ih, Nat.mul_succ, Nat.add_comm (n * count) n, slice_add]
    rfl

/-- Blocks are determined by their bytes. -/
theorem eq_of_bytesOf_eq {as bs : List (Block n)} (hlen : as.length = bs.length)
    (h : bytesOf as = bytesOf bs) : as = bs := by
  induction as generalizing bs with
  | nil => exact (List.eq_nil_of_length_eq_zero hlen.symm).symm
  | cons a as ih =>
    cases bs with
    | nil => simp at hlen
    | cons b bs =>
      rw [bytesOf_cons, bytesOf_cons] at h
      obtain ⟨hab, hrest⟩ := List.append_inj h (by simp)
      rw [Block.ext hab, ih (by simpa using hlen) hrest]

theorem exists_bytesOf_eq {bs : List UInt8} {count : ℕ} (h : bs.length = n * count) :
    ∃ blocks : List (Block n), blocks.length = count ∧ bytesOf blocks = bs := by
  refine ⟨blocksAt (store (fun _ => 0) 0 bs) 0 count, by simp, ?_⟩
  rw [bytesOf_blocksAt, ← h]
  exact slice_store_self _ 0 bs

/-- Blocks that were stored can be read back. -/
theorem blocksAt_store (m : Mem) (pos : ℕ) {blocks : List (Block n)} {count : ℕ}
    (hlen : blocks.length = count) : blocksAt (store m pos (bytesOf blocks)) pos count = blocks := by
  apply eq_of_bytesOf_eq (by rw [length_blocksAt, hlen])
  have hself := slice_store_self m pos (bytesOf blocks)
  rwa [length_bytesOf, hlen, ← bytesOf_blocksAt] at hself

/-! ## Block ciphers -/

/-- A block cipher under one key: decryption inverts encryption. -/
structure BlockCipher (n : ℕ) where
  /-- Encrypt a block. -/
  encrypt : Block n → Block n
  /-- Decrypt a block. -/
  decrypt : Block n → Block n
  /-- Decryption inverts encryption. -/
  decrypt_encrypt : ∀ b, decrypt (encrypt b) = b

/-- `CBCEncryption`. -/
structure Encryption (n : ℕ) where
  /-- The cipher with its key. -/
  cipher : BlockCipher n
  /-- `m_LastBlock`. -/
  last : Block n

/-- `CBCDecryption`. -/
structure Decryption (n : ℕ) where
  /-- The cipher with its key. -/
  cipher : BlockCipher n
  /-- `m_IV`. -/
  iv : Block n

namespace Encryption

/-- `Encrypt`, for one block. -/
def encryptBlock (e : Encryption n) (p : Block n) : Block n × Encryption n :=
  let out := e.cipher.encrypt (e.last.xor p)
  (out, { e with last := out })

/-- `Encrypt`. -/
def encrypt (e : Encryption n) : List (Block n) → List (Block n) × Encryption n
  | [] => ([], e)
  | p :: ps =>
    let (out, e) := e.encryptBlock p
    let (rest, e) := e.encrypt ps
    (out :: rest, e)

/-- A stream may be encrypted in parts. -/
theorem encrypt_append (e : Encryption n) (ps qs : List (Block n)) :
    e.encrypt (ps ++ qs) =
      ((e.encrypt ps).1 ++ ((e.encrypt ps).2.encrypt qs).1, ((e.encrypt ps).2.encrypt qs).2) := by
  induction ps generalizing e with
  | nil => rfl
  | cons p ps ih => simp [encrypt, ih]

@[simp]
theorem length_encrypt (e : Encryption n) (ps : List (Block n)) :
    (e.encrypt ps).1.length = ps.length := by
  induction ps generalizing e with
  | nil => rfl
  | cons p ps ih => simp [encrypt, ih]

end Encryption

namespace Decryption

/-- `Decrypt`, for one block. -/
def decryptBlock (d : Decryption n) (c : Block n) : Block n × Decryption n :=
  ((d.cipher.decrypt c).xor d.iv, { d with iv := c })

/-- `Decrypt`. -/
def decrypt (d : Decryption n) : List (Block n) → List (Block n) × Decryption n
  | [] => ([], d)
  | c :: cs =>
    let (out, d) := d.decryptBlock c
    let (rest, d) := d.decrypt cs
    (out :: rest, d)

end Decryption

/-! ## Inverse streams -/

/-- The decryption has the key of the encryption and has seen the same cipher text. -/
structure InSync (e : Encryption n) (d : Decryption n) : Prop where
  cipher_eq : d.cipher = e.cipher
  iv_eq : d.iv = e.last

/-- One block goes through, and the two ends stay in step. -/
theorem InSync.decryptBlock {e : Encryption n} {d : Decryption n} (h : InSync e d) (p : Block n) :
    (d.decryptBlock (e.encryptBlock p).1).1 = p ∧
      InSync (e.encryptBlock p).2 (d.decryptBlock (e.encryptBlock p).1).2 := by
  refine ⟨?_, h.cipher_eq, rfl⟩
  show (d.cipher.decrypt (e.cipher.encrypt (e.last.xor p))).xor d.iv = p
  rw [h.cipher_eq, h.iv_eq, e.cipher.decrypt_encrypt, Block.xor_xor_cancel]

/-- So does a stream of blocks. -/
theorem InSync.decrypt {e : Encryption n} {d : Decryption n} (h : InSync e d) (ps : List (Block n)) :
    (d.decrypt (e.encrypt ps).1).1 = ps ∧
      InSync (e.encrypt ps).2 (d.decrypt (e.encrypt ps).1).2 := by
  induction ps generalizing e d with
  | nil => exact ⟨rfl, h⟩
  | cons p ps ih =>
    obtain ⟨hblock, hsync⟩ := h.decryptBlock p
    obtain ⟨hrest, hsync'⟩ := ih hsync
    exact ⟨congrArg₂ List.cons hblock hrest, hsync'⟩

/-! ## The other order -/

instance : Finite (Block n) := by
  refine Finite.of_injective (fun (b : Block n) (i : Fin n) => (b.bytes[i]?.getD 0).toFin) ?_
  intro a b h
  ext1
  apply List.ext_getElem (by simp)
  intro i ha hb
  have hi : (a.bytes[i]?.getD 0).toFin = (b.bytes[i]?.getD 0).toFin :=
    congrFun h ⟨i, by simpa using ha⟩
  rw [List.getElem?_eq_getElem ha, List.getElem?_eq_getElem hb] at hi
  exact UInt8.toFin_inj.mp hi

/-- A cipher is a permutation of the blocks. -/
theorem BlockCipher.encrypt_decrypt (c : BlockCipher n) (b : Block n) :
    c.encrypt (c.decrypt b) = b := by
  have hinj : Function.Injective c.encrypt := Function.LeftInverse.injective c.decrypt_encrypt
  obtain ⟨p, rfl⟩ := Finite.injective_iff_surjective.mp hinj b
  rw [c.decrypt_encrypt]

theorem Block.xor_comm (a b : Block n) : a.xor b = b.xor a := by
  ext1
  exact List.zipWith_comm_of_comm UInt8.xor_comm

/-- One block of cipher text comes back from its plain text. -/
theorem InSync.encryptBlock {e : Encryption n} {d : Decryption n} (h : InSync e d) (c : Block n) :
    (e.encryptBlock (d.decryptBlock c).1).1 = c ∧
      InSync (e.encryptBlock (d.decryptBlock c).1).2 (d.decryptBlock c).2 := by
  have hblock : (e.encryptBlock (d.decryptBlock c).1).1 = c := by
    show e.cipher.encrypt (e.last.xor ((d.cipher.decrypt c).xor d.iv)) = c
    rw [h.cipher_eq, h.iv_eq, Block.xor_comm, Block.xor_comm (e.cipher.decrypt c),
      Block.xor_xor_cancel, e.cipher.encrypt_decrypt]
  exact ⟨hblock, h.cipher_eq, hblock.symm⟩

/-- So does a stream of blocks. -/
theorem InSync.encrypt {e : Encryption n} {d : Decryption n} (h : InSync e d) (cs : List (Block n)) :
    (e.encrypt (d.decrypt cs).1).1 = cs := by
  induction cs generalizing e d with
  | nil => rfl
  | cons c cs ih =>
    obtain ⟨hblock, hsync⟩ := h.encryptBlock c
    exact congrArg₂ List.cons hblock (ih hsync)

/-! ## Streams over a memory -/

section Mem

variable {σ : Type} (f : σ → Block n → Block n × σ)

/-- A block transformer with a state, over a list of blocks. -/
def overBlocks (s : σ) : List (Block n) → List (Block n) × σ
  | [] => ([], s)
  | b :: bs => ((f s b).1 :: (overBlocks (f s b).2 bs).1, (overBlocks (f s b).2 bs).2)

/-- A block transformer with a state, over `count` blocks of a memory from `src` on. The results
are written from `dst` on, each before the next block is read. -/
def overMem (s : σ) (m : Mem) (src dst : ℕ) : ℕ → Mem × σ
  | 0 => (m, s)
  | count + 1 =>
    overMem (f s (Block.ofMem m src)).2 (store m dst (f s (Block.ofMem m src)).1.bytes) (src + n)
      (dst + n) count

variable {f}

theorem blocksAt_congr {m m' : Mem} {pos count : ℕ}
    (h : ∀ i, pos ≤ i → i < pos + n * count → m' i = m i) :
    (blocksAt m' pos count : List (Block n)) = blocksAt m pos count := by
  apply eq_of_bytesOf_eq (by simp)
  rw [bytesOf_blocksAt, bytesOf_blocksAt]
  exact slice_congr fun i hi => h (pos + i) (by omega) (by omega)

@[simp]
theorem length_overBlocks (s : σ) (bs : List (Block n)) :
    (overBlocks f s bs).1.length = bs.length := by
  induction bs generalizing s with
  | nil => rfl
  | cons b bs ih => simp [overBlocks, ih]

/-- Only the destination is written. -/
theorem overMem_of_outside (s : σ) (m : Mem) (src : ℕ) {dst count i : ℕ}
    (h : i < dst ∨ dst + n * count ≤ i) : (overMem f s m src dst count).1 i = m i := by
  induction count generalizing s m src dst with
  | zero => rfl
  | succ count ih =>
    rw [Nat.mul_succ] at h
    rw [overMem, ih _ _ _ (by omega)]
    obtain hlt | hge := h
    · exact store_of_lt m _ hlt
    · exact store_of_le m _ (by rw [Block.length_bytes]; omega)

/-- In place, or between regions that do not overlap, the blocks of the source are transformed one
by one. -/
theorem overMem_spec (s : σ) (m : Mem) (src dst : ℕ) {count : ℕ}
    (h : src = dst ∨ src + n * count ≤ dst ∨ dst + n * count ≤ src) :
    blocksAt (overMem f s m src dst count).1 dst count =
        (overBlocks f s (blocksAt m src count)).1 ∧
      (overMem f s m src dst count).2 = (overBlocks f s (blocksAt m src count)).2 := by
  induction count generalizing s m src dst with
  | zero => exact ⟨rfl, rfl⟩
  | succ count ih =>
    rw [Nat.mul_succ] at h
    -- the first block is written before the rest of the source is read
    have hrest : (blocksAt (store m dst (f s (Block.ofMem m src)).1.bytes) (src + n) count :
        List (Block n)) = blocksAt m (src + n) count := by
      refine blocksAt_congr fun i hlo hhi => ?_
      obtain heq | hbefore | hafter := h
      · exact store_of_le m _ (by rw [Block.length_bytes]; omega)
      · exact store_of_lt m _ (by omega)
      · exact store_of_le m _ (by rw [Block.length_bytes]; omega)
    obtain ⟨hblocks, hstate⟩ := ih (f s (Block.ofMem m src)).2
      (store m dst (f s (Block.ofMem m src)).1.bytes) (src + n) (dst + n) (by omega)
    rw [hrest] at hblocks hstate
    refine ⟨?_, hstate⟩
    rw [overMem, blocksAt, blocksAt, overBlocks, hblocks]
    refine congrArg (· :: _) ?_
    ext1
    -- the first block of the result is not touched again
    calc slice (overMem f (f s (Block.ofMem m src)).2
          (store m dst (f s (Block.ofMem m src)).1.bytes) (src + n) (dst + n) count).1 dst n
        = slice (store m dst (f s (Block.ofMem m src)).1.bytes) dst n :=
          slice_congr fun i hi => overMem_of_outside _ _ _ (by omega)
      _ = (f s (Block.ofMem m src)).1.bytes := by
          have hself := slice_store_self m dst (f s (Block.ofMem m src)).1.bytes
          rwa [Block.length_bytes] at hself

end Mem

theorem overBlocks_encryptBlock (e : Encryption n) (ps : List (Block n)) :
    overBlocks Encryption.encryptBlock e ps = e.encrypt ps := by
  induction ps generalizing e with
  | nil => rfl
  | cons p ps ih => simp [overBlocks, Encryption.encrypt, ih]

theorem overBlocks_decryptBlock (d : Decryption n) (cs : List (Block n)) :
    overBlocks Decryption.decryptBlock d cs = d.decrypt cs := by
  induction cs generalizing d with
  | nil => rfl
  | cons c cs ih => simp [overBlocks, Decryption.decrypt, ih]

/-! ## Layers -/

section Layers

variable {κ ρ : Type} {enc dec : κ → ρ → ρ}

/-- Layers that are taken off from the last to the first, and put on from the first to the last. -/
theorem foldl_foldr_cancel (h : ∀ k x, enc k (dec k x) = x) (ks : List κ) (x : ρ) :
    ks.foldl (fun x k => enc k x) (ks.foldr dec x) = x := by
  induction ks with
  | nil => rfl
  | cons k ks ih => rw [List.foldr_cons, List.foldl_cons, h, ih]

/-- Layers that are put on from the first to the last, and taken off from the last to the first. -/
theorem foldr_foldl_cancel (h : ∀ k x, dec k (enc k x) = x) (ks : List κ) (x : ρ) :
    ks.foldr dec (ks.foldl (fun x k => enc k x) x) = x := by
  induction ks generalizing x with
  | nil => rfl
  | cons k ks ih => rw [List.foldl_cons, List.foldr_cons, ih, h]

end Layers

/-! ## Byte strings -/

/-- The block at a position of a byte string. -/
def Block.ofBytes (bs : List UInt8) (pos : ℕ) : Block n := Block.ofMem (store (fun _ => 0) 0 bs) pos

theorem Block.ofBytes_append (front : List UInt8) (b : Block n) (back : List UInt8) :
    (Block.ofBytes (front ++ (b.bytes ++ back)) front.length : Block n) = b := by
  ext1
  have hslice : slice (store (fun _ => 0) 0 (front ++ (b.bytes ++ back))) (0 + front.length) n =
      ((front ++ (b.bytes ++ back)).drop front.length).take n := slice_store_sub _ (by simp)
  rw [Nat.zero_add, List.drop_left, List.take_left' b.length_bytes] at hslice
  exact hslice

/-- The blocks of a byte string. -/
def blocksOf (bs : List UInt8) : List (Block n) := blocksAt (store (fun _ => 0) 0 bs) 0 (bs.length / n)

theorem bytesOf_blocksOf {bs : List UInt8} (h : n ∣ bs.length) :
    bytesOf (blocksOf bs : List (Block n)) = bs := by
  rw [blocksOf, bytesOf_blocksAt, Nat.mul_div_cancel' h]
  exact slice_store_self _ 0 bs

theorem blocksOf_bytesOf (hn : 0 < n) (blocks : List (Block n)) : blocksOf (bytesOf blocks) = blocks := by
  have hlen : (bytesOf blocks).length / n = blocks.length := by
    rw [length_bytesOf, Nat.mul_div_cancel_left _ hn]
  rw [blocksOf, hlen]
  exact blocksAt_store _ 0 rfl

/-- `Encrypt`, for a byte string. -/
def Encryption.encryptBytes (e : Encryption n) (bs : List UInt8) : List UInt8 × Encryption n :=
  (bytesOf (e.encrypt (blocksOf bs)).1, (e.encrypt (blocksOf bs)).2)

/-- `Decrypt`, for a byte string. -/
def Decryption.decryptBytes (d : Decryption n) (bs : List UInt8) : List UInt8 × Decryption n :=
  (bytesOf (d.decrypt (blocksOf bs)).1, (d.decrypt (blocksOf bs)).2)

theorem Encryption.length_encryptBytes (e : Encryption n) {bs : List UInt8} (h : n ∣ bs.length) :
    (e.encryptBytes bs).1.length = bs.length := by
  rw [encryptBytes, length_bytesOf, length_encrypt, blocksOf, length_blocksAt, Nat.mul_div_cancel' h]

theorem blocksOf_append (hn : 0 < n) {as bs : List UInt8} (has : n ∣ as.length) (hbs : n ∣ bs.length) :
    (blocksOf (as ++ bs) : List (Block n)) = blocksOf as ++ blocksOf bs := by
  have hbytes : as ++ bs = bytesOf (blocksOf as ++ blocksOf bs : List (Block n)) := by
    rw [bytesOf_append, bytesOf_blocksOf has, bytesOf_blocksOf hbs]
  rw [hbytes, blocksOf_bytesOf hn]

/-- A byte string may be encrypted in parts. -/
theorem Encryption.encryptBytes_append (hn : 0 < n) (e : Encryption n) {as bs : List UInt8}
    (has : n ∣ as.length) (hbs : n ∣ bs.length) :
    (e.encryptBytes (as ++ bs)).1 = (e.encryptBytes as).1 ++ ((e.encryptBytes as).2.encryptBytes bs).1 := by
  rw [encryptBytes, blocksOf_append hn has hbs, encrypt_append, bytesOf_append]
  rfl

/-- A byte string goes through, and the two ends stay in step. -/
theorem InSync.decryptBytes {e : Encryption n} {d : Decryption n} (h : InSync e d) (hn : 0 < n)
    {bs : List UInt8} (hbs : n ∣ bs.length) :
    (d.decryptBytes (e.encryptBytes bs).1).1 = bs ∧
      InSync (e.encryptBytes bs).2 (d.decryptBytes (e.encryptBytes bs).1).2 := by
  obtain ⟨hplain, hsync⟩ := h.decrypt (blocksOf bs)
  simp only [Decryption.decryptBytes, Encryption.encryptBytes, blocksOf_bytesOf hn, hplain,
    bytesOf_blocksOf hbs]
  exact ⟨trivial, hsync⟩

end CBC
