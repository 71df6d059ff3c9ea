import Xi2p.Lib.InputStream

/-!
# Gzip

What is known of a compressor and a decompressor for gzip, and an encoder that only stores.

* `Gzip.Codec.Standard`: a header of ten bytes, six of which the decompressor ignores, and a bound on
  the growth of data that cannot be compressed.
* `Gzip.standard_stored`: stored blocks of at most 16383 bytes have all of it.
-/

namespace Gzip

open Bytes InputStream

/-! ## Codecs -/

/-- A compressor, for each deflate level, and a decompressor. -/
structure Codec where
  compress : ℕ → List UInt8 → List UInt8
  /-- `none` is an exception. -/
  decompress : List UInt8 → Option (List UInt8)

/-- `MIN_DEFLATE_LEVEL`. -/
abbrev minDeflateLevel : ℕ := 0

/-- `DEFAULT_DEFLATE_LEVEL`. -/
abbrev defaultDeflateLevel : ℕ := 6

/-- The number of blocks for `n` bytes. -/
def blockCount (n : ℕ) : ℕ := (n - 1) / 16383 + 1

/-- The first bytes of the header: the two IDs, the method, and no flags. -/
def magic : List UInt8 := [0x1f, 0x8b, 8, 0]

namespace Codec

structure Standard (c : Codec) : Prop where
  magic : ∀ level data, (c.compress level data).take 4 = Gzip.magic
  header : ∀ level data, 10 ≤ (c.compress level data).length
  decompress_compress : ∀ level data, c.decompress (c.compress level data) = some data
  /-- The time, the extra flags and the system are ignored. -/
  decompress_congr : ∀ front middle middle' back : List UInt8, front.length = 4 → middle.length = 6 →
    middle'.length = 6 → c.decompress (front ++ middle ++ back) = c.decompress (front ++ middle' ++ back)
  length_le : ∀ level data,
    (c.compress level data).length ≤ data.length + 5 * blockCount data.length + 18

/-- The ignored bytes of the header can be used for something else. -/
theorem Standard.decompress_patch {c : Codec} (h : c.Standard) (level : ℕ) (data : List UInt8)
    {patch : List UInt8} (hpatch : patch.length = 6) :
    c.decompress ((c.compress level data).take 4 ++ patch ++ (c.compress level data).drop 10) =
      some data := by
  have hheader := h.header level data
  rw [← h.decompress_compress level data]
  generalize c.compress level data = bytes at hheader
  -- the bytes with their own six bytes in the middle
  have hsplit : bytes.take 4 ++ (bytes.drop 4).take 6 ++ bytes.drop 10 = bytes := by
    rw [List.append_assoc, ← List.drop_drop (i := 6) (j := 4), List.take_append_drop,
      List.take_append_drop]
  have hfront : (bytes.take 4).length = 4 := by
    rw [List.length_take]
    omega
  have hmiddle : ((bytes.drop 4).take 6).length = 6 := by
    rw [List.length_take, List.length_drop]
    omega
  calc c.decompress (bytes.take 4 ++ patch ++ bytes.drop 10)
      = c.decompress (bytes.take 4 ++ (bytes.drop 4).take 6 ++ bytes.drop 10) :=
        h.decompress_congr _ _ _ _ hfront hpatch hmiddle
    _ = c.decompress bytes := by rw [hsplit]

end Codec

/-! ## Stored blocks -/

/-- The CRC of gzip, bit by bit. -/
def crc32 (data : List UInt8) : UInt32 :=
  let shift (crc : UInt32) : UInt32 :=
    if crc &&& 1 = 1 then (crc >>> 1) ^^^ 0xedb88320 else crc >>> 1
  let crc := data.foldl
    (fun crc b => (List.range 8).foldl (fun crc _ => shift crc) (crc ^^^ b.toUInt32)) 0xffffffff
  crc ^^^ 0xffffffff

/-- A stored block: its length, the complement of its length, and the data. -/
def storedBlock (final : Bool) (data : List UInt8) : List UInt8 :=
  (if final then 1 else 0) :: writeLE 2 data.length ++ writeLE 2 (65535 - data.length) ++ data

/-- Full blocks, and a last one. -/
def storedBlocks : ℕ → List UInt8 → List UInt8
  | 0, data => storedBlock true data
  | n + 1, data => storedBlock false (data.take 16383) ++ storedBlocks n (data.drop 16383)

/-- The data of stored blocks, and what stands behind the last one. -/
def inflateStored : ℕ → List UInt8 → Option (List UInt8 × List UInt8)
  | 0, _ => none
  | fuel + 1, bytes =>
    let length := readLE ((bytes.drop 1).take 2)
    let rest := bytes.drop 5
    if readLE ((bytes.drop 3).take 2) + length ≠ 65535 ∨ rest.length < length then none
    else if bytes.head? = some 1 then some (rest.take length, rest.drop length)
    else if bytes.head? = some 0 then
      (inflateStored fuel (rest.drop length)).map fun (data, back) =>
        (rest.take length ++ data, back)
    else none

/-- The CRC and the length. -/
def trailer (data : List UInt8) : List UInt8 :=
  writeLE 4 (crc32 data).toNat ++ writeLE 4 data.length

/-- The data of a file of stored blocks. -/
def unstore (bytes : List UInt8) : Option (List UInt8) := do
  guard (bytes.take 4 = magic)
  let (data, back) ← inflateStored bytes.length (bytes.drop 10)
  guard (back = trailer data)
  return data

/-- Gzip without compression. -/
def stored : Codec where
  compress _ data :=
    magic ++ List.replicate 6 0 ++ (storedBlocks ((data.length - 1) / 16383) data ++ trailer data)
  decompress := unstore

theorem length_storedBlock (final : Bool) (data : List UInt8) :
    (storedBlock final data).length = data.length + 5 := by
  simp only [storedBlock, List.length_cons, List.length_append, length_writeLE]
  omega

theorem length_storedBlocks (n : ℕ) (data : List UInt8) :
    (storedBlocks n data).length = data.length + 5 * (n + 1) := by
  induction n generalizing data with
  | zero => rw [storedBlocks, length_storedBlock]
  | succ n ih =>
    rw [storedBlocks, List.length_append, length_storedBlock, ih, List.length_take, List.length_drop]
    omega

theorem inflateStored_storedBlock (fuel : ℕ) (final : Bool) {data : List UInt8}
    (hdata : data.length ≤ 16383) (back : List UInt8) :
    inflateStored (fuel + 1) (storedBlock final data ++ back) =
      if final then some (data, back)
      else (inflateStored fuel back).map fun (more, back) => (data ++ more, back) := by
  have hlength : readLE (writeLE 2 data.length) = data.length := readLE_writeLE (by omega)
  have hcomplement : readLE (writeLE 2 (65535 - data.length)) = 65535 - data.length :=
    readLE_writeLE (by omega)
  obtain ⟨a, b, hab⟩ := List.length_eq_two.mp (length_writeLE 2 data.length)
  obtain ⟨c, d, hcd⟩ := List.length_eq_two.mp (length_writeLE 2 (65535 - data.length))
  -- the header of a block byte by byte
  have hbytes : storedBlock final data ++ back =
      (if final then 1 else 0) :: a :: b :: c :: d :: (data ++ back) := by
    rw [storedBlock, hab, hcd]
    rfl
  rw [hab] at hlength
  rw [hcd] at hcomplement
  rw [hbytes, inflateStored]
  have hfirst : (((if final then 1 else 0) :: a :: b :: c :: d :: (data ++ back)).drop 1).take 2 = [a, b] :=
    rfl
  have hsecond : (((if final then 1 else 0) :: a :: b :: c :: d :: (data ++ back)).drop 3).take 2 = [c, d] :=
    rfl
  have hrest : ((if final then 1 else 0) :: a :: b :: c :: d :: (data ++ back)).drop 5 = data ++ back := rfl
  dsimp only
  rw [hfirst, hsecond, hrest, hlength, hcomplement, List.take_left, List.drop_left, List.head?_cons,
    if_neg]
  · cases final <;> rfl
  · rw [List.length_append]
    omega

theorem inflateStored_storedBlocks {n fuel : ℕ} (hfuel : n < fuel) {data : List UInt8}
    (hdata : data.length ≤ 16383 * (n + 1)) (back : List UInt8) :
    inflateStored fuel (storedBlocks n data ++ back) = some (data, back) := by
  induction n generalizing fuel data with
  | zero =>
    obtain ⟨fuel, rfl⟩ := Nat.exists_eq_add_one_of_ne_zero (Nat.ne_zero_of_lt hfuel)
    rw [storedBlocks, inflateStored_storedBlock fuel true (by omega), if_pos rfl]
  | succ n ih =>
    obtain ⟨fuel, rfl⟩ := Nat.exists_eq_add_one_of_ne_zero (Nat.ne_zero_of_lt hfuel)
    have hfirst : (data.take 16383).length ≤ 16383 := List.length_take_le _ _
    have hrest : (data.drop 16383).length ≤ 16383 * (n + 1) := by
      rw [List.length_drop]
      omega
    rw [storedBlocks, List.append_assoc, inflateStored_storedBlock fuel false hfirst,
      if_neg Bool.false_ne_true, ih (by omega) hrest, Option.map_some]
    dsimp only
    rw [List.take_append_drop]

/-- What a file starts with, and what stands behind its header, is all that is looked at. -/
theorem unstore_congr {bytes bytes' : List UInt8} (hlength : bytes.length = bytes'.length)
    (htake : bytes.take 4 = bytes'.take 4) (hdrop : bytes.drop 10 = bytes'.drop 10) :
    unstore bytes = unstore bytes' := by
  simp only [unstore, hlength, htake, hdrop]

theorem unstore_compress (level : ℕ) (data : List UInt8) :
    unstore (stored.compress level data) = some data := by
  have hmagic : (stored.compress level data).take 4 = magic := rfl
  have hbody : (stored.compress level data).drop 10 =
      storedBlocks ((data.length - 1) / 16383) data ++ trailer data := rfl
  have hlength : (data.length - 1) / 16383 < (stored.compress level data).length := by
    have hle := Nat.div_le_self (data.length - 1) 16383
    simp only [stored, List.length_append, length_storedBlocks]
    omega
  have hfit : data.length ≤ 16383 * ((data.length - 1) / 16383 + 1) := by omega
  have hblocks := inflateStored_storedBlocks hlength hfit (trailer data)
  simp [unstore, hmagic, hbody, hblocks]

theorem standard_stored : stored.Standard where
  magic _ _ := rfl
  header level data := by
    rw [stored]
    simp only [List.length_append, List.length_replicate]
    exact Nat.le_add_right 10 _
  decompress_compress := unstore_compress
  decompress_congr front middle middle' back hfront hmiddle hmiddle' := by
    have htake (middle : List UInt8) : (front ++ middle ++ back).take 4 = front := by
      rw [List.append_assoc, ← hfront, List.take_left]
    have hdrop {middle : List UInt8} (h : middle.length = 6) :
        (front ++ middle ++ back).drop 10 = back := by
      have hten : (front ++ middle).length = 10 := by rw [List.length_append, hfront, h]
      rw [← hten, List.drop_left]
    apply unstore_congr
    · simp only [List.length_append, hmiddle, hmiddle']
    · rw [htake, htake]
    · rw [hdrop hmiddle, hdrop hmiddle']
  length_le level data := by
    simp only [stored, trailer, blockCount, List.length_append, length_storedBlocks, length_writeLE,
      List.length_replicate]
    have hmagic : magic.length = 4 := rfl
    omega

/-- Stored blocks are as long as files get. -/
theorem length_compress_stored (level : ℕ) (data : List UInt8) :
    (stored.compress level data).length = data.length + 5 * blockCount data.length + 18 := by
  have hmagic : magic.length = 4 := rfl
  simp only [stored, trailer, blockCount, List.length_append, length_storedBlocks, length_writeLE,
    List.length_replicate, hmagic]
  omega

end Gzip
