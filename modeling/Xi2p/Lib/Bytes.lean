import Mathlib.Data.List.Basic
import Mathlib.Tactic

/-!
# Byte strings, byte order and flat memory

Byte-level vocabulary shared by every protocol of the development.

* `writeBE n v` / `readBE bs`: unsigned integers in network byte order, truncated to `n` bytes.
* `Mem`: a flat memory, read by `slice` and written by `memcpy` and `store`. A memory is total,
  so a read behind the end of an allocation yields whatever lies there.
* `Traced`: a computation together with the addresses it has read.
-/

namespace Bytes

/-! ## Network byte order -/

/-- The `n` bytes of `v` in big-endian order; bits of `v` above `8 * n` are dropped. -/
def writeBE : ℕ → ℕ → List UInt8
  | 0, _ => []
  | n + 1, v => UInt8.ofNat (v / 256 ^ n) :: writeBE n v

/-- The unsigned integer whose big-endian bytes are `bs`. -/
def readBE (bs : List UInt8) : ℕ :=
  bs.foldl (fun acc b => acc * 256 + b.toNat) 0

@[simp]
theorem length_writeBE (n v : ℕ) : (writeBE n v).length = n := by
  induction n with
  | zero => rfl
  | succ n ih => simp [writeBE, ih]

/-- The accumulator of `readBE` is shifted past the bytes that are still to come. -/
theorem foldl_readBE (bs : List UInt8) (acc : ℕ) :
    bs.foldl (fun acc b => acc * 256 + b.toNat) acc = acc * 256 ^ bs.length + readBE bs := by
  induction bs generalizing acc with
  | nil => simp [readBE]
  | cons b bs ih =>
    have hread : readBE (b :: bs) = b.toNat * 256 ^ bs.length + readBE bs := by
      rw [readBE, List.foldl_cons, ih, Nat.zero_mul, Nat.zero_add]
    rw [List.foldl_cons, ih, hread, List.length_cons, pow_succ]
    ring

theorem readBE_cons (b : UInt8) (bs : List UInt8) :
    readBE (b :: bs) = b.toNat * 256 ^ bs.length + readBE bs := by
  rw [readBE, List.foldl_cons, foldl_readBE]
  simp

/-- Reading back a big-endian encoding gives the value modulo its width. -/
theorem readBE_writeBE (n v : ℕ) : readBE (writeBE n v) = v % 256 ^ n := by
  induction n with
  | zero => simp [writeBE, readBE, Nat.mod_one]
  | succ n ih =>
    have hbyte : (UInt8.ofNat (v / 256 ^ n)).toNat = v / 256 ^ n % 256 := UInt8.toNat_ofNat'
    rw [writeBE, readBE_cons, length_writeBE, ih, hbyte, Nat.pow_succ, Nat.mod_mul, mul_comm,
      Nat.add_comm]

theorem readBE_lt (bs : List UInt8) : readBE bs < 256 ^ bs.length := by
  induction bs with
  | nil => simp [readBE]
  | cons b bs ih =>
    have hb : b.toNat < 256 := b.toNat_lt
    rw [readBE_cons, List.length_cons, pow_succ]
    have hle : b.toNat * 256 ^ bs.length ≤ 255 * 256 ^ bs.length :=
      Nat.mul_le_mul_right _ (by omega)
    omega

/-- A byte string is the big-endian encoding of its own value. -/
theorem writeBE_readBE (bs : List UInt8) : writeBE bs.length (readBE bs) = bs := by
  have hdrop : ∀ (n v w : ℕ), writeBE n (v * 256 ^ n + w) = writeBE n w := by
    intro n
    induction n with
    | zero => simp [writeBE]
    | succ n ih =>
      intro v w
      have hsplit : v * 256 ^ (n + 1) + w = 256 ^ n * (v * 256) + w := by
        rw [pow_succ]; ring
      rw [writeBE, writeBE]
      congr 1
      · rw [hsplit, Nat.mul_add_div (by positivity)]
        apply UInt8.toNat_inj.mp
        rw [UInt8.toNat_ofNat', UInt8.toNat_ofNat']
        omega
      · rw [hsplit, mul_comm, ih]
  induction bs with
  | nil => rfl
  | cons b bs ih =>
    have hlt := readBE_lt bs
    rw [readBE_cons, List.length_cons, writeBE, hdrop, ih, mul_comm,
      Nat.mul_add_div (by positivity), Nat.div_eq_of_lt hlt, Nat.add_zero]
    congr 1
    exact UInt8.ofNat_toNat

/-- The 16-bit word with big-endian bytes `bs`. -/
def readU16 (bs : List UInt8) : UInt16 := UInt16.ofNat (readBE bs)

/-- The 32-bit word with big-endian bytes `bs`. -/
def readU32 (bs : List UInt8) : UInt32 := UInt32.ofNat (readBE bs)

/-- The two big-endian bytes of a 16-bit word. -/
def writeU16 (v : UInt16) : List UInt8 := writeBE 2 v.toNat

@[simp]
theorem length_writeU16 (v : UInt16) : (writeU16 v).length = 2 := length_writeBE 2 _

@[simp]
theorem readU16_writeU16 (v : UInt16) : readU16 (writeU16 v) = v := by
  have hlt : v.toNat < 256 ^ 2 := v.toNat_lt
  rw [readU16, writeU16, readBE_writeBE, Nat.mod_eq_of_lt hlt]
  exact UInt16.ofNat_toNat

/-- Two bytes are the encoding of the word they decode to. -/
theorem writeU16_readU16 {bs : List UInt8} (h : bs.length = 2) : writeU16 (readU16 bs) = bs := by
  have hlt : readBE bs < 2 ^ 16 := by
    have := readBE_lt bs
    rw [h] at this
    omega
  rw [writeU16, readU16, UInt16.toNat_ofNat', Nat.mod_eq_of_lt hlt, ← h, writeBE_readBE]

/-- A byte that is shifted into a 16-bit word. -/
theorem toNat_shiftInU16 (v : UInt16) (b : UInt8) :
    (v <<< 8 ||| b.toUInt16).toNat = (v.toNat * 256 + b.toNat) % 2 ^ 16 := by
  have hb : b.toNat < 2 ^ 8 := b.toNat_lt
  have hshift : v.toNat <<< 8 % 2 ^ 16 = (v.toNat % 256) <<< 8 := by
    rw [Nat.shiftLeft_eq, Nat.shiftLeft_eq]
    omega
  rw [UInt16.toNat_or, UInt16.toNat_shiftLeft, UInt8.toNat_toUInt16]
  change v.toNat <<< 8 % 2 ^ 16 ||| b.toNat = _
  rw [hshift, ← Nat.shiftLeft_add_eq_or_of_lt hb, Nat.shiftLeft_eq]
  omega

/-- A byte that is shifted into a 32-bit word. -/
theorem toNat_shiftInU32 (v : UInt32) (b : UInt8) :
    (v <<< 8 ||| b.toUInt32).toNat = (v.toNat * 256 + b.toNat) % 2 ^ 32 := by
  have hb : b.toNat < 2 ^ 8 := b.toNat_lt
  have hshift : v.toNat <<< 8 % 2 ^ 32 = (v.toNat % 2 ^ 24) <<< 8 := by
    rw [Nat.shiftLeft_eq, Nat.shiftLeft_eq]
    omega
  rw [UInt32.toNat_or, UInt32.toNat_shiftLeft, UInt8.toNat_toUInt32]
  change v.toNat <<< 8 % 2 ^ 32 ||| b.toNat = _
  rw [hshift, ← Nat.shiftLeft_add_eq_or_of_lt hb, Nat.shiftLeft_eq]
  omega

/-- Two bytes that are shifted into a 16-bit word. -/
theorem shiftInU16_pair (v : UInt16) (a b : UInt8) :
    (v <<< 8 ||| a.toUInt16) <<< 8 ||| b.toUInt16 = readU16 [a, b] := by
  apply UInt16.toNat_inj.mp
  have ha := a.toNat_lt
  have hb := b.toNat_lt
  rw [toNat_shiftInU16, toNat_shiftInU16, readU16, UInt16.toNat_ofNat', readBE_cons, readBE_cons]
  simp only [readBE, List.foldl_nil, List.length_cons, List.length_nil]
  omega

/-- The four big-endian bytes of a 32-bit word. -/
def writeU32 (v : UInt32) : List UInt8 := writeBE 4 v.toNat

@[simp]
theorem length_writeU32 (v : UInt32) : (writeU32 v).length = 4 := length_writeBE 4 _

@[simp]
theorem readU32_writeU32 (v : UInt32) : readU32 (writeU32 v) = v := by
  have hlt : v.toNat < 256 ^ 4 := v.toNat_lt
  rw [readU32, writeU32, readBE_writeBE, Nat.mod_eq_of_lt hlt]
  exact UInt32.ofNat_toNat

/-- Four bytes are the encoding of the word they decode to. -/
theorem writeU32_readU32 {bs : List UInt8} (h : bs.length = 4) : writeU32 (readU32 bs) = bs := by
  have hlt : readBE bs < 2 ^ 32 := by
    have := readBE_lt bs
    rw [h] at this
    omega
  rw [writeU32, readU32, UInt32.toNat_ofNat', Nat.mod_eq_of_lt hlt, ← h, writeBE_readBE]

/-! ## Flat memory -/

/-- A flat memory: the byte at every address. -/
abbrev Mem := ℕ → UInt8

/-- The `n` bytes of `m` from address `off` on. -/
def slice (m : Mem) (off n : ℕ) : List UInt8 :=
  (List.range n).map fun i => m (off + i)

/-- `memcpy(dst + dstOff, src + srcOff, n)`. -/
def memcpy (dst : Mem) (dstOff : ℕ) (src : Mem) (srcOff n : ℕ) : Mem := fun i =>
  if dstOff ≤ i ∧ i < dstOff + n then src (srcOff + (i - dstOff)) else dst i

/-- Write the byte string `bs` at address `off`. -/
def store (m : Mem) (off : ℕ) (bs : List UInt8) : Mem := fun i =>
  if off ≤ i then bs.getD (i - off) (m i) else m i

@[simp]
theorem length_slice (m : Mem) (off n : ℕ) : (slice m off n).length = n := by
  simp [slice]

@[simp]
theorem slice_zero (m : Mem) (off : ℕ) : slice m off 0 = [] := rfl

/-- A slice splits at any inner address. -/
theorem slice_add (m : Mem) (off a b : ℕ) :
    slice m off (a + b) = slice m off a ++ slice m (off + a) b := by
  simp only [slice, List.range_add, List.map_append, List.map_map]
  congr 1
  apply List.map_congr_left
  intro i _
  simp [Nat.add_assoc]

theorem slice_succ (m : Mem) (off n : ℕ) :
    slice m off (n + 1) = m off :: slice m (off + 1) n := by
  rw [Nat.add_comm n 1, slice_add]
  simp [slice]

theorem getElem?_slice (m : Mem) {off n i : ℕ} (h : i < n) :
    (slice m off n)[i]? = some (m (off + i)) := by
  simp [slice, h]

theorem slice_congr {m m' : Mem} {off off' n : ℕ}
    (h : ∀ i < n, m (off + i) = m' (off' + i)) : slice m off n = slice m' off' n := by
  apply List.map_congr_left
  intro i hi
  exact h i (List.mem_range.mp hi)

/-- Two memories that agree on a slice agree on every byte of it. -/
theorem apply_eq_of_slice_eq {m m' : Mem} {off off' n : ℕ}
    (h : slice m off n = slice m' off' n) {i : ℕ} (hi : i < n) : m (off + i) = m' (off' + i) := by
  have hget := congrArg (fun l => l[i]?) h
  simpa [slice, hi] using hget

/-- The copied range reads back as the source range. -/
theorem slice_memcpy_self (dst src : Mem) (dstOff srcOff n : ℕ) :
    slice (memcpy dst dstOff src srcOff n) dstOff n = slice src srcOff n := by
  apply slice_congr
  intro i hi
  simp [memcpy, hi]

/-- Bytes in front of the copied range are untouched. -/
theorem slice_memcpy_before (dst src : Mem) {dstOff srcOff n off k : ℕ} (h : off + k ≤ dstOff) :
    slice (memcpy dst dstOff src srcOff n) off k = slice dst off k := by
  apply slice_congr
  intro i hi
  have hlt : ¬ (dstOff ≤ off + i ∧ off + i < dstOff + n) := by omega
  simp [memcpy, hlt]

/-- The stored bytes read back. -/
theorem slice_store_self (m : Mem) (off : ℕ) (bs : List UInt8) :
    slice (store m off bs) off bs.length = bs := by
  apply List.ext_getElem (by simp)
  intro i h₁ h₂
  simp [slice, store, h₂]

/-- The byte string `bs` stands at address `off`. -/
def StandsAt (m : Mem) (off : ℕ) (bs : List UInt8) : Prop := slice m off bs.length = bs

theorem standsAt_append {m : Mem} {off : ℕ} {as bs : List UInt8} :
    StandsAt m off (as ++ bs) ↔ StandsAt m off as ∧ StandsAt m (off + as.length) bs := by
  unfold StandsAt
  rw [List.length_append, slice_add]
  constructor
  · intro h
    exact List.append_inj h (by simp)
  · rintro ⟨has, hbs⟩
    rw [has, hbs]

theorem standsAt_cons {m : Mem} {off : ℕ} {b : UInt8} {bs : List UInt8} :
    StandsAt m off (b :: bs) ↔ m off = b ∧ StandsAt m (off + 1) bs := by
  unfold StandsAt
  rw [List.length_cons, slice_succ, List.cons_eq_cons]

theorem StandsAt.congr {m m' : Mem} {off : ℕ} {bs : List UInt8} (h : StandsAt m off bs)
    (heq : ∀ i, off ≤ i → i < off + bs.length → m' i = m i) : StandsAt m' off bs := by
  refine Eq.trans (slice_congr fun i hi => ?_) h
  exact heq (off + i) (by omega) (by omega)

/-- A sub-range of a byte string stands at its place. -/
theorem StandsAt.slice_eq {m : Mem} {off : ℕ} {bs : List UInt8} (hstands : StandsAt m off bs)
    {k n : ℕ} (h : k + n ≤ bs.length) : slice m (off + k) n = (bs.drop k).take n := by
  have hlen : bs.length = k + (n + (bs.length - k - n)) := by omega
  rw [StandsAt, hlen, slice_add, slice_add] at hstands
  have hdrop := congrArg (fun l => (l.drop k).take n) hstands
  simpa using hdrop

theorem standsAt_store (m : Mem) (off : ℕ) (bs : List UInt8) : StandsAt (store m off bs) off bs :=
  slice_store_self m off bs

/-- A sub-range of the stored bytes reads back. -/
theorem slice_store_sub (m : Mem) {off : ℕ} {bs : List UInt8} {k n : ℕ}
    (h : k + n ≤ bs.length) :
    slice (store m off bs) (off + k) n = (bs.drop k).take n :=
  (standsAt_store m off bs).slice_eq h

theorem store_of_lt (m : Mem) {off i : ℕ} (bs : List UInt8) (h : i < off) :
    store m off bs i = m i := by
  simp [store, Nat.not_le.mpr h]

theorem store_of_le (m : Mem) {off i : ℕ} (bs : List UInt8) (h : off + bs.length ≤ i) :
    store m off bs i = m i := by
  have hoff : off ≤ i := by omega
  have hlen : bs.length ≤ i - off := by omega
  simp [store, hoff, List.getElem?_eq_none hlen]

/-- Two writes, one behind the other. -/
theorem store_store (m : Mem) (off : ℕ) (as bs : List UInt8) :
    store (store m off as) (off + as.length) bs = store m off (as ++ bs) := by
  funext i
  by_cases hoff : off ≤ i
  · by_cases hlt : i < off + as.length
    · rw [store_of_lt _ _ hlt]
      simp [store, hoff, List.getElem?_append_left (show i - off < as.length by omega)]
    · have hge : off + as.length ≤ i := not_lt.mp hlt
      have hsub : i - off - as.length = i - (off + as.length) := by omega
      simp [store, hoff, hge, List.getElem?_append_right (show as.length ≤ i - off by omega), hsub,
        List.getElem?_eq_none (show as.length ≤ i - off by omega)]
  · rw [store_of_lt _ _ (by omega), store_of_lt _ _ (by omega), store_of_lt _ _ (by omega)]

/-- A write behind a byte string leaves it standing. -/
theorem StandsAt.store_of_le {m : Mem} {off pos : ℕ} {bs cs : List UInt8} (h : StandsAt m off bs)
    (hle : off + bs.length ≤ pos) : StandsAt (store m pos cs) off bs :=
  h.congr fun _ _ hlt => store_of_lt m cs (hlt.trans_le hle)

/-- A write in front of a byte string leaves it standing. -/
theorem StandsAt.store_of_ge {m : Mem} {off pos : ℕ} {bs cs : List UInt8} (h : StandsAt m off bs)
    (hle : pos + cs.length ≤ off) : StandsAt (store m pos cs) off bs :=
  h.congr fun _ hge _ => Bytes.store_of_le m cs (hle.trans hge)

/-- The big-endian number that stands in memory. -/
theorem StandsAt.readBE_eq {m : Mem} {off n v : ℕ} (h : StandsAt m off (writeBE n v)) :
    readBE (slice m off n) = v % 256 ^ n := by
  unfold StandsAt at h
  rw [length_writeBE] at h
  rw [h, readBE_writeBE]

/-- The word that stands in memory. -/
theorem StandsAt.readU32_eq {m : Mem} {off : ℕ} {v : UInt32} (h : StandsAt m off (writeU32 v)) :
    readU32 (slice m off 4) = v := by
  unfold StandsAt at h
  rw [length_writeU32] at h
  rw [h, readU32_writeU32]

/-! ## Traced reads -/

/-- A result together with the addresses that were read to obtain it. -/
structure Traced (α : Type) where
  /-- The result. -/
  val : α
  /-- The addresses read, in order. -/
  reads : List ℕ

namespace Traced

instance : Monad Traced where
  pure a := ⟨a, []⟩
  bind x f := ⟨(f x.val).val, x.reads ++ (f x.val).reads⟩

variable {α β : Type}

@[simp]
theorem val_pure (a : α) : (pure a : Traced α).val = a := rfl

@[simp]
theorem reads_pure (a : α) : (pure a : Traced α).reads = [] := rfl

@[simp]
theorem val_bind (x : Traced α) (f : α → Traced β) : (x >>= f).val = (f x.val).val := rfl

@[simp]
theorem reads_bind (x : Traced α) (f : α → Traced β) :
    (x >>= f).reads = x.reads ++ (f x.val).reads := rfl

/-- Read the byte at address `pos`. -/
def readByte (m : Mem) (pos : ℕ) : Traced UInt8 :=
  ⟨m pos, [pos]⟩

theorem readByte_bind (m : Mem) (pos : ℕ) (f : UInt8 → Traced β) :
    (readByte m pos >>= f) = ⟨(f (m pos)).val, pos :: (f (m pos)).reads⟩ := rfl

/-- Read `n` bytes at address `pos`. -/
def read (m : Mem) (pos n : ℕ) : Traced (List UInt8) :=
  ⟨slice m pos n, List.range' pos n⟩

/-- Hand the `n` bytes at address `pos` on without looking at them. -/
def touch (pos n : ℕ) : Traced Unit :=
  ⟨(), List.range' pos n⟩

/-- `touch`, if `c` holds. -/
def touchIf (c : Bool) (pos n : ℕ) : Traced Unit :=
  ⟨(), if c then List.range' pos n else []⟩

/-- `x`, if `c` holds, and the value `a` otherwise. -/
def readIf (c : Bool) (x : Traced α) (a : α) : Traced α := if c then x else pure a

@[simp]
theorem val_readIf (c : Bool) (x : Traced α) (a : α) :
    (readIf c x a).val = if c then x.val else a := by
  unfold readIf
  split <;> rfl

@[simp]
theorem val_readByte (m : Mem) (pos : ℕ) : (readByte m pos).val = m pos := rfl

@[simp]
theorem reads_readByte (m : Mem) (pos : ℕ) : (readByte m pos).reads = [pos] := rfl

@[simp]
theorem val_read (m : Mem) (pos n : ℕ) : (read m pos n).val = slice m pos n := rfl

@[simp]
theorem reads_read (m : Mem) (pos n : ℕ) : (read m pos n).reads = List.range' pos n := rfl

@[simp]
theorem reads_touch (pos n : ℕ) : (touch pos n).reads = List.range' pos n := rfl

@[simp]
theorem reads_touchIf (c : Bool) (pos n : ℕ) :
    (touchIf c pos n).reads = if c then List.range' pos n else [] := rfl

/-- Only addresses from `lo` on and in front of `hi` are read. -/
def Within (x : Traced α) (lo hi : ℕ) : Prop := ∀ i ∈ x.reads, lo ≤ i ∧ i < hi

theorem within_pure (a : α) (lo hi : ℕ) : (pure a : Traced α).Within lo hi := by
  intro i hi
  cases hi

theorem within_readByte (m : Mem) {pos lo hi : ℕ} (hlo : lo ≤ pos) (hhi : pos < hi) :
    (readByte m pos).Within lo hi := by
  intro i hi
  obtain rfl := List.mem_singleton.mp hi
  exact ⟨hlo, hhi⟩

theorem within_read (m : Mem) {pos n lo hi : ℕ} (hlo : lo ≤ pos) (hhi : pos + n ≤ hi) :
    (read m pos n).Within lo hi := by
  intro i hi
  obtain ⟨hle, hlt⟩ := List.mem_range'_1.mp hi
  exact ⟨hlo.trans hle, hlt.trans_le hhi⟩

theorem within_touch {pos n lo hi : ℕ} (hlo : lo ≤ pos) (hhi : pos + n ≤ hi) :
    (touch pos n).Within lo hi :=
  within_read (fun _ => 0) hlo hhi

theorem Within.bind {x : Traced α} {f : α → Traced β} {lo hi : ℕ} (hx : x.Within lo hi)
    (hf : (f x.val).Within lo hi) : (x >>= f).Within lo hi := by
  intro i hi
  rcases List.mem_append.mp hi with hi | hi
  · exact hx i hi
  · exact hf i hi

@[simp]
theorem within_pure_iff (a : α) (lo hi : ℕ) : (pure a : Traced α).Within lo hi ↔ True :=
  iff_true_intro (within_pure a lo hi)

/-- All accesses of two steps, in terms of those of each. -/
theorem within_bind_iff {x : Traced α} {f : α → Traced β} {lo hi : ℕ} :
    (x >>= f).Within lo hi ↔ x.Within lo hi ∧ (f x.val).Within lo hi := by
  refine ⟨fun h => ⟨fun i hi => ?_, fun i hi => ?_⟩, fun h => h.1.bind h.2⟩
  · exact h i (List.mem_append_left _ hi)
  · exact h i (List.mem_append_right _ hi)

theorem within_readByte_iff (m : Mem) {pos hi : ℕ} :
    (readByte m pos).Within 0 hi ↔ pos < hi := by
  refine ⟨fun h => (h pos List.mem_cons_self).2, within_readByte m (Nat.zero_le _)⟩

theorem within_touch_iff {pos n hi : ℕ} :
    (touch pos n).Within 0 hi ↔ n = 0 ∨ pos + n ≤ hi := by
  constructor
  · intro h
    rcases Nat.eq_zero_or_pos n with hn | hn
    · exact .inl hn
    · right
      have hlast := (h (pos + n - 1) (List.mem_range'_1.mpr (by omega))).2
      omega
  · rintro (rfl | hle)
    · intro i hi
      cases hi
    · exact within_touch (Nat.zero_le _) hle

theorem within_read_iff (m : Mem) {pos n hi : ℕ} :
    (read m pos n).Within 0 hi ↔ n = 0 ∨ pos + n ≤ hi :=
  within_touch_iff

theorem within_readIf_iff {c : Bool} {x : Traced α} {a : α} {lo hi : ℕ} :
    (readIf c x a).Within lo hi ↔ (c = true → x.Within lo hi) := by
  unfold readIf
  split
  next h => exact ⟨fun hx _ => hx, fun hx => hx h⟩
  next h => exact iff_of_true (within_pure a lo hi) fun hc => absurd hc h

theorem Within.mono {x : Traced α} {lo hi lo' hi' : ℕ} (hx : x.Within lo hi) (hlo : lo' ≤ lo)
    (hhi : hi ≤ hi') : x.Within lo' hi' :=
  fun i hi => ⟨hlo.trans (hx i hi).1, (hx i hi).2.trans_le hhi⟩

end Traced

end Bytes
