import Xi2p.Lib.Bytes

/-!
# Input streams with positions

`std::istream` over a string: reading past the end gives what there is and sets the fail bit and the
end-of-file bit, and a stream that is not good reads nothing. `seekg` clears the end-of-file bit, but
not the fail bit.

* `InputStream.Reads read bytes a`: from a good stream that holds `bytes`, `read` gives `a` and stands
  behind `bytes`.
* `Reads.bind`: how reads are put together.
* `GivesAt bytes p read n a`: from the position `p`, or a failure on the way to it, `read` gives `a` and
  goes on to `p + n`.
-/

namespace Bytes

/-- An input stream over `bytes`. -/
structure InputStream where
  bytes : List UInt8
  /-- The position of the next byte. -/
  pos : ℕ := 0
  /-- `eofbit`. -/
  eof : Bool := false
  /-- `failbit`. -/
  fail : Bool := false
  deriving DecidableEq

namespace InputStream

variable {α β : Type}

/-- `good`. -/
def good (s : InputStream) : Bool := !s.eof && !s.fail

/-- The bytes from the position on. -/
def rest (s : InputStream) : List UInt8 := s.bytes.drop s.pos

/-- The stream `n` bytes further. -/
def skip (s : InputStream) (n : ℕ) : InputStream := { s with pos := s.pos + n }

/-- `read`: the bytes that were read. -/
def read (n : ℕ) : StateM InputStream (List UInt8) := fun s =>
  if s.good then
    let got := s.rest.take n
    let short : Bool := got.length < n
    (got, { s with pos := s.pos + got.length, eof := short, fail := short })
  else ([], { s with fail := true })

/-- `seekg` from the beginning. -/
def seekBeg (n : ℕ) : StateM InputStream Unit := fun s =>
  let s := { s with eof := false }
  if s.fail then ((), s)
  else if n ≤ s.bytes.length then ((), { s with pos := n })
  else ((), { s with fail := true })

/-- `seekg` from the position. -/
def seekCur (n : ℕ) : StateM InputStream Unit := fun s => seekBeg (s.pos + n) s

/-- `tellg`, as a 64-bit number. -/
def tellg : StateM InputStream ℕ := fun s =>
  if s.good then (s.pos, s) else (2 ^ 64 - 1, { s with fail := true })

/-- Reading into memory that holds `old`. -/
def readOver (old : List UInt8) : StateM InputStream (List UInt8) := do
  let got ← read old.length
  return got ++ old.drop got.length

/-- The number that `n` bytes in memory stand for, the low byte first. -/
def readLE (bs : List UInt8) : ℕ := readBE bs.reverse

/-- The `n` bytes of a number in memory, the low byte first. -/
def writeLE (n v : ℕ) : List UInt8 := (writeBE n v).reverse

/-- Reading into a variable of `n` bytes. -/
def readNat (n old : ℕ) : StateM InputStream ℕ := do
  let bs ← readOver (writeLE n old)
  return readLE bs

@[simp] theorem length_writeLE (n v : ℕ) : (writeLE n v).length = n := by simp [writeLE]

theorem readLE_writeLE {n v : ℕ} (h : v < 256 ^ n) : readLE (writeLE n v) = v := by
  rw [readLE, writeLE, List.reverse_reverse, readBE_writeBE, Nat.mod_eq_of_lt h]

/-! ## Reading what is there -/

/-- A good stream that holds the bytes. -/
structure Holds (s : InputStream) (bytes : List UInt8) : Prop where
  good : s.good = true
  pos_le : s.pos ≤ s.bytes.length
  rest : s.rest = bytes

theorem Holds.eof {s : InputStream} {bytes : List UInt8} (h : s.Holds bytes) : s.eof = false := by
  have hgood := h.good
  rw [InputStream.good, Bool.and_eq_true, Bool.not_eq_true'] at hgood
  exact hgood.1

theorem Holds.fail {s : InputStream} {bytes : List UInt8} (h : s.Holds bytes) : s.fail = false := by
  have hgood := h.good
  rw [InputStream.good, Bool.and_eq_true, Bool.not_eq_true', Bool.not_eq_true'] at hgood
  exact hgood.2

theorem Holds.skip {s : InputStream} {xs ys : List UInt8} (h : s.Holds (xs ++ ys)) :
    (s.skip xs.length).Holds ys where
  good := h.good
  pos_le := by
    have hlen := congrArg List.length h.rest
    have hle := h.pos_le
    rw [InputStream.rest, List.length_drop, List.length_append] at hlen
    rw [InputStream.skip]
    dsimp only
    omega
  rest := by
    have hrest := h.rest
    rw [InputStream.rest] at hrest ⊢
    rw [InputStream.skip]
    dsimp only
    rw [← List.drop_drop, hrest, List.drop_left]

@[simp] theorem skip_bytes (s : InputStream) (n : ℕ) : (s.skip n).bytes = s.bytes := rfl

@[simp] theorem skip_pos (s : InputStream) (n : ℕ) : (s.skip n).pos = s.pos + n := rfl

theorem skip_skip (s : InputStream) (m n : ℕ) : (s.skip m).skip n = s.skip (m + n) := by
  rw [skip, skip, skip, Nat.add_assoc]

@[simp] theorem skip_zero (s : InputStream) : s.skip 0 = s := rfl

/-- Reading takes the bytes and gives the value. -/
def Reads (read : StateM InputStream α) (bytes : List UInt8) (a : α) : Prop :=
  ∀ (s : InputStream) (rest : List UInt8), s.Holds (bytes ++ rest) →
    read s = (a, s.skip bytes.length)

theorem reads_pure (a : α) : Reads (pure a) [] a := fun _ _ _ => rfl

theorem Reads.bind {x : StateM InputStream α} {f : α → StateM InputStream β}
    {bytes bytes' : List UInt8} {a : α} {b : β} (hx : Reads x bytes a) (hf : Reads (f a) bytes' b) :
    Reads (x >>= f) (bytes ++ bytes') b := by
  intro s rest h
  rw [List.append_assoc] at h
  have hfirst := hx s _ h
  have hsecond := hf _ _ h.skip
  show f (x s).1 (x s).2 = _
  rw [hfirst, List.length_append, ← skip_skip]
  exact hsecond

/-- What is computed from the value read. -/
theorem Reads.bind_pure {x : StateM InputStream α} {bytes : List UInt8} {a : α} (hx : Reads x bytes a)
    (f : α → β) : Reads (x >>= fun a => pure (f a)) bytes (f a) := by
  intro s rest h
  show (f (x s).1, (x s).2) = _
  rw [hx s rest h]

theorem Holds.read {s : InputStream} {xs ys : List UInt8} (h : s.Holds (xs ++ ys)) :
    InputStream.read xs.length s = (xs, s.skip xs.length) := by
  rw [InputStream.read, if_pos h.good, h.rest, List.take_left]
  dsimp only
  rw [decide_eq_false (lt_irrefl _), InputStream.skip, h.eof, h.fail]

theorem reads_read (bytes : List UInt8) : Reads (read bytes.length) bytes bytes :=
  fun _ _ h => h.read

theorem reads_readOver {old bytes : List UInt8} (hlen : bytes.length = old.length) :
    Reads (readOver old) bytes bytes := by
  have hread : Reads (read old.length) bytes bytes := hlen ▸ reads_read bytes
  have h := hread.bind_pure fun got => got ++ old.drop got.length
  rwa [List.drop_eq_nil_of_le hlen.ge, List.append_nil] at h

theorem reads_readNat {n : ℕ} (old : ℕ) {bytes : List UInt8} (h : bytes.length = n) :
    Reads (readNat n old) bytes (readLE bytes) := by
  have hread : Reads (readOver (writeLE n old)) bytes bytes := reads_readOver (by simp [h])
  exact hread.bind_pure readLE

theorem Holds.seekBeg {s : InputStream} {bytes : List UInt8} {n : ℕ} (h : s.Holds bytes)
    (hn : n ≤ s.bytes.length) : InputStream.seekBeg n s = ((), { s with pos := n }) := by
  rw [InputStream.seekBeg]
  dsimp only
  rw [h.fail, if_neg Bool.false_ne_true, if_pos hn, ← h.eof]

theorem reads_seekCur (bytes : List UInt8) : Reads (seekCur bytes.length) bytes () := by
  intro s rest h
  exact h.seekBeg h.skip.pos_le

theorem Holds.tellg {s : InputStream} {bytes : List UInt8} (h : s.Holds bytes) :
    InputStream.tellg s = (s.pos, s) := if_pos h.good

/-! ## Reading at positions -/

/-- What is in memory when `old` has been read over at a position: where there is nothing to be read,
memory stays. -/
def overlay (bytes : List UInt8) (p : ℕ) (old : List UInt8) : List UInt8 :=
  (bytes.drop p).take old.length ++ old.drop ((bytes.drop p).take old.length).length

@[simp] theorem length_overlay (bytes : List UInt8) (p : ℕ) (old : List UInt8) :
    (overlay bytes p old).length = old.length := by
  rw [overlay, List.length_append, List.length_drop]
  have hle : ((bytes.drop p).take old.length).length ≤ old.length := List.length_take_le _ _
  omega

theorem overlay_of_le {bytes : List UInt8} {p : ℕ} (h : bytes.length ≤ p) (old : List UInt8) :
    overlay bytes p old = old := by
  rw [overlay, List.drop_eq_nil_of_le h, List.take_nil, List.nil_append, List.length_nil, List.drop_zero]

/-- The stream is at a position, or has failed on the way to it. -/
structure At (bytes : List UInt8) (p : ℕ) (s : InputStream) : Prop where
  bytes_eq : s.bytes = bytes
  state : (s.good = true ∧ s.pos = p ∧ p ≤ bytes.length) ∨ (s.fail = true ∧ bytes.length < p)

theorem good_eq_false {s : InputStream} (h : s.fail = true) : ¬ s.good = true := by
  rw [InputStream.good, h]
  simp

theorem eof_of_good {s : InputStream} (h : s.good = true) : s.eof = false := by
  rw [InputStream.good, Bool.and_eq_true, Bool.not_eq_true'] at h
  exact h.1

theorem fail_of_good {s : InputStream} (h : s.good = true) : s.fail = false := by
  rw [InputStream.good, Bool.and_eq_true, Bool.not_eq_true', Bool.not_eq_true'] at h
  exact h.2

/-- A stream that has failed reads nothing. -/
theorem read_of_fail {s : InputStream} (h : s.fail = true) (n : ℕ) : InputStream.read n s = ([], s) := by
  rw [InputStream.read, if_neg (good_eq_false h)]
  obtain ⟨bytes, pos, eof, fail⟩ := s
  obtain rfl : fail = true := h
  rfl

/-- A stream that has failed stays where it is. -/
theorem seekBeg_of_fail {s : InputStream} (h : s.fail = true) (n : ℕ) :
    seekBeg n s = ((), { s with eof := false }) := by
  rw [seekBeg]
  exact if_pos h

theorem seekBeg_of_good {s : InputStream} (h : s.good = true) (n : ℕ) :
    seekBeg n s = ((), if n ≤ s.bytes.length then { s with pos := n } else { s with fail := true }) := by
  have heof := eof_of_good h
  have hfail := fail_of_good h
  obtain ⟨bytes, pos, eof, fail⟩ := s
  obtain rfl : eof = false := heof
  obtain rfl : fail = false := hfail
  rw [seekBeg]
  dsimp only
  rw [if_neg Bool.false_ne_true]
  split <;> rfl

theorem At.read {bytes : List UInt8} {p : ℕ} {s : InputStream} (h : At bytes p s) (n : ℕ) :
    (InputStream.read n s).1 = (bytes.drop p).take n ∧ At bytes (p + n) (InputStream.read n s).2 := by
  rcases h.state with ⟨hgood, rfl, hle⟩ | ⟨hfail, hlt⟩
  · rw [InputStream.read, if_pos hgood, InputStream.rest, h.bytes_eq]
    refine ⟨rfl, rfl, ?_⟩
    dsimp only
    rw [List.length_take, List.length_drop]
    by_cases hfits : s.pos + n ≤ bytes.length
    · rw [Nat.min_eq_left (by omega)]
      exact .inl ⟨by simp [InputStream.good], rfl, hfits⟩
    · exact .inr ⟨decide_eq_true (by omega), by omega⟩
  · rw [read_of_fail hfail, List.drop_eq_nil_of_le hlt.le, List.take_nil]
    exact ⟨rfl, h.bytes_eq, .inr ⟨hfail, by omega⟩⟩

theorem At.seekCur {bytes : List UInt8} {p : ℕ} {s : InputStream} (h : At bytes p s) (n : ℕ) :
    At bytes (p + n) (InputStream.seekCur n s).2 := by
  rw [InputStream.seekCur]
  rcases h.state with ⟨hgood, rfl, hle⟩ | ⟨hfail, hlt⟩
  · rw [seekBeg_of_good hgood, h.bytes_eq]
    dsimp only
    split
    next hfits => exact ⟨rfl, .inl ⟨hgood, rfl, hfits⟩⟩
    next hfits => exact ⟨rfl, .inr ⟨rfl, Nat.lt_of_not_le hfits⟩⟩
  · rw [seekBeg_of_fail hfail]
    exact ⟨h.bytes_eq, .inr ⟨hfail, by omega⟩⟩

/-- From a position, `x` gives `a` and goes `n` bytes further. -/
def GivesAt (bytes : List UInt8) (p : ℕ) (x : StateM InputStream α) (n : ℕ) (a : α) : Prop :=
  ∀ s, At bytes p s → (x s).1 = a ∧ At bytes (p + n) (x s).2

variable {bytes : List UInt8} {p m n : ℕ}

theorem GivesAt.bind {x : StateM InputStream α} {f : α → StateM InputStream β} {a : α} {b : β}
    (hx : GivesAt bytes p x m a) (hf : GivesAt bytes (p + m) (f a) n b) :
    GivesAt bytes p (x >>= f) (m + n) b := by
  intro s h
  obtain ⟨ha, hat⟩ := hx s h
  show (f (x s).1 (x s).2).1 = b ∧ At bytes (p + (m + n)) (f (x s).1 (x s).2).2
  rw [ha, ← Nat.add_assoc]
  exact hf _ hat

theorem GivesAt.bind_pure {x : StateM InputStream α} {a : α} (hx : GivesAt bytes p x n a) (f : α → β) :
    GivesAt bytes p (x >>= fun a => pure (f a)) n (f a) := by
  intro s h
  obtain ⟨ha, hat⟩ := hx s h
  exact ⟨congrArg f ha, hat⟩

theorem givesAt_seekCur (bytes : List UInt8) (p n : ℕ) : GivesAt bytes p (seekCur n) n () :=
  fun _ h => ⟨rfl, h.seekCur n⟩

theorem givesAt_readOver (bytes : List UInt8) (p : ℕ) (old : List UInt8) :
    GivesAt bytes p (readOver old) old.length (overlay bytes p old) := by
  have hread : GivesAt bytes p (read old.length) old.length ((bytes.drop p).take old.length) :=
    fun _ h => h.read old.length
  exact hread.bind_pure fun got => got ++ old.drop got.length

/-- The number that is read over `old` at a position. -/
def numberAt (bytes : List UInt8) (p n old : ℕ) : ℕ := readLE (overlay bytes p (writeLE n old))

theorem givesAt_readNat (bytes : List UInt8) (p n old : ℕ) :
    GivesAt bytes p (readNat n old) n (numberAt bytes p n old) := by
  have hover := givesAt_readOver bytes p (writeLE n old)
  rw [length_writeLE] at hover
  exact hover.bind_pure readLE

theorem readLE_lt (bs : List UInt8) : readLE bs < 256 ^ bs.length := by
  have hlt := readBE_lt bs.reverse
  rwa [List.length_reverse] at hlt

theorem numberAt_lt (bytes : List UInt8) (p n old : ℕ) : numberAt bytes p n old < 256 ^ n := by
  have hlt := readLE_lt (overlay bytes p (writeLE n old))
  rwa [length_overlay, length_writeLE] at hlt

end InputStream

end Bytes
