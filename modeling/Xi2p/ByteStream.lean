import Xi2p.Lib.Bytes

/-!
# Byte streams

`InputByteStream` and `OutputByteStream` of `core/util/byte_stream.cc`, as state monads over the bytes
that are left and the bytes that have been written. Both reject an advancement by zero bytes.

* `bind_of_eq_ok`, `bind_eq_ok_iff`: how a sequence of reads or writes runs.
* `readBytes_append`, `read32_append`, …: a read takes what stands in front.
* `Reads`, `Writes`, `Throws`: what a sequence of reads takes, what a sequence of writes puts, and
  that it fails, each with its rule for sequences.
* `Appends`: a sequence of writes leaves what has been written before.
-/

namespace ByteStream

open Bytes

/-! ## Exceptions -/

/-- The standard exceptions that are thrown, with their texts. -/
inductive StdException
  | lengthError (what : String)
  | invalidArgument (what : String)
  | runtimeError (what : String)
  deriving DecidableEq

section Bind

variable {σ α β : Type} {p : StateT σ (Except StdException) α}
  {f : α → StateT σ (Except StdException) β} {s s' : σ}

theorem bind_of_eq_ok {a : α} (h : p s = .ok (a, s')) : (p >>= f) s = f a s' := by
  show p s >>= (fun r => f r.1 r.2) = _
  rw [h]
  rfl

theorem bind_of_eq_error {e : StdException} (h : p s = .error e) : (p >>= f) s = .error e := by
  show p s >>= (fun r => f r.1 r.2) = _
  rw [h]
  rfl

theorem map_of_eq_ok {a : α} {g : α → β} (h : p s = .ok (a, s')) :
    (g <$> p) s = .ok (g a, s') := by
  show p s >>= (fun r => pure (g r.1, r.2)) = _
  rw [h]
  rfl

theorem map_of_eq_error {e : StdException} {g : α → β} (h : p s = .error e) :
    (g <$> p) s = .error e := by
  show p s >>= (fun r => pure (g r.1, r.2)) = _
  rw [h]
  rfl

/-- A sequence succeeds if and only if both parts do. -/
theorem bind_eq_ok_iff {r : β × σ} :
    (p >>= f) s = .ok r ↔ ∃ a s', p s = .ok (a, s') ∧ f a s' = .ok r := by
  constructor
  · intro h
    cases hp : p s with
    | error e =>
      rw [bind_of_eq_error hp] at h
      cases h
    | ok r' =>
      rw [bind_of_eq_ok hp] at h
      exact ⟨r'.1, r'.2, rfl, h⟩
  · rintro ⟨a, s', hp, hf⟩
    rw [bind_of_eq_ok hp, hf]

/-- `p` throws an exception, from any state. -/
def Throws (p : StateT σ (Except StdException) α) : Prop := ∀ s, ∃ e, p s = .error e

theorem Throws.bind (h : Throws p) : Throws (p >>= f) := by
  intro s
  obtain ⟨e, he⟩ := h s
  exact ⟨e, bind_of_eq_error he⟩

theorem Throws.bind_right (h : ∀ a, Throws (f a)) : Throws (p >>= f) := by
  intro s
  cases hp : p s with
  | error e => exact ⟨e, bind_of_eq_error hp⟩
  | ok r =>
    obtain ⟨e, he⟩ := h r.1 r.2
    exact ⟨e, (bind_of_eq_ok hp).trans he⟩

end Bind

/-! ## Input -/

/-- `InputByteStream`. -/
structure InputByteStream where
  /-- `Size()`: the number of bytes given at initialization. -/
  size : ℕ
  /-- The bytes that are left; their number is `m_Length`. -/
  rest : List UInt8

/-- A function that reads a stream. -/
abbrev Parser := StateT InputByteStream (Except StdException)

/-- A stream of the given bytes. -/
def InputByteStream.of (bytes : List UInt8) : InputByteStream := ⟨bytes.length, bytes⟩

/-- `ReadBytes`, with the check of `Advance`. -/
def readBytes (len : ℕ) : Parser (List UInt8) := fun s =>
  if len = 0 ∨ s.rest.length < len then
    .error (.lengthError "ByteStream: invalid length advancement")
  else .ok (s.rest.take len, { s with rest := s.rest.drop len })

/-- `SkipBytes`. -/
def skipBytes (len : ℕ) : Parser Unit := do
  let _ ← readBytes len

/-- `Read<std::uint8_t>`. -/
def read8 : Parser UInt8 := do
  return (← readBytes 1).headD 0

/-- `Read<std::uint16_t>`. -/
def read16 : Parser UInt16 := do
  return readU16 (← readBytes 2)

/-- `Read<std::uint32_t>`. -/
def read32 : Parser UInt32 := do
  return readU32 (← readBytes 4)

section Input

variable {size len : ℕ} {s s' : InputByteStream} {rest : List UInt8}

theorem readBytes_append {bs : List UInt8} (hlen : bs.length = len) (hpos : 0 < len) :
    readBytes len ⟨size, bs ++ rest⟩ = .ok (bs, ⟨size, rest⟩) := by
  subst hlen
  have hroom : ¬ (bs.length = 0 ∨ (bs ++ rest).length < bs.length) := by
    rw [List.length_append]
    omega
  rw [readBytes, if_neg hroom]
  simp

theorem readBytes_zero (s : InputByteStream) :
    readBytes 0 s = .error (.lengthError "ByteStream: invalid length advancement") :=
  if_pos (Or.inl rfl)

/-- A read that succeeds takes some bytes from the front. -/
theorem eq_append_of_readBytes {bs : List UInt8} (h : readBytes len s = .ok (bs, s')) :
    0 < len ∧ bs.length = len ∧ s'.size = s.size ∧ s.rest = bs ++ s'.rest := by
  unfold readBytes at h
  split at h
  · cases h
  next hroom =>
    rw [not_or, Nat.not_lt] at hroom
    obtain ⟨rfl, rfl⟩ := Prod.mk.inj (Except.ok.inj h)
    refine ⟨Nat.pos_of_ne_zero hroom.1, ?_, rfl, (List.take_append_drop len s.rest).symm⟩
    rw [List.length_take]
    exact min_eq_left hroom.2

theorem read8_append (b : UInt8) : read8 ⟨size, b :: rest⟩ = .ok (b, ⟨size, rest⟩) := by
  have hone : readBytes 1 ⟨size, [b] ++ rest⟩ = .ok ([b], ⟨size, rest⟩) :=
    readBytes_append rfl Nat.one_pos
  exact bind_of_eq_ok hone

theorem read16_append (v : UInt16) :
    read16 ⟨size, writeU16 v ++ rest⟩ = .ok (v, ⟨size, rest⟩) := by
  refine (bind_of_eq_ok (readBytes_append (length_writeU16 v) (by decide))).trans ?_
  rw [readU16_writeU16]
  rfl

theorem read32_append (v : UInt32) :
    read32 ⟨size, writeU32 v ++ rest⟩ = .ok (v, ⟨size, rest⟩) := by
  refine (bind_of_eq_ok (readBytes_append (length_writeU32 v) (by decide))).trans ?_
  rw [readU32_writeU32]
  rfl

theorem skipBytes_append {bs : List UInt8} (hlen : bs.length = len) (hpos : 0 < len) :
    skipBytes len ⟨size, bs ++ rest⟩ = .ok ((), ⟨size, rest⟩) :=
  bind_of_eq_ok (readBytes_append hlen hpos)

theorem skipBytes_zero (s : InputByteStream) :
    skipBytes 0 s = .error (.lengthError "ByteStream: invalid length advancement") :=
  bind_of_eq_error (readBytes_zero s)

theorem eq_cons_of_read8 {b : UInt8} (h : read8 s = .ok (b, s')) :
    s'.size = s.size ∧ s.rest = b :: s'.rest := by
  obtain ⟨bs, s₁, hread, hpure⟩ := bind_eq_ok_iff.mp h
  obtain ⟨rfl, rfl⟩ := Prod.mk.inj (Except.ok.inj hpure)
  obtain ⟨-, hlen, hsize, hrest⟩ := eq_append_of_readBytes hread
  obtain ⟨b, rfl⟩ := List.length_eq_one_iff.mp hlen
  exact ⟨hsize, hrest⟩

theorem eq_append_of_read32 {v : UInt32} (h : read32 s = .ok (v, s')) :
    s'.size = s.size ∧ s.rest = writeU32 v ++ s'.rest := by
  obtain ⟨bs, s₁, hread, hpure⟩ := bind_eq_ok_iff.mp h
  obtain ⟨rfl, rfl⟩ := Prod.mk.inj (Except.ok.inj hpure)
  obtain ⟨-, hlen, hsize, hrest⟩ := eq_append_of_readBytes hread
  rw [writeU32_readU32 hlen]
  exact ⟨hsize, hrest⟩

theorem eq_append_of_skipBytes (h : skipBytes len s = .ok ((), s')) :
    ∃ bs, 0 < len ∧ bs.length = len ∧ s'.size = s.size ∧ s.rest = bs ++ s'.rest := by
  obtain ⟨bs, s₁, hread, hpure⟩ := bind_eq_ok_iff.mp h
  obtain ⟨-, rfl⟩ := Prod.mk.inj (Except.ok.inj hpure)
  exact ⟨bs, eq_append_of_readBytes hread⟩

end Input

section Reads

variable {α β : Type} {p : Parser α} {f : α → Parser β} {bs cs : List UInt8} {a : α} {b : β}

/-- `p` takes `bs` from the front of any stream, and returns `a`. -/
def Reads (p : Parser α) (bs : List UInt8) (a : α) : Prop :=
  ∀ size rest, p ⟨size, bs ++ rest⟩ = .ok (a, ⟨size, rest⟩)

theorem reads_pure (a : α) : Reads (pure a) [] a := fun _ _ => rfl

theorem Reads.bind (hp : Reads p bs a) (hf : Reads (f a) cs b) : Reads (p >>= f) (bs ++ cs) b := by
  intro size rest
  rw [List.append_assoc, bind_of_eq_ok (hp size (cs ++ rest))]
  exact hf size rest

/-- A last step that reads nothing. -/
theorem Reads.bind_pure (hp : Reads p bs a) (g : α → β) :
    Reads (p >>= fun a => pure (g a)) bs (g a) := by
  have h : Reads (p >>= fun a => pure (g a)) (bs ++ []) (g a) := hp.bind (reads_pure (g a))
  rwa [List.append_nil] at h

theorem reads_readBytes {len : ℕ} (hlen : bs.length = len) (hpos : 0 < len) :
    Reads (readBytes len) bs bs := fun _ _ => readBytes_append hlen hpos

theorem reads_skipBytes {len : ℕ} (hlen : bs.length = len) (hpos : 0 < len) :
    Reads (skipBytes len) bs () := fun _ _ => skipBytes_append hlen hpos

theorem reads_read8 (b : UInt8) : Reads read8 [b] b := fun _ _ => read8_append b

theorem reads_read16 (v : UInt16) : Reads read16 (writeU16 v) v := fun _ _ => read16_append v

theorem reads_read32 (v : UInt32) : Reads read32 (writeU32 v) v := fun _ _ => read32_append v

end Reads

/-! ## Output -/

/-- `OutputByteStream`. -/
structure OutputByteStream where
  /-- The bytes that have been written. -/
  written : List UInt8
  /-- `m_Length`: how many more bytes fit. -/
  length : ℕ

/-- A function that writes to a stream. -/
abbrev Writer := StateT OutputByteStream (Except StdException)

/-- A stream with room for `len` bytes. -/
def OutputByteStream.ofLength (len : ℕ) : OutputByteStream := ⟨[], len⟩

/-- `WriteData`, with the check of `Advance`. -/
def writeData (data : List UInt8) : Writer Unit := fun s =>
  if data.length = 0 then .error (.lengthError "OutputByteStream: null length")
  else if s.length < data.length then
    .error (.lengthError "ByteStream: invalid length advancement")
  else .ok ((), ⟨s.written ++ data, s.length - data.length⟩)

/-- `OutputByteStream::SkipBytes` writes zeros. -/
def writeZeros (len : ℕ) : Writer Unit := writeData (List.replicate len 0)

/-- `Write<std::uint8_t>`. -/
def write8 (v : UInt8) : Writer Unit := writeData [v]

/-- `Write<std::uint16_t>`. -/
def write16 (v : UInt16) : Writer Unit := writeData (writeU16 v)

/-- `Write<std::uint32_t>`. -/
def write32 (v : UInt32) : Writer Unit := writeData (writeU32 v)

/-- `SkipBytes(len)`, and then `data` written to the place that was skipped. -/
def skipAndFill (len : ℕ) (data : List UInt8) : Writer Unit := do
  let start := (← get).written
  writeZeros len
  modify fun s => { s with written := start ++ (data ++ (List.replicate len 0).drop data.length) }

section Output

variable {w w' : Writer Unit} {bs cs : List UInt8}

/-- `w` writes `bs` to any stream with room for it. -/
def Writes (w : Writer Unit) (bs : List UInt8) : Prop :=
  ∀ s : OutputByteStream, bs.length ≤ s.length →
    w s = .ok ((), ⟨s.written ++ bs, s.length - bs.length⟩)

theorem writes_pure : Writes (pure ()) [] := by
  intro s _
  show Except.ok ((), s) = _
  simp

theorem Writes.bind (hw : Writes w bs) (hw' : Writes w' cs) :
    Writes (w >>= fun _ => w') (bs ++ cs) := by
  intro s hroom
  rw [List.length_append] at hroom
  rw [bind_of_eq_ok (hw s (by omega)), hw' _ (by dsimp only; omega)]
  simp only [List.append_assoc, List.length_append, Nat.sub_sub]

theorem Writes.run {α : Type} (hw : Writes w bs) {f : Unit → Writer α} {s : OutputByteStream}
    (hroom : bs.length ≤ s.length) :
    (w >>= f) s = f () ⟨s.written ++ bs, s.length - bs.length⟩ :=
  bind_of_eq_ok (hw s hroom)

theorem writes_writeData {data : List UInt8} (hpos : 0 < data.length) :
    Writes (writeData data) data := by
  intro s hroom
  rw [writeData, if_neg (by omega), if_neg (by omega)]

theorem writes_writeZeros {len : ℕ} (hpos : 0 < len) :
    Writes (writeZeros len) (List.replicate len 0) :=
  writes_writeData (by rwa [List.length_replicate])

theorem writes_write8 (v : UInt8) : Writes (write8 v) [v] := writes_writeData Nat.one_pos

theorem writes_write16 (v : UInt16) : Writes (write16 v) (writeU16 v) :=
  writes_writeData (by rw [length_writeU16]; decide)

theorem writes_write32 (v : UInt32) : Writes (write32 v) (writeU32 v) :=
  writes_writeData (by rw [length_writeU32]; decide)

theorem writes_skipAndFill {data : List UInt8} (hpos : 0 < data.length) :
    Writes (skipAndFill data.length data) data := by
  intro s hroom
  have hzeros : writeZeros data.length s =
      .ok ((), ⟨s.written ++ List.replicate data.length 0, s.length - data.length⟩) := by
    have h := writes_writeZeros hpos s (by rwa [List.length_replicate])
    rwa [List.length_replicate] at h
  have hget : (get : Writer OutputByteStream) s = .ok (s, s) := rfl
  rw [skipAndFill, bind_of_eq_ok hget, bind_of_eq_ok hzeros]
  show Except.ok ((), OutputByteStream.mk (s.written ++ (data ++ _)) _) = _
  rw [List.drop_eq_nil_of_le (by simp), List.append_nil]

theorem throws_writeData_nil : Throws (writeData []) := fun _ => ⟨_, rfl⟩

theorem throws_skipAndFill_zero (data : List UInt8) : Throws (skipAndFill 0 data) := by
  intro s
  exact ⟨_, rfl⟩

end Output

section Appends

variable {α β : Type} {w : Writer α}

/-- A writer that succeeds leaves what has been written before. -/
def Appends (w : Writer α) : Prop :=
  ∀ s a s', w s = .ok (a, s') → s.written <+: s'.written

theorem appends_pure (a : α) : Appends (pure a : Writer α) := by
  rintro s _ _ ⟨⟩
  exact List.prefix_rfl

theorem appends_get : Appends (get : Writer OutputByteStream) := by
  rintro s _ _ ⟨⟩
  exact List.prefix_rfl

theorem Appends.bind {f : α → Writer β} (hw : Appends w) (hf : ∀ a, Appends (f a)) :
    Appends (w >>= f) := by
  intro s b s' h
  obtain ⟨a, s₁, hfirst, hrest⟩ := bind_eq_ok_iff.mp h
  exact (hw s a s₁ hfirst).trans (hf a s₁ b s' hrest)

theorem except_bind_eq_ok_iff {ε α β : Type} {x : Except ε α} {f : α → Except ε β} {b : β} :
    (x >>= f) = .ok b ↔ ∃ a, x = .ok a ∧ f a = .ok b := by
  cases x with
  | error e => exact ⟨nofun, nofun⟩
  | ok a => exact ⟨fun h => ⟨a, rfl, h⟩, fun ⟨_, ha, h⟩ => (Except.ok.inj ha) ▸ h⟩

/-- What `WriteData` writes when it does not throw. -/
theorem written_writeData {data : List UInt8} {s s' : OutputByteStream}
    (h : writeData data s = .ok ((), s')) : s'.written = s.written ++ data := by
  rw [writeData] at h
  split at h
  · cases h
  · split at h
    · cases h
    · obtain ⟨-, rfl⟩ := Prod.mk.inj (Except.ok.inj h)
      rfl

theorem appends_writeData (data : List UInt8) : Appends (writeData data) := by
  intro s _ s' h
  rw [written_writeData h]
  exact List.prefix_append _ _

theorem appends_skipAndFill (len : ℕ) (data : List UInt8) : Appends (skipAndFill len data) := by
  intro s _ s' h
  rw [skipAndFill] at h
  obtain ⟨_, s₁, ⟨⟩, h⟩ := bind_eq_ok_iff.mp h
  obtain ⟨_, s₂, -, h⟩ := bind_eq_ok_iff.mp h
  cases h
  exact List.prefix_append _ _

end Appends

end ByteStream
