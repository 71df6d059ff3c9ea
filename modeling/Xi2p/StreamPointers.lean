import Xi2p.ByteStream
import Xi2p.Lib.InputStream
import Xi2p.Lib.Runs

/-!
# The pointers of byte streams

`ByteStream` of `core/util/byte_stream.cc` with its three members, over a flat memory. A call gives what
it returns or throws, and the state it leaves in either case.

* `InputCall`, `OutputCall`: the calls of a stream.
* `Cursor.Over`: what holds of a stream over a buffer.
* `Cursor.Reads`, `Cursor.Writes`: what the bytes-level streams of `Xi2p.ByteStream` do is what these do.
* `stream_invariant`: the invariant along every sequence of calls, and what is read back.
-/

namespace ByteStream

open Bytes Bytes.InputStream

/-! ## Integers in memory -/

/-- The order of the bytes of an integer in memory. -/
inductive Endian
  | big
  | little

/-- The bytes of an integer in memory. -/
def Endian.write (n v : ℕ) : Endian → List UInt8
  | big => writeBE n v
  | little => writeLE n v

/-- The integer that the bytes in memory stand for. -/
def Endian.read (bs : List UInt8) : Endian → ℕ
  | big => readBE bs
  | little => readLE bs

/-- `boost::endian::big_to_native_inplace`, on an integer of `n` bytes. -/
def bigToNative (host : Endian) (n v : ℕ) : ℕ := readBE (host.write n v)

/-- `boost::endian::native_to_big_inplace`, on an integer of `n` bytes. -/
def nativeToBig (host : Endian) (n v : ℕ) : ℕ := host.read (writeBE n v)

/-- The integral types. -/
inductive Width
  | bits8
  | bits16
  | bits32
  | bits64
  deriving DecidableEq

/-- `sizeof`. -/
def Width.size : Width → ℕ
  | bits8 => 1
  | bits16 => 2
  | bits32 => 4
  | bits64 => 8

theorem Width.size_pos (w : Width) : 0 < w.size := by cases w <;> decide

section Endian

variable (host : Endian) {n v : ℕ}

@[simp]
theorem Endian.length_write (n v : ℕ) : (host.write n v).length = n := by
  cases host
  · exact length_writeBE n v
  · exact length_writeLE n v

theorem Endian.read_write (h : v < 256 ^ n) : host.read (host.write n v) = v := by
  cases host
  · exact (readBE_writeBE n v).trans (Nat.mod_eq_of_lt h)
  · exact readLE_writeLE h

theorem Endian.write_read (bs : List UInt8) : host.write bs.length (host.read bs) = bs := by
  cases host
  · exact writeBE_readBE bs
  · show (writeBE bs.length (readBE bs.reverse)).reverse = bs
    rw [← List.length_reverse, writeBE_readBE, List.reverse_reverse]

/-- An integer in big-endian order stands in memory with its high byte first. -/
theorem Endian.write_nativeToBig (n v : ℕ) : host.write n (nativeToBig host n v) = writeBE n v := by
  have h := host.write_read (writeBE n v)
  rwa [length_writeBE] at h

theorem bigToNative_nativeToBig (h : v < 256 ^ n) :
    bigToNative host n (nativeToBig host n v) = v := by
  rw [bigToNative, host.write_nativeToBig, readBE_writeBE, Nat.mod_eq_of_lt h]

end Endian

/-! ## Streams -/

/-- `ByteStream`, and the memory. -/
structure Cursor where
  /-- `m_DataPtr`. -/
  dataPtr : ℕ
  /-- `m_Length`. -/
  length : ℕ
  /-- `m_Counter`. -/
  counter : ℕ
  mem : Mem
  /-- The addresses that have been read or written through the stream. -/
  touched : List ℕ

/-- A function of a stream. What it throws leaves a state, too. -/
abbrev Call := ExceptT StdException (StateM Cursor)

namespace Cursor

/-- `Data`. -/
def data (s : Cursor) : ℕ := s.dataPtr - s.counter

/-- `Size`. -/
def size (s : Cursor) : ℕ := s.length + s.counter

/-- `Tellp`. -/
def tellp (s : Cursor) : ℕ := s.dataPtr

/-- `Gcount`. -/
def gcount (s : Cursor) : ℕ := s.length

/-- The constructors, on a pointer that may be null. -/
def ofBuffer (data : Option ℕ) (len : ℕ) (mem : Mem) : Except StdException Cursor :=
  match data with
  | none => .error (.invalidArgument "ByteStream: null data")
  | some dataPtr =>
    if len = 0 then .error (.lengthError "ByteStream: null length")
    else .ok { dataPtr, length := len, counter := 0, mem, touched := [] }

end Cursor

/-- `memcpy` from a pointer. -/
def load (ptr n : ℕ) : Call (List UInt8) := fun s =>
  (.ok (slice s.mem ptr n), { s with touched := s.touched ++ List.range' ptr n })

/-- `memcpy` and `memset` to a pointer. -/
def storeAt (ptr : ℕ) (bs : List UInt8) : Call Unit := fun s =>
  (.ok (), { s with
    mem := store s.mem ptr bs
    touched := s.touched ++ List.range' ptr bs.length })

/-- `Advance`. -/
def advance (len : ℕ) : Call Unit := fun s =>
  if len = 0 ∨ s.length < len then
    (.error (.lengthError "ByteStream: invalid length advancement"), s)
  else
    (.ok (), { s with
      dataPtr := s.dataPtr + len
      counter := s.counter + len
      length := s.length - len })

/-- `ReadBytes`. -/
def readPointer (len : ℕ) : Call ℕ := do
  let ptr := (← get).dataPtr
  advance len
  return ptr

/-- `Read`. -/
def readInt (host : Endian) (w : Width) (convert : Bool) : Call ℕ := do
  let ptr ← readPointer w.size
  let size := host.read (← load ptr w.size)
  return if convert then bigToNative host w.size size else size

/-- What is given to `WriteData`. -/
inductive Source
  | bytes (data : List UInt8)
  /-- A null pointer. -/
  | null (len : ℕ)

/-- The length that is given. -/
def Source.len : Source → ℕ
  | bytes data => data.length
  | null len => len

/-- The bytes that are written. -/
def Source.contents : Source → List UInt8
  | bytes data => data
  | null len => List.replicate len 0

/-- The pointer is null. -/
def Source.isNull : Source → Bool
  | bytes _ => false
  | null _ => true

/-- `WriteData`. -/
def writeSource (source : Source) (allowNullData : Bool) : Call Unit :=
  if source.isNull && !allowNullData then throw (.invalidArgument "OutputByteStream: null data")
  else if source.len = 0 then throw (.lengthError "OutputByteStream: null length")
  else do
    let ptr := (← get).dataPtr
    advance source.len
    storeAt ptr source.contents

/-- `Write`. -/
def writeInt (host : Endian) (w : Width) (v : ℕ) (convert : Bool) : Call Unit :=
  let data := if convert then nativeToBig host w.size v else v
  writeSource (.bytes (host.write w.size data)) false

/-- The calls of an input stream. -/
inductive InputCall
  | read (w : Width) (convert : Bool)
  | readBytes (len : ℕ)
  | skipBytes (len : ℕ)

/-- The calls of an output stream. -/
inductive OutputCall
  | write (w : Width) (v : Fin (256 ^ w.size)) (convert : Bool)
  | writeData (source : Source) (allowNullData : Bool)
  | skipBytes (len : ℕ)

/-- What is returned. -/
inductive Returned
  | nothing
  | int (v : ℕ)
  | bytes (bs : List UInt8)
  deriving DecidableEq

/-- A call of an input stream. The bytes at the pointer that `ReadBytes` returns are read. -/
def InputCall.run (host : Endian) : InputCall → Call Returned
  | read w convert => return .int (← readInt host w convert)
  | readBytes len => do
    let ptr ← readPointer len
    return .bytes (← load ptr len)
  | skipBytes len => do
    advance len
    return .nothing

/-- A call of an output stream. -/
def OutputCall.run (host : Endian) : OutputCall → Call Unit
  | write w v convert => writeInt host w v convert
  | writeData source allowNullData => writeSource source allowNullData
  | skipBytes len => writeSource (.null len) true

namespace Call

variable {α β : Type} {p : Call α} {f : α → Call β} {s s' : Cursor}

/-- What a call gives, and the state it leaves. -/
def on (p : Call α) (s : Cursor) : Except StdException α × Cursor := p s

theorem bind_of_ok {a : α} (h : p.on s = (.ok a, s')) : (p >>= f).on s = (f a).on s' := by
  show ExceptT.bindCont f (p.on s).1 (p.on s).2 = _
  rw [h]
  rfl

theorem bind_of_error {e : StdException} (h : p.on s = (.error e, s')) :
    (p >>= f).on s = (.error e, s') := by
  show ExceptT.bindCont f (p.on s).1 (p.on s).2 = _
  rw [h]
  rfl

end Call

/-! ## What a call does -/

/-- The stream `len` bytes further, with what that has done to the memory. -/
def Cursor.moved (s : Cursor) (len : ℕ) (mem : Mem) (touched : List ℕ) : Cursor where
  dataPtr := s.dataPtr + len
  length := s.length - len
  counter := s.counter + len
  mem
  touched := s.touched ++ touched

/-- There is no such advancement. -/
def Cursor.Refuses (s : Cursor) (len : ℕ) : Prop := len = 0 ∨ s.length < len

instance (s : Cursor) (len : ℕ) : Decidable (s.Refuses len) := inferInstanceAs (Decidable (_ ∨ _))

section Spec

variable (host : Endian) {s : Cursor}

/-- What `Advance` throws. -/
def invalidAdvancement : StdException := .lengthError "ByteStream: invalid length advancement"

theorem advance_of_refuses {len : ℕ} (h : s.Refuses len) :
    (advance len).on s = (.error invalidAdvancement, s) := if_pos h

theorem advance_of_not_refuses {len : ℕ} (h : ¬ s.Refuses len) :
    (advance len).on s = (.ok (), s.moved len s.mem []) := by
  refine (if_neg h).trans ?_
  rw [Cursor.moved, List.append_nil]

theorem readPointer_of_refuses {len : ℕ} (h : s.Refuses len) :
    (readPointer len).on s = (.error invalidAdvancement, s) :=
  Call.bind_of_error (p := advance len) (advance_of_refuses h)

theorem readPointer_of_not_refuses {len : ℕ} (h : ¬ s.Refuses len) :
    (readPointer len).on s = (.ok s.dataPtr, s.moved len s.mem []) :=
  Call.bind_of_ok (p := advance len) (advance_of_not_refuses h)

/-- What is read at a pointer that has been passed. -/
theorem load_moved (s : Cursor) (ptr len n : ℕ) :
    (load ptr n).on (s.moved len s.mem []) =
      (.ok (slice s.mem ptr n), s.moved len s.mem (List.range' ptr n)) := by
  show (Except.ok _, Cursor.mk _ _ _ _ _) = _
  rw [Cursor.moved, List.append_nil]
  rfl

theorem readInt_of_refuses {w : Width} (convert : Bool) (h : s.Refuses w.size) :
    (readInt host w convert).on s = (.error invalidAdvancement, s) :=
  Call.bind_of_error (readPointer_of_refuses h)

theorem readInt_of_not_refuses {w : Width} (convert : Bool) (h : ¬ s.Refuses w.size) :
    (readInt host w convert).on s =
      (.ok (if convert then bigToNative host w.size (host.read (slice s.mem s.dataPtr w.size))
        else host.read (slice s.mem s.dataPtr w.size)),
      s.moved w.size s.mem (List.range' s.dataPtr w.size)) :=
  (Call.bind_of_ok (readPointer_of_not_refuses h)).trans
    (Call.bind_of_ok (load_moved s s.dataPtr w.size w.size))

/-- The number of bytes that a call consumes. -/
def InputCall.len : InputCall → ℕ
  | read w _ => w.size
  | readBytes len | skipBytes len => len

/-- What a call returns, from the bytes that are consumed. -/
def InputCall.value (bs : List UInt8) : InputCall → Returned
  | read w convert =>
    .int (if convert then bigToNative host w.size (host.read bs) else host.read bs)
  | readBytes _ => .bytes bs
  | skipBytes _ => .nothing

/-- The addresses that a call reads. -/
def InputCall.touches (ptr : ℕ) : InputCall → List ℕ
  | read w _ => List.range' ptr w.size
  | readBytes len => List.range' ptr len
  | skipBytes _ => []

theorem InputCall.run_of_refuses (c : InputCall) (h : s.Refuses c.len) :
    (c.run host).on s = (.error invalidAdvancement, s) := by
  cases c with
  | read w convert => exact Call.bind_of_error (readInt_of_refuses host convert h)
  | readBytes len => exact Call.bind_of_error (readPointer_of_refuses h)
  | skipBytes len => exact Call.bind_of_error (advance_of_refuses h)

theorem InputCall.run_of_not_refuses (c : InputCall) (h : ¬ s.Refuses c.len) :
    (c.run host).on s = (.ok (c.value host (slice s.mem s.dataPtr c.len)),
      s.moved c.len s.mem (c.touches s.dataPtr)) := by
  cases c with
  | read w convert => exact Call.bind_of_ok (readInt_of_not_refuses host convert h)
  | readBytes len =>
    refine (Call.bind_of_ok (readPointer_of_not_refuses h)).trans ?_
    exact Call.bind_of_ok (load_moved s s.dataPtr len len)
  | skipBytes len => exact Call.bind_of_ok (advance_of_not_refuses h)

theorem writeSource_of_rejected {source : Source} {allowNullData : Bool}
    (h : (source.isNull && !allowNullData) = true) :
    (writeSource source allowNullData).on s =
      (.error (.invalidArgument "OutputByteStream: null data"), s) := by
  rw [writeSource, if_pos h]
  rfl

theorem writeSource_of_lt {source : Source} {allowNullData : Bool}
    (hnull : ¬ (source.isNull && !allowNullData) = true) (hzero : source.len ≠ 0)
    (h : s.length < source.len) :
    (writeSource source allowNullData).on s = (.error invalidAdvancement, s) := by
  rw [writeSource, if_neg hnull, if_neg hzero]
  exact Call.bind_of_error (p := advance source.len) (advance_of_refuses (.inr h))

theorem writeSource_of_refuses {source : Source} {allowNullData : Bool}
    (h : s.Refuses source.len) :
    ∃ e, (writeSource source allowNullData).on s = (.error e, s) := by
  by_cases hnull : (source.isNull && !allowNullData) = true
  · exact ⟨_, writeSource_of_rejected hnull⟩
  by_cases hzero : source.len = 0
  · rw [writeSource, if_neg hnull, if_pos hzero]
    exact ⟨_, rfl⟩
  · exact ⟨_, writeSource_of_lt hnull hzero (h.resolve_left hzero)⟩

theorem writeSource_of_not_refuses {source : Source} {allowNullData : Bool}
    (hnull : ¬ (source.isNull && !allowNullData) = true) (h : ¬ s.Refuses source.len) :
    (writeSource source allowNullData).on s =
      (.ok (), s.moved source.len (store s.mem s.dataPtr source.contents)
        (List.range' s.dataPtr source.contents.length)) := by
  rw [writeSource, if_neg hnull, if_neg fun hzero => h (.inl hzero)]
  refine (Call.bind_of_ok (p := advance source.len) (advance_of_not_refuses h)).trans ?_
  show (Except.ok (), Cursor.mk _ _ _ _ _) = _
  rw [Cursor.moved, List.append_nil]
  rfl

/-- What a call gives to `WriteData`. -/
def OutputCall.source : OutputCall → Source
  | write w v convert =>
    .bytes (host.write w.size (if convert then nativeToBig host w.size v else v))
  | writeData source _ => source
  | skipBytes len => .null len

/-- Whether a call allows a null pointer. -/
def OutputCall.allowsNullData : OutputCall → Bool
  | write .. => false
  | writeData _ allowNullData => allowNullData
  | skipBytes _ => true

theorem OutputCall.run_eq (c : OutputCall) :
    c.run host = writeSource (c.source host) c.allowsNullData := by cases c <;> rfl

theorem Source.length_contents (source : Source) : source.contents.length = source.len := by
  cases source
  · rfl
  · exact List.length_replicate

/-- A call of an output stream throws and leaves the stream, or it puts its bytes behind the pointer. -/
theorem OutputCall.run_cases (c : OutputCall) (s : Cursor) :
    (∃ e, (c.run host).on s = (.error e, s)) ∨
      ¬ s.Refuses (c.source host).len ∧ (c.run host).on s =
        (.ok (), s.moved (c.source host).len (store s.mem s.dataPtr (c.source host).contents)
          (List.range' s.dataPtr (c.source host).len)) := by
  rw [c.run_eq]
  by_cases hnull : ((c.source host).isNull && !c.allowsNullData) = true
  · exact .inl ⟨_, writeSource_of_rejected hnull⟩
  by_cases hrefuses : s.Refuses (c.source host).len
  · exact .inl (writeSource_of_refuses hrefuses)
  · have hrun := writeSource_of_not_refuses hnull hrefuses
    rw [Source.length_contents] at hrun
    exact .inr ⟨hrefuses, hrun⟩

/-- A call of an input stream throws and leaves the stream, or it returns what stands behind the
pointer. -/
theorem InputCall.run_cases (c : InputCall) (s : Cursor) :
    (∃ e, (c.run host).on s = (.error e, s)) ∨
      ¬ s.Refuses c.len ∧ (c.run host).on s = (.ok (c.value host (slice s.mem s.dataPtr c.len)),
        s.moved c.len s.mem (c.touches s.dataPtr)) := by
  by_cases hrefuses : s.Refuses c.len
  · exact .inl ⟨_, c.run_of_refuses host hrefuses⟩
  · exact .inr ⟨hrefuses, c.run_of_not_refuses host hrefuses⟩

theorem InputCall.mem_touches {c : InputCall} {ptr a : ℕ} (h : a ∈ c.touches ptr) :
    ptr ≤ a ∧ a < ptr + c.len := by
  cases c
  · exact List.mem_range'_1.mp h
  · exact List.mem_range'_1.mp h
  · cases h

end Spec

/-! ## The invariant -/

namespace Cursor

/-- A stream over the `n` bytes at `base`, in a memory that was `mem`. -/
structure Over (base n : ℕ) (mem : Mem) (s : Cursor) : Prop where
  dataPtr : s.dataPtr = base + s.counter
  length : s.length + s.counter = n
  touched : ∀ a ∈ s.touched, base ≤ a ∧ a < base + n
  mem : ∀ a, ¬ (base ≤ a ∧ a < base + n) → s.mem a = mem a

/-- A new stream. -/
def start (base n : ℕ) (mem : Mem) : Cursor where
  dataPtr := base
  length := n
  counter := 0
  mem
  touched := []

theorem over_start (base n : ℕ) (mem : Mem) : (start base n mem).Over base n mem where
  dataPtr := rfl
  length := rfl
  touched := by simp [start]
  mem _ _ := rfl

section Over

variable {base n : ℕ} {mem : Mem} {s : Cursor}

theorem Over.data_eq (h : s.Over base n mem) : s.data = base := by
  rw [data, h.dataPtr, Nat.add_sub_cancel]

theorem Over.tellp_eq (h : s.Over base n mem) : s.tellp = s.data + s.counter := by
  rw [h.data_eq]
  exact h.dataPtr

/-- The stream stays over the buffer if nothing but what it passes is touched. -/
theorem Over.moved (h : s.Over base n mem) {len : ℕ} (hlen : ¬ s.Refuses len) {m : Mem}
    {t : List ℕ} (htouched : ∀ a ∈ t, s.dataPtr ≤ a ∧ a < s.dataPtr + len)
    (hmem : ∀ a, ¬ (s.dataPtr ≤ a ∧ a < s.dataPtr + len) → m a = s.mem a) :
    (s.moved len m t).Over base n mem := by
  have hptr := h.dataPtr
  have hlength := h.length
  have hroom : len ≤ s.length := Nat.not_lt.mp fun hlt => hlen (.inr hlt)
  constructor
  · show s.dataPtr + len = base + (s.counter + len)
    omega
  · show s.length - len + (s.counter + len) = n
    omega
  · intro a ha
    rcases List.mem_append.mp ha with hold | hnew
    · exact h.touched a hold
    · have hin := htouched a hnew
      omega
  · intro a ha
    exact (hmem a (by omega)).trans (h.mem a ha)

end Over

end Cursor

section Run

variable (host : Endian)

/-- The state after a call. -/
def InputCall.step (s : Cursor) (c : InputCall) : Cursor := ((c.run host).on s).2

/-- The state after a call. -/
def OutputCall.step (s : Cursor) (c : OutputCall) : Cursor := ((c.run host).on s).2

/-- What a sequence of calls returns or throws. -/
def InputCall.results : Cursor → List InputCall → List (Except StdException Returned)
  | _, [] => []
  | s, c :: calls => ((c.run host).on s).1 :: results (c.step host s) calls

/-- The calls of a sequence that do not throw. -/
def OutputCall.written : Cursor → List OutputCall → List OutputCall
  | _, [] => []
  | s, c :: calls =>
    match ((c.run host).on s).1 with
    | .ok _ => c :: written (c.step host s) calls
    | .error _ => written (c.step host s) calls

/-- The same call of an input stream. -/
def OutputCall.readBack : OutputCall → InputCall
  | write w _ convert => .read w convert
  | writeData source _ => .readBytes source.len
  | skipBytes len => .skipBytes len

/-- What has been written. -/
def OutputCall.value : OutputCall → Returned
  | write _ v _ => .int v
  | writeData source _ => .bytes source.contents
  | skipBytes _ => .nothing

variable {base n : ℕ} {mem : Mem} {s : Cursor}

/-- What is outside of what is stored stays. -/
theorem store_of_not_mem (m : Mem) {off a : ℕ} {bs : List UInt8}
    (h : ¬ (off ≤ a ∧ a < off + bs.length)) : store m off bs a = m a := by
  rcases Nat.lt_or_ge a off with hlt | hle
  · exact store_of_lt m bs hlt
  · exact store_of_le m bs (by omega)

theorem InputCall.over_step (h : s.Over base n mem) (c : InputCall) :
    (c.step host s).Over base n mem := by
  rw [InputCall.step]
  rcases c.run_cases host s with ⟨e, he⟩ | ⟨hlen, hok⟩
  · rw [he]
    exact h
  · rw [hok]
    exact h.moved hlen (fun _ => mem_touches) fun _ _ => rfl

theorem InputCall.mem_step (c : InputCall) (s : Cursor) : (c.step host s).mem = s.mem := by
  rw [InputCall.step]
  rcases c.run_cases host s with ⟨e, he⟩ | ⟨-, hok⟩
  · rw [he]
  · rw [hok]
    rfl

theorem OutputCall.over_step (h : s.Over base n mem) (c : OutputCall) :
    (c.step host s).Over base n mem := by
  rw [OutputCall.step]
  rcases c.run_cases host s with ⟨e, he⟩ | ⟨hlen, hok⟩
  · rw [he]
    exact h
  · rw [hok]
    refine h.moved hlen (fun a ha => List.mem_range'_1.mp ha) fun a ha => ?_
    exact store_of_not_mem _ (by rwa [Source.length_contents])

/-! ## Reading back -/

/-- The bytes of the calls that have not thrown stand one behind the other. -/
theorem OutputCall.slice_exec (h : s.Over base n mem) (calls : List OutputCall) :
    slice (Runs.exec (OutputCall.step host) s calls).mem base
        (Runs.exec (OutputCall.step host) s calls).counter =
      slice s.mem base s.counter ++
        (written host s calls).flatMap fun c => (c.source host).contents := by
  induction calls generalizing s with
  | nil => exact (List.append_nil _).symm
  | cons c calls ih =>
    have hstep := ih (c.over_step host h)
    show slice (Runs.exec (OutputCall.step host) (c.step host s) calls).mem base _ = _
    refine hstep.trans ?_
    rw [written]
    rcases c.run_cases host s with ⟨e, he⟩ | ⟨hlen, hok⟩
    · have hsame : c.step host s = s := congrArg Prod.snd he
      rw [he, hsame]
    · have hmoved := congrArg Prod.snd hok
      rw [hok, List.flatMap_cons, ← List.append_assoc]
      congr 1
      have hptr := h.dataPtr
      rw [show c.step host s = s.moved _ _ _ from hmoved]
      show slice (store s.mem s.dataPtr _) base (s.counter + _) = _
      rw [slice_add, ← hptr, ← Source.length_contents, slice_store_self]
      congr 1
      refine slice_congr fun i hi => ?_
      exact store_of_lt _ _ (by omega)

/-- The calls that have not thrown write something. -/
theorem OutputCall.len_pos_of_mem_written (s : Cursor) {calls : List OutputCall} :
    ∀ c ∈ written host s calls, 0 < (c.source host).len := by
  induction calls generalizing s with
  | nil => exact List.forall_mem_nil _
  | cons c calls ih =>
    rw [written]
    rcases c.run_cases host s with ⟨e, he⟩ | ⟨hlen, hok⟩
    · rw [he]
      exact ih _
    · rw [hok]
      exact List.forall_mem_cons.mpr ⟨Nat.pos_of_ne_zero fun hzero => hlen (.inl hzero), ih _⟩

theorem OutputCall.len_readBack (c : OutputCall) : c.readBack.len = (c.source host).len := by
  cases c with
  | write w v convert => exact (host.length_write w.size _).symm
  | writeData source _ => rfl
  | skipBytes len => rfl

/-- A call reads the value that has been written. -/
theorem OutputCall.value_readBack (c : OutputCall) :
    c.readBack.value host (c.source host).contents = c.value := by
  cases c with
  | write w v convert =>
    show Returned.int (if convert then bigToNative host w.size (host.read (host.write w.size _))
      else host.read (host.write w.size _)) = .int v
    cases convert
    · exact congrArg Returned.int (host.read_write v.isLt)
    · have hbig := bigToNative_nativeToBig host v.isLt
      rw [if_pos rfl, if_pos rfl, host.write_nativeToBig]
      exact congrArg Returned.int hbig
  | writeData source _ => rfl
  | skipBytes len => rfl

/-- Calls that find the bytes of writing calls return what has been written. -/
theorem InputCall.results_readBack {calls : List OutputCall}
    (hpos : ∀ c ∈ calls, 0 < (c.source host).len) (rest : List UInt8)
    (hholds : slice s.mem s.dataPtr s.length =
      (calls.flatMap fun c => (c.source host).contents) ++ rest) :
    results host s (calls.map OutputCall.readBack) = calls.map fun c => .ok c.value := by
  induction calls generalizing s with
  | nil => rfl
  | cons c calls ih =>
    rw [List.forall_mem_cons] at hpos
    rw [List.flatMap_cons, List.append_assoc] at hholds
    have hroom : (c.source host).len ≤ s.length := by
      have hlen := congrArg List.length hholds
      rw [length_slice, List.length_append, Source.length_contents] at hlen
      omega
    obtain ⟨k, hk⟩ := Nat.exists_eq_add_of_le hroom
    rw [hk, slice_add] at hholds
    obtain ⟨hfront, hback⟩ := List.append_inj hholds
      ((length_slice ..).trans (Source.length_contents _).symm)
    have hnot : ¬ s.Refuses c.readBack.len := by
      rw [c.len_readBack host, Cursor.Refuses]
      omega
    have hrun := c.readBack.run_of_not_refuses host hnot
    rw [c.len_readBack host, hfront, c.value_readBack] at hrun
    rw [List.map_cons, List.map_cons, results, InputCall.step, hrun]
    refine congrArg _ (ih hpos.2 ?_)
    show slice s.mem (s.dataPtr + _) (s.length - _) = _
    rwa [hk, Nat.add_sub_cancel_left]

/-! ## The streams of bytes -/

/-- The bytes-level view of an input stream. -/
def Cursor.input (s : Cursor) : InputByteStream := ⟨s.size, slice s.mem s.dataPtr s.length⟩

/-- The bytes-level view of an output stream. -/
def Cursor.output (s : Cursor) : OutputByteStream :=
  ⟨slice s.mem s.data s.counter, s.length⟩

/-- `readBytes` does on the bytes what `ReadBytes` does with the pointers. -/
theorem readBytes_input (s : Cursor) (len : ℕ) :
    readBytes len s.input = match ((InputCall.readBytes len).run host).on s with
      | (.ok _, s') => .ok (slice s.mem s.dataPtr len, s'.input)
      | (.error e, _) => .error e := by
  have hlen : s.input.rest.length = s.length := length_slice ..
  by_cases hrefuses : s.Refuses len
  · rw [InputCall.run_of_refuses host (.readBytes len) hrefuses, readBytes, hlen]
    exact if_pos hrefuses
  · rw [InputCall.run_of_not_refuses host (.readBytes len) hrefuses, readBytes, hlen,
      if_neg (show ¬ (len = 0 ∨ s.length < len) from hrefuses)]
    obtain ⟨k, hk⟩ := Nat.exists_eq_add_of_le (Nat.not_lt.mp fun hlt => hrefuses (.inr hlt))
    have hsplit : s.input.rest = slice s.mem s.dataPtr len ++ slice s.mem (s.dataPtr + len) k := by
      rw [← slice_add, ← hk]
      rfl
    rw [hsplit, List.take_left' (length_slice ..), List.drop_left' (length_slice ..)]
    refine congrArg (fun s' => Except.ok (slice s.mem s.dataPtr len, s')) ?_
    show InputByteStream.mk (s.length + s.counter) _ =
      InputByteStream.mk (s.length - len + (s.counter + len)) (slice s.mem _ (s.length - len))
    rw [hk, Nat.add_sub_cancel_left]
    congr 1
    omega

/-- `writeData` does on the bytes what `WriteData` does with the pointers. -/
theorem writeData_output (h : s.Over base n mem) {bs : List UInt8} (hbs : bs ≠ []) :
    writeData bs s.output = match (writeSource (.bytes bs) false).on s with
      | (.ok (), s') => .ok ((), s'.output)
      | (.error e, _) => .error e := by
  have hpos : 0 < bs.length := List.length_pos_of_ne_nil hbs
  have hnull : ¬ ((Source.bytes bs).isNull && !false) = true := Bool.false_ne_true
  have hroom : s.output.length = s.length := rfl
  by_cases hlt : s.length < bs.length
  · rw [writeData, if_neg hpos.ne', hroom, if_pos hlt, writeSource_of_lt hnull hpos.ne' hlt]
    rfl
  · have hnot : ¬ s.Refuses (Source.bytes bs).len := not_or.mpr ⟨hpos.ne', hlt⟩
    rw [writeData, if_neg hpos.ne', hroom, if_neg hlt, writeSource_of_not_refuses hnull hnot]
    refine congrArg (fun s' => Except.ok ((), s')) ?_
    have hdata := h.data_eq
    have hptr := h.dataPtr
    have hmoved := (h.moved hnot (m := store s.mem s.dataPtr bs)
      (t := List.range' s.dataPtr bs.length) (fun a ha => List.mem_range'_1.mp ha)
      fun a ha => store_of_not_mem _ ha).data_eq
    show OutputByteStream.mk (slice s.mem s.data s.counter ++ bs) (s.length - bs.length) =
      OutputByteStream.mk (slice (store s.mem s.dataPtr bs) _ (s.counter + bs.length)) _
    rw [show Source.contents (.bytes bs) = bs from rfl, hmoved, hdata, slice_add, ← hptr,
      slice_store_self]
    congr 2
    exact (slice_congr fun i hi => store_of_lt _ _ (by omega)).symm

end Run

/-! ## All calls -/

/-- What does not change of a stream over the `n` bytes at `base`, in a memory that was `mem`. -/
structure Cursor.Lawful (base n : ℕ) (mem : Mem) (s : Cursor) : Prop where
  data : s.data = base
  size : s.size = n
  data_le : s.data ≤ s.tellp
  tellp : s.tellp - s.data + s.gcount = n
  touched : ∀ a ∈ s.touched, base ≤ a ∧ a < base + n
  mem : ∀ a, ¬ (base ≤ a ∧ a < base + n) → s.mem a = mem a

theorem Cursor.Over.lawful {base n : ℕ} {mem : Mem} {s : Cursor} (h : s.Over base n mem) :
    s.Lawful base n mem where
  data := h.data_eq
  size := h.length
  data_le := h.tellp_eq ▸ Nat.le_add_right ..
  tellp := by
    rw [h.tellp_eq, Nat.add_sub_cancel_left, Nat.add_comm]
    exact h.length
  touched := h.touched
  mem := h.mem

/-- Along every sequence of calls a stream stays over its buffer, a call that throws changes nothing, and
what has been written is read back. -/
theorem stream_invariant (host : Endian) (base : ℕ) {n : ℕ} (hn : 0 < n) (mem : Mem) :
    Cursor.ofBuffer (some base) n mem = .ok (Cursor.start base n mem) ∧
    (∀ calls : List InputCall,
      let s := Runs.exec (InputCall.step host) (Cursor.start base n mem) calls
      s.Lawful base n mem ∧ s.mem = mem ∧
        ∀ c : InputCall, ∀ e, ((c.run host).on s).1 = .error e → ((c.run host).on s).2 = s) ∧
    (∀ calls : List OutputCall,
      let s := Runs.exec (OutputCall.step host) (Cursor.start base n mem) calls
      let written := OutputCall.written host (Cursor.start base n mem) calls
      s.Lawful base n mem ∧
        (∀ c : OutputCall, ∀ e, ((c.run host).on s).1 = .error e → ((c.run host).on s).2 = s) ∧
        InputCall.results host (Cursor.start base n s.mem) (written.map OutputCall.readBack) =
          written.map fun c => .ok c.value) := by
  have hstart := Cursor.over_start base n mem
  refine ⟨if_neg hn.ne', fun calls => ⟨?_, ?_, ?_⟩, fun calls => ⟨?_, ?_, ?_⟩⟩
  · exact (Runs.invariant_exec (I := Cursor.Over base n mem)
      (fun s c h => InputCall.over_step host h c) hstart calls).lawful
  · exact Runs.invariant_exec (I := fun s : Cursor => s.mem = mem) (s := Cursor.start base n mem)
      (fun s c h => (InputCall.mem_step host c s).trans h) rfl calls
  · intro c e he
    rcases c.run_cases host _ with ⟨e', hthrow⟩ | ⟨-, hok⟩
    · rw [hthrow]
    · rw [hok] at he
      cases he
  · exact (Runs.invariant_exec (I := Cursor.Over base n mem)
      (fun s c h => OutputCall.over_step host h c) hstart calls).lawful
  · intro c e he
    rcases c.run_cases host _ with ⟨e', hthrow⟩ | ⟨-, hok⟩
    · rw [hthrow]
    · rw [hok] at he
      cases he
  · have hover := Runs.invariant_exec (I := Cursor.Over base n mem)
      (fun s c h => OutputCall.over_step host h c) hstart calls
    have hslice := OutputCall.slice_exec host hstart calls
    set s := Runs.exec (OutputCall.step host) (Cursor.start base n mem) calls
    refine InputCall.results_readBack host (OutputCall.len_pos_of_mem_written host _)
      (slice s.mem (base + s.counter) s.length) ?_
    rw [show slice (Cursor.start base n mem).mem base (Cursor.start base n mem).counter = [] from rfl,
      List.nil_append] at hslice
    rw [← hslice]
    show slice _ base n = _
    rw [← hover.length, Nat.add_comm, slice_add]
    rfl

/-- Two integers, a byte that is skipped and one that does not fit, in four bytes. -/
def exampleCalls : List OutputCall :=
  [.write .bits16 ⟨0x1234, by decide⟩ true, .skipBytes 1, .write .bits16 ⟨5, by decide⟩ true,
    .write .bits8 ⟨255, by decide⟩ false]

theorem stream_invariant_exampleCalls :
    InputCall.results .little (Cursor.start 1000 4
      (Runs.exec (OutputCall.step .little) (Cursor.start 1000 4 fun _ => 7) exampleCalls).mem)
        [.read .bits16 true, .skipBytes 1, .read .bits8 false] =
      [.ok (.int 0x1234), .ok .nothing, .ok (.int 255)] :=
  ((stream_invariant .little 1000 (n := 4) (by decide) fun _ => 7).2.2 exampleCalls).2.2

end ByteStream
