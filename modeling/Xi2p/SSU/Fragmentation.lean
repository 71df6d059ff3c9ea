import Xi2p.SSU.Data

/-!
# Fragments of a message

The pieces into which `Send` cuts a message, and what `ProcessFragments` reads of the datagram that
carries one of them.

* `fragmentsOf_eq`: the fragments carry the pieces in order, the last one flagged.
* `acceptedFragments_of_carries`: the peer reads back message ID, number, flag and data.
-/

namespace SSU

open Bytes I2NP

/-! ## Pieces -/

/-- The bytes of a message, cut into pieces of `size` bytes. -/
def pieces (size : ℕ) : ℕ → List UInt8 → List (List UInt8)
  | 0, _ => []
  | rounds + 1, bytes =>
    if bytes.length = 0 then []
    else if bytes.length ≤ size then [bytes]
    else bytes.take size :: pieces size rounds (bytes.drop size)

theorem pieces_ne_nil {size rounds : ℕ} {bytes : List UInt8} (hbytes : 0 < bytes.length)
    (hrounds : bytes.length ≤ rounds) : pieces size rounds bytes ≠ [] := by
  obtain ⟨r, rfl⟩ : ∃ r, rounds = r + 1 := ⟨rounds - 1, by omega⟩
  rw [pieces, if_neg (by omega)]
  split <;> simp

/-- The pieces are the message. -/
theorem flatten_pieces {size rounds : ℕ} (hsize : 0 < size) {bytes : List UInt8}
    (hrounds : bytes.length ≤ rounds) : (pieces size rounds bytes).flatten = bytes := by
  induction rounds generalizing bytes with
  | zero =>
    have hnil : bytes = [] := List.length_eq_zero_iff.mp (by omega)
    simp [pieces, hnil]
  | succ rounds ih =>
    rw [pieces]
    split
    next h0 => simp [List.length_eq_zero_iff.mp h0]
    next =>
      split
      next => simp
      next =>
        have hdrop : (bytes.drop size).length ≤ rounds := by
          rw [List.length_drop]
          omega
        rw [List.flatten_cons, ih hdrop, List.take_append_drop]

theorem length_le_of_mem_pieces {size rounds : ℕ} {bytes piece : List UInt8}
    (h : piece ∈ pieces size rounds bytes) : piece.length ≤ size := by
  induction rounds generalizing bytes with
  | zero => simp [pieces] at h
  | succ rounds ih =>
    rw [pieces] at h
    split at h
    · simp at h
    · split at h
      next hle =>
        rw [List.mem_singleton.mp h]
        exact hle
      next =>
        rcases List.mem_cons.mp h with rfl | h
        · rw [List.length_take]
          exact min_le_left _ _
        · exact ih h

/-- The loop of `Send` makes a fragment of every piece; the last one is flagged. -/
theorem splitFragments_eq (msgID : UInt32) {size rounds : ℕ} (hsize : 0 < size)
    {bytes : List UInt8} (hrounds : bytes.length ≤ rounds) (fragmentNum : ℕ) :
    splitFragments msgID size rounds fragmentNum bytes =
      (pieces size rounds bytes).mapIdx fun i data =>
        makeFragment msgID (fragmentNum + i)
          (decide (i + 1 = (pieces size rounds bytes).length)) data := by
  induction rounds generalizing bytes fragmentNum with
  | zero => rfl
  | succ rounds ih =>
    rw [splitFragments, pieces]
    split
    next => rfl
    next hpos =>
      split
      next => rfl
      next hgt =>
        have hdrop : (bytes.drop size).length ≤ rounds := by
          rw [List.length_drop]
          omega
        have hmore : (pieces size rounds (bytes.drop size)).length ≠ 0 := by
          rw [Ne, List.length_eq_zero_iff]
          apply pieces_ne_nil _ hdrop
          rw [List.length_drop]
          omega
        rw [List.mapIdx_cons, ih hdrop (fragmentNum + 1)]
        have hfirst : decide (0 + 1 = (List.take size bytes ::
            pieces size rounds (bytes.drop size)).length) = false := by
          simpa using hmore
        rw [hfirst]
        congr 1
        apply List.mapIdx_eq_mapIdx_iff.mpr
        intro i hi
        rw [show fragmentNum + 1 + i = fragmentNum + (i + 1) by omega, List.length_cons]
        simp

namespace SSUData

/-- The pieces of a message. -/
def piecesOf (d : SSUData) (msg : I2NPMessage) : List (List UInt8) :=
  pieces d.payloadSize msg.ssuBytes.length msg.ssuBytes

variable {d : SSUData} {msg : I2NPMessage}

theorem payloadSize_eq (hlow : headerMin + 9 < d.packetSize) (hhigh : d.packetSize ≤ packetMaxIPv4) :
    d.payloadSize = d.packetSize - headerMin - 9 := by
  unfold payloadSize
  simp only [headerMin, packetMaxIPv4] at *
  omega

theorem fragmentsOf_eq (hpayload : 0 < d.payloadSize) :
    d.fragmentsOf msg = (d.piecesOf msg).mapIdx fun i data =>
      makeFragment msg.getMsgID i (decide (i + 1 = (d.piecesOf msg).length)) data := by
  have hbytes := msg.slice_toSSU
  unfold fragmentsOf piecesOf
  dsimp only
  rw [hbytes, splitFragments_eq _ hpayload le_rfl]
  simp only [Nat.zero_add]
  rfl

theorem flatten_piecesOf (hpayload : 0 < d.payloadSize) :
    (d.piecesOf msg).flatten = msg.ssuBytes :=
  flatten_pieces hpayload le_rfl

theorem piecesOf_ne_nil : d.piecesOf msg ≠ [] := by
  apply pieces_ne_nil _ le_rfl
  simp [I2NPMessage.ssuBytes]

end SSUData

/-! ## Fragment headers -/

/-- The headers of the fragments that `ProcessFragments` goes through. -/
def acceptedFragments (m : Mem) : ℕ → ℕ → List FragmentHeader
  | 0, _ => []
  | n + 1, pos =>
    let f := readFragmentHeader m pos
    if f.size ≥ packetMaxIPv4 then [] else f :: acceptedFragments m n (f.pos + f.size)

theorem processFragmentsFrom_eq_foldl (env : DataEnv) (now : UInt32) (m : Mem) (n pos : ℕ)
    (d : SSUData) :
    d.processFragmentsFrom env now m n pos =
      (acceptedFragments m n pos).foldl (fun d f => d.processFragment env now m f) d := by
  induction n generalizing pos d with
  | zero => rfl
  | succ n ih =>
    rw [SSUData.processFragmentsFrom, acceptedFragments]
    split
    · rfl
    · rw [ih, List.foldl_cons]

/-- The header `f` describes a piece of `ps`, and the piece stands behind it in `m`. -/
structure IsPiece (msgID : UInt32) (ps : List (List UInt8)) (m : Mem) (f : FragmentHeader) :
    Prop where
  msgID_eq : f.msgID = msgID
  lt_length : f.fragmentNum < ps.length
  isLast_eq : f.isLast = decide (f.fragmentNum + 1 = ps.length)
  size_eq : f.size = ps[f.fragmentNum].length
  data_eq : slice m f.pos f.size = ps[f.fragmentNum]

theorem fragmentInfo_eq {num size : ℕ} (hsize : size < 2 ^ 14) (isLast : Bool) :
    fragmentInfo num isLast size = num * 2 ^ 17 + (if isLast then 2 ^ 16 else 0) + size := by
  have hflag : num <<< 17 ||| (if isLast then 0x010000 else 0) =
      num * 2 ^ 17 + (if isLast then 2 ^ 16 else 0) := by
    rw [← Nat.shiftLeft_add_eq_or_of_lt (by cases isLast <;> decide), Nat.shiftLeft_eq]
    cases isLast <;> rfl
  unfold fragmentInfo
  rw [hflag]
  -- all bits of the number and the flag lie above the size
  have hsplit : num * 2 ^ 17 + (if isLast then 2 ^ 16 else 0) =
      (num * 2 ^ 3 + (if isLast then 2 ^ 2 else 0)) <<< 14 := by
    rw [Nat.shiftLeft_eq]
    cases isLast <;> simp <;> ring
  rw [hsplit, Nat.shiftLeft_add_eq_or_of_lt hsize]

theorem testBit_16_of_lt {num size : ℕ} (hsize : size < 2 ^ 14) (isLast : Bool) :
    (num * 2 ^ 17 + (if isLast then 2 ^ 16 else 0) + size).testBit 16 = isLast := by
  rw [Nat.testBit_eq_decide_div_mod_eq]
  cases isLast
  · simp
    omega
  · simp
    omega

/-- The header of a fragment that `Send` has built reads back. -/
theorem readFragmentHeader_of_standsAt {m : Mem} {pos num : ℕ} {msgID : UInt32} {isLast : Bool}
    {data : List UInt8} (hnum : num < 128) (hsize : data.length < 2 ^ 14)
    (h : StandsAt m pos
      (writeU32 msgID ++ (writeBE 3 (fragmentInfo num isLast data.length) ++ data))) :
    readFragmentHeader m pos =
        { msgID, size := data.length, isLast, fragmentNum := num, pos := pos + 7 } ∧
      slice m (pos + 7) data.length = data := by
  rw [standsAt_append, standsAt_append, length_writeU32, length_writeBE] at h
  obtain ⟨hid, hinfo, hdata⟩ := h
  have hvalue : fragmentInfo num isLast data.length =
      num * 2 ^ 17 + (if isLast then 2 ^ 16 else 0) + data.length :=
    fragmentInfo_eq hsize isLast
  have hlt : fragmentInfo num isLast data.length < 256 ^ 3 := by
    rw [hvalue]
    cases isLast <;> simp <;> omega
  have hread : readBE (slice m (pos + 4) 3) =
      num * 2 ^ 17 + (if isLast then 2 ^ 16 else 0) + data.length := by
    rw [hinfo.readBE_eq, Nat.mod_eq_of_lt hlt, hvalue]
  refine ⟨?_, hdata⟩
  unfold readFragmentHeader
  dsimp only
  rw [hread, hid.readU32_eq, testBit_16_of_lt hsize]
  congr 1
  · rw [show (0x3FFF : ℕ) = 2 ^ 14 - 1 from rfl, Nat.and_two_pow_sub_one_eq_mod]
    cases isLast <;> simp <;> omega
  · rw [Nat.shiftRight_eq_div_pow]
    cases isLast <;> simp <;> omega

/-! ## Datagrams -/

/-- A call of `ProcessFragments`. -/
structure Call where
  /-- `GetSecondsSinceEpoch()`. -/
  now : UInt32
  /-- The decrypted datagram. -/
  buf : Mem
  /-- The position of `buf` in it. -/
  pos : ℕ

/-- The headers of the fragments of a call. -/
def Call.fragments (c : Call) : List FragmentHeader :=
  acceptedFragments c.buf (c.buf c.pos).toNat (c.pos + 1)

/-- The call is made with the fragments of the datagram `g`, which stand behind its flag. -/
def Call.Carries (c : Call) (g : Datagram) : Prop :=
  slice c.buf c.pos (g.len - (headerMin + 1)) = slice g.buf (headerMin + 1) (g.len - (headerMin + 1))

/-- `ProcessFragments`. -/
def SSUData.receive (env : DataEnv) (d : SSUData) (c : Call) : SSUData :=
  d.processFragments env c.now c.buf c.pos

theorem SSUData.receive_eq_foldl (env : DataEnv) (d : SSUData) (c : Call) :
    d.receive env c = c.fragments.foldl (fun d f => d.processFragment env c.now c.buf f) d :=
  processFragmentsFrom_eq_foldl env c.now c.buf _ _ d

/-- The datagram of a fragment. -/
def Fragment.datagram (f : Fragment) : Datagram := ⟨f.buffer, f.len⟩

theorem le_padTo16 (size : ℕ) : size ≤ padTo16 size := by
  unfold padTo16
  split <;> omega

theorem SSUData.datagrams_foldl_sendDatagram (fragments : List Fragment) (d : SSUData) :
    (fragments.foldl (fun d f => d.sendDatagram f.datagram) d).datagrams =
      d.datagrams ++ fragments.map Fragment.datagram := by
  induction fragments generalizing d with
  | nil => simp
  | cons f fragments ih =>
    rw [List.foldl_cons, ih]
    simp [sendDatagram]

/-- `Send` sends every fragment of a message that it has not sent before. -/
theorem SSUData.datagrams_send (now : UInt32) (d : SSUData) (msg : I2NPMessage) :
    (d.send now msg).datagrams = d.datagrams ∨
      (d.send now msg).datagrams = d.datagrams ++ (d.fragmentsOf msg).map Fragment.datagram := by
  unfold send
  dsimp only
  split
  · exact Or.inl rfl
  · right
    refine (datagrams_foldl_sendDatagram (d.fragmentsOf msg) _).trans ?_
    dsimp only
    split <;> rfl

/-- A call with a fragment that `Send` has built reads this fragment and nothing else. -/
theorem fragments_of_carries {c : Call} {num : ℕ} {msgID : UInt32} {isLast : Bool}
    {data : List UInt8} (hnum : num < 128) (hsize : data.length < packetMaxIPv4)
    (h : c.Carries (makeFragment msgID num isLast data).datagram) :
    c.fragments = [{ msgID, size := data.length, isLast, fragmentNum := num, pos := c.pos + 8 }] ∧
      slice c.buf (c.pos + 8) data.length = data := by
  have hbytes : StandsAt c.buf c.pos (fragmentSection msgID num isLast data) := by
    have hbuilt : StandsAt (makeFragment msgID num isLast data).buffer (headerMin + 1)
        (fragmentSection msgID num isLast data) :=
      (standsAt_cons.mp (standsAt_store _ _ _)).2
    refine Eq.trans (slice_congr fun i hi => ?_) hbuilt
    have hlen : (fragmentSection msgID num isLast data).length = data.length + 8 := by
      simp only [fragmentSection, List.length_cons, List.length_append, length_writeU32,
        length_writeBE]
      omega
    have hpad := le_padTo16 (headerMin + 9 + data.length)
    apply apply_eq_of_slice_eq h
    simp only [Fragment.datagram, makeFragment, headerMin] at *
    omega
  rw [fragmentSection, standsAt_cons] at hbytes
  obtain ⟨hone, hrest⟩ := hbytes
  obtain ⟨hheader, hdata⟩ :=
    readFragmentHeader_of_standsAt hnum (hsize.trans (by decide)) hrest
  refine ⟨?_, hdata⟩
  unfold Call.fragments
  rw [hone, show (1 : UInt8).toNat = 0 + 1 from rfl, acceptedFragments, hheader]
  rw [if_neg (by simpa using hsize)]
  rfl

end SSU
