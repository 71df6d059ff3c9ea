import Mathlib.Data.List.GetD
import Xi2p.NTCP.Transmission

/-!
# The bounds of NTCP frames

A frame is written in place: the size in front of the message, padding and checksum behind it. A buffer
has 16 bytes more than its nominal size, which is enough for a message whose frame starts on a boundary
of 16 bytes; another one may come out up to three bytes longer. The receiver chooses the buffer by the
size in the first block.

* `I2NPMessage.frameWrites`: the parts of a buffer that `CreateMsgBuffer` writes.
* `Receiving`: what holds of a message that is being received.
* `frame_bounds_iff`: when a frame fits on both sides.
-/

namespace NTCP

open Bytes I2NP CBC

/-! ## Sending -/

/-- The parts of the buffer that `CreateMsgBuffer` writes: the size, the padding, the checksum, and what
is encrypted in place. -/
def frameWrites (m : I2NPMessage) : List (ℕ × ℕ) :=
  let pos := m.offset - phase3AliceRI
  let len := m.getLength
  let written := [(pos, phase3AliceRI)]
  let written :=
    if padding len ≠ 0 then written ++ [(pos + len + phase3AliceTS, padding len)] else written
  written ++ [(pos + len + phase3AliceRI + padding len, adler32Size), (pos, len + padding len + 6)]

/-- A buffer of one of the two sizes. -/
structure IsBuffer (m : I2NPMessage) : Prop where
  maxLen : m.maxLen = maxShortMessageSize ∨ m.maxLen = maxMessageSize
  capacity : m.capacity = m.maxLen + 16

/-- The frame stays inside of the buffer. -/
def FrameFits (m : I2NPMessage) : Prop := ∀ w ∈ frameWrites m, w.1 + w.2 ≤ m.capacity

/-- A frame ends with what is encrypted. -/
theorem frameFits_iff (m : I2NPMessage) :
    FrameFits m ↔ m.offset - 2 + (m.getLength + padding m.getLength + 6) ≤ m.capacity := by
  rw [FrameFits, frameWrites]
  constructor
  · intro h
    exact h (_, _) (List.mem_append_right _ (List.mem_cons_of_mem _ List.mem_cons_self))
  · intro h w hw
    rcases List.mem_append.mp hw with hfront | hback
    · split at hfront
      · simp only [List.cons_append, List.nil_append, List.mem_cons, List.not_mem_nil, or_false] at hfront
        rcases hfront with rfl | rfl <;> simp only [phase3AliceRI, phase3AliceTS] <;> omega
      · obtain rfl := List.mem_singleton.mp hfront
        simp only [phase3AliceRI]
        omega
    · simp only [List.mem_cons, List.not_mem_nil, or_false] at hback
      rcases hback with rfl | rfl <;> simp only [phase3AliceRI, adler32Size] <;> omega

/-- What a frame needs of the buffer. -/
theorem frameFits_iff_room {m : I2NPMessage} (hbuffer : IsBuffer m) (hoffset : 2 ≤ m.offset)
    (hle : m.offset ≤ m.len) (hlen : m.len ≤ m.maxLen) :
    FrameFits m ↔ (m.offset - 2) % 16 = 0 ∨ m.len + 4 ≤ m.maxLen + (m.offset - 2) % 16 := by
  have hmod := padded_mod m.getLength
  have hlt := padding_lt m.getLength
  have hlength : m.getLength = m.len - m.offset := rfl
  rw [frameFits_iff, hbuffer.capacity]
  simp only [ivSize] at hmod hlt
  rcases hbuffer.maxLen with hmax | hmax
  · simp only [maxShortMessageSize] at hmax
    omega
  · simp only [maxMessageSize] at hmax
    omega

namespace NTCPSession

variable {env : PayloadEnv} {s : NTCPSession}

theorem store_of_not_inside (m : Mem) {off i n : ℕ} {bs : List UInt8} (hn : bs.length = n)
    (h : ¬ (off ≤ i ∧ i < off + n)) : store m off bs i = m i := by
  subst hn
  rcases Nat.lt_or_ge i off with hlt | hge
  · exact store_of_lt m bs hlt
  · exact store_of_le m bs (by omega)

/-- Nothing else is written. -/
theorem buf_createMsgBuffer (address i : ℕ)
    (h : ∀ w ∈ frameWrites (s.heap address), ¬ (w.1 ≤ i ∧ i < w.1 + w.2)) :
    ((s.createMsgBuffer env (some address)).1.heap address).buf i = (s.heap address).buf i := by
  set msg := s.heap address with hmsg
  set pos := msg.offset - phase3AliceRI with hpos
  set len := msg.getLength with hlen
  have hall : ¬ (pos ≤ i ∧ i < pos + (len + padding len + 6)) :=
    h (_, _) (List.mem_append_right _ (List.mem_cons_of_mem _ List.mem_cons_self))
  have hmod : (len + padding len + 6) % ivSize = 0 := padded_mod len
  show ((Function.update s.heap address _) address).buf i = _
  rw [Function.update_self]
  show store (addChecksum env s.prepared (store msg.buf pos (writeBE 2 len)) pos len) pos
    (bytesOf (s.encryption.encrypt (blocksAt (addChecksum env s.prepared
      (store msg.buf pos (writeBE 2 len)) pos len) pos ((len + padding len + 6) / ivSize))).1) i =
    msg.buf i
  rw [store_of_not_inside _ (n := len + padding len + 6) ?_ hall]
  · rw [addChecksum, store_of_not_inside _ (n := 4) (length_writeU32 _) ?_]
    · split
      · rw [store_of_not_inside _ (n := padding len) (length_slice ..) ?_,
          store_of_not_inside _ (n := 2) (length_writeBE 2 _) ?_]
        · omega
        · simp only [phase3AliceTS]
          omega
      · rw [store_of_not_inside _ (n := 2) (length_writeBE 2 _) ?_]
        omega
    · simp only [phase3AliceRI]
      omega
  · rw [length_bytesOf, Encryption.length_encrypt, length_blocksAt,
      Nat.mul_div_cancel' (Nat.dvd_of_mod_eq_zero hmod)]

/-- The first block of a frame. -/
def firstBlock (env : PayloadEnv) (s : NTCPSession) (address : ℕ) : Block ivSize :=
  let (s', region) := s.createMsgBuffer env (some address)
  Block.ofMem (s'.heap address).buf region.pos

/-- A receiver that is between two frames accepts the first block of the frame. -/
def PeerAccepts (env : PayloadEnv) (s : NTCPSession) (address : ℕ) : Prop :=
  ∀ r : NTCPSession, r.nextMessage = none → InSync s.encryption r.decryption →
    (r.decryptNextBlock env (s.firstBlock env address)).2 = true

/-- The first block is the encryption of one that starts with the size. -/
theorem exists_firstBlock (address : ℕ) :
    ∃ plain : Block ivSize, plain.bytes.take 2 = writeBE 2 (s.heap address).getLength ∧
      s.firstBlock env address = (s.encryption.encryptBlock plain).1 := by
  set msg := s.heap address with hmsg
  set pos := msg.offset - phase3AliceRI with hpos
  set len := msg.getLength with hlen
  set plain := addChecksum env s.prepared (store msg.buf pos (writeBE 2 len)) pos len with hplain
  have hmod : (len + padding len + 6) % ivSize = 0 := padded_mod len
  obtain ⟨count, hcount⟩ : ∃ count, (len + padding len + 6) / ivSize = count + 1 := by
    refine Nat.exists_eq_succ_of_ne_zero ?_
    simp only [ivSize] at hmod ⊢
    omega
  refine ⟨Block.ofMem plain pos, ?_, ?_⟩
  · obtain ⟨pad, -, hslice⟩ :=
      slice_addChecksum env s.prepared (store msg.buf pos (writeBE 2 len)) pos len
    have htake (k : ℕ) : (slice plain pos (2 + k)).take 2 = slice plain pos 2 := by
      rw [slice_add]
      exact List.take_left' (length_slice ..)
    have hfront : slice (store msg.buf pos (writeBE 2 len)) pos 2 = writeBE 2 len := by
      have hself := slice_store_self msg.buf pos (writeBE 2 len)
      rwa [length_writeBE] at hself
    have hsize := congrArg (List.take 2) hslice
    rw [show len + padding len + 6 = 2 + (len + padding len + 4) by omega, htake,
      show len + 2 = 2 + len from Nat.add_comm .., slice_add, hfront, List.append_assoc,
      List.append_assoc, List.append_assoc, List.take_left' (length_writeBE 2 len)] at hsize
    exact (htake 14).trans hsize
  · show Block.ofMem ((Function.update s.heap address _) address).buf pos = _
    rw [Function.update_self]
    show Block.ofMem (store plain pos (bytesOf (s.encryption.encrypt
      (blocksAt plain pos ((len + padding len + 6) / ivSize))).1)) pos = _
    rw [hcount, blocksAt, Encryption.encrypt]
    dsimp only
    rw [bytesOf_cons]
    ext1
    rw [Block.bytes_ofMem]
    have hfirst := slice_store_self plain pos ((s.encryption.encryptBlock (Block.ofMem plain pos)).1.bytes)
    rw [Block.length_bytes] at hfirst
    refine Eq.trans (slice_congr fun i hi => ?_) hfirst
    have hsixteen := Block.length_bytes (s.encryption.encryptBlock (Block.ofMem plain pos)).1
    rw [store, store, if_pos (Nat.le_add_right pos i), if_pos (Nat.le_add_right pos i)]
    exact List.getD_append _ _ _ _ (by omega)

/-- The size field is accepted unless it is too large. -/
theorem peerAccepts_iff {address : ℕ} (hlt : (s.heap address).getLength < 2 ^ 16) :
    PeerAccepts env s address ↔ (s.heap address).getLength ≤ maxMessage := by
  obtain ⟨plain, hplain, hfirst⟩ := @exists_firstBlock env s address
  have hsize : readBE (plain.bytes.take 2) = (s.heap address).getLength := by
    rw [hplain, readBE_writeBE]
    exact Nat.mod_eq_of_lt hlt
  have htake {r : NTCPSession} (hnone : r.nextMessage = none)
      (hsync : InSync s.encryption r.decryption) :
      (r.decryptNextBlock env (s.firstBlock env address)).2 =
        decide ((s.heap address).getLength ≤ maxMessage) := by
    rw [hfirst, decryptNextBlock]
    dsimp only
    rw [(hsync.decryptBlock plain).1, takeBlock]
    dsimp only
    rw [hnone]
    dsimp only
    rw [hsize]
    split
    · split
      next hmore => exact (decide_eq_false (Nat.not_le.mpr hmore)).symm
      next hle => exact (decide_eq_true (Nat.not_lt.mp hle)).symm
    next hzero =>
      refine (decide_eq_true ?_).symm
      rw [not_not.mp hzero]
      exact Nat.zero_le _
  constructor
  · intro h
    have hself := h { s with
      decryption := ⟨s.encryption.cipher, s.encryption.last⟩
      nextMessage := none } rfl ⟨rfl, rfl⟩
    rw [htake rfl ⟨rfl, rfl⟩] at hself
    exact of_decide_eq_true hself
  · intro hle r hnone hsync
    rw [htake hnone hsync]
    exact decide_eq_true hle

end NTCPSession

/-! ## Receiving -/

namespace NTCPSession

variable {env : PayloadEnv} {s : NTCPSession}

/-- Where `DecryptNextBlock` writes a decrypted block, and how large the buffer of the message is. -/
def blockWrite (s : NTCPSession) (block : List UInt8) : Option (ℕ × ℕ) :=
  match s.nextMessage with
  | none =>
    let dataSize := readBE (block.take 2)
    if dataSize ≠ 0 ∧ dataSize ≤ maxMessage then some (0, (newMessage dataSize block).capacity)
    else none
  | some m => some (s.nextMessageOffset, m.capacity)

/-- Everything that is written for a stream of blocks. -/
def blockWrites (env : PayloadEnv) : NTCPSession → List (Block ivSize) → List (ℕ × ℕ)
  | _, [] => []
  | s, b :: blocks =>
    (s.blockWrite (s.decryption.decryptBlock b).1.bytes).toList ++
      (s.decryptNextBlock env b).1.blockWrites env blocks

/-- The message under construction has room for what is missing. -/
structure HasRoom (m : I2NPMessage) (offset : ℕ) : Prop where
  offset_mod : offset % ivSize = 0
  buffer : (m.len ≤ maxShortMessageSize ∧ m.capacity = maxShortMessageSize + 16) ∨
    (m.len ≤ maxMessage + phase3AliceRI ∧ m.capacity = maxMessageSize + 16)

/-- A message under construction is not complete, and has room. -/
def Receiving (s : NTCPSession) : Prop :=
  ∀ m, s.nextMessage = some m →
    HasRoom m s.nextMessageOffset ∧ s.nextMessageOffset < m.len + adler32Size

/-- The next block fits. -/
theorem Receiving.fits {m : I2NPMessage} (h : Receiving s) (hsome : s.nextMessage = some m) :
    s.nextMessageOffset + ivSize ≤ m.capacity := by
  obtain ⟨⟨hmod, hbuffer⟩, hlt⟩ := h m hsome
  simp only [ivSize, adler32Size] at hmod hlt ⊢
  rcases hbuffer with ⟨hlen, hcapacity⟩ | ⟨hlen, hcapacity⟩
  · simp only [maxShortMessageSize] at hlen hcapacity
    omega
  · simp only [maxMessage, phase3AliceRI, maxMessageSize] at hlen hcapacity
    omega

/-- The buffer is chosen by the size. -/
theorem hasRoom_newMessage {dataSize : ℕ} (hle : dataSize ≤ maxMessage) (block : List UInt8) :
    HasRoom (newMessage dataSize block) ivSize := by
  refine ⟨rfl, ?_⟩
  rw [newMessage]
  dsimp only
  split
  next hshort =>
    refine .inl ⟨?_, rfl⟩
    simp only [maxShortMessageSize, phase3AliceRI] at hshort ⊢
    omega
  next => exact .inr ⟨Nat.add_le_add_right hle _, rfl⟩

theorem receiving_finishMessage {m : I2NPMessage} (h : HasRoom m s.nextMessageOffset) :
    Receiving (s.finishMessage env m) := by
  intro m' hm'
  rw [finishMessage] at hm' ⊢
  split
  next hcomplete =>
    rw [if_pos hcomplete] at hm'
    cases hm'
  next hmore =>
    rw [if_neg hmore] at hm'
    obtain rfl := Option.some.inj hm'
    exact ⟨h, Nat.lt_of_not_le hmore⟩

/-- One decrypted block. -/
theorem Receiving.takeBlock (h : Receiving s) (block : List UInt8) :
    Receiving (s.takeBlock env block).1 := by
  rw [NTCPSession.takeBlock]
  split
  next hnone =>
    dsimp only
    split
    · split
      · exact h
      next hle =>
        exact receiving_finishMessage (hasRoom_newMessage (Nat.not_lt.mp hle) block)
    · exact h
  next m hsome =>
    obtain ⟨⟨hmod, hbuffer⟩, -⟩ := h m hsome
    refine receiving_finishMessage ⟨?_, hbuffer⟩
    exact (Nat.add_mod_right ..).trans hmod

theorem Receiving.decryptNextBlock (h : Receiving s) (b : Block ivSize) :
    Receiving (s.decryptNextBlock env b).1 :=
  Receiving.takeBlock (s := { s with decryption := (s.decryption.decryptBlock b).2 }) h _

/-- One block is written inside of the buffer. -/
theorem Receiving.blockWrite (h : Receiving s) {block : List UInt8} {w : ℕ × ℕ}
    (hw : s.blockWrite block = some w) : w.1 + ivSize ≤ w.2 := by
  rw [NTCPSession.blockWrite] at hw
  split at hw
  next hnone =>
    dsimp only at hw
    split at hw
    next hsize =>
      obtain rfl := Option.some.inj hw
      have hfirst : Receiving { s with
          nextMessage := some (newMessage (readBE (block.take 2)) block), nextMessageOffset := 0 } := by
        intro m hm
        obtain rfl := Option.some.inj hm
        exact ⟨⟨rfl, (hasRoom_newMessage hsize.2 block).buffer⟩, Nat.succ_pos _⟩
      exact hfirst.fits rfl
    · cases hw
  next m hsome =>
    obtain rfl := Option.some.inj hw
    exact h.fits hsome

/-- A stream of blocks is written inside of the buffers. -/
theorem Receiving.blockWrites (h : Receiving s) (blocks : List (Block ivSize)) :
    ∀ w ∈ s.blockWrites env blocks, w.1 + ivSize ≤ w.2 := by
  induction blocks generalizing s with
  | nil =>
    intro w hw
    cases hw
  | cons b blocks ih =>
    intro w hw
    rw [NTCPSession.blockWrites, List.mem_append, Option.mem_toList] at hw
    rcases hw with hfirst | hlater
    · exact h.blockWrite hfirst
    · exact ih (h.decryptNextBlock b) w hlater

/-- Between two frames. -/
theorem receiving_of_none (h : s.nextMessage = none) : Receiving s := by
  intro m hm
  rw [h] at hm
  cases hm

end NTCPSession

/-! ## Both sides -/

open NTCPSession

/-- The frame of a message stays inside of its buffer and is accepted by the peer, and whatever a session
receives stays inside of the buffers of its messages. -/
structure FramesFit (env : PayloadEnv) (s : NTCPSession) (address : ℕ) : Prop where
  fits : FrameFits (s.heap address)
  accepted : PeerAccepts env s address
  received : ∀ (r : NTCPSession) (blocks : List (Block ivSize)), r.nextMessage = none →
    ∀ w ∈ r.blockWrites env blocks, w.1 + ivSize ≤ w.2

/-- A message must not be longer than the peer accepts, and its frame must start on a boundary of 16 bytes
or leave room behind. -/
theorem frame_bounds_iff (env : PayloadEnv) (s : NTCPSession) (address : ℕ)
    (hbuffer : IsBuffer (s.heap address)) (hoffset : 2 ≤ (s.heap address).offset)
    (hle : (s.heap address).offset ≤ (s.heap address).len)
    (hlen : (s.heap address).len ≤ (s.heap address).maxLen) :
    FramesFit env s address ↔
      (s.heap address).getLength ≤ maxMessage ∧
        (((s.heap address).offset - 2) % 16 = 0 ∨
          (s.heap address).len + 4 ≤ (s.heap address).maxLen + ((s.heap address).offset - 2) % 16) := by
  have hlt : (s.heap address).getLength < 2 ^ 16 := by
    have hlength : (s.heap address).getLength = (s.heap address).len - (s.heap address).offset := rfl
    rcases hbuffer.maxLen with hmax | hmax
    · simp only [maxShortMessageSize] at hmax
      omega
    · simp only [maxMessageSize] at hmax
      omega
  rw [← @peerAccepts_iff env s address hlt, ← frameFits_iff_room hbuffer hoffset hle hlen]
  constructor
  · intro h
    exact ⟨h.accepted, h.fits⟩
  · rintro ⟨haccepted, hfits⟩
    exact ⟨hfits, haccepted, fun r blocks hnone => (receiving_of_none hnone).blockWrites blocks⟩

/-! ### Examples -/

/-- A session with one message. -/
def oneMessageSession (m : I2NPMessage) : NTCPSession := { newSession with heap := fun _ => m }

/-- The longest message of a short buffer. -/
theorem frame_bounds_short :
    FramesFit zeroEnv
      (oneMessageSession { I2NPMessage.newI2NPShortMessage with len := maxShortMessageSize }) 0 := by
  refine (frame_bounds_iff _ _ 0 ⟨.inl rfl, rfl⟩ ?_ ?_ ?_).mpr ⟨?_, .inl ?_⟩ <;> decide

/-- A short buffer, full from the fifth byte on: the frame ends three bytes behind the buffer. -/
theorem not_framesFit_aligned :
    ¬ FramesFit zeroEnv (oneMessageSession
      { I2NPMessage.newI2NPShortMessage with offset := 5, len := maxShortMessageSize }) 0 := by
  intro h
  exact absurd ((frameFits_iff _).mp h.fits) (by decide)

end NTCP
