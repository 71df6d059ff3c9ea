import Xi2p.NTCP.Payload

/-!
# NTCP frames

* `IsFrames env blocks msgs`: the plain blocks are frames of the messages `msgs`, with time
  synchronisation messages between them.
* `createMsgBuffer_message`, `createMsgBuffer_timeSync`: what `CreateMsgBuffer` encrypts is a frame.
* `Expects.decryptNextBlock`: a receiver that expects frames takes a block of them; nothing is lost
  or added on the way to `m_Handler`.
-/

namespace NTCP

open Bytes I2NP CBC

/-! ## Frames -/

/-- The frame of a message: size, message, padding, checksum. -/
structure IsMessageFrame (env : PayloadEnv) (frame : List (Block ivSize)) (msg : List UInt8) :
    Prop where
  length_pos : 0 < msg.length
  length_le : msg.length ≤ maxMessage
  bytes_eq : ∃ pad, pad.length < ivSize ∧ bytesOf frame =
    (writeBE 2 msg.length ++ msg ++ pad) ++
      writeU32 (env.adler32 (writeBE 2 msg.length ++ msg ++ pad))

/-- A sequence of frames and the messages in them. -/
inductive IsFrames (env : PayloadEnv) : List (Block ivSize) → List (List UInt8) → Prop
  | nil : IsFrames env [] []
  | timeSync {block rest msgs} (hsize : readBE (block.bytes.take 2) = 0)
      (hrest : IsFrames env rest msgs) : IsFrames env (block :: rest) msgs
  | message {frame rest msg msgs} (hframe : IsMessageFrame env frame msg)
      (hrest : IsFrames env rest msgs) : IsFrames env (frame ++ rest) (msg :: msgs)

theorem IsFrames.append {env : PayloadEnv} {ps qs : List (Block ivSize)}
    {msgs msgs' : List (List UInt8)} (h : IsFrames env ps msgs) (h' : IsFrames env qs msgs') :
    IsFrames env (ps ++ qs) (msgs ++ msgs') := by
  induction h with
  | nil => exact h'
  | timeSync hsize _ ih => exact .timeSync hsize ih
  | message hframe _ ih =>
    rw [List.append_assoc]
    exact .message hframe ih

/-! ## Building frames -/

theorem padding_lt (len : ℕ) : padding len < ivSize := by
  unfold padding
  have hmod : (len + 6) &&& 0x0F = (len + 6) % 16 := Nat.and_two_pow_sub_one_eq_mod (len + 6) 4
  rw [hmod]
  dsimp only
  split <;> simp only [ivSize] <;> omega

/-- A padded message fills its blocks. -/
theorem padded_mod (len : ℕ) : (len + padding len + 6) % ivSize = 0 := by
  unfold padding
  have hmod : (len + 6) &&& 0x0F = (len + 6) % 16 := Nat.and_two_pow_sub_one_eq_mod (len + 6) 4
  rw [hmod]
  dsimp only
  split <;> simp only [ivSize] <;> omega

/-- Padding and checksum stand behind the message. -/
theorem slice_addChecksum (env : PayloadEnv) (number : ℕ) (buf : Mem) (pos len : ℕ) :
    ∃ pad, pad.length = padding len ∧
      slice (addChecksum env number buf pos len) pos (len + padding len + 6) =
        (slice buf pos (len + 2) ++ pad) ++
          writeU32 (env.adler32 (slice buf pos (len + 2) ++ pad)) := by
  unfold addChecksum
  dsimp only
  generalize hpadded : (if padding len ≠ 0 then
    store buf (pos + len + phase3AliceTS) (slice (env.randBytes number) 0 (padding len))
    else buf) = padded
  -- the random bytes begin behind the message
  have hfront : slice padded pos (len + 2) = slice buf pos (len + 2) := by
    apply slice_congr
    intro i hi
    rw [← hpadded]
    split
    · apply store_of_lt
      simp only [phase3AliceTS]
      omega
    · rfl
  refine ⟨slice padded (pos + (len + 2)) (padding len), by simp, ?_⟩
  have hbody : slice padded pos (len + phase3AliceRI + padding len) =
      slice buf pos (len + 2) ++ slice padded (pos + (len + 2)) (padding len) := by
    rw [slice_add, hfront]
  rw [hbody]
  generalize slice buf pos (len + 2) ++ slice padded (pos + (len + 2)) (padding len) = body at *
  have hlen : len + padding len + 6 = (len + phase3AliceRI + padding len) + 4 := by
    simp only [phase3AliceRI]
    omega
  rw [hlen, slice_add]
  congr 1
  · rw [← hbody]
    apply slice_congr
    intro i hi
    apply store_of_lt
    omega
  · have hself := slice_store_self padded (pos + len + phase3AliceRI + padding len)
      (writeU32 (env.adler32 body))
    rw [length_writeU32] at hself
    rw [show pos + (len + phase3AliceRI + padding len) =
      pos + len + phase3AliceRI + padding len by omega]
    exact hself

namespace NTCPSession

variable {env : PayloadEnv} {s : NTCPSession}

/-- Encrypting in place replaces the region by its cipher text. -/
theorem slice_encryptBuffer (s : NTCPSession) (buf : Mem) (pos : ℕ) {len : ℕ}
    (hlen : len % ivSize = 0) :
    slice (s.encryptBuffer buf pos len).1 pos len =
      bytesOf (s.encryption.encrypt (blocksAt buf pos (len / ivSize))).1 := by
  have hself := slice_store_self buf pos
    (bytesOf (s.encryption.encrypt (blocksAt buf pos (len / ivSize))).1)
  rw [length_bytesOf, Encryption.length_encrypt, length_blocksAt, Nat.mul_div_cancel' (Nat.dvd_of_mod_eq_zero hlen)] at hself
  exact hself

/-- What `CreateMsgBuffer` does to a message object. -/
theorem createMsgBuffer_message {address : ℕ} (hoffset : 2 ≤ (s.heap address).offset)
    (hpos : 0 < (s.heap address).getLength) (hle : (s.heap address).getLength ≤ maxMessage) :
    ∃ frame, IsMessageFrame env frame (s.heap address).bytes ∧
      (s.createMsgBuffer env (some address)).1.encryption = (s.encryption.encrypt frame).2 ∧
      (s.createMsgBuffer env (some address)).1.regionBytes
          (s.createMsgBuffer env (some address)).2 = bytesOf (s.encryption.encrypt frame).1 := by
  set msg := s.heap address with hmsg
  set pos := msg.offset - phase3AliceRI with hposEq
  set len := msg.getLength with hlenEq
  set plain := addChecksum env s.prepared (store msg.buf pos (writeBE 2 len)) pos len with hplain
  set n := len + padding len + 6 with hn
  have hmod : n % ivSize = 0 := padded_mod len
  refine ⟨blocksAt plain pos (n / ivSize), ⟨by simpa using hpos, by simpa using hle, ?_⟩, rfl, ?_⟩
  · obtain ⟨pad, hpad, hslice⟩ :=
      slice_addChecksum env s.prepared (store msg.buf pos (writeBE 2 len)) pos len
    have hfront : slice (store msg.buf pos (writeBE 2 len)) pos (len + 2) =
        writeBE 2 msg.bytes.length ++ msg.bytes := by
      rw [Nat.add_comm, slice_add, I2NPMessage.length_bytes]
      congr 1
      · have hself := slice_store_self msg.buf pos (writeBE 2 len)
        rwa [length_writeBE] at hself
      · have hstart : pos + 2 = msg.offset := by
          simp only [phase3AliceRI] at hposEq
          omega
        rw [hstart]
        apply slice_congr
        intro i _
        apply store_of_le
        rw [length_writeBE]
        omega
    refine ⟨pad, hpad ▸ padding_lt len, ?_⟩
    rw [bytesOf_blocksAt, Nat.mul_div_cancel' (Nat.dvd_of_mod_eq_zero hmod), hslice, hfront]
  · have hregion := s.slice_encryptBuffer plain pos hmod
    show slice (Function.update s.heap address _ address).buf pos n = _
    rw [Function.update_self]
    exact hregion

/-- What `CreateMsgBuffer` does for a time synchronisation message. -/
theorem createMsgBuffer_timeSync (env : PayloadEnv) (s : NTCPSession) :
    ∃ block : Block ivSize, readBE (block.bytes.take 2) = 0 ∧
      (s.createMsgBuffer env none).1.encryption = (s.encryption.encrypt [block]).2 ∧
      (s.createMsgBuffer env none).1.regionBytes (s.createMsgBuffer env none).2 =
        bytesOf (s.encryption.encrypt [block]).1 := by
  set buf := store (store s.timeSyncBuffer 0 (writeBE 2 0)) phase3AliceTS
    (writeU32 (env.time s.prepared)) with hbuf
  set plain := addChecksum env s.prepared buf 0 phase3AliceTS with hplain
  have hblocks : (blocksAt plain 0 ((phase3AliceTS + padding phase3AliceTS + 6) / ivSize) :
      List (Block ivSize)) = [Block.ofMem plain 0] := rfl
  refine ⟨Block.ofMem plain 0, ?_, rfl, ?_⟩
  · obtain ⟨pad, -, hslice⟩ := slice_addChecksum env s.prepared buf 0 phase3AliceTS
    have hsize : slice buf 0 2 = [0, 0] := by
      simp [slice, hbuf, store, List.range_succ, writeBE]
    have hfront : slice buf 0 (phase3AliceTS + 2) = [0, 0] ++ slice buf 2 4 := by
      rw [← hsize]
      exact slice_add buf 0 2 4
    have hblock : (Block.ofMem plain 0 : Block ivSize).bytes =
        slice plain 0 (phase3AliceTS + padding phase3AliceTS + 6) := rfl
    rw [hblock, hslice, hfront]
    rfl
  · have hregion := s.slice_encryptBuffer plain 0 (padded_mod phase3AliceTS)
    rw [hblocks] at hregion
    exact hregion

end NTCPSession

/-! ## Taking blocks -/

/-- The session is between two frames, or within the frame of a message of which it has the blocks
`done`; then the plain blocks to come are the rest of this frame and frames of other messages. -/
inductive Expects (env : PayloadEnv) (s : NTCPSession) :
    List (Block ivSize) → List (List UInt8) → Prop
  | idle {rest msgs} (hnone : s.nextMessage = none) (hrest : IsFrames env rest msgs) :
      Expects env s rest msgs
  | busy {m done todo rest msg msgs} (hsome : s.nextMessage = some m) (hoffset : m.offset = 2)
      (hlen : m.len = msg.length + 2) (hpos : s.nextMessageOffset = ivSize * done.length)
      (hbytes : StandsAt m.buf 0 (bytesOf done)) (htodo : todo ≠ [])
      (hframe : IsMessageFrame env (done ++ todo) msg) (hrest : IsFrames env rest msgs) :
      Expects env s (todo ++ rest) (msg :: msgs)

/-- Nothing is expected any more only between two frames, when no message is left. -/
theorem Expects.eq_nil {env : PayloadEnv} {s : NTCPSession} {msgs : List (List UInt8)}
    (h : Expects env s [] msgs) : msgs = [] := by
  generalize hrest : ([] : List (Block ivSize)) = rest at h
  cases h with
  | idle _ hframes =>
    subst hrest
    generalize hnil : ([] : List (Block ivSize)) = rest at hframes
    cases hframes with
    | nil => rfl
    | timeSync => simp at hnil
    | message hframe _ =>
      -- a frame has bytes
      obtain ⟨rfl, -⟩ := List.append_eq_nil_iff.mp hnil.symm
      obtain ⟨pad, -, hbytes⟩ := hframe.bytes_eq
      have hlen := congrArg List.length hbytes
      simp at hlen
  | busy _ _ _ _ _ htodo => exact absurd (List.append_eq_nil_iff.mp hrest.symm).1 htodo

/-- What is expected depends on the message under construction only. -/
theorem Expects.congr {env : PayloadEnv} {s s' : NTCPSession} {rest : List (Block ivSize)}
    {msgs : List (List UInt8)} (h : Expects env s rest msgs)
    (hmessage : s'.nextMessage = s.nextMessage)
    (hoffset : s'.nextMessageOffset = s.nextMessageOffset) : Expects env s' rest msgs := by
  cases h with
  | idle hnone hframes => exact .idle (hmessage.trans hnone) hframes
  | busy hsome hoff hlen hpos hbytes htodo hframe hrest =>
    exact .busy (hmessage.trans hsome) hoff hlen (hoffset.trans hpos) hbytes htodo hframe hrest

namespace NTCPSession

/-- The bytes of the messages passed to `m_Handler`. -/
def handledBytes (s : NTCPSession) : List (List UInt8) := s.handled.map I2NPMessage.bytes

/-- What `finishMessage` and `takeBlock` leave alone. -/
structure SameInput (s s' : NTCPSession) : Prop where
  decryption_eq : s'.decryption = s.decryption
  receiveBuffer_eq : s'.receiveBuffer = s.receiveBuffer
  isTerminated_eq : s'.isTerminated = s.isTerminated

theorem sameInput_finishMessage (env : PayloadEnv) (s : NTCPSession) (m : I2NPMessage) :
    SameInput s (s.finishMessage env m) := by
  unfold finishMessage
  split
  · dsimp only
    split <;> exact ⟨rfl, rfl, rfl⟩
  · exact ⟨rfl, rfl, rfl⟩

variable {env : PayloadEnv} {s : NTCPSession}

/-- Either the message is complete, or it waits for the rest of its frame. -/
theorem expects_finishMessage {m : I2NPMessage} {done todo rest : List (Block ivSize)}
    {msg : List UInt8} {msgs : List (List UInt8)} (hoffset : m.offset = 2)
    (hlen : m.len = msg.length + 2) (hpos : s.nextMessageOffset = ivSize * done.length)
    (hbytes : StandsAt m.buf 0 (bytesOf done)) (hframe : IsMessageFrame env (done ++ todo) msg)
    (hrest : IsFrames env rest msgs) :
    ∃ msgs', Expects env (s.finishMessage env m) (todo ++ rest) msgs' ∧
      (s.finishMessage env m).handledBytes ++ msgs' = s.handledBytes ++ msg :: msgs := by
  obtain ⟨pad, hpad, hall⟩ := hframe.bytes_eq
  have htotal : ivSize * (done.length + todo.length) = msg.length + pad.length + 6 := by
    have hlength := congrArg List.length hall
    rw [length_bytesOf, List.length_append] at hlength
    simp only [List.length_append, length_writeBE, length_writeU32] at hlength
    omega
  by_cases htodo : todo = []
  · subst htodo
    rw [List.append_nil] at hall
    rw [List.length_nil, Nat.add_zero] at htotal
    rw [hall] at hbytes
    have hbody : StandsAt m.buf 0 (writeBE 2 msg.length ++ msg ++ pad) :=
      (standsAt_append.mp hbytes).1
    have hsize : s.nextMessageOffset - adler32Size =
        (writeBE 2 msg.length ++ msg ++ pad).length := by
      simp only [List.length_append, length_writeBE, adler32Size]
      omega
    have hchecksum : slice m.buf (s.nextMessageOffset - adler32Size) adler32Size =
        writeU32 (env.adler32 (slice m.buf 0 (s.nextMessageOffset - adler32Size))) := by
      have htail := (standsAt_append.mp hbytes).2
      rw [hsize, hbody]
      rw [StandsAt, length_writeU32, Nat.zero_add] at htail
      exact htail
    have hmsg : m.bytes = msg := by
      have hmid := (standsAt_append.mp (standsAt_append.mp hbody).1).2
      have hlength : m.getLength = msg.length := by
        rw [I2NPMessage.getLength, hoffset, hlen]
        omega
      rw [I2NPMessage.bytes, hlength, hoffset]
      rw [StandsAt, length_writeBE] at hmid
      exact hmid
    have hfinish : s.finishMessage env m =
        { s with handled := s.handled ++ [m], nextMessage := none } := by
      unfold finishMessage
      rw [if_pos (by simp only [adler32Size]; omega)]
      dsimp only
      rw [if_pos hchecksum.symm]
    rw [hfinish]
    refine ⟨msgs, .idle rfl hrest, ?_⟩
    simp [handledBytes, hmsg]
  · have hpositive := List.length_pos_iff.mpr htodo
    have hfinish : s.finishMessage env m = { s with nextMessage := some m } := by
      unfold finishMessage
      rw [if_neg]
      simp only [ivSize, adler32Size] at *
      omega
    rw [hfinish]
    exact ⟨msg :: msgs, .busy rfl hoffset hlen hpos hbytes htodo hframe hrest, rfl⟩

/-- A frame begins with the size of its message. -/
theorem readBE_of_isMessageFrame {b : Block ivSize} {frame : List (Block ivSize)}
    {msg : List UInt8} (hframe : IsMessageFrame env (b :: frame) msg) :
    readBE (b.bytes.take 2) = msg.length := by
  obtain ⟨pad, -, hall⟩ := hframe.bytes_eq
  have htake : b.bytes.take 2 = writeBE 2 msg.length := by
    have hhead := congrArg (List.take 2) hall
    rw [bytesOf_cons, List.take_append_of_le_length (by rw [Block.length_bytes]; decide)] at hhead
    rw [hhead, List.append_assoc, List.append_assoc]
    exact List.take_left' (by simp)
  have hle := hframe.length_le
  rw [htake, readBE_writeBE]
  apply Nat.mod_eq_of_lt
  simp only [maxMessage] at hle
  omega

/-- One plain block. -/
theorem expects_takeBlock {b : Block ivSize} {rest : List (Block ivSize)}
    {msgs : List (List UInt8)} (h : Expects env s (b :: rest) msgs) :
    (s.takeBlock env b.bytes).2 = true ∧ SameInput s (s.takeBlock env b.bytes).1 ∧
      ∃ msgs', Expects env (s.takeBlock env b.bytes).1 rest msgs' ∧
        (s.takeBlock env b.bytes).1.handledBytes ++ msgs' = s.handledBytes ++ msgs := by
  generalize hblocks : b :: rest = blocks at h
  cases h with
  | idle hnone hframes =>
    cases hframes with
    | nil => simp at hblocks
    | timeSync hsize hrest =>
      obtain ⟨rfl, rfl⟩ := List.cons_eq_cons.mp hblocks
      have htake : s.takeBlock env b.bytes = (s, true) := by
        simp [takeBlock, hnone, hsize]
      rw [htake]
      exact ⟨rfl, ⟨rfl, rfl, rfl⟩, msgs, .idle hnone hrest, rfl⟩
    | @message frame rest' msg msgs hframe hrest =>
      cases frame with
      | nil =>
        obtain ⟨pad, -, hbytes⟩ := hframe.bytes_eq
        have hlen := congrArg List.length hbytes
        simp at hlen
      | cons c frame =>
        obtain ⟨rfl, rfl⟩ := List.cons_eq_cons.mp hblocks
        have hsize := readBE_of_isMessageFrame hframe
        have hpos := hframe.length_pos
        have hle := hframe.length_le
        have htake : s.takeBlock env b.bytes =
            ({ s with nextMessageOffset := ivSize }.finishMessage env
              (newMessage msg.length b.bytes), true) := by
          simp only [takeBlock, hnone, hsize]
          rw [if_pos (by omega), if_neg (by omega)]
        have hbytes : StandsAt (newMessage msg.length b.bytes).buf 0 (bytesOf [b]) := by
          rw [bytesOf_cons, bytesOf_nil, List.append_nil]
          exact standsAt_store _ 0 b.bytes
        rw [htake]
        have hsame := sameInput_finishMessage env { s with nextMessageOffset := ivSize }
          (newMessage msg.length b.bytes)
        refine ⟨rfl, ⟨hsame.1, hsame.2, hsame.3⟩, ?_⟩
        exact expects_finishMessage (s := { s with nextMessageOffset := ivSize }) rfl rfl rfl hbytes
          hframe hrest
  | @busy m done todo rest' msg msgs hsome hoffset hlen hpos hbytes htodo hframe hrest =>
    cases todo with
    | nil => exact absurd rfl htodo
    | cons c todo =>
      obtain ⟨rfl, rfl⟩ := List.cons_eq_cons.mp hblocks
      have htake : s.takeBlock env b.bytes =
          ({ s with nextMessageOffset := s.nextMessageOffset + ivSize }.finishMessage env
            { m with buf := store m.buf s.nextMessageOffset b.bytes }, true) := by
        simp only [takeBlock, hsome]
      have hbytes' : StandsAt (store m.buf s.nextMessageOffset b.bytes) 0 (bytesOf (done ++ [b])) := by
        rw [bytesOf_append, standsAt_append]
        refine ⟨hbytes.store_of_le ?_, ?_⟩
        · rw [length_bytesOf, hpos, Nat.zero_add]
        · rw [length_bytesOf, Nat.zero_add, ← hpos, bytesOf_cons, bytesOf_nil, List.append_nil]
          exact standsAt_store _ _ _
      have hframe' : IsMessageFrame env (done ++ [b] ++ todo) msg := by
        rw [List.append_assoc]
        exact hframe
      rw [htake]
      have hsame := sameInput_finishMessage env
        { s with nextMessageOffset := s.nextMessageOffset + ivSize }
        { m with buf := store m.buf s.nextMessageOffset b.bytes }
      refine ⟨rfl, ⟨hsame.1, hsame.2, hsame.3⟩, ?_⟩
      refine expects_finishMessage (s := { s with nextMessageOffset := s.nextMessageOffset + ivSize })
        hoffset hlen ?_ hbytes' hframe' hrest
      rw [List.length_append, List.length_singleton, Nat.mul_add, ← hpos, Nat.mul_one]

/-- The loop over the blocks of a read. -/
theorem expects_decryptBlocks {e : Encryption ivSize} (blocks : List (Block ivSize))
    {rest : List (Block ivSize)} {msgs : List (List UInt8)} (hsync : InSync e s.decryption)
    (h : Expects env s (blocks ++ rest) msgs) :
    ∃ s', s.decryptBlocks env (e.encrypt blocks).1 = (s', true) ∧
      InSync (e.encrypt blocks).2 s'.decryption ∧ s'.receiveBuffer = s.receiveBuffer ∧
      s'.isTerminated = s.isTerminated ∧
      ∃ msgs', Expects env s' rest msgs' ∧ s'.handledBytes ++ msgs' = s.handledBytes ++ msgs := by
  induction blocks generalizing s e msgs with
  | nil => exact ⟨s, rfl, hsync, rfl, rfl, msgs, h, rfl⟩
  | cons b blocks ih =>
    obtain ⟨hplain, hsync'⟩ := hsync.decryptBlock b
    set decryption := (s.decryption.decryptBlock (e.encryptBlock b).1).2 with hdec
    have hstart : Expects env { s with decryption } (b :: (blocks ++ rest)) msgs := h.congr rfl rfl
    obtain ⟨hok, hsame, msgs₁, hexpects, hhandled⟩ := expects_takeBlock hstart
    have hnext : s.decryptNextBlock env (e.encryptBlock b).1 =
        { s with decryption }.takeBlock env b.bytes := by
      show { s with decryption }.takeBlock env
        (s.decryption.decryptBlock (e.encryptBlock b).1).1.bytes = _
      rw [hplain]
    have hsync₁ : InSync (e.encryptBlock b).2
        ({ s with decryption }.takeBlock env b.bytes).1.decryption := by
      rw [hsame.decryption_eq]
      exact hsync'
    obtain ⟨s', hrun, hsync₂, hbuf, hterm, msgs₂, hexpects₂, hhandled₂⟩ := ih hsync₁ hexpects
    refine ⟨s', ?_, hsync₂, hbuf.trans hsame.receiveBuffer_eq, hterm.trans hsame.isTerminated_eq,
      msgs₂, hexpects₂, hhandled₂.trans hhandled⟩
    show s.decryptBlocks env ((e.encryptBlock b).1 :: ((e.encryptBlock b).2.encrypt blocks).1) = _
    rw [decryptBlocks, hnext]
    generalize { s with decryption }.takeBlock env b.bytes = result at *
    obtain ⟨s₁, ok⟩ := result
    obtain rfl : ok = true := hok
    exact hrun

end NTCPSession

end NTCP
