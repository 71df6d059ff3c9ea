import Xi2p.Lib.Runs
import Xi2p.NTCP.Framing

/-!
# NTCP transmission

Messages posted to one session, with write completions in between, and the reads of its peer.

* `Written`: what the session has written is the encryption of frames of all messages posted, except
  those that are still in its queue.
* `Reading`: the peer expects exactly the frames that are still to come, wherever the reads cut the
  stream.
* `Transmission.handled_eq`: the peer passes on the messages posted, in order.
-/

namespace NTCP

open Bytes I2NP CBC

namespace NTCPSession

/-! ## Preparing a write -/

/-- The messages behind the pointers that are not null. -/
def messages (heap : ℕ → I2NPMessage) (msgs : List (Option ℕ)) : List (List UInt8) :=
  msgs.filterMap (Option.map fun address => (heap address).bytes)

/-- A message that can be sent: there is room for its size in front of it, and it is neither empty
nor too long. -/
def Sendable (m : I2NPMessage) : Prop :=
  2 ≤ m.offset ∧ 0 < m.getLength ∧ m.getLength ≤ maxMessage

instance (m : I2NPMessage) : Decidable (Sendable m) :=
  inferInstanceAs (Decidable (_ ∧ _ ∧ _))

variable {env : PayloadEnv} {s : NTCPSession}

/-- The parts of the state that preparing messages leaves alone. -/
structure SameQueue (s s' : NTCPSession) : Prop where
  isTerminated_eq : s'.isTerminated = s.isTerminated
  isSending_eq : s'.isSending = s.isSending
  sendQueue_eq : s'.sendQueue = s.sendQueue
  wire_eq : s'.wire = s.wire

theorem sameQueue_createMsgBuffer (env : PayloadEnv) (s : NTCPSession) (msg : Option ℕ) :
    SameQueue s (s.createMsgBuffer env msg).1 := by
  cases msg <;> exact ⟨rfl, rfl, rfl, rfl⟩

theorem owner_createMsgBuffer (env : PayloadEnv) (s : NTCPSession) (msg : Option ℕ) :
    (s.createMsgBuffer env msg).2.owner = msg := by
  cases msg <;> rfl

theorem heap_createMsgBuffer_of_ne {msg : Option ℕ} {address : ℕ} (h : some address ≠ msg) :
    (s.createMsgBuffer env msg).1.heap address = s.heap address := by
  cases msg with
  | none => rfl
  | some a => exact Function.update_of_ne (fun heq => h (congrArg some heq)) _ _

/-- Preparing a message does not touch the buffers of the others. -/
theorem regionBytes_createMsgBuffer_of_ne {msg : Option ℕ} {r : Region} (h : r.owner ≠ msg) :
    (s.createMsgBuffer env msg).1.regionBytes r = s.regionBytes r := by
  unfold regionBytes
  cases howner : r.owner with
  | some address =>
    rw [howner] at h
    dsimp only
    rw [heap_createMsgBuffer_of_ne h]
  | none =>
    cases msg with
    | none => exact absurd howner h
    | some a => rfl

theorem regionBytes_createMsgBuffers_of_notMem {msgs : List (Option ℕ)} {r : Region}
    (h : r.owner ∉ msgs) : (s.createMsgBuffers env msgs).1.regionBytes r = s.regionBytes r := by
  induction msgs generalizing s with
  | nil => rfl
  | cons msg msgs ih =>
    rw [List.mem_cons, not_or] at h
    have hrest : ((s.createMsgBuffer env msg).1.createMsgBuffers env msgs).1.regionBytes r =
        (s.createMsgBuffer env msg).1.regionBytes r := ih h.2
    exact hrest.trans (regionBytes_createMsgBuffer_of_ne h.1)

theorem messages_congr {heap heap' : ℕ → I2NPMessage} {msgs : List (Option ℕ)}
    (h : ∀ address, some address ∈ msgs → heap' address = heap address) :
    messages heap' msgs = messages heap msgs := by
  apply List.filterMap_congr
  intro msg hmsg
  cases msg with
  | none => rfl
  | some address =>
    rw [Option.map_some, Option.map_some, h address hmsg]

/-- One message makes one frame. -/
theorem createMsgBuffer_spec (env : PayloadEnv) (msg : Option ℕ)
    (hsend : ∀ address, msg = some address → Sendable (s.heap address)) :
    ∃ ps, IsFrames env ps (messages s.heap [msg]) ∧
      (s.createMsgBuffer env msg).1.encryption = (s.encryption.encrypt ps).2 ∧
      (s.createMsgBuffer env msg).1.regionBytes (s.createMsgBuffer env msg).2 =
        bytesOf (s.encryption.encrypt ps).1 := by
  cases msg with
  | none =>
    obtain ⟨block, hsize, henc, hbytes⟩ := createMsgBuffer_timeSync env s
    exact ⟨[block], .timeSync hsize .nil, henc, hbytes⟩
  | some address =>
    obtain ⟨hoffset, hpos, hle⟩ := hsend address rfl
    obtain ⟨frame, hframe, henc, hbytes⟩ := createMsgBuffer_message hoffset hpos hle
    refine ⟨frame, ?_, henc, hbytes⟩
    have hone := IsFrames.message hframe .nil
    rwa [List.append_nil] at hone

/-- The messages of a write make frames, if no buffer is used twice. The induction is on the
messages; the first region keeps its contents while the others are prepared. -/
theorem createMsgBuffers_spec (env : PayloadEnv) {msgs : List (Option ℕ)} (hnodup : msgs.Nodup)
    (hsend : ∀ address, some address ∈ msgs → Sendable (s.heap address)) :
    ∃ ps, IsFrames env ps (messages s.heap msgs) ∧
      (s.createMsgBuffers env msgs).1.encryption = (s.encryption.encrypt ps).2 ∧
      ((s.createMsgBuffers env msgs).2.map (s.createMsgBuffers env msgs).1.regionBytes).flatten =
        bytesOf (s.encryption.encrypt ps).1 ∧
      SameQueue s (s.createMsgBuffers env msgs).1 ∧
      ∀ address, some address ∉ msgs →
        (s.createMsgBuffers env msgs).1.heap address = s.heap address := by
  induction msgs generalizing s with
  | nil => exact ⟨[], .nil, rfl, rfl, ⟨rfl, rfl, rfl, rfl⟩, fun _ _ => rfl⟩
  | cons msg msgs ih =>
    obtain ⟨hnot, hnodup⟩ := List.nodup_cons.mp hnodup
    have hsame : ∀ address, some address ∈ msgs →
        (s.createMsgBuffer env msg).1.heap address = s.heap address := by
      intro address hmem
      apply heap_createMsgBuffer_of_ne
      rintro rfl
      exact hnot hmem
    obtain ⟨ps, hframes, henc, hbytes⟩ := createMsgBuffer_spec env msg
      fun address heq => hsend address (heq ▸ List.mem_cons_self)
    obtain ⟨qs, hframes', henc', hbytes', hqueue, hheap⟩ := ih hnodup
      (s := (s.createMsgBuffer env msg).1) fun address hmem => by
        rw [hsame address hmem]
        exact hsend address (List.mem_cons_of_mem msg hmem)
    rw [messages_congr hsame] at hframes'
    rw [henc] at henc' hbytes'
    have hfirst := sameQueue_createMsgBuffer env s msg
    refine ⟨ps ++ qs, ?_, ?_, ?_, ?_, ?_⟩
    · have hmessages : messages s.heap (msg :: msgs) =
          messages s.heap [msg] ++ messages s.heap msgs := by
        simp [messages, ← List.filterMap_append]
      rw [hmessages]
      exact hframes.append hframes'
    · rw [Encryption.encrypt_append]
      exact henc'
    · rw [Encryption.encrypt_append, bytesOf_append, ← hbytes, ← hbytes']
      have hkeep : ((s.createMsgBuffer env msg).1.createMsgBuffers env msgs).1.regionBytes
          (s.createMsgBuffer env msg).2 =
          (s.createMsgBuffer env msg).1.regionBytes (s.createMsgBuffer env msg).2 := by
        apply regionBytes_createMsgBuffers_of_notMem
        rwa [owner_createMsgBuffer]
      rw [← hkeep]
      rfl
    · exact ⟨hqueue.1.trans hfirst.1, hqueue.2.trans hfirst.2, hqueue.3.trans hfirst.3,
        hqueue.4.trans hfirst.4⟩
    · intro address hmem
      rw [List.mem_cons, not_or] at hmem
      have hrest : ((s.createMsgBuffer env msg).1.createMsgBuffers env msgs).1.heap address =
          (s.createMsgBuffer env msg).1.heap address := hheap address hmem.2
      exact hrest.trans (heap_createMsgBuffer_of_ne hmem.1)

/-! ## Runs of the sender -/

/-- What the sender runs on: messages posted, and completed writes. -/
inductive PayloadOp
  | post (msgs : List (Option ℕ))
  | sent

/-- `PostI2NPMessages` and `HandleSentPayload`. -/
def step (env : PayloadEnv) (s : NTCPSession) : PayloadOp → NTCPSession
  | .post msgs => s.postI2NPMessages env msgs
  | .sent => s.handleSentPayload env false

/-- The messages posted. -/
def posted : List PayloadOp → List (Option ℕ)
  | [] => []
  | .post msgs :: ops => msgs ++ posted ops
  | .sent :: ops => posted ops

/-- `Connected` posts a time synchronisation message and then the database store. -/
theorem connected_eq (hterm : s.isTerminated = false) (hidle : s.isSending = false)
    (databaseStore : ℕ) :
    s.connected env databaseStore =
      { Runs.exec (step env) s [.post [none], .post [some databaseStore]] with
        isEstablished := true } := by
  have hfirst : s.step env (.post [none]) = s.sendPayload env [none] := by
    show s.postI2NPMessages env [none] = _
    unfold postI2NPMessages
    rw [if_neg (by simp [hterm]), if_neg (by simp [hidle])]
  show _ = { ((s.step env (.post [none])).postI2NPMessages env [some databaseStore]) with
    isEstablished := true }
  have hterm' : (s.sendPayload env [none]).isTerminated = false := hterm
  rw [hfirst]
  unfold postI2NPMessages
  rw [if_neg (by simp [hterm']), if_pos (by rfl)]
  rfl

/-- There is one buffer for time synchronisation messages, so that a write takes at most one. The
messages posted during a write are taken together by the next one. -/
def OneTimeSync (s : NTCPSession) : PayloadOp → Prop
  | .post msgs => (if s.isSending then s.sendQueue ++ msgs else msgs).count none ≤ 1
  | .sent => True

instance (s : NTCPSession) (op : PayloadOp) : Decidable (s.OneTimeSync op) :=
  match op with
  | .post _ => inferInstanceAs (Decidable (_ ≤ _))
  | .sent => inferInstanceAs (Decidable True)

/-- The session started as `s₀`; of the messages `done` that have been posted, all but those in the
queue have been written. -/
structure Written (env : PayloadEnv) (s₀ : NTCPSession) (done : List (Option ℕ))
    (s : NTCPSession) : Prop where
  not_terminated : s.isTerminated = false
  queue_nil : s.isSending = false → s.sendQueue = []
  count_le : s.sendQueue.count none ≤ 1
  written : ∃ sent ps, done = sent ++ s.sendQueue ∧ IsFrames env ps (messages s₀.heap sent) ∧
    s.wire = bytesOf (s₀.encryption.encrypt ps).1 ∧ s.encryption = (s₀.encryption.encrypt ps).2 ∧
    ∀ address, some address ∉ sent → s.heap address = s₀.heap address

variable {s₀ : NTCPSession} {done : List (Option ℕ)}

/-- A write. -/
theorem sendPayload_spec {sent msgs : List (Option ℕ)} {ps : List (Block ivSize)}
    (hframes : IsFrames env ps (messages s₀.heap sent))
    (hwire : s.wire = bytesOf (s₀.encryption.encrypt ps).1)
    (henc : s.encryption = (s₀.encryption.encrypt ps).2)
    (hheap : ∀ address, some address ∉ sent → s.heap address = s₀.heap address)
    (hone : msgs.count none ≤ 1) (hdistinct : ∀ address, (sent ++ msgs).count (some address) ≤ 1)
    (hsend : ∀ address, some address ∈ msgs → Sendable (s₀.heap address)) :
    (s.sendPayload env msgs).isTerminated = s.isTerminated ∧
      (s.sendPayload env msgs).isSending = true ∧
      (s.sendPayload env msgs).sendQueue = s.sendQueue ∧
      ∃ qs, IsFrames env qs (messages s₀.heap (sent ++ msgs)) ∧
        (s.sendPayload env msgs).wire = bytesOf (s₀.encryption.encrypt qs).1 ∧
        (s.sendPayload env msgs).encryption = (s₀.encryption.encrypt qs).2 ∧
        ∀ address, some address ∉ sent ++ msgs →
          (s.sendPayload env msgs).heap address = s₀.heap address := by
  have hnodup : msgs.Nodup := by
    rw [List.nodup_iff_count_le_one]
    intro msg
    cases msg with
    | none => exact hone
    | some address =>
      have hcount := hdistinct address
      rw [List.count_append] at hcount
      omega
  -- a message is written once, so its object still is as it was posted
  have hfresh : ∀ address, some address ∈ msgs → s.heap address = s₀.heap address := by
    intro address hmem
    apply hheap
    intro hsent
    have hcount := hdistinct address
    rw [List.count_append] at hcount
    have h₁ := List.count_pos_iff.mpr hmem
    have h₂ := List.count_pos_iff.mpr hsent
    omega
  obtain ⟨qs, hframes', henc', hbytes, hqueue, hheap'⟩ :=
    createMsgBuffers_spec env (s := { s with isSending := true }) hnodup fun address hmem => by
      show Sendable (s.heap address)
      rw [hfresh address hmem]
      exact hsend address hmem
  have hmessages : messages s.heap msgs = messages s₀.heap msgs := messages_congr hfresh
  refine ⟨hqueue.isTerminated_eq, hqueue.isSending_eq, hqueue.sendQueue_eq, ps ++ qs, ?_, ?_, ?_, ?_⟩
  · have happend : messages s₀.heap (sent ++ msgs) =
        messages s₀.heap sent ++ messages s₀.heap msgs := List.filterMap_append
    rw [happend, ← hmessages]
    exact hframes.append hframes'
  · rw [Encryption.encrypt_append, bytesOf_append, ← hwire, ← henc]
    show _ ++ _ = s.wire ++ _
    rw [hbytes, hqueue.wire_eq]
  · rw [Encryption.encrypt_append, ← henc]
    exact henc'
  · intro address hmem
    rw [List.mem_append, not_or] at hmem
    exact (hheap' address hmem.2).trans (hheap address hmem.1)

/-- One operation of the sender. -/
theorem Written.step (h : Written env s₀ done s) (op : PayloadOp)
    (hone : s.OneTimeSync op)
    (hdistinct : ∀ address, (done ++ posted [op]).count (some address) ≤ 1)
    (hsend : ∀ address, some address ∈ done ++ posted [op] → Sendable (s₀.heap address)) :
    Written env s₀ (done ++ posted [op]) (s.step env op) := by
  obtain ⟨sent, ps, hdone, hframes, hwire, henc, hheap⟩ := h.written
  cases op with
  | post msgs =>
    have hposted : posted [.post msgs] = msgs := List.append_nil _
    rw [hposted] at hdistinct hsend ⊢
    show Written env s₀ (done ++ msgs) (s.postI2NPMessages env msgs)
    unfold postI2NPMessages
    rw [if_neg (by simp [h.not_terminated])]
    have hcount : (if s.isSending then s.sendQueue ++ msgs else msgs).count none ≤ 1 := hone
    split
    next hsending =>
      rw [if_pos hsending] at hcount
      refine ⟨h.not_terminated, ?_, hcount, sent, ps, ?_, hframes, hwire, henc, hheap⟩
      · intro hnot
        exact absurd hsending (by simpa using hnot)
      · rw [hdone, List.append_assoc]
    next hidle =>
      rw [if_neg hidle] at hcount
      have hnil := h.queue_nil (by simpa using hidle)
      rw [hnil, List.append_nil] at hdone
      subst hdone
      obtain ⟨hterm, hsending, hqueue, qs, hqs, hwire', henc', hheap'⟩ :=
        sendPayload_spec hframes hwire henc hheap hcount hdistinct
          fun address hmem => hsend address (List.mem_append_right _ hmem)
      refine ⟨hterm.trans h.not_terminated, ?_, ?_, done ++ msgs, qs, ?_, hqs, hwire', henc', hheap'⟩
      · intro hnot
        rw [hsending] at hnot
        cases hnot
      · rw [hqueue]
        exact h.count_le
      · rw [hqueue, hnil, List.append_nil]
  | sent =>
    have hposted : posted [.sent] = [] := rfl
    rw [hposted, List.append_nil] at hdistinct hsend ⊢
    show Written env s₀ done (s.handleSentPayload env false)
    unfold handleSentPayload
    dsimp only
    rw [if_neg (by decide)]
    split
    next hqueue =>
      obtain ⟨hterm, hsending, -, qs, hqs, hwire', henc', hheap'⟩ :=
        sendPayload_spec (s := { s with isSending := false }) hframes hwire henc hheap h.count_le
          (hdone ▸ hdistinct) fun address hmem => hsend address (hdone ▸ List.mem_append_right _ hmem)
      rw [← hdone] at hqs hheap'
      refine ⟨hterm.trans h.not_terminated, fun _ => rfl, by simp, done, qs, ?_, hqs, hwire', henc',
        hheap'⟩
      exact (List.append_nil done).symm
    next hempty =>
      have hnil : s.sendQueue = [] := by simpa using hempty
      exact ⟨h.not_terminated, fun _ => hnil, h.count_le, sent, ps, hdone, hframes, hwire, henc,
        hheap⟩

/-- A run of the sender. -/
theorem Written.exec {ops : List PayloadOp} (h : Written env s₀ done s)
    (hone : Runs.Meets (NTCPSession.step env) OneTimeSync s ops)
    (hdistinct : ∀ address, (done ++ posted ops).count (some address) ≤ 1)
    (hsend : ∀ address, some address ∈ done ++ posted ops → Sendable (s₀.heap address)) :
    Written env s₀ (done ++ posted ops) (Runs.exec (NTCPSession.step env) s ops) := by
  induction ops generalizing s done with
  | nil =>
    have hnil : done ++ posted [] = done := List.append_nil done
    rw [hnil]
    exact h
  | cons op ops ih =>
    have hsplit : done ++ posted (op :: ops) = (done ++ posted [op]) ++ posted ops := by
      cases op <;> simp [posted]
    rw [hsplit] at hdistinct hsend ⊢
    have hstep := h.step op hone.1
      (fun address => by
        have hcount := hdistinct address
        rw [List.count_append] at hcount
        omega)
      fun address hmem => hsend address (List.mem_append_left _ hmem)
    exact ih hstep hone.2 hdistinct hsend

/-! ## Reads of the peer -/

/-- The peer, with the bytes left over from its last read, is in front of the cipher text of the
blocks `rest`, of which the bytes `tail` have not been read. -/
structure Reading (env : PayloadEnv) (e : Encryption ivSize) (rest : List (Block ivSize))
    (msgs : List (List UInt8)) (tail : List UInt8) (s : NTCPSession) : Prop where
  not_terminated : s.isTerminated = false
  offset_lt : s.receiveBufferOffset < ivSize
  inSync : InSync e s.decryption
  expects : Expects env s rest msgs
  bytes_eq : slice s.receiveBuffer 0 s.receiveBufferOffset ++ tail = bytesOf (e.encrypt rest).1

/-- The bytes in the buffer of the peer after a read. -/
theorem slice_receiveBuffer (s : NTCPSession) (data : List UInt8) :
    slice (store s.receiveBuffer s.receiveBufferOffset data) 0
        (s.receiveBufferOffset + data.length) =
      slice s.receiveBuffer 0 s.receiveBufferOffset ++ data := by
  rw [slice_add, Nat.zero_add, slice_store_self]
  congr 1
  apply slice_congr
  intro i hi
  apply store_of_lt
  omega

/-- Moving the incomplete block to the front of the buffer. -/
theorem slice_leftover (buf : Mem) (pos n : ℕ) :
    slice (memcpy buf 0 buf pos n) 0 n = slice buf pos n :=
  slice_memcpy_self buf buf 0 pos n

/-- One read. The blocks that are complete now are taken, the other bytes stay in the buffer. -/
theorem Reading.read {e : Encryption ivSize} {rest : List (Block ivSize)}
    {msgs : List (List UInt8)} {data tail : List UInt8}
    (h : Reading env e rest msgs (data ++ tail) s) :
    ∃ e' rest' msgs', Reading env e' rest' msgs' tail (s.read env data) ∧
      (s.read env data).handledBytes ++ msgs' = s.handledBytes ++ msgs := by
  set buf := store s.receiveBuffer s.receiveBufferOffset data with hbuf
  set total := s.receiveBufferOffset + data.length with htotal
  set count := total / ivSize with hcount
  have hall : slice buf 0 total ++ tail = bytesOf (e.encrypt rest).1 := by
    rw [slice_receiveBuffer, List.append_assoc]
    exact h.bytes_eq
  have hsplit : total = ivSize * count + total % ivSize := (Nat.div_add_mod total ivSize).symm
  have hlength : total + tail.length = ivSize * rest.length := by
    have hlen := congrArg List.length hall
    rwa [List.length_append, length_slice, length_bytesOf, Encryption.length_encrypt] at hlen
  have hle : count ≤ rest.length := by
    apply Nat.le_of_mul_le_mul_left _ (show 0 < ivSize by decide)
    omega
  -- the cipher text divides into the complete blocks and what follows them
  have hencrypt := e.encrypt_append (rest.take count) (rest.drop count)
  rw [List.take_append_drop] at hencrypt
  have hbytes : slice buf 0 (ivSize * count) ++ (slice buf (ivSize * count) (total % ivSize) ++ tail) =
      bytesOf (e.encrypt (rest.take count)).1 ++
        bytesOf ((e.encrypt (rest.take count)).2.encrypt (rest.drop count)).1 := by
    have happend : (e.encrypt rest).1 = (e.encrypt (rest.take count)).1 ++
        ((e.encrypt (rest.take count)).2.encrypt (rest.drop count)).1 := congrArg Prod.fst hencrypt
    rw [← bytesOf_append, ← happend, ← hall, ← List.append_assoc]
    congr 1
    have hadd := slice_add buf 0 (ivSize * count) (total % ivSize)
    rw [Nat.zero_add, ← hsplit] at hadd
    exact hadd.symm
  obtain ⟨hfront, hback⟩ := List.append_inj hbytes (by
    rw [length_slice, length_bytesOf, Encryption.length_encrypt, List.length_take,
      Nat.min_eq_left hle])
  have hblocks : (blocksAt buf 0 count : List (Block ivSize)) = (e.encrypt (rest.take count)).1 := by
    apply eq_of_bytesOf_eq
    · rw [length_blocksAt, Encryption.length_encrypt, List.length_take, Nat.min_eq_left hle]
    · rw [bytesOf_blocksAt]
      exact hfront
  have hexpects : Expects env { s with receiveBuffer := buf }
      (rest.take count ++ rest.drop count) msgs := by
    rw [List.take_append_drop]
    exact h.expects.congr rfl rfl
  obtain ⟨s', hrun, hsync, hbuffer, hterm, msgs', hexpects', hhandled⟩ :=
    expects_decryptBlocks (s := { s with receiveBuffer := buf }) (rest.take count) h.inSync hexpects
  have hread : s.read env data =
      { s' with
        receiveBuffer :=
          memcpy s'.receiveBuffer 0 s'.receiveBuffer (count * ivSize) (total % ivSize)
        receiveBufferOffset := total % ivSize } := by
    unfold NTCPSession.read handleReceivedPayload
    rw [if_neg (by simp [h.not_terminated]), if_neg (by simp), if_neg (by decide)]
    dsimp only
    rw [hblocks, hrun]
    rfl
  rw [hread]
  refine ⟨_, rest.drop count, msgs', ⟨hterm.trans h.not_terminated, ?_, hsync, ?_, ?_⟩, hhandled⟩
  · exact Nat.mod_lt _ (by decide)
  · exact hexpects'.congr rfl rfl
  · show slice (memcpy s'.receiveBuffer 0 s'.receiveBuffer (count * ivSize) (total % ivSize)) 0
      (total % ivSize) ++ tail = _
    rw [slice_leftover, hbuffer, Nat.mul_comm]
    exact hback

/-- All reads together: it does not matter where they cut the stream. -/
theorem Reading.exec {chunks : List (List UInt8)} {e : Encryption ivSize}
    {rest : List (Block ivSize)} {msgs : List (List UInt8)}
    (h : Reading env e rest msgs chunks.flatten s) :
    (Runs.exec (NTCPSession.read env) s chunks).handledBytes = s.handledBytes ++ msgs := by
  induction chunks generalizing s e rest msgs with
  | nil =>
    have hlen := congrArg List.length h.bytes_eq
    rw [List.flatten_nil, List.append_nil, length_slice, length_bytesOf,
      Encryption.length_encrypt] at hlen
    have hlt := h.offset_lt
    have hnil : rest = [] := by
      apply List.eq_nil_of_length_eq_zero
      simp only [ivSize] at *
      omega
    have hexpects := h.expects
    rw [hnil] at hexpects
    rw [hexpects.eq_nil, List.append_nil]
    rfl
  | cons data chunks ih =>
    have hsplit : Reading env e rest msgs (data ++ chunks.flatten) s := h
    obtain ⟨e', rest', msgs', hread, hhandled⟩ := hsplit.read
    exact (ih hread).trans hhandled

end NTCPSession

/-! ## Round trip -/

open NTCPSession

/-- A new session `s` runs the operations `ops`, and its peer `p` reads what it writes, cut into
`chunks` in any way. The objects posted are distinct, and no write takes more than one time
synchronisation message. -/
structure Transmission (env : PayloadEnv) (s : NTCPSession) (ops : List PayloadOp)
    (p : NTCPSession) (chunks : List (List UInt8)) : Prop where
  not_terminated : s.isTerminated = false
  not_sending : s.isSending = false
  sendQueue_eq : s.sendQueue = []
  wire_eq : s.wire = []
  inSync : InSync s.encryption p.decryption
  peer_not_terminated : p.isTerminated = false
  peer_offset : p.receiveBufferOffset = 0
  peer_idle : p.nextMessage = none
  sendable : ∀ address, some address ∈ posted ops → Sendable (s.heap address)
  distinct : ∀ address, (posted ops).count (some address) ≤ 1
  oneTimeSync : Runs.Meets (step env) OneTimeSync s ops
  chunks_eq : chunks.flatten = (Runs.exec (step env) s ops).wire

/-- The peer passes on exactly the messages posted, byte for byte and in order, except those that
still wait in the queue of the sender for a write to complete. -/
theorem Transmission.handled_eq {env : PayloadEnv} {s p : NTCPSession} {ops : List PayloadOp}
    {chunks : List (List UInt8)} (h : Transmission env s ops p chunks) :
    (Runs.exec (read env) p chunks).handledBytes ++
        messages s.heap (Runs.exec (step env) s ops).sendQueue =
      p.handledBytes ++ messages s.heap (posted ops) := by
  have hstart : Written env s [] s := by
    refine ⟨h.not_terminated, fun _ => h.sendQueue_eq, by simp [h.sendQueue_eq], [], [], ?_, .nil,
      h.wire_eq, rfl, fun _ _ => rfl⟩
    simp [h.sendQueue_eq]
  have hfinal := hstart.exec h.oneTimeSync (by simpa using h.distinct) (by simpa using h.sendable)
  obtain ⟨sent, ps, hposted, hframes, hwire, -, -⟩ := hfinal.written
  have hreading : Reading env s.encryption ps (messages s.heap sent) chunks.flatten p := by
    refine ⟨h.peer_not_terminated, ?_, h.inSync, .idle h.peer_idle hframes, ?_⟩
    · rw [h.peer_offset]
      decide
    · rw [h.peer_offset, h.chunks_eq, slice_zero, List.nil_append]
      exact hwire
  have hmessages : messages s.heap (posted ops) = messages s.heap sent ++
      messages s.heap (Runs.exec (step env) s ops).sendQueue := by
    rw [List.nil_append] at hposted
    rw [hposted]
    exact List.filterMap_append
  rw [hreading.exec, hmessages, List.append_assoc]

/-! ## A session with a simple cipher -/

/-- The cipher that adds one to every byte. -/
def shiftCipher : BlockCipher ivSize where
  encrypt b := ⟨b.bytes.map (· + 1), by simp⟩
  decrypt b := ⟨b.bytes.map (· - 1), by simp⟩
  decrypt_encrypt b := by
    apply Block.ext
    show (b.bytes.map (· + 1)).map (· - 1) = b.bytes
    rw [List.map_map]
    exact (List.map_congr_left fun x _ => UInt8.add_sub_cancel x 1).trans (List.map_id _)

/-- A block of zeros. -/
def zeroBlock : Block ivSize := ⟨List.replicate ivSize 0, by simp⟩

/-- Surroundings in which all checksums, random bytes and clocks are zero. -/
def zeroEnv : PayloadEnv := ⟨fun _ => 0, fun _ _ => 0, fun _ => 0⟩

/-- A new session whose objects are messages of different lengths. -/
def newSession : NTCPSession where
  heap address :=
    { I2NPMessage.newI2NPShortMessage with
      buf := fun i => UInt8.ofNat (i + address)
      len := 2 + (address + 1) }
  timeSyncBuffer := fun _ => 0
  encryption := ⟨shiftCipher, zeroBlock⟩
  decryption := ⟨shiftCipher, zeroBlock⟩
  isEstablished := true
  isTerminated := false
  isSending := false
  sendQueue := []
  receiveBuffer := fun _ => 0
  receiveBufferOffset := 0
  nextMessage := none
  nextMessageOffset := 0
  handled := []
  prepared := 0
  wire := []

/-- A time synchronisation message and a message, two more while the write is under way, and the
completion of the first write. -/
def someOps : List PayloadOp := [.post [none, some 3], .post [some 12], .post [none], .sent]

/-- A byte string cut into pieces of seven bytes. -/
def sevens : ℕ → List UInt8 → List (List UInt8)
  | 0, bytes => [bytes]
  | n + 1, bytes => bytes.take 7 :: sevens n (bytes.drop 7)

theorem flatten_sevens (n : ℕ) (bytes : List UInt8) : (sevens n bytes).flatten = bytes := by
  induction n generalizing bytes with
  | zero => simp [sevens]
  | succ n ih => rw [sevens, List.flatten_cons, ih, List.take_append_drop]

theorem handled_eq_someOps :
    (Runs.exec (read zeroEnv) newSession
        (sevens 9 (Runs.exec (step zeroEnv) newSession someOps).wire)).handledBytes ++
      messages newSession.heap (Runs.exec (step zeroEnv) newSession someOps).sendQueue =
      newSession.handledBytes ++ messages newSession.heap (posted someOps) := by
  have htransmission : Transmission zeroEnv newSession someOps newSession
      (sevens 9 (Runs.exec (step zeroEnv) newSession someOps).wire) := by
    refine ⟨rfl, rfl, rfl, rfl, ⟨rfl, rfl⟩, rfl, rfl, rfl, ?_, ?_, ?_, flatten_sevens _ _⟩
    · have hposted : posted someOps = [none, some 3, some 12, none] := rfl
      rw [hposted]
      intro address hmem
      obtain rfl | rfl : address = 3 ∨ address = 12 := by simpa using hmem
      · decide
      · decide
    · have hposted : posted someOps = [none, some 3, some 12, none] := rfl
      rw [hposted]
      intro address
      rw [List.count_cons, List.count_cons, List.count_cons, List.count_cons]
      simp only [List.count_nil]
      grind
    · decide +kernel
  exact htransmission.handled_eq

/-- Two time synchronisation messages in one write share a buffer: the cipher text of the second is
sent twice, and the message behind them is lost. -/
theorem not_handled_two_timeSyncs :
    (∀ address, some address ∈ posted [.post [none, none, some 3]] →
        Sendable (newSession.heap address)) ∧
      (Runs.exec (read zeroEnv) newSession
        [(Runs.exec (step zeroEnv) newSession
          [.post [none, none, some 3]]).wire]).handledBytes = [] ∧
      messages newSession.heap (posted [.post [none, none, some 3]]) ≠ [] := by
  refine ⟨?_, ?_, ?_⟩
  · intro address hmem
    obtain rfl : address = 3 := by simpa [posted] using hmem
    decide
  · decide +kernel
  · decide

end NTCP
