import Xi2p.Streaming.Receiver

/-!
# In-order delivery

A peer sends packets `0, 1, 2, …` on a stream, the first of them a SYN. They arrive in any order,
any number of times or not at all, between any other operations of the stream.

* `pushed_isPrefix_of_synIsFirst`: as long as no SYN is processed a second time, the bytes pushed to
  the receive queue are a prefix of the bytes sent.
* `not_pushed_isPrefix`: a repeated SYN is accepted like the first one. It rewinds
  `m_LastReceivedSequenceNumber` to `0` and its payload is pushed again.
-/

namespace Streaming

open Bytes Runs

/-- `MAX_PACKET_SIZE`. -/
abbrev maxPacketSize : ℕ := 4096

/-- A packet as it comes out of the decompressor: nothing of it has been consumed, it fits the
buffer, and its header and options end inside it. -/
structure Packet.WellFormed (p : Packet) : Prop where
  offset_eq : p.offset = 0
  payloadOffset_le : p.payloadOffset ≤ p.len
  len_le : p.len ≤ maxPacketSize

/-- The packets that a peer sends on one stream: a SYN with sequence number `0`, then packets with
consecutive sequence numbers. -/
structure SentInOrder (sent : List Packet) : Prop where
  seqn_eq : ∀ {i : ℕ} {p : Packet}, sent[i]? = some p → p.getSeqn.toNat = i
  isSYN_iff : ∀ {i : ℕ} {p : Packet}, sent[i]? = some p → (p.isSYN ↔ i = 0)
  wellFormed : ∀ p ∈ sent, p.WellFormed

instance (p : Packet) : Decidable p.WellFormed :=
  decidable_of_iff (p.offset = 0 ∧ p.payloadOffset ≤ p.len ∧ p.len ≤ maxPacketSize)
    ⟨fun ⟨h₁, h₂, h₃⟩ => ⟨h₁, h₂, h₃⟩, fun h => ⟨h.offset_eq, h.payloadOffset_le, h.len_le⟩⟩

/-- The order of the packets can be checked index by index. -/
theorem sentInOrder_of_forall_fin {sent : List Packet}
    (h : ∀ i : Fin sent.length,
      (sent.get i).getSeqn.toNat = i ∧ ((sent.get i).isSYN ↔ i.val = 0) ∧
        (sent.get i).WellFormed) : SentInOrder sent := by
  refine ⟨?_, ?_, ?_⟩
  · intro i p hp
    obtain ⟨hi, rfl⟩ := List.getElem?_eq_some_iff.mp hp
    exact (h ⟨i, hi⟩).1
  · intro i p hp
    obtain ⟨hi, rfl⟩ := List.getElem?_eq_some_iff.mp hp
    exact (h ⟨i, hi⟩).2.1
  · intro p hp
    obtain ⟨i, rfl⟩ := List.mem_iff_get.mp hp
    exact (h i).2.2

theorem SentInOrder.length_le {sent : List Packet} (h : SentInOrder sent) :
    sent.length ≤ 2 ^ 32 := by
  rcases Nat.eq_zero_or_pos sent.length with h0 | hpos
  · omega
  · have hlast := h.seqn_eq (List.getElem?_eq_getElem (show sent.length - 1 < _ by omega))
    have hlt := (sent[sent.length - 1]).getSeqn.toNat_lt
    omega

/-! ## The bytes pushed to the receive queue -/

namespace Inbound

/-- The receiving half of a new stream. -/
def empty : Inbound := ⟨-1, [], [], [], []⟩

/-- The bytes pushed to the receive queue so far, whether read or not. -/
def pushed (r : Inbound) : List UInt8 := r.delivered ++ (r.queue.map Packet.contents).flatten

end Inbound

/-- A packet in the receive queue: the offset is inside the packet. -/
def Packet.Queued (p : Packet) : Prop := p.offset ≤ p.len ∧ p.len ≤ maxPacketSize

theorem Packet.Queued.getLength_eq {p : Packet} (h : p.Queued) :
    p.getLength = p.len - p.offset := by
  obtain ⟨hle, hmax⟩ := h
  have hlen : p.len - p.offset < 2 ^ 64 := by
    simp only [maxPacketSize] at hmax
    omega
  unfold getLength
  rw [Nat.add_sub_assoc hle, Nat.add_mod_left, Nat.mod_eq_of_lt hlen]

theorem Packet.Queued.advance {p : Packet} (h : p.Queued) {l : ℕ} (hl : l ≤ p.getLength) :
    { p with offset := p.offset + l }.Queued := by
  rw [h.getLength_eq] at hl
  obtain ⟨hle, hmax⟩ := h
  refine ⟨?_, hmax⟩
  show p.offset + l ≤ p.len
  omega

/-- Reading part of a packet splits its contents. -/
theorem Packet.Queued.contents_eq {p : Packet} (h : p.Queued) {l : ℕ} (hl : l ≤ p.getLength) :
    p.contents = slice p.buf p.offset l ++ { p with offset := p.offset + l }.contents := by
  have hrest : p.getLength = l + { p with offset := p.offset + l }.getLength := by
    rw [(h.advance hl).getLength_eq]
    rw [h.getLength_eq] at hl ⊢
    show p.len - p.offset = l + (p.len - (p.offset + l))
    omega
  unfold contents
  rw [hrest, slice_add]

/-- `ConcatenatePackets` moves bytes from the queue to the reader, in order. -/
theorem concatenatePackets_eq {queue : List Packet} (hqueue : ∀ p ∈ queue, p.Queued) (len : ℕ) :
    (queue.map Packet.contents).flatten =
        (Stream.concatenatePackets queue len).2 ++
          ((Stream.concatenatePackets queue len).1.map Packet.contents).flatten ∧
      ∀ p ∈ (Stream.concatenatePackets queue len).1, p.Queued := by
  induction queue generalizing len with
  | nil => simp [Stream.concatenatePackets]
  | cons packet rest ih =>
    have hpacket := hqueue packet List.mem_cons_self
    have hrest : ∀ p ∈ rest, p.Queued := fun p hp => hqueue p (List.mem_cons_of_mem _ hp)
    have hl : min packet.getLength len ≤ packet.getLength := min_le_left _ _
    rw [Stream.concatenatePackets]
    split
    · simpa using hqueue
    · dsimp only
      split
      next hzero =>
        -- the packet is used up and leaves the queue
        obtain ⟨heq, hall⟩ := ih hrest (len - min packet.getLength len)
        refine ⟨?_, hall⟩
        have hnil : { packet with offset := packet.offset + min packet.getLength len }.contents =
            [] := by
          unfold Packet.contents
          rw [hzero, slice_zero]
        rw [List.map_cons, List.flatten_cons, hpacket.contents_eq hl, hnil, heq]
        simp
      next =>
        refine ⟨?_, ?_⟩
        · simp only [List.map_cons, List.flatten_cons]
          rw [hpacket.contents_eq hl, List.append_assoc]
        · intro p hp
          rcases List.mem_cons.mp hp with rfl | hp
          · exact hpacket.advance hl
          · exact hrest p hp

/-! ## The invariant -/

/-- The receiving half after the first `k` packets of `sent` have been processed. -/
structure InSequence (sent : List Packet) (k : ℕ) (r : Inbound) : Prop where
  pushed_eq : r.pushed = ((sent.take k).map Packet.payload).flatten
  last_eq : r.last.toUInt32 + 1 = UInt32.ofNat k
  le_length : k ≤ sent.length
  saved : ∀ p ∈ r.saved, p ∈ sent ∧ ¬ p.isSYN
  queue : ∀ p ∈ r.queue, p.Queued
  accepted : 0 < k → 0 ∈ r.accepted

variable {sent : List Packet} {k : ℕ} {r : Inbound} {p : Packet}

theorem inSequence_empty : InSequence sent 0 Inbound.empty where
  pushed_eq := rfl
  last_eq := rfl
  le_length := Nat.zero_le _
  saved := by simp [Inbound.empty]
  queue := by simp [Inbound.empty]
  accepted := by simp

theorem InSequence.readSome {s : Stream} (h : InSequence sent k s.inbound) (len : ℕ) :
    InSequence sent k (s.readSome len).inbound := by
  obtain ⟨heq, hqueue⟩ := concatenatePackets_eq h.queue len
  refine ⟨?_, h.last_eq, h.le_length, h.saved, hqueue, h.accepted⟩
  rw [← h.pushed_eq]
  change (s.delivered ++ _) ++ _ = s.delivered ++ (s.inbound.queue.map Packet.contents).flatten
  rw [heq, List.append_assoc]
  rfl

/-- The packet as it stands in the queue holds the payload. -/
theorem Packet.WellFormed.queued (h : p.WellFormed) :
    { p with offset := p.payloadOffset }.Queued :=
  ⟨h.payloadOffset_le, h.len_le⟩

theorem Packet.WellFormed.contents_eq (h : p.WellFormed) :
    { p with offset := p.payloadOffset }.contents = p.payload := by
  unfold contents
  rw [h.queued.getLength_eq]
  rfl

/-- `ProcessPacket` pushes the payload of the packet. -/
theorem pushed_process (h : p.WellFormed) : (r.process p).pushed = r.pushed ++ p.payload := by
  have hcontents := h.contents_eq
  unfold Inbound.pushed Inbound.process
  dsimp only
  split
  · rw [List.map_append, List.flatten_append, List.map_singleton, List.flatten_singleton,
      hcontents, List.append_assoc]
  · next hzero =>
    -- a packet without payload is not queued
    have hnil : p.payload = [] := by
      rw [← hcontents, Packet.contents, Nat.eq_zero_of_not_pos hzero, slice_zero]
    rw [hnil, List.append_nil]

theorem queue_process (h : p.WellFormed) (hqueue : ∀ q ∈ r.queue, q.Queued) :
    ∀ q ∈ (r.process p).queue, q.Queued := by
  unfold Inbound.process
  dsimp only
  split
  · intro q hq
    rcases List.mem_append.mp hq with hq | hq
    · exact hqueue q hq
    · rw [List.mem_singleton.mp hq]
      exact h.queued
  · exact hqueue

theorem seqn_eq_ofNat (hsent : SentInOrder sent) {i : ℕ} (hp : sent[i]? = some p) :
    p.getSeqn = UInt32.ofNat i := by
  rw [← hsent.seqn_eq hp, UInt32.ofNat_toNat]

/-- Processing the next packet of the sequence. -/
theorem InSequence.process (hsent : SentInOrder sent) (h : InSequence sent k r)
    (hp : sent[k]? = some p) : InSequence sent (k + 1) (r.process p) := by
  have hwf := hsent.wellFormed p (List.mem_of_getElem? hp)
  have hk : k < sent.length := (List.getElem?_eq_some_iff.mp hp).1
  refine ⟨?_, ?_, hk, h.saved, queue_process hwf h.queue, ?_⟩
  · rw [pushed_process hwf, h.pushed_eq, List.take_add_one, hp]
    simp
  · show p.getSeqn + 1 = _
    rw [seqn_eq_ofNat hsent hp, UInt32.ofNat_add]
    rfl
  · intro _
    show 0 ∈ r.accepted ++ [p.getSeqn]
    rcases Nat.eq_zero_or_pos k with rfl | hpos
    · rw [seqn_eq_ofNat hsent hp]
      simp
    · exact List.mem_append_left _ (h.accepted hpos)

/-- Processing an empty SYN again, right after it. -/
theorem InSequence.process_again (hsent : SentInOrder sent) (h : InSequence sent 1 r)
    (hp : sent[0]? = some p) (hempty : p.payload = []) : InSequence sent 1 (r.process p) := by
  have hwf := hsent.wellFormed p (List.mem_of_getElem? hp)
  refine ⟨?_, ?_, h.le_length, h.saved, queue_process hwf h.queue, ?_⟩
  · rw [pushed_process hwf, hempty, List.append_nil, h.pushed_eq]
  · show p.getSeqn + 1 = _
    rw [seqn_eq_ofNat hsent hp]
    rfl
  · exact fun h1 => List.mem_append_left _ (h.accepted h1)

/-- A packet other than the SYN that carries the number the receiver waits for is the next one. -/
theorem getElem?_of_seqn_eq (hsent : SentInOrder sent) (h : InSequence sent k r)
    (hp : p ∈ sent) (hsyn : ¬ p.isSYN) (hseqn : p.getSeqn = (r.last + 1).toUInt32) :
    sent[k]? = some p := by
  obtain ⟨i, hi⟩ := List.mem_iff_getElem?.mp hp
  have hnext : p.getSeqn.toNat = k % 2 ^ 32 := by
    rw [hseqn, show (r.last + 1).toUInt32 = r.last.toUInt32 + 1 from rfl, h.last_eq,
      UInt32.toNat_ofNat']
  have hi0 : i ≠ 0 := fun h0 => hsyn ((hsent.isSYN_iff hi).mpr h0)
  have hlen := hsent.length_le
  have hk := h.le_length
  rw [hsent.seqn_eq hi] at hnext
  -- the numbers only wrap around at the SYN
  have : i = k := by omega
  rwa [← this]

/-- The loop over the saved packets goes on in sequence. -/
theorem InSequence.drain (hsent : SentInOrder sent) (h : InSequence sent k r)
    {saved : List Packet} (hsaved : ∀ p ∈ saved, p ∈ sent ∧ ¬ p.isSYN) :
    ∃ k', k ≤ k' ∧ InSequence sent k' (r.drain saved) := by
  induction saved generalizing k r with
  | nil => exact ⟨k, le_refl k, h⟩
  | cons p saved ih =>
    have hrest : ∀ q ∈ saved, q ∈ sent ∧ ¬ q.isSYN := fun q hq =>
      hsaved q (List.mem_cons_of_mem _ hq)
    rw [Inbound.drain]
    split
    next hseqn =>
      obtain ⟨hp, hsyn⟩ := hsaved p List.mem_cons_self
      have hk := getElem?_of_seqn_eq hsent h hp hsyn hseqn
      have herase : InSequence sent k { r with saved := saved } :=
        { h with pushed_eq := h.pushed_eq, saved := hrest }
      obtain ⟨k', hk', hdrain⟩ := ih (herase.process hsent hk) hrest
      exact ⟨k', by omega, hdrain⟩
    next => exact ⟨k, le_refl k, h⟩

theorem InSequence.save (h : InSequence sent k r) (hp : p ∈ sent) (hsyn : ¬ p.isSYN) :
    InSequence sent k (r.save p) := by
  refine ⟨h.pushed_eq, h.last_eq, h.le_length, ?_, h.queue, ?_⟩
  · intro q hq
    rcases KeyedSet.eq_or_mem_of_mem_insert hq with rfl | hq
    · exact ⟨hp, hsyn⟩
    · exact h.saved q hq
  · exact fun hk => List.mem_append_left _ (h.accepted hk)

/-- One packet: the receiver stays in sequence, unless a SYN comes again. -/
theorem InSequence.receive (hsent : SentInOrder sent) (h : InSequence sent k r) (hp : p ∈ sent)
    (hsyn : p.isSYN → 0 ∉ r.accepted ∨ r.last = 0 ∧ p.payload = []) :
    ∃ k', k ≤ k' ∧ InSequence sent k' (r.receive p) := by
  unfold Inbound.receive
  split
  · exact ⟨k, le_refl k, h⟩
  by_cases hisSYN : p.isSYN
  · have h0 : sent[0]? = some p := by
      obtain ⟨i, hi⟩ := List.mem_iff_getElem?.mp hp
      rwa [(hsent.isSYN_iff hi).mp hisSYN] at hi
    rw [if_pos (by simp [hisSYN])]
    rcases hsyn hisSYN with hfirst | ⟨hlast, hempty⟩
    · -- the first SYN: nothing has been processed before
      have hk : k = 0 := by
        by_contra hne
        exact hfirst (h.accepted (Nat.pos_of_ne_zero hne))
      subst hk
      obtain ⟨k', hk', hdrain⟩ := (h.process hsent h0).drain hsent h.saved
      exact ⟨k', by omega, hdrain⟩
    · have hk : k = 1 := by
        have hone := h.last_eq
        have hlen := hsent.length_le
        have hle := h.le_length
        rw [hlast] at hone
        have htoNat := congrArg UInt32.toNat hone
        rw [UInt32.toNat_ofNat'] at htoNat
        have : (Int32.toUInt32 0 + 1).toNat = 1 := rfl
        omega
      subst hk
      exact (h.process_again hsent h0 hempty).drain hsent h.saved
  · split
    next hnext =>
      have hseqn : p.getSeqn = (r.last + 1).toUInt32 := by
        simp only [hisSYN, Bool.false_or, decide_eq_true_eq] at hnext
        rw [← hnext]
        rfl
      have hk := getElem?_of_seqn_eq hsent h hp hisSYN hseqn
      obtain ⟨k', hk', hdrain⟩ := (h.process hsent hk).drain hsent h.saved
      exact ⟨k', by omega, hdrain⟩
    next =>
      split
      · exact ⟨k, le_refl k, h⟩
      · exact ⟨k, le_refl k, h.save hp hisSYN⟩

/-! ## Runs -/

/-- An operation together with the time at which it happens. -/
abbrev TimedOperation := UInt64 × Operation

/-- The step of a stream by a timed operation. -/
def Stream.stepAt (env : StreamEnv) (s : Stream) (op : TimedOperation) : Stream :=
  s.step env op.1 op.2

/-- The packet that arrives is one of the packets sent. -/
def ArrivesFrom (sent : List Packet) : TimedOperation → Prop
  | (_, .handleNextPacket p) => p ∈ sent
  | _ => True

/-- A SYN that arrives is the first one to be processed, or it carries nothing and
`m_LastReceivedSequenceNumber` is `0` anyway. -/
def SynIsFirst (s : Stream) : TimedOperation → Prop
  | (_, .handleNextPacket p) =>
    p.isSYN → 0 ∉ s.accepted ∨ s.lastReceivedSequenceNumber = 0 ∧ p.payload = []
  | _ => True

instance (s : Stream) (op : TimedOperation) : Decidable (SynIsFirst s op) :=
  match op with
  | (_, .handleNextPacket p) =>
    inferInstanceAs (Decidable
      (p.isSYN → 0 ∉ s.accepted ∨ s.lastReceivedSequenceNumber = 0 ∧ p.payload = []))
  | (_, .send _) | (_, .asyncSend _ _) | (_, .sendBuffer) | (_, .sendPacket) | (_, .readSome _)
  | (_, .close) | (_, .terminate) | (_, .handleResendTimer) | (_, .handleAckSendTimer) =>
    inferInstanceAs (Decidable True)

/-- One operation of the stream keeps the receiver in sequence. -/
theorem InSequence.step (env : StreamEnv) (hsent : SentInOrder sent) {s : Stream}
    (h : ∃ k, InSequence sent k s.inbound) (op : TimedOperation) (hsyn : SynIsFirst s op)
    (harrives : ArrivesFrom sent op) : ∃ k, InSequence sent k (s.stepAt env op).inbound := by
  obtain ⟨k, h⟩ := h
  obtain ⟨now, op⟩ := op
  unfold Stream.stepAt Stream.step
  cases op with
  | handleNextPacket p =>
    obtain ⟨k', -, h'⟩ := h.receive hsent harrives hsyn
    refine ⟨k', ?_⟩
    dsimp only
    rwa [Stream.inbound_handleNextPacket]
  | readSome len => exact ⟨k, h.readSome len⟩
  | _ =>
    -- the other operations only send
    refine ⟨k, ?_⟩
    simpa using h

/-- Packets of one peer arrive in any order, repeated or not at all. If every SYN that arrives is
the first one, the bytes pushed to the receive queue are a prefix of the bytes sent. -/
theorem pushed_isPrefix_of_synIsFirst (env : StreamEnv) {sent : List Packet}
    (hsent : SentInOrder sent) {s : Stream} (hs : s.inbound = Inbound.empty)
    {ops : List TimedOperation} (harrives : ∀ op ∈ ops, ArrivesFrom sent op)
    (hsyn : Meets (Stream.stepAt env) SynIsFirst s ops) :
    (exec (Stream.stepAt env) s ops).inbound.pushed <+: (sent.map Packet.payload).flatten := by
  have hinit : ∃ k, InSequence sent k s.inbound := ⟨0, hs ▸ inSequence_empty⟩
  have hmeets := hsyn.and_of_forall harrives
  obtain ⟨k, h⟩ := invariant_of_meets (I := fun s => ∃ k, InSequence sent k s.inbound)
    (fun _ op hinv hop => InSequence.step env hsent hinv op hop.1 hop.2) hinit hmeets
  rw [h.pushed_eq]
  -- what has been processed is a prefix of what was sent
  have hprefix := (List.take_prefix k sent).map Packet.payload
  obtain ⟨rest, hrest⟩ := hprefix
  rw [← hrest, List.flatten_append]
  exact List.prefix_append _ _

/-! ## A stream on a quiet network -/

/-- An environment with trivial primitives and an identity of zeros. -/
def quietEnv : StreamEnv where
  crypto := ⟨fun _ => I2NP.IdentHash.zero, fun _ _ _ _ => true⟩
  identity := {}
  sign := fun _ => List.replicate 40 0
  newBuffer := fun _ => 0

/-- The end of a stream that answers an incoming connection, about to send `buf` in the packet
`seqn`. -/
def answering (seqn : UInt32) (buf : List UInt8) : Stream :=
  { sendStreamID := 1
    recvStreamID := 2
    sequenceNumber := seqn
    lastReceivedSequenceNumber := 0
    sendBuffer := { unread := buf } }

/-- The SYN and two follow-on packets of that end, with one byte each. -/
def answer : List Packet :=
  [((answering 0 [1]).synPacket quietEnv false).2,
    ((answering 1 [2]).followOnPacket quietEnv false).2,
    ((answering 2 [3]).followOnPacket quietEnv false).2]

/-- The end of the stream that receives the answer. -/
def connecting : Stream := { recvStreamID := 1 }

/-- The arrival of the packets of `answer` with the given numbers. -/
def arrivals (order : List (Fin 3)) : List TimedOperation :=
  order.map fun i => (0, .handleNextPacket (answer.get i))

theorem sentInOrder_answer : SentInOrder answer := by
  apply sentInOrder_of_forall_fin
  decide +kernel

theorem arrivesFrom_arrivals (order : List (Fin 3)) :
    ∀ op ∈ arrivals order, ArrivesFrom answer op := by
  intro op hop
  obtain ⟨i, -, rfl⟩ := List.mem_map.mp hop
  exact List.get_mem answer i

/-- Packet `2` overtakes the others and packet `1` comes twice. -/
theorem pushed_isPrefix_reordered :
    (exec (Stream.stepAt quietEnv) connecting (arrivals [2, 0, 1, 1])).inbound.pushed = [1, 2, 3] ∧
      (exec (Stream.stepAt quietEnv) connecting (arrivals [2, 0, 1, 1])).inbound.pushed <+:
        (answer.map Packet.payload).flatten := by
  refine ⟨by decide +kernel, ?_⟩
  apply pushed_isPrefix_of_synIsFirst quietEnv sentInOrder_answer
  · rfl
  · exact arrivesFrom_arrivals _
  · decide +kernel

/-- The SYN of the answer comes twice: its byte is delivered twice. -/
theorem not_pushed_isPrefix :
    SentInOrder answer ∧ connecting.inbound = Inbound.empty ∧
      (∀ op ∈ arrivals [0, 0], ArrivesFrom answer op) ∧
      (exec (Stream.stepAt quietEnv) connecting (arrivals [0, 0])).inbound.pushed = [1, 1] ∧
      ¬ (exec (Stream.stepAt quietEnv) connecting (arrivals [0, 0])).inbound.pushed <+:
        (answer.map Packet.payload).flatten := by
  refine ⟨sentInOrder_answer, rfl, arrivesFrom_arrivals _, ?_, ?_⟩
  · decide +kernel
  · decide +kernel

end Streaming
