import Mathlib.Logic.Relation
import Xi2p.Streaming.Receiver

/-!
# The sending half of a stream

`Outbound` is the part of a stream that decides what it sends. What the source does to it on an
operation is a chain of a few stages (`Stage`): packets are released, `SendBuffer` or `Close` is called,
the stream is reset, a quick ack is sent.

* `stages_step`: every operation is such a chain, apart from those that the application calls to hand
  bytes over or to end the stream.
* `of_stages`: what the stages keep, such an operation keeps.
-/

namespace Streaming

open Bytes Identity Relation

/-- The sending half of a stream. -/
@[ext]
structure Outbound where
  /-- `m_SendStreamID`. -/
  sendStreamID : UInt32
  /-- `m_SequenceNumber`. -/
  sequenceNumber : UInt32
  /-- `m_Status`. -/
  status : StreamStatus
  /-- `m_SentPackets`. -/
  sentPackets : List Packet
  /-- Whether `m_ResendTimer` is running. -/
  resendTimer : Bool
  /-- `m_SendBuffer`. -/
  sendBuffer : StringStream
  /-- `m_WindowSize`. -/
  windowSize : ℤ
  /-- `m_NumResendAttempts`. -/
  numResendAttempts : ℤ
  /-- `m_SendHandler`. -/
  sendHandler : Option ℕ
  /-- The packets given to `SendPackets`. -/
  wire : List Packet
  /-- The packets posted to `SendPacket`. -/
  posted : List Packet
  /-- The handler calls. -/
  completions : List (ℕ × Bool)
  /-- The sequence numbers that `ProcessAck` has released. -/
  released : List UInt32

namespace Stream

/-- The sending half of `s`. -/
def outbound (s : Stream) : Outbound where
  sendStreamID := s.sendStreamID
  sequenceNumber := s.sequenceNumber
  status := s.status
  sentPackets := s.sentPackets
  resendTimer := s.resendTimer
  sendBuffer := s.sendBuffer
  windowSize := s.windowSize
  numResendAttempts := s.numResendAttempts
  sendHandler := s.sendHandler
  wire := s.wire
  posted := s.posted
  completions := s.completions
  released := s.released

variable {env : StreamEnv} {now : UInt64} {s t u : Stream} {packet : Packet}

/-! ## Stages -/

/-- The stages of an operation. Whatever touches neither half of the stream, or the receiving half
alone, is `inward`. -/
inductive Stage (env : StreamEnv) (now : UInt64) : Stream → Stream → Prop
  | inward {s t : Stream} (h : t.outbound = s.outbound) : Stage env now s t
  | learn (s : Stream) (packet : Packet) : Stage env now s (s.learnSendStreamID packet)
  | release (s : Stream) (packet : Packet) : Stage env now s (s.releasePackets now packet)
  | acked (s : Stream) : Stage env now s { s with numResendAttempts := 0 }
  | sendBuffer (s : Stream) : Stage env now s (s.sendBufferPackets env now)
  | close (s : Stream) : Stage env now s (s.close env)
  | reset (s : Stream) : Stage env now s { s with status := .reset }
  | quickAck {s : Stream} (h : KeyedSet.Sorted Packet.order s.savedPackets) :
      Stage env now s (s.sendQuickAck env)
  | resend {s : Stream} (h : s.numResendAttempts < maxNumResendAttempts) :
      Stage env now s (s.handleResendTimer env now)
  | runPosted (s : Stream) : Stage env now s s.runPosted

/-- A chain of stages. -/
abbrev Stages (env : StreamEnv) (now : UInt64) : Stream → Stream → Prop :=
  ReflTransGen (Stage env now)

/-- What every stage keeps, a chain of stages keeps. -/
theorem of_stages {P : Outbound → Prop}
    (hstage : ∀ {s t : Stream}, Stage env now s t → P s.outbound → P t.outbound)
    (h : Stages env now s t) (hs : P s.outbound) : P t.outbound := by
  induction h with
  | refl => exact hs
  | tail _ hlast ih => exact hstage hlast ih

theorem Stages.inward (h : Stages env now s t) (hu : u.outbound = t.outbound) :
    Stages env now s u :=
  h.tail (.inward hu)

/-- A stream that is closed because it has been reset. -/
theorem Stages.resetClose (h : Stages env now s t)
    (hu : u.outbound = { t.outbound with status := .reset }) : Stages env now s (u.close env) :=
  (Stages.inward (h.tail (.reset t)) hu).tail (.close u)

/-! ## Acknowledgements -/

theorem stages_releaseAndSend : Stages env now s (s.releaseAndSend env now packet) := by
  have hrelease : Stages env now s (s.releasePackets now packet) := .single (.release s packet)
  unfold releaseAndSend
  split
  · exact (hrelease.tail (.acked _)).tail (.sendBuffer _)
  · exact hrelease

theorem stages_processAck : Stages env now s (s.processAck env now packet) := by
  unfold processAck
  dsimp only
  split
  · exact stages_releaseAndSend.tail (.close _)
  · exact stages_releaseAndSend

theorem stages_beforeSequence : Stages env now s (s.beforeSequence env now packet) := by
  have hlearn : Stages env now s (s.learnSendStreamID packet) := .single (.learn s packet)
  unfold beforeSequence
  split
  · exact hlearn
  · exact hlearn.trans stages_processAck

/-! ## Packets in sequence -/

theorem stages_processOptions : Stages env now s (s.processOptions env packet).1 := by
  have hfrom : Stages env now s (s.processFrom env packet).1 := .single (.inward rfl)
  unfold processOptions
  dsimp only
  split
  · have hverifier : Stages env now s { (s.processFrom env packet).1 with
        remoteIdentity := (s.processFrom env packet).1.remoteIdentity.withVerifier } :=
      hfrom.inward rfl
    split
    · exact hverifier
    · -- the signature is wrong
      exact hverifier.tail (.close _)
  · exact hfrom

theorem stages_processPacket : Stages env now s (s.processPacket env packet) := by
  have hoptions : Stages env now s (s.processOptions env packet).1 := stages_processOptions
  unfold processPacket
  dsimp only
  split
  · exact hoptions.resetClose rfl
  · exact hoptions.inward rfl

theorem stages_processSaved (saved : List Packet) (s : Stream) :
    Stages env now s (s.processSaved env saved) := by
  induction saved generalizing s with
  | nil => exact .refl
  | cons p saved ih =>
    rw [processSaved]
    split
    · have herase : Stages env now s { s with savedPackets := saved } := .single (.inward rfl)
      exact (herase.trans stages_processPacket).trans (ih _)
    · exact .refl

theorem stages_handleInSequence : Stages env now s (s.handleInSequence env now packet) := by
  have hprocess : Stages env now s ((s.processPacket env packet).processSaved env
      (s.processPacket env packet).savedPackets) :=
    stages_processPacket.trans (stages_processSaved _ _)
  unfold handleInSequence
  dsimp only
  split
  · exact hprocess.inward rfl
  · split
    · exact hprocess.tail (.sendBuffer _)
    · exact hprocess

/-! ## Packets out of sequence -/

theorem stages_handleOutOfSequence (hsaved : KeyedSet.Sorted Packet.order s.savedPackets) :
    Stages env now s (s.handleOutOfSequence env packet) := by
  unfold handleOutOfSequence
  dsimp only
  split
  · exact .single (.quickAck hsaved)
  · have hsave : Stages env now s (s.savePacket packet) := .single (.inward rfl)
    split
    · refine ReflTransGen.tail (hsave.inward ?_) (.quickAck ?_)
      · rfl
      · exact hsaved.insert
    · exact hsave.inward rfl

theorem stages_handleNextPacket (hsaved : KeyedSet.Sorted Packet.order s.savedPackets) :
    Stages env now s (s.handleNextPacket env now packet) := by
  have hbefore : Stages env now s (s.beforeSequence env now packet) := stages_beforeSequence
  -- the packets out of sequence are still in order
  have hsame : (s.beforeSequence env now packet).savedPackets = s.savedPackets :=
    congrArg Inbound.saved (inbound_beforeSequence env now s packet)
  unfold handleNextPacket
  dsimp only
  split
  · exact hbefore
  · split
    · exact hbefore.trans stages_handleInSequence
    · apply hbefore.trans
      apply stages_handleOutOfSequence
      rwa [hsame]

/-! ## Operations -/

theorem stages_handleResendTimer : Stages env now s (s.handleResendTimer env now) := by
  by_cases hattempts : s.numResendAttempts < maxNumResendAttempts
  · exact .single (.resend hattempts)
  · rw [handleResendTimer, if_pos (not_lt.mp hattempts)]
    exact Stages.resetClose .refl rfl

theorem stages_handleAckSendTimer (hsaved : KeyedSet.Sorted Packet.order s.savedPackets) :
    Stages env now s (s.handleAckSendTimer env) := by
  unfold handleAckSendTimer
  split
  · split
    · exact Stages.resetClose .refl rfl
    · dsimp only
      split
      · exact Stages.inward (.single (.quickAck hsaved)) rfl
      · exact .single (.inward rfl)
  · exact .refl

end Stream

/-- The operation is a chain of stages: it neither hands bytes over nor ends the stream from outside. -/
def Operation.isStaged : Operation → Bool
  | .send _ | .asyncSend _ _ | .terminate => false
  | _ => true

theorem Stream.stages_step {env : StreamEnv} {now : UInt64} {s : Stream} {op : Operation}
    (hop : op.isStaged) (hsaved : KeyedSet.Sorted Packet.order s.savedPackets) :
    Stages env now s (s.step env now op) := by
  cases op with
  | handleNextPacket packet => exact stages_handleNextPacket hsaved
  | sendBuffer => exact .single (.sendBuffer s)
  | sendPacket => exact .single (.runPosted s)
  | readSome len => exact .single (.inward rfl)
  | close => exact .single (.close s)
  | handleResendTimer => exact stages_handleResendTimer
  | handleAckSendTimer => exact stages_handleAckSendTimer hsaved
  | send buf | asyncSend buf handler | terminate => cases hop

/-! ## What the functions do to the sending half -/

namespace Stream

variable {env : StreamEnv} {now : UInt64} {s : Stream} {packet : Packet}

theorem outbound_learnSendStreamID (s : Stream) (packet : Packet) :
    ∃ sendStreamID, (s.learnSendStreamID packet).outbound = { s.outbound with sendStreamID } := by
  unfold learnSendStreamID
  split
  · exact ⟨packet.getReceiveStreamID, rfl⟩
  · exact ⟨s.sendStreamID, rfl⟩

/-- The window is between its bounds. -/
def WindowFits (w : ℤ) : Prop := minWindowSize ≤ w ∧ w ≤ maxWindowSize

/-- Half a window is a window. -/
theorem WindowFits.half {w : ℤ} (h : WindowFits w) : WindowFits (max (w.tdiv 2) minWindowSize) := by
  unfold WindowFits at h ⊢
  simp only [minWindowSize, maxWindowSize] at h ⊢
  rw [Int.tdiv_eq_ediv_of_nonneg (by omega)]
  omega

theorem outbound_acknowledge (now : UInt64) (s : Stream) (sent : Packet) :
    ∃ windowSize, (s.acknowledge now sent).outbound =
        { s.outbound with windowSize, released := s.released ++ [sent.getSeqn] } ∧
      (WindowFits s.windowSize → WindowFits windowSize) := by
  unfold acknowledge WindowFits
  dsimp only
  split
  -- slow start stops below the largest window
  next hslow =>
    refine ⟨_, rfl, fun h => ?_⟩
    simp only [slowStartWindowSize, minWindowSize, maxWindowSize] at hslow h ⊢
    omega
  next =>
    split
    · refine ⟨_, rfl, fun h => ?_⟩
      simp only [minWindowSize, maxWindowSize] at h ⊢
      omega
    · exact ⟨_, rfl, fun h => h⟩

/-- The loop of `ProcessAck`: a packet is kept or its number is released. -/
theorem outbound_releaseAcked (now : UInt64) (packet : Packet) (sent : List Packet) (s : Stream) :
    ∃ windowSize released, (releaseAcked now packet sent s).1.outbound =
        { s.outbound with windowSize, released := s.released ++ released } ∧
      (WindowFits s.windowSize → WindowFits windowSize) ∧
      (releaseAcked now packet sent s).2.Sublist sent ∧
      ∀ p ∈ sent, p ∈ (releaseAcked now packet sent s).2 ∨ p.getSeqn ∈ released := by
  induction sent generalizing s with
  | nil =>
    refine ⟨s.windowSize, [], ?_, fun h => h, List.Sublist.refl _, by simp⟩
    rw [List.append_nil]
    rfl
  | cons p sent ih =>
    rw [releaseAcked]
    split
    · split
      · -- a packet with a NACK is kept
        obtain ⟨windowSize, released, hout, hwindow, hsub, hall⟩ := ih s
        refine ⟨windowSize, released, hout, hwindow, hsub.cons_cons p, ?_⟩
        intro q hq
        rcases List.mem_cons.mp hq with rfl | hq
        · exact Or.inl List.mem_cons_self
        · exact (hall q hq).imp_left (List.mem_cons_of_mem _)
      · -- an acknowledged packet is released, and the window may grow
        obtain ⟨w, hack, hfits⟩ := outbound_acknowledge now s p
        obtain ⟨windowSize, released, hout, hwindow, hsub, hall⟩ := ih (s.acknowledge now p)
        have hw : (s.acknowledge now p).windowSize = w := congrArg Outbound.windowSize hack
        have hr : (s.acknowledge now p).released = s.released ++ [p.getSeqn] :=
          congrArg Outbound.released hack
        rw [hw] at hwindow
        refine ⟨windowSize, p.getSeqn :: released, ?_, fun h => hwindow (hfits h), hsub.cons p, ?_⟩
        · rw [hout, hack, hr, List.append_assoc]
          rfl
        · intro q hq
          rcases List.mem_cons.mp hq with rfl | hq
          · exact Or.inr List.mem_cons_self
          · exact (hall q hq).imp_right (List.mem_cons_of_mem _)
    · -- behind the last number that is acknowledged, all are kept
      refine ⟨s.windowSize, [], ?_, fun h => h, List.Sublist.refl _, fun q hq => Or.inl hq⟩
      rw [List.append_nil]
      rfl

theorem outbound_releasePackets (now : UInt64) (s : Stream) (packet : Packet) :
    ∃ windowSize released kept, (s.releasePackets now packet).outbound =
        { s.outbound with
          windowSize
          released := s.released ++ released
          sentPackets := kept
          resendTimer := s.resendTimer && !kept.isEmpty } ∧
      (WindowFits s.windowSize → WindowFits windowSize) ∧ kept.Sublist s.sentPackets ∧
      ∀ p ∈ s.sentPackets, p ∈ kept ∨ p.getSeqn ∈ released := by
  obtain ⟨windowSize, released, hout, hrest⟩ :=
    outbound_releaseAcked now packet s.sentPackets s
  refine ⟨windowSize, released, (releaseAcked now packet s.sentPackets s).2, ?_, hrest⟩
  have hrelease : (s.releasePackets now packet).outbound =
      { (releaseAcked now packet s.sentPackets s).1.outbound with
        sentPackets := (releaseAcked now packet s.sentPackets s).2
        resendTimer := (releaseAcked now packet s.sentPackets s).1.outbound.resendTimer &&
          !(releaseAcked now packet s.sentPackets s).2.isEmpty } := rfl
  rw [hrelease, hout]
  rfl

/-- `Terminate`: the timer is off, and a pending handler is called with an error. -/
theorem outbound_terminate : s.terminate.outbound =
    { s.outbound with
      resendTimer := false
      sendHandler := none
      completions := s.completions ++ (s.sendHandler.map fun handler => (handler, false)).toList } := by
  unfold terminate
  split
  next handler hhandler =>
    rw [hhandler]
    rfl
  next hnone => simp [outbound, hnone]

/-- The loop of `SendBuffer` touches the sequence number, the status and the buffer. -/
theorem outbound_createPackets (env : StreamEnv) (isNoAck : Bool) (n : ℕ) (s : Stream) :
    ∃ sequenceNumber status sendBuffer, (s.createPackets env isNoAck n).1.outbound =
      { s.outbound with sequenceNumber, status, sendBuffer } := by
  induction n generalizing s with
  | zero => exact ⟨_, _, _, rfl⟩
  | succ n ih =>
    rw [createPackets]
    split
    · exact ih _
    · split
      · exact ih _
      · exact ⟨_, _, _, rfl⟩

/-- A handler is called with success if everything has been put into packets. -/
theorem outbound_completeSend (s : Stream) :
    ∃ sendHandler completions, s.completeSend.outbound =
      { s.outbound with sendHandler, completions } := by
  unfold completeSend
  split
  · split
    · exact ⟨_, _, rfl⟩
    · exact ⟨_, _, rfl⟩
  · exact ⟨_, _, rfl⟩

/-- The end of `SendBuffer`: the packets are sent and kept, and a closing stream may add its FIN. -/
theorem outbound_sendCreated (env : StreamEnv) (now : UInt64) (s : Stream) (packets : List Packet) :
    ∃ sequenceNumber posted, (s.sendCreated env now packets).outbound =
        { s.outbound with
          sequenceNumber
          posted
          wire := s.wire ++ packets.map fun p => { p with sendTime := now }
          sentPackets := (packets.map fun p => { p with sendTime := now }).foldl
            (fun sent p => insertPacket p sent) s.sentPackets
          resendTimer := s.resendTimer || s.sentPackets.isEmpty } ∧
      (posted = s.posted ∨ s.status = .closing) := by
  unfold sendCreated
  dsimp only
  split
  next hempty =>
    rw [hempty, Bool.or_true]
    split
    next hclosing =>
      refine ⟨_, _, rfl, Or.inr ?_⟩
      exact of_decide_eq_true (Bool.and_eq_true_iff.mp hclosing).1
    · exact ⟨_, _, rfl, Or.inl rfl⟩
  next hempty =>
    rw [Bool.eq_false_of_not_eq_true hempty, Bool.or_false]
    split
    next hclosing =>
      refine ⟨_, _, rfl, Or.inr ?_⟩
      exact of_decide_eq_true (Bool.and_eq_true_iff.mp hclosing).1
    · exact ⟨_, _, rfl, Or.inl rfl⟩

theorem length_createPackets (env : StreamEnv) (isNoAck : Bool) (n : ℕ) (s : Stream) :
    (s.createPackets env isNoAck n).2.length ≤ n := by
  induction n generalizing s with
  | zero => exact Nat.le_refl _
  | succ n ih =>
    rw [createPackets]
    split
    · exact Nat.succ_le_succ (ih _)
    · split
      · exact Nat.succ_le_succ (ih _)
      · exact Nat.zero_le _

/-- The packets that are due are sent again; the others wait. -/
theorem outbound_handleResendTimer (env : StreamEnv) (now : UInt64)
    (h : s.numResendAttempts < maxNumResendAttempts) :
    ∃ windowSize numResendAttempts resent, (s.handleResendTimer env now).outbound =
        { s.outbound with
          windowSize
          numResendAttempts
          wire := s.wire ++ resent
          sentPackets := s.sentPackets.map fun p =>
            if s.isDue now p then { p with sendTime := now } else p
          resendTimer := true } ∧
      (WindowFits s.windowSize → WindowFits windowSize) ∧
      ∀ p ∈ resent, ∃ q ∈ s.sentPackets, p = { q with sendTime := now } := by
  rw [handleResendTimer, if_neg (not_le.mpr h)]
  dsimp only
  split
  · refine ⟨s.windowSize, s.numResendAttempts, [], ?_, fun hw => hw, by simp⟩
    rw [List.append_nil]
    rfl
  · refine ⟨_, _, _, rfl, ?_, ?_⟩
    · intro hw
      show WindowFits (if s.numResendAttempts + 1 = 1 then _ else _)
      split
      · exact hw.half
      · exact hw
    · intro p hp
      obtain ⟨q, hq, rfl⟩ := List.mem_map.mp hp
      exact ⟨q, List.mem_of_mem_filter hq, rfl⟩

/-- The posted packet is sent; a stream that is open keeps it. -/
theorem outbound_runPosted (s : Stream) :
    s.runPosted.outbound = s.outbound ∨
      ∃ p rest, s.posted = p :: rest ∧ s.runPosted.outbound =
        if s.status = .open then
          { s.outbound with
            posted := rest
            wire := s.wire ++ [p]
            sentPackets := insertPacket p s.sentPackets
            resendTimer := s.resendTimer || s.sentPackets.isEmpty }
        else { s.outbound with posted := rest, wire := s.wire ++ [p] } := by
  unfold runPosted
  split
  next => exact Or.inl rfl
  next p rest hposted =>
    refine Or.inr ⟨p, rest, hposted, ?_⟩
    unfold sendPacket
    by_cases hopen : s.status = .open
    · rw [if_pos hopen]
      exact congrArg outbound (if_pos hopen)
    · rw [if_neg hopen]
      exact congrArg outbound (if_neg hopen)

end Stream

/-! ## The saved packets -/

namespace Inbound

variable {r : Inbound}

theorem sorted_drain {saved : List Packet} (hsaved : KeyedSet.Sorted Packet.order saved)
    (hr : r.saved = saved) : KeyedSet.Sorted Packet.order (r.drain saved).saved := by
  induction saved generalizing r with
  | nil =>
    rw [drain, hr]
    exact hsaved
  | cons p saved ih =>
    rw [drain]
    split
    · exact ih (List.pairwise_cons.mp hsaved).2 rfl
    · rwa [hr]

theorem sorted_receive (h : KeyedSet.Sorted Packet.order r.saved) (packet : Packet) :
    KeyedSet.Sorted Packet.order (r.receive packet).saved := by
  unfold receive
  split
  · exact h
  · split
    · exact sorted_drain h rfl
    · split
      · exact h
      · exact h.insert

end Inbound

/-- An operation keeps the saved packets in order. -/
theorem Stream.sorted_step {env : StreamEnv} {now : UInt64} {s : Stream}
    (h : KeyedSet.Sorted Packet.order s.savedPackets) (op : Operation) :
    KeyedSet.Sorted Packet.order (s.step env now op).savedPackets := by
  have hsame : (s.step env now op).inbound = s.inbound →
      KeyedSet.Sorted Packet.order (s.step env now op).savedPackets := fun hinbound => by
    rw [show (s.step env now op).savedPackets = s.savedPackets from congrArg Inbound.saved hinbound]
    exact h
  cases op with
  | handleNextPacket packet =>
    have hreceive := Inbound.sorted_receive (r := s.inbound) h packet
    rw [← inbound_handleNextPacket env now] at hreceive
    exact hreceive
  | readSome len => exact h
  | _ => exact hsame (by simp [Stream.step])

end Streaming
