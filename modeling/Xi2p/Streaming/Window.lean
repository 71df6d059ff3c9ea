import Xi2p.Streaming.Segmentation

/-!
# The window, the resend timer and the send handlers

What a run of a stream of `client/api/streaming.cc` keeps besides its packets:

* `windowed_exec`: the window stays between its bounds, no more packets wait for an acknowledgement than
  the largest window holds, and while any of them waits the resend timer is running.
* `handlers_exec`: every handler given to `AsyncSend` is called once or still waits to be called.
* `sent_of_success`: a handler is called with success when everything handed over so far is in packets.
-/

namespace Streaming

open Bytes Identity Runs

/-! ## The window -/

/-- The stream has not been ended. -/
def StreamStatus.isLive : StreamStatus → Bool
  | .new | .open | .closing => true
  | .reset | .closed => false

/-- The state of the window and of the resend timer. -/
structure Windowed (o : Outbound) : Prop where
  window : Stream.WindowFits o.windowSize
  length_le : (o.sentPackets.length : ℤ) ≤ maxWindowSize
  status_of_posted : o.posted ≠ [] → o.status ≠ .new ∧ o.status ≠ .open
  armed : o.status.isLive → o.sentPackets ≠ [] → o.resendTimer

variable {env : StreamEnv} {now : UInt64} {o o' : Outbound} {s t : Stream}

/-- `Windowed` looks at these fields only. -/
theorem Windowed.congr (h : Windowed o)
    (hsame : (o'.windowSize, o'.sentPackets, o'.posted, o'.resendTimer) =
      (o.windowSize, o.sentPackets, o.posted, o.resendTimer))
    (hstatus : o'.status = o.status) : Windowed o' := by
  simp only [Prod.mk.injEq] at hsame
  obtain ⟨hwindow, hsent, hposted, htimer⟩ := hsame
  refine ⟨?_, ?_, ?_, ?_⟩
  · rw [hwindow]
    exact h.window
  · rw [hsent]
    exact h.length_le
  · rw [hposted, hstatus]
    exact h.status_of_posted
  · rw [hstatus, hsent, htimer]
    exact h.armed

/-- Nothing is asked of the timer of a stream that has been ended. -/
theorem Windowed.ended (h : Windowed o)
    (hsame : (o'.windowSize, o'.sentPackets) = (o.windowSize, o.sentPackets))
    (hstatus : ¬ o'.status.isLive) : Windowed o' := by
  simp only [Prod.mk.injEq] at hsame
  obtain ⟨hwindow, hsent⟩ := hsame
  refine ⟨?_, ?_, ?_, fun hlive => absurd hlive hstatus⟩
  · rw [hwindow]
    exact h.window
  · rw [hsent]
    exact h.length_le
  · intro _
    refine ⟨?_, ?_⟩ <;> (intro heq; exact hstatus (by rw [heq]; rfl))

theorem length_foldl_insertPacket_le (packets sent : List Packet) :
    (packets.foldl (fun sent p => insertPacket p sent) sent).length ≤
      sent.length + packets.length := by
  induction packets generalizing sent with
  | nil => exact Nat.le_refl _
  | cons p packets ih =>
    have hinsert : (insertPacket p sent).length ≤ sent.length + 1 := KeyedSet.length_insert_le sent
    have hrest := ih (insertPacket p sent)
    rw [List.foldl_cons, List.length_cons]
    omega

namespace Stream

theorem windowed_terminate (h : Windowed s.outbound) (hstatus : ¬ s.status.isLive) :
    Windowed s.terminate.outbound := by
  rw [outbound_terminate]
  exact h.ended rfl hstatus

theorem windowed_closeClosing (h : Windowed s.outbound) :
    Windowed (s.closeClosing env).outbound := by
  unfold closeClosing
  split
  · apply windowed_terminate
    · exact h.ended rfl Bool.false_ne_true
    · exact Bool.false_ne_true
  · exact h

theorem windowed_close (h : Windowed s.outbound) : Windowed (s.close env).outbound := by
  unfold close
  split
  next hopen =>
    apply windowed_closeClosing
    refine ⟨h.window, h.length_le, fun _ => StreamStatus.closing_ne, fun _ => ?_⟩
    -- an open stream is live, too
    exact h.armed (show s.status.isLive by rw [hopen]; rfl)
  next hreset =>
    have hended : ¬ s.status.isLive := by rw [hreset]; exact Bool.false_ne_true
    have hclose : Windowed (s.sendClose env).outbound := h.ended rfl hended
    exact windowed_terminate hclose hended
  · exact windowed_closeClosing h
  next hclosed => exact windowed_terminate h (by rw [hclosed]; exact Bool.false_ne_true)
  · exact h

/-- Creating packets changes neither the window nor what has been sent. -/
theorem outbound_completeCreated (env : StreamEnv) (isNoAck : Bool) (n : ℕ) (s : Stream) :
    ∃ sequenceNumber status sendBuffer sendHandler completions,
      (s.createPackets env isNoAck n).1.completeSend.outbound =
        { s.outbound with sequenceNumber, status, sendBuffer, sendHandler, completions } := by
  obtain ⟨sequenceNumber, status, sendBuffer, hcreate⟩ := outbound_createPackets env isNoAck n s
  obtain ⟨sendHandler, completions, hcomplete⟩ :=
    outbound_completeSend (s.createPackets env isNoAck n).1
  refine ⟨sequenceNumber, status, sendBuffer, sendHandler, completions, ?_⟩
  rw [hcomplete, hcreate]

theorem windowed_completeCreated (h : Windowed s.outbound) (isNoAck : Bool) (n : ℕ) :
    Windowed (s.createPackets env isNoAck n).1.completeSend.outbound := by
  -- creating packets does not bring a stream back to life
  have hlive : (s.createPackets env isNoAck n).1.completeSend.status.isLive → s.status.isLive := by
    rw [status_completeSend]
    intro hlive
    by_cases hnew : s.status = .new
    · rw [hnew]
      rfl
    · rwa [status_createPackets env isNoAck n hnew] at hlive
  have hposted : s.posted ≠ [] → (s.createPackets env isNoAck n).1.completeSend.status ≠ .new ∧
      (s.createPackets env isNoAck n).1.completeSend.status ≠ .open := by
    intro hne
    have hold : s.status ≠ .new ∧ s.status ≠ .open := h.status_of_posted hne
    rwa [status_completeSend, status_createPackets env isNoAck n hold.1]
  obtain ⟨sequenceNumber, status, sendBuffer, sendHandler, completions, hout⟩ :=
    outbound_completeCreated env isNoAck n s
  have hstatus : (s.createPackets env isNoAck n).1.completeSend.status = status :=
    congrArg Outbound.status hout
  rw [hstatus] at hlive hposted
  rw [hout]
  exact ⟨h.window, h.length_le, hposted, fun hstatus => h.armed (hlive hstatus)⟩

theorem windowed_sendCreated (h : Windowed s.outbound) {packets : List Packet}
    (hroom : (s.sentPackets.length : ℤ) + packets.length ≤ maxWindowSize) :
    Windowed (s.sendCreated env now packets).outbound := by
  obtain ⟨nextNumber, posted, hsend, hfin⟩ := outbound_sendCreated env now s packets
  rw [hsend]
  refine ⟨h.window, ?_, ?_, ?_⟩
  · have hfold := length_foldl_insertPacket_le (packets.map fun p => { p with sendTime := now }) s.sentPackets
    rw [List.length_map] at hfold
    show (((packets.map fun p => { p with sendTime := now }).foldl
      (fun sent p => insertPacket p sent) s.sentPackets).length : ℤ) ≤ maxWindowSize
    omega
  · intro hne
    show s.status ≠ .new ∧ s.status ≠ .open
    rcases hfin with hsame | hclosing
    · rw [hsame] at hne
      exact h.status_of_posted hne
    · rw [hclosing]
      exact StreamStatus.closing_ne
  · intro hstatus _
    show (s.resendTimer || s.sentPackets.isEmpty) = true
    rw [Bool.or_eq_true]
    by_cases hempty : s.sentPackets = []
    · exact Or.inr (by rw [hempty]; rfl)
    · exact Or.inl (h.armed hstatus hempty)

/-- `SendBuffer` fills the window. -/
theorem windowed_sendBufferPackets (h : Windowed s.outbound) :
    Windowed (s.sendBufferPackets env now).outbound := by
  unfold sendBufferPackets
  dsimp only
  split
  · exact h
  next hroom =>
  set isNoAck := decide (s.lastReceivedSequenceNumber < 0)
  set n := (s.windowSize - s.sentPackets.length).toNat with hn
  have hcreated : Windowed (s.createPackets env isNoAck n).1.completeSend.outbound :=
    windowed_completeCreated h isNoAck n
  split
  · exact hcreated
  · apply windowed_sendCreated hcreated
    -- there was room for as many packets as have been created
    have hlength : (s.createPackets env isNoAck n).2.length ≤ n := length_createPackets env isNoAck n s
    have hfits : WindowFits s.windowSize := h.window
    have hmax := hfits.2
    have hsent : (s.createPackets env isNoAck n).1.completeSend.sentPackets = s.sentPackets := by
      obtain ⟨_, _, _, _, _, hout⟩ := outbound_completeCreated env isNoAck n s
      exact congrArg Outbound.sentPackets hout
    rw [hsent]
    omega

theorem windowed_handleResendTimer (hattempts : s.numResendAttempts < maxNumResendAttempts)
    (h : Windowed s.outbound) : Windowed (s.handleResendTimer env now).outbound := by
  obtain ⟨windowSize, attempts, resent, hout, hfits, -⟩ :=
    outbound_handleResendTimer env now hattempts
  rw [hout]
  refine ⟨hfits h.window, ?_, h.status_of_posted, fun _ _ => rfl⟩
  show ((_ : List Packet).length : ℤ) ≤ _
  rw [List.length_map]
  exact h.length_le

theorem windowed_runPosted (h : Windowed s.outbound) : Windowed s.runPosted.outbound := by
  rcases outbound_runPosted s with hsame | ⟨p, rest, hposted, hout⟩
  · rwa [hsame]
  -- a FIN has been posted, so the stream is not open and the FIN is not kept
  have hstatus : s.status ≠ .new ∧ s.status ≠ .open := by
    apply h.status_of_posted
    show s.posted ≠ []
    rw [hposted]
    exact List.cons_ne_nil p rest
  rw [if_neg hstatus.2] at hout
  rw [hout]
  exact ⟨h.window, h.length_le, fun _ => hstatus, h.armed⟩

theorem windowed_of_stage (hstage : Stage env now s t) (h : Windowed s.outbound) :
    Windowed t.outbound := by
  cases hstage with
  | inward hsame => rwa [hsame]
  | learn packet =>
    obtain ⟨sendStreamID, hout⟩ := outbound_learnSendStreamID s packet
    rw [hout]
    exact h.congr rfl rfl
  | release packet =>
    obtain ⟨windowSize, released, kept, hout, hfits, hsub, -⟩ := outbound_releasePackets now s packet
    rw [hout]
    refine ⟨hfits h.window, ?_, h.status_of_posted, ?_⟩
    · have hlen : kept.length ≤ s.sentPackets.length := hsub.length_le
      have hold : (s.sentPackets.length : ℤ) ≤ maxWindowSize := h.length_le
      show (kept.length : ℤ) ≤ maxWindowSize
      omega
    · intro hstatus hne
      change kept ≠ [] at hne
      show (s.resendTimer && !kept.isEmpty) = true
      -- what is kept was there before, with the timer on
      have hold : s.sentPackets ≠ [] := by
        intro hnil
        rw [hnil] at hsub
        exact hne (List.sublist_nil.mp hsub)
      have htimer : s.resendTimer = true := h.armed hstatus hold
      rw [htimer, Bool.true_and, Bool.not_eq_true']
      exact List.isEmpty_eq_false_iff.mpr hne
  | acked => exact h.congr rfl rfl
  | sendBuffer => exact windowed_sendBufferPackets h
  | close => exact windowed_close h
  | reset => exact h.ended rfl Bool.false_ne_true
  | quickAck hsorted =>
    unfold sendQuickAck
    split
    · exact h
    · exact h.congr rfl rfl
  | resend hattempts => exact windowed_handleResendTimer hattempts h
  | runPosted => exact windowed_runPosted h

theorem windowed_step (h : Windowed s.outbound)
    (hsaved : KeyedSet.Sorted Packet.order s.savedPackets) {op : Operation} (hop : op ≠ .terminate) :
    Windowed (s.step env now op).outbound := by
  by_cases hstaged : op.isStaged
  · exact of_stages windowed_of_stage (stages_step hstaged hsaved) h
  · cases op with
    | send buf =>
      show Windowed (s.send buf).outbound
      unfold send
      split
      · exact h
      · exact h.congr rfl rfl
    | asyncSend buf handler =>
      show Windowed (s.asyncSend buf handler).outbound
      unfold asyncSend send
      split <;> split <;> exact h.congr rfl rfl
    | terminate => exact absurd rfl hop
    | _ => exact absurd rfl hstaged

theorem sorted_new (recvStreamID : UInt32) (remoteIdentity : IdentityEx) :
    KeyedSet.Sorted Packet.order (savedPackets { recvStreamID, remoteIdentity }) := List.Pairwise.nil

theorem windowed_new (recvStreamID : UInt32) (remoteIdentity : IdentityEx) :
    Windowed (outbound { recvStreamID, remoteIdentity }) where
  window := ⟨le_refl minWindowSize, show (1 : ℤ) ≤ 128 by decide⟩
  length_le := show (0 : ℤ) ≤ 128 by decide
  status_of_posted := fun hne => absurd rfl hne
  armed := fun _ hne => absurd rfl hne

/-- In every run of a stream that is not ended from outside, the window stays between its bounds, no more
packets wait than the largest window holds, and as long as the stream lives and a packet waits the resend
timer is running. -/
theorem windowed_exec (env : StreamEnv) (recvStreamID : UInt32) (remoteIdentity : IdentityEx)
    {ops : List TimedOperation} (hops : ∀ op ∈ ops, op.2 ≠ .terminate) :
    Windowed (exec (stepAt env) { recvStreamID, remoteIdentity } ops).outbound := by
  have hmeets : Meets (stepAt env) (fun _ op => op.2 ≠ .terminate) { recvStreamID, remoteIdentity } ops :=
    meets_of_forall hops
  have hkept := invariant_of_meets
    (I := fun s : Stream => Windowed s.outbound ∧ KeyedSet.Sorted Packet.order s.savedPackets)
    (fun s op hs hop => ⟨windowed_step hs.1 hs.2 hop, sorted_step hs.2 op.2⟩)
    ⟨windowed_new recvStreamID remoteIdentity, sorted_new recvStreamID remoteIdentity⟩ hmeets
  exact hkept.1

/-- A stream that sends a byte, resends it and closes. -/
theorem windowed_exec_closing :
    Windowed (exec (stepAt quietEnv) { recvStreamID := 1, remoteIdentity := {} }
      [(0, .send [1]), (0, .sendBuffer), (9000, .handleResendTimer), (9001, .close)]).outbound := by
  apply windowed_exec quietEnv 1 {}
  simp

end Stream

/-! ## The send handlers -/

/-- The handlers that have been called, and the one that waits. -/
def Outbound.handlers (o : Outbound) : List ℕ := o.completions.map Prod.fst ++ o.sendHandler.toList

/-- The handler that an operation is given. -/
def Operation.handler : Operation → List ℕ
  | .asyncSend _ handler => [handler]
  | _ => []

namespace Stream

theorem handlers_terminate : s.terminate.outbound.handlers = s.outbound.handlers := by
  rw [outbound_terminate]
  unfold Outbound.handlers
  cases hhandler : s.sendHandler with
  | none => simp [outbound, hhandler]
  | some handler => simp [outbound, hhandler]

theorem handlers_completeSend : s.completeSend.outbound.handlers = s.outbound.handlers := by
  unfold completeSend
  split
  next handler hhandler =>
    split
    · simp [Outbound.handlers, outbound, hhandler]
    · rfl
  · rfl

theorem handlers_closeClosing : (s.closeClosing env).outbound.handlers = s.outbound.handlers := by
  unfold closeClosing
  split
  · exact handlers_terminate
  · rfl

theorem handlers_close : (s.close env).outbound.handlers = s.outbound.handlers := by
  unfold close
  split
  · exact handlers_closeClosing
  · exact handlers_terminate
  · exact handlers_closeClosing
  · exact handlers_terminate
  · rfl

theorem handlers_sendBufferPackets :
    (s.sendBufferPackets env now).outbound.handlers = s.outbound.handlers := by
  unfold sendBufferPackets
  dsimp only
  split
  · rfl
  set isNoAck := decide (s.lastReceivedSequenceNumber < 0)
  set n := (s.windowSize - s.sentPackets.length).toNat
  -- at most the handler of the buffer is called
  have hcreate : (s.createPackets env isNoAck n).1.completeSend.outbound.handlers =
      s.outbound.handlers := by
    obtain ⟨sequenceNumber, status, sendBuffer, hcreate⟩ := outbound_createPackets env isNoAck n s
    rw [handlers_completeSend, hcreate]
    rfl
  split
  · exact hcreate
  · obtain ⟨nextNumber, posted, hsend, -⟩ := outbound_sendCreated env now
      (s.createPackets env isNoAck n).1.completeSend (s.createPackets env isNoAck n).2
    rw [hsend]
    exact hcreate

/-- No stage takes on a handler or forgets one. -/
theorem handlers_of_stage (hstage : Stage env now s t) :
    t.outbound.handlers = s.outbound.handlers := by
  cases hstage with
  | inward hsame => rw [hsame]
  | learn packet =>
    obtain ⟨sendStreamID, hout⟩ := outbound_learnSendStreamID s packet
    rw [hout]
    rfl
  | release packet =>
    obtain ⟨windowSize, released, kept, hout, -⟩ := outbound_releasePackets now s packet
    rw [hout]
    rfl
  | acked => rfl
  | sendBuffer => exact handlers_sendBufferPackets
  | close => exact handlers_close
  | reset => rfl
  | quickAck hsorted =>
    unfold sendQuickAck
    split <;> rfl
  | resend hattempts =>
    obtain ⟨windowSize, attempts, resent, hout, -⟩ := outbound_handleResendTimer env now hattempts
    rw [hout]
    rfl
  | runPosted =>
    rcases outbound_runPosted s with hsame | ⟨p, rest, hposted, hout⟩
    · rw [hsame]
    · rw [hout]
      split <;> rfl

theorem handlers_send (buf : List UInt8) : (s.send buf).outbound.handlers = s.outbound.handlers := by
  unfold send
  split <;> rfl

/-- A handler that cannot wait is called at once. -/
theorem handlers_asyncSend (buf : List UInt8) (handler : ℕ) :
    (s.asyncSend buf handler).outbound.handlers.Perm (s.outbound.handlers ++ [handler]) := by
  unfold asyncSend
  split
  next waiting hwaiting =>
    rw [handlers_send]
    unfold Outbound.handlers
    simp only [outbound, hwaiting, List.map_append, List.map_singleton, Option.toList_some,
      List.append_assoc]
    -- the handler that waited is called, and the new one waits in its place
    exact List.Perm.append_left _ List.perm_append_comm
  next hnone =>
    rw [handlers_send]
    unfold Outbound.handlers
    simp only [outbound, hnone, Option.toList_some, Option.toList_none, List.append_nil]
    exact List.Perm.refl _

theorem handlers_step (hsaved : KeyedSet.Sorted Packet.order s.savedPackets) (op : Operation) :
    (s.step env now op).outbound.handlers.Perm (s.outbound.handlers ++ op.handler) := by
  by_cases hstaged : op.isStaged
  · have hhandler : op.handler = [] := by cases op <;> first | rfl | cases hstaged
    have hsame : (s.step env now op).outbound.handlers = s.outbound.handlers :=
      of_stages (P := fun o => o.handlers = s.outbound.handlers)
        (fun hstage hs => (handlers_of_stage hstage).trans hs) (stages_step hstaged hsaved) rfl
    rw [hhandler, List.append_nil, hsame]
  · cases op with
    | send buf =>
      show (s.send buf).outbound.handlers.Perm (s.outbound.handlers ++ [])
      rw [List.append_nil, handlers_send]
    | asyncSend buf handler => exact handlers_asyncSend buf handler
    | terminate =>
      show s.terminate.outbound.handlers.Perm (s.outbound.handlers ++ [])
      rw [List.append_nil, handlers_terminate]
    | _ => exact absurd rfl hstaged

/-- The handlers given to `AsyncSend` in a run. -/
def givenHandlers (ops : List TimedOperation) : List ℕ := ops.flatMap fun op => op.2.handler

theorem handlers_of_exec (hsaved : KeyedSet.Sorted Packet.order s.savedPackets)
    (ops : List TimedOperation) :
    (exec (stepAt env) s ops).outbound.handlers.Perm (s.outbound.handlers ++ givenHandlers ops) := by
  induction ops generalizing s with
  | nil =>
    rw [givenHandlers, List.flatMap_nil, List.append_nil]
    exact List.Perm.refl _
  | cons op ops ih =>
    have hstep : (s.stepAt env op).outbound.handlers.Perm (s.outbound.handlers ++ op.2.handler) :=
      handlers_step hsaved op.2
    have hrest := ih (s := s.stepAt env op) (sorted_step hsaved op.2)
    refine hrest.trans ((hstep.append_right _).trans ?_)
    rw [List.append_assoc]
    exact List.Perm.refl _

/-- In every run every handler given to `AsyncSend` is called once, with or without success, or it is the
one that waits. -/
theorem handlers_exec (env : StreamEnv) (recvStreamID : UInt32) (remoteIdentity : IdentityEx)
    (ops : List TimedOperation) :
    ((exec (stepAt env) { recvStreamID, remoteIdentity } ops).completions.map Prod.fst ++
      (exec (stepAt env) { recvStreamID, remoteIdentity } ops).sendHandler.toList).Perm
        (givenHandlers ops) :=
  handlers_of_exec (sorted_new recvStreamID remoteIdentity) ops

/-! ## Success -/

/-- Handlers have been called since `before`, with success only if the buffer is at its end. -/
def AtEnd (before : List (ℕ × Bool)) (o : Outbound) : Prop :=
  ∃ more, o.completions = before ++ more ∧ ∀ handler, (handler, true) ∈ more → o.sendBuffer.eof

variable {before : List (ℕ × Bool)}

/-- A buffer that is at its end stays there until more bytes are handed over. -/
theorem eof_read {b : StringStream} (h : b.eof) (n : ℕ) : (b.read n).1.eof := by
  unfold StringStream.read
  rw [if_pos h]
  exact h

theorem eof_createPackets (isNoAck : Bool) (n : ℕ) (h : s.sendBuffer.eof) :
    (s.createPackets env isNoAck n).1.sendBuffer.eof := by
  induction n generalizing s with
  | zero => exact h
  | succ n ih =>
    rw [createPackets]
    split
    · exact ih (eof_read h _)
    · split
      · exact ih (eof_read h _)
      · exact h

theorem AtEnd.congr (h : AtEnd before o) {o' : Outbound} (hcalls : o'.completions = o.completions)
    (hbuffer : o.sendBuffer.eof → o'.sendBuffer.eof) : AtEnd before o' := by
  obtain ⟨more, heq, hend⟩ := h
  exact ⟨more, hcalls.trans heq, fun handler hmem => hbuffer (hend handler hmem)⟩

/-- One more call, with success if the buffer is at its end. -/
theorem AtEnd.call (h : AtEnd before o) {o' : Outbound} {handler : ℕ} {success : Bool}
    (hcalls : o'.completions = o.completions ++ [(handler, success)])
    (hbuffer : o'.sendBuffer = o.sendBuffer) (hend : success → o.sendBuffer.eof) : AtEnd before o' := by
  obtain ⟨more, heq, hold⟩ := h
  refine ⟨more ++ [(handler, success)], by rw [hcalls, heq, List.append_assoc], ?_⟩
  intro other hmem
  rw [hbuffer]
  rcases List.mem_append.mp hmem with hmem | hmem
  · exact hold other hmem
  · obtain ⟨-, rfl⟩ := Prod.mk.inj (List.mem_singleton.mp hmem)
    exact hend rfl

theorem atEnd_terminate (h : AtEnd before s.outbound) : AtEnd before s.terminate.outbound := by
  unfold terminate
  split
  · exact h.call rfl rfl Bool.false_ne_true.elim
  · exact h.congr rfl fun heof => heof

theorem atEnd_closeClosing (h : AtEnd before s.outbound) :
    AtEnd before (s.closeClosing env).outbound := by
  unfold closeClosing
  split
  · apply atEnd_terminate
    exact h.congr rfl fun heof => heof
  · exact h

theorem atEnd_close (h : AtEnd before s.outbound) : AtEnd before (s.close env).outbound := by
  unfold close
  split
  · apply atEnd_closeClosing
    exact h.congr rfl fun heof => heof
  · apply atEnd_terminate
    exact h.congr rfl fun heof => heof
  · exact atEnd_closeClosing h
  · exact atEnd_terminate h
  · exact h

theorem atEnd_completeSend (h : AtEnd before s.outbound) : AtEnd before s.completeSend.outbound := by
  unfold completeSend
  split
  · split
    next heof => exact h.call rfl rfl fun _ => heof
    · exact h
  · exact h

theorem atEnd_sendBufferPackets (h : AtEnd before s.outbound) :
    AtEnd before (s.sendBufferPackets env now).outbound := by
  unfold sendBufferPackets
  dsimp only
  split
  · exact h
  set isNoAck := decide (s.lastReceivedSequenceNumber < 0)
  set n := (s.windowSize - s.sentPackets.length).toNat
  have hcalls : (s.createPackets env isNoAck n).1.completions = s.completions := by
    obtain ⟨sequenceNumber, status, sendBuffer, hcreate⟩ := outbound_createPackets env isNoAck n s
    exact congrArg Outbound.completions hcreate
  have hcreate : AtEnd before (s.createPackets env isNoAck n).1.completeSend.outbound := by
    apply atEnd_completeSend
    exact h.congr hcalls (eof_createPackets isNoAck n)
  split
  · exact hcreate
  · obtain ⟨nextNumber, posted, hsend, -⟩ := outbound_sendCreated env now
      (s.createPackets env isNoAck n).1.completeSend (s.createPackets env isNoAck n).2
    rw [hsend]
    exact hcreate.congr rfl fun heof => heof

theorem atEnd_of_stage (hstage : Stage env now s t) (h : AtEnd before s.outbound) :
    AtEnd before t.outbound := by
  cases hstage with
  | inward hsame => rwa [hsame]
  | learn packet =>
    obtain ⟨sendStreamID, hout⟩ := outbound_learnSendStreamID s packet
    rw [hout]
    exact h.congr rfl fun heof => heof
  | release packet =>
    obtain ⟨windowSize, released, kept, hout, -⟩ := outbound_releasePackets now s packet
    rw [hout]
    exact h.congr rfl fun heof => heof
  | acked => exact h.congr rfl fun heof => heof
  | sendBuffer => exact atEnd_sendBufferPackets h
  | close => exact atEnd_close h
  | reset => exact h.congr rfl fun heof => heof
  | quickAck hsorted =>
    unfold sendQuickAck
    split
    · exact h
    · exact h.congr rfl fun heof => heof
  | resend hattempts =>
    obtain ⟨windowSize, attempts, resent, hout, -⟩ := outbound_handleResendTimer env now hattempts
    rw [hout]
    exact h.congr rfl fun heof => heof
  | runPosted =>
    rcases outbound_runPosted s with hsame | ⟨p, rest, hposted, hout⟩
    · rwa [hsame]
    · rw [hout]
      split <;> exact h.congr rfl fun heof => heof

/-- The calls of an operation. -/
theorem atEnd_step (env : StreamEnv) (now : UInt64)
    (hsaved : KeyedSet.Sorted Packet.order s.savedPackets) (op : Operation) :
    AtEnd s.completions (s.step env now op).outbound := by
  have hinit : AtEnd s.completions s.outbound := ⟨[], (List.append_nil _).symm, by simp⟩
  by_cases hstaged : op.isStaged
  · exact of_stages atEnd_of_stage (stages_step hstaged hsaved) hinit
  · cases op with
    | send buf =>
      refine ⟨[], ?_, by simp⟩
      show (s.send buf).completions = s.completions ++ []
      rw [List.append_nil]
      unfold send
      split <;> rfl
    | asyncSend buf handler =>
      -- a handler that is called at once is called with an error
      show AtEnd s.completions (s.asyncSend buf handler).outbound
      unfold asyncSend
      split
      · refine ⟨[(handler, false)], ?_, by simp⟩
        unfold send
        split <;> rfl
      · refine ⟨[], ?_, by simp⟩
        rw [List.append_nil]
        unfold send
        split <;> rfl
    | terminate => exact atEnd_terminate hinit
    | _ => exact absurd rfl hstaged

/-- When an operation calls a handler with success, every byte handed over so far has been put into a
packet. -/
theorem sent_of_success (owner : Owner) (recvStreamID : UInt32) (remoteIdentity : IdentityEx)
    (ops : List TimedOperation) (op : TimedOperation) {handler : ℕ}
    (hsuccess : (handler, true) ∈
      (exec (stepAt owner.env) { recvStreamID, remoteIdentity } (ops ++ [op])).completions.drop
        (exec (stepAt owner.env) { recvStreamID, remoteIdentity } ops).completions.length) :
    ∃ log, Outbox log (handedBytes (ops ++ [op]))
        (exec (stepAt owner.env) { recvStreamID, remoteIdentity } (ops ++ [op])).outbound ∧
      (log.map Packet.payload).flatten = handedBytes (ops ++ [op]) := by
  obtain ⟨log, h⟩ := exists_outbox_exec owner (outbox_new recvStreamID remoteIdentity)
    List.Pairwise.nil (ops ++ [op])
  rw [List.nil_append, List.nil_append] at h
  refine ⟨log, h, ?_⟩
  set s := exec (stepAt owner.env) { recvStreamID, remoteIdentity } ops with hs
  have hsaved : KeyedSet.Sorted Packet.order s.savedPackets :=
    invariant_exec (I := fun s : Stream => KeyedSet.Sorted Packet.order s.savedPackets)
      (fun s op hs => sorted_step hs op.2) (sorted_new recvStreamID remoteIdentity) ops
  have hlast : exec (stepAt owner.env) { recvStreamID, remoteIdentity } (ops ++ [op]) =
      s.step owner.env op.1 op.2 := exec_append _ ops [op]
  obtain ⟨more, hcalls, hend⟩ := atEnd_step owner.env op.1 hsaved op.2
  rw [hlast] at hsuccess h
  have hmore : (s.step owner.env op.1 op.2).completions = s.completions ++ more := hcalls
  rw [hmore, List.drop_left] at hsuccess
  -- the buffer is at its end, so nothing is unread
  have hunread := h.unread_eq_nil (hend handler hsuccess)
  have hhanded := h.handed_eq
  rwa [hunread, List.append_nil] at hhanded

/-- A byte goes out with the SYN, and its handler is called. -/
theorem sent_of_success_syn :
    ∃ log, Outbox log [1] (exec (stepAt quietOwner.env) { recvStreamID := 1, remoteIdentity := {} }
        ([(0, .asyncSend [1] 7)] ++ [(0, .sendBuffer)])).outbound ∧
      (log.map Packet.payload).flatten = [1] := by
  apply sent_of_success quietOwner 1 {} [(0, .asyncSend [1] 7)] (0, .sendBuffer)
  show (7, true) ∈ _
  decide +kernel

end Stream

end Streaming
