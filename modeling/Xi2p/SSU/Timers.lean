import Xi2p.Lib.Runs
import Xi2p.Lib.Timers
import Xi2p.SSU.Reassembly

/-!
# Timers of SSU data messages

`SSUData` with its timers and the clock. `ScheduleDecay` sets the expiry time of the decay timer but
waits for the resend timer, so that `HandleDecayTimer` runs when the resend timer expires.

* `Timed`, `Timed.step`: the state and its steps.
* `NoDecayWaits`: the resend timer does not expire while `HandleDecayTimer` waits for it.
* `timersKeepMeaning`: in runs of such steps the timers do what they are for.
-/

namespace SSU

open Bytes I2NP Timers

/-! ## Timer handlers -/

/-- `SSUDuration::MaxResends`. -/
abbrev maxResends : ℕ := 5

/-- `SSUDuration::DecayInterval`, in seconds. -/
abbrev decayInterval : ℕ := 20

/-- `SSUDuration::IncompleteMessagesCleanupTimeout`, in seconds. -/
abbrev incompleteMessagesCleanupTimeout : ℕ := 30

/-- One round of the loop of `HandleResendTimer` at `ts` seconds; a message that has been resent too
often is erased. -/
def SentMessage.resend (ts : ℕ) (sent : SentMessage) : Option SentMessage :=
  if sent.nextResendTime.toNat ≤ ts then
    if sent.numResends < maxResends then
      some
        { sent with
          numResends := sent.numResends + 1
          nextResendTime := sent.nextResendTime +
            UInt32.ofNat (sent.numResends + 1) * resendInterval }
    else none
  else some sent

/-- The datagrams that are sent again in this round. -/
def SentMessage.resent (ts : ℕ) (sent : SentMessage) : List Datagram :=
  if sent.nextResendTime.toNat ≤ ts ∧ sent.numResends < maxResends then
    sent.fragments.filterMap (Option.map Fragment.datagram)
  else []

namespace SSUData

/-- `HandleResendTimer`. -/
def handleResendTimer (ts : ℕ) (d : SSUData) : SSUData :=
  { d with
    sentMessages := d.sentMessages.filterMap fun (e : UInt32 × SentMessage) =>
      (e.2.resend ts).map (e.1, ·)
    datagrams := d.datagrams ++ d.sentMessages.flatMap fun (e : UInt32 × SentMessage) =>
      e.2.resent ts
  }.callTimer .scheduleResend

/-- `HandleDecayTimer`. -/
def handleDecayTimer (d : SSUData) : SSUData := { d with receivedMessages := [] }

/-- `HandleIncompleteMessagesCleanupTimer`. -/
def handleIncompleteMessagesCleanupTimer (ts : ℕ) (d : SSUData) : SSUData :=
  { d with
    incompleteMessages := fun msgID =>
      (d.incompleteMessages msgID).filter fun inc =>
        ts ≤ (inc.lastFragmentInsertTime +
          UInt32.ofNat incompleteMessagesCleanupTimeout).toNat
  }.callTimer .scheduleIncompleteMessagesCleanup

end SSUData

/-! ## State and steps -/

/-- The handlers that wait for a timer. -/
inductive Handler
  | handleResendTimer
  | handleDecayTimer
  | handleIncompleteMessagesCleanupTimer
  deriving DecidableEq

/-- The timers of `SSUData`. -/
inductive TimerName
  | resendTimer
  | decayTimer
  | incompleteMessagesCleanupTimer
  deriving DecidableEq

/-- `SSUData` with its timers. -/
structure Timed where
  /-- The data, with the timer calls of the last step. -/
  data : SSUData
  /-- The clock, in microseconds. -/
  now : ℕ
  /-- `m_ResendTimer`. -/
  resendTimer : Timer Handler := {}
  /-- `m_DecayTimer`. -/
  decayTimer : Timer Handler := {}
  /-- `m_IncompleteMessagesCleanupTimer`. -/
  incompleteMessagesCleanupTimer : Timer Handler := {}
  /-- The handlers of expired waits that have not run yet. -/
  ready : List Handler := []
  /-- When `ScheduleDecay` was called last. -/
  lastDecay : Option ℕ := none

/-- Microseconds in a second. -/
abbrev second : ℕ := 1000000

/-- A step of a session. -/
inductive Event
  /-- Time passes. -/
  | tick (elapsed : ℕ)
  /-- `Send`. -/
  | send (msg : I2NPMessage)
  /-- `ProcessACKs`. -/
  | processACKs (m : Mem) (bound pos : ℕ) (flag : UInt8)
  /-- One round of `ProcessFragments`. -/
  | processFragment (m : Mem) (f : FragmentHeader)
  /-- A timer expires, and the handlers that wait for it become ready. -/
  | expire (timer : TimerName)
  /-- The next handler runs. -/
  | run

/-- Whether the event is piece `i` of the message `msgID`. -/
def Event.isPiece (msgID : UInt32) (i : ℕ) : Event → Bool
  | .processFragment _ f => f.msgID = msgID ∧ f.fragmentNum = i
  | _ => false

namespace Timed

/-- `GetSecondsSinceEpoch()`. -/
def seconds (s : Timed) : ℕ := s.now / second

/-- `ScheduleResend`, `ScheduleDecay` and the other calls of timers. -/
def call (s : Timed) : TimerCall → Timed
  | .scheduleResend =>
    { s with
      resendTimer := (s.resendTimer.cancel.expiresAt
        (s.now + resendInterval.toNat * second)).asyncWait .handleResendTimer }
  | .cancelResend => { s with resendTimer := s.resendTimer.cancel }
  | .scheduleDecay =>
    -- the expiry time is that of the decay timer, the wait is for the resend timer
    { s with
      decayTimer := s.decayTimer.cancel.expiresAt (s.now + decayInterval * second)
      resendTimer := s.resendTimer.asyncWait .handleDecayTimer
      lastDecay := some s.now }
  | .scheduleIncompleteMessagesCleanup =>
    { s with
      incompleteMessagesCleanupTimer := (s.incompleteMessagesCleanupTimer.cancel.expiresAt
        (s.now + incompleteMessagesCleanupTimeout * second)).asyncWait
        .handleIncompleteMessagesCleanupTimer }

/-- Run an operation on the data, with its timer calls. -/
def perform (s : Timed) (op : SSUData → SSUData) : Timed :=
  (op s.data).timerCalls.foldl call { s with data := op s.data }

/-- A handler of a wait that has not been aborted. -/
def handle (s : Timed) : Handler → Timed
  | .handleResendTimer => s.perform (·.handleResendTimer s.seconds)
  | .handleDecayTimer => s.perform (·.handleDecayTimer)
  | .handleIncompleteMessagesCleanupTimer =>
    s.perform (·.handleIncompleteMessagesCleanupTimer s.seconds)

/-- The timer of a name. -/
def timer (s : Timed) : TimerName → Timer Handler
  | .resendTimer => s.resendTimer
  | .decayTimer => s.decayTimer
  | .incompleteMessagesCleanupTimer => s.incompleteMessagesCleanupTimer

/-- The waits of a timer are over. -/
def expire (s : Timed) (name : TimerName) : Timed :=
  let s := { s with ready := s.ready ++ (s.timer name).waiters }
  match name with
  | .resendTimer => { s with resendTimer := s.resendTimer.cancel }
  | .decayTimer => { s with decayTimer := s.decayTimer.cancel }
  | .incompleteMessagesCleanupTimer =>
    { s with incompleteMessagesCleanupTimer := s.incompleteMessagesCleanupTimer.cancel }

/-- Forget the timer calls of the last step. -/
def clearCalls (s : Timed) : Timed := { s with data := { s.data with timerCalls := [] } }

/-- A step; a timer that has not expired does nothing. -/
def step (env : DataEnv) (s : Timed) (e : Event) : Timed :=
  let s := s.clearCalls
  match e with
  | .tick elapsed => { s with now := s.now + elapsed }
  | .send msg => s.perform (·.send (UInt32.ofNat s.seconds) msg)
  | .processACKs m bound pos flag =>
    s.perform fun d => ((SSUData.processACKs m bound pos flag d).map Prod.fst).getD d
  | .processFragment m f => s.perform (·.processFragment env (UInt32.ofNat s.seconds) m f)
  | .expire name => if (s.timer name).Expired s.now then s.expire name else s
  | .run =>
    match s.ready with
    | [] => s
    | h :: ready => { s with ready }.handle h

/-- A session whose timers have not been used. -/
def start (d : SSUData) (now : ℕ) : Timed := { data := d, now }

/-! ## What the timers are for -/

/-- The schedule of the resend timer changes only when it expires, by `ScheduleResend` and by
emptying the sent messages. -/
def ScheduleKept (env : DataEnv) (s : Timed) (e : Event) : Prop :=
  e = .expire .resendTimer ∨
    ((s.step env e).resendTimer.expiry = s.resendTimer.expiry ∧
      (.handleResendTimer ∈ s.resendTimer.waiters →
        .handleResendTimer ∈ (s.step env e).resendTimer.waiters)) ∨
    .scheduleResend ∈ (s.step env e).data.timerCalls ∨
    s.data.sentMessages ≠ [] ∧ (s.step env e).data.sentMessages = []

/-- Received IDs are forgotten only when the decay interval has passed since the last call of
`ScheduleDecay`, or when there are too many. -/
def ForgottenInTime (env : DataEnv) (s : Timed) (e : Event) : Prop :=
  s.data.receivedMessages ⊆ (s.step env e).data.receivedMessages ∨
    (∃ t ∈ s.lastDecay, t + decayInterval * second ≤ s.now) ∨
    maxReceivedMessages < s.data.receivedMessages.length

/-- The resend timer does not expire while `HandleDecayTimer` waits for it. -/
def NoDecayWaits (s : Timed) : Event → Prop
  | .expire .resendTimer =>
    s.resendTimer.Expired s.now → .handleDecayTimer ∉ s.resendTimer.waiters
  | _ => True

instance (s : Timed) : ∀ e, Decidable (s.NoDecayWaits e)
  | .expire .resendTimer => inferInstanceAs (Decidable (_ → _))
  | .tick _ | .send _ | .processACKs .. | .processFragment .. | .expire .decayTimer
  | .expire .incompleteMessagesCleanupTimer | .run => inferInstanceAs (Decidable True)

end Timed

/-! ## Operations on the data -/

namespace SSUData

variable {d d' d'' : SSUData}

/-- A change that does not concern the messages received. -/
structure Apart (d d' : SSUData) : Prop where
  sessionState_eq : d'.sessionState = d.sessionState
  incompleteMessages_eq : d'.incompleteMessages = d.incompleteMessages
  receivedMessages_eq : d'.receivedMessages = d.receivedMessages
  handled_eq : d'.handled = d.handled

theorem Apart.refl (d : SSUData) : Apart d d := ⟨rfl, rfl, rfl, rfl⟩

theorem Apart.trans (h : Apart d d') (h' : Apart d' d'') : Apart d d'' :=
  ⟨h'.sessionState_eq.trans h.sessionState_eq,
    h'.incompleteMessages_eq.trans h.incompleteMessages_eq,
    h'.receivedMessages_eq.trans h.receivedMessages_eq, h'.handled_eq.trans h.handled_eq⟩

theorem apart_foldl_sendDatagram (fragments : List Fragment) (d : SSUData) :
    Apart d (fragments.foldl (fun d f => d.sendDatagram ⟨f.buffer, f.len⟩) d) ∧
      (fragments.foldl (fun d f => d.sendDatagram ⟨f.buffer, f.len⟩) d).timerCalls =
        d.timerCalls := by
  induction fragments generalizing d with
  | nil => exact ⟨Apart.refl d, rfl⟩
  | cons f fragments ih =>
    obtain ⟨hapart, hcalls⟩ := ih (d.sendDatagram ⟨f.buffer, f.len⟩)
    have hone : Apart d (d.sendDatagram ⟨f.buffer, f.len⟩) := ⟨rfl, rfl, rfl, rfl⟩
    exact ⟨hone.trans hapart, hcalls⟩

theorem apart_send (now : UInt32) (d : SSUData) (msg : I2NPMessage) :
    Apart d (d.send now msg) ∧
      ∀ call ∈ (d.send now msg).timerCalls, call ∈ d.timerCalls ∨ call = .scheduleResend := by
  unfold send
  dsimp only
  split
  · exact ⟨Apart.refl d, fun call hcall => Or.inl hcall⟩
  · obtain ⟨hapart, hcalls⟩ := apart_foldl_sendDatagram (d.fragmentsOf msg)
      { (if d.sentMessages.isEmpty then d.callTimer .scheduleResend else d) with
        sentMessages := KeyedSet.insert (fun e => e.1.toNat)
          (msg.toSSU.2, { fragments := (d.fragmentsOf msg).map some
                          nextResendTime := now + resendInterval })
          (if d.sentMessages.isEmpty then d.callTimer .scheduleResend else d).sentMessages }
    refine ⟨Apart.trans ?_ hapart, ?_⟩
    · split <;> exact ⟨rfl, rfl, rfl, rfl⟩
    · rw [hcalls]
      intro call hcall
      dsimp only at hcall
      split at hcall
      · rcases List.mem_append.mp hcall with hcall | hcall
        · exact Or.inl hcall
        · exact Or.inr (List.mem_singleton.mp hcall)
      · exact Or.inl hcall

/-- What ACKs do: the resend timer is cancelled only when no sent message is left. -/
structure Acked (d d' : SSUData) : Prop where
  apart : Apart d d'
  sentMessages_eq_nil : d.sentMessages = [] → d'.sentMessages = []
  timerCalls : ∀ call ∈ d'.timerCalls, call ∈ d.timerCalls ∨
    call = .cancelResend ∧ d.sentMessages ≠ [] ∧ d'.sentMessages = []

theorem Acked.refl (d : SSUData) : Acked d d := ⟨Apart.refl d, id, fun _ hcall => Or.inl hcall⟩

theorem Acked.trans (h : Acked d d') (h' : Acked d' d'') : Acked d d'' := by
  refine ⟨h.apart.trans h'.apart, fun hnil => h'.2 (h.2 hnil), ?_⟩
  intro call hcall
  rcases h'.timerCalls call hcall with hcall | ⟨rfl, hsome, hnil⟩
  · refine (h.timerCalls call hcall).imp_right ?_
    rintro ⟨rfl, hsome, hnil⟩
    exact ⟨rfl, hsome, h'.2 hnil⟩
  · exact Or.inr ⟨rfl, fun h0 => hsome (h.2 h0), hnil⟩

theorem acked_processSentMessageACK (d : SSUData) (msgID : UInt32) :
    Acked d (d.processSentMessageACK msgID) := by
  unfold processSentMessageACK
  split
  next hfound =>
    have hsome : d.sentMessages ≠ [] := by
      intro hnil
      rw [findSent, hnil] at hfound
      cases hfound
    dsimp only
    split
    next hempty =>
      refine ⟨⟨rfl, rfl, rfl, rfl⟩, fun hnil => absurd hnil hsome, ?_⟩
      intro call hcall
      rcases List.mem_append.mp hcall with hcall | hcall
      · exact Or.inl hcall
      · exact Or.inr ⟨List.mem_singleton.mp hcall, hsome, List.isEmpty_iff.mp hempty⟩
    next =>
      exact ⟨⟨rfl, rfl, rfl, rfl⟩, fun hnil => absurd hnil hsome, fun _ hcall => Or.inl hcall⟩
  next => exact Acked.refl d

theorem acked_processExplicitACKs (m : Mem) (pos n : ℕ) (d : SSUData) :
    Acked d (processExplicitACKs m pos n d) := by
  induction n generalizing pos d with
  | zero => exact Acked.refl d
  | succ n ih => exact (acked_processSentMessageACK d _).trans (ih (pos + 4) _)

theorem acked_modifySent (d : SSUData) (msgID : UInt32)
    (f : List (Option Fragment) → List (Option Fragment)) : Acked d (d.modifySent msgID f) := by
  refine ⟨⟨rfl, rfl, rfl, rfl⟩, ?_, fun _ hcall => Or.inl hcall⟩
  intro hnil
  simp [modifySent, hnil]

theorem acked_processBitfieldChain {m : Mem} {msgID : UInt32} {limit pos fragment pos' : ℕ}
    (h : processBitfieldChain m msgID limit pos fragment d = some (d', pos')) : Acked d d' := by
  induction limit generalizing pos fragment d with
  | zero => cases h
  | succ limit ih =>
    rw [processBitfieldChain] at h
    have hbyte : Acked d (if m pos &&& 0x7F ≠ 0 ∧ (d.findSent msgID).isSome = true then
        d.modifySent msgID (releaseBits (m pos &&& 0x7F) fragment) else d) := by
      split
      · exact acked_modifySent d _ _
      · exact Acked.refl d
    by_cases hmore : m pos &&& 0x80 ≠ 0
    · rw [if_pos hmore] at h
      exact hbyte.trans (ih h)
    · rw [if_neg hmore, Option.some.injEq, Prod.mk.injEq] at h
      rw [← h.1]
      exact hbyte

theorem acked_processBitfields {m : Mem} {bound n pos pos' : ℕ}
    (h : processBitfields m bound n pos d = some (d', pos')) : Acked d d' := by
  induction n generalizing pos d with
  | zero =>
    rw [processBitfields, Option.some.injEq, Prod.mk.injEq] at h
    rw [← h.1]
    exact Acked.refl d
  | succ n ih =>
    rw [processBitfields] at h
    split at h
    next d₁ pos₁ hchain => exact (acked_processBitfieldChain hchain).trans (ih h)
    next => cases h

theorem acked_processACKs {m : Mem} {bound pos pos' : ℕ} {flag : UInt8}
    (h : processACKs m bound pos flag d = some (d', pos')) : Acked d d' := by
  unfold processACKs at h
  dsimp only at h
  have hexplicit : Acked d (if flag &&& dataExplicitACKsIncluded ≠ 0 then
      processExplicitACKs m (pos + 1) (m pos).toNat d else d) := by
    split
    · exact acked_processExplicitACKs m _ _ d
    · exact Acked.refl d
  by_cases hfields : flag &&& dataACKBitfieldsIncluded ≠ 0
  · rw [if_pos hfields] at h
    exact hexplicit.trans (acked_processBitfields h)
  · rw [if_neg hfields, Option.some.injEq, Prod.mk.injEq] at h
    rw [← h.1]
    exact hexplicit

/-- What a fragment does: no ID is forgotten unless there are too many, and the resend timer is not
cancelled. -/
structure Took (d d' : SSUData) : Prop where
  receivedMessages : d.receivedMessages ⊆ d'.receivedMessages ∨
    maxReceivedMessages < d.receivedMessages.length
  timerCalls : ∀ call ∈ d'.timerCalls, call ∈ d.timerCalls ∨ call ≠ .cancelResend

theorem Apart.took (h : Apart d d')
    (hcalls : ∀ call ∈ d'.timerCalls, call ∈ d.timerCalls ∨ call ≠ .cancelResend) : Took d d' :=
  ⟨Or.inl (by rw [h.receivedMessages_eq]; exact fun _ hmem => hmem), hcalls⟩

theorem took_sessionEstablished (env : DataEnv) (now : UInt32) (d : SSUData) :
    (d.sessionEstablished env now).receivedMessages = d.receivedMessages ∧
      ∀ call ∈ (d.sessionEstablished env now).timerCalls,
        call ∈ d.timerCalls ∨ call ≠ .cancelResend := by
  have hgreeting : ∀ (greeting : List I2NPMessage) (e : SSUData),
      (greeting.foldl (fun d msg => d.send now msg) e).receivedMessages = e.receivedMessages ∧
        ∀ call ∈ (greeting.foldl (fun d msg => d.send now msg) e).timerCalls,
          call ∈ e.timerCalls ∨ call ≠ .cancelResend := by
    intro greeting
    induction greeting with
    | nil => exact fun e => ⟨rfl, fun call hcall => Or.inl hcall⟩
    | cons msg greeting ih =>
      intro e
      obtain ⟨hrec, hcalls⟩ := ih (e.send now msg)
      obtain ⟨hapart, hsend⟩ := apart_send now e msg
      refine ⟨hrec.trans hapart.receivedMessages_eq, fun call hcall => ?_⟩
      rcases hcalls call hcall with hcall | hcall
      · rcases hsend call hcall with hcall | rfl
        · exact Or.inl hcall
        · exact Or.inr TimerCall.noConfusion
      · exact Or.inr hcall
  obtain ⟨hrec, hcalls⟩ := hgreeting env.greeting
    ({ d with sessionState := .established }.callTimer .scheduleIncompleteMessagesCleanup)
  refine ⟨hrec, fun call hcall => ?_⟩
  rcases hcalls call hcall with hcall | hcall
  · rcases List.mem_append.mp hcall with hcall | hcall
    · exact Or.inl hcall
    · rw [List.mem_singleton.mp hcall]
      exact Or.inr TimerCall.noConfusion
  · exact Or.inr hcall

theorem took_completeMessage (env : DataEnv) (now : UInt32) (d : SSUData) (msgID : UInt32)
    (msg : I2NPMessage) : Took d (d.completeMessage env now msgID msg) := by
  unfold completeMessage
  dsimp only
  split
  · split
    · exact ⟨Or.inl fun _ hmem => hmem, fun _ hcall => Or.inl hcall⟩
    · split
      next hmany => exact ⟨Or.inr hmany, fun _ hcall => Or.inl hcall⟩
      next =>
        refine ⟨Or.inl fun _ hmem => List.mem_insert_of_mem hmem, fun call hcall => ?_⟩
        rcases List.mem_append.mp hcall with hcall | hcall
        · exact Or.inl hcall
        · rw [List.mem_singleton.mp hcall]
          exact Or.inr TimerCall.noConfusion
  · split
    · obtain ⟨hrec, hcalls⟩ := took_sessionEstablished env now
        ({ d with
          incompleteMessages := Function.update d.incompleteMessages msgID none
        }.sendMsgACK env msgID)
      refine ⟨Or.inl ?_, hcalls⟩
      rw [hrec]
      exact fun _ hmem => hmem
    · split
      · exact ⟨Or.inl fun _ hmem => List.mem_insert_of_mem hmem, fun _ hcall => Or.inl hcall⟩
      · exact ⟨Or.inl fun _ hmem => hmem, fun _ hcall => Or.inl hcall⟩

theorem took_processFragment (env : DataEnv) (now : UInt32) (m : Mem) (d : SSUData)
    (f : FragmentHeader) : Took d (d.processFragment env now m f) := by
  rcases d.processFragment_cases env now m f with ⟨inc, heq⟩ | ⟨msg, heq⟩
  · rw [heq]
    have hcalls : (d.keepIncomplete env f inc).timerCalls = d.timerCalls := by
      simp only [keepIncomplete, sendFragmentACK]
      split <;> rfl
    exact ⟨Or.inl (by simp), fun _ hcall => Or.inl (hcalls ▸ hcall)⟩
  · rw [heq]
    exact took_completeMessage env now d f.msgID msg

/-- A fragment hands on as many messages as it adds IDs to the received ones. -/
structure Counted (d d' : SSUData) : Prop where
  handled_le : d.handled.length ≤ d'.handled.length
  received_le : d'.receivedMessages.length + d.handled.length ≤
    d.receivedMessages.length + d'.handled.length

theorem counted_of_eq (hrec : d'.receivedMessages = d.receivedMessages)
    (hhandled : d'.handled = d.handled) : Counted d d' :=
  ⟨by rw [hhandled], by rw [hrec, hhandled]⟩

theorem apart_foldl_send (now : UInt32) (msgs : List I2NPMessage) (d : SSUData) :
    Apart d (msgs.foldl (fun d msg => d.send now msg) d) := by
  induction msgs generalizing d with
  | nil => exact Apart.refl d
  | cons msg msgs ih => exact (apart_send now d msg).1.trans (ih (d.send now msg))

theorem length_insert_le (msgID : UInt32) (ids : List UInt32) :
    (ids.insert msgID).length ≤ ids.length + 1 := by
  rw [List.length_insert]
  split <;> omega

theorem counted_completeMessage (env : DataEnv) (now : UInt32) (d : SSUData) (msgID : UInt32)
    (msg : I2NPMessage) : Counted d (d.completeMessage env now msgID msg) := by
  have hadd : ∀ (ids : List UInt32) (m : I2NPMessage), ids.length ≤ d.receivedMessages.length →
      d.handled.length ≤ (d.handled ++ [m]).length ∧
        (ids.insert msgID).length + d.handled.length ≤
          d.receivedMessages.length + (d.handled ++ [m]).length := by
    intro ids m hids
    have hinsert := length_insert_le msgID ids
    rw [List.length_append, List.length_singleton]
    omega
  unfold completeMessage
  dsimp only
  split
  · split
    · exact counted_of_eq rfl rfl
    · split
      · exact ⟨(hadd [] _ (Nat.zero_le _)).1, (hadd [] _ (Nat.zero_le _)).2⟩
      · exact ⟨(hadd _ _ le_rfl).1, (hadd _ _ le_rfl).2⟩
  · split
    · have hapart := apart_foldl_send now env.greeting
        ({ { d with incompleteMessages := Function.update d.incompleteMessages msgID none
           }.sendMsgACK env msgID with
            sessionState := .established }.callTimer .scheduleIncompleteMessagesCleanup)
      exact counted_of_eq hapart.receivedMessages_eq hapart.handled_eq
    · split
      · exact ⟨(hadd _ _ le_rfl).1, (hadd _ _ le_rfl).2⟩
      · exact counted_of_eq rfl rfl

theorem counted_processFragment (env : DataEnv) (now : UInt32) (m : Mem) (d : SSUData)
    (f : FragmentHeader) : Counted d (d.processFragment env now m f) := by
  rcases d.processFragment_cases env now m f with ⟨inc, heq⟩ | ⟨msg, heq⟩
  · rw [heq]
    have hhandled : (d.keepIncomplete env f inc).handled = d.handled := by
      simp only [keepIncomplete, sendFragmentACK]
      split <;> rfl
    exact counted_of_eq (by simp) hhandled
  · rw [heq]
    exact counted_completeMessage env now d f.msgID msg

end SSUData

/-! ## One step -/

namespace Timed

variable {s : Timed} {env : DataEnv}

@[simp]
theorem data_call (s : Timed) (c : TimerCall) : (s.call c).data = s.data := by
  cases c <;> rfl

@[simp]
theorem ready_call (s : Timed) (c : TimerCall) : (s.call c).ready = s.ready := by
  cases c <;> rfl

@[simp]
theorem data_foldl_call (calls : List TimerCall) (s : Timed) :
    (calls.foldl call s).data = s.data := by
  induction calls generalizing s with
  | nil => rfl
  | cons c calls ih => rw [List.foldl_cons, ih, data_call]

@[simp]
theorem ready_foldl_call (calls : List TimerCall) (s : Timed) :
    (calls.foldl call s).ready = s.ready := by
  induction calls generalizing s with
  | nil => rfl
  | cons c calls ih => rw [List.foldl_cons, ih, ready_call]

@[simp]
theorem data_perform (s : Timed) (op : SSUData → SSUData) : (s.perform op).data = op s.data :=
  data_foldl_call _ _

@[simp]
theorem ready_perform (s : Timed) (op : SSUData → SSUData) : (s.perform op).ready = s.ready :=
  ready_foldl_call _ _

/-- Calls that do not concern the resend timer keep its schedule; `ScheduleDecay` only adds a wait. -/
theorem resendTimer_foldl_call {calls : List TimerCall}
    (hcalls : ∀ c ∈ calls, c ≠ .scheduleResend ∧ c ≠ .cancelResend) (s : Timed) :
    (calls.foldl call s).resendTimer.expiry = s.resendTimer.expiry ∧
      (.handleResendTimer ∈ s.resendTimer.waiters →
        .handleResendTimer ∈ (calls.foldl call s).resendTimer.waiters) := by
  induction calls generalizing s with
  | nil => exact ⟨rfl, id⟩
  | cons c calls ih =>
    obtain ⟨hexpiry, hwaiters⟩ := ih (fun c' hc' => hcalls c' (List.mem_cons_of_mem c hc')) (s.call c)
    have hc := hcalls c List.mem_cons_self
    rw [List.foldl_cons]
    cases c with
    | scheduleResend => exact absurd rfl hc.1
    | cancelResend => exact absurd rfl hc.2
    | scheduleDecay =>
      refine ⟨hexpiry, fun hmem => hwaiters ?_⟩
      exact Timer.mem_waiters_asyncWait.mpr (Or.inl hmem)
    | scheduleIncompleteMessagesCleanup => exact ⟨hexpiry, hwaiters⟩

/-- An operation that cancels the resend timer only when it empties the sent messages. -/
theorem resendTimer_perform (s : Timed) (op : SSUData → SSUData)
    (hcancel : TimerCall.cancelResend ∈ (op s.data).timerCalls →
      s.data.sentMessages ≠ [] ∧ (op s.data).sentMessages = []) :
    ((s.perform op).resendTimer.expiry = s.resendTimer.expiry ∧
        (.handleResendTimer ∈ s.resendTimer.waiters →
          .handleResendTimer ∈ (s.perform op).resendTimer.waiters)) ∨
      .scheduleResend ∈ (s.perform op).data.timerCalls ∨
      s.data.sentMessages ≠ [] ∧ (s.perform op).data.sentMessages = [] := by
  rw [data_perform]
  by_cases hsched : TimerCall.scheduleResend ∈ (op s.data).timerCalls
  · exact Or.inr (Or.inl hsched)
  · by_cases hcan : TimerCall.cancelResend ∈ (op s.data).timerCalls
    · exact Or.inr (Or.inr (hcancel hcan))
    · left
      refine resendTimer_foldl_call (fun c hc => ⟨?_, ?_⟩) { s with data := op s.data }
      · rintro rfl
        exact hsched hc
      · rintro rfl
        exact hcan hc

theorem not_cancelResend_of_forall {calls : List TimerCall}
    (h : ∀ c ∈ calls, c ∈ ([] : List TimerCall) ∨ c ≠ .cancelResend) :
    TimerCall.cancelResend ∉ calls := by
  intro hmem
  rcases h _ hmem with hnil | hne
  · cases hnil
  · exact hne rfl

/-- The ACKs of a step, as an operation on the data. -/
theorem acked_getD (m : Mem) (bound pos : ℕ) (flag : UInt8) (d : SSUData) :
    SSUData.Acked d (((SSUData.processACKs m bound pos flag d).map Prod.fst).getD d) := by
  cases h : SSUData.processACKs m bound pos flag d with
  | none => exact SSUData.Acked.refl d
  | some r => exact SSUData.acked_processACKs h

/-- The schedule of the resend timer is kept in every step. -/
theorem scheduleKept (env : DataEnv) (s : Timed) (e : Event) : s.ScheduleKept env e := by
  unfold ScheduleKept
  cases e with
  | tick elapsed => exact Or.inr (Or.inl ⟨rfl, id⟩)
  | send msg =>
    refine Or.inr (s.clearCalls.resendTimer_perform _ fun hcan => absurd hcan ?_)
    apply not_cancelResend_of_forall
    intro c hc
    refine ((SSUData.apart_send _ s.clearCalls.data msg).2 c hc).imp_right ?_
    rintro rfl
    exact TimerCall.noConfusion
  | processACKs m bound pos flag =>
    refine Or.inr (s.clearCalls.resendTimer_perform _ fun hcan => ?_)
    rcases (acked_getD m bound pos flag s.clearCalls.data).timerCalls _ hcan with hnil | hempty
    · cases hnil
    · exact hempty.2
  | processFragment m f =>
    refine Or.inr (s.clearCalls.resendTimer_perform _ fun hcan => absurd hcan ?_)
    exact not_cancelResend_of_forall
      (SSUData.took_processFragment env _ m s.clearCalls.data f).timerCalls
  | expire name =>
    cases name with
    | resendTimer => exact Or.inl rfl
    | decayTimer =>
      refine Or.inr (Or.inl ?_)
      simp only [step]
      split <;> exact ⟨rfl, id⟩
    | incompleteMessagesCleanupTimer =>
      refine Or.inr (Or.inl ?_)
      simp only [step]
      split <;> exact ⟨rfl, id⟩
  | run =>
    right
    simp only [step]
    cases hready : s.clearCalls.ready with
    | nil => exact Or.inl ⟨rfl, id⟩
    | cons h ready =>
      cases h with
      | handleResendTimer =>
        refine resendTimer_perform { s.clearCalls with ready } _ fun hcan => ?_
        rcases List.mem_append.mp hcan with hnil | hcall
        · cases hnil
        · cases List.mem_singleton.mp hcall
      | handleDecayTimer =>
        exact resendTimer_perform { s.clearCalls with ready } _ fun hcan => by cases hcan
      | handleIncompleteMessagesCleanupTimer =>
        refine resendTimer_perform { s.clearCalls with ready } _ fun hcan => ?_
        rcases List.mem_append.mp hcan with hnil | hcall
        · cases hnil
        · cases List.mem_singleton.mp hcall

/-! ## Runs without an early decay -/

/-- `HandleDecayTimer` waits for no timer but the resend timer, and is not ready. -/
structure DecayAway (s : Timed) : Prop where
  ready : .handleDecayTimer ∉ s.ready
  decayTimer : .handleDecayTimer ∉ s.decayTimer.waiters
  cleanupTimer : .handleDecayTimer ∉ s.incompleteMessagesCleanupTimer.waiters

theorem DecayAway.call (h : DecayAway s) (c : TimerCall) : DecayAway (s.call c) := by
  obtain ⟨hready, hdecay, hcleanup⟩ := h
  cases c with
  | scheduleResend => exact ⟨hready, hdecay, hcleanup⟩
  | cancelResend => exact ⟨hready, hdecay, hcleanup⟩
  | scheduleDecay => exact ⟨hready, List.not_mem_nil, hcleanup⟩
  | scheduleIncompleteMessagesCleanup =>
    refine ⟨hready, hdecay, ?_⟩
    simp [Timed.call, Timer.asyncWait]

theorem DecayAway.perform (h : DecayAway s) (op : SSUData → SSUData) :
    DecayAway (s.perform op) := by
  have hfold : ∀ (calls : List TimerCall) (s : Timed), DecayAway s →
      DecayAway (calls.foldl Timed.call s) := by
    intro calls
    induction calls with
    | nil => exact fun s hs => hs
    | cons c calls ih => exact fun s hs => ih (s.call c) (hs.call c)
  exact hfold _ _ ⟨h.ready, h.decayTimer, h.cleanupTimer⟩

theorem DecayAway.step (h : DecayAway s) {e : Event} (he : s.NoDecayWaits e) :
    DecayAway (s.step env e) := by
  have hclear : DecayAway s.clearCalls := ⟨h.ready, h.decayTimer, h.cleanupTimer⟩
  cases e with
  | tick elapsed => exact ⟨h.ready, h.decayTimer, h.cleanupTimer⟩
  | send msg => exact hclear.perform (·.send (UInt32.ofNat s.clearCalls.seconds) msg)
  | processACKs m bound pos flag => exact hclear.perform _
  | processFragment m f =>
    exact hclear.perform (·.processFragment env (UInt32.ofNat s.clearCalls.seconds) m f)
  | expire name =>
    simp only [Timed.step]
    split
    next hexpired =>
      cases name with
      | resendTimer =>
        refine ⟨?_, h.decayTimer, h.cleanupTimer⟩
        show _ ∉ s.ready ++ s.resendTimer.waiters
        rw [List.mem_append, not_or]
        exact ⟨h.ready, he hexpired⟩
      | decayTimer =>
        refine ⟨?_, List.not_mem_nil, h.cleanupTimer⟩
        show _ ∉ s.ready ++ s.decayTimer.waiters
        rw [List.mem_append, not_or]
        exact ⟨h.ready, h.decayTimer⟩
      | incompleteMessagesCleanupTimer =>
        refine ⟨?_, h.decayTimer, List.not_mem_nil⟩
        show _ ∉ s.ready ++ s.incompleteMessagesCleanupTimer.waiters
        rw [List.mem_append, not_or]
        exact ⟨h.ready, h.cleanupTimer⟩
    next => exact hclear
  | run =>
    simp only [Timed.step]
    cases hready : s.clearCalls.ready with
    | nil => exact hclear
    | cons handler ready =>
      have hrest : DecayAway { s.clearCalls with ready } := by
        refine ⟨fun hmem => hclear.ready ?_, h.decayTimer, h.cleanupTimer⟩
        rw [hready]
        exact List.mem_cons_of_mem handler hmem
      cases handler <;> exact hrest.perform _

/-- The handler that the step runs, if any. -/
def runs (s : Timed) : Event → Option Handler
  | .run => s.ready.head?
  | _ => none

theorem step_run_of_ready {h : Handler} {ready : List Handler} (hready : s.ready = h :: ready) :
    s.step env .run = { s.clearCalls with ready }.handle h := by
  have hclear : s.clearCalls.ready = h :: ready := hready
  simp only [step, hclear]

theorem step_run_of_nil (hready : s.ready = []) : s.step env .run = s.clearCalls := by
  have hclear : s.clearCalls.ready = [] := hready
  simp only [step, hclear]

/-- A step without a fragment that runs at most `HandleResendTimer`. -/
theorem apart_step {e : Event} (hfragment : ∀ m f, e ≠ .processFragment m f)
    (hruns : ∀ h ∈ s.runs e, h = .handleResendTimer) :
    SSUData.Apart s.data (s.step env e).data := by
  cases e with
  | tick elapsed => exact ⟨rfl, rfl, rfl, rfl⟩
  | send msg =>
    have happly := (SSUData.apart_send (UInt32.ofNat s.clearCalls.seconds) s.clearCalls.data msg).1
    simp only [step, data_perform]
    exact ⟨happly.1, happly.2, happly.3, happly.4⟩
  | processACKs m bound pos flag =>
    have happly := (acked_getD m bound pos flag s.clearCalls.data).apart
    simp only [step, data_perform]
    exact ⟨happly.1, happly.2, happly.3, happly.4⟩
  | processFragment m f => exact absurd rfl (hfragment m f)
  | expire name =>
    simp only [step]
    split
    · cases name <;> exact ⟨rfl, rfl, rfl, rfl⟩
    · exact ⟨rfl, rfl, rfl, rfl⟩
  | run =>
    cases hready : s.ready with
    | nil =>
      rw [step_run_of_nil hready]
      exact ⟨rfl, rfl, rfl, rfl⟩
    | cons h ready =>
      obtain rfl : h = .handleResendTimer := hruns h (by rw [runs, hready]; rfl)
      rw [step_run_of_ready hready, handle, data_perform]
      exact ⟨rfl, rfl, rfl, rfl⟩

/-- While `HandleDecayTimer` is away, IDs are forgotten only if there are too many. -/
theorem DecayAway.receivedMessages_step (h : DecayAway s) (env : DataEnv) (e : Event) :
    s.data.receivedMessages ⊆ (s.step env e).data.receivedMessages ∨
      maxReceivedMessages < s.data.receivedMessages.length := by
  by_cases hfragment : ∃ m f, e = .processFragment m f
  · obtain ⟨m, f, rfl⟩ := hfragment
    have htook := (SSUData.took_processFragment env (UInt32.ofNat s.clearCalls.seconds) m
      s.clearCalls.data f).receivedMessages
    simp only [Timed.step, data_perform]
    exact htook
  · left
    by_cases hcleanup : s.runs e = some .handleIncompleteMessagesCleanupTimer
    · -- the cleanup forgets incomplete messages only
      cases e with
      | run =>
        obtain ⟨ready, hready⟩ := List.head?_eq_some_iff.mp hcleanup
        rw [step_run_of_ready hready, handle, data_perform]
        exact fun _ hmem => hmem
      | _ => cases hcleanup
    · have hruns : ∀ handler ∈ s.runs e, handler = .handleResendTimer := by
        intro handler hhandler
        cases handler with
        | handleResendTimer => rfl
        | handleDecayTimer =>
          cases e with
          | run => exact absurd (List.mem_of_head? hhandler) h.ready
          | _ => cases hhandler
        | handleIncompleteMessagesCleanupTimer => exact absurd hhandler hcleanup
      have hapart : SSUData.Apart s.data (s.step env e).data :=
        apart_step (fun m f heq => hfragment ⟨m, f, heq⟩) hruns
      rw [hapart.receivedMessages_eq]
      exact fun _ hmem => hmem

/-! ## A message that arrives twice -/

/-- The pieces into which `a` cuts the message `msg` reach an established session twice, in any
order and between other events. The received IDs and the messages that are handed on meanwhile are
not too many, and no incomplete message is dropped. -/
structure ArrivesTwice (env : DataEnv) (a : SSUData) (msg : I2NPMessage) (s : Timed)
    (events : List Event) : Prop where
  packetSize_gt : headerMin + 9 < a.packetSize
  packetSize_le : a.packetSize ≤ packetMaxIPv4
  established : s.data.sessionState = .established
  not_incomplete : (s.data.incompleteMessages msg.getMsgID).isNone
  not_received : msg.getMsgID ∉ s.data.receivedMessages
  isPiece : ∀ m f, .processFragment m f ∈ events → f.msgID = msg.getMsgID →
    IsPiece msg.getMsgID (a.piecesOf msg) m f
  twice : ∀ i < (a.piecesOf msg).length, 2 ≤ events.countP (Event.isPiece msg.getMsgID i)
  room : s.data.receivedMessages.length + (Runs.exec (step env) s events).data.handled.length ≤
    s.data.handled.length + maxReceivedMessages
  no_cleanup : Runs.Meets (step env)
    (fun s e => s.runs e ≠ some .handleIncompleteMessagesCleanupTimer) s events

theorem counted_step (env : DataEnv) (s : Timed) (e : Event) :
    SSUData.Counted s.data (s.step env e).data := by
  by_cases hfragment : ∃ m f, e = .processFragment m f
  · obtain ⟨m, f, rfl⟩ := hfragment
    have hcounted := SSUData.counted_processFragment env (UInt32.ofNat s.clearCalls.seconds) m
      s.clearCalls.data f
    simp only [step, data_perform]
    exact ⟨hcounted.1, hcounted.2⟩
  by_cases hother : ∃ handler ∈ s.runs e, handler ≠ .handleResendTimer
  · obtain ⟨handler, hhandler, hne⟩ := hother
    cases e with
    | run =>
      obtain ⟨ready, hready⟩ := List.head?_eq_some_iff.mp hhandler
      rw [step_run_of_ready hready]
      cases handler with
      | handleResendTimer => exact absurd rfl hne
      | handleDecayTimer =>
        rw [handle, data_perform]
        refine ⟨le_refl _, ?_⟩
        show 0 + s.data.handled.length ≤ s.data.receivedMessages.length + s.data.handled.length
        omega
      | handleIncompleteMessagesCleanupTimer =>
        rw [handle, data_perform]
        exact SSUData.counted_of_eq rfl rfl
    | _ => cases hhandler
  · have hapart : SSUData.Apart s.data (s.step env e).data := by
      refine apart_step (fun m f heq => hfragment ⟨m, f, heq⟩) fun handler hhandler => ?_
      by_contra hne
      exact hother ⟨handler, hhandler, hne⟩
    exact SSUData.counted_of_eq hapart.receivedMessages_eq hapart.handled_eq

theorem length_handled_le_exec (env : DataEnv) (s : Timed) (events : List Event) :
    s.data.handled.length ≤ (Runs.exec (step env) s events).data.handled.length := by
  induction events generalizing s with
  | nil => exact le_refl _
  | cons e events ih => exact (counted_step env s e).handled_le.trans (ih (s.step env e))

theorem leaves_of_apart {d d' : SSUData} (h : SSUData.Apart d d')
    (hest : d.sessionState = .established) (msgID : UInt32) : SSUData.Leaves msgID d d' := by
  refine ⟨h.sessionState_eq.trans hest, by rw [h.incompleteMessages_eq], ?_, ?_⟩
  · rw [SSUData.handed, h.handled_eq]
    rfl
  · rw [h.receivedMessages_eq]
    exact id

/-- The phase of the message goes on in every step that forgets no ID and no incomplete message. -/
theorem phase_step {msg : I2NPMessage} {ps : List (List UInt8)} {old : List I2NPMessage}
    {A : Set ℕ} (hps : ps.flatten = msg.ssuBytes) (h : SSUData.Phase msg ps old A s.data)
    {e : Event} (hpiece : ∀ m f, e = .processFragment m f → f.msgID = msg.getMsgID →
      IsPiece msg.getMsgID ps m f)
    (hruns : ∀ handler ∈ s.runs e, handler = .handleResendTimer)
    (hkeep : s.data.receivedMessages ⊆ (s.step env e).data.receivedMessages) :
    SSUData.Phase msg ps old (A ∪ {i | e.isPiece msg.getMsgID i}) (s.step env e).data := by
  by_cases hfragment : ∃ m f, e = .processFragment m f
  · obtain ⟨m, f, rfl⟩ := hfragment
    have hclear : SSUData.Phase msg ps old A s.clearCalls.data := by
      have hapart : SSUData.Apart s.data s.clearCalls.data := ⟨rfl, rfl, rfl, rfl⟩
      exact h.of_leaves (leaves_of_apart hapart h.established _) fun _ hmem => hmem
    simp only [step, data_perform] at hkeep ⊢
    by_cases hown : f.msgID = msg.getMsgID
    · refine (hclear.processFragment hps env _ (hpiece m f rfl hown)).mono ?_
      rintro i (hi | hi)
      · exact Or.inr hi
      · left
        have hnum : f.msgID = msg.getMsgID ∧ f.fragmentNum = i := by
          simpa [Event.isPiece] using hi
        exact hnum.2.symm
    · refine (hclear.of_leaves
        (SSUData.leaves_processFragment env _ m hclear.established hown) hkeep).mono ?_
      rintro i (hi | hi)
      · exact hi
      · have hnum : f.msgID = msg.getMsgID ∧ f.fragmentNum = i := by
          simpa [Event.isPiece] using hi
        exact absurd hnum.1 hown
  · have hapart : SSUData.Apart s.data (s.step env e).data :=
      apart_step (fun m f heq => hfragment ⟨m, f, heq⟩) hruns
    refine (h.of_leaves (leaves_of_apart hapart h.established _) hkeep).mono ?_
    rintro i (hi | hi)
    · exact hi
    · cases e with
      | processFragment m f => exact absurd ⟨m, f, rfl⟩ hfragment
      | _ => cases hi

/-- The phase at the end of a run. The induction is on the events; `room` shrinks by every message
that is handed on. -/
theorem phase_exec {msg : I2NPMessage} {ps : List (List UInt8)} {old : List I2NPMessage}
    (hps : ps.flatten = msg.ssuBytes) {events : List Event} {A : Set ℕ} (haway : DecayAway s)
    (hdecay : Runs.Meets (step env) NoDecayWaits s events)
    (hcleanup : Runs.Meets (step env)
      (fun s e => s.runs e ≠ some .handleIncompleteMessagesCleanupTimer) s events)
    (hpiece : ∀ m f, .processFragment m f ∈ events → f.msgID = msg.getMsgID →
      IsPiece msg.getMsgID ps m f)
    (hroom : s.data.receivedMessages.length + (Runs.exec (step env) s events).data.handled.length ≤
      s.data.handled.length + maxReceivedMessages)
    (h : SSUData.Phase msg ps old A s.data) :
    SSUData.Phase msg ps old (A ∪ {i | ∃ e ∈ events, e.isPiece msg.getMsgID i})
      (Runs.exec (step env) s events).data := by
  induction events generalizing s A with
  | nil => exact h.mono (by simp)
  | cons e events ih =>
    have hend := length_handled_le_exec env (s.step env e) events
    have hcount := counted_step env s e
    have hexec : Runs.exec (step env) s (e :: events) =
        Runs.exec (step env) (s.step env e) events := rfl
    rw [hexec] at hroom ⊢
    have hkeep : s.data.receivedMessages ⊆ (s.step env e).data.receivedMessages := by
      refine (haway.receivedMessages_step env e).resolve_right ?_
      have hle := hcount.handled_le
      omega
    have hruns : ∀ handler ∈ s.runs e, handler = .handleResendTimer := by
      intro handler hhandler
      cases handler with
      | handleResendTimer => rfl
      | handleDecayTimer =>
        cases e with
        | run => exact absurd (List.mem_of_head? hhandler) haway.ready
        | _ => cases hhandler
      | handleIncompleteMessagesCleanupTimer => exact absurd hhandler hcleanup.1
    have hstep := phase_step hps h
      (fun m f heq => hpiece m f (heq ▸ List.mem_cons_self)) hruns hkeep
    have hroom' : (s.step env e).data.receivedMessages.length +
        (Runs.exec (step env) (s.step env e) events).data.handled.length ≤
        (s.step env e).data.handled.length + maxReceivedMessages := by
      have hle := hcount.received_le
      omega
    refine (ih (haway.step hdecay.1) hdecay.2 hcleanup.2
      (fun m f hmem => hpiece m f (List.mem_cons_of_mem e hmem)) hroom' hstep).mono ?_
    rintro i (hi | ⟨e', he', hi⟩)
    · exact Or.inl (Or.inl hi)
    · rcases List.mem_cons.mp he' with rfl | he'
      · exact Or.inl (Or.inr hi)
      · exact Or.inr ⟨e', he', hi⟩

/-- A message that arrives twice is handed on once. -/
theorem handed_once {a : SSUData} {msg : I2NPMessage} {events : List Event} (haway : DecayAway s)
    (hdecay : Runs.Meets (step env) NoDecayWaits s events)
    (h : ArrivesTwice env a msg s events) :
    ∃ m, (Runs.exec (step env) s events).data.handed msg.getMsgID =
      s.data.handed msg.getMsgID ++ [m] ∧ Arrived msg m := by
  have hpayload : 0 < a.payloadSize := by
    rw [SSUData.payloadSize_eq h.packetSize_gt h.packetSize_le]
    have := h.packetSize_gt
    omega
  have hstart : SSUData.Phase msg (a.piecesOf msg) (s.data.handed msg.getMsgID) ∅ s.data := by
    refine ⟨h.established, ⟨∅, by simp, ?_, ?_, by simp⟩, fun _ => rfl, ?_⟩
    · rw [Reassembly.mex_empty]
      exact List.length_pos_iff.mpr SSUData.piecesOf_ne_nil
    · rw [Option.isNone_iff_eq_none.mp h.not_incomplete]
      exact gathers_newIncompleteMessage _
    · exact fun hmem => absurd hmem h.not_received
  have hfinal := phase_exec (SSUData.flatten_piecesOf hpayload) haway hdecay h.no_cleanup h.isPiece
    h.room hstart
  apply hfinal.done
  -- were the message still waiting, no piece would be missing
  by_contra hnot
  obtain ⟨S, -, hgap, -, hA⟩ := hfinal.gathering
  apply Reassembly.mex_notMem S
  apply hA hnot
  have hcount : 0 < events.countP (Event.isPiece msg.getMsgID (Reassembly.mex S)) :=
    lt_of_lt_of_le (by decide) (h.twice _ hgap)
  obtain ⟨e, he, hpiece⟩ := List.countP_pos_iff.mp hcount
  exact Or.inr ⟨e, he, hpiece⟩

theorem decayAway_start (d : SSUData) (now : ℕ) : DecayAway (start d now) :=
  ⟨List.not_mem_nil, List.not_mem_nil, List.not_mem_nil⟩

/-- In every run in which the resend timer does not expire while `HandleDecayTimer` waits for it,
the resend timer keeps its schedule, the received IDs are forgotten only in time, and a message that
arrives twice is handed on once. -/
theorem timersKeepMeaning (env : DataEnv) (d : SSUData) (now : ℕ) {events : List Event}
    (hdecay : Runs.Meets (step env) NoDecayWaits (start d now) events) :
    Runs.Meets (step env) (fun s e => s.ScheduleKept env e ∧ s.ForgottenInTime env e)
        (start d now) events ∧
      ∀ pre mid post, events = pre ++ (mid ++ post) → ∀ a msg,
        ArrivesTwice env a msg (Runs.exec (step env) (start d now) pre) mid →
          ∃ m, (Runs.exec (step env) (start d now) (pre ++ mid)).data.handed msg.getMsgID =
            (Runs.exec (step env) (start d now) pre).data.handed msg.getMsgID ++ [m] ∧
            Arrived msg m := by
  have haway : ∀ s e, DecayAway s → NoDecayWaits s e → DecayAway (s.step env e) :=
    fun s e hs he => hs.step he
  constructor
  · refine hdecay.of_invariant haway (fun s e hs _ => ⟨scheduleKept env s e, ?_⟩)
      (decayAway_start d now)
    rcases hs.receivedMessages_step env e with hsub | hmany
    · exact Or.inl hsub
    · exact Or.inr (Or.inr hmany)
  · rintro pre mid post rfl a msg harrives
    have hmid : Runs.Meets (step env) NoDecayWaits
        (Runs.exec (step env) (start d now) pre) mid :=
      hdecay.exec_of_append.of_append
    have hs : DecayAway (Runs.exec (step env) (start d now) pre) :=
      Runs.invariant_of_meets haway (decayAway_start d now) hdecay.of_append
    rw [Runs.exec_append]
    exact handed_once hs hmid harrives

/-! ## Two runs -/

/-- The only piece of a short message. -/
def shortPiece (msg : I2NPMessage) : Event :=
  let buf := (makeFragment msg.getMsgID 0 true msg.ssuBytes).buffer
  .processFragment buf (readFragmentHeader buf (headerMin + 2))

/-- The ACK of the message `msgID`. -/
def ackOf (msgID : UInt32) : Event :=
  .processACKs (store (fun _ => 0) 0 (1 :: writeU32 msgID)) 5 0 dataExplicitACKsIncluded

/-- A message arrives twice while another one waits for its ACK, which comes before the resend timer
expires. -/
def ackedRun : List Event :=
  [.send (shortMessage 9 1500)] ++
    ([shortPiece (shortMessage 7 1500), .tick second, shortPiece (shortMessage 7 1500)] ++
      [ackOf 9, .tick (2 * second), .expire .resendTimer, .run])

theorem handed_once_ackedRun :
    Runs.Meets (step plainEnv) (fun s e => s.ScheduleKept plainEnv e ∧ s.ForgottenInTime plainEnv e)
        (start (openSession 64) 0) ackedRun ∧
      ∃ m, (Runs.exec (step plainEnv) (start (openSession 64) 0)
        ([.send (shortMessage 9 1500)] ++ [shortPiece (shortMessage 7 1500), .tick second,
          shortPiece (shortMessage 7 1500)])).data.handed (shortMessage 7 1500).getMsgID =
          (Runs.exec (step plainEnv) (start (openSession 64) 0)
            [.send (shortMessage 9 1500)]).data.handed (shortMessage 7 1500).getMsgID ++ [m] ∧
        Arrived (shortMessage 7 1500) m := by
  have hmeets : Runs.Meets (step plainEnv) NoDecayWaits (start (openSession 64) 0) ackedRun := by
    decide +kernel
  obtain ⟨hkept, honce⟩ := timersKeepMeaning plainEnv (openSession 64) 0 hmeets
  refine ⟨hkept, honce _ _ _ rfl (openSession 64) (shortMessage 7 1500) ?_⟩
  refine ⟨by decide, by decide, by decide +kernel, by decide +kernel, by decide +kernel, ?_,
    by decide +kernel, by decide +kernel, by decide +kernel⟩
  intro m f hmem _
  have hpiece : Event.processFragment m f = shortPiece (shortMessage 7 1500) := by
    simpa using hmem
  obtain ⟨rfl, rfl⟩ := Event.processFragment.inj hpiece
  exact ⟨by decide +kernel, by decide +kernel, by decide +kernel, by decide +kernel,
    by decide +kernel⟩

/-- The resend timer expires three seconds after a message has been sent, and the ID that has been
received meanwhile is forgotten. -/
def forgetfulRun : List Event :=
  [.send (shortMessage 9 1500), shortPiece (shortMessage 7 1500), .tick (3 * second),
    .expire .resendTimer, .run]

theorem handed_twice_forgetfulRun :
    ¬ (Runs.exec (step plainEnv) (start (openSession 64) 0) forgetfulRun).ForgottenInTime plainEnv
        .run ∧
      (Runs.exec (step plainEnv) (start (openSession 64) 0)
        (forgetfulRun ++ [.run, shortPiece (shortMessage 7 1500)])).now <
          decayInterval * second ∧
      ((Runs.exec (step plainEnv) (start (openSession 64) 0)
        (forgetfulRun ++ [.run, shortPiece (shortMessage 7 1500)])).data.handed 7).length = 2 := by
  refine ⟨?_, by decide +kernel, by decide +kernel⟩
  rintro (hsub | ⟨t, ht, hle⟩ | hmany)
  · revert hsub
    decide +kernel
  · have hlast : (Runs.exec (step plainEnv) (start (openSession 64) 0) forgetfulRun).lastDecay =
        some 0 := by decide +kernel
    rw [hlast] at ht
    obtain rfl : 0 = t := Option.some.inj ht
    revert hle
    decide +kernel
  · revert hmany
    decide +kernel

end Timed

end SSU
