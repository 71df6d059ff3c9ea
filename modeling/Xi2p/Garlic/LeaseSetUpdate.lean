import Xi2p.Lib.Runs
import Xi2p.Garlic.RoundTrip

/-!
# Updates of the lease set in a session

A session sends the lease set of its owner again after each update, and notes when the peer has confirmed
it. The note consists of a status and of the ID of the last message with the lease set.

* `Monitored`: a session with the history of its lease set.
* `leaseSetCurrent_iff`: the confirmed lease set is the current one, unless a confirmation arrives after
  an update that has not been sent.
-/

namespace Garlic

open GarlicRoutingSession

/-! ## Lease sets in the payload -/

namespace GarlicRoutingSession

variable {crypto : Crypto} {wrap : Wrap} {call : Call} {session session' : GarlicRoutingSession}

/-- `CreateGarlicPayload` attaches the lease set. -/
def attachesLeaseSet (session : GarlicRoutingSession) (call : Call) : Bool :=
  session.hasOwner && decide ((session.resubmitLeaseSet call).leaseSetUpdateStatus = .updated)

theorem attachDeliveryStatus_leaseSet {newTags : Option UnconfirmedTags} {status : List (List UInt8)}
    {calls : List OwnerCall}
    (h : session.attachDeliveryStatus crypto wrap call newTags = some (session', status, calls)) :
    session'.leaseSetUpdateStatus = session.leaseSetUpdateStatus ∧
      session'.leaseSetUpdateMsgID = session.leaseSetUpdateMsgID := by
  rw [attachDeliveryStatus] at h
  split at h
  next =>
    obtain ⟨⟨clove, calls'⟩, -, hresult⟩ := Option.bind_eq_some_iff.mp h
    dsimp only at hresult
    split at hresult
    next =>
      obtain ⟨rfl, -⟩ := Prod.mk.inj (Option.some.inj hresult)
      cases newTags <;> exact ⟨rfl, rfl⟩
    next =>
      obtain ⟨rfl, -⟩ := Prod.mk.inj (Option.some.inj hresult)
      exact ⟨rfl, rfl⟩
  next =>
    obtain ⟨rfl, -⟩ := Prod.mk.inj (Option.some.inj h)
    exact ⟨rfl, rfl⟩

/-- The lease set of the owner is attached after an update, and the session remembers the message. -/
theorem attachLeaseSet_leaseSet {cloves : List (List UInt8)}
    (h : session.attachLeaseSet crypto call = some (session', cloves)) :
    if session.leaseSetUpdateStatus = .updated then
      session'.leaseSetUpdateStatus = .submitted ∧ session'.leaseSetUpdateMsgID = call.draws.msgID ∧
        ∃ leaseSet, call.owner.leaseSet = some leaseSet ∧
          cloves = [session'.createGarlicClove call call.draws.leaseSetCloveID
            (createDatabaseStoreMsg crypto call leaseSet) false]
    else session' = session ∧ cloves = [] := by
  rw [attachLeaseSet] at h
  split at h
  next hupdated =>
    obtain ⟨leaseSet, hleaseSet, hresult⟩ := Option.bind_eq_some_iff.mp h
    obtain ⟨rfl, rfl⟩ := Prod.mk.inj (Option.some.inj hresult)
    rw [if_pos hupdated]
    exact ⟨rfl, rfl, leaseSet, hleaseSet, rfl⟩
  next hother =>
    obtain ⟨rfl, rfl⟩ := Prod.mk.inj (Option.some.inj h)
    rw [if_neg hother]
    exact ⟨rfl, rfl⟩

theorem resubmitLeaseSet_msgID (session : GarlicRoutingSession) (call : Call) :
    (session.resubmitLeaseSet call).leaseSetUpdateMsgID = session.leaseSetUpdateMsgID := by
  rw [resubmitLeaseSet]
  split <;> rfl

/-- A lease set that is not attached is not noted as updated either. -/
theorem resubmitLeaseSet_eq_self
    (h : (session.resubmitLeaseSet call).leaseSetUpdateStatus ≠ .updated) :
    session.resubmitLeaseSet call = session := by
  rw [resubmitLeaseSet] at h ⊢
  split at h
  next => exact absurd rfl h
  next hnot => exact if_neg hnot

theorem createGarlicPayload_leaseSet {msg : Option (List UInt8)} {newTags : Option UnconfirmedTags}
    {payload : List UInt8} {calls : List OwnerCall}
    (h : session.createGarlicPayload crypto wrap call msg newTags = some (session', payload, calls)) :
    if session.attachesLeaseSet call then
      session'.leaseSetUpdateStatus = .submitted ∧ session'.leaseSetUpdateMsgID = call.draws.msgID
    else session'.leaseSetUpdateStatus = session.leaseSetUpdateStatus ∧
      session'.leaseSetUpdateMsgID = session.leaseSetUpdateMsgID := by
  rw [createGarlicPayload] at h
  rw [attachesLeaseSet]
  split at h
  next howner =>
    obtain ⟨⟨s₁, status, calls₁⟩, hstatus, h⟩ := Option.bind_eq_some_iff.mp h
    obtain ⟨⟨s₂, leaseSet⟩, hleaseSet, h⟩ := Option.bind_eq_some_iff.mp h
    obtain ⟨rfl, -⟩ := Prod.mk.inj (Option.some.inj h)
    obtain ⟨hstatus₁, hmsgID₁⟩ := attachDeliveryStatus_leaseSet hstatus
    have hattached := attachLeaseSet_leaseSet hleaseSet
    rw [hstatus₁] at hattached
    by_cases hupdated : (session.resubmitLeaseSet call).leaseSetUpdateStatus = .updated
    · rw [if_pos hupdated] at hattached
      simp only [howner, hupdated, decide_true, Bool.and_true, if_true]
      exact ⟨hattached.1, hattached.2.1⟩
    · rw [if_neg hupdated] at hattached
      obtain ⟨rfl, -⟩ := hattached
      simp only [hupdated, decide_false, Bool.and_false, Bool.false_eq_true, if_false]
      rw [hstatus₁, hmsgID₁, resubmitLeaseSet_eq_self hupdated]
      exact ⟨rfl, rfl⟩
  next hnone =>
    obtain ⟨rfl, -⟩ := Prod.mk.inj (Option.some.inj h)
    simp only [hnone, Bool.false_and, Bool.false_eq_true, if_false, and_self]

/-- Confirmations of tags do not matter to the lease set. -/
theorem messageConfirmed_leaseSet (session : GarlicRoutingSession) (seconds : ℕ) (msgID : UInt32) :
    (session.messageConfirmed seconds msgID).1.leaseSetUpdateStatus =
        (if msgID = session.leaseSetUpdateMsgID then .upToDate else session.leaseSetUpdateStatus) ∧
      (session.messageConfirmed seconds msgID).1.leaseSetUpdateMsgID =
        session.leaseSetUpdateMsgID := by
  have htags : (session.tagsConfirmed seconds msgID).leaseSetUpdateStatus =
      session.leaseSetUpdateStatus ∧
      (session.tagsConfirmed seconds msgID).leaseSetUpdateMsgID = session.leaseSetUpdateMsgID := by
    rw [tagsConfirmed]
    split <;> exact ⟨rfl, rfl⟩
  rw [messageConfirmed, htags.2]
  by_cases hsame : msgID = session.leaseSetUpdateMsgID
  · rw [if_pos hsame, if_pos hsame]
    exact ⟨rfl, rfl⟩
  · rw [if_neg hsame, if_neg hsame]
    exact htags

end GarlicRoutingSession

/-! ## The history of the lease set -/

/-- A session, and what has happened to its lease set. -/
structure Monitored where
  session : GarlicRoutingSession
  /-- The number of calls of `SetLeaseSetUpdated`. -/
  updates : ℕ
  /-- The messages that the lease set was attached to, with the number of updates before them. The last
  one is first. -/
  submissions : List (UInt32 × ℕ)
  /-- The number of updates before the message whose confirmation the session has taken last; none if
  there was no such message. -/
  confirmed : Option ℕ

/-- What happens to a session. -/
inductive Event
  | setLeaseSetUpdated
  | createGarlicPayload (wrap : Wrap) (call : Call) (msg : Option (List UInt8))
      (newTags : Option UnconfirmedTags)
  | messageConfirmed (seconds : ℕ) (msgID : UInt32)

namespace Monitored

variable (crypto : Crypto)

/-- A new session. -/
def start (session : GarlicRoutingSession) : Monitored where
  session
  updates := 0
  submissions := []
  confirmed := none

/-- One event. A payload that needs a null pointer is not created. -/
def step (s : Monitored) : Event → Monitored
  | .setLeaseSetUpdated =>
    { s with session := s.session.setLeaseSetUpdated, updates := s.updates + 1 }
  | .createGarlicPayload wrap call msg newTags =>
    match s.session.createGarlicPayload crypto wrap call msg newTags with
    | some (session, _, _) => { s with
        session
        submissions := if s.session.attachesLeaseSet call then
            (call.draws.msgID, s.updates) :: s.submissions
          else s.submissions }
    | none => s
  | .messageConfirmed seconds msgID => { s with
      session := (s.session.messageConfirmed seconds msgID).1
      confirmed := if msgID = s.session.leaseSetUpdateMsgID then AssocMap.find s.submissions msgID
        else s.confirmed }

/-- If the session takes its lease set for up to date, no update came after the lease set that was
confirmed. -/
def Current (s : Monitored) : Prop :=
  s.session.leaseSetUpdateStatus = .upToDate → s.confirmed = some s.updates

/-- The remembered message is not confirmed while an update has not been sent, and not before the first
one is sent. -/
def Allowed (s : Monitored) : Event → Prop
  | .messageConfirmed _ msgID => msgID = s.session.leaseSetUpdateMsgID →
      s.session.leaseSetUpdateStatus ≠ .updated ∧ s.session.leaseSetUpdateStatus ≠ .doNotSend
  | _ => True

/-- What the status says about the history. -/
structure Invariant (s : Monitored) : Prop where
  /-- The lease set that was sent last is old. -/
  unsent : s.session.leaseSetUpdateStatus = .updated ∨ s.session.leaseSetUpdateStatus = .doNotSend →
    ∀ e ∈ s.submissions, e.2 < s.updates
  /-- The lease set that was sent last is the current one. -/
  sent : s.session.leaseSetUpdateStatus = .submitted ∨ s.session.leaseSetUpdateStatus = .upToDate →
    ∃ earlier, s.submissions = (s.session.leaseSetUpdateMsgID, s.updates) :: earlier
  bounded : ∀ e ∈ s.submissions, e.2 ≤ s.updates
  current : s.Current

variable {crypto : Crypto} {s : Monitored}

theorem invariant_start {hasOwner : Bool} {destination : Option RoutingDestination} {key : Tag}
    {numTags : ℕ} {attachLeaseSet : Bool} :
    (start (create hasOwner destination key numTags attachLeaseSet)).Invariant where
  unsent _ _ h := by cases h
  sent h := by cases attachLeaseSet <;> simp [start, create] at h
  bounded _ h := by cases h
  current h := by cases attachLeaseSet <;> simp [start, create] at h

theorem Invariant.setLeaseSetUpdated (h : s.Invariant) :
    (s.step crypto .setLeaseSetUpdated).Invariant := by
  have holder : ∀ e ∈ s.submissions, e.2 < s.updates + 1 := fun e he =>
    Nat.lt_succ_of_le (h.bounded e he)
  have hstatus : s.session.setLeaseSetUpdated.leaseSetUpdateStatus = .updated ∨
      s.session.setLeaseSetUpdated.leaseSetUpdateStatus = .doNotSend := by
    rw [GarlicRoutingSession.setLeaseSetUpdated]
    split
    next => exact .inl rfl
    next hnot => exact .inr (not_not.mp hnot)
  refine ⟨fun _ => holder, fun hsent => ?_, fun e he => (holder e he).le, fun hcurrent => ?_⟩
  · -- neither is the status of a lease set that was sent
    obtain h₁ | h₁ := hstatus <;> simp [step, h₁] at hsent
  · obtain h₁ | h₁ := hstatus <;> simp [step, h₁] at hcurrent

theorem Invariant.createGarlicPayload (h : s.Invariant) (wrap : Wrap) (call : Call)
    (msg : Option (List UInt8)) (newTags : Option UnconfirmedTags) :
    (s.step crypto (.createGarlicPayload wrap call msg newTags)).Invariant := by
  rw [step]
  split
  next session payload calls hpayload =>
    have hleaseSet := createGarlicPayload_leaseSet hpayload
    by_cases hattaches : s.session.attachesLeaseSet call = true
    · rw [if_pos hattaches] at hleaseSet ⊢
      refine ⟨fun hunsent => ?_, fun _ => ⟨s.submissions, by rw [hleaseSet.2]⟩, fun e he => ?_,
        fun hcurrent => ?_⟩
      · simp [hleaseSet.1] at hunsent
      · obtain rfl | he := List.mem_cons.mp he
        · exact Nat.le_refl _
        · exact h.bounded e he
      · simp [hleaseSet.1] at hcurrent
    · rw [if_neg hattaches] at hleaseSet ⊢
      obtain ⟨hstatus, hmsgID⟩ := hleaseSet
      refine ⟨?_, ?_, h.bounded, ?_⟩
      · rw [hstatus]
        exact h.unsent
      · rw [hstatus, hmsgID]
        exact h.sent
      · rw [Current, hstatus]
        exact h.current
  next => exact h

theorem Invariant.messageConfirmed (h : s.Invariant) (seconds : ℕ) {msgID : UInt32}
    (hallowed : s.Allowed (.messageConfirmed seconds msgID)) :
    (s.step crypto (.messageConfirmed seconds msgID)).Invariant := by
  obtain ⟨hstatus, hmsgID⟩ := messageConfirmed_leaseSet s.session seconds msgID
  by_cases hsame : msgID = s.session.leaseSetUpdateMsgID
  · -- the last message with the lease set is confirmed
    have hsent : s.session.leaseSetUpdateStatus = .submitted ∨
        s.session.leaseSetUpdateStatus = .upToDate := by
      have hallowed := hallowed hsame
      cases hcases : s.session.leaseSetUpdateStatus <;> simp [hcases] at hallowed ⊢
    obtain ⟨earlier, hearlier⟩ := h.sent hsent
    rw [if_pos hsame] at hstatus
    refine ⟨fun hunsent => ?_, fun _ => ⟨earlier, ?_⟩, h.bounded, fun _ => ?_⟩
    · simp [step, hstatus] at hunsent
    · simp only [step, hmsgID, hearlier]
    · simp [step, hsame, hearlier, AssocMap.find]
  · rw [if_neg hsame] at hstatus
    refine ⟨?_, ?_, h.bounded, ?_⟩
    · simp only [step, hstatus]
      exact h.unsent
    · simp only [step, hstatus, hmsgID]
      exact h.sent
    · simp only [step, Current, hstatus, if_neg hsame]
      exact h.current

theorem Invariant.step (h : s.Invariant) {event : Event} (hallowed : s.Allowed event) :
    (s.step crypto event).Invariant := by
  cases event with
  | setLeaseSetUpdated => exact h.setLeaseSetUpdated
  | createGarlicPayload wrap call msg newTags => exact h.createGarlicPayload wrap call msg newTags
  | messageConfirmed seconds msgID => exact h.messageConfirmed seconds hallowed

/-- A confirmation that is not allowed hides an update. -/
theorem Invariant.not_current (h : s.Invariant) {event : Event} (hnot : ¬ s.Allowed event) :
    ¬ (s.step crypto event).Current := by
  cases event with
  | setLeaseSetUpdated => exact absurd trivial hnot
  | createGarlicPayload wrap call msg newTags => exact absurd trivial hnot
  | messageConfirmed seconds msgID =>
    obtain ⟨hstatus, -⟩ := messageConfirmed_leaseSet s.session seconds msgID
    rw [Allowed, Classical.not_imp] at hnot
    obtain ⟨hsame, hnot⟩ := hnot
    have hunsent : s.session.leaseSetUpdateStatus = .updated ∨
        s.session.leaseSetUpdateStatus = .doNotSend := by
      rwa [not_and_or, not_not, not_not] at hnot
    intro hcurrent
    rw [if_pos hsame] at hstatus
    have hconfirmed := hcurrent hstatus
    simp only [Monitored.step, if_pos hsame] at hconfirmed
    exact (h.unsent hunsent _ (AssocMap.mem_of_find hconfirmed)).false

end Monitored

/-- The session takes its lease set for up to date only if the current one was confirmed, exactly in those
runs in which the remembered message is confirmed only while the status is that of a lease set that was
sent. -/
theorem leaseSetCurrent_iff (crypto : Crypto) (hasOwner : Bool)
    (destination : Option RoutingDestination) (key : Tag) (numTags : ℕ) (attachLeaseSet : Bool)
    (events : List Event) :
    Runs.Always (Monitored.step crypto) Monitored.Current
        (.start (create hasOwner destination key numTags attachLeaseSet)) events ↔
      Runs.Meets (Monitored.step crypto) Monitored.Allowed
        (.start (create hasOwner destination key numTags attachLeaseSet)) events :=
  Runs.always_iff_meets (fun _ _ h hallowed => h.step hallowed) (fun _ h => h.current)
    (fun _ _ h hnot => h.not_current hnot) Monitored.invariant_start events

/-- The lease set is sent, it is updated, and the message is confirmed. -/
def exampleEvents : List Event :=
  [.createGarlicPayload (wrapDeliveryStatus exampleCrypto exampleCall exampleDraws) exampleCall none none,
    .setLeaseSetUpdated, .messageConfirmed 1001 5]

theorem not_leaseSetCurrent_exampleEvents :
    ¬ Runs.Always (Monitored.step exampleCrypto) Monitored.Current
      (.start (create true exampleSession.destination (exampleTag 7) 40 true)) exampleEvents := by
  intro h
  have hcurrent := h exampleEvents (List.prefix_refl _)
  have hstatus : (Runs.exec (Monitored.step exampleCrypto)
      (.start (create true exampleSession.destination (exampleTag 7) 40 true))
      exampleEvents).session.leaseSetUpdateStatus = .upToDate := by decide +kernel
  -- the first lease set is confirmed, and there was one update
  revert hcurrent
  rw [Monitored.Current, imp_iff_right hstatus]
  decide +kernel

end Garlic
