import Xi2p.Lib.Runs
import Xi2p.Client.Destination
import Xi2p.Garlic.RoundTrip

/-!
# Publication of the lease set

A destination sends its lease set to a floodfill after each update. A random token stands for a
publication that has not been confirmed, and is zero otherwise.

* `Publisher`: a destination with its last publication.
* `publishedCurrent_iff`: when the confirmed lease set is the current one.
-/

namespace Client

open Garlic

/-! ## What a publication changes -/

/-- What `Publish` does to a destination, and when it sends something. -/
theorem ClientDestination.publish_cases (d : ClientDestination) (outside : Outside) :
    (d.publish outside).1.leaseSet = d.leaseSet ∧ (d.publish outside).1.isPublic = d.isPublic ∧
      ((d.publish outside).2 = none ∧
          (d.publish outside).1.publishReplyToken = d.publishReplyToken ∧
          (d.leaseSet ≠ none → d.publishReplyToken = 0 → ¬ d.CanPublish outside) ∨
        ∃ p, (d.publish outside).2 = some p ∧ d.publishReplyToken = 0 ∧ d.CanPublish outside ∧
          (d.publish outside).1.publishReplyToken = p.token ∧ d.leaseSet = some p.leaseSet) := by
  rw [ClientDestination.publish]
  split
  next hnone => exact ⟨rfl, rfl, .inl ⟨rfl, rfl, fun hsome => absurd hnone hsome⟩⟩
  next leaseSet hleaseSet =>
    by_cases hpending : d.publishReplyToken ≠ 0
    · rw [if_pos hpending]
      exact ⟨rfl, rfl, .inl ⟨rfl, rfl, fun _ hzero => absurd hzero hpending⟩⟩
    rw [if_neg hpending]
    by_cases htunnel : outside.hasOutboundTunnel = true
    · rw [if_pos htunnel]
      split
      next hfloodfill =>
        exact ⟨rfl, rfl, .inl ⟨rfl, rfl, fun _ _ hcan => hcan.2 hfloodfill⟩⟩
      next floodfill hfloodfill =>
        refine ⟨rfl, rfl, .inr ⟨_, rfl, not_not.mp hpending, ⟨htunnel, ?_⟩, rfl, hleaseSet⟩⟩
        rw [hfloodfill]
        exact Option.some_ne_none _
    · rw [if_neg htunnel]
      exact ⟨rfl, rfl, .inl ⟨rfl, rfl, fun _ _ hcan => htunnel hcan.1⟩⟩

/-! ## Runs -/

/-- What happens to a destination. -/
inductive PublishingEvent
  | getLeaseSet (outside : Outside)
  | setLeaseSetUpdated (outside : Outside)
  | handleDeliveryStatusMessage (msgID : UInt32)
  | handlePublishConfirmationTimer (outside : Outside) (aborted : Bool)

/-- A destination, and what has become of its last publication. -/
structure Publisher where
  destination : ClientDestination
  /-- The last publication. -/
  last : Option Publication := none
  /-- Its token has come back while the destination waited for it. -/
  confirmed : Bool := false

namespace Publisher

/-- After a call that may publish. -/
def after (s : Publisher) (result : ClientDestination × Option Publication) : Publisher :=
  match result with
  | (destination, some publication) => { destination, last := some publication }
  | (destination, none) => { s with destination }

/-- The token of the last publication comes back. -/
def Confirms (s : Publisher) (msgID : UInt32) : Prop :=
  msgID = s.destination.publishReplyToken ∧ ∃ p ∈ s.last, p.token = msgID

instance (s : Publisher) (msgID : UInt32) : Decidable (s.Confirms msgID) :=
  inferInstanceAs (Decidable (_ ∧ ∃ p ∈ s.last, p.token = msgID))

def step (s : Publisher) : PublishingEvent → Publisher
  | .getLeaseSet outside => { s with destination := (s.destination.getLeaseSet outside).1 }
  | .setLeaseSetUpdated outside => s.after (s.destination.setLeaseSetUpdated outside)
  | .handleDeliveryStatusMessage msgID => { s with
      destination := (s.destination.handleDeliveryStatusMessage msgID).1
      confirmed := decide (s.Confirms msgID) || s.confirmed }
  | .handlePublishConfirmationTimer outside aborted =>
    s.after (s.destination.handlePublishConfirmationTimer outside aborted)

/-- If nothing is pending, and the last publication was confirmed, the confirmed lease set is the
current one. -/
def Current (s : Publisher) : Prop :=
  s.destination.publishReplyToken = 0 → s.confirmed = true → ∀ p ∈ s.last,
    s.destination.leaseSet = some p.leaseSet

/-- There is a tunnel and a floodfill for an update, unless the confirmation of another publication is
still to come; and there is no update between a publication and its confirmation. An update that makes
the same lease set again does no harm. -/
def Allowed (s : Publisher) : PublishingEvent → Prop
  | .setLeaseSetUpdated outside =>
    s.destination.publishReplyToken = 0 → s.confirmed = true → ∀ p ∈ s.last,
      s.destination.CanPublish outside ∨ outside.leaseSet = p.leaseSet
  | .handleDeliveryStatusMessage msgID =>
    msgID = s.destination.publishReplyToken → ∀ p ∈ s.last, p.token = msgID →
      s.destination.leaseSet = some p.leaseSet
  | _ => True

/-- What holds of a destination and its last publication. -/
structure Invariant (s : Publisher) : Prop where
  isPublic : s.destination.isPublic = true
  /-- A token stands for the last publication, which has not been confirmed. -/
  pending : s.destination.publishReplyToken ≠ 0 → s.confirmed = false ∧
    ∃ p, s.last = some p ∧ p.token = s.destination.publishReplyToken
  published : s.last ≠ none → s.destination.leaseSet ≠ none
  current : s.Current

variable {s : Publisher}

/-- A publication, of a destination that waits for nothing. -/
theorem Invariant.publish {destination : ClientDestination} (outside : Outside)
    (hpublic : destination.isPublic = true)
    (hpending : destination.publishReplyToken ≠ 0 → s.confirmed = false ∧
      ∃ p, s.last = some p ∧ p.token = destination.publishReplyToken)
    (hpublished : s.last ≠ none → destination.leaseSet ≠ none)
    (hcurrent : destination.publishReplyToken = 0 → s.confirmed = true → ∀ p ∈ s.last,
      destination.CanPublish outside ∨ destination.leaseSet = some p.leaseSet) :
    (s.after (destination.publish outside)).Invariant := by
  obtain ⟨hleaseSet, hisPublic, hcases⟩ := destination.publish_cases outside
  generalize destination.publish outside = result at hleaseSet hisPublic hcases ⊢
  obtain ⟨destination', publication⟩ := result
  dsimp only at hleaseSet hisPublic hcases
  obtain ⟨rfl, htoken, hcannot⟩ | ⟨p, rfl, -, -, htoken, hsent⟩ := hcases
  · -- nothing is sent
    refine ⟨hisPublic.trans hpublic, ?_, ?_, fun hzero hconfirmed p hp => ?_⟩
    · simp only [after, htoken]
      exact hpending
    · simp only [after, hleaseSet]
      exact hpublished
    · simp only [after, htoken] at hzero hconfirmed hp
      simp only [after, hleaseSet]
      have hsome : destination.leaseSet ≠ none := hpublished fun hnone => by
        rw [hnone] at hp
        cases hp
      exact (hcurrent hzero hconfirmed p hp).resolve_left (hcannot hsome hzero)
  · -- the lease set is sent, and is not confirmed yet
    refine ⟨hisPublic.trans hpublic, fun _ => ⟨rfl, p, rfl, htoken.symm⟩, fun _ => ?_,
      fun _ hconfirmed => ?_⟩
    · simp only [after, hleaseSet, hsent]
      exact Option.some_ne_none _
    · cases hconfirmed

theorem Invariant.getLeaseSet (h : s.Invariant) (outside : Outside) :
    (s.step (.getLeaseSet outside)).Invariant := by
  rw [step, ClientDestination.getLeaseSet]
  by_cases hnone : s.destination.leaseSet.isNone = true
  · -- nothing has been published yet
    have hlast : s.last = none := by
      by_contra hsome
      exact h.published hsome (Option.isNone_iff_eq_none.mp hnone)
    simp only [hnone, if_true]
    refine ⟨h.isPublic, h.pending, fun hsome => absurd hlast hsome, fun _ _ p hp => ?_⟩
    dsimp only at hp
    rw [hlast] at hp
    cases hp
  · simp only [hnone]
    exact h

theorem Invariant.setLeaseSetUpdated (h : s.Invariant) {outside : Outside}
    (hallowed : s.Allowed (.setLeaseSetUpdated outside)) :
    (s.step (.setLeaseSetUpdated outside)).Invariant := by
  rw [step, ClientDestination.setLeaseSetUpdated]
  simp only [ClientDestination.updateLeaseSet, h.isPublic, if_true]
  refine Invariant.publish outside rfl h.pending (fun _ => Option.some_ne_none _)
    fun hzero hconfirmed p hp => ?_
  exact (hallowed hzero hconfirmed p hp).imp id (congrArg some)

theorem Invariant.handlePublishConfirmationTimer (h : s.Invariant) (outside : Outside)
    (aborted : Bool) : (s.step (.handlePublishConfirmationTimer outside aborted)).Invariant := by
  rw [step, ClientDestination.handlePublishConfirmationTimer]
  by_cases haborted : aborted = true
  · rw [if_pos haborted]
    exact h
  rw [if_neg haborted]
  by_cases hpending : s.destination.publishReplyToken ≠ 0
  · rw [if_pos hpending]
    refine Invariant.publish outside h.isPublic (fun hne => absurd rfl hne) h.published
      fun _ hconfirmed => ?_
    rw [(h.pending hpending).1] at hconfirmed
    cases hconfirmed
  · rw [if_neg hpending]
    exact h

theorem Invariant.handleDeliveryStatusMessage (h : s.Invariant) {msgID : UInt32}
    (hallowed : s.Allowed (.handleDeliveryStatusMessage msgID)) :
    (s.step (.handleDeliveryStatusMessage msgID)).Invariant := by
  rw [step, ClientDestination.handleDeliveryStatusMessage]
  by_cases htoken : msgID = s.destination.publishReplyToken
  · rw [if_pos htoken]
    refine ⟨h.isPublic, fun hne => absurd rfl hne, h.published, fun _ hconfirmed p hp => ?_⟩
    by_cases hconfirms : s.Confirms msgID
    · obtain ⟨-, p', hp', hmsgID⟩ := hconfirms
      obtain rfl : p' = p := Option.mem_unique hp' hp
      exact hallowed htoken p' hp' hmsgID
    · -- the token of a publication that is not the last one is zero
      simp only [hconfirms, decide_false, Bool.false_or] at hconfirmed
      by_cases hzero : s.destination.publishReplyToken = 0
      · exact h.current hzero hconfirmed p hp
      · rw [(h.pending hzero).1] at hconfirmed
        cases hconfirmed
  · rw [if_neg htoken]
    have hnot : ¬ s.Confirms msgID := fun hconfirms => htoken hconfirms.1
    simp only [hnot, decide_false, Bool.false_or]
    exact h

theorem Invariant.step (h : s.Invariant) {event : PublishingEvent} (hallowed : s.Allowed event) :
    (s.step event).Invariant := by
  cases event with
  | getLeaseSet outside => exact h.getLeaseSet outside
  | setLeaseSetUpdated outside => exact h.setLeaseSetUpdated hallowed
  | handleDeliveryStatusMessage msgID => exact h.handleDeliveryStatusMessage hallowed
  | handlePublishConfirmationTimer outside aborted =>
    exact h.handlePublishConfirmationTimer outside aborted

/-- A step that is not allowed leaves an old lease set confirmed. -/
theorem Invariant.not_current (h : s.Invariant) {event : PublishingEvent}
    (hnot : ¬ s.Allowed event) : ¬ (s.step event).Current := by
  cases event with
  | getLeaseSet outside => exact absurd trivial hnot
  | handlePublishConfirmationTimer outside aborted => exact absurd trivial hnot
  | setLeaseSetUpdated outside =>
    simp only [Allowed, Classical.not_imp, not_forall, not_or] at hnot
    obtain ⟨hzero, hconfirmed, p, hp, hcannot, hne⟩ := hnot
    intro hcurrent
    rw [Publisher.step, ClientDestination.setLeaseSetUpdated] at hcurrent
    simp only [ClientDestination.updateLeaseSet, h.isPublic, if_true] at hcurrent
    set updated : ClientDestination := { s.destination with
      leaseSet := some outside.leaseSet
      isPublic := true
      sessions := s.destination.sessions.map GarlicRoutingSession.setLeaseSetUpdated }
    obtain ⟨hleaseSet, -, ⟨hnone, htoken, -⟩ | ⟨p', -, -, hcan, -⟩⟩ := updated.publish_cases outside
    · generalize updated.publish outside = result at hleaseSet hnone htoken hcurrent
      obtain ⟨destination, publication⟩ := result
      dsimp only at hleaseSet hnone htoken
      subst hnone
      have hsent := hcurrent (htoken.trans hzero) hconfirmed p hp
      rw [after, hleaseSet] at hsent
      exact hne (Option.some.inj hsent)
    · exact hcannot hcan
  | handleDeliveryStatusMessage msgID =>
    simp only [Allowed, Classical.not_imp, not_forall] at hnot
    obtain ⟨htoken, p, hp, hmsgID, hne⟩ := hnot
    intro hcurrent
    have hconfirms : s.Confirms msgID := ⟨htoken, p, hp, hmsgID⟩
    simp only [Publisher.step, Current, ClientDestination.handleDeliveryStatusMessage, if_pos htoken,
      hconfirms, decide_true, Bool.true_or] at hcurrent
    exact hne (hcurrent trivial trivial p hp)

end Publisher

/-- A confirmed publication, with no other one pending, is that of the current lease set, exactly in those
runs in which every update can be published or is behind a pending publication, and no update comes
between a publication and its confirmation. -/
theorem publishedCurrent_iff (events : List PublishingEvent) :
    Runs.Always Publisher.step Publisher.Current { destination := { isPublic := true } } events ↔
      Runs.Meets Publisher.step Publisher.Allowed { destination := { isPublic := true } } events := by
  have hstart : Publisher.Invariant { destination := { isPublic := true } } := by
    refine ⟨rfl, fun hne => absurd rfl hne, fun hne => absurd rfl hne, fun _ hconfirmed => ?_⟩
    cases hconfirmed
  exact Runs.always_iff_meets (fun _ _ h hallowed => h.step hallowed) (fun _ h => h.current)
    (fun _ _ h hnot => h.not_current hnot) hstart events

/-- An update while a publication is pending, and the confirmation of this publication. -/
def exampleUpdates : List PublishingEvent :=
  [.setLeaseSetUpdated {
      leaseSet := [1]
      hasOutboundTunnel := true
      closestFloodfill := fun _ => some (exampleTag 1)
      token := 7 },
    .setLeaseSetUpdated {
      leaseSet := [2]
      hasOutboundTunnel := true
      closestFloodfill := fun _ => some (exampleTag 2)
      token := 8 },
    .handleDeliveryStatusMessage 7]

theorem not_publishedCurrent_exampleUpdates :
    ¬ Runs.Always Publisher.step Publisher.Current { destination := { isPublic := true } }
      exampleUpdates := by
  intro h
  have hcurrent := h exampleUpdates (List.prefix_refl _)
  have hsent : (Runs.exec Publisher.step { destination := { isPublic := true } }
      exampleUpdates).destination.leaseSet = some [1] :=
    hcurrent (by decide) (by decide) ⟨exampleTag 1, [1], 7⟩ (by decide)
  revert hsent
  decide

end Client
