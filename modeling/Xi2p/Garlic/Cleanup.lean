import Xi2p.Garlic.Session

/-!
# Cleaning up garlic sessions

`CleanupExpiredTags` and `CleanupRoutingSessions` of `core/router/garlic.cc`, with times of 32 bits:
the sum of a creation time and `OUTGOING_TAGS_EXPIRATION_TIMEOUT` is what is compared with the clock.
A session whose `CleanupExpiredTags` returns false is deleted.

* `cleanup_eq_cleanupExpiredTags`: without overflow, this is the cleanup of the other modules.
* `cleansUp_iff`: when sessions are cleaned up and deleted as they should be.
-/

namespace Garlic

/-! ## The cleanup -/

/-- `ts >= creation_time + OUTGOING_TAGS_EXPIRATION_TIMEOUT`. -/
def isDue (seconds creationTime : ℕ) : Bool :=
  (creationTime + outgoingTagsExpirationTimeout) % 2 ^ 32 ≤ seconds

namespace GarlicRoutingSession

/-- `CleanupExpiredTags`: the session, the IDs for `RemoveCreatedSession` of its owner, and the
result. -/
def cleanup (seconds : ℕ) (session : GarlicRoutingSession) :
    GarlicRoutingSession × List UInt32 × Bool :=
  let expired := session.unconfirmedTagsMsgs.filter fun e => isDue seconds e.2.tagsCreationTime
  let session := { session with
    sessionTags := session.sessionTags.filter fun t => !isDue seconds t.creationTime
    -- delete expired unconfirmed tags
    unconfirmedTagsMsgs :=
      session.unconfirmedTagsMsgs.filter fun e => !isDue seconds e.2.tagsCreationTime }
  (session, if session.hasOwner then expired.map Prod.fst else [], session.somethingLeft)

end GarlicRoutingSession

/-- What `CleanupRoutingSessions` uses of a `GarlicDestination`. -/
structure RoutingSessions where
  /-- `m_Sessions`. -/
  sessions : List (Tag × GarlicRoutingSession)
  /-- The keys of `m_CreatedSessions`. -/
  createdSessions : List UInt32

/-- One round of the loop over the sessions. -/
def RoutingSessions.cleanupOne (seconds : ℕ) (acc : RoutingSessions)
    (e : Tag × GarlicRoutingSession) : RoutingSessions :=
  let (session, removed, left) := e.2.cleanup seconds
  { sessions := if left then acc.sessions ++ [(e.1, session)] else acc.sessions
    createdSessions := acc.createdSessions.filter fun id => id ∉ removed }

/-- `CleanupRoutingSessions`. -/
def RoutingSessions.cleanupRoutingSessions (seconds : ℕ) (d : RoutingSessions) : RoutingSessions :=
  d.sessions.foldl (cleanupOne seconds) { d with sessions := [] }

/-! ## What it should do -/

/-- The tags are older than the timeout. -/
def isExpired (seconds creationTime : ℕ) : Bool :=
  creationTime + outgoingTagsExpirationTimeout ≤ seconds

namespace GarlicRoutingSession

/-- The session without its expired tags. -/
def unexpired (seconds : ℕ) (session : GarlicRoutingSession) : GarlicRoutingSession :=
  { session with
    sessionTags := session.sessionTags.filter fun t => !isExpired seconds t.creationTime
    unconfirmedTagsMsgs :=
      session.unconfirmedTagsMsgs.filter fun e => !isExpired seconds e.2.tagsCreationTime }

/-- The session has an unexpired tag. -/
def HasTag (seconds : ℕ) (session : GarlicRoutingSession) : Prop :=
  ∃ t ∈ session.sessionTags, isExpired seconds t.creationTime = false

/-- The session waits for the confirmation of unexpired tags. -/
def Waits (seconds : ℕ) (session : GarlicRoutingSession) : Prop :=
  ∃ e ∈ session.unconfirmedTagsMsgs, isExpired seconds e.2.tagsCreationTime = false

instance (seconds : ℕ) (session : GarlicRoutingSession) : Decidable (session.HasTag seconds) :=
  inferInstanceAs (Decidable (∃ t ∈ session.sessionTags, _))

instance (seconds : ℕ) (session : GarlicRoutingSession) : Decidable (session.Waits seconds) :=
  inferInstanceAs (Decidable (∃ e ∈ session.unconfirmedTagsMsgs, _))

/-- What is expired is removed, and the result says whether something is left. -/
structure CleansUp (seconds : ℕ) (session : GarlicRoutingSession) : Prop where
  removes : (session.cleanup seconds).1 = session.unexpired seconds
  result : (session.cleanup seconds).2.2 = true ↔ session.HasTag seconds ∨ session.Waits seconds

/-- The sum with the timeout does not overflow in a way that matters now. -/
def Judged (seconds creationTime : ℕ) : Prop :=
  ¬ ((creationTime + outgoingTagsExpirationTimeout) % 2 ^ 32 ≤ seconds ∧
    seconds < creationTime + outgoingTagsExpirationTimeout)

/-- The times of all tags are compared rightly. -/
def AllJudged (seconds : ℕ) (session : GarlicRoutingSession) : Prop :=
  (∀ t ∈ session.sessionTags, Judged seconds t.creationTime) ∧
    ∀ e ∈ session.unconfirmedTagsMsgs, Judged seconds e.2.tagsCreationTime

end GarlicRoutingSession

/-- Each session is cleaned up, and those stay that have something left. -/
structure RoutingSessions.CleansUp (seconds : ℕ) (d : RoutingSessions) : Prop where
  each : ∀ e ∈ d.sessions, e.2.CleansUp seconds
  sessions : (d.cleanupRoutingSessions seconds).sessions =
    (d.sessions.filter fun e => e.2.HasTag seconds ∨ e.2.Waits seconds).map
      fun e => (e.1, e.2.unexpired seconds)

/-! ## When it does -/

namespace GarlicRoutingSession

variable {seconds : ℕ} {session : GarlicRoutingSession}

theorem isDue_eq_isExpired_iff {creationTime : ℕ} :
    isDue seconds creationTime = isExpired seconds creationTime ↔ Judged seconds creationTime := by
  have hle := Nat.mod_le (creationTime + outgoingTagsExpirationTimeout) (2 ^ 32)
  rw [isDue, isExpired, Judged, decide_eq_decide]
  omega

theorem filter_eq_filter_iff {α : Type} {p q : α → Bool} {xs : List α} :
    xs.filter p = xs.filter q ↔ ∀ x ∈ xs, p x = q x := by
  refine ⟨fun h x hx => ?_, List.filter_congr⟩
  have hiff : x ∈ xs.filter p ↔ x ∈ xs.filter q := by rw [h]
  rw [List.mem_filter, List.mem_filter, and_iff_right hx, and_iff_right hx] at hiff
  exact Bool.eq_iff_iff.mpr hiff

/-- Exactly the expired tags are removed if their times are compared rightly. -/
theorem cleanup_eq_unexpired_iff :
    (session.cleanup seconds).1 = session.unexpired seconds ↔ session.AllJudged seconds := by
  rw [cleanup, unexpired, AllJudged]
  simp only [GarlicRoutingSession.mk.injEq, true_and, and_true, filter_eq_filter_iff, Bool.not_inj_iff,
    isDue_eq_isExpired_iff]

/-- Without overflow. -/
theorem cleanup_eq_cleanupExpiredTags (h : session.AllJudged seconds) :
    session.cleanup seconds = ((session.cleanupExpiredTags seconds).1,
      (session.cleanupExpiredTags seconds).2, (session.cleanupExpiredTags seconds).1.somethingLeft) := by
  have hexpired : (session.unconfirmedTagsMsgs.filter fun e => isDue seconds e.2.tagsCreationTime) =
      session.unconfirmedTagsMsgs.filter fun e => isExpired seconds e.2.tagsCreationTime :=
    List.filter_congr fun e he => isDue_eq_isExpired_iff.mpr (h.2 e he)
  have hsession := cleanup_eq_unexpired_iff.mpr h
  have hunexpired : session.unexpired seconds = (session.cleanupExpiredTags seconds).1 := by
    simp only [unexpired, cleanupExpiredTags, isExpired, decide_not]
  rw [hunexpired] at hsession
  refine Prod.ext hsession (Prod.ext ?_ (congrArg somethingLeft hsession))
  show (if session.hasOwner then List.map _ _ else []) = if session.hasOwner then _ else []
  rw [hexpired]
  rfl

theorem hasTag_iff : session.HasTag seconds ↔ (session.unexpired seconds).sessionTags ≠ [] := by
  simp [HasTag, unexpired, List.filter_eq_nil_iff]

theorem waits_iff : session.Waits seconds ↔ (session.unexpired seconds).unconfirmedTagsMsgs ≠ [] := by
  simp [Waits, unexpired, List.filter_eq_nil_iff]

/-- The result is right if an unexpired tag remains. -/
theorem cleansUp_session_iff :
    session.CleansUp seconds ↔ session.AllJudged seconds ∧ session.HasTag seconds := by
  have hleft : (session.cleanup seconds).2.2 = (session.cleanup seconds).1.somethingLeft := rfl
  constructor
  · intro h
    refine ⟨cleanup_eq_unexpired_iff.mp h.removes, ?_⟩
    have hresult := h.result
    rw [hleft, h.removes, hasTag_iff, waits_iff, somethingLeft] at hresult
    rw [hasTag_iff]
    intro hnone
    -- without tags the result says the contrary
    rw [hnone] at hresult
    simp at hresult
  · rintro ⟨hjudged, htag⟩
    have hremoves := cleanup_eq_unexpired_iff.mpr hjudged
    refine ⟨hremoves, iff_of_true ?_ (.inl htag)⟩
    rw [hleft, hremoves, somethingLeft]
    simpa using Or.inl (hasTag_iff.mp htag)

end GarlicRoutingSession

namespace RoutingSessions

variable {seconds : ℕ}

/-- The sessions that the loop leaves. -/
theorem sessions_foldl_cleanupOne (sessions : List (Tag × GarlicRoutingSession))
    (acc : RoutingSessions) :
    (sessions.foldl (cleanupOne seconds) acc).sessions = acc.sessions ++
      (sessions.filter fun e => (e.2.cleanup seconds).2.2).map
        fun e => (e.1, (e.2.cleanup seconds).1) := by
  induction sessions generalizing acc with
  | nil => exact (List.append_nil _).symm
  | cons e sessions ih =>
    rw [List.foldl_cons, ih, List.filter_cons, cleanupOne]
    dsimp only
    split
    · simp
    · rfl

/-- `CleanupRoutingSessions` is right if every session has an unexpired tag. -/
theorem cleansUp_iff (seconds : ℕ) (d : RoutingSessions) :
    d.CleansUp seconds ↔ ∀ e ∈ d.sessions, e.2.AllJudged seconds ∧ e.2.HasTag seconds := by
  constructor
  · exact fun h e he => GarlicRoutingSession.cleansUp_session_iff.mp (h.each e he)
  · intro h
    have heach (e) (he : e ∈ d.sessions) : e.2.CleansUp seconds :=
      GarlicRoutingSession.cleansUp_session_iff.mpr (h e he)
    refine ⟨heach, ?_⟩
    have hfilter : (d.sessions.filter fun e => (e.2.cleanup seconds).2.2) =
        d.sessions.filter fun e => e.2.HasTag seconds ∨ e.2.Waits seconds :=
      List.filter_congr fun e he => by
        rw [Bool.eq_iff_iff, (heach e he).result, decide_eq_true_eq]
    rw [cleanupRoutingSessions, sessions_foldl_cleanupOne, List.nil_append, hfilter]
    refine List.map_congr_left fun e he => ?_
    rw [(heach e (List.mem_of_mem_filter he)).removes]

/-! ### Examples -/

/-- A session that has just sent its first tags. -/
def waitingSession : GarlicRoutingSession where
  hasOwner := true
  destination := none
  sessionKey := I2NP.IdentHash.zero
  sessionTags := []
  numTags := 1
  unconfirmedTagsMsgs := [(5, { sessionTags := [⟨I2NP.IdentHash.zero, 1000⟩], tagsCreationTime := 1000 })]
  leaseSetUpdateStatus := .doNotSend

def waitingSessions : RoutingSessions where
  sessions := [(I2NP.IdentHash.zero, waitingSession)]
  createdSessions := [5]

/-- The session is deleted one second later. -/
theorem not_cleansUp_waitingSessions : ¬ waitingSessions.CleansUp 1001 := by
  intro h
  have hresult := (h.each _ List.mem_cons_self).result
  have hwaits : waitingSession.Waits 1001 := by decide
  have hleft : (waitingSession.cleanup 1001).2.2 = false := by decide
  have htrue := hresult.mpr (.inr hwaits)
  exact absurd (htrue.symm.trans hleft) (by decide)

end RoutingSessions

end Garlic
