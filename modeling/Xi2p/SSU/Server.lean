import Xi2p.Lib.Runs
import Xi2p.SSU.Data

/-!
# Sessions of the server

`SSUServer` of `core/router/transports/ssu/server.cc`: the map `m_Sessions` from endpoints to
sessions, the dispatch of received datagrams, and the functions that create and delete sessions.
`HandleReceivedPackets` keeps the session of the previous datagram of its batch, and `DeleteSession`
erases whatever the map holds for the endpoint of the session.

Session objects are numbered in the order of their creation. What a datagram does inside a session
is the parameter `handle`: it may depend on the session, on its state, and on anything that comes
with the datagram.

* `Invariant`: sessions in the map are open and stand under their own endpoint, open sessions are in
  the map.
* `meets_sound_iff`: the runs in which every datagram reaches the right session and only the deleted
  session is removed.
-/

namespace SSU

/-! ## State -/

/-- What processing a datagram does to its session. -/
inductive Handling
  /-- The session goes on. -/
  | done (established : Bool)
  /-- `SessionDestroyed`, a relay response before the session is established, or a failure: the
  session deletes itself. -/
  | deletes
  /-- An exception, which `ProcessNextMessage` catches. -/
  | throws
  deriving DecidableEq

/-- `RawSSUPacket`: the source, and the contents. -/
structure RawSSUPacket (E D : Type) where
  /-- `from`. -/
  source : E
  /-- `len == 0`. -/
  isEmpty : Bool
  /-- `buf`. -/
  contents : D

/-- How `GetSession` reaches a router. -/
inductive Route (E : Type)
  | direct
  | introducers (endpoints : List E)

/-- `SSUServer`. -/
structure SSUServer (E : Type) where
  /-- `m_Sessions`. -/
  sessions : E → Option ℕ
  /-- `GetRemoteEndpoint()` of every session. -/
  remoteEndpoint : ℕ → E
  /-- `m_State` of every session. -/
  state : ℕ → SessionState
  /-- The number of sessions created so far. -/
  next : ℕ

namespace SSUServer

variable {E D : Type} [DecidableEq E]

/-! ## Operations -/

/-- A new session in the map. -/
def createSession (srv : SSUServer E) (e : E) (state : SessionState) : SSUServer E :=
  { sessions := Function.update srv.sessions e (some srv.next)
    remoteEndpoint := Function.update srv.remoteEndpoint srv.next e
    state := Function.update srv.state srv.next state
    next := srv.next + 1 }

/-- `m_State = …`. -/
def setState (srv : SSUServer E) (session : ℕ) (state : SessionState) : SSUServer E :=
  { srv with state := Function.update srv.state session state }

/-- `DeleteSession`: the session is closed, and the entry of its endpoint erased. -/
def deleteSession (srv : SSUServer E) (session : ℕ) : SSUServer E :=
  { srv.setState session .closed with
    sessions := Function.update srv.sessions (srv.remoteEndpoint session) none }

/-- `GetSession`, for a router with the endpoint `e`. Without introducers, the new session is dropped
at once. -/
def getSession (srv : SSUServer E) (e : E) (route : Route E) : SSUServer E :=
  match srv.sessions e with
  | some _ => srv
  | none =>
    match route with
    | .direct => srv.createSession e .unknown
    | .introducers [] => srv
    | .introducers (i :: rest) =>
      let srv := srv.createSession e .introduced
      -- a session to an introducer may exist already
      if (i :: rest).any fun i => (srv.sessions i).isSome then srv
      else srv.createSession i .unknown

section Process

variable (handle : ℕ → SessionState → D → Handling)

/-- `ProcessNextMessage`. -/
def processNextMessage (srv : SSUServer E) (session : ℕ) (packet : RawSSUPacket E D) :
    SSUServer E :=
  let state := srv.state session
  if packet.isEmpty ∧ state ≠ .introduced then srv
  else
    match state with
    | .closed | .failed => srv.deleteSession session
    | .introduced | .established | .unknown =>
      match handle session state packet.contents with
      -- `ProcessSessionRequest` sets the remote endpoint to the source, which `dispatch` found equal
      | .done established => srv.setState session (if established then .established else .unknown)
      | .deletes | .throws => srv.deleteSession session

/-- The session for a datagram, when `cached` is the session of the previous one. -/
def dispatch (srv : SSUServer E) (cached : Option ℕ) (e : E) : SSUServer E × ℕ :=
  match cached.filter (srv.remoteEndpoint · = e) with
  | some session => (srv, session)
  | none =>
    match srv.sessions e with
    | some session => (srv, session)
    | none => (srv.createSession e .unknown, srv.next)

/-- One round of `HandleReceivedPackets`. -/
def receive (s : SSUServer E × Option ℕ) (packet : RawSSUPacket E D) : SSUServer E × Option ℕ :=
  let (srv, session) := s.1.dispatch s.2 packet.source
  (srv.processNextMessage handle session packet, some session)

/-- `HandleReceivedPackets`. -/
def handleReceivedPackets (srv : SSUServer E) (packets : List (RawSSUPacket E D)) : SSUServer E :=
  (Runs.exec (receive handle) (srv, none) packets).1

/-- What happens to a server. -/
inductive ServerInput (E D : Type)
  /-- A batch of datagrams. -/
  | batch (packets : List (RawSSUPacket E D))
  /-- A call of `GetSession`. -/
  | getSession (e : E) (route : Route E)
  /-- A timer calls `DeleteSession` for an existing session. -/
  | deleteSession (session : ℕ)

/-- One input. -/
def step (srv : SSUServer E) : ServerInput E D → SSUServer E
  | .batch packets => srv.handleReceivedPackets handle packets
  | .getSession e route => srv.getSession e route
  | .deleteSession session => if session < srv.next then srv.deleteSession session else srv

end Process

/-! ## The map and the sessions -/

/-- Sessions in the map are open and stand under their own endpoint, open sessions are in the
map. -/
structure Invariant (srv : SSUServer E) : Prop where
  endpoint_of_mem : ∀ {e n}, srv.sessions e = some n → srv.remoteEndpoint n = e
  lt_of_mem : ∀ {e n}, srv.sessions e = some n → n < srv.next
  open_of_mem : ∀ {e n}, srv.sessions e = some n → srv.state n ≠ .closed
  mem_of_open : ∀ {n}, n < srv.next → srv.state n ≠ .closed →
    srv.sessions (srv.remoteEndpoint n) = some n
  ne_failed : ∀ {n}, n < srv.next → srv.state n ≠ .failed

/-- `DeleteSession` removes an entry only if it is that of the session. -/
def RemovesOnlyItself (srv : SSUServer E) (session : ℕ) : Prop :=
  ∀ e other, srv.sessions e = some other → (srv.deleteSession session).sessions e = none →
    other = session

variable {srv : SSUServer E}

/-! ### Equations -/

theorem sessions_createSession (e e' : E) (state : SessionState) :
    (srv.createSession e state).sessions e' = if e' = e then some srv.next else srv.sessions e' :=
  Function.update_apply ..

theorem remoteEndpoint_createSession (e : E) (state : SessionState) (n : ℕ) :
    (srv.createSession e state).remoteEndpoint n =
      if n = srv.next then e else srv.remoteEndpoint n :=
  Function.update_apply ..

theorem state_createSession (e : E) (state : SessionState) (n : ℕ) :
    (srv.createSession e state).state n = if n = srv.next then state else srv.state n :=
  Function.update_apply ..

@[simp]
theorem next_createSession (e : E) (state : SessionState) :
    (srv.createSession e state).next = srv.next + 1 := rfl

omit [DecidableEq E] in
theorem state_setState (session n : ℕ) (state : SessionState) :
    (srv.setState session state).state n = if n = session then state else srv.state n :=
  Function.update_apply ..

omit [DecidableEq E] in
@[simp]
theorem sessions_setState (session : ℕ) (state : SessionState) :
    (srv.setState session state).sessions = srv.sessions := rfl

omit [DecidableEq E] in
@[simp]
theorem remoteEndpoint_setState (session : ℕ) (state : SessionState) :
    (srv.setState session state).remoteEndpoint = srv.remoteEndpoint := rfl

omit [DecidableEq E] in
@[simp]
theorem next_setState (session : ℕ) (state : SessionState) :
    (srv.setState session state).next = srv.next := rfl

theorem sessions_deleteSession (session : ℕ) (e : E) :
    (srv.deleteSession session).sessions e =
      if e = srv.remoteEndpoint session then none else srv.sessions e :=
  Function.update_apply ..

theorem state_deleteSession (session n : ℕ) :
    (srv.deleteSession session).state n = if n = session then .closed else srv.state n :=
  Function.update_apply ..

@[simp]
theorem remoteEndpoint_deleteSession (session : ℕ) :
    (srv.deleteSession session).remoteEndpoint = srv.remoteEndpoint := rfl

@[simp]
theorem next_deleteSession (session : ℕ) : (srv.deleteSession session).next = srv.next := rfl

theorem removesOnlyItself_iff {session : ℕ} : srv.RemovesOnlyItself session ↔
    ∀ other, srv.sessions (srv.remoteEndpoint session) = some other → other = session := by
  unfold RemovesOnlyItself
  simp only [sessions_deleteSession]
  constructor
  · intro h other hother
    exact h _ other hother (if_pos rfl)
  · intro h e other hother hnone
    split_ifs at hnone with he
    · exact h other (he ▸ hother)
    · rw [hother] at hnone
      cases hnone

/-- Only a closed session can take away the entry of another one. -/
theorem Invariant.removesOnlyItself_iff {session : ℕ} (h : srv.Invariant)
    (hlt : session < srv.next) : srv.RemovesOnlyItself session ↔
      (srv.state session = .closed → srv.sessions (srv.remoteEndpoint session) = none) := by
  rw [SSUServer.removesOnlyItself_iff]
  constructor
  · intro honly hclosed
    by_contra hsome
    obtain ⟨other, hother⟩ := Option.ne_none_iff_exists'.mp hsome
    exact h.open_of_mem hother (honly other hother ▸ hclosed)
  · intro hnone other hother
    by_cases hclosed : srv.state session = .closed
    · rw [hnone hclosed] at hother
      cases hother
    · rw [h.mem_of_open hlt hclosed] at hother
      exact (Option.some.inj hother).symm

/-! ### Preservation -/

theorem Invariant.createSession (h : srv.Invariant) {e : E} (hnone : srv.sessions e = none)
    {state : SessionState} (hclosed : state ≠ .closed) (hfailed : state ≠ .failed) :
    (srv.createSession e state).Invariant := by
  obtain ⟨hendpoint, hlt, hopen, hmem, hnotFailed⟩ := h
  constructor
  all_goals
    simp only [sessions_createSession, remoteEndpoint_createSession, state_createSession,
      next_createSession]
    grind

omit [DecidableEq E] in
theorem Invariant.setState (h : srv.Invariant) {session : ℕ} (hstate : srv.state session ≠ .closed)
    {state : SessionState} (hclosed : state ≠ .closed) (hfailed : state ≠ .failed) :
    (srv.setState session state).Invariant := by
  obtain ⟨hendpoint, hlt, hopen, hmem, hnotFailed⟩ := h
  constructor
  all_goals
    simp only [sessions_setState, remoteEndpoint_setState, state_setState, next_setState]
    grind

theorem Invariant.deleteSession (h : srv.Invariant) {session : ℕ}
    (honly : srv.RemovesOnlyItself session) : (srv.deleteSession session).Invariant := by
  obtain ⟨hendpoint, hlt, hopen, hmem, hnotFailed⟩ := h
  rw [SSUServer.removesOnlyItself_iff] at honly
  constructor
  all_goals
    simp only [sessions_deleteSession, remoteEndpoint_deleteSession, state_deleteSession,
      next_deleteSession]
    grind

theorem Invariant.getSession (h : srv.Invariant) (e : E) (route : Route E) :
    (srv.getSession e route).Invariant := by
  unfold SSUServer.getSession
  split
  · exact h
  next hnone =>
    match route with
    | .direct => exact h.createSession hnone (by decide) (by decide)
    | .introducers [] => exact h
    | .introducers (i :: rest) =>
      have hnew : (srv.createSession e .introduced).Invariant :=
        h.createSession hnone (by decide) (by decide)
      dsimp only
      split_ifs with hany
      · exact hnew
      · -- no introducer has a session, so the first has none
        have hi : ((srv.createSession e .introduced).sessions i).isSome = false := by
          simpa using fun hsome => hany (List.any_eq_true.mpr ⟨i, List.mem_cons_self, hsome⟩)
        have hnone' : (srv.createSession e .introduced).sessions i = none := by
          simpa using hi
        exact hnew.createSession hnone' (by decide) (by decide)

/-! ## Batches -/

/-- The invariant within a batch: a server, and the session of the previous datagram. -/
structure BatchInvariant (s : SSUServer E × Option ℕ) : Prop where
  invariant : s.1.Invariant
  lt_of_cached : ∀ session ∈ s.2, session < s.1.next

/-- The datagram is given to the session that the map holds for its source, or to a new one if there
is none. That session has not been deleted, and deleting it removes no other. -/
structure Dispatched (s : SSUServer E × Option ℕ) (packet : RawSSUPacket E D) : Prop where
  session_eq : s.1.sessions packet.source = some (s.1.dispatch s.2 packet.source).2 ∨
    s.1.sessions packet.source = none ∧ (s.1.dispatch s.2 packet.source).2 = s.1.next
  not_closed : (s.1.dispatch s.2 packet.source).1.state (s.1.dispatch s.2 packet.source).2 ≠ .closed
  removesOnlyItself :
    (s.1.dispatch s.2 packet.source).1.RemovesOnlyItself (s.1.dispatch s.2 packet.source).2

/-- If the session of the previous datagram has the given endpoint, then it is not deleted. -/
def Reusable (s : SSUServer E × Option ℕ) (e : E) : Prop :=
  ∀ session ∈ s.2, s.1.remoteEndpoint session = e → s.1.state session ≠ .closed

/-- The given session deletes itself when it processes the datagram. -/
def Deletes (handle : ℕ → SessionState → D → Handling) (srv : SSUServer E) (session : ℕ)
    (packet : RawSSUPacket E D) : Prop :=
  ¬ (packet.isEmpty ∧ srv.state session ≠ .introduced) ∧
    handle session (srv.state session) packet.contents ∈ [.deletes, .throws]

theorem dispatch_cached {cached : Option ℕ} {session : ℕ} {e : E} (hmem : session ∈ cached)
    (he : srv.remoteEndpoint session = e) : srv.dispatch cached e = (srv, session) := by
  unfold dispatch
  rw [Option.mem_def.mp hmem, Option.filter_some, if_pos (by simpa using he)]

theorem dispatch_lookup {cached : Option ℕ} {e : E}
    (hother : ∀ session ∈ cached, srv.remoteEndpoint session ≠ e) :
    srv.dispatch cached e = match srv.sessions e with
      | some session => (srv, session)
      | none => (srv.createSession e .unknown, srv.next) := by
  unfold dispatch
  have hnone : cached.filter (srv.remoteEndpoint · = e) = none := by
    simpa [Option.filter_eq_none_iff] using hother
  rw [hnone]

section Process

variable {handle : ℕ → SessionState → D → Handling} {s : SSUServer E × Option ℕ} {e : E}

/-- The session that a datagram is given to is the one in the map. -/
theorem BatchInvariant.dispatch (h : BatchInvariant s) (hreusable : Reusable s e) :
    (s.1.dispatch s.2 e).1.Invariant ∧
    (s.1.dispatch s.2 e).1.sessions e = some (s.1.dispatch s.2 e).2 ∧
    (s.1.sessions e = some (s.1.dispatch s.2 e).2 ∨
      s.1.sessions e = none ∧ (s.1.dispatch s.2 e).2 = s.1.next) := by
  by_cases hcached : ∃ session ∈ s.2, s.1.remoteEndpoint session = e
  · obtain ⟨session, hmem, he⟩ := hcached
    have hentry := h.invariant.mem_of_open (h.lt_of_cached session hmem)
      (hreusable session hmem he)
    rw [he] at hentry
    rw [dispatch_cached hmem he]
    exact ⟨h.invariant, hentry, .inl hentry⟩
  · push Not at hcached
    rw [dispatch_lookup hcached]
    cases hentry : s.1.sessions e with
    | some session => exact ⟨h.invariant, hentry, .inl rfl⟩
    | none =>
      refine ⟨h.invariant.createSession hentry (by decide) (by decide), ?_, .inr ⟨rfl, rfl⟩⟩
      rw [sessions_createSession, if_pos rfl]

/-- A datagram is given to the right session unless the loop still holds a deleted one. -/
theorem BatchInvariant.dispatched_iff (h : BatchInvariant s) (packet : RawSSUPacket E D) :
    Dispatched s packet ↔ Reusable s packet.source := by
  constructor
  · intro hdispatched session hmem he
    have hopen := hdispatched.not_closed
    rwa [dispatch_cached hmem he] at hopen
  · intro hreusable
    obtain ⟨hinv, hentry, heq⟩ := h.dispatch hreusable
    refine ⟨heq, hinv.open_of_mem hentry, ?_⟩
    rw [hinv.removesOnlyItself_iff (hinv.lt_of_mem hentry)]
    exact fun hclosed => absurd hclosed (hinv.open_of_mem hentry)

/-- An open session deletes itself or stays open. -/
theorem processNextMessage_of_open (handle : ℕ → SessionState → D → Handling) {session : ℕ}
    (packet : RawSSUPacket E D) (hclosed : srv.state session ≠ .closed)
    (hfailed : srv.state session ≠ .failed) :
    Deletes handle srv session packet ∧
      srv.processNextMessage handle session packet = srv.deleteSession session ∨
    ¬ Deletes handle srv session packet ∧ ∃ state : SessionState, state ≠ .closed ∧
      state ≠ .failed ∧
      srv.processNextMessage handle session packet = srv.setState session state := by
  unfold Deletes processNextMessage
  by_cases hignored : packet.isEmpty ∧ srv.state session ≠ .introduced
  · -- a datagram without contents is ignored
    refine .inr ⟨fun h => h.1 hignored, srv.state session, hclosed, hfailed, ?_⟩
    rw [if_pos hignored, setState, Function.update_eq_self]
  · rw [if_neg hignored]
    cases hhandle : handle session (srv.state session) packet.contents with
    | done established =>
      refine .inr ⟨by simp, if established then .established else .unknown, ?_, ?_, ?_⟩
      · split <;> decide
      · split <;> decide
      · split <;> simp_all
    | deletes =>
      refine .inl ⟨⟨hignored, by simp⟩, ?_⟩
      split <;> simp_all
    | throws =>
      refine .inl ⟨⟨hignored, by simp⟩, ?_⟩
      split <;> simp_all

/-- One round keeps the invariant when the loop holds no deleted session, and leaves it with a
deleted one exactly when the datagram costs the session. -/
theorem BatchInvariant.receive (h : BatchInvariant s) (handle : ℕ → SessionState → D → Handling)
    {packet : RawSSUPacket E D} (hreusable : Reusable s packet.source) :
    BatchInvariant (receive handle s packet) ∧ ∀ e, Reusable (SSUServer.receive handle s packet) e ↔
      (Deletes handle (s.1.dispatch s.2 packet.source).1 (s.1.dispatch s.2 packet.source).2 packet →
        e ≠ packet.source) := by
  obtain ⟨hinv, hentry, -⟩ := h.dispatch hreusable
  unfold SSUServer.receive
  generalize s.1.dispatch s.2 packet.source = r at hinv hentry
  obtain ⟨srv, session⟩ := r
  dsimp only at hinv hentry ⊢
  have hopen := hinv.open_of_mem hentry
  have hlt := hinv.lt_of_mem hentry
  have hendpoint := hinv.endpoint_of_mem hentry
  unfold Reusable
  obtain ⟨hdeletes, heq⟩ | ⟨hdeletes, state, hclosed, hfailed, heq⟩ :=
    processNextMessage_of_open handle packet hopen (hinv.ne_failed hlt)
  · have honly : srv.RemovesOnlyItself session := by
      rw [hinv.removesOnlyItself_iff hlt]
      exact fun hclosed => absurd hclosed hopen
    rw [heq]
    refine ⟨⟨hinv.deleteSession honly, by simpa using hlt⟩, fun e => ?_⟩
    simp [hdeletes, hendpoint, state_deleteSession, eq_comm]
  · rw [heq]
    refine ⟨⟨hinv.setState hopen hclosed hfailed, by simpa using hlt⟩, fun e => ?_⟩
    simp [hdeletes, state_setState, hclosed]

variable (handle)

/-- No datagram that costs its session is followed directly by another one from the same source. -/
def Spaced : SSUServer E × Option ℕ → List (RawSSUPacket E D) → Prop
  | _, [] => True
  | s, packet :: packets =>
    (∀ following ∈ packets.head?,
      Deletes handle (s.1.dispatch s.2 packet.source).1 (s.1.dispatch s.2 packet.source).2 packet →
        following.source ≠ packet.source) ∧
    Spaced (receive handle s packet) packets

variable {handle}

/-- The datagrams of a batch reach the right sessions exactly when they are spaced. -/
theorem BatchInvariant.meets_dispatched_iff (h : BatchInvariant s)
    (packets : List (RawSSUPacket E D)) :
    Runs.Meets (SSUServer.receive handle) Dispatched s packets ↔
      (∀ packet ∈ packets.head?, Reusable s packet.source) ∧ Spaced handle s packets := by
  induction packets generalizing s with
  | nil => simp [Runs.Meets, Spaced]
  | cons packet packets ih =>
    rw [Runs.Meets, Spaced, h.dispatched_iff]
    simp only [List.head?_cons, Option.mem_some_iff, forall_eq']
    refine and_congr_right fun hreusable => ?_
    obtain ⟨hnext, hiff⟩ := h.receive handle hreusable
    rw [ih hnext]
    simp only [hiff]

theorem BatchInvariant.exec (h : BatchInvariant s) {packets : List (RawSSUPacket E D)}
    (hmeets : Runs.Meets (SSUServer.receive handle) Dispatched s packets) :
    BatchInvariant (Runs.exec (SSUServer.receive handle) s packets) := by
  refine Runs.invariant_of_meets (fun s packet h hdispatched => ?_) h hmeets
  exact (h.receive handle ((h.dispatched_iff packet).mp hdispatched)).1

omit [DecidableEq E] in
theorem Invariant.batch (h : srv.Invariant) : BatchInvariant (srv, none) where
  invariant := h
  lt_of_cached := by simp

/-! ## Runs -/

variable (handle)

/-- What is asked of one input: in a batch, every datagram is dispatched to the right session; a
deleted session removes no other. -/
def Sound (srv : SSUServer E) : ServerInput E D → Prop
  | .batch packets => Runs.Meets (receive handle) Dispatched (srv, none) packets
  | .getSession _ _ => True
  | .deleteSession session => session < srv.next → srv.RemovesOnlyItself session

/-- The inputs that the server handles soundly: in a batch, no datagram that costs its session is
followed directly by another one from the same source, and a session that was deleted already is
deleted again only if its endpoint has no other session. -/
def Allowed (srv : SSUServer E) : ServerInput E D → Prop
  | .batch packets => Spaced handle (srv, none) packets
  | .getSession _ _ => True
  | .deleteSession session => session < srv.next → srv.state session = .closed →
    srv.sessions (srv.remoteEndpoint session) = none

variable {handle}

theorem Invariant.sound_iff (h : srv.Invariant) (input : ServerInput E D) :
    srv.Allowed handle input ↔ srv.Sound handle input := by
  cases input with
  | batch packets => simp [Allowed, Sound, h.batch.meets_dispatched_iff, Reusable]
  | getSession e route => exact Iff.rfl
  | deleteSession session =>
    exact forall_congr' fun hlt => (h.removesOnlyItself_iff hlt).symm

theorem Invariant.step (h : srv.Invariant) {input : ServerInput E D}
    (hsound : srv.Sound handle input) : (srv.step handle input).Invariant := by
  cases input with
  | batch packets => exact (h.batch.exec hsound).invariant
  | getSession e route => exact h.getSession e route
  | deleteSession session =>
    change (if session < srv.next then srv.deleteSession session else srv).Invariant
    split_ifs with hlt
    · exact h.deleteSession (hsound hlt)
    · exact h

variable [Inhabited E]

/-- A server without sessions. -/
def empty : SSUServer E where
  sessions _ := none
  remoteEndpoint _ := default
  state _ := .unknown
  next := 0

omit [DecidableEq E] in
theorem invariant_empty : (empty : SSUServer E).Invariant := by
  constructor <;> simp [empty]

/-- In a run of the server every datagram is processed by the session of its source, no session is
processed after it was deleted, and a deleted session takes no other with it, exactly when no
datagram that costs its session is followed directly by another one from the same source and no
session is deleted again after its endpoint got a new one. -/
theorem meets_sound_iff (handle : ℕ → SessionState → D → Handling)
    (inputs : List (ServerInput E D)) :
    Runs.Meets (step handle) (Sound handle) (empty : SSUServer E) inputs ↔
      Runs.Meets (step handle) (Allowed handle) empty inputs := by
  refine (Runs.meets_iff_of_preserved (I := Invariant) ?_ ?_ invariant_empty inputs).symm
  · exact fun srv input h hallowed => h.step ((h.sound_iff input).mp hallowed)
  · exact fun srv input h => h.sound_iff input

/-- Two datagrams of one source in a batch, which no session accepts: the second one is given to the
session that the first one cost. -/
theorem not_meets_sound_twoDatagrams :
    ¬ Runs.Meets (step fun _ _ _ => .throws) (Sound fun _ _ _ => .throws) (empty : SSUServer ℕ)
      [.batch [⟨7, false, ()⟩, ⟨7, false, ()⟩]] := by
  rintro ⟨⟨-, hsecond, -⟩, -⟩
  exact hsecond.not_closed (by decide)

end Process

end SSUServer

end SSU
