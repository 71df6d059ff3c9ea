import Xi2p.Transports.Peers

/-!
# Registration of sessions

A session is in `m_Peers` from `PeerConnected` on. The entry is removed when connecting fails, when the
router info is not found and when the address cannot be resolved, although a session may have been put
there by an incoming connection in the meantime.

* `sessions_registered_iff`: the runs in which every connected session is registered.
-/

namespace Transports

open I2NP

namespace Link

/-- Every connected session is listed. -/
def Listed (l : Link) : Prop := ∀ session ∈ l.live, ∃ p, l.peer = some p ∧ session ∈ p.sessions

/-- The connected sessions are those that are listed. -/
structure Registered (l : Link) : Prop where
  listed : l.Listed
  live : ∀ p, l.peer = some p → ∀ session ∈ p.sessions, session ∈ l.live

/-- There is no session. -/
structure Idle (l : Link) : Prop where
  live : l.live = []
  sessions : ∀ p, l.peer = some p → p.sessions = []

theorem idle_init : Idle {} := ⟨rfl, fun _ h => by cases h⟩

namespace Idle

variable {l : Link}

theorem registered (h : l.Idle) : l.Registered where
  listed session hmem := by simp [h.live] at hmem
  live p hp session hmem := by simp [h.sessions p hp] at hmem

theorem setPeer (h : l.Idle) {p : Peer} (hsessions : p.sessions = []) : (l.setPeer p).Idle :=
  ⟨h.live, fun _ hq => Option.some.inj hq ▸ hsessions⟩

theorem removePeer (h : l.Idle) (transport : Option Router.Transport) :
    (l.removePeer transport).Idle :=
  ⟨h.live, fun _ hq => by cases hq⟩

theorem connectToPeer (h : l.Idle) {p : Peer} (hsessions : p.sessions = []) (env : Env) :
    (l.connectToPeer env p).1.Idle :=
  connectToPeer_induction h (fun _ => h.setPeer hsessions) fun transport => h.removePeer transport

theorem deliver (h : l.Idle) {p : Peer} (hp : l.peer = some p) (msgs : List ℕ) :
    (l.deliver p msgs).Idle := by
  have hsessions := h.sessions p hp
  unfold Link.deliver
  split
  next session rest heq => cases heq.symm.trans hsessions
  · exact ⟨h.live, fun _ hq => Option.some.inj hq ▸ hsessions⟩

end Idle

namespace Registered

variable {l : Link}

/-- Without a listed session there is none. -/
theorem idle (h : l.Registered) (hsessions : ∀ p, l.peer = some p → p.sessions = []) : l.Idle := by
  refine ⟨List.eq_nil_iff_forall_not_mem.mpr fun session hmem => ?_, hsessions⟩
  obtain ⟨p, hp, hlisted⟩ := h.listed session hmem
  simp [hsessions p hp] at hlisted

/-- A change of the peer that keeps its sessions. -/
theorem setPeer (h : l.Registered) {p q : Peer} (hp : l.peer = some p)
    (hsessions : q.sessions = p.sessions) : (l.setPeer q).Registered := by
  refine ⟨fun session hmem => ⟨q, rfl, ?_⟩, fun _ hq session hmem => ?_⟩
  · obtain ⟨old, hold, hlisted⟩ := h.listed session hmem
    obtain rfl := Option.some.inj (hp.symm.trans hold)
    rwa [hsessions]
  · obtain rfl := Option.some.inj hq
    rw [hsessions] at hmem
    exact h.live p hp session hmem

theorem postMessages (h : l.Registered) (env : Env) (count : ℕ) :
    (l.postMessages env count).Registered := by
  unfold Link.postMessages
  simp only
  split
  next p hp =>
    unfold Link.deliver
    split
    · exact ⟨h.listed, h.live⟩
    · have hset := h.setPeer hp (q := { p with
        delayedMessages := p.delayedMessages ++ List.range' l.posted count }) rfl
      exact ⟨hset.listed, hset.live⟩
  next hp =>
    have hidle : l.Idle := h.idle fun p hq => by cases hp.symm.trans hq
    have hinsert : (l.insertPeer (l.newPeer env)).Idle :=
      ⟨hidle.live, fun _ hq => Option.some.inj hq ▸ rfl⟩
    have hconnect := hinsert.connectToPeer (p := l.newPeer env) rfl env
    refine Idle.registered ?_
    split
    next l' heq =>
      rw [heq] at hconnect
      split
      next p hq =>
        have hdeliver := hconnect.deliver hq (List.range' l.posted count)
        exact ⟨hdeliver.live, hdeliver.sessions⟩
      · exact ⟨hconnect.live, hconnect.sessions⟩
    next l' connect hne heq =>
      rw [heq] at hconnect
      exact ⟨hconnect.live, hconnect.sessions⟩

theorem peerConnected (h : l.Registered) (ts : UInt64) (session : ℕ) :
    (l.peerConnected ts session).Registered := by
  unfold Link.peerConnected
  simp only
  split
  next p hp =>
    refine ⟨fun σ hσ => ⟨_, rfl, ?_⟩, fun _ hq σ hσ => ?_⟩
    · show σ ∈ p.sessions ++ [session]
      rcases List.mem_insert_iff.mp hσ with rfl | hσ
      · exact List.mem_append_right _ (List.mem_singleton_self σ)
      · obtain ⟨q, hq, hlisted⟩ := h.listed σ hσ
        obtain rfl := Option.some.inj (hp.symm.trans hq)
        exact List.mem_append_left _ hlisted
    · obtain rfl := Option.some.inj hq
      refine List.mem_insert_iff.mpr ?_
      rcases List.mem_append.mp hσ with hσ | hσ
      · exact .inr (h.live p hp σ hσ)
      · exact .inl (List.mem_singleton.mp hσ)
  next hp =>
    -- an incoming connection
    have hidle : l.Idle := h.idle fun p hq => by cases hp.symm.trans hq
    refine ⟨fun σ hσ => ⟨_, rfl, ?_⟩, fun _ hq σ hσ => ?_⟩
    · show σ ∈ [session]
      simpa [Link.insertPeer, hidle.live] using hσ
    · obtain rfl := Option.some.inj hq
      exact List.mem_insert_iff.mpr (.inl (List.mem_singleton.mp hσ))

theorem peerDisconnected (h : l.Registered) (env : Env) (transport : Router.Transport)
    (session : ℕ) : (l.peerDisconnected env transport session).Registered := by
  unfold Link.peerDisconnected
  simp only
  split
  next hp =>
    have hidle : l.Idle := h.idle fun p hq => by cases hp.symm.trans hq
    exact Idle.registered ⟨by simp [hidle.live], hidle.sessions⟩
  next p hp =>
    have hfilter : ∀ σ ∈ l.live.filter (· ≠ session), σ ∈ p.sessions.filter (· ≠ session) := by
      intro σ hσ
      obtain ⟨hσ, hne⟩ := List.mem_filter.mp hσ
      obtain ⟨q, hq, hlisted⟩ := h.listed σ hσ
      obtain rfl := Option.some.inj (hp.symm.trans hq)
      exact List.mem_filter.mpr ⟨hlisted, hne⟩
    split
    next hempty =>
      -- the last session of the router
      have hlive : l.live.filter (· ≠ session) = [] := by
        refine List.eq_nil_iff_forall_not_mem.mpr fun σ hσ => ?_
        exact List.not_mem_nil (hempty ▸ hfilter σ hσ)
      refine Idle.registered ?_
      split
      · refine Idle.connectToPeer ?_ hempty env
        exact ⟨hlive, fun _ hq => Option.some.inj hq ▸ hempty⟩
      · exact ⟨hlive, fun _ hq => by cases hq⟩
    · refine ⟨fun σ hσ => ⟨_, rfl, hfilter σ hσ⟩, fun _ hq σ hσ => ?_⟩
      obtain rfl := Option.some.inj hq
      obtain ⟨hσ, hne⟩ := List.mem_filter.mp hσ
      exact List.mem_filter.mpr ⟨h.live p hp σ hσ, hne⟩

theorem handlePeerCleanupTimer (h : l.Registered) (ts : UInt64) :
    (l.handlePeerCleanupTimer ts).Registered := by
  unfold Link.handlePeerCleanupTimer
  split
  · exact h
  next p hp =>
    split
    next hexpired =>
      have hidle : l.Idle := h.idle fun q hq =>
        Option.some.inj (hp.symm.trans hq) ▸ hexpired.1
      exact (hidle.removePeer none).registered
    · exact h

end Registered

/-- A router info that is found for a peer with a session, or the end of its resolution, leads to a
connection; and no router info that is not found is for a peer with a session. -/
def Allowed (l : Link) : Op → Prop
  | .handleRequestComplete env router =>
    ∀ p, l.peer = some p → p.sessions ≠ [] →
      ∃ r, router = some r ∧
        (env.throws ∨ connectOn env (env.routers r) (nextTransport env p.numAttempts))
  | .handleNTCPResolve env ok => ∀ p, l.peer = some p → p.sessions ≠ [] → resolved env p ok
  | _ => True

/-- `ConnectToPeer` removes a peer with a router info exactly if connecting fails. -/
theorem connectToPeer_of_router (env : Env) (l : Link) {p : Peer} {r : ℕ} (hr : p.router = some r) :
    (if env.throws ∨ connectOn env (env.routers r) (nextTransport env p.numAttempts) then
      (l.connectToPeer env p).1 = l ∨
        ∃ numAttempts, (l.connectToPeer env p).1 = l.setPeer { p with numAttempts }
    else ∃ transport, (l.connectToPeer env p).1 = l.removePeer transport) := by
  unfold connectToPeer
  rw [hr]
  by_cases hthrows : env.throws = true
  · simp [hthrows]
  · by_cases hconnect : connectOn env (env.routers r) (nextTransport env p.numAttempts) = true
    · simp only [hthrows, hconnect, or_true, if_true]
      exact .inr ⟨_, rfl⟩
    · simp only [hthrows, hconnect, or_self]
      exact ⟨_, rfl⟩

/-- Without a peer, a connected session is not listed. -/
theorem not_listed_removePeer {l : Link} (h : l.Registered) {p : Peer} (hp : l.peer = some p)
    (hne : p.sessions ≠ []) {l' : Link} (hlive : l'.live = l.live) (hpeer : l'.peer = none) :
    ¬l'.Listed := by
  obtain ⟨session, hmem⟩ := List.exists_mem_of_ne_nil _ hne
  intro hlisted
  obtain ⟨q, hq, -⟩ := hlisted session (hlive ▸ h.live p hp session hmem)
  cases hpeer.symm.trans hq

/-- What a router info that was found leads to. -/
theorem Registered.handleRequestComplete {l : Link} (h : l.Registered) {env : Env}
    {router : Option ℕ} (hallowed : l.Allowed (.handleRequestComplete env router)) :
    (l.handleRequestComplete env router).Registered := by
  unfold Link.handleRequestComplete
  split
  · exact h
  next p hp =>
    by_cases hsessions : p.sessions = []
    · have hidle : l.Idle := h.idle fun q hq => Option.some.inj (hp.symm.trans hq) ▸ hsessions
      refine Idle.registered ?_
      split
      next r =>
        have hset : (l.setPeer { p with router := some r }).Idle := hidle.setPeer hsessions
        exact hset.connectToPeer (p := { p with router := some r }) hsessions env
      · exact hidle.removePeer none
    · obtain ⟨r, rfl, hconnects⟩ := hallowed p hp hsessions
      have hset := h.setPeer hp (q := { p with router := some r }) rfl
      have hconnect := connectToPeer_of_router env (l.setPeer { p with router := some r })
        (p := { p with router := some r }) rfl
      rw [if_pos hconnects] at hconnect
      simp only
      obtain heq | ⟨numAttempts, heq⟩ := hconnect
      · rwa [heq]
      · rw [heq]
        exact hset.setPeer rfl rfl

/-- What the end of a resolution leads to. -/
theorem Registered.handleNTCPResolve {l : Link} (h : l.Registered) {env : Env} {ok : Bool}
    (hallowed : l.Allowed (.handleNTCPResolve env ok)) :
    (l.handleNTCPResolve env ok).Registered := by
  unfold Link.handleNTCPResolve
  split
  · exact h
  next p hp =>
    split
    · exact h
    next hnot =>
      have hsessions : p.sessions = [] := by
        by_contra hne
        exact hnot (hallowed p hp hne)
      have hidle : l.Idle := h.idle fun q hq => Option.some.inj (hp.symm.trans hq) ▸ hsessions
      exact (hidle.removePeer (some .ntcp)).registered

/-- An allowed call keeps the sessions registered. -/
theorem registered_step {l : Link} (h : l.Registered) {op : Op} (hallowed : l.Allowed op) :
    (l.step op).Registered := by
  cases op with
  | postMessages env count => exact h.postMessages env count
  | handleRequestComplete env router => exact h.handleRequestComplete hallowed
  | handleNTCPResolve env ok => exact h.handleNTCPResolve hallowed
  | peerConnected ts session => exact h.peerConnected ts session
  | peerDisconnected env transport session => exact h.peerDisconnected env transport session
  | handlePeerCleanupTimer ts => exact h.handlePeerCleanupTimer ts

/-- A call after which the sessions are listed was allowed. -/
theorem allowed_of_listed {l : Link} (h : l.Registered) {op : Op} (hlisted : (l.step op).Listed) :
    l.Allowed op := by
  cases op with
  | handleRequestComplete env router =>
    intro p hp hne
    have hremoved : ∀ l' : Link, l'.live = l.live → l'.peer = none → ¬l'.Listed :=
      fun l' => not_listed_removePeer h hp hne
    simp only [step, Link.handleRequestComplete, hp] at hlisted
    cases router with
    | none => exact absurd hlisted (hremoved _ rfl rfl)
    | some r =>
      refine ⟨r, rfl, ?_⟩
      by_contra hnot
      have hconnect := connectToPeer_of_router env (l.setPeer { p with router := some r })
        (p := { p with router := some r }) rfl
      rw [if_neg hnot] at hconnect
      obtain ⟨transport, heq⟩ := hconnect
      simp only [heq] at hlisted
      exact absurd hlisted (hremoved _ rfl rfl)
  | handleNTCPResolve env ok =>
    intro p hp hne
    by_contra hnot
    simp only [step, Link.handleNTCPResolve, hp, hnot] at hlisted
    exact absurd hlisted (not_listed_removePeer h hp hne rfl rfl)
  | _ => trivial

end Link

/-- After a call, every connected session is listed in `m_Peers` under the hash of its router. -/
def SessionsListed (sessions : Sessions) (own : IdentHash) (links : IdentHash → Link)
    (event : Event) : Prop :=
  ∀ ident, (step sessions own links event ident).Listed

/-- No call removes a peer with a session. -/
def KeepsSessions (sessions : Sessions) (own : IdentHash) (links : IdentHash → Link)
    (event : Event) : Prop :=
  ∀ ident op, event.callFor sessions own ident = some op → (links ident).Allowed op

/-- In a run, every connected session is listed after every call exactly if no call removes a peer with
a session. -/
theorem sessions_registered_iff (sessions : Sessions) (own : IdentHash) (events : List Event) :
    Runs.Meets (step sessions own) (SessionsListed sessions own) (fun _ => {}) events ↔
      Runs.Meets (step sessions own) (KeepsSessions sessions own) (fun _ => {}) events := by
  refine (Runs.meets_iff_of_preserved (I := fun links => ∀ ident, (links ident).Registered)
    ?_ ?_ (fun _ => Link.idle_init.registered) events).symm
  · intro links event h hkeeps ident
    unfold step
    split
    next op hop => exact Link.registered_step (h ident) (hkeeps ident op hop)
    · exact h ident
  · intro links event h
    constructor
    · intro hkeeps ident
      unfold step
      split
      next op hop => exact (Link.registered_step (h ident) (hkeeps ident op hop)).listed
      · exact (h ident).listed
    · intro hlisted ident op hop
      have hlisted := hlisted ident
      unfold step at hlisted
      rw [hop] at hlisted
      exact Link.allowed_of_listed (h ident) hlisted

/-- Nothing is known about the remote router. -/
def exampleEnv : Env where
  routers _ := {}
  findRouter := none
  hasNTCPServer := true
  hasSSUServer := true
  supportsV6 := false
  hasSSUSession _ _ := false
  throws := false
  ts := 0

/-- All sessions are NTCP sessions of one router. -/
def exampleSessions : Sessions where
  ident _ := IdentHash.zero
  transport _ := .ntcp

/-- Our own hash. -/
def exampleOwn : IdentHash := ⟨List.replicate 32 1, List.length_replicate⟩

/-- The remote router connects to us while its router info is requested, which is not found. -/
def connectedWhileRequested : List Event :=
  [.postMessages exampleEnv IdentHash.zero 1, .peerConnected 0 7,
    .handleRequestComplete exampleEnv none IdentHash.zero]

theorem not_sessionsListed_notFound :
    ¬∀ (sessions : Sessions) (own : IdentHash) (events : List Event),
      Runs.Meets (step sessions own) (SessionsListed sessions own) (fun _ => {}) events := by
  intro h
  obtain ⟨-, -, hlisted, -⟩ := h exampleSessions exampleOwn connectedWhileRequested
  -- the session is connected, but there is no peer any more
  obtain ⟨p, hp, -⟩ := hlisted IdentHash.zero 7 (by decide +kernel)
  have hnone : (Runs.exec (step exampleSessions exampleOwn) (fun _ => {}) connectedWhileRequested
      IdentHash.zero).peer.isNone := by
    decide +kernel
  have hsome : (Runs.exec (step exampleSessions exampleOwn) (fun _ => {}) connectedWhileRequested
      IdentHash.zero).peer = some p := hp
  rw [hsome] at hnone
  cases hnone

end Transports
