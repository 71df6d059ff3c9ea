import Xi2p.Transports.Peers

/-!
# Messages to a remote router

Messages wait in `delayed_messages` until a session is there, and are handed to it all at once. A peer
with a session delays nothing, so later messages cannot overtake.

* `Link.Orderly`: the messages that were handed over, followed by those that wait, are in the order in
  which they were posted.
* `messages_conserved`: what holds for every router after every run.
-/

namespace Transports

open I2NP

namespace Link

/-- The messages that have been handed to a session. -/
def handedMessages (l : Link) : List ℕ := l.handed.map Prod.fst

/-- The messages that wait. -/
def delayedMessages (l : Link) : List ℕ := (l.peer.map Peer.delayedMessages).getD []

/-- Messages are in the order in which they were posted, and go to sessions of the router. -/
structure Orderly (isRemote : ℕ → Prop) (l : Link) : Prop where
  sessions : ∀ p, l.peer = some p → ∀ session ∈ p.sessions, isRemote session
  handed : ∀ e ∈ l.handed, isRemote e.2
  sorted : (l.handedMessages ++ l.delayedMessages).Pairwise (· < ·)
  lt : ∀ m ∈ l.handedMessages ++ l.delayedMessages, m < l.posted
  exclusive : ∀ p, l.peer = some p → p.sessions ≠ [] → p.delayedMessages = []
  entry_lt : ∀ p, l.peer = some p → p.entry < l.entries
  queued_lt : ∀ e ∈ l.queued, e.2 < l.entries
  waiting : ∀ p, l.peer = some p → ∀ m, (m, p.entry) ∈ l.queued →
    m ∈ l.handedMessages ∨ m ∈ p.delayedMessages

theorem orderly_init (isRemote : ℕ → Prop) : Orderly isRemote {} where
  sessions _ h := by cases h
  handed _ h := by cases h
  sorted := List.Pairwise.nil
  lt _ h := by cases h
  exclusive _ h := by cases h
  entry_lt _ h := by cases h
  queued_lt _ h := by cases h
  waiting _ h := by cases h

theorem posted_connectToPeer (env : Env) (l : Link) (p : Peer) :
    (l.connectToPeer env p).1.posted = l.posted :=
  connectToPeer_induction (I := fun l' => l'.posted = l.posted) rfl (fun _ => rfl) fun _ => rfl

theorem posted_deliver (l : Link) (p : Peer) (msgs : List ℕ) :
    (l.deliver p msgs).posted = l.posted := by
  unfold deliver
  split <;> rfl

namespace Orderly

variable {isRemote : ℕ → Prop} {l : Link}

/-- What else has happened does not matter. -/
theorem congr (h : l.Orderly isRemote) {l' : Link} (hpeer : l'.peer = l.peer)
    (hentries : l'.entries = l.entries) (hposted : l.posted ≤ l'.posted)
    (hhanded : l'.handed = l.handed) (hqueued : l'.queued = l.queued) : l'.Orderly isRemote := by
  have hmessages : l'.handedMessages ++ l'.delayedMessages =
      l.handedMessages ++ l.delayedMessages := by
    rw [handedMessages, handedMessages, delayedMessages, delayedMessages, hpeer, hhanded]
  refine ⟨hpeer ▸ h.sessions, hhanded ▸ h.handed, hmessages ▸ h.sorted, ?_, hpeer ▸ h.exclusive, ?_, ?_,
    ?_⟩
  · rw [hmessages]
    exact fun m hm => (h.lt m hm).trans_le hposted
  · rw [hpeer, hentries]
    exact h.entry_lt
  · rw [hqueued, hentries]
    exact h.queued_lt
  · rw [hpeer, hqueued, handedMessages, hhanded]
    exact h.waiting

/-- A change of the peer that keeps its messages. -/
theorem setPeer (h : l.Orderly isRemote) {p q : Peer} (hpeer : l.peer = some p)
    (hdelayed : q.delayedMessages = p.delayedMessages) (hentry : q.entry = p.entry)
    (hsessions : q.sessions ⊆ p.sessions) : (l.setPeer q).Orderly isRemote := by
  have hdelayed' : (l.setPeer q).delayedMessages = l.delayedMessages := by
    simp [delayedMessages, Link.setPeer, hpeer, hdelayed]
  refine ⟨?_, h.handed, ?_, ?_, ?_, ?_, h.queued_lt, ?_⟩
  · intro _ hp session hmem
    obtain rfl := Option.some.inj hp
    exact h.sessions p hpeer session (hsessions hmem)
  · rw [hdelayed']
    exact h.sorted
  · rw [hdelayed']
    exact h.lt
  · intro _ hp hne
    obtain rfl := Option.some.inj hp
    rw [hdelayed]
    exact h.exclusive p hpeer fun hempty => hne (List.subset_nil.mp (hempty ▸ hsessions))
  · intro _ hp
    obtain rfl := Option.some.inj hp
    rw [hentry]
    exact h.entry_lt p hpeer
  · intro _ hp m hm
    obtain rfl := Option.some.inj hp
    rw [hentry] at hm
    rw [hdelayed]
    exact h.waiting p hpeer m hm

/-- The removal of the peer loses the messages that wait. -/
theorem removePeer (h : l.Orderly isRemote) (transport : Option Router.Transport) :
    (l.removePeer transport).Orderly isRemote := by
  have hsub : (l.handedMessages ++ []).Sublist (l.handedMessages ++ l.delayedMessages) :=
    (List.Sublist.refl _).append (List.nil_sublist _)
  refine ⟨?_, h.handed, h.sorted.sublist hsub, fun m hm => h.lt m (hsub.subset hm), ?_, ?_, h.queued_lt,
    ?_⟩
  all_goals
    intro _ hp
    cases hp

theorem connectToPeer (h : l.Orderly isRemote) {p : Peer} (hpeer : l.peer = some p) (env : Env) :
    (l.connectToPeer env p).1.Orderly isRemote := by
  refine connectToPeer_induction h (fun numAttempts => ?_) fun transport => h.removePeer transport
  exact h.setPeer hpeer rfl rfl (List.Subset.refl _)

/-- A new peer has no messages. -/
theorem insertPeer (h : l.Orderly isRemote) (hpeer : l.peer = none) {p : Peer}
    (hsessions : ∀ session ∈ p.sessions, isRemote session) (hdelayed : p.delayedMessages = [])
    (hentry : p.entry = l.entries) : (l.insertPeer p).Orderly isRemote := by
  have hdelayed' : (l.insertPeer p).delayedMessages = l.delayedMessages := by
    simp [delayedMessages, Link.insertPeer, hpeer, hdelayed]
  refine ⟨?_, h.handed, ?_, ?_, ?_, ?_, ?_, ?_⟩
  · intro _ hp
    obtain rfl := Option.some.inj hp
    exact hsessions
  · rw [hdelayed']
    exact h.sorted
  · rw [hdelayed']
    exact h.lt
  · intro _ hp _
    obtain rfl := Option.some.inj hp
    exact hdelayed
  · intro _ hp
    obtain rfl := Option.some.inj hp
    rw [hentry]
    exact Nat.lt_succ_self _
  · exact fun e he => (h.queued_lt e he).trans (Nat.lt_succ_self _)
  · intro _ hp m hm
    obtain rfl := Option.some.inj hp
    -- nothing was queued on an entry that did not exist
    rw [hentry] at hm
    exact absurd (h.queued_lt _ hm) (lt_irrefl _)

/-- New messages come after all others. -/
theorem deliver (h : l.Orderly isRemote) {p : Peer} (hpeer : l.peer = some p) {n : ℕ} (hn : l.posted = n)
    (count : ℕ) : Orderly isRemote { l.deliver p (List.range' n count) with
      posted := (l.deliver p (List.range' n count)).posted + count } := by
  subst hn
  rw [posted_deliver]
  have hdelayed : l.delayedMessages = p.delayedMessages := by simp [delayedMessages, hpeer]
  have hrange : ∀ m ∈ List.range' l.posted count, l.posted ≤ m ∧ m < l.posted + count :=
    fun m => List.mem_range'_1.mp
  have hsorted : ((l.handedMessages ++ l.delayedMessages) ++
      List.range' l.posted count).Pairwise (· < ·) := by
    refine List.pairwise_append.mpr ⟨h.sorted, List.pairwise_lt_range', fun a ha b hb => ?_⟩
    exact (h.lt a ha).trans_le (hrange b hb).1
  have hlt : ∀ m ∈ (l.handedMessages ++ l.delayedMessages) ++ List.range' l.posted count,
      m < l.posted + count := by
    intro m hm
    rcases List.mem_append.mp hm with hm | hm
    · exact (h.lt m hm).trans_le (Nat.le_add_right _ count)
    · exact (hrange m hm).2
  unfold Link.deliver
  split
  next session rest hsessions =>
    -- nothing waits, so the messages are handed over behind those before
    have hempty : p.delayedMessages = [] := h.exclusive p hpeer (by simp [hsessions])
    rw [hdelayed, hempty, List.append_nil] at hsorted hlt
    have hmessages : (l.handed ++ (List.range' l.posted count).map (·, session)).map Prod.fst ++
        l.delayedMessages = l.handedMessages ++ List.range' l.posted count := by
      simp [handedMessages, hdelayed, hempty, Function.comp_def]
    refine ⟨h.sessions, fun e he => ?_, ?_, ?_, h.exclusive, h.entry_lt, h.queued_lt,
      fun q hq m hm => ?_⟩
    · rcases List.mem_append.mp he with he | he
      · exact h.handed e he
      · obtain ⟨m, -, rfl⟩ := List.mem_map.mp he
        exact h.sessions p hpeer session (hsessions ▸ List.mem_cons_self)
    · exact hmessages.symm ▸ hsorted
    · exact hmessages.symm ▸ hlt
    · refine (h.waiting q hq m hm).imp_left fun hmem => ?_
      exact List.map_subset _ (List.subset_append_left _ _) hmem
  next hsessions =>
    have hmessages : l.handedMessages ++ (p.delayedMessages ++ List.range' l.posted count) =
        l.handedMessages ++ l.delayedMessages ++ List.range' l.posted count := by
      rw [hdelayed, List.append_assoc]
    refine ⟨?_, h.handed, hmessages.symm ▸ hsorted, hmessages.symm ▸ hlt, ?_, ?_, ?_, ?_⟩
    · intro _ hq
      obtain rfl := Option.some.inj hq
      exact h.sessions p hpeer
    · intro _ hq hne
      obtain rfl := Option.some.inj hq
      exact absurd hsessions hne
    · intro _ hq
      obtain rfl := Option.some.inj hq
      exact h.entry_lt p hpeer
    · intro e he
      rcases List.mem_append.mp he with he | he
      · exact h.queued_lt e he
      · obtain ⟨m, -, rfl⟩ := List.mem_map.mp he
        exact h.entry_lt p hpeer
    · intro _ hq m hm
      obtain rfl := Option.some.inj hq
      rcases List.mem_append.mp hm with hm | hm
      · exact (h.waiting p hpeer m hm).imp_right (List.mem_append_left _)
      · obtain ⟨m', hm', heq⟩ := List.mem_map.mp hm
        obtain rfl := (Prod.mk.inj heq).1
        exact .inr (List.mem_append_right _ hm')

/-- The messages that wait are handed to a new session. -/
theorem handDelayed (h : l.Orderly isRemote) {p : Peer} (hpeer : l.peer = some p) {session : ℕ}
    (hsession : isRemote session) :
    Orderly isRemote { l.setPeer { p with sessions := p.sessions ++ [session], delayedMessages := [] } with
      handed := l.handed ++ p.delayedMessages.map (·, session) } := by
  have hmessages : (l.handed ++ p.delayedMessages.map (·, session)).map Prod.fst ++ [] =
      l.handedMessages ++ l.delayedMessages := by
    simp [handedMessages, delayedMessages, hpeer, Function.comp_def]
  refine ⟨?_, fun e he => ?_, hmessages.symm ▸ h.sorted, hmessages.symm ▸ h.lt, ?_, ?_, h.queued_lt, ?_⟩
  · intro _ hq σ hσ
    obtain rfl := Option.some.inj hq
    rcases List.mem_append.mp hσ with hσ | hσ
    · exact h.sessions p hpeer σ hσ
    · exact List.mem_singleton.mp hσ ▸ hsession
  · rcases List.mem_append.mp he with he | he
    · exact h.handed e he
    · obtain ⟨m, -, rfl⟩ := List.mem_map.mp he
      exact hsession
  · intro _ hq _
    obtain rfl := Option.some.inj hq
    rfl
  · intro _ hq
    obtain rfl := Option.some.inj hq
    exact h.entry_lt p hpeer
  · intro _ hq m hm
    obtain rfl := Option.some.inj hq
    left
    show m ∈ (l.handed ++ p.delayedMessages.map (·, session)).map Prod.fst
    rw [List.map_append, List.mem_append]
    refine (h.waiting p hpeer m hm).imp_right fun hmem => ?_
    exact List.mem_map.mpr ⟨(m, session), List.mem_map_of_mem hmem, rfl⟩

theorem postMessages (h : l.Orderly isRemote) (env : Env) (count : ℕ) :
    (l.postMessages env count).Orderly isRemote := by
  unfold Link.postMessages
  simp only
  split
  next p hpeer => exact h.deliver hpeer rfl count
  next hpeer =>
    have hinsert := h.insertPeer hpeer (p := l.newPeer env) (fun _ hσ => nomatch hσ) rfl rfl
    have hconnect := hinsert.connectToPeer rfl env
    have hposted := posted_connectToPeer env (l.insertPeer (l.newPeer env)) (l.newPeer env)
    split
    next l' heq =>
      rw [heq] at hconnect hposted
      split
      next p hp => exact hconnect.deliver hp hposted count
      · exact hconnect.congr rfl rfl (Nat.le_add_right _ _) rfl rfl
    next l' connect hne heq =>
      rw [heq] at hconnect
      exact hconnect.congr rfl rfl (Nat.le_add_right _ _) rfl rfl

theorem handleRequestComplete (h : l.Orderly isRemote) (env : Env) (router : Option ℕ) :
    (l.handleRequestComplete env router).Orderly isRemote := by
  unfold Link.handleRequestComplete
  split
  · exact h
  next p hpeer =>
    split
    next r =>
      have hset := h.setPeer hpeer (q := { p with router := some r }) rfl rfl (List.Subset.refl _)
      exact hset.connectToPeer rfl env
    · exact h.removePeer none

theorem handleNTCPResolve (h : l.Orderly isRemote) (env : Env) (ok : Bool) :
    (l.handleNTCPResolve env ok).Orderly isRemote := by
  unfold Link.handleNTCPResolve
  split
  · exact h
  · split
    · exact h
    · exact h.removePeer (some .ntcp)

theorem peerConnected (h : l.Orderly isRemote) (ts : UInt64) {session : ℕ}
    (hsession : isRemote session) : (l.peerConnected ts session).Orderly isRemote := by
  have hlive : Orderly isRemote { l with live := l.live.insert session } := h.congr rfl rfl le_rfl rfl rfl
  unfold Link.peerConnected
  simp only
  split
  next p hpeer => exact hlive.handDelayed hpeer hsession
  next hpeer =>
    exact hlive.insertPeer hpeer (fun _ hσ => List.mem_singleton.mp hσ ▸ hsession) rfl rfl

theorem peerDisconnected (h : l.Orderly isRemote) (env : Env) (transport : Router.Transport)
    (session : ℕ) : (l.peerDisconnected env transport session).Orderly isRemote := by
  have hfailed : Orderly isRemote { l with
      live := l.live.filter (· ≠ session)
      failures := if session ∈ l.live then l.failures else l.failures ++ [transport] } :=
    h.congr rfl rfl le_rfl rfl rfl
  unfold Link.peerDisconnected
  simp only
  split
  · exact hfailed
  next p hpeer =>
    have hset := hfailed.setPeer hpeer
      (q := { p with sessions := p.sessions.filter (· ≠ session) }) rfl rfl List.filter_sublist.subset
    split
    · split
      · exact hset.connectToPeer rfl env
      · exact hfailed.removePeer none
    · exact hset

theorem handlePeerCleanupTimer (h : l.Orderly isRemote) (ts : UInt64) :
    (l.handlePeerCleanupTimer ts).Orderly isRemote := by
  unfold Link.handlePeerCleanupTimer
  split
  · exact h
  · split
    · exact h.removePeer none
    · exact h

end Orderly

/-- One call keeps the order. -/
theorem orderly_step {isRemote : ℕ → Prop} {l : Link} (h : l.Orderly isRemote) {op : Op}
    (hop : ∀ session, op.session? = some session → isRemote session) :
    (l.step op).Orderly isRemote := by
  cases op with
  | postMessages env count => exact h.postMessages env count
  | handleRequestComplete env router => exact h.handleRequestComplete env router
  | handleNTCPResolve env ok => exact h.handleNTCPResolve env ok
  | peerConnected ts session => exact h.peerConnected ts (hop session rfl)
  | peerDisconnected env transport session => exact h.peerDisconnected env transport session
  | handlePeerCleanupTimer ts => exact h.handlePeerCleanupTimer ts

/-- The order is kept over a run for one router. -/
theorem orderly_exec {isRemote : ℕ → Prop} {ops : List Op}
    (hops : ∀ op ∈ ops, ∀ session, op.session? = some session → isRemote session) :
    (Runs.exec step {} ops).Orderly isRemote := by
  have hmeets : Runs.Meets step
      (fun _ op => ∀ session, op.session? = some session → isRemote session) {} ops :=
    Runs.meets_of_forall hops
  refine Runs.invariant_of_meets (I := Orderly isRemote) ?_ (orderly_init isRemote) hmeets
  exact fun l op h hop => orderly_step h hop

end Link

end Transports
