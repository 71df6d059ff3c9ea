import Xi2p.Transports.Registration

/-!
# Fallback to the other transport

With both servers, `ConnectToPeer` tries NTCP first and SSU when it is called again. It is called again
only when a session has failed: an attempt that cannot even start, and an address that cannot be
resolved, remove the peer at once.

* `Link.fallback_sound`: the runs in which a peer is removed only after connecting has failed on all
  transports that it has a usable address for.
-/

namespace Transports

open I2NP Router

/-- We and a router support a transport: it has a usable address for it. -/
def supports (env : Env) (c : Contents) (transport : Transport) : Bool :=
  (getAddress c transport env.supportsV6).isSome

namespace Link

/-- The environment of a call, if the call is an attempt to connect or its failure. -/
def Op.attempt? : Op → Option Env
  | .postMessages env _ => some env
  | .handleRequestComplete env (some _) => some env
  | .handleNTCPResolve env _ => some env
  | .peerDisconnected env _ _ => some env
  | _ => none

/-- The call is an attempt to connect or its failure, with both servers. -/
def Op.isAttempt (op : Op) : Bool :=
  match op.attempt? with
  | some env => env.hasNTCPServer && env.hasSSUServer
  | none => false

/-- The router info of the peer that a call is about. -/
def routerOf (l : Link) : Op → Option ℕ
  | .postMessages env _ =>
    match l.peer with
    | some p => p.router
    | none => env.findRouter
  | .handleRequestComplete _ (some r) => some r
  | _ => l.peer.bind Peer.router

/-- A call removes the peer, or makes one and removes it. -/
def Removes (l : Link) (op : Op) : Prop :=
  (l.step op).peer = none ∧ (l.peer.isSome ∨ ∃ env count, op = .postMessages env count)

/-- A call that removes the peer does so only after connecting has failed on every transport that both
sides support. -/
def FallsBack (l : Link) (op : Op) : Prop :=
  l.Removes op → ∀ env r, op.attempt? = some env → l.routerOf op = some r →
    ∀ transport ∈ [Transport.ntcp, .ssu], supports env (env.routers r) transport →
      transport ∈ (l.step op).failures

/-- The first attempt starts, or there is no second one to be made. -/
def firstStarts (env : Env) (r : ℕ) : Bool :=
  env.throws || connectToPeerNTCP env (env.routers r) || !supports env (env.routers r) .ssu

/-- A first attempt starts unless there is no SSU address; a router info is found for a peer that has not
been tried yet; a resolution that fails is for a router without SSU address; and a session that fails is
that of the last attempt, with messages waiting. -/
def allows (l : Link) : Op → Bool
  | .postMessages env _ => l.peer.isSome || env.findRouter.all (firstStarts env)
  | .handleRequestComplete env (some r) =>
    l.peer.all fun p => p.numAttempts = 0 && firstStarts env r
  | .handleNTCPResolve env ok =>
    l.peer.all fun p => resolved env p ok || p.router.all fun r => !supports env (env.routers r) .ssu
  | .peerDisconnected _ transport _ =>
    l.peer.all fun p => p.delayedMessages ≠ [] &&
      (p.numAttempts = 1 && transport = .ntcp || p.numAttempts = 2 && transport = .ssu)
  | _ => true

/-- What is known of a peer between two attempts. -/
structure Tried (l : Link) : Prop where
  idle : l.Idle
  numAttempts_le : ∀ p, l.peer = some p → p.numAttempts ≤ 2
  first_failed : ∀ p, l.peer = some p → p.numAttempts = 2 → .ntcp ∈ l.failures

/-- Without a peer and its sessions nothing has been tried. -/
theorem tried_of_none {l : Link} (hidle : l.Idle) (hnone : l.peer = none) : l.Tried where
  idle := hidle
  numAttempts_le p hp := by cases hnone.symm.trans hp
  first_failed p hp := by cases hnone.symm.trans hp

/-- If there is no peer, connecting has failed on every transport that a router has an address for. -/
def Exhausted (env : Env) (router : Option ℕ) (l : Link) : Prop :=
  l.peer = none → ∀ r, router = some r → ∀ transport ∈ [Transport.ntcp, .ssu],
    supports env (env.routers r) transport → transport ∈ l.failures

theorem exhausted_of_some {env : Env} {router : Option ℕ} {l : Link} {p : Peer}
    (h : l.peer = some p) : Exhausted env router l :=
  fun hnone => by cases hnone.symm.trans h

/-- What is known of a peer when `ConnectToPeer` is called. -/
structure Ready (env : Env) (l : Link) (p : Peer) : Prop where
  idle : l.Idle
  peer : l.peer = some p
  numAttempts_le : p.numAttempts ≤ 2
  first : p.numAttempts = 0 → ∀ r, p.router = some r → firstStarts env r
  second : p.numAttempts = 1 → .ntcp ∈ l.failures
  third : p.numAttempts = 2 → .ntcp ∈ l.failures ∧ .ssu ∈ l.failures

namespace Ready

variable {env : Env} {l : Link} {p : Peer}

theorem tried (h : Ready env l p) : l.Tried where
  idle := h.idle
  numAttempts_le q hq := Option.some.inj (h.peer.symm.trans hq) ▸ h.numAttempts_le
  first_failed q hq hattempts := by
    obtain rfl := Option.some.inj (h.peer.symm.trans hq)
    exact (h.third hattempts).1

/-- A peer that is tried again. -/
theorem tried_setPeer (h : Ready env l p) (hlt : p.numAttempts < 2) :
    (l.setPeer { p with numAttempts := p.numAttempts + 1 }).Tried := by
  refine ⟨h.idle.setPeer (h.idle.sessions p h.peer), fun _ hq => ?_, fun _ hq hattempts => ?_⟩
  · exact Option.some.inj hq ▸ hlt
  · obtain rfl := Option.some.inj hq
    exact h.second (Nat.succ.inj hattempts)

/-- An attempt leaves a peer that can be tried again, or one that has been tried on all transports. -/
theorem connectToPeer (h : Ready env l p) (hservers : env.hasNTCPServer && env.hasSSUServer) :
    (l.connectToPeer env p).1.Tried ∧ Exhausted env p.router (l.connectToPeer env p).1 := by
  obtain ⟨hntcp, hssu⟩ := Bool.and_eq_true_iff.mp hservers
  unfold Link.connectToPeer
  split
  · exact ⟨h.tried, exhausted_of_some h.peer⟩
  next hthrows =>
    split
    · exact ⟨h.tried, exhausted_of_some h.peer⟩
    next r hr =>
      have hremove : ∀ transport, (∀ t ∈ [Transport.ntcp, .ssu], supports env (env.routers r) t →
          t ∈ l.failures ++ transport.toList) → (l.removePeer transport).Tried ∧
            Exhausted env p.router (l.removePeer transport) := by
        refine fun transport hfailed => ⟨tried_of_none (h.idle.removePeer transport) rfl, ?_⟩
        intro _ r' hr'
        exact Option.some.inj (hr.symm.trans hr') ▸ hfailed
      have hattempts : p.numAttempts = 0 ∨ p.numAttempts = 1 ∨ p.numAttempts = 2 := by
        have := h.numAttempts_le
        omega
      simp only
      rcases hattempts with hzero | hone | htwo
      · -- NTCP; if it cannot be tried then there is no SSU address
        have hnext : nextTransport env p.numAttempts = some .ntcp := by
          simp [nextTransport, hntcp, hssu, hzero]
        rw [hnext]
        split
        · exact ⟨h.tried_setPeer (by omega), exhausted_of_some rfl⟩
        next hconnect =>
          refine hremove _ fun t ht hsupports => ?_
          have hstarts := h.first hzero r hr
          have hnone : supports env (env.routers r) .ssu = false := by
            simpa [firstStarts, hthrows, show connectToPeerNTCP env (env.routers r) = false by
              simpa [connectOn] using hconnect] using hstarts
          rcases List.mem_pair.mp ht with rfl | rfl
          · simp
          · rw [hnone] at hsupports
            cases hsupports
      · -- SSU, after NTCP has failed
        have hnext : nextTransport env p.numAttempts = some .ssu := by
          simp [nextTransport, hntcp, hssu, hone]
        rw [hnext]
        split
        · exact ⟨h.tried_setPeer (by omega), exhausted_of_some rfl⟩
        · refine hremove _ fun t ht _ => ?_
          rcases List.mem_pair.mp ht with rfl | rfl
          · exact List.mem_append_left _ (h.second hone)
          · simp
      · have hnext : nextTransport env p.numAttempts = none := by
          simp [nextTransport, hntcp, hssu, htwo]
        rw [hnext]
        refine hremove none fun t ht _ => ?_
        rcases List.mem_pair.mp ht with rfl | rfl
        · exact List.mem_append_left _ (h.third htwo).1
        · exact List.mem_append_left _ (h.third htwo).2

end Ready

namespace Tried

variable {l : Link}

/-- A peer that messages are delayed for. -/
theorem deliver (h : l.Tried) {p : Peer} (hp : l.peer = some p) (msgs : List ℕ) (posted : ℕ) :
    Tried { l.deliver p msgs with posted } ∧ (l.deliver p msgs).peer.isSome := by
  have hsessions := h.idle.sessions p hp
  unfold Link.deliver
  split
  next session rest heq => cases heq.symm.trans hsessions
  · refine ⟨⟨⟨h.idle.live, fun _ hq => ?_⟩, fun _ hq => ?_, fun _ hq => ?_⟩, rfl⟩
    · exact Option.some.inj hq ▸ hsessions
    · exact Option.some.inj hq ▸ h.numAttempts_le p hp
    · exact Option.some.inj hq ▸ h.first_failed p hp

/-- What is known between two attempts does not depend on the messages. -/
theorem post (h : l.Tried) (posted : ℕ) : Tried { l with posted } :=
  ⟨⟨h.idle.live, h.idle.sessions⟩, h.numAttempts_le, h.first_failed⟩

theorem postMessages (h : l.Tried) {env : Env} {count : ℕ}
    (hservers : env.hasNTCPServer && env.hasSSUServer)
    (hallows : l.allows (.postMessages env count)) :
    (l.postMessages env count).Tried ∧ l.FallsBack (.postMessages env count) := by
  have hgoal : (l.postMessages env count).Tried ∧
      Exhausted env (l.routerOf (.postMessages env count)) (l.postMessages env count) := by
    unfold Link.postMessages Link.routerOf
    simp only
    cases hpeer : l.peer with
    | some p =>
      obtain ⟨htried, hsome⟩ := h.deliver hpeer (List.range' l.posted count)
        ((l.deliver p (List.range' l.posted count)).posted + count)
      obtain ⟨q, hq⟩ := Option.isSome_iff_exists.mp hsome
      exact ⟨htried, exhausted_of_some hq⟩
    | none =>
      have hstarts : ∀ r, env.findRouter = some r → firstStarts env r := by
        intro r hr
        simpa [allows, hpeer, hr] using hallows
      have hready : Ready env (l.insertPeer (l.newPeer env)) (l.newPeer env) :=
        { idle := ⟨h.idle.live, fun _ hq => Option.some.inj hq ▸ rfl⟩
          peer := rfl
          numAttempts_le := Nat.zero_le 2
          first := fun _ => hstarts
          second := fun hone => by cases hone
          third := fun htwo => by cases htwo }
      obtain ⟨htried, hexhausted⟩ := hready.connectToPeer hservers
      simp only
      split
      next l' heq =>
        rw [heq] at htried hexhausted
        split
        next p hp =>
          obtain ⟨hdeliver, hsome⟩ := htried.deliver hp (List.range' l.posted count)
            ((l'.deliver p (List.range' l.posted count)).posted + count)
          obtain ⟨q, hq⟩ := Option.isSome_iff_exists.mp hsome
          exact ⟨hdeliver, exhausted_of_some hq⟩
        · exact ⟨htried.post _, hexhausted⟩
      next l' connect hne heq =>
        rw [heq] at htried hexhausted
        exact ⟨htried.post _, hexhausted⟩
  refine ⟨hgoal.1, fun hremoves env' r henv hrouter => ?_⟩
  obtain rfl := Option.some.inj henv
  exact hgoal.2 hremoves.1 r hrouter

/-- A call for a router without a peer removes none, unless messages are posted. -/
theorem fallsBack_of_none (hpeer : l.peer = none) {op : Op}
    (hop : ∀ env count, op ≠ .postMessages env count) : l.FallsBack op := by
  rintro ⟨-, hsome | ⟨env, count, heq⟩⟩
  · simp [hpeer] at hsome
  · exact absurd heq (hop env count)

/-- A call after which connecting has failed on all transports if there is no peer. -/
theorem fallsBack_of_exhausted {op : Op} {env : Env} (henv : op.attempt? = some env)
    {router : Option ℕ} (hrouter : l.routerOf op = router)
    (hexhausted : Exhausted env router (l.step op)) : l.FallsBack op := by
  rintro ⟨hnone, -⟩ env' r henv' hr
  obtain rfl := Option.some.inj (henv.symm.trans henv')
  exact hexhausted hnone r (hrouter ▸ hr)

theorem handleRequestComplete (h : l.Tried) {env : Env} {r : ℕ}
    (hservers : env.hasNTCPServer && env.hasSSUServer)
    (hallows : l.allows (.handleRequestComplete env (some r))) :
    (l.step (.handleRequestComplete env (some r))).Tried ∧
      l.FallsBack (.handleRequestComplete env (some r)) := by
  cases hpeer : l.peer with
  | none =>
    have hstep : l.step (.handleRequestComplete env (some r)) = l := by
      simp [step, Link.handleRequestComplete, hpeer]
    rw [hstep]
    exact ⟨h, fallsBack_of_none hpeer fun _ _ heq => by cases heq⟩
  | some p =>
    obtain ⟨hzero, hstarts⟩ : p.numAttempts = 0 ∧ firstStarts env r = true := by
      simpa [allows, hpeer] using hallows
    have hready : Ready env (l.setPeer { p with router := some r }) { p with router := some r } :=
      { idle := h.idle.setPeer (h.idle.sessions p hpeer)
        peer := rfl
        numAttempts_le := h.numAttempts_le p hpeer
        first := fun _ r' hr' => Option.some.inj hr' ▸ hstarts
        second := fun hone => by cases hzero.symm.trans hone
        third := fun htwo => by cases hzero.symm.trans htwo }
    have hstep : l.step (.handleRequestComplete env (some r)) =
        ((l.setPeer { p with router := some r }).connectToPeer env { p with router := some r }).1 := by
      simp [step, Link.handleRequestComplete, hpeer]
    obtain ⟨htried, hexhausted⟩ := hready.connectToPeer hservers
    exact ⟨hstep ▸ htried, fallsBack_of_exhausted rfl rfl (hstep ▸ hexhausted)⟩

theorem handleNTCPResolve (h : l.Tried) {env : Env} {ok : Bool}
    (hallows : l.allows (.handleNTCPResolve env ok)) :
    (l.step (.handleNTCPResolve env ok)).Tried ∧ l.FallsBack (.handleNTCPResolve env ok) := by
  cases hpeer : l.peer with
  | none =>
    have hstep : l.step (.handleNTCPResolve env ok) = l := by
      simp [step, Link.handleNTCPResolve, hpeer]
    rw [hstep]
    exact ⟨h, fallsBack_of_none hpeer fun _ _ heq => by cases heq⟩
  | some p =>
    by_cases hresolved : resolved env p ok = true
    · have hstep : l.step (.handleNTCPResolve env ok) = l := by
        simp [step, Link.handleNTCPResolve, hpeer, hresolved]
      refine ⟨by rwa [hstep], fallsBack_of_exhausted rfl rfl ?_⟩
      rw [hstep]
      exact exhausted_of_some hpeer
    · have hstep : l.step (.handleNTCPResolve env ok) = l.removePeer (some .ntcp) := by
        simp [step, Link.handleNTCPResolve, hpeer, hresolved]
      refine ⟨hstep ▸ tried_of_none (h.idle.removePeer _) rfl, fallsBack_of_exhausted rfl rfl ?_⟩
      rw [hstep]
      intro _ r hr t ht hsupports
      -- NTCP has failed now, and there is no SSU address
      have hnone : supports env (env.routers r) .ssu = false := by
        have hr : p.router = some r := by simpa [routerOf, hpeer] using hr
        simpa [allows, hpeer, hresolved, hr] using hallows
      rcases List.mem_pair.mp ht with rfl | rfl
      · simp [Link.removePeer]
      · rw [hnone] at hsupports
        cases hsupports

theorem peerDisconnected (h : l.Tried) {env : Env} {transport : Transport} {session : ℕ}
    (hservers : env.hasNTCPServer && env.hasSSUServer)
    (hallows : l.allows (.peerDisconnected env transport session)) :
    (l.step (.peerDisconnected env transport session)).Tried ∧
      l.FallsBack (.peerDisconnected env transport session) := by
  -- the session was never connected, so connecting has failed on its transport
  let l' : Link := { l with live := [], failures := l.failures ++ [transport] }
  have hidle : l'.Idle := ⟨rfl, h.idle.sessions⟩
  cases hpeer : l.peer with
  | none =>
    have hstep : l.step (.peerDisconnected env transport session) = l' := by
      simp [step, Link.peerDisconnected, h.idle.live, hpeer, l']
    rw [hstep]
    exact ⟨tried_of_none hidle hpeer, fallsBack_of_none hpeer fun _ _ heq => by cases heq⟩
  | some p =>
    obtain ⟨hdelayed, hlast⟩ : p.delayedMessages ≠ [] ∧
        (p.numAttempts = 1 ∧ transport = .ntcp ∨ p.numAttempts = 2 ∧ transport = .ssu) := by
      simpa [allows, hpeer] using hallows
    have hready : Ready env (l'.setPeer { p with sessions := [] }) { p with sessions := [] } :=
      { idle := hidle.setPeer rfl
        peer := rfl
        numAttempts_le := h.numAttempts_le p hpeer
        first := fun hzero => by
          have hzero : p.numAttempts = 0 := hzero
          omega
        second := fun hone => by
          have hone : p.numAttempts = 1 := hone
          obtain rfl : transport = .ntcp := by simpa [hone] using hlast
          exact List.mem_append_right _ (List.mem_singleton_self _)
        third := fun htwo => by
          have htwo : p.numAttempts = 2 := htwo
          obtain rfl : transport = .ssu := by simpa [htwo] using hlast
          exact ⟨List.mem_append_left _ (h.first_failed p hpeer htwo),
            List.mem_append_right _ (List.mem_singleton_self _)⟩ }
    have hstep : l.step (.peerDisconnected env transport session) =
        ((l'.setPeer { p with sessions := [] }).connectToPeer env { p with sessions := [] }).1 := by
      simp [step, Link.peerDisconnected, h.idle.live, h.idle.sessions p hpeer, hpeer, hdelayed, l']
    have hrouter : l.routerOf (.peerDisconnected env transport session) = p.router := by
      simp [routerOf, hpeer]
    obtain ⟨htried, hexhausted⟩ := hready.connectToPeer hservers
    refine ⟨by rwa [hstep], fallsBack_of_exhausted rfl hrouter ?_⟩
    rw [hstep]
    exact hexhausted

end Tried

/-- An allowed attempt keeps what is known, and falls back. -/
theorem tried_step {l : Link} (h : l.Tried) {op : Op} (hattempt : op.isAttempt)
    (hallows : l.allows op) : (l.step op).Tried ∧ l.FallsBack op := by
  cases op with
  | postMessages env count => exact h.postMessages hattempt hallows
  | handleRequestComplete env router =>
    cases router with
    | none => cases hattempt
    | some r => exact h.handleRequestComplete hattempt hallows
  | handleNTCPResolve env ok => exact h.handleNTCPResolve hallows
  | peerConnected ts session => cases hattempt
  | peerDisconnected env transport session => exact h.peerDisconnected hattempt hallows
  | handlePeerCleanupTimer ts => cases hattempt

/-- In a run of attempts and failures that are all allowed, a peer is removed only after connecting has
failed on every transport that both sides support. -/
theorem fallback_sound (ops : List Op) (hattempts : ∀ op ∈ ops, op.isAttempt)
    (hallows : Runs.Meets step (fun l op => l.allows op) {} ops) :
    Runs.Meets step FallsBack {} ops := by
  have hmeets := hallows.and_of_forall hattempts
  refine Runs.Meets.of_invariant (I := Tried) ?_ ?_ (tried_of_none idle_init rfl) hmeets
  · exact fun l op h hop => (tried_step h hop.2 hop.1).1
  · exact fun l op h hop => (tried_step h hop.2 hop.1).2

theorem length_exampleAddress : ([10, 0, 0, 1] : List UInt8).length = 4 := rfl

/-- A router with an address for each of the transports. -/
def exampleRouter (transports : List Transport) : Env :=
  let host : SSU.IPAddress := .v4 ⟨[10, 0, 0, 1], length_exampleAddress⟩
  { exampleEnv with
    routers := fun _ => { addresses := transports.map fun transport => { transport, host } }
    findRouter := some 0 }

/-- NTCP and then SSU fail. -/
def bothFail : List Op :=
  let env := exampleRouter [.ntcp, .ssu]
  [.postMessages env 1, .peerDisconnected env .ntcp 3, .peerDisconnected env .ssu 4]

theorem fallback_sound_bothFail :
    Runs.Meets step FallsBack {} bothFail ∧ (Runs.exec step {} bothFail).peer.isNone :=
  ⟨fallback_sound bothFail (by decide +kernel) (by decide +kernel), by decide +kernel⟩

/-- The router has an address for SSU only. -/
theorem not_fallsBack_ssuOnly :
    ¬∀ ops : List Op, (∀ op ∈ ops, op.isAttempt) → Runs.Meets step FallsBack {} ops := by
  intro h
  obtain ⟨hfallsBack, -⟩ := h [.postMessages (exampleRouter [.ssu]) 1] (by decide +kernel)
  have hremoves : Removes {} (.postMessages (exampleRouter [.ssu]) 1) :=
    ⟨Option.isNone_iff_eq_none.mp (by decide +kernel), .inr ⟨_, _, rfl⟩⟩
  have hfailed := hfallsBack hremoves (exampleRouter [.ssu]) 0 rfl rfl .ssu (by decide)
    (by decide +kernel)
  exact absurd hfailed (by decide +kernel)

end Link

end Transports
