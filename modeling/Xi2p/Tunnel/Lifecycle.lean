import Xi2p.Tunnel.Pool

/-!
# States of tunnels

What `Tunnels` of `core/router/tunnel/impl.cc`, the tunnel pools and incoming messages do to the
states of tunnels. `ManageInboundTunnels` and `ManageOutboundTunnels` remove tunnels after their
lifetime and set established tunnels to expiring shortly before, `TestTunnels` and
`ProcessDeliveryStatus` of every pool set tunnels to test failed, failed and established, and a
message for a failed inbound tunnel sets it to established.

New tunnels are pending; that one is built changes no other tunnel, so it is no step here.

* `Tunnels.Invariant`: a tunnel is in its own pool only, and tests are of tunnels that have not
  failed.
* `Tunnels.lifecycle`: what can happen to an expiring tunnel and to a failed one.
-/

namespace Tunnel

/-! ## State and steps -/

/-- `TUNNEL_EXPIRATION_TIMEOUT`: 11 minutes. -/
abbrev tunnelExpirationTimeout : UInt64 := 660

/-- `TUNNEL_EXPIRATION_THRESHOLD`: 1 minute. -/
abbrev tunnelExpirationThreshold : UInt64 := 60

/-- `TUNNEL_RECREATION_THRESHOLD`: 1.5 minutes. -/
abbrev tunnelRecreationThreshold : UInt64 := 90

/-- `Tunnels`, with all pools and tunnels. -/
structure Tunnels (P O I : Type) where
  /-- The fields of every tunnel. -/
  fields : O ⊕ I → TunnelFields P
  /-- `m_OutboundTunnels`. -/
  outboundTunnels : List O
  /-- `m_InboundTunnels`, in the order of the map. -/
  inboundTunnels : List I
  /-- The pools. -/
  pools : P → TunnelPool O I

variable {P O I : Type} [DecidableEq P] [LinearOrder O] [LinearOrder I]

namespace Tunnels

/-- Before a tunnel has been built. The pool of a tunnel is set when its build starts. -/
def init (pool : O ⊕ I → Option P) : Tunnels P O I where
  fields t := ⟨.pending, false, pool t⟩
  outboundTunnels := []
  inboundTunnels := []
  pools _ := TunnelPool.init

/-- A change of the fields of a tunnel. -/
def modifyFields (s : Tunnels P O I) (t : O ⊕ I) (f : TunnelFields P → TunnelFields P) :
    Tunnels P O I :=
  { s with fields := Function.update s.fields t (f (s.fields t)) }

/-- `SetState`. -/
def setState (s : Tunnels P O I) (t : O ⊕ I) (state : TunnelState) : Tunnels P O I :=
  s.modifyFields t fun fields => { fields with state }

/-- The tunnels and one of the pools. -/
def poolState (s : Tunnels P O I) (p : P) : PoolState P O I :=
  ⟨s.fields, s.pools p⟩

/-- What is left by a call on a pool. -/
def setPoolState (s : Tunnels P O I) (p : P) (r : PoolState P O I) : Tunnels P O I :=
  { s with fields := r.fields, pools := Function.update s.pools p r.pool }

/-- `AddOutboundTunnel` and `AddInboundTunnel`: into the list, or the map by tunnel ID. -/
def addTunnel (tunnelID : I → UInt32) (s : Tunnels P O I) : O ⊕ I → Tunnels P O I
  | .inl t => { s with outboundTunnels := s.outboundTunnels ++ [t] }
  | .inr t =>
    let others := s.inboundTunnels.filter (tunnelID · ≠ tunnelID t)
    { s with inboundTunnels := KeyedSet.insert (fun t => (tunnelID t).toNat) t others }

/-- The positive reply to the build of a tunnel: `GetPendingInboundTunnel` or
`GetPendingOutboundTunnel` finds it, it is established and added, also to its pool. -/
def tunnelBuilt (creationTime : O ⊕ I → UInt64) (tunnelID : I → UInt32) (s : Tunnels P O I)
    (t : O ⊕ I) : Tunnels P O I :=
  if (s.fields t).state = .pending then
    let s := (s.setState t .established).addTunnel tunnelID t
    match (s.fields t).pool with
    | none => s
    | some p =>
      if (s.pools p).isActive then s.setPoolState p ((s.poolState p).tunnelCreated creationTime t)
      else s.modifyFields t fun fields => { fields with pool := none }
  else s

/-- The negative reply. -/
def tunnelDeclined (s : Tunnels P O I) (t : O ⊕ I) : Tunnels P O I :=
  if (s.fields t).state = .pending then s.setState t .buildFailed else s

/-- The lifetime of a tunnel is over. -/
def isExpired (creationTime : O ⊕ I → UInt64) (ts : UInt64) (t : O ⊕ I) : Bool :=
  ts > creationTime t + tunnelExpirationTimeout

/-- What `ManageOutboundTunnels` and `ManageInboundTunnels` do for a tunnel. -/
def manageTunnel (creationTime : O ⊕ I → UInt64) (ts : UInt64) (s : Tunnels P O I) (t : O ⊕ I) :
    Tunnels P O I :=
  if isExpired creationTime ts t then
    match (s.fields t).pool with
    | none => s
    | some p => s.setPoolState p ((s.poolState p).tunnelExpired t)
  else if (s.fields t).state = .established then
    let s :=
      if (s.fields t).isRecreated = false ∧
          ts + tunnelRecreationThreshold > creationTime t + tunnelExpirationTimeout then
        -- and the pool starts to build another tunnel
        s.modifyFields t fun fields => { fields with isRecreated := true }
      else s
    if ts + tunnelExpirationThreshold > creationTime t + tunnelExpirationTimeout then
      s.setState t .expiring
    else s
  else s

/-- `ManageOutboundTunnels`. -/
def manageOutboundTunnels (creationTime : O ⊕ I → UInt64) (ts : UInt64) (s : Tunnels P O I) :
    Tunnels P O I :=
  let s' := (s.outboundTunnels.map .inl).foldl (manageTunnel creationTime ts) s
  { s' with outboundTunnels :=
      s.outboundTunnels.filter fun t => !isExpired creationTime ts (.inl t) }

/-- `ManageInboundTunnels`. -/
def manageInboundTunnels (creationTime : O ⊕ I → UInt64) (ts : UInt64) (s : Tunnels P O I) :
    Tunnels P O I :=
  let s' := (s.inboundTunnels.map .inr).foldl (manageTunnel creationTime ts) s
  { s' with inboundTunnels :=
      s.inboundTunnels.filter fun t => !isExpired creationTime ts (.inr t) }

/-- The state after `InboundTunnel::HandleTunnelDataMsg`. -/
def handleTunnelDataMsg (s : Tunnels P O I) (t : I) : Tunnels P O I :=
  -- incoming messages means a tunnel is alive
  if (s.fields (.inr t)).state = .failed then s.setState (.inr t) .established else s

/-- `StopTunnelPool`. -/
def stopTunnelPool (s : Tunnels P O I) (p : P) : Tunnels P O I :=
  let r := s.poolState p
  s.setPoolState p { r with pool := { r.pool with isActive := false } }.detachTunnels

/-- A step. -/
inductive Op (P O I : Type)
  | tunnelBuilt (t : O ⊕ I)
  | tunnelDeclined (t : O ⊕ I)
  | manageOutboundTunnels (ts : UInt64)
  | manageInboundTunnels (ts : UInt64)
  | testTunnels (p : P) (random : ℕ → UInt32)
  | processDeliveryStatus (p : P) (msgID : UInt32)
  | handleTunnelDataMsg (t : I)
  | stopTunnelPool (p : P)

/-- One step; `none` once null has been dereferenced. `ManageTunnelPools` tests active pools only. -/
def step (creationTime : O ⊕ I → UInt64) (tunnelID : I → UInt32) (s : Option (Tunnels P O I))
    (op : Op P O I) : Option (Tunnels P O I) :=
  s.bind fun s =>
    match op with
    | .tunnelBuilt t => some (s.tunnelBuilt creationTime tunnelID t)
    | .tunnelDeclined t => some (s.tunnelDeclined t)
    | .manageOutboundTunnels ts => some (s.manageOutboundTunnels creationTime ts)
    | .manageInboundTunnels ts => some (s.manageInboundTunnels creationTime ts)
    | .testTunnels p random =>
      some (if (s.pools p).isActive then s.setPoolState p ((s.poolState p).testTunnels random)
        else s)
    | .processDeliveryStatus p msgID =>
      ((s.poolState p).processDeliveryStatus msgID).map (s.setPoolState p)
    | .handleTunnelDataMsg t => some (s.handleTunnelDataMsg t)
    | .stopTunnelPool p => some (s.stopTunnelPool p)

end Tunnels

/-! ## Steps of a pool -/

namespace PoolState

omit [DecidableEq P]

/-- What happens to tunnels that are taken for failed: only these are changed, and tunnels may be
removed from the pool. -/
structure Fails (failing : List (O ⊕ I)) (s s' : PoolState P O I) : Prop where
  fields : ∀ t ∉ failing, s'.fields t = s.fields t
  poolField : ∀ t, (s'.fields t).pool = (s.fields t).pool
  holds : ∀ t, s'.pool.Holds t → s.pool.Holds t
  isActive : s'.pool.isActive = s.pool.isActive

theorem fails_failTunnel (s : PoolState P O I) (t : O ⊕ I) : Fails [t] s (s.failTunnel t) := by
  have hfields (state : TunnelState) : ∀ t' ∉ [t], (s.setState t state).fields t' = s.fields t' := by
    intro t' ht'
    exact Function.update_of_ne (List.ne_of_not_mem_cons ht') _ _
  have hpool (state : TunnelState) (t' : O ⊕ I) :
      ((s.setState t state).fields t').pool = (s.fields t').pool := by
    by_cases ht' : t' = t
    · subst ht'
      simp [setState]
    · simp [setState, ht']
  unfold failTunnel
  split
  · exact ⟨hfields _, hpool _, fun t' ht' => (TunnelPool.holds_erase_iff.mp ht').1,
      TunnelPool.isActive_erase _ t⟩
  · exact ⟨hfields _, hpool _, fun t' ht' => ht', rfl⟩

omit [LinearOrder O] [LinearOrder I] in
theorem Fails.trans {failing failing' : List (O ⊕ I)} {s s' s'' : PoolState P O I}
    (h : Fails failing s s') (h' : Fails failing' s' s'') : Fails (failing ++ failing') s s'' where
  fields t ht := by
    rw [List.mem_append, not_or] at ht
    exact (h'.fields t ht.2).trans (h.fields t ht.1)
  poolField t := (h'.poolField t).trans (h.poolField t)
  holds t ht := h.holds t (h'.holds t ht)
  isActive := h'.isActive.trans h.isActive

theorem fails_foldl_failTunnel (s : PoolState P O I) (failing : List (O ⊕ I)) :
    Fails failing s (failing.foldl failTunnel s) := by
  induction failing generalizing s with
  | nil => exact ⟨fun _ _ => rfl, fun _ => rfl, fun _ h => h, rfl⟩
  | cons t failing ih => exact (fails_failTunnel s t).trans (ih _)

/-- `TestTunnels` changes the tunnels of the tests. -/
theorem fails_testTunnels (random : ℕ → UInt32) (s : PoolState P O I) :
    Fails s.pool.tested s (s.testTunnels random) := by
  have hloop : s.pool.tests.foldl failTest s = s.pool.tested.foldl failTunnel s :=
    (List.foldl_flatMap ..).symm
  obtain ⟨hfields, hpool, hholds, hactive⟩ := hloop ▸ fails_foldl_failTunnel s s.pool.tested
  exact ⟨hfields, hpool, hholds, hactive⟩

/-- The new tests are for tunnels that have not failed. -/
theorem state_ne_failed_of_mem_tested_testTunnels {random : ℕ → UInt32} {s : PoolState P O I}
    {t : O ⊕ I} (ht : t ∈ (s.testTunnels random).pool.tested) :
    ((s.testTunnels random).fields t).state ≠ .failed := by
  obtain ⟨test, htest, ht⟩ := TunnelPool.mem_tested_iff.mp ht
  obtain ⟨t₁, -, t₂, -, h₁, h₂, hfailed₁, hfailed₂⟩ :=
    (TunnelPool.mem_or_isNewTest_of_mem_newTests htest).resolve_left List.not_mem_nil
  obtain rfl | rfl := (TunnelPool.mem_tunnels_iff h₁ h₂).mp ht
  · exact beq_eq_false_iff_ne.mp hfailed₁
  · exact beq_eq_false_iff_ne.mp hfailed₂

/-- What happens to tunnels of an answered test: test failed is set back to established. -/
structure Restores (s s' : PoolState P O I) : Prop where
  fields : ∀ t, s'.fields t = s.fields t ∨
    (s.fields t).state = .testFailed ∧ s'.fields t = { s.fields t with state := .established }
  holds : ∀ t, s'.pool.Holds t → s.pool.Holds t
  tests : s'.pool.tests ⊆ s.pool.tests
  isActive : s'.pool.isActive = s.pool.isActive

theorem restores_restoreTunnel (s : PoolState P O I) (t : O ⊕ I) :
    Restores s (s.restoreTunnel t) where
  fields t' := by
    unfold restoreTunnel
    split
    next htest =>
      by_cases ht' : t' = t
      · subst ht'
        exact .inr ⟨htest, by simp [setState]⟩
      · exact .inl (Function.update_of_ne ht' _ _)
    · exact .inl rfl
  holds t' ht' := by rwa [restoreTunnel_pool] at ht'
  tests := by
    rw [restoreTunnel_pool]
    exact List.Subset.refl _
  isActive := by rw [restoreTunnel_pool]

omit [LinearOrder O] [LinearOrder I] in
theorem Restores.trans {s s' s'' : PoolState P O I} (h : Restores s s') (h' : Restores s' s'') :
    Restores s s'' where
  fields t := by
    obtain heq' | ⟨htest', heq'⟩ := h'.fields t
    · rw [heq']
      exact h.fields t
    · obtain heq | ⟨-, heq⟩ := h.fields t
      · rw [heq] at htest' heq'
        exact .inr ⟨htest', heq'⟩
      · -- an established tunnel is not restored again
        rw [heq] at htest'
        cases htest'
  holds t ht := h.holds t (h'.holds t ht)
  tests := List.Subset.trans h'.tests h.tests
  isActive := h'.isActive.trans h.isActive

theorem exists_restores {s : PoolState P O I}
    (hnull : ∀ test ∈ s.pool.tests, ∃ t₁ t₂, test.outbound = some t₁ ∧ test.inbound = some t₂)
    (msgID : UInt32) : ∃ s', s.processDeliveryStatus msgID = some s' ∧ Restores s s' := by
  unfold processDeliveryStatus
  split
  · exact ⟨s, rfl, fun _ => .inl rfl, fun _ h => h, List.Subset.refl _, rfl⟩
  next test htest =>
    obtain ⟨t₁, t₂, h₁, h₂⟩ := hnull test (List.mem_of_find?_eq_some htest)
    rw [h₁, h₂]
    have hrestores := (restores_restoreTunnel s (.inl t₁)).trans (restores_restoreTunnel _ (.inr t₂))
    exact ⟨_, rfl, hrestores.fields, hrestores.holds,
      List.Subset.trans (List.filter_subset_self _) hrestores.tests, hrestores.isActive⟩

theorem detachTunnels_fields (s : PoolState P O I) (t : O ⊕ I) :
    s.detachTunnels.fields t = s.fields t ∨
      s.pool.Holds t ∧ s.detachTunnels.fields t = { s.fields t with pool := none } := by
  by_cases ht : s.pool.Holds t
  · exact .inr ⟨ht, if_pos ht⟩
  · exact .inl (if_neg ht)

theorem detachTunnels_state (s : PoolState P O I) (t : O ⊕ I) :
    (s.detachTunnels.fields t).state = (s.fields t).state := by
  obtain heq | ⟨-, heq⟩ := s.detachTunnels_fields t <;> rw [heq]

theorem tunnelExpired_state (s : PoolState P O I) (t t' : O ⊕ I) :
    ((s.tunnelExpired t).fields t').state = (s.fields t').state := by
  by_cases hne : t' = t
  · subst hne
    simp [tunnelExpired, unsetTunnelPool]
  · simp [tunnelExpired, unsetTunnelPool, hne]

end PoolState

/-! ## The invariant -/

namespace Tunnels

/-- A tunnel is in its own pool only and is tested by one pool only; tests are of two tunnels that
have not failed; a stopped pool is empty. -/
structure Invariant (s : Tunnels P O I) : Prop where
  pool_of_holds : ∀ p t, (s.pools p).Holds t → (s.fields t).pool = some p
  eq_of_tested : ∀ p, ∀ t ∈ (s.pools p).tested, ∀ q, (s.fields t).pool = some q → q = p
  tested_inj : ∀ p q t, t ∈ (s.pools p).tested → t ∈ (s.pools q).tested → p = q
  nonNull : ∀ p, ∀ test ∈ (s.pools p).tests,
    ∃ t₁ t₂, test.outbound = some t₁ ∧ test.inbound = some t₂
  notFailed : ∀ p, ∀ t ∈ (s.pools p).tested, (s.fields t).state ≠ .failed
  inactive : ∀ p, (s.pools p).isActive = false → ∀ t, ¬ (s.pools p).Holds t

/-- What a call on the pool `p` may do for the invariant to be kept. -/
structure PoolChange (p : P) (s s' : PoolState P O I) : Prop where
  /-- Tunnels are taken out of the pool only. -/
  poolField : ∀ t, (s'.fields t).pool = (s.fields t).pool ∨
    (s.fields t).pool = some p ∧ (s'.fields t).pool = none ∧ ¬ s'.pool.Holds t
  holds : ∀ t, s'.pool.Holds t → s.pool.Holds t ∨ (s.fields t).pool = some p
  /-- Tests are of tunnels of the pool. -/
  tested : ∀ t ∈ s'.pool.tested, t ∈ s.pool.tested ∨ s.pool.Holds t
  nonNull : ∀ test ∈ s'.pool.tests, ∃ t₁ t₂, test.outbound = some t₁ ∧ test.inbound = some t₂
  notFailed : ∀ t ∈ s'.pool.tested, (s'.fields t).state ≠ .failed
  /-- Only tunnels of a test fail. -/
  failed : ∀ t, (s'.fields t).state = .failed → (s.fields t).state = .failed ∨ t ∈ s.pool.tested
  inactive : s'.pool.isActive = false → ∀ t, ¬ s'.pool.Holds t

omit [DecidableEq P] [LinearOrder O] [LinearOrder I] in
theorem invariant_init (pool : O ⊕ I → Option P) : (init pool).Invariant where
  pool_of_holds p t h := by cases t <;> cases h
  eq_of_tested _ _ h := by cases h
  tested_inj _ _ _ h := by cases h
  nonNull _ _ h := by cases h
  notFailed _ _ h := by cases h
  inactive _ h := by cases h

omit [LinearOrder O] [LinearOrder I] in
theorem pools_setPoolState (s : Tunnels P O I) (p : P) (r : PoolState P O I) (p' : P) :
    p' = p ∧ (s.setPoolState p r).pools p' = r.pool ∨
      p' ≠ p ∧ (s.setPoolState p r).pools p' = s.pools p' := by
  by_cases hp : p' = p
  · subst hp
    exact .inl ⟨rfl, Function.update_self ..⟩
  · exact .inr ⟨hp, Function.update_of_ne hp _ _⟩

omit [LinearOrder O] [LinearOrder I] in
/-- Where a test of a tunnel comes from after a call on a pool. -/
theorem tested_or_holds_of_mem_tested {s : Tunnels P O I} {p p' : P} {r : PoolState P O I}
    (hr : PoolChange p (s.poolState p) r) {t : O ⊕ I}
    (ht : t ∈ ((s.setPoolState p r).pools p').tested) :
    t ∈ (s.pools p').tested ∨ p' = p ∧ (s.pools p).Holds t := by
  obtain ⟨rfl, hpools⟩ | ⟨-, hpools⟩ := pools_setPoolState s p r p'
  · rw [hpools] at ht
    exact (hr.tested t ht).imp_right fun hholds => ⟨rfl, hholds⟩
  · rw [hpools] at ht
    exact .inl ht

omit [LinearOrder O] [LinearOrder I] in
/-- Calls on a pool keep the invariant. Other pools hold none of its tunnels, and test none. -/
theorem Invariant.setPoolState {s : Tunnels P O I} (h : s.Invariant) {p : P} {r : PoolState P O I}
    (hr : PoolChange p (s.poolState p) r) : (s.setPoolState p r).Invariant where
  pool_of_holds p' t ht := by
    obtain ⟨rfl, hpools⟩ | ⟨hp, hpools⟩ := pools_setPoolState s p r p'
    · rw [hpools] at ht
      have hpool : (s.fields t).pool = some p' := (hr.holds t ht).elim (h.pool_of_holds p' t) id
      obtain heq | ⟨-, -, hnot⟩ := hr.poolField t
      · exact heq.trans hpool
      · exact absurd ht hnot
    · rw [hpools] at ht
      have hpool := h.pool_of_holds p' t ht
      obtain heq | ⟨hmine, -⟩ := hr.poolField t
      · exact heq.trans hpool
      · exact absurd (Option.some.inj (hpool.symm.trans hmine)) hp
  eq_of_tested p' t ht q hq := by
    have hpool : (s.fields t).pool = some q := by
      obtain heq | ⟨-, hnone, -⟩ := hr.poolField t
      · exact heq.symm.trans hq
      · exact absurd (hnone.symm.trans hq) (Option.some_ne_none q).symm
    obtain ht | ⟨rfl, hholds⟩ := tested_or_holds_of_mem_tested hr ht
    · exact h.eq_of_tested p' t ht q hpool
    · exact Option.some.inj (hpool.symm.trans (h.pool_of_holds p' t hholds))
  tested_inj p₁ p₂ t h₁ h₂ := by
    obtain ht₁ | ⟨hp₁, ht₁⟩ := tested_or_holds_of_mem_tested hr h₁ <;>
      obtain ht₂ | ⟨hp₂, ht₂⟩ := tested_or_holds_of_mem_tested hr h₂
    · exact h.tested_inj p₁ p₂ t ht₁ ht₂
    · exact hp₂ ▸ (h.eq_of_tested p₁ t ht₁ p (h.pool_of_holds p t ht₂)).symm
    · exact hp₁ ▸ h.eq_of_tested p₂ t ht₂ p (h.pool_of_holds p t ht₁)
    · exact hp₁.trans hp₂.symm
  nonNull p' test htest := by
    obtain ⟨rfl, hpools⟩ | ⟨hp, hpools⟩ := pools_setPoolState s p r p'
    · rw [hpools] at htest
      exact hr.nonNull test htest
    · rw [hpools] at htest
      exact h.nonNull p' test htest
  notFailed p' t ht hfailed := by
    obtain ⟨rfl, hpools⟩ | ⟨hp, hpools⟩ := pools_setPoolState s p r p'
    · rw [hpools] at ht
      exact hr.notFailed t ht hfailed
    · rw [hpools] at ht
      obtain hfailed | htested := hr.failed t hfailed
      · exact h.notFailed p' t ht hfailed
      · exact hp (h.tested_inj p' p t ht htested)
  inactive p' hactive := by
    obtain ⟨rfl, hpools⟩ | ⟨hp, hpools⟩ := pools_setPoolState s p r p'
    · rw [hpools] at hactive ⊢
      exact hr.inactive hactive
    · rw [hpools] at hactive ⊢
      exact h.inactive p' hactive

omit [DecidableEq P] in
/-- A change of a tunnel that is not a failure keeps the invariant. A tunnel that is in no pool may
lose its pool. -/
theorem Invariant.modifyFields {s : Tunnels P O I} (h : s.Invariant) {t : O ⊕ I}
    {f : TunnelFields P → TunnelFields P}
    (hpool : (f (s.fields t)).pool = (s.fields t).pool ∨
      (f (s.fields t)).pool = none ∧ ∀ p, ¬ (s.pools p).Holds t)
    (hstate : (f (s.fields t)).state = .failed → (s.fields t).state = .failed) :
    (s.modifyFields t f).Invariant := by
  have hself : (s.modifyFields t f).fields t = f (s.fields t) := Function.update_self ..
  have hother {t' : O ⊕ I} (ht' : t' ≠ t) : (s.modifyFields t f).fields t' = s.fields t' :=
    Function.update_of_ne ht' _ _
  constructor
  · intro p t' ht'
    rw [← h.pool_of_holds p t' ht']
    by_cases heq : t' = t
    · subst heq
      rw [hself]
      exact hpool.resolve_right fun hnone => hnone.2 p ht'
    · rw [hother heq]
  · intro p t' ht' q hq
    refine h.eq_of_tested p t' ht' q ?_
    by_cases heq : t' = t
    · subst heq
      rw [hself] at hq
      obtain hsame | ⟨hnone, -⟩ := hpool
      · exact hsame.symm.trans hq
      · exact absurd (hnone.symm.trans hq) (Option.some_ne_none q).symm
    · rwa [hother heq] at hq
  · exact h.tested_inj
  · exact h.nonNull
  · intro p t' ht' hfailed
    refine h.notFailed p t' ht' ?_
    by_cases heq : t' = t
    · subst heq
      rw [hself] at hfailed
      exact hstate hfailed
    · rwa [hother heq] at hfailed
  · exact h.inactive

/-! ## Steps keep the invariant -/

omit [DecidableEq P] in
/-- A tunnel of a pool joins it. -/
theorem poolChange_tunnelCreated (creationTime : O ⊕ I → UInt64) {s : Tunnels P O I}
    (h : s.Invariant) {p : P} {t : O ⊕ I} (ht : (s.fields t).pool = some p) :
    PoolChange p (s.poolState p) ((s.poolState p).tunnelCreated creationTime t) := by
  unfold PoolState.tunnelCreated
  split
  · constructor
    · exact fun _ => .inl rfl
    · intro t' ht'
      by_cases hne : t' = t
      · exact .inr (hne ▸ ht)
      · exact .inl (TunnelPool.holds_of_holds_insert ht' hne)
    · intro t' ht'
      rw [TunnelPool.tested, TunnelPool.tests_insert] at ht'
      exact .inl ht'
    · rw [TunnelPool.tests_insert]
      exact h.nonNull p
    · intro t' ht'
      rw [TunnelPool.tested, TunnelPool.tests_insert] at ht'
      exact h.notFailed p t' ht'
    · exact fun _ hfailed => .inl hfailed
    · intro hinactive
      rw [TunnelPool.isActive_insert] at hinactive
      simp_all
  · exact ⟨fun _ => .inl rfl, fun _ => .inl, fun _ => .inl, h.nonNull p, h.notFailed p, fun _ => .inl,
      h.inactive p⟩

omit [DecidableEq P] in
/-- A tunnel of a pool leaves it. -/
theorem poolChange_tunnelExpired {s : Tunnels P O I} (h : s.Invariant) {p : P} {t : O ⊕ I}
    (ht : (s.fields t).pool = some p) :
    PoolChange p (s.poolState p) ((s.poolState p).tunnelExpired t) := by
  have hstate := (s.poolState p).tunnelExpired_state t
  have htests : ((s.poolState p).tunnelExpired t).pool.tests = (s.pools p).tests :=
    TunnelPool.tests_erase _ t
  constructor
  · intro t'
    by_cases hne : t' = t
    · subst hne
      refine .inr ⟨ht, ?_, fun hholds => (TunnelPool.holds_erase_iff.mp hholds).2 rfl⟩
      simp [PoolState.tunnelExpired, PoolState.unsetTunnelPool]
    · left
      simp [PoolState.tunnelExpired, PoolState.unsetTunnelPool, hne]
  · exact fun t' ht' => .inl (TunnelPool.holds_erase_iff.mp ht').1
  · intro t' ht'
    rw [TunnelPool.tested, htests] at ht'
    exact .inl ht'
  · rw [htests]
    exact h.nonNull p
  · intro t' ht'
    rw [TunnelPool.tested, htests] at ht'
    rw [hstate]
    exact h.notFailed p t' ht'
  · intro t' hfailed
    exact .inl ((hstate t').symm.trans hfailed)
  · intro hinactive t' ht'
    have hactive : (s.pools p).isActive = false :=
      (TunnelPool.isActive_erase (s.pools p) t).symm.trans hinactive
    exact h.inactive p hactive t' (TunnelPool.holds_erase_iff.mp ht').1

omit [DecidableEq P] in
theorem poolChange_testTunnels {s : Tunnels P O I} (h : s.Invariant) (p : P) (random : ℕ → UInt32) :
    PoolChange p (s.poolState p) ((s.poolState p).testTunnels random) := by
  have hfails := PoolState.fails_testTunnels random (s.poolState p)
  have hconsistent : ((s.poolState p).testTunnels random).pool.Consistent :=
    TunnelPool.consistent_newTests ..
  constructor
  · exact fun t => .inl (hfails.poolField t)
  · exact fun t ht => .inl (hfails.holds t ht)
  · exact fun t ht => .inr (hfails.holds t (hconsistent.holds t ht))
  · exact hconsistent.nonNull
  · exact fun t ht => PoolState.state_ne_failed_of_mem_tested_testTunnels ht
  · intro t hfailed
    by_cases ht : t ∈ (s.pools p).tested
    · exact .inr ht
    · left
      rw [← hfails.fields t ht]
      exact hfailed
  · intro hinactive t ht
    exact h.inactive p (hfails.isActive.symm.trans hinactive) t (hfails.holds t ht)

omit [DecidableEq P] [LinearOrder O] [LinearOrder I] in
theorem poolChange_of_restores {s : Tunnels P O I} (h : s.Invariant) {p : P} {r : PoolState P O I}
    (hr : PoolState.Restores (s.poolState p) r) : PoolChange p (s.poolState p) r := by
  have htested (t : O ⊕ I) (ht : t ∈ r.pool.tested) : t ∈ (s.pools p).tested := by
    obtain ⟨test, htest, ht⟩ := TunnelPool.mem_tested_iff.mp ht
    exact TunnelPool.mem_tested_iff.mpr ⟨test, hr.tests htest, ht⟩
  have hstate (t : O ⊕ I) (hfailed : (r.fields t).state = .failed) :
      (s.fields t).state = .failed := by
    obtain heq | ⟨-, heq⟩ := hr.fields t
    · exact (congrArg TunnelFields.state heq).symm.trans hfailed
    · rw [heq] at hfailed
      cases hfailed
  constructor
  · intro t
    obtain heq | ⟨-, heq⟩ := hr.fields t
    · exact .inl (congrArg TunnelFields.pool heq)
    · rw [heq]
      exact .inl rfl
  · exact fun t ht => .inl (hr.holds t ht)
  · exact fun t ht => .inl (htested t ht)
  · exact fun test htest => h.nonNull p test (hr.tests htest)
  · exact fun t ht hfailed => h.notFailed p t (htested t ht) (hstate t hfailed)
  · exact fun t hfailed => .inl (hstate t hfailed)
  · intro hinactive t ht
    exact h.inactive p (hr.isActive.symm.trans hinactive) t (hr.holds t ht)

omit [DecidableEq P] in
theorem poolChange_detachTunnels {s : Tunnels P O I} (h : s.Invariant) (p : P) (isActive : Bool) :
    PoolChange p (s.poolState p)
      (PoolState.detachTunnels ⟨s.fields, { s.pools p with isActive }⟩) := by
  have hholds (t : O ⊕ I) :
      ¬ (PoolState.detachTunnels ⟨s.fields, { s.pools p with isActive }⟩).pool.Holds t := by
    cases t <;> exact List.not_mem_nil
  constructor
  · intro t
    obtain heq | ⟨ht, heq⟩ := PoolState.detachTunnels_fields ⟨s.fields, { s.pools p with isActive }⟩ t
    · exact .inl (congrArg TunnelFields.pool heq)
    · refine .inr ⟨h.pool_of_holds p t ?_, congrArg TunnelFields.pool heq, hholds t⟩
      cases t <;> exact ht
  · exact fun t ht => absurd ht (hholds t)
  · intro t ht
    cases ht
  · intro test htest
    cases htest
  · intro t ht
    cases ht
  · intro t hfailed
    rw [PoolState.detachTunnels_state] at hfailed
    exact .inl hfailed
  · exact fun _ => hholds

omit [DecidableEq P] [LinearOrder O] [LinearOrder I] in
theorem Invariant.addTunnel {s : Tunnels P O I} (h : s.Invariant) (tunnelID : I → UInt32)
    (t : O ⊕ I) : (s.addTunnel tunnelID t).Invariant := by
  cases t <;> exact ⟨h.pool_of_holds, h.eq_of_tested, h.tested_inj, h.nonNull, h.notFailed,
    h.inactive⟩

/-! ## Expiring and failed tunnels -/

/-- The states that only tests and incoming messages change. -/
def Settled (state : TunnelState) : Prop := state = .expiring ∨ state = .failed

/-- The invariant, and the states of expiring and of failed tunnels, are kept. -/
structure Keeps (s s' : Tunnels P O I) : Prop where
  invariant : s'.Invariant
  state : ∀ t, Settled (s.fields t).state → (s'.fields t).state = (s.fields t).state

omit [DecidableEq P] [LinearOrder O] [LinearOrder I] in
theorem Keeps.trans {s s' s'' : Tunnels P O I} (h : Keeps s s') (h' : Keeps s' s'') :
    Keeps s s'' where
  invariant := h'.invariant
  state t ht := by
    have hstate := h.state t ht
    exact (h'.state t (hstate ▸ ht)).trans hstate

omit [DecidableEq P] in
theorem keeps_modifyFields {s : Tunnels P O I} (h : s.Invariant) {t : O ⊕ I}
    {f : TunnelFields P → TunnelFields P}
    (hpool : (f (s.fields t)).pool = (s.fields t).pool ∨
      (f (s.fields t)).pool = none ∧ ∀ p, ¬ (s.pools p).Holds t)
    (hfailed : (f (s.fields t)).state = .failed → (s.fields t).state = .failed)
    (hstate : Settled (s.fields t).state → (f (s.fields t)).state = (s.fields t).state) :
    Keeps s (s.modifyFields t f) where
  invariant := h.modifyFields hpool hfailed
  state t' ht' := by
    by_cases heq : t' = t
    · subst heq
      simpa [Tunnels.modifyFields] using hstate ht'
    · simp [Tunnels.modifyFields, heq]

omit [DecidableEq P] in
/-- `SetState` on a tunnel that is neither expiring nor failed. -/
theorem keeps_setState {s : Tunnels P O I} (h : s.Invariant) {t : O ⊕ I} {state : TunnelState}
    (hold : ¬ Settled (s.fields t).state) (hnew : state ≠ .failed) : Keeps s (s.setState t state) :=
  keeps_modifyFields h (.inl rfl) (fun heq => absurd heq hnew) fun ht => absurd ht hold

omit [LinearOrder O] [LinearOrder I] in
theorem keeps_setPoolState {s : Tunnels P O I} (h : s.Invariant) {p : P} {r : PoolState P O I}
    (hr : PoolChange p (s.poolState p) r)
    (hstate : ∀ t, Settled (s.fields t).state → (r.fields t).state = (s.fields t).state) :
    Keeps s (s.setPoolState p r) :=
  ⟨h.setPoolState hr, hstate⟩

theorem keeps_tunnelBuilt (creationTime : O ⊕ I → UInt64) (tunnelID : I → UInt32)
    {s : Tunnels P O I} (h : s.Invariant) (t : O ⊕ I) :
    Keeps s (s.tunnelBuilt creationTime tunnelID t) := by
  unfold tunnelBuilt
  split
  next hpending =>
    have hestablished : Keeps s (s.setState t .established) := by
      refine keeps_setState h ?_ (by decide)
      rw [hpending]
      unfold Settled
      decide
    have hadded : Keeps s ((s.setState t .established).addTunnel tunnelID t) := by
      refine ⟨hestablished.invariant.addTunnel tunnelID t, ?_⟩
      cases t <;> exact hestablished.state
    generalize (s.setState t .established).addTunnel tunnelID t = s' at hadded ⊢
    dsimp only
    split
    · exact hadded
    next p hp =>
      split
      · refine hadded.trans (keeps_setPoolState hadded.invariant
          (poolChange_tunnelCreated creationTime hadded.invariant hp) fun t' _ => ?_)
        unfold PoolState.tunnelCreated
        split <;> rfl
      next hinactive =>
        -- a tunnel of a stopped pool is in no pool
        refine hadded.trans (keeps_modifyFields hadded.invariant (.inr ⟨rfl, ?_⟩) id fun _ => rfl)
        intro q hq
        have hpq : q = p := Option.some.inj ((hadded.invariant.pool_of_holds q t hq).symm.trans hp)
        subst hpq
        exact hadded.invariant.inactive q (by simpa using hinactive) t hq
  · exact ⟨h, fun _ _ => rfl⟩

theorem keeps_manageTunnel (creationTime : O ⊕ I → UInt64) (ts : UInt64) {s : Tunnels P O I}
    (h : s.Invariant) (t : O ⊕ I) : Keeps s (s.manageTunnel creationTime ts t) := by
  have hrefl : Keeps s s := ⟨h, fun _ _ => rfl⟩
  unfold manageTunnel
  split
  · split
    · exact hrefl
    next p hp =>
      exact keeps_setPoolState h (poolChange_tunnelExpired h hp) fun t' _ =>
        PoolState.tunnelExpired_state _ t t'
  · split
    next hestablished =>
      have hrecreated : Keeps s (s.modifyFields t fun fields => { fields with isRecreated := true }) :=
        keeps_modifyFields h (.inl rfl) id fun _ => rfl
      -- an established tunnel may become expiring, before or after it was recreated
      have hexpiring {s' : Tunnels P O I} (hs' : Keeps s s')
          (hstate : (s'.fields t).state = .established) : Keeps s (s'.setState t .expiring) := by
        refine hs'.trans (keeps_setState hs'.invariant ?_ (by decide))
        rw [hstate]
        unfold Settled
        decide
      dsimp only
      split <;> split
      · refine hexpiring hrecreated ?_
        simpa [Tunnels.modifyFields] using hestablished
      · exact hexpiring hrefl hestablished
      · exact hrecreated
      · exact hrefl
    · exact hrefl

theorem keeps_foldl_manageTunnel (creationTime : O ⊕ I → UInt64) (ts : UInt64)
    {s : Tunnels P O I} (h : s.Invariant) (tunnels : List (O ⊕ I)) :
    Keeps s (tunnels.foldl (manageTunnel creationTime ts) s) := by
  induction tunnels generalizing s with
  | nil => exact ⟨h, fun _ _ => rfl⟩
  | cons t tunnels ih =>
    have hmanage := keeps_manageTunnel creationTime ts h t
    exact hmanage.trans (ih hmanage.invariant)

/-- A test of a tunnel is not unanswered when `TestTunnels` runs. -/
def Answered (t : O ⊕ I) (s : Option (Tunnels P O I)) (op : Op P O I) : Prop :=
  ∀ s' p random, s = some s' → op = .testTunnels p random → t ∉ (s'.pools p).tested

/-- The step is not an incoming message for the tunnel. -/
def Silent (t : O ⊕ I) (op : Op P O I) : Prop :=
  ∀ t', t = .inr t' → op ≠ .handleTunnelDataMsg t'

/-- What a step does: the invariant is kept, and so are the states of expiring and of failed tunnels,
unless an unanswered test or an incoming message changes them. -/
theorem exists_step (creationTime : O ⊕ I → UInt64) (tunnelID : I → UInt32) {s : Tunnels P O I}
    (h : s.Invariant) (op : Op P O I) :
    ∃ s', step creationTime tunnelID (some s) op = some s' ∧ s'.Invariant ∧
      ∀ t, Settled (s.fields t).state → Answered t (some s) op →
        ((s.fields t).state = .failed → Silent t op) →
        (s'.fields t).state = (s.fields t).state := by
  have of_keeps {s' : Tunnels P O I} (hstep : step creationTime tunnelID (some s) op = some s')
      (hkeeps : Keeps s s') :
      ∃ s', step creationTime tunnelID (some s) op = some s' ∧ s'.Invariant ∧
        ∀ t, Settled (s.fields t).state → Answered t (some s) op →
          ((s.fields t).state = .failed → Silent t op) →
          (s'.fields t).state = (s.fields t).state :=
    ⟨s', hstep, hkeeps.invariant, fun t ht _ _ => hkeeps.state t ht⟩
  cases op with
  | tunnelBuilt t => exact of_keeps rfl (keeps_tunnelBuilt creationTime tunnelID h t)
  | tunnelDeclined t =>
    refine of_keeps rfl ?_
    unfold tunnelDeclined
    split
    next hpending =>
      refine keeps_setState h ?_ (by decide)
      rw [hpending]
      unfold Settled
      decide
    · exact ⟨h, fun _ _ => rfl⟩
  | manageOutboundTunnels ts =>
    obtain ⟨hinvariant, hstate⟩ :=
      keeps_foldl_manageTunnel creationTime ts h (s.outboundTunnels.map .inl)
    refine of_keeps rfl ⟨?_, hstate⟩
    exact ⟨hinvariant.1, hinvariant.2, hinvariant.3, hinvariant.4, hinvariant.5, hinvariant.6⟩
  | manageInboundTunnels ts =>
    obtain ⟨hinvariant, hstate⟩ :=
      keeps_foldl_manageTunnel creationTime ts h (s.inboundTunnels.map .inr)
    refine of_keeps rfl ⟨?_, hstate⟩
    exact ⟨hinvariant.1, hinvariant.2, hinvariant.3, hinvariant.4, hinvariant.5, hinvariant.6⟩
  | testTunnels p random =>
    by_cases hactive : (s.pools p).isActive
    · refine ⟨_, rfl, ?_, ?_⟩
      · rw [if_pos hactive]
        exact h.setPoolState (poolChange_testTunnels h p random)
      · intro t _ hanswered _
        rw [if_pos hactive]
        have hfields := (PoolState.fails_testTunnels random (s.poolState p)).fields t
          (hanswered s p random rfl rfl)
        exact congrArg TunnelFields.state hfields
    · exact of_keeps (congrArg some (if_neg hactive)) ⟨h, fun _ _ => rfl⟩
  | processDeliveryStatus p msgID =>
    obtain ⟨r, hr, hrestores⟩ := PoolState.exists_restores (s := s.poolState p) (h.nonNull p) msgID
    have hstep : step creationTime tunnelID (some s) (.processDeliveryStatus p msgID) =
        some (s.setPoolState p r) := by simp [step, hr]
    refine of_keeps hstep (keeps_setPoolState h (poolChange_of_restores h hrestores) fun t ht => ?_)
    obtain heq | ⟨htest, -⟩ := hrestores.fields t
    · exact congrArg TunnelFields.state heq
    · -- neither expiring nor failed is test failed
      have htest : (s.fields t).state = .testFailed := htest
      obtain hexpiring | hfailed := ht
      · cases hexpiring.symm.trans htest
      · cases hfailed.symm.trans htest
  | handleTunnelDataMsg t =>
    refine ⟨_, rfl, ?_, ?_⟩
    · unfold handleTunnelDataMsg
      split
      · exact h.modifyFields (.inl rfl) fun heq => by cases heq
      · exact h
    · intro t' ht' _ hsilent
      unfold handleTunnelDataMsg
      split
      next hfailed =>
        by_cases heq : t' = .inr t
        · subst heq
          exact absurd rfl (hsilent hfailed t rfl)
        · simp [setState, modifyFields, heq]
      · rfl
  | stopTunnelPool p =>
    exact of_keeps rfl (keeps_setPoolState h (poolChange_detachTunnels h p false) fun t _ =>
      PoolState.detachTunnels_state _ t)

/-! ## Runs -/

/-- In every run, an expiring tunnel stays expiring as long as `TestTunnels` finds no unanswered test
of it, and a failed tunnel stays failed as long as no message comes in for it. So an outbound tunnel
that has failed is never established again. -/
theorem lifecycle (creationTime : O ⊕ I → UInt64) (tunnelID : I → UInt32) (pool : O ⊕ I → Option P)
    (pre post : List (Op P O I)) :
    ∃ s s', Runs.exec (step creationTime tunnelID) (some (init pool)) pre = some s ∧
      Runs.exec (step creationTime tunnelID) (some s) post = some s' ∧
      ∀ t,
        ((s.fields t).state = .expiring →
          Runs.Meets (step creationTime tunnelID) (Answered t) (some s) post →
          (s'.fields t).state = .expiring) ∧
        ((s.fields t).state = .failed → (∀ op ∈ post, Silent t op) →
          (s'.fields t).state = .failed) := by
  have hreach {s : Tunnels P O I} (h : s.Invariant) (ops : List (Op P O I)) :
      ∃ s', Runs.exec (step creationTime tunnelID) (some s) ops = some s' ∧ s'.Invariant := by
    refine Runs.invariant_exec (I := fun o => ∃ s', o = some s' ∧ s'.Invariant) ?_ ⟨s, rfl, h⟩ ops
    rintro _ op ⟨s, rfl, h⟩
    obtain ⟨s', hs', h', -⟩ := exists_step creationTime tunnelID h op
    exact ⟨s', hs', h'⟩
  obtain ⟨s, hs, h⟩ := hreach (invariant_init pool) pre
  obtain ⟨s', hs', -⟩ := hreach h post
  refine ⟨s, s', hs, hs', fun t => ⟨fun hstate hanswered => ?_, fun hstate hsilent => ?_⟩⟩
  · let InState (o : Option (Tunnels P O I)) : Prop :=
      ∃ s, o = some s ∧ s.Invariant ∧ (s.fields t).state = .expiring
    have hend : InState (Runs.exec (step creationTime tunnelID) (some s) post) := by
      refine Runs.invariant_of_meets ?_ ⟨s, rfl, h, hstate⟩ hanswered
      rintro _ op ⟨s, rfl, h, hstate⟩ hanswered
      obtain ⟨s', hs', h', hkeep⟩ := exists_step creationTime tunnelID h op
      refine ⟨s', hs', h', (hkeep t (.inl hstate) hanswered fun hfailed => ?_).trans hstate⟩
      cases hstate.symm.trans hfailed
    obtain ⟨_, heq, -, hstate'⟩ := hend
    obtain rfl := Option.some.inj (hs'.symm.trans heq)
    exact hstate'
  · let InState (o : Option (Tunnels P O I)) : Prop :=
      ∃ s, o = some s ∧ s.Invariant ∧ (s.fields t).state = .failed
    have hend : InState (Runs.exec (step creationTime tunnelID) (some s) post) := by
      refine Runs.invariant_of_meets ?_ ⟨s, rfl, h, hstate⟩ (Runs.meets_of_forall hsilent)
      rintro _ op ⟨s, rfl, h, hstate⟩ hsilent
      obtain ⟨s', hs', h', hkeep⟩ := exists_step creationTime tunnelID h op
      refine ⟨s', hs', h', (hkeep t (.inr hstate) ?_ fun _ => hsilent).trans hstate⟩
      -- a failed tunnel is in no test
      intro _ p random heq _ htested
      obtain rfl := Option.some.inj heq
      exact h.notFailed p t htested hstate
    obtain ⟨_, heq, -, hstate'⟩ := hend
    obtain rfl := Option.some.inj (hs'.symm.trans heq)
    exact hstate'

/-- A tunnel of a pair is tested and becomes expiring before the test is answered. -/
def expiringRun : List (Op Unit ℕ ℕ) :=
  [.tunnelBuilt (.inl 0), .tunnelBuilt (.inr 0), .testTunnels () fun _ => 7,
    .manageOutboundTunnels 601]

/-- Two tests of a pair are not answered. -/
def failedRun : List (Op Unit ℕ ℕ) :=
  [.tunnelBuilt (.inl 0), .tunnelBuilt (.inr 0), .testTunnels () fun _ => 7,
    .testTunnels () fun _ => 8, .testTunnels () fun _ => 9]

/-- The state of a tunnel after a run of tunnels of one pool that were all created at once. -/
def stateAfter (ops : List (Op Unit ℕ ℕ)) (t : ℕ ⊕ ℕ) : Option TunnelState :=
  (Runs.exec (step (fun _ => 0) fun _ => 1) (some (init fun _ => some ())) ops).map
    fun s => (s.fields t).state

theorem lifecycle_exampleRuns :
    stateAfter (expiringRun ++ [.processDeliveryStatus () 7]) (.inl 0) = some .expiring ∧
      stateAfter (failedRun ++ [.manageInboundTunnels 700]) (.inr 0) = some .failed := by
  constructor
  · obtain ⟨s, s', hs, hs', h⟩ := lifecycle (fun _ => 0) (fun _ => 1) (fun _ => some ()) expiringRun
      [.processDeliveryStatus () 7]
    have hexpiring : stateAfter expiringRun (.inl 0) = some .expiring := by decide +kernel
    rw [stateAfter, hs] at hexpiring
    rw [stateAfter, Runs.exec_append, hs, hs']
    refine congrArg some ((h (.inl 0)).1 (Option.some.inj hexpiring) ⟨?_, trivial⟩)
    intro _ _ _ _ heq
    cases heq
  · obtain ⟨s, s', hs, hs', h⟩ := lifecycle (fun _ => 0) (fun _ => 1) (fun _ => some ()) failedRun
      [.manageInboundTunnels 700]
    have hfailed : stateAfter failedRun (.inr 0) = some .failed := by decide +kernel
    rw [stateAfter, hs] at hfailed
    rw [stateAfter, Runs.exec_append, hs, hs']
    refine congrArg some ((h (.inr 0)).2 (Option.some.inj hfailed) ?_)
    intro op hop t' _
    rw [List.mem_singleton.mp hop]
    intro heq
    cases heq

/-- Expiring and failed tunnels are never established again. -/
def Monotone (creationTime : O ⊕ I → UInt64) (tunnelID : I → UInt32) (pool : O ⊕ I → Option P)
    (pre post : List (Op P O I)) : Prop :=
  ∀ s s', Runs.exec (step creationTime tunnelID) (some (init pool)) pre = some s →
    Runs.exec (step creationTime tunnelID) (some s) post = some s' →
    ∀ t, Settled (s.fields t).state → (s'.fields t).state ≠ .established

theorem not_monotone_of_stateAfter {pre post : List (Op Unit ℕ ℕ)} {t : ℕ ⊕ ℕ}
    {state : TunnelState} (hpre : stateAfter pre t = some state) (hsettled : Settled state)
    (hpost : stateAfter (pre ++ post) t = some .established) :
    ¬ Monotone (fun _ => 0) (fun _ => 1) (fun _ => some ()) pre post := by
  intro h
  obtain ⟨s, hs, hstate⟩ := Option.map_eq_some_iff.mp hpre
  rw [stateAfter, Runs.exec_append, hs] at hpost
  obtain ⟨s', hs', hestablished⟩ := Option.map_eq_some_iff.mp hpost
  exact h s s' hs hs' t (hstate ▸ hsettled) hestablished

/-- The next round takes the test of the expiring tunnel for failed, and the next test succeeds; a
message comes in for the failed tunnel. -/
theorem not_monotone_exampleRuns :
    ¬ Monotone (fun _ => 0) (fun _ => 1) (fun _ => some ()) expiringRun
        [.testTunnels () fun _ => 8, .processDeliveryStatus () 8] ∧
      ¬ Monotone (fun _ => 0) (fun _ => 1) (fun _ => some ()) failedRun
        [.handleTunnelDataMsg 0] := by
  constructor
  · refine not_monotone_of_stateAfter (t := .inl 0) ?_ (Or.inl rfl) ?_
    · decide +kernel
    · decide +kernel
  · refine not_monotone_of_stateAfter (t := .inr 0) ?_ (Or.inr rfl) ?_
    · decide +kernel
    · decide +kernel

end Tunnels

end Tunnel
