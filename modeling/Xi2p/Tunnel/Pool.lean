import Xi2p.Lib.KeyedSet
import Xi2p.Lib.Runs
import Mathlib.Data.Prod.Lex
import Mathlib.Tactic

/-!
# Tunnel pools

`TunnelPool` of `core/router/tunnel/pool.cc`: the sets of outbound and inbound tunnels of a pool, and
the map `m_Tests` of the tests that wait for an answer. `TestTunnels` takes the tunnels of unanswered
tests for failed and starts new tests, `ProcessDeliveryStatus` is the answer to one, and
`TunnelExpired` removes a tunnel.

Outbound tunnels are objects in `O`, inbound tunnels objects in `I`, ordered by their addresses.

* `PoolState.tests_sound_iff`: the runs in which the tests only refer to tunnels of the pool.
-/

namespace Tunnel

/-! ## Tunnels -/

/-- `TunnelState`. -/
inductive TunnelState
  | pending
  | buildReplyReceived
  | buildFailed
  | established
  | testFailed
  | failed
  | expiring
  deriving DecidableEq

/-- The fields of a `Tunnel` that change. -/
structure TunnelFields (P : Type) where
  /-- `m_State`. -/
  state : TunnelState
  /-- `m_IsRecreated`. -/
  isRecreated : Bool
  /-- `m_Pool`, or null. -/
  pool : Option P
  deriving DecidableEq

variable {P O I : Type}

/-- An entry of `m_Tests`. -/
structure PoolTest (O I : Type) where
  /-- The key. -/
  msgID : UInt32
  /-- `second.first`. -/
  outbound : Option O
  /-- `second.second`. -/
  inbound : Option I
  deriving DecidableEq

/-- The tunnels that a test refers to. -/
def PoolTest.tunnels (test : PoolTest O I) : List (O ⊕ I) :=
  test.outbound.toList.map .inl ++ test.inbound.toList.map .inr

/-- `TunnelPool`. -/
structure TunnelPool (O I : Type) where
  /-- `m_OutboundTunnels`, in the order of the set. -/
  outboundTunnels : List O
  /-- `m_InboundTunnels`, in the order of the set. -/
  inboundTunnels : List I
  /-- `m_Tests`, in the order of the map. -/
  tests : List (PoolTest O I)
  /-- `m_IsActive`. -/
  isActive : Bool

/-- The pool and the tunnels. -/
structure PoolState (P O I : Type) where
  /-- The fields of every tunnel. -/
  fields : O ⊕ I → TunnelFields P
  /-- The pool. -/
  pool : TunnelPool O I

namespace TunnelPool

/-- A new pool. -/
def init : TunnelPool O I where
  outboundTunnels := []
  inboundTunnels := []
  tests := []
  isActive := true

/-- Whether a tunnel is in its set. -/
def Holds (pool : TunnelPool O I) : O ⊕ I → Prop
  | .inl t => t ∈ pool.outboundTunnels
  | .inr t => t ∈ pool.inboundTunnels

/-- The tunnels that the tests refer to. -/
def tested (pool : TunnelPool O I) : List (O ⊕ I) :=
  pool.tests.flatMap PoolTest.tunnels

/-! ## Tests -/

/-- `m_Tests[msg_ID] = …`. -/
def setTest (tests : List (PoolTest O I)) (test : PoolTest O I) : List (PoolTest O I) :=
  KeyedSet.insert (fun test => test.msgID.toNat) test (tests.filter (·.msgID ≠ test.msgID))

/-- The loop of `TestTunnels` that starts new tests, for the tunnels from `it1` and `it2` on. The
message IDs come from `random`. -/
def newTests (isFailed : O ⊕ I → Bool) (random : ℕ → UInt32) :
    List O → List I → List (PoolTest O I) → List (PoolTest O I)
  | t₁ :: it₁, t₂ :: it₂, tests =>
    match isFailed (.inl t₁), isFailed (.inr t₂) with
    | true, true => newTests isFailed random it₁ it₂ tests
    | true, false => newTests isFailed random it₁ (t₂ :: it₂) tests
    | false, true => newTests isFailed random (t₁ :: it₁) it₂ tests
    | false, false =>
      newTests isFailed (fun n => random (n + 1)) it₁ it₂ (setTest tests ⟨random 0, some t₁, some t₂⟩)
  | [], _, tests => tests
  | _, [], tests => tests
termination_by it₁ it₂ => it₁.length + it₂.length

theorem mem_tested_iff {pool : TunnelPool O I} {t : O ⊕ I} :
    t ∈ pool.tested ↔ ∃ test ∈ pool.tests, t ∈ test.tunnels := List.mem_flatMap

theorem eq_or_mem_of_mem_setTest {tests : List (PoolTest O I)} {test test' : PoolTest O I}
    (h : test' ∈ setTest tests test) : test' = test ∨ test' ∈ tests := by
  obtain heq | hmem := KeyedSet.eq_or_mem_of_mem_insert h
  · exact .inl heq
  · exact .inr (List.mem_of_mem_filter hmem)

/-- A test of an outbound and an inbound tunnel that have not failed. -/
def IsNewTest (isFailed : O ⊕ I → Bool) (it₁ : List O) (it₂ : List I) (test : PoolTest O I) : Prop :=
  ∃ t₁ ∈ it₁, ∃ t₂ ∈ it₂, test.outbound = some t₁ ∧ test.inbound = some t₂ ∧
    isFailed (.inl t₁) = false ∧ isFailed (.inr t₂) = false

theorem IsNewTest.mono {isFailed : O ⊕ I → Bool} {it₁ it₁' : List O} {it₂ it₂' : List I}
    {test : PoolTest O I} (h : IsNewTest isFailed it₁ it₂ test) (h₁ : it₁ ⊆ it₁')
    (h₂ : it₂ ⊆ it₂') : IsNewTest isFailed it₁' it₂' test := by
  obtain ⟨t₁, ht₁, t₂, ht₂, htest⟩ := h
  exact ⟨t₁, h₁ ht₁, t₂, h₂ ht₂, htest⟩

theorem mem_or_isNewTest_of_mem_newTests {isFailed : O ⊕ I → Bool} {random : ℕ → UInt32}
    {it₁ : List O} {it₂ : List I} {tests : List (PoolTest O I)} {test : PoolTest O I}
    (h : test ∈ newTests isFailed random it₁ it₂ tests) :
    test ∈ tests ∨ IsNewTest isFailed it₁ it₂ test := by
  fun_induction newTests isFailed random it₁ it₂ tests with
  | case1 random t₁ it₁ t₂ it₂ tests h₂ h₁ ih =>
    exact (ih h).imp_right fun hnew =>
      hnew.mono (List.subset_cons_self t₁ it₁) (List.subset_cons_self t₂ it₂)
  | case2 random t₁ it₁ t₂ it₂ tests h₂ h₁ ih =>
    exact (ih h).imp_right fun hnew => hnew.mono (List.subset_cons_self t₁ it₁) (List.Subset.refl _)
  | case3 random t₁ it₁ t₂ it₂ tests h₂ h₁ ih =>
    exact (ih h).imp_right fun hnew => hnew.mono (List.Subset.refl _) (List.subset_cons_self t₂ it₂)
  | case4 random t₁ it₁ t₂ it₂ tests h₂ h₁ ih =>
    obtain hmem | hnew := ih h
    · obtain rfl | hmem := eq_or_mem_of_mem_setTest hmem
      · right
        exact ⟨t₁, List.mem_cons_self, t₂, List.mem_cons_self, rfl, rfl, h₁, h₂⟩
      · exact .inl hmem
    · exact .inr (hnew.mono (List.subset_cons_self t₁ it₁) (List.subset_cons_self t₂ it₂))
  | case5 => exact .inl h
  | case6 => exact .inl h

/-- The tests refer to tunnels of the pool, and no reference is null. -/
structure Consistent (pool : TunnelPool O I) : Prop where
  holds : ∀ t ∈ pool.tested, pool.Holds t
  nonNull : ∀ test ∈ pool.tests, ∃ t₁ t₂, test.outbound = some t₁ ∧ test.inbound = some t₂

theorem consistent_init : (init : TunnelPool O I).Consistent where
  holds _ h := by cases h
  nonNull _ h := by cases h

/-- Fewer tests. -/
theorem Consistent.filter {pool : TunnelPool O I} (h : pool.Consistent)
    (keep : PoolTest O I → Bool) : { pool with tests := pool.tests.filter keep }.Consistent where
  holds t ht := by
    obtain ⟨test, htest, ht⟩ := mem_tested_iff.mp ht
    exact h.holds t (mem_tested_iff.mpr ⟨test, List.mem_of_mem_filter htest, ht⟩)
  nonNull test htest := h.nonNull test (List.mem_of_mem_filter htest)

theorem mem_tunnels_iff {test : PoolTest O I} {t₁ : O} {t₂ : I} (h₁ : test.outbound = some t₁)
    (h₂ : test.inbound = some t₂) {t : O ⊕ I} :
    t ∈ test.tunnels ↔ t = .inl t₁ ∨ t = .inr t₂ := by
  simp [PoolTest.tunnels, h₁, h₂]

/-- New tests are for the tunnels of the pool. -/
theorem consistent_newTests (isFailed : O ⊕ I → Bool) (random : ℕ → UInt32) (pool : TunnelPool O I) :
    { pool with tests :=
        newTests isFailed random pool.outboundTunnels pool.inboundTunnels [] }.Consistent where
  holds t ht := by
    obtain ⟨test, htest, ht⟩ := mem_tested_iff.mp ht
    obtain ⟨t₁, ht₁, t₂, ht₂, h₁, h₂, -⟩ :=
      (mem_or_isNewTest_of_mem_newTests htest).resolve_left List.not_mem_nil
    obtain rfl | rfl := (mem_tunnels_iff h₁ h₂).mp ht
    · exact ht₁
    · exact ht₂
  nonNull test htest := by
    obtain ⟨t₁, -, t₂, -, h₁, h₂, -⟩ :=
      (mem_or_isNewTest_of_mem_newTests htest).resolve_left List.not_mem_nil
    exact ⟨t₁, t₂, h₁, h₂⟩

/-! ## Sets -/

variable [LinearOrder O] [LinearOrder I]

instance (pool : TunnelPool O I) : DecidablePred pool.Holds
  | .inl t => inferInstanceAs (Decidable (t ∈ pool.outboundTunnels))
  | .inr t => inferInstanceAs (Decidable (t ∈ pool.inboundTunnels))

/-- `TunnelCreationTimeCmp`: recent tunnels come first, and tunnels of the same second are ordered by
address. -/
def orderKey {T : Type} (creationTime : T → UInt64) (t : T) : Lex (ℕᵒᵈ × T) :=
  toLex (OrderDual.toDual (creationTime t).toNat, t)

/-- `insert` into the set of a tunnel. -/
def insert (creationTime : O ⊕ I → UInt64) (pool : TunnelPool O I) : O ⊕ I → TunnelPool O I
  | .inl t =>
    { pool with outboundTunnels :=
        KeyedSet.insert (orderKey fun t => creationTime (.inl t)) t pool.outboundTunnels }
  | .inr t =>
    { pool with inboundTunnels :=
        KeyedSet.insert (orderKey fun t => creationTime (.inr t)) t pool.inboundTunnels }

/-- `erase` from the set of a tunnel. -/
def erase (pool : TunnelPool O I) : O ⊕ I → TunnelPool O I
  | .inl t => { pool with outboundTunnels := pool.outboundTunnels.filter (· ≠ t) }
  | .inr t => { pool with inboundTunnels := pool.inboundTunnels.filter (· ≠ t) }

@[simp]
theorem tests_insert (creationTime : O ⊕ I → UInt64) (pool : TunnelPool O I) (t : O ⊕ I) :
    (pool.insert creationTime t).tests = pool.tests := by
  cases t <;> rfl

@[simp]
theorem tests_erase (pool : TunnelPool O I) (t : O ⊕ I) : (pool.erase t).tests = pool.tests := by
  cases t <;> rfl

@[simp]
theorem isActive_insert (creationTime : O ⊕ I → UInt64) (pool : TunnelPool O I) (t : O ⊕ I) :
    (pool.insert creationTime t).isActive = pool.isActive := by
  cases t <;> rfl

@[simp]
theorem isActive_erase (pool : TunnelPool O I) (t : O ⊕ I) :
    (pool.erase t).isActive = pool.isActive := by
  cases t <;> rfl

theorem holds_insert_of_holds (creationTime : O ⊕ I → UInt64) {pool : TunnelPool O I} (t : O ⊕ I)
    {t' : O ⊕ I} (h : pool.Holds t') : (pool.insert creationTime t).Holds t' := by
  cases t with
  | inl t =>
    cases t' with
    | inl t' => exact KeyedSet.mem_insert_of_mem h
    | inr t' => exact h
  | inr t =>
    cases t' with
    | inl t' => exact h
    | inr t' => exact KeyedSet.mem_insert_of_mem h

theorem holds_of_holds_insert {creationTime : O ⊕ I → UInt64} {pool : TunnelPool O I}
    {t t' : O ⊕ I} (h : (pool.insert creationTime t).Holds t') (hne : t' ≠ t) : pool.Holds t' := by
  cases t with
  | inl t =>
    cases t' with
    | inl t' =>
      exact (KeyedSet.eq_or_mem_of_mem_insert h).resolve_left fun heq => hne (congrArg Sum.inl heq)
    | inr t' => exact h
  | inr t =>
    cases t' with
    | inl t' => exact h
    | inr t' =>
      exact (KeyedSet.eq_or_mem_of_mem_insert h).resolve_left fun heq => hne (congrArg Sum.inr heq)

theorem holds_erase_iff {pool : TunnelPool O I} {t t' : O ⊕ I} :
    (pool.erase t).Holds t' ↔ pool.Holds t' ∧ t' ≠ t := by
  cases t <;> cases t' <;> simp [erase, Holds]

theorem Consistent.insert {pool : TunnelPool O I} (h : pool.Consistent)
    (creationTime : O ⊕ I → UInt64) (t : O ⊕ I) : (pool.insert creationTime t).Consistent where
  holds t' ht' := by
    refine holds_insert_of_holds creationTime t (h.holds t' ?_)
    rwa [tested, tests_insert] at ht'
  nonNull test htest := by
    rw [tests_insert] at htest
    exact h.nonNull test htest

theorem Consistent.erase {pool : TunnelPool O I} (h : pool.Consistent) {t : O ⊕ I}
    (ht : t ∉ pool.tested) : (pool.erase t).Consistent where
  holds t' ht' := by
    rw [tested, tests_erase] at ht'
    refine holds_erase_iff.mpr ⟨h.holds t' ht', ?_⟩
    rintro rfl
    exact ht ht'
  nonNull test htest := by
    rw [tests_erase] at htest
    exact h.nonNull test htest

end TunnelPool

variable [LinearOrder O] [LinearOrder I]

/-! ## Operations of the pool -/

namespace PoolState

/-- `SetState`. -/
def setState (s : PoolState P O I) (t : O ⊕ I) (state : TunnelState) : PoolState P O I :=
  { s with fields := Function.update s.fields t { s.fields t with state } }

/-- `SetTunnelPool(nullptr)`. -/
def unsetTunnelPool (s : PoolState P O I) (t : O ⊕ I) : PoolState P O I :=
  { s with fields := Function.update s.fields t { s.fields t with pool := none } }

/-- `DetachTunnels`. -/
def detachTunnels (s : PoolState P O I) : PoolState P O I where
  fields t := if s.pool.Holds t then { s.fields t with pool := none } else s.fields t
  pool := { s.pool with outboundTunnels := [], inboundTunnels := [], tests := [] }

/-- `TunnelCreated`. -/
def tunnelCreated (creationTime : O ⊕ I → UInt64) (s : PoolState P O I) (t : O ⊕ I) :
    PoolState P O I :=
  if s.pool.isActive then { s with pool := s.pool.insert creationTime t } else s

/-- `TunnelExpired`. The loop over `m_Tests` sets the references of a copy of each entry to null, so
the entries keep theirs. -/
def tunnelExpired (s : PoolState P O I) (t : O ⊕ I) : PoolState P O I :=
  let s := s.unsetTunnelPool t
  { s with pool := s.pool.erase t }

/-- What `TestTunnels` does with a tunnel of an unanswered test. -/
def failTunnel (s : PoolState P O I) (t : O ⊕ I) : PoolState P O I :=
  -- if test failed again with another tunnel we consider it failed
  if (s.fields t).state = .testFailed then
    let s := s.setState t .failed
    { s with pool := s.pool.erase t }
  else s.setState t .testFailed

/-- What `TestTunnels` does with an unanswered test. -/
def failTest (s : PoolState P O I) (test : PoolTest O I) : PoolState P O I :=
  test.tunnels.foldl failTunnel s

/-- `TestTunnels`. -/
def testTunnels (random : ℕ → UInt32) (s : PoolState P O I) : PoolState P O I :=
  let s := s.pool.tests.foldl failTest s
  let isFailed t := (s.fields t).state == .failed
  let tests :=
    TunnelPool.newTests isFailed random s.pool.outboundTunnels s.pool.inboundTunnels []
  { s with pool := { s.pool with tests } }

/-- Restore from test failed state if any. -/
def restoreTunnel (s : PoolState P O I) (t : O ⊕ I) : PoolState P O I :=
  if (s.fields t).state = .testFailed then s.setState t .established else s

/-- `ProcessDeliveryStatus`, for the message ID in the message; `none` if it dereferences null. A
message that is not for a test goes to the local destination. -/
def processDeliveryStatus (s : PoolState P O I) (msgID : UInt32) : Option (PoolState P O I) :=
  match s.pool.tests.find? (·.msgID = msgID) with
  | none => some s
  | some test => do
    let outbound ← test.outbound
    let s := s.restoreTunnel (.inl outbound)
    let inbound ← test.inbound
    let s := s.restoreTunnel (.inr inbound)
    return { s with pool := { s.pool with tests := s.pool.tests.filter (·.msgID ≠ msgID) } }

end PoolState

/-! ## Runs -/

namespace PoolState

/-- Restoring tunnels leaves the pool alone. -/
@[simp]
theorem restoreTunnel_pool (s : PoolState P O I) (t : O ⊕ I) : (s.restoreTunnel t).pool = s.pool := by
  unfold restoreTunnel
  split <;> rfl

/-- An answer to a test does not dereference null. -/
theorem exists_processDeliveryStatus {s : PoolState P O I} (h : s.pool.Consistent)
    (msgID : UInt32) :
    ∃ s', s.processDeliveryStatus msgID = some s' ∧ s'.pool.Consistent := by
  unfold processDeliveryStatus
  split
  · exact ⟨s, rfl, h⟩
  next test htest =>
    obtain ⟨t₁, t₂, h₁, h₂⟩ := h.nonNull test (List.mem_of_find?_eq_some htest)
    rw [h₁, h₂]
    refine ⟨_, rfl, ?_⟩
    simp only [restoreTunnel_pool]
    exact h.filter _

/-- A call on the pool, or another change to it. -/
inductive Op (O I : Type)
  | tunnelCreated (t : O ⊕ I)
  | tunnelExpired (t : O ⊕ I)
  | testTunnels (random : ℕ → UInt32)
  | processDeliveryStatus (msgID : UInt32)
  | detachTunnels
  /-- Other functions change the state of a tunnel. -/
  | setState (t : O ⊕ I) (state : TunnelState)
  | setActive (isActive : Bool)

/-- One call; `none` once null has been dereferenced. -/
def step (creationTime : O ⊕ I → UInt64) (s : Option (PoolState P O I)) (op : Op O I) :
    Option (PoolState P O I) :=
  s.bind fun s =>
    match op with
    | .tunnelCreated t => some (s.tunnelCreated creationTime t)
    | .tunnelExpired t => some (s.tunnelExpired t)
    | .testTunnels random => some (s.testTunnels random)
    | .processDeliveryStatus msgID => s.processDeliveryStatus msgID
    | .detachTunnels => some s.detachTunnels
    | .setState t state => some (s.setState t state)
    | .setActive isActive => some { s with pool := { s.pool with isActive } }

/-- After the call, the tests refer to tunnels of the pool, and not to a tunnel that just expired. -/
def Sound (creationTime : O ⊕ I → UInt64) (s : Option (PoolState P O I)) (op : Op O I) : Prop :=
  ∃ s', step creationTime s op = some s' ∧ (∀ t ∈ s'.pool.tested, s'.pool.Holds t) ∧
    ∀ t, op = .tunnelExpired t → t ∉ s'.pool.tested

/-- No tunnel expires while a test refers to it. -/
def Allowed (s : Option (PoolState P O I)) (op : Op O I) : Prop :=
  ∀ s', s = some s' → ∀ t, op = .tunnelExpired t → t ∉ s'.pool.tested

theorem consistent_step (creationTime : O ⊕ I → UInt64) {s : PoolState P O I}
    (h : s.pool.Consistent) {op : Op O I} (hallowed : Allowed (some s) op) :
    ∃ s', step creationTime (some s) op = some s' ∧ s'.pool.Consistent := by
  cases op with
  | tunnelCreated t =>
    refine ⟨_, rfl, ?_⟩
    unfold tunnelCreated
    split
    · exact h.insert creationTime t
    · exact h
  | tunnelExpired t => exact ⟨_, rfl, h.erase (hallowed s rfl t rfl)⟩
  | testTunnels random => exact ⟨_, rfl, TunnelPool.consistent_newTests _ random _⟩
  | processDeliveryStatus msgID => exact exists_processDeliveryStatus h msgID
  | detachTunnels => exact ⟨_, rfl, TunnelPool.consistent_init.holds, TunnelPool.consistent_init.nonNull⟩
  | setState t state => exact ⟨_, rfl, h⟩
  | setActive isActive => exact ⟨_, rfl, h.holds, h.nonNull⟩

/-- In a run of a new pool, the tests refer to tunnels of the pool after every call exactly when no
tunnel expires while a test refers to it. -/
theorem tests_sound_iff (creationTime : O ⊕ I → UInt64) (fields : O ⊕ I → TunnelFields P)
    (ops : List (Op O I)) :
    Runs.Meets (step creationTime) (Sound creationTime) (some ⟨fields, TunnelPool.init⟩) ops ↔
      Runs.Meets (step creationTime) Allowed (some ⟨fields, TunnelPool.init⟩) ops := by
  let Invariant (s : Option (PoolState P O I)) : Prop := ∃ s', s = some s' ∧ s'.pool.Consistent
  refine (Runs.meets_iff_of_preserved (I := Invariant) ?_ ?_ ?_ ops).symm
  · rintro _ op ⟨s, rfl, h⟩ hallowed
    exact consistent_step creationTime h hallowed
  · rintro _ op ⟨s, rfl, h⟩
    constructor
    · intro hallowed
      obtain ⟨s', hs', h'⟩ := consistent_step creationTime h hallowed
      refine ⟨s', hs', h'.holds, ?_⟩
      rintro t rfl
      obtain rfl := Option.some.inj hs'
      have ht := hallowed s rfl t rfl
      rwa [TunnelPool.tested, tunnelExpired, TunnelPool.tests_erase]
    · rintro ⟨s', hs', -, hexpired⟩ _ hs t rfl
      obtain rfl := Option.some.inj hs
      obtain rfl := Option.some.inj hs'
      have ht := hexpired t rfl
      rwa [TunnelPool.tested, tunnelExpired, TunnelPool.tests_erase] at ht
  · exact ⟨_, rfl, TunnelPool.consistent_init⟩

/-- A test starts, and its outbound tunnel expires before the answer. -/
def expiredInTest : List (Op ℕ ℕ) :=
  [.tunnelCreated (.inl 0), .tunnelCreated (.inr 0), .testTunnels fun _ => 7, .tunnelExpired (.inl 0)]

theorem not_sound_expiredInTest :
    ¬ Runs.Meets (step fun _ => 0) (Sound fun _ => 0)
      (some ⟨fun _ => ⟨.established, false, some ()⟩, TunnelPool.init⟩) expiredInTest := by
  rintro ⟨-, -, -, ⟨s', hs', -, hexpired⟩, -⟩
  refine hexpired (.inl 0) rfl ?_
  obtain rfl := Option.some.inj hs'
  have hfailed : (TunnelState.established == .failed) = false := rfl
  simp [hfailed, tunnelExpired, TunnelPool.tested, testTunnels, tunnelCreated, TunnelPool.init,
    TunnelPool.insert, KeyedSet.insert, TunnelPool.newTests, TunnelPool.setTest, unsetTunnelPool,
    PoolTest.tunnels]

end PoolState

end Tunnel
