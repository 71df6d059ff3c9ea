import Xi2p.Router.LeaseSet

/-!
# The remote lease of a stream

The part of `Stream` of `client/api/streaming.cc` that chooses a lease of the remote lease set and
decides whether packets can be sent through it. Here and in `GetNonExpiredLeases` the threshold of one
minute is subtracted from end dates, in 64 bits without a sign.

* `sendPackets`: when a lease is kept, and when packets are sent through it.
* `expiryRespected_iff`: the end dates for which this is right.
-/

namespace Streaming

open I2NP Router LeaseSet

/-- `m_RemoteLeaseSet` and `m_CurrentRemoteLease`. -/
structure RemoteLease where
  remoteLeaseSet : Option LeaseSet
  currentRemoteLease : Lease

/-- What one call of `UpdateCurrentRemoteLease` finds. -/
structure UpdateOutside where
  /-- `FindLeaseSet`. -/
  found : Option LeaseSet
  /-- The time at the first call of `GetNonExpiredLeases`. -/
  time : UInt64
  /-- The time at the second one. -/
  laterTime : UInt64
  /-- `RandInRange32(0, max)`. -/
  random : ℕ → ℕ
  random_le : ∀ max, random max ≤ max

/-- What one call of `SendPackets` finds. -/
structure SendOutside where
  /-- For the update when there is no lease set. -/
  first : UpdateOutside
  /-- The pool has an outbound tunnel, or the current one is established. -/
  hasOutboundTunnel : Bool
  time : UInt64
  /-- For the update when the lease expires soon. -/
  second : UpdateOutside

/-- What `SendPackets` comes to. -/
inductive Sending
  | noLeaseSet
  | noOutboundTunnel
  /-- The current lease was kept or updated first, and the packets were sent through it or not. -/
  | tested (keeps sends : Bool)

namespace RemoteLease

/-- `UpdateCurrentRemoteLease`, and whether it requests the destination again. -/
def updateCurrentRemoteLease (outside : UpdateOutside) (expired : Bool) (s : RemoteLease) :
    RemoteLease × Bool :=
  let current := s.currentRemoteLease
  match s.remoteLeaseSet <|> outside.found with
  | none => ({ s with currentRemoteLease.endDate := 0 }, false)
  | some leaseSet =>
    -- try without threshold first
    let leases := leaseSet.getNonExpiredLeases outside.time false
    let isLate := leases.isEmpty
    -- then with threshold
    let leases := if isLate then leaseSet.getNonExpiredLeases outside.laterTime true else leases
    if leases.isEmpty then
      ({ remoteLeaseSet := none, currentRemoteLease := { current with endDate := 0 } }, isLate)
    else
      let sameGateway := leases.find? fun lease =>
        lease.tunnelGateway = current.tunnelGateway && lease.tunnelID ≠ current.tunnelID
      match if expired && !isLate then sameGateway else none with
      | some lease => ({ remoteLeaseSet := leaseSet, currentRemoteLease := lease }, isLate)
      | none =>
        let i := outside.random (leases.length - 1)
        -- make sure we don't select previous
        let isPrevious := current.endDate ≠ 0 ∧ (leases.getD i current).tunnelID = current.tunnelID
        let i := if isPrevious then (i + 1) % leases.length else i
        ({ remoteLeaseSet := leaseSet, currentRemoteLease := leases.getD i current }, isLate)

/-- A lease set is looked for if there is none. -/
def prepare (outside : UpdateOutside) (s : RemoteLease) : RemoteLease :=
  if s.remoteLeaseSet.isNone then (s.updateCurrentRemoteLease outside false).1 else s

/-- The current lease is to be updated. -/
def isDue (ts : UInt64) (s : RemoteLease) : Bool :=
  s.currentRemoteLease.endDate = 0 || s.currentRemoteLease.endDate - tunnelExpirationThreshold ≤ ts

/-- `SendPackets`. -/
def sendPackets (outside : SendOutside) (s : RemoteLease) : RemoteLease × Sending :=
  let s := s.prepare outside.first
  if s.remoteLeaseSet.isNone then (s, .noLeaseSet)
  else if !outside.hasOutboundTunnel then (s, .noOutboundTunnel)
  else
    let isDue := s.isDue outside.time
    let s := if isDue then (s.updateCurrentRemoteLease outside.second true).1 else s
    (s, .tested (!isDue) (outside.time < s.currentRemoteLease.endDate))

end RemoteLease

/-! ## Expired leases -/

/-- The end date has passed, and wraps when the threshold is subtracted. -/
def Wraps (ts endDate : UInt64) : Prop :=
  endDate < tunnelExpirationThreshold ∧ endDate ≤ ts ∧
    ts.toNat + tunnelExpirationThreshold.toNat < 2 ^ 64 + endDate.toNat

/-- A lease that is not expired without the threshold, but is with it. -/
theorem wraps_iff {ts endDate : UInt64} :
    Wraps ts endDate ↔ ts < endDate - tunnelExpirationThreshold ∧ ¬ ts < endDate := by
  have hts := ts.toNat_lt
  have hend := endDate.toNat_lt
  have hthreshold : tunnelExpirationThreshold.toNat = 60000 := rfl
  simp only [Wraps, UInt64.lt_iff_toNat_lt, UInt64.le_iff_toNat_le, UInt64.toNat_sub, hthreshold]
  omega

/-- Expired leases are neither returned nor used. -/
structure ExpiryRespected (l : LeaseSet) (ts : UInt64) (s : RemoteLease) (outside : SendOutside) :
    Prop where
  non_expired : ∀ withThreshold, ∀ lease ∈ l.getNonExpiredLeases ts withThreshold, ts < lease.endDate
  sublist : (l.getNonExpiredLeases ts false).Sublist (l.getNonExpiredLeases ts true)
  usable : ∀ s' keeps sends, s.sendPackets outside = (s', .tested keeps sends) →
    keeps = true ∨ sends = true → outside.time < s'.currentRemoteLease.endDate

/-- A current lease is tested. -/
def RemoteLease.Tests (s : RemoteLease) (outside : SendOutside) : Prop :=
  (s.prepare outside.first).remoteLeaseSet.isSome = true ∧ outside.hasOutboundTunnel = true ∧
    (s.prepare outside.first).currentRemoteLease.endDate ≠ 0

theorem mem_getNonExpiredLeases {l : LeaseSet} {ts : UInt64} {withThreshold : Bool} {lease : Lease} :
    lease ∈ l.getNonExpiredLeases ts withThreshold ↔ lease ∈ l.leases ∧
      ts < if withThreshold then lease.endDate else lease.endDate - tunnelExpirationThreshold := by
  rw [getNonExpiredLeases, List.mem_filter, decide_eq_true_eq]

/-- A lease set returns expired leases if the end date of one wraps. -/
theorem forall_not_wraps_iff (l : LeaseSet) (ts : UInt64) :
    (∀ lease ∈ l.leases, ¬ Wraps ts lease.endDate) ↔
      ∀ lease ∈ l.getNonExpiredLeases ts false, ts < lease.endDate := by
  simp only [mem_getNonExpiredLeases, wraps_iff]
  constructor
  · rintro h lease ⟨hmem, hlt⟩
    by_contra hexpired
    exact h lease hmem ⟨hlt, hexpired⟩
  · rintro h lease hmem ⟨hlt, hexpired⟩
    exact hexpired (h lease ⟨hmem, hlt⟩)

theorem sublist_getNonExpiredLeases {l : LeaseSet} {ts : UInt64}
    (h : ∀ lease ∈ l.getNonExpiredLeases ts false, ts < lease.endDate) :
    (l.getNonExpiredLeases ts false).Sublist (l.getNonExpiredLeases ts true) := by
  have hfilter : l.getNonExpiredLeases ts false =
      (l.getNonExpiredLeases ts true).filter fun lease =>
        ts < lease.endDate - tunnelExpirationThreshold := by
    rw [getNonExpiredLeases, getNonExpiredLeases, List.filter_filter]
    refine List.filter_congr fun lease hmem => ?_
    have hlease := fun hlt => h lease (mem_getNonExpiredLeases.mpr ⟨hmem, hlt⟩)
    simpa using hlease
  rw [hfilter]
  exact List.filter_sublist

namespace RemoteLease

/-- Packets are only sent before the end date of the lease. -/
theorem lt_endDate_of_sends {s s' : RemoteLease} {outside : SendOutside} {keeps : Bool}
    (h : s.sendPackets outside = (s', .tested keeps true)) :
    outside.time < s'.currentRemoteLease.endDate := by
  rw [sendPackets] at h
  dsimp only at h
  split at h
  · cases h
  · split at h
    · cases h
    · obtain ⟨rfl, htested⟩ := Prod.mk.inj h
      exact of_decide_eq_true (Sending.tested.inj htested).2

/-- The lease that is kept is the one that was tested. -/
theorem sendPackets_of_tests {s : RemoteLease} {outside : SendOutside} (h : s.Tests outside)
    (hdue : (s.prepare outside.first).isDue outside.time = false) :
    s.sendPackets outside = (s.prepare outside.first, .tested true
      (outside.time < (s.prepare outside.first).currentRemoteLease.endDate)) := by
  have hsome : (s.prepare outside.first).remoteLeaseSet.isNone = false := by
    rw [← Option.not_isSome, h.1, Bool.not_true]
  rw [sendPackets]
  dsimp only
  rw [hsome, h.2.1, hdue]
  rfl

theorem tests_of_keeps {s s' : RemoteLease} {outside : SendOutside} {sends : Bool}
    (h : s.sendPackets outside = (s', .tested true sends)) :
    s.Tests outside ∧ s' = s.prepare outside.first ∧ s'.isDue outside.time = false := by
  rw [sendPackets] at h
  dsimp only at h
  split at h
  · cases h
  next hsome =>
    split at h
    · cases h
    next htunnel =>
      obtain ⟨rfl, htested⟩ := Prod.mk.inj h
      have hdue := (Sending.tested.inj htested).1
      rw [Bool.not_eq_true'] at hdue
      rw [hdue]
      have hend : (s.prepare outside.first).currentRemoteLease.endDate ≠ 0 := by
        intro hzero
        rw [isDue, hzero] at hdue
        cases hdue
      exact ⟨⟨Option.isSome_iff_ne_none.mpr (by simpa using hsome), by simpa using htunnel, hend⟩, rfl, hdue⟩

end RemoteLease

/-- Expired leases are neither returned nor kept if no end date wraps. -/
theorem expiryRespected_iff (l : LeaseSet) (ts : UInt64) (s : RemoteLease) (outside : SendOutside) :
    ExpiryRespected l ts s outside ↔ (∀ lease ∈ l.leases, ¬ Wraps ts lease.endDate) ∧
      (s.Tests outside →
        ¬ Wraps outside.time (s.prepare outside.first).currentRemoteLease.endDate) := by
  rw [forall_not_wraps_iff]
  constructor
  · intro h
    refine ⟨h.non_expired false, fun htests hwraps => ?_⟩
    obtain ⟨hlt, hexpired⟩ := wraps_iff.mp hwraps
    have hdue : (s.prepare outside.first).isDue outside.time = false := by
      simp only [RemoteLease.isDue, Bool.or_eq_false_iff, decide_eq_false_iff_not]
      exact ⟨htests.2.2, UInt64.not_le.mpr hlt⟩
    exact hexpired (h.usable _ _ _ (RemoteLease.sendPackets_of_tests htests hdue) (.inl rfl))
  · rintro ⟨hleases, hcurrent⟩
    refine ⟨fun withThreshold lease hlease => ?_, sublist_getNonExpiredLeases hleases, ?_⟩
    · cases withThreshold with
      | true => exact (mem_getNonExpiredLeases.mp hlease).2
      | false => exact hleases lease hlease
    · rintro s' keeps sends hsend (rfl | rfl)
      · obtain ⟨htests, rfl, hdue⟩ := RemoteLease.tests_of_keeps hsend
        by_contra hexpired
        simp only [RemoteLease.isDue, Bool.or_eq_false_iff, decide_eq_false_iff_not,
          UInt64.not_le] at hdue
        exact hcurrent htests (wraps_iff.mpr ⟨hdue.2, hexpired⟩)
      · exact RemoteLease.lt_endDate_of_sends hsend

/-- A lease that ended five milliseconds after the epoch. -/
def ancientLease : Lease where
  tunnelGateway := IdentHash.zero
  tunnelID := 1
  endDate := 5

def ancientLeaseSet : LeaseSet where
  leases := [ancientLease]
  buffer _ := 0
  bufferLen := 0

/-- A stream that uses the lease. -/
def ancientStream : RemoteLease where
  remoteLeaseSet := some ancientLeaseSet
  currentRemoteLease := ancientLease

def ancientUpdate : UpdateOutside where
  found := none
  time := 1500000000000
  laterTime := 1500000000000
  random _ := 0
  random_le := Nat.zero_le

def ancientOutside : SendOutside where
  first := ancientUpdate
  hasOutboundTunnel := true
  time := 1500000000000
  second := ancientUpdate

/-- The lease is returned many years later, when no threshold is asked for. -/
theorem not_expiryRespected_ancientLeaseSet :
    ¬ ExpiryRespected ancientLeaseSet 1500000000000 ancientStream ancientOutside := by
  intro h
  have hreturned : ancientLease ∈ ancientLeaseSet.getNonExpiredLeases 1500000000000 false :=
    mem_getNonExpiredLeases.mpr ⟨List.mem_cons_self, by decide⟩
  exact absurd (h.non_expired false ancientLease hreturned) (by decide)

end Streaming
