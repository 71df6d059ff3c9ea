import Xi2p.Router.Context
import Xi2p.Router.RoundTrip

/-!
# Consistency of the own router info

The functions of `RouterContext` edit the addresses, the introducers and the capabilities of
`m_RouterInfo` apart from each other, and only `UpdateRouterInfo` makes the buffer that is published.

* `Consistent`: what the published router info is to be.
* `Allowed`: the calls that keep it so.
-/

namespace Router

open Bytes I2NP Identity Transports

/-! ## What is written -/

/-- A text behind its length can be told from what follows. -/
theorem append_inj_of_length_byte {xs ys post post' : List UInt8} (hx : xs.length ≤ 255)
    (hy : ys.length ≤ 255)
    (h : UInt8.ofNat xs.length :: xs ++ post = UInt8.ofNat ys.length :: ys ++ post') :
    xs = ys ∧ post = post' := by
  rw [List.cons_append, List.cons_append, List.cons.injEq] at h
  have hlen : xs.length = ys.length := by
    have hnat := congrArg UInt8.toNat h.1
    simp only [UInt8.toNat_ofNat'] at hnat
    omega
  exact List.append_inj h.2 hlen

/-- Different key pairs are written differently. -/
theorem keyPairsBytes_inj {ps qs : List KeyPair} (hp : PairsFit ps) (hq : PairsFit qs)
    (h : keyPairsBytes ps = keyPairsBytes qs) : ps = qs := by
  induction ps generalizing qs with
  | nil =>
    rcases qs with _ | ⟨q, qs⟩
    · rfl
    · simp [keyPairsBytes, keyPairBytes] at h
  | cons p ps ih =>
    rcases qs with _ | ⟨q, qs⟩
    · simp [keyPairsBytes, keyPairBytes] at h
    · obtain ⟨⟨hpkey, hpvalue⟩, hps⟩ := pairsFit_cons.mp hp
      obtain ⟨⟨hqkey, hqvalue⟩, hqs⟩ := pairsFit_cons.mp hq
      have hbytes (r : KeyPair) (rs : List KeyPair) : keyPairsBytes (r :: rs) =
          UInt8.ofNat r.1.length :: r.1 ++
            61 :: (UInt8.ofNat r.2.length :: r.2 ++ 59 :: keyPairsBytes rs) := by
        simp [keyPairsBytes, keyPairBytes]
      rw [hbytes, hbytes] at h
      obtain ⟨hkey, h⟩ := append_inj_of_length_byte hpkey hqkey h
      obtain ⟨hvalue, h⟩ := append_inj_of_length_byte hpvalue hqvalue (List.tail_eq_of_cons_eq h)
      rw [Prod.ext hkey hvalue, ih hps hqs (List.tail_eq_of_cons_eq h)]

theorem optionsBytes_inj {ps qs : List KeyPair} (hp : PairsFit ps) (hq : PairsFit qs)
    (h : optionsBytes ps = optionsBytes qs) : ps = qs := by
  refine keyPairsBytes_inj hp hq ?_
  exact (List.append_inj h (by rw [length_writeU16, length_writeU16])).2

/-- The capabilities and the introducers of addresses that are not for SSU are not written. -/
theorem writeAddresses_clearIntroducers (env : WriteEnv) (caps caps' : List UInt8)
    {addresses : List Address} (h : ∀ address ∈ addresses, address.transport ≠ .ssu) :
    writeAddresses env caps (addresses.map fun address => { address with introducers := [] }) =
      writeAddresses env caps' addresses := by
  induction addresses with
  | nil => rfl
  | cons address addresses ih =>
    rw [List.forall_mem_cons] at h
    have hone : writeAddress env caps { address with introducers := [] } =
        writeAddress env caps' address := by
      rw [writeAddress, writeAddress, addressPairs, addressPairs]
      dsimp only
      rw [if_neg h.1, if_neg h.1, if_neg h.1, if_neg h.1]
    rw [List.map_cons, writeAddresses, writeAddresses, hone, ih h.2]

/-! ## The capabilities option -/

namespace Contents

/-- `SetOption` leaves the other options. -/
theorem setOption_setOption (c : Contents) (key value value' : List UInt8) :
    (c.setOption key value).setOption key value' = c.setOption key value' := by
  have hothers : (c.setOption key value).options.filter (·.1 ≠ key) =
      c.options.filter (·.1 ≠ key) := by
    rw [setOption, KeyedSet.filter_insert_of_neg (by simp), List.filter_filter]
    simp only [Bool.and_self]
  rw [setOption, hothers]
  rfl

theorem mem_setOption (c : Contents) (key value : List UInt8) :
    (key, value) ∈ (c.setOption key value).options := by
  refine KeyedSet.mem_insert_self _ fun hmem => ?_
  obtain ⟨option, hoption, heq⟩ := List.mem_map.mp hmem
  have hkey : option.1 ≠ key := of_decide_eq_true (List.mem_filter.mp hoption).2
  exact hkey (List.map_injective_iff.mpr (fun _ _ => UInt8.toNat_inj.mp) heq)

/-- The value of an option can be told from the options. -/
theorem value_inj_of_setOption {c c' : Contents} {key value value' : List UInt8}
    (h : (c.setOption key value).options = (c'.setOption key value').options) : value = value' := by
  have hmem := mem_setOption c key value
  rw [h] at hmem
  rcases KeyedSet.eq_or_mem_of_mem_insert hmem with heq | hother
  · exact (Prod.mk.inj heq).2
  · exact absurd rfl (of_decide_eq_true (List.mem_filter.mp hother).2)

/-- The option for the capabilities is what `SetCaps` would set. -/
def Published (c : Contents) : Prop :=
  (c.setOption (trait "caps") (getCapsFlags c.caps)).options = c.options

@[simp] theorem setCapBits_caps (c : Contents) (caps : UInt8) : (c.setCapBits caps).caps = caps := rfl

@[simp] theorem setCapBits_addresses (c : Contents) (caps : UInt8) :
    (c.setCapBits caps).addresses = c.addresses := rfl

theorem published_setCapBits (c : Contents) (caps : UInt8) : (c.setCapBits caps).Published :=
  congrArg options (setOption_setOption _ _ _ _)

/-- The own router info is sound. -/
structure Sound (c : Contents) : Prop where
  /-- There is at most one address for a transport and an IP version. -/
  onePerKind : (c.addresses.map Address.kind).Nodup
  /-- It is not reachable and unreachable. -/
  oneReachability : ¬ (c.isReachable ∧ c.usesIntroducer)
  /-- It has no NTCP address while it is unreachable. -/
  noNTCP : c.usesIntroducer → ∀ address ∈ c.addresses, address.transport ≠ .ntcp
  /-- The options give the capabilities. -/
  published : c.Published

/-- What `Sound` is about. -/
theorem Sound.congr {c c' : Contents} (h : c.Sound)
    (hkinds : c'.addresses.map Address.kind = c.addresses.map Address.kind)
    (hcaps : c'.caps = c.caps) (hoptions : c'.options = c.options) : c'.Sound where
  onePerKind := hkinds ▸ h.onePerKind
  oneReachability := by
    have hreachability := h.oneReachability
    rwa [isReachable, usesIntroducer, ← hcaps] at hreachability
  noNTCP := by
    intro hunreachable address haddress
    rw [usesIntroducer, hcaps] at hunreachable
    have hkind := List.mem_map_of_mem (f := Address.kind) haddress
    rw [hkinds] at hkind
    obtain ⟨address', haddress', heq⟩ := List.mem_map.mp hkind
    have htransport : address'.transport = address.transport := (Prod.mk.inj heq).1
    exact htransport ▸ h.noNTCP hunreachable address' haddress'
  published := by
    have hpublished := h.published
    rwa [Published, setOption, ← hcaps, ← hoptions] at hpublished

/-! ## What the edits keep -/

/-- Erasing the first element leaves none if there was at most one. -/
theorem forall_eraseP_iff {α : Type} {p : α → Bool} (xs : List α) :
    (∀ x ∈ xs.eraseP p, ¬ p x) ↔ xs.countP p ≤ 1 := by
  induction xs with
  | nil => simp
  | cons x xs ih =>
    by_cases hx : p x
    · rw [List.eraseP_cons_of_pos hx, List.countP_cons_of_pos hx, Nat.add_le_add_iff_right,
        Nat.le_zero, List.countP_eq_zero]
    · rw [List.eraseP_cons_of_neg hx, List.countP_cons_of_neg hx, List.forall_mem_cons, ih]
      exact and_iff_right hx

theorem kinds_clearIntroducers (c : Contents) :
    c.clearIntroducers.addresses.map Address.kind = c.addresses.map Address.kind :=
  List.map_map

theorem sound_setUnreachable_iff {c : Contents} (h : c.Sound) :
    c.setUnreachable.Sound ↔ c.addresses.countP (·.transport = .ntcp) ≤ 1 := by
  have hkinds : c.setUnreachable.addresses.map Address.kind =
      (c.addresses.eraseP (·.transport = .ntcp)).map Address.kind := kinds_clearIntroducers _
  have htransports : (∀ address ∈ c.setUnreachable.addresses, address.transport ≠ .ntcp) ↔
      c.addresses.countP (·.transport = .ntcp) ≤ 1 := by
    rw [← forall_eraseP_iff]
    refine List.forall_mem_map.trans ?_
    exact forall₂_congr fun address _ => (not_congr decide_eq_true_iff).symm
  have hunreachable : c.setUnreachable.usesIntroducer :=
    show decide ((capUnreachable ||| capSSUTesting) &&& capUnreachable ≠ 0) = true by decide
  rw [← htransports]
  constructor
  · exact fun hsound => hsound.noNTCP hunreachable
  · intro hnone
    exact
      { onePerKind := hkinds ▸ h.onePerKind.sublist (List.eraseP_sublist.map _)
        oneReachability := fun hboth =>
          absurd (show decide ((capUnreachable ||| capSSUTesting) &&& capReachable ≠ 0) = true from
            hboth.1) (by decide)
        noNTCP := fun _ => hnone
        published := published_setCapBits _ _ }

theorem Sound.setHosts {c : Contents} (h : c.Sound) (newHost : SSU.IPAddress) :
    (c.setHosts newHost).2.Sound := by
  refine h.congr ?_ rfl rfl
  refine List.map_map.trans (List.map_congr_left fun address _ => ?_)
  rw [Function.comp_apply]
  split
  next hold =>
    have hversion := (of_decide_eq_true hold).2
    exact Prod.ext rfl hversion.symm
  · rfl

theorem kinds_addIntroducerTo {other : Address} {tag : UInt32} {before after : List Address}
    (h : addIntroducerTo other tag before = some after) :
    after.map Address.kind = before.map Address.kind := by
  induction before generalizing after with
  | nil => cases h
  | cons address before ih =>
    rw [addIntroducerTo] at h
    split at h
    · split at h
      · cases h
      · rw [← Option.some.inj h]
        rfl
    · obtain ⟨rest, hrest, rfl⟩ := Option.map_eq_some_iff.mp h
      rw [List.map_cons, List.map_cons, ih hrest]

theorem kinds_removeIntroducerFrom {host : SSU.IPAddress} {port : UInt16}
    {before after : List Address} (h : removeIntroducerFrom host port before = some after) :
    after.map Address.kind = before.map Address.kind := by
  induction before generalizing after with
  | nil => cases h
  | cons address before ih =>
    rw [removeIntroducerFrom] at h
    split at h
    · rw [← Option.some.inj h]
      rfl
    · obtain ⟨rest, hrest, rfl⟩ := Option.map_eq_some_iff.mp h
      rw [List.map_cons, List.map_cons, ih hrest]

theorem Sound.addIntroducer {c c' : Contents} {other : Address} {tag : UInt32} (h : c.Sound)
    (hadds : c.addIntroducer other tag = some c') : c'.Sound := by
  obtain ⟨addresses, haddresses, rfl⟩ := Option.map_eq_some_iff.mp hadds
  exact h.congr (kinds_addIntroducerTo haddresses) rfl rfl

theorem Sound.removeIntroducer {c c' : Contents} {host : SSU.IPAddress} {port : UInt16}
    (h : c.Sound) (hremoves : c.removeIntroducer host port = some c') : c'.Sound := by
  obtain ⟨addresses, haddresses, rfl⟩ := Option.map_eq_some_iff.mp hremoves
  exact h.congr (kinds_removeIntroducerFrom haddresses) rfl rfl

/-! ## New addresses -/

/-- Bits that are set elsewhere. -/
theorem or_and_of_disjoint {a b m : UInt8} (h : b &&& m = 0) : (a ||| b) &&& m = a &&& m := by
  apply UInt8.toBitVec_inj.mp
  have hbits : b.toBitVec &&& m.toBitVec = 0 := congrArg UInt8.toBitVec h
  rw [UInt8.toBitVec_and, UInt8.toBitVec_or, BitVec.and_or_distrib_right, hbits]
  exact BitVec.or_zero

/-- The SSU capabilities are not among the flags. -/
theorem getCapsFlags_ssu (caps : UInt8) :
    getCapsFlags (caps ||| (capSSUTesting ||| capSSUIntroducer)) = getCapsFlags caps := by
  rw [getCapsFlags, getCapsFlags, or_and_of_disjoint (m := capFloodfill) (by decide),
    or_and_of_disjoint (m := capHighBandwidth) (by decide),
    or_and_of_disjoint (m := capHidden) (by decide),
    or_and_of_disjoint (m := capReachable) (by decide),
    or_and_of_disjoint (m := capUnreachable) (by decide)]

/-- The host of the NTCP address for IPv6 can be set so that the kinds of addresses stay apart. -/
def NTCPV6HostFits (c : Contents) (host : SSU.IPAddress) : Prop :=
  if c.addresses.any isNTCPV6 then
    host.isV4 = false ∨ ∀ address ∈ c.addresses, address.kind ≠ (.ntcp, true)
  else
    c.usesIntroducer = false ∧ ∀ address ∈ c.addresses,
      address.kind ≠ (.ntcp, host.isV4) ∧ address.kind ≠ (.ssu, host.isV4)

theorem isNTCPV6_iff {address : Address} : isNTCPV6 address ↔ address.kind = (.ntcp, false) := by
  rw [isNTCPV6, decide_eq_true_iff, Address.kind, Prod.mk.injEq, Bool.not_eq_true', and_comm]

/-- The new host of the NTCP address for IPv6. -/
theorem sound_setHost_iff {c : Contents} (h : c.Sound) {address : Address}
    (haddress : address ∈ c.addresses) (hv6 : isNTCPV6 address) (host : SSU.IPAddress) :
    let setHost (address : Address) := if isNTCPV6 address then { address with host } else address
    Sound { c with addresses := c.addresses.map setHost } ↔
      host.isV4 = false ∨ ∀ address ∈ c.addresses, address.kind ≠ (.ntcp, true) := by
  dsimp only
  have hkind := isNTCPV6_iff.mp hv6
  have hreachable : ¬ c.usesIntroducer := fun hunreachable =>
    h.noNTCP hunreachable address haddress (Prod.mk.inj hkind).1
  generalize hedit : (fun address : Address =>
    if isNTCPV6 address then { address with host } else address) = edit
  have hkindV6 (a : Address) (ha : isNTCPV6 a) : (edit a).kind = (.ntcp, host.isV4) := by
    rw [← hedit, Address.kind]
    dsimp only
    rw [if_pos ha]
    exact Prod.ext (Prod.mk.inj (isNTCPV6_iff.mp ha)).1 rfl
  have hkindOther (a : Address) (ha : ¬ isNTCPV6 a) : (edit a).kind = a.kind := by
    rw [← hedit]
    dsimp only
    rw [if_neg ha]
  constructor
  · intro hsound
    by_contra hboth
    obtain ⟨hv4, hntcp⟩ := not_or.mp hboth
    rw [Bool.not_eq_false] at hv4
    push Not at hntcp
    obtain ⟨other, hother, hkind'⟩ := hntcp
    -- the two NTCP addresses are now of one kind, and so they are one address
    have hnot : ¬ isNTCPV6 other := by
      rw [isNTCPV6_iff, hkind']
      exact nofun
    have hnodup : (c.addresses.map (Address.kind ∘ edit)).Nodup := by
      rw [← List.map_map]
      exact hsound.onePerKind
    have heq : address = other := by
      refine List.inj_on_of_nodup_map hnodup haddress hother ?_
      rw [Function.comp_apply, Function.comp_apply, hkindV6 address hv6, hkindOther other hnot,
        hkind', hv4]
    exact hnot (heq ▸ hv6)
  · intro hfree
    have hother (a : Address) (ha : a ∈ c.addresses) (hav6 : ¬ isNTCPV6 a) :
        a.kind ≠ (.ntcp, host.isV4) := by
      rcases hfree with hhost | hntcp
      · rw [hhost]
        exact mt isNTCPV6_iff.mpr hav6
      · rcases hv4 : host.isV4
        · exact mt isNTCPV6_iff.mpr hav6
        · exact hntcp a ha
    have hinj : ∀ a ∈ c.addresses, ∀ b ∈ c.addresses, (edit a).kind = (edit b).kind → a = b := by
      intro a ha b hb heq
      by_cases hav6 : isNTCPV6 a
      · by_cases hbv6 : isNTCPV6 b
        · have hkinds := (isNTCPV6_iff.mp hav6).trans (isNTCPV6_iff.mp hbv6).symm
          exact List.inj_on_of_nodup_map h.onePerKind ha hb hkinds
        · rw [hkindV6 a hav6, hkindOther b hbv6] at heq
          exact absurd heq.symm (hother b hb hbv6)
      · by_cases hbv6 : isNTCPV6 b
        · rw [hkindV6 b hbv6, hkindOther a hav6] at heq
          exact absurd heq (hother a ha hav6)
        · rw [hkindOther a hav6, hkindOther b hbv6] at heq
          exact List.inj_on_of_nodup_map h.onePerKind ha hb heq
    exact
      { onePerKind := by
          rw [List.map_map]
          exact h.onePerKind.of_map.map_on hinj
        oneReachability := h.oneReachability
        noNTCP := fun hunreachable => absurd hunreachable hreachable
        published := h.published }

theorem nodup_append_pair {α : Type} {xs : List α} {x y : α} (hxs : xs.Nodup) (hne : x ≠ y) :
    (xs ++ [x, y]).Nodup ↔ ∀ z ∈ xs, z ≠ x ∧ z ≠ y := by
  have hpair : [x, y].Nodup := List.nodup_cons.mpr ⟨by simpa using hne, List.nodup_singleton y⟩
  rw [List.nodup_append, and_iff_right hxs, and_iff_right hpair]
  exact forall₂_congr fun z _ => by simp

/-- The new NTCP and SSU addresses. -/
theorem sound_addAddresses_iff {c : Contents} (h : c.Sound) (host : SSU.IPAddress) (port : UInt16)
    (identHash : List UInt8) (mtu : UInt16) :
    ((c.addNTCPAddress host port).addSSUAddress host port identHash mtu).Sound ↔
      c.usesIntroducer = false ∧ ∀ address ∈ c.addresses,
        address.kind ≠ (.ntcp, host.isV4) ∧ address.kind ≠ (.ssu, host.isV4) := by
  generalize hafter : (c.addNTCPAddress host port).addSSUAddress host port identHash mtu = after
  have hcaps (m : UInt8) (hm : (capSSUTesting ||| capSSUIntroducer) &&& m = 0) :
      after.caps &&& m = c.caps &&& m := by
    rw [← hafter]
    exact or_and_of_disjoint hm
  have hunreachable : after.usesIntroducer = c.usesIntroducer := by
    rw [usesIntroducer, usesIntroducer, hcaps capUnreachable (by decide)]
  have haddresses : after.addresses = c.addresses ++
      [{ transport := .ntcp, host, port, cost := 10 },
        { transport := .ssu, host, port, mtu, cost := 5, key := identHash }] := by
    rw [← hafter]
    exact List.append_assoc ..
  have hkinds : (after.addresses.map Address.kind).Nodup ↔ ∀ address ∈ c.addresses,
      address.kind ≠ (.ntcp, host.isV4) ∧ address.kind ≠ (.ssu, host.isV4) := by
    rw [haddresses, List.map_append]
    have hne : (Transport.ntcp, host.isV4) ≠ (Transport.ssu, host.isV4) := by simp
    exact (nodup_append_pair h.onePerKind hne).trans List.forall_mem_map
  constructor
  · intro hsound
    refine ⟨?_, hkinds.mp hsound.onePerKind⟩
    rw [← hunreachable, ← Bool.not_eq_true]
    intro hisUnreachable
    refine hsound.noNTCP hisUnreachable { transport := .ntcp, host, port, cost := 10 } ?_ rfl
    rw [haddresses]
    simp
  · rintro ⟨hreachable, hfree⟩
    have hnot : ¬ after.usesIntroducer := by
      rw [hunreachable, hreachable]
      exact Bool.false_ne_true
    exact
      { onePerKind := hkinds.mpr hfree
        oneReachability := fun hboth => hnot hboth.2
        noNTCP := fun hisUnreachable => absurd hisUnreachable hnot
        published := by
          have hpublished := h.published
          rw [Published, setOption] at hpublished ⊢
          rw [← hafter, addSSUAddress, addNTCPAddress, getCapsFlags_ssu]
          exact hpublished }

theorem sound_setNTCPV6Host_iff {c : Contents} (h : c.Sound) (host : SSU.IPAddress)
    (identHash : List UInt8) (mtu : UInt16) :
    (c.setNTCPV6Host host identHash mtu).2.Sound ↔ c.NTCPV6HostFits host := by
  rw [setNTCPV6Host, NTCPV6HostFits]
  split
  next hfound =>
    obtain ⟨address, haddress, hv6⟩ := List.any_eq_true.mp hfound
    exact sound_setHost_iff h haddress hv6 host
  next => exact sound_addAddresses_iff h host _ identHash mtu

end Contents

/-! ## The buffer -/

namespace RouterContext

variable (env : ContextEnv)

/-- `CreateBuffer` can write the members. -/
def fits (c : Contents) : Bool :=
  match createRouterInfo env.toWriteEnv env.identity c.timestamp c with
  | .ok (_, bytes) => bytes.length ≤ maxBuffer
  | .error _ => false

/-- The buffer encodes the members. -/
def Encoded (s : RouterContext) : Prop :=
  createRouterInfo env.toWriteEnv env.identity s.contents.timestamp s.contents =
    .ok (s.contents, s.signed)

/-- The own router info is consistent. -/
structure Consistent (s : RouterContext) : Prop where
  sound : s.contents.Sound
  encoded : s.Encoded env

/-- A consistent router info in a buffer that `CreateBuffer` has filled. -/
structure Invariant (s : RouterContext) : Prop extends Consistent env s where
  size : s.signed.length ≤ maxBuffer

variable {env}

theorem fits_iff {c : Contents} : fits env c ↔ env.identity.toBuffer.length ≤ 1024 ∧
    ∃ members, writeMembers env.toWriteEnv c = .ok members ∧
      env.identity.toBuffer.length + 8 + members.length ≤ maxBuffer := by
  have hlength (members : List UInt8) : (env.identity.toBuffer ++ writeBE 8 c.timestamp.toNat ++
      members).length = env.identity.toBuffer.length + 8 + members.length := by
    rw [List.length_append, List.length_append, length_writeBE]
  rw [fits]
  split
  next c' bytes hok =>
    obtain ⟨hident, members, hmembers, heq⟩ := createRouterInfo_eq_ok_iff.mp hok
    rw [(Prod.mk.inj heq).2, hlength, decide_eq_true_iff]
    refine ⟨fun h => ⟨hident, members, hmembers, h⟩, ?_⟩
    rintro ⟨-, members', hmembers', h⟩
    rw [hmembers] at hmembers'
    rwa [Except.ok.inj hmembers']
  next e herror =>
    refine iff_of_false nofun ?_
    rintro ⟨hident, members, hmembers, -⟩
    have hok : createRouterInfo env.toWriteEnv env.identity c.timestamp c = .ok _ :=
      createRouterInfo_eq_ok_iff.mpr ⟨hident, members, hmembers, rfl⟩
    rw [herror] at hok
    cases hok

/-- The timestamp takes the same room whatever it is. -/
theorem fits_timestamp (c : Contents) (now : UInt64) :
    fits env { c with timestamp := now } ↔ fits env c := by
  rw [fits_iff, fits_iff]
  rfl

/-- Members that are not written are not encoded. -/
theorem not_fits_of_error {c : Contents} {now : UInt64} {e : Failure}
    (h : createRouterInfo env.toWriteEnv env.identity now c = .error e) : ¬ fits env c := by
  intro hfits
  obtain ⟨hident, members, hmembers, -⟩ := fits_iff.mp hfits
  have hok : createRouterInfo env.toWriteEnv env.identity now c = .ok _ :=
    createRouterInfo_eq_ok_iff.mpr ⟨hident, members, hmembers, rfl⟩
  rw [h] at hok
  cases hok

theorem fits_iff_of_ok {c : Contents} {now : UInt64} {r : Contents × List UInt8}
    (h : createRouterInfo env.toWriteEnv env.identity now c = .ok r) :
    fits env c ↔ r.2.length ≤ maxBuffer := by
  have hsame : createRouterInfo env.toWriteEnv env.identity now { c with timestamp := now } = .ok r :=
    h
  rw [← fits_timestamp c now, fits, hsame]
  exact decide_eq_true_iff

/-- Encoded members fit the buffer. -/
theorem fits_of_encoded {s : RouterContext} (hsize : s.signed.length ≤ maxBuffer)
    (h : s.Encoded env) : fits env s.contents := by
  rw [Encoded] at h
  rw [fits, h]
  exact decide_eq_true hsize

variable (env) in
/-- `CreateBuffer` sets the timestamp of the members. Its buffer encodes them if they fit. -/
theorem createBuffer_spec (now : UInt64) {s : RouterContext} (hsize : s.signed.length ≤ maxBuffer) :
    let after := (createBuffer env now s).2
    (∃ timestamp, after.contents = { s.contents with timestamp }) ∧
      after.signed.length ≤ maxBuffer ∧ (after.Encoded env ↔ fits env s.contents) := by
  dsimp only
  rw [createBuffer]
  split
  next e herror =>
    have hnot := not_fits_of_error herror
    have hafter : ∃ timestamp, (if 1024 < env.identity.toBuffer.length then s
        else { s with contents.timestamp := now }) = { s with contents.timestamp := timestamp } := by
      split
      · exact ⟨s.contents.timestamp, rfl⟩
      · exact ⟨now, rfl⟩
    obtain ⟨timestamp, hafter⟩ := hafter
    dsimp only
    rw [hafter]
    refine ⟨⟨timestamp, rfl⟩, hsize, iff_of_false (fun hencoded => ?_) hnot⟩
    have hfits : fits env { s.contents with timestamp } := fits_of_encoded (by exact hsize) hencoded
    rw [fits_timestamp] at hfits
    exact hnot hfits
  next contents bytes hok =>
    obtain ⟨-, members, -, heq⟩ := createRouterInfo_eq_ok_iff.mp hok
    obtain ⟨rfl, -⟩ := Prod.mk.inj heq
    -- the members with the new timestamp are written with it
    have hsame : createRouterInfo env.toWriteEnv env.identity now
        { s.contents with timestamp := now } = .ok ({ s.contents with timestamp := now }, bytes) := hok
    have hfits := fits_iff_of_ok hok
    split
    next hlong =>
      refine ⟨⟨now, rfl⟩, hsize, iff_of_false (fun hencoded => ?_) fun h => ?_⟩
      · rw [Encoded, hsame, Except.ok.injEq] at hencoded
        rw [(Prod.mk.inj hencoded).2] at hlong
        exact Nat.not_lt.mpr hsize hlong
      · exact Nat.not_lt.mpr (hfits.mp h) hlong
    next hshort =>
      have hle := Nat.not_lt.mp hshort
      exact ⟨⟨now, rfl⟩, hle, iff_of_true hsame (hfits.mpr hle)⟩

theorem fits_of_updateRouterInfo_eq_ok {u : Update} {s s' : RouterContext}
    (h : updateRouterInfo env u s = (.ok (), s')) : fits env s.contents := by
  rw [updateRouterInfo] at h
  split at h
  · cases h
  next hcreate =>
    rw [createBuffer] at hcreate
    split at hcreate
    · cases hcreate
    next hok =>
      split at hcreate
      · cases hcreate
      next hshort => exact (fits_iff_of_ok hok).mpr (Nat.not_lt.mp hshort)

variable (env) in
theorem updateRouterInfo_eq (u : Update) (s : RouterContext) :
    ∃ lastUpdateTime, (updateRouterInfo env u s).2 =
      { (createBuffer env u.milliseconds s).2 with lastUpdateTime } := by
  rw [updateRouterInfo]
  split
  next heq => exact ⟨_, by rw [heq]⟩
  next heq =>
    split
    · exact ⟨u.seconds, by rw [heq]⟩
    · exact ⟨_, by rw [heq]⟩

/-- Behind `UpdateRouterInfo` the router info is consistent if its members are sound and fit. -/
theorem consistent_updateRouterInfo_iff (u : Update) {s : RouterContext}
    (hsize : s.signed.length ≤ maxBuffer) :
    (updateRouterInfo env u s).2.Consistent env ↔ s.contents.Sound ∧ fits env s.contents := by
  obtain ⟨lastUpdateTime, heq⟩ := updateRouterInfo_eq env u s
  obtain ⟨⟨timestamp, hcontents⟩, -, hencoded⟩ := createBuffer_spec env u.milliseconds hsize
  rw [heq]
  constructor
  · intro h
    have hsound := h.sound
    rw [hcontents] at hsound
    exact ⟨hsound.congr rfl rfl rfl, hencoded.mp h.encoded⟩
  · rintro ⟨hsound, hfits⟩
    exact
      { sound := by
          rw [hcontents]
          exact hsound.congr rfl rfl rfl
        encoded := hencoded.mpr hfits }

variable (env) in
theorem length_signed_updateRouterInfo_le (u : Update) {s : RouterContext}
    (hsize : s.signed.length ≤ maxBuffer) :
    (updateRouterInfo env u s).2.signed.length ≤ maxBuffer := by
  obtain ⟨lastUpdateTime, heq⟩ := updateRouterInfo_eq env u s
  rw [heq]
  exact (createBuffer_spec env u.milliseconds hsize).2.1

theorem updateIf_eq (u : Update) (s : RouterContext) (edited : Bool × Contents) :
    (updateIf env u s edited).2 =
      if edited.1 then (updateRouterInfo env u { s with contents := edited.2 }).2
      else { s with contents := edited.2 } := by
  rw [updateIf]
  split <;> rfl

/-- Members that were not edited need no `UpdateRouterInfo`. -/
theorem consistent_updateIf_iff (u : Update) {s : RouterContext} (h : s.Invariant env)
    {edited : Bool × Contents} (hsame : edited.1 = false → edited.2 = s.contents) :
    (updateIf env u s edited).2.Consistent env ↔ edited.2.Sound ∧ fits env edited.2 := by
  rw [updateIf_eq]
  split
  · exact consistent_updateRouterInfo_iff u h.size
  next hnot =>
    rw [hsame (Bool.eq_false_iff.mpr hnot)]
    exact iff_of_true h.toConsistent ⟨h.sound, fits_of_encoded h.size h.encoded⟩

theorem length_signed_updateIf_le (u : Update) {s : RouterContext}
    (hsize : s.signed.length ≤ maxBuffer) (edited : Bool × Contents) :
    (updateIf env u s edited).2.signed.length ≤ maxBuffer := by
  rw [updateIf_eq]
  split
  · exact length_signed_updateRouterInfo_le env u hsize
  · exact hsize

/-! ## Calls -/

/-- `SetReachable` changes nothing that is published: there is no SSU address, and the flags stay. -/
def ReachableAlready (c : Contents) (isFloodfill : Bool) : Prop :=
  (∀ address ∈ c.addresses, address.transport ≠ .ssu) ∧
    getCapsFlags (c.reachableCaps isFloodfill) = getCapsFlags c.caps

variable (env) in
/-- The calls that keep the own router info consistent. -/
def Allowed (s : RouterContext) : ContextCall → Prop
  | .setReachable => ReachableAlready s.contents env.isFloodfill
  | .setUnreachable _ =>
    s.contents.addresses.countP (·.transport = .ntcp) ≤ 1 ∧ fits env s.contents.setUnreachable
  | .updateAddress host _ _ =>
    (SSU.IPAddress.ofBytes? host).all fun newHost => fits env (s.contents.setHosts newHost).2
  | .updateNTCPV6Address host mtu _ =>
    s.contents.NTCPV6HostFits host ∧ fits env (s.contents.setNTCPV6Host host env.identHash mtu).2
  | .addIntroducer routerInfo tag _ =>
    (getSSUAddress routerInfo false).all fun address =>
      (s.contents.addIntroducer address tag).all (fits env)
  | .removeIntroducer host port _ =>
    (s.contents.removeIntroducer host port).all (fits env)

theorem reachableCaps_and_unreachable (c : Contents) (isFloodfill : Bool) :
    c.reachableCaps isFloodfill &&& capUnreachable = 0 := by
  have hfloodfill : (if isFloodfill then capFloodfill else 0) &&& capUnreachable = 0 := by
    split <;> decide
  rw [Contents.reachableCaps, Contents.or_and_of_disjoint hfloodfill,
    Contents.or_and_of_disjoint (by decide), Contents.or_and_of_disjoint (by decide),
    UInt8.and_assoc, show ~~~capUnreachable &&& capUnreachable = 0 by decide, UInt8.and_zero]

/-- Without SSU addresses only the capabilities and the introducers are changed. -/
theorem setReachable_of_not_ssu {c : Contents} (isFloodfill : Bool)
    (h : ∀ address ∈ c.addresses, address.transport ≠ .ssu) :
    c.setReachable isFloodfill = (c.setCapBits (c.reachableCaps isFloodfill)).clearIntroducers := by
  have hnone : c.addresses.find? (·.transport = .ssu) = none :=
    List.find?_eq_none.mpr fun address haddress => by simpa using h address haddress
  rw [Contents.setReachable, Contents.setCapBits_addresses, hnone]

/-- With an SSU address, there is one more address. -/
theorem length_addresses_setReachable {c : Contents} (isFloodfill : Bool)
    (h : ∃ address ∈ c.addresses, address.transport = .ssu) :
    (c.setReachable isFloodfill).addresses.length = c.addresses.length + 1 := by
  obtain ⟨address, haddress, htransport⟩ := h
  rw [Contents.setReachable, Contents.setCapBits_addresses]
  rcases hfind : c.addresses.find? (·.transport = .ssu) with _ | found
  · exact absurd htransport (by simpa using List.find?_eq_none.mp hfind address haddress)
  · rw [hfind]
    dsimp only
    rw [Contents.clearIntroducers, List.length_map, Contents.addNTCPAddress, List.length_append]
    rfl

theorem sound_setReachable {c : Contents} (h : c.Sound) (isFloodfill : Bool)
    (hssu : ∀ address ∈ c.addresses, address.transport ≠ .ssu) :
    (c.setReachable isFloodfill).Sound := by
  rw [setReachable_of_not_ssu isFloodfill hssu]
  have hreachable : ¬ (c.setCapBits (c.reachableCaps isFloodfill)).clearIntroducers.usesIntroducer := by
    rw [Contents.usesIntroducer, decide_eq_true_iff, not_not]
    exact reachableCaps_and_unreachable c isFloodfill
  exact
    { onePerKind := by
        rw [Contents.kinds_clearIntroducers]
        exact h.onePerKind
      oneReachability := fun hboth => hreachable hboth.2
      noNTCP := fun hunreachable => absurd hunreachable hreachable
      published := Contents.published_setCapBits _ _ }

theorem encoded_iff {s : RouterContext} : s.Encoded env ↔ env.identity.toBuffer.length ≤ 1024 ∧
    ∃ members, writeMembers env.toWriteEnv s.contents = .ok members ∧
      s.signed = env.identity.toBuffer ++ writeBE 8 s.contents.timestamp.toNat ++ members := by
  rw [Encoded, createRouterInfo_eq_ok_iff]
  refine and_congr_right fun _ => exists_congr fun members => and_congr_right fun _ => ?_
  rw [Prod.mk.injEq]
  exact and_iff_right rfl

/-- One buffer encodes one row of members. -/
theorem writeMembers_eq_of_encoded {s s' : RouterContext} (h : s.Encoded env) (h' : s'.Encoded env)
    (hsigned : s'.signed = s.signed) : ∃ members,
      writeMembers env.toWriteEnv s.contents = .ok members ∧
        writeMembers env.toWriteEnv s'.contents = .ok members := by
  obtain ⟨-, members, hmembers, heq⟩ := encoded_iff.mp h
  obtain ⟨-, members', hmembers', heq'⟩ := encoded_iff.mp h'
  rw [hsigned, heq] at heq'
  have hlen : (env.identity.toBuffer ++ writeBE 8 s.contents.timestamp.toNat).length =
      (env.identity.toBuffer ++ writeBE 8 s'.contents.timestamp.toNat).length := by
    rw [List.length_append, List.length_append, length_writeBE, length_writeBE]
  exact ⟨members, hmembers, (List.append_inj heq' hlen).2 ▸ hmembers'⟩

theorem ofNat_ne_ofNat_succ (n : ℕ) : UInt8.ofNat (n + 1) ≠ UInt8.ofNat n := by
  intro h
  have hnat := congrArg UInt8.toNat h
  simp only [UInt8.toNat_ofNat'] at hnat
  omega

/-- `SetReachable` does not sign: the buffer encodes the members if they are written as before. -/
theorem consistent_setReachable_iff {s : RouterContext} (h : s.Invariant env) :
    (s.setReachable env).Consistent env ↔ ReachableAlready s.contents env.isFloodfill := by
  generalize hafter : s.setReachable env = after
  have hcontents : after.contents = s.contents.setReachable env.isFloodfill := hafter ▸ rfl
  by_cases hssu : ∀ address ∈ s.contents.addresses, address.transport ≠ .ssu
  · have hclear := setReachable_of_not_ssu env.isFloodfill hssu
    have haddresses : writeAddresses env.toWriteEnv (ssuCapsFlags after.contents)
        after.contents.addresses =
          writeAddresses env.toWriteEnv (ssuCapsFlags s.contents) s.contents.addresses := by
      rw [hcontents, hclear]
      exact writeAddresses_clearIntroducers _ _ _ hssu
    have hlen : after.contents.addresses.length = s.contents.addresses.length := by
      rw [hcontents, hclear]
      exact List.length_map _
    have hoptions : after.contents.options = (s.contents.setOption (trait "caps")
        (getCapsFlags (s.contents.reachableCaps env.isFloodfill))).options := by
      rw [hcontents, hclear]
      rfl
    rw [ReachableAlready, and_iff_right hssu]
    constructor
    · intro hconsistent
      obtain ⟨members, hbefore, hbehind⟩ :=
        writeMembers_eq_of_encoded h.encoded hconsistent.encoded (hafter ▸ rfl)
      obtain ⟨addresses, hwrites, hfit, rfl⟩ := writeMembers_eq_ok_iff.mp hbefore
      obtain ⟨addresses', hwrites', hfit', heq⟩ := writeMembers_eq_ok_iff.mp hbehind
      rw [haddresses, hwrites, Except.ok.injEq] at hwrites'
      rw [hlen, ← hwrites', List.append_cancel_left_eq, List.cons.injEq] at heq
      have hsame := optionsBytes_inj hfit hfit' heq.2
      rw [hoptions, ← h.sound.published] at hsame
      exact (Contents.value_inj_of_setOption hsame).symm
    · intro hflags
      have hsame : after.contents.options = s.contents.options := by
        rw [hoptions, hflags]
        exact h.sound.published
      refine { sound := hcontents ▸ sound_setReachable h.sound _ hssu, encoded := ?_ }
      obtain ⟨hident, members, hmembers, hsigned⟩ := encoded_iff.mp h.encoded
      refine encoded_iff.mpr ⟨hident, members, ?_, ?_⟩
      · rw [writeMembers_eq_ok_iff] at hmembers ⊢
        rwa [haddresses, hlen, hsame]
      · rw [hcontents, hclear, ← hafter]
        exact hsigned
  · refine iff_of_false (fun hconsistent => ?_) fun hsame => hssu hsame.1
    push Not at hssu
    obtain ⟨members, hbefore, hbehind⟩ :=
      writeMembers_eq_of_encoded h.encoded hconsistent.encoded (hafter ▸ rfl)
    obtain ⟨addresses, -, -, rfl⟩ := writeMembers_eq_ok_iff.mp hbefore
    obtain ⟨addresses', -, -, heq⟩ := writeMembers_eq_ok_iff.mp hbehind
    -- the number of addresses is written first
    rw [hcontents, length_addresses_setReachable _ hssu] at heq
    exact ofNat_ne_ofNat_succ _ (List.head_eq_of_cons_eq heq).symm

theorem setHosts_of_not_updated {c : Contents} {newHost : SSU.IPAddress}
    (h : (c.setHosts newHost).1 = false) : (c.setHosts newHost).2 = c := by
  have haddresses : (c.setHosts newHost).2.addresses = c.addresses := by
    refine (List.map_congr_left fun address haddress => ?_).trans (List.map_id _)
    exact if_neg (List.any_eq_false.mp h address haddress)
  rw [show (c.setHosts newHost).2 = { c with addresses := (c.setHosts newHost).2.addresses } from rfl,
    haddresses]

theorem setNTCPV6Host_of_not_updated {c : Contents} {host : SSU.IPAddress} {identHash : List UInt8}
    {mtu : UInt16} (h : (c.setNTCPV6Host host identHash mtu).1 = false) :
    (c.setNTCPV6Host host identHash mtu).2 = c := by
  rw [Contents.setNTCPV6Host] at h ⊢
  split at h
  next hfound =>
    rw [if_pos hfound]
    have haddresses : (c.addresses.map fun address =>
        if Contents.isNTCPV6 address then { address with host } else address) = c.addresses := by
      refine (List.map_congr_left fun address haddress => ?_).trans (List.map_id _)
      split
      next hv6 =>
        -- the host is the old one
        have hold := List.any_eq_false.mp h address haddress
        rw [decide_eq_true_iff, not_and, not_not] at hold
        rw [← hold hv6]
        rfl
      · rfl
    rw [haddresses]
  · cases h

/-- A call leaves the own router info consistent if and only if it is allowed. -/
theorem consistent_call_iff {s : RouterContext} (h : s.Invariant env) (c : ContextCall) :
    (s.call env c).Consistent env ↔ s.Allowed env c := by
  have hsame := h.toConsistent
  rcases c with _ | u | ⟨host, timestamp, u⟩ | ⟨host, mtu, u⟩ | ⟨routerInfo, tag, u⟩ | ⟨host, port, u⟩
  · exact consistent_setReachable_iff h
  · rw [call, setUnreachable, consistent_updateRouterInfo_iff u, Allowed]
    · rw [Contents.sound_setUnreachable_iff h.sound]
    · exact h.size
  · rw [call, updateAddress, Allowed]
    rcases SSU.IPAddress.ofBytes? host with _ | newHost
    · exact iff_of_true hsame rfl
    · dsimp only
      rw [consistent_updateIf_iff u h]
      · rw [and_iff_right (h.sound.setHosts newHost)]
        rfl
      · intro hnot
        exact setHosts_of_not_updated (Bool.or_eq_false_iff.mp hnot).1
  · rw [call, updateNTCPV6Address, Allowed, consistent_updateIf_iff u h,
      Contents.sound_setNTCPV6Host_iff h.sound]
    exact setNTCPV6Host_of_not_updated
  · rw [call, addIntroducer, Allowed]
    rcases getSSUAddress routerInfo false with _ | address
    · exact iff_of_true hsame rfl
    · rw [Option.all_some]
      dsimp only
      rcases hadds : s.contents.addIntroducer address tag with _ | contents
      · exact iff_of_true hsame rfl
      · dsimp only
        rw [consistent_updateRouterInfo_iff u]
        · rw [and_iff_right (h.sound.addIntroducer hadds)]
          rfl
        · exact h.size
  · rw [call, removeIntroducer, Allowed]
    rcases hremoves : s.contents.removeIntroducer host port with _ | contents
    · exact iff_of_true hsame rfl
    · dsimp only
      rw [consistent_updateRouterInfo_iff u]
      · rw [and_iff_right (h.sound.removeIntroducer hremoves)]
        rfl
      · exact h.size

theorem length_signed_call_le {s : RouterContext} (hsize : s.signed.length ≤ maxBuffer)
    (c : ContextCall) : (s.call env c).signed.length ≤ maxBuffer := by
  rcases c with _ | u | ⟨host, timestamp, u⟩ | ⟨host, mtu, u⟩ | ⟨routerInfo, tag, u⟩ | ⟨host, port, u⟩
  · exact hsize
  · exact length_signed_updateRouterInfo_le env u (by exact hsize)
  · rw [call, updateAddress]
    split
    · exact hsize
    · exact length_signed_updateIf_le u hsize _
  · exact length_signed_updateIf_le u hsize _
  · rw [call, addIntroducer]
    split
    · exact hsize
    · split
      · exact hsize
      · exact length_signed_updateRouterInfo_le env u (by exact hsize)
  · rw [call, removeIntroducer]
    split
    · exact hsize
    · exact length_signed_updateRouterInfo_le env u (by exact hsize)

theorem Invariant.call {s : RouterContext} (h : s.Invariant env) {c : ContextCall}
    (hallowed : s.Allowed env c) : (s.call env c).Invariant env where
  toConsistent := (consistent_call_iff h c).mpr hallowed
  size := length_signed_call_le h.size c

variable (env) in
/-- A router that `Initialize` has set up: its own router info has at most one address for a transport
and an IP version, it is not unreachable, `SetCaps` was called, and `UpdateRouterInfo` has returned. -/
def Initialised (s : RouterContext) : Prop :=
  ∃ (c : Contents) (u : Update), (c.addresses.map Address.kind).Nodup ∧
    c.usesIntroducer = false ∧ c.Published ∧ updateRouterInfo env u { contents := c } = (.ok (), s)

theorem Initialised.invariant {s : RouterContext} (h : s.Initialised env) : s.Invariant env := by
  obtain ⟨c, u, hkinds, hreachable, hpublished, hupdate⟩ := h
  have hnot : ¬ c.usesIntroducer := by
    rw [hreachable]
    exact Bool.false_ne_true
  have hsound : c.Sound :=
    { onePerKind := hkinds
      oneReachability := fun hboth => hnot hboth.2
      noNTCP := fun hunreachable => absurd hunreachable hnot
      published := hpublished }
  have hsize : ({ contents := c } : RouterContext).signed.length ≤ maxBuffer := Nat.zero_le _
  have hfits := fits_of_updateRouterInfo_eq_ok hupdate
  have hconsistent := (consistent_updateRouterInfo_iff u hsize).mpr ⟨hsound, hfits⟩
  have hlen := length_signed_updateRouterInfo_le env u hsize
  rw [hupdate] at hconsistent hlen
  exact { toConsistent := hconsistent, size := hlen }

/-- The own router info is consistent throughout a run of calls if and only if each of them is
allowed. -/
theorem consistent_throughout_iff {s : RouterContext} (h : s.Initialised env)
    (calls : List ContextCall) :
    Runs.Always (call env) (Consistent env) s calls ↔
      Runs.Meets (call env) (Allowed env) s calls :=
  Runs.always_iff_meets (I := Invariant env) (fun _ _ h hallowed => h.call hallowed)
    (fun _ h => h.toConsistent)
    (fun _ c h hnot hconsistent => hnot ((consistent_call_iff h c).mp hconsistent)) h.invariant calls

/-! ### Examples -/

def exampleContextEnv : ContextEnv where
  toWriteEnv := exampleWriteEnv
  identity := {}
  identHash := List.replicate 32 0
  isFloodfill := false

/-- An NTCP and an SSU address. -/
def exampleOwnInfo : Contents :=
  Contents.setCapBits
    { addresses :=
        [{ transport := .ntcp, host := exampleHost, port := 9111, cost := 10 },
          { transport := .ssu, host := exampleHost, port := 9111, mtu := 1484, cost := 5 }]
      supportedTransports := 0x05 }
    (capHighBandwidth ||| capSSUTesting ||| capSSUIntroducer)

def exampleUpdate : Update where
  milliseconds := 1000
  seconds := 1

def exampleContext : RouterContext :=
  (updateRouterInfo exampleContextEnv exampleUpdate { contents := exampleOwnInfo }).2

theorem initialised_exampleContext : exampleContext.Initialised exampleContextEnv := by
  have hok : (updateRouterInfo exampleContextEnv exampleUpdate { contents := exampleOwnInfo }).1 =
      .ok () := by decide +kernel
  refine ⟨exampleOwnInfo, exampleUpdate, by decide +kernel, by decide +kernel,
    Contents.published_setCapBits _ _, ?_⟩
  rw [exampleContext, ← hok]

/-- A firewalled router with an introducer. -/
def exampleCalls : List ContextCall :=
  [.setUnreachable exampleUpdate, .addIntroducer exampleOwnInfo 7 exampleUpdate,
    .updateAddress [192, 0, 2, 7] 2000 exampleUpdate]

theorem consistent_throughout_exampleCalls :
    Runs.Always (call exampleContextEnv) (Consistent exampleContextEnv) exampleContext exampleCalls := by
  refine (consistent_throughout_iff initialised_exampleContext exampleCalls).mpr ?_
  refine ⟨⟨?_, ?_⟩, ?_, ?_, trivial⟩
  · decide +kernel
  · decide +kernel
  · rw [Allowed]
    decide +kernel
  · rw [Allowed]
    decide +kernel

/-- `SetReachable` adds a second NTCP address and does not sign. -/
theorem not_consistent_setReachable :
    exampleContext.Initialised exampleContextEnv ∧
      ¬ Runs.Always (call exampleContextEnv) (Consistent exampleContextEnv) exampleContext
        [.setReachable] := by
  refine ⟨initialised_exampleContext, fun h => ?_⟩
  have hkinds := (h [.setReachable] (List.prefix_refl _)).sound.onePerKind
  revert hkinds
  decide +kernel

end RouterContext

end Router
