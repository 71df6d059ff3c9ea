import Mathlib.Data.List.Basic
import Mathlib.Tactic

/-!
# Tunnel configurations

`TunnelHopConfig` and `TunnelConfig` of `core/router/tunnel/config.cc`. The hops of a tunnel are linked in
both directions. Here they are in the order in which they have been allocated, and a pointer to a hop is its
place in that order. Routers are not null. The keys of a hop are not used by the links, and are left out.

* `getElem?_linkHops`: every hop behind the loop of the constructor.
* `linked_of_tunnelConfig`: the links of a configuration that has been made.
* `config_sound`: with what `Invert` and `Clone` make of it.
-/

namespace Tunnel.Config

variable {R : Type}

/-! ## Hops -/

/-- `TunnelHopConfig`. -/
structure TunnelHopConfig (R : Type) where
  currentRouter : R
  tunnelID : UInt32
  nextRouter : Option R := none
  nextTunnelID : UInt32 := 0
  previousHop : Option ℕ := none
  nextHop : Option ℕ := none
  isGateway : Bool := true
  isEndpoint : Bool := true
  deriving DecidableEq

/-- `SetNextRouter`. -/
def TunnelHopConfig.setNextRouter (hop : TunnelHopConfig R) (router : R) (tunnelID : UInt32)
    (isEndpoint : Bool := false) : TunnelHopConfig R :=
  { hop with nextRouter := some router, nextTunnelID := tunnelID, isEndpoint }

/-- `TunnelConfig`, with its hops. -/
structure TunnelConfig (R : Type) where
  hops : List (TunnelHopConfig R) := []
  firstHop : Option ℕ := none
  lastHop : Option ℕ := none
  deriving DecidableEq

namespace TunnelConfig

/-- The hop to which a pointer points. -/
def deref (c : TunnelConfig R) (p : Option ℕ) : Option (TunnelHopConfig R) := p.bind (c.hops[·]?)

def modifyHop (c : TunnelConfig R) (i : ℕ) (f : TunnelHopConfig R → TunnelHopConfig R) :
    TunnelConfig R :=
  { c with hops := c.hops.modify i f }

/-- `SetNextHop`. -/
def setNextHop (c : TunnelConfig R) (this : ℕ) (hop : Option ℕ) : TunnelConfig R :=
  let c := c.modifyHop this fun h => { h with nextHop := hop }
  match hop, c.deref hop with
  | some i, some next =>
    let c := c.modifyHop i fun h => { h with previousHop := some this, isGateway := false }
    c.modifyHop this fun h => h.setNextRouter next.currentRouter next.tunnelID
  | _, _ => c

/-- One round of the loop of the constructor. -/
def addHop (rand : ℕ → UInt32) (c : TunnelConfig R) (prev : Option ℕ) (router : R) : TunnelConfig R :=
  let hop := c.hops.length
  let new : TunnelHopConfig R := { currentRouter := router, tunnelID := rand hop }
  let c := { c with hops := c.hops ++ [new] }
  match prev with
  | some prev => c.setNextHop prev (some hop)
  | none => { c with firstHop := some hop }

/-- The loop of the constructor, and the `prev` with which it ends. -/
def linkHops (rand : ℕ → UInt32) (peers : List R) : TunnelConfig R × Option ℕ :=
  peers.foldl (fun (c, prev) router => (c.addHop rand prev router, some c.hops.length))
    (({} : TunnelConfig R), none)

/-- `SetReplyHop`. It throws for a null pointer. -/
def setReplyHop (c : TunnelConfig R) (this : ℕ) (hop : Option (TunnelHopConfig R)) :
    Option (TunnelConfig R) :=
  hop.map fun hop => c.modifyHop this fun h => h.setNextRouter hop.currentRouter hop.tunnelID true

end TunnelConfig

open TunnelConfig

/-- The constructor of `TunnelConfig`. `own` is `context.GetSharedRouterInfo()`, and `rand` gives the random
tunnel IDs. -/
def tunnelConfig (own : R) (rand : ℕ → UInt32) (peers : List R)
    (replyTunnelConfig : Option (TunnelConfig R)) : Option (TunnelConfig R) :=
  match linkHops rand peers with
  | (c, none) => some c
  | (c, some prev) =>
    let c := { c with lastHop := some prev }
    match replyTunnelConfig with
    | some reply =>
      let c := match c.firstHop with
        | some first => c.modifyHop first fun h => { h with isGateway := false }
        | none => c
      c.setReplyHop prev (reply.deref reply.firstHop)
    | none => some (c.modifyHop prev fun h => h.setNextRouter own (rand peers.length))

namespace TunnelConfig

/-- The hops from a pointer on, if the last of them comes within as many steps. -/
def hopsFrom (c : TunnelConfig R) : ℕ → Option ℕ → Option (List ℕ)
  | _, none => some []
  | 0, some _ => none
  | n + 1, some p =>
    match c.hops[p]? with
    | some hop => (c.hopsFrom n hop.nextHop).map (p :: ·)
    | none => none

/-- The hops which `GetNumHops`, `GetPeers` and the destructor come to. If they are finitely many, they are not
more than have been allocated. -/
def getHops (c : TunnelConfig R) : Option (List ℕ) := c.hopsFrom c.hops.length c.firstHop

/-- `GetNumHops`. -/
def getNumHops (c : TunnelConfig R) : Option ℕ := c.getHops.map List.length

/-- `GetPeers`. -/
def getPeers (c : TunnelConfig R) : Option (List R) :=
  c.getHops.bind fun hops => hops.mapM fun p => c.hops[p]?.map (·.currentRouter)

/-- `IsInbound`. -/
def isInbound (c : TunnelConfig R) : Option Bool := (c.deref c.firstHop).map (·.isGateway)

/-- `Invert`. -/
def invert (own : R) (rand : ℕ → UInt32) (c : TunnelConfig R) : Option (TunnelConfig R) := do
  let peers ← c.getPeers
  if ← c.isInbound then tunnelConfig own rand peers.reverse (some c)
  else tunnelConfig own rand peers.reverse none

/-- `Clone`. -/
def clone (own : R) (rand : ℕ → UInt32) (c : TunnelConfig R)
    (replyTunnelConfig : Option (TunnelConfig R)) : Option (TunnelConfig R) := do
  tunnelConfig own rand (← c.getPeers) replyTunnelConfig

end TunnelConfig

/-! ## Links -/

namespace TunnelConfig

/-- `GetNextHop` of a hop. -/
def next (c : TunnelConfig R) (i : ℕ) : Option ℕ := c.hops[i]?.bind (·.nextHop)

/-- `GetPreviousHop` of a hop. -/
def previous (c : TunnelConfig R) (i : ℕ) : Option ℕ := c.hops[i]?.bind (·.previousHop)

/-- The configuration is of an outbound tunnel or of an inbound one, with these routers, and the hops are
linked from the first to the last. -/
structure Linked (c : TunnelConfig R) (peers : List R) (isOutbound : Bool) : Prop where
  getPeers : c.getPeers = some peers
  /-- From `GetFirstHop` the links lead to `GetLastHop`. -/
  chain : ∃ hops, c.getHops = some hops ∧ hops.head? = c.firstHop ∧ hops.getLast? = c.lastHop
  inverse : ∀ i j, c.next i = some j ↔ c.previous j = some i
  previous_first : c.firstHop.bind c.previous = none
  next_last : c.lastHop.bind c.next = none
  agree : ∀ i j hop hop', c.hops[i]? = some hop → c.hops[j]? = some hop' → c.next i = some j →
    hop.nextTunnelID = hop'.tunnelID ∧ hop.nextRouter = some hop'.currentRouter
  gateway : ∀ i hop, c.hops[i]? = some hop → (hop.isGateway ↔ isOutbound = false ∧ c.firstHop = some i)
  endpoint : ∀ i hop, c.hops[i]? = some hop → (hop.isEndpoint ↔ isOutbound = true ∧ c.lastHop = some i)
  isInbound : c.isInbound = some (!isOutbound)

end TunnelConfig

/-! ## The loop of the constructor -/

/-- A hop of the chain that the loop makes. -/
def linkedHop (rand : ℕ → UInt32) (peers : List R) (k : ℕ) (router : R) : TunnelHopConfig R where
  currentRouter := router
  tunnelID := rand k
  nextRouter := peers[k + 1]?
  nextTunnelID := if k + 1 < peers.length then rand (k + 1) else 0
  previousHop := if k = 0 then none else some (k - 1)
  nextHop := if k + 1 < peers.length then some (k + 1) else none
  isGateway := k = 0
  isEndpoint := k + 1 = peers.length

variable (rand : ℕ → UInt32)

theorem linkHops_concat (peers : List R) (router : R) :
    linkHops rand (peers ++ [router]) =
      ((linkHops rand peers).1.addHop rand (linkHops rand peers).2 router,
        some (linkHops rand peers).1.hops.length) := by
  rw [linkHops, List.foldl_append]
  rfl

/-- What `SetNextHop` does to the two hops that it links. -/
theorem setNextHop_eq {c : TunnelConfig R} {this i : ℕ} {next : TunnelHopConfig R} (hne : this ≠ i)
    (hnext : c.hops[i]? = some next) :
    c.setNextHop this (some i) =
      (c.modifyHop this fun h =>
        ({ h with nextHop := some i } : TunnelHopConfig R).setNextRouter next.currentRouter
          next.tunnelID).modifyHop i fun h => { h with previousHop := some this, isGateway := false } := by
  have hderef : (c.modifyHop this fun h => { h with nextHop := some i }).deref (some i) = some next := by
    simp [deref, modifyHop, List.getElem?_modify, hne, hnext]
  rw [setNextHop.eq_def]
  simp only [hderef]
  simp only [modifyHop, TunnelConfig.mk.injEq, and_true]
  ext1 j
  simp only [List.getElem?_modify]
  by_cases hthis : this = j
  · have hi : ¬ i = j := fun h => hne (hthis.trans h.symm)
    simp [hthis, hi, Function.comp_def]
  · simp [hthis]

/-- The loop makes a chain. -/
theorem linkHops_eq (peers : List R) (hne : peers ≠ []) :
    linkHops rand peers =
      ({ hops := peers.mapIdx (linkedHop rand peers), firstHop := some 0 }, some (peers.length - 1)) := by
  induction peers using List.reverseRecOn with
  | nil => exact absurd rfl hne
  | append_singleton peers router ih =>
    rw [linkHops_concat]
    rcases Nat.eq_zero_or_pos peers.length with hzero | hpos
    · obtain rfl := List.length_eq_zero_iff.mp hzero
      rfl
    · rw [ih (List.ne_nil_of_length_pos hpos)]
      simp only [addHop, List.length_mapIdx]
      have hlast : peers.length - 1 ≠ peers.length := by omega
      have hnew : (peers.mapIdx (linkedHop rand peers) ++
          [⟨router, rand peers.length, none, 0, none, none, true, true⟩])[peers.length]? =
            some ⟨router, rand peers.length, none, 0, none, none, true, true⟩ := by simp
      rw [setNextHop_eq hlast hnew]
      simp only [modifyHop, Prod.mk.injEq, TunnelConfig.mk.injEq, and_true, List.length_append,
        List.length_singleton, Nat.add_sub_cancel]
      ext1 j
      simp only [List.getElem?_modify, List.getElem?_append, List.getElem?_mapIdx, List.length_mapIdx]
      rcases Nat.lt_trichotomy j peers.length with hlt | heq | hgt
      · -- the hops in front of the new one: the last of them is linked to it
        have hj' : peers.length ≠ j := by omega
        by_cases hlast : peers.length - 1 = j
        · have hj : j + 1 = peers.length := by omega
          simp [hlt, hlast, hj, hj', linkedHop, TunnelHopConfig.setNextRouter]
        · have hj : j + 1 < peers.length := by omega
          simp [hlt, hlast, hj, hj', hj.ne, linkedHop]
          omega
      · subst heq
        have hlast : peers.length - 1 ≠ peers.length := by omega
        simp [linkedHop, hlast, hpos.ne']
      · have hnone : ¬ j < peers.length := by omega
        have hout : j - peers.length ≠ 0 := by omega
        simp [hnone, hout]

/-! ## What the constructor makes -/

/-- A configuration whose hops are linked in the order in which they have been allocated. -/
structure InOrder (c : TunnelConfig R) (peers : List R) (isOutbound : Bool) : Prop where
  length : c.hops.length = peers.length
  first : c.firstHop = some 0
  last : c.lastHop = some (peers.length - 1)
  hop : ∀ k hop, c.hops[k]? = some hop →
    peers[k]? = some hop.currentRouter ∧ hop.tunnelID = rand k ∧
    hop.previousHop = (if k = 0 then none else some (k - 1)) ∧
    hop.nextHop = (if k + 1 < peers.length then some (k + 1) else none) ∧
    (k + 1 < peers.length → hop.nextRouter = peers[k + 1]? ∧ hop.nextTunnelID = rand (k + 1)) ∧
    (hop.isGateway ↔ isOutbound = false ∧ k = 0) ∧
    (hop.isEndpoint ↔ isOutbound = true ∧ k + 1 = peers.length)

/-- Without a reply tunnel, the last hop sends to the router itself. -/
theorem inOrder_inbound (own : R) {peers : List R} (hne : peers ≠ []) :
    ∃ c, tunnelConfig own rand peers none = some c ∧ InOrder rand c peers false := by
  have hpos : 0 < peers.length := List.length_pos_of_ne_nil hne
  rw [tunnelConfig, linkHops_eq rand peers hne]
  refine ⟨_, rfl, by simp [modifyHop], rfl, rfl, fun k hop hhop => ?_⟩
  simp only [modifyHop, List.getElem?_modify, List.getElem?_mapIdx, Option.map_eq_map,
    Option.map_eq_some_iff, exists_exists_and_eq_and] at hhop
  obtain ⟨router, hrouter, rfl⟩ := hhop
  have hk : k < peers.length := (List.getElem?_eq_some_iff.mp hrouter).1
  by_cases hlast : peers.length - 1 = k
  · have hn : k + 1 = peers.length := by omega
    simp [hlast, hn, hrouter, linkedHop, TunnelHopConfig.setNextRouter]
  · have hn : k + 1 < peers.length := by omega
    simp [hlast, hn, hn.ne, hrouter, linkedHop]

/-- With a reply tunnel, the last hop sends to its first one. -/
theorem inOrder_outbound (own : R) {peers : List R} (hne : peers ≠ []) {reply : TunnelConfig R}
    {hop : TunnelHopConfig R} (hreply : reply.deref reply.firstHop = some hop) :
    ∃ c, tunnelConfig own rand peers (some reply) = some c ∧ InOrder rand c peers true := by
  have hpos : 0 < peers.length := List.length_pos_of_ne_nil hne
  rw [tunnelConfig, linkHops_eq rand peers hne]
  simp only [setReplyHop, hreply, Option.map_some]
  refine ⟨_, rfl, by simp [modifyHop], rfl, rfl, fun k hop hhop => ?_⟩
  simp only [modifyHop, List.getElem?_modify, List.getElem?_mapIdx, Option.map_eq_map,
    Option.map_eq_some_iff, exists_exists_and_eq_and] at hhop
  obtain ⟨router, hrouter, rfl⟩ := hhop
  obtain ⟨hk, rfl⟩ := List.getElem?_eq_some_iff.mp hrouter
  rcases Nat.lt_or_ge (k + 1) peers.length with hn | hn
  · have hlast : peers.length - 1 ≠ k := by omega
    rcases k with _ | k
    · simp [hlast, hn, hn.ne, linkedHop]
    · simp [hlast, hn, hn.ne, linkedHop]
  · have hlast : peers.length - 1 = k := by omega
    have hn' : k + 1 = peers.length := by omega
    rcases k with _ | k
    · simp [← hn', linkedHop, TunnelHopConfig.setNextRouter]
    · simp [← hn', linkedHop, TunnelHopConfig.setNextRouter]

namespace InOrder

variable {rand} {c : TunnelConfig R} {peers : List R} {isOutbound : Bool}

/-- There is a hop for every router. -/
theorem exists_hop (h : InOrder rand c peers isOutbound) {k : ℕ} (hk : k < peers.length) :
    ∃ hop, c.hops[k]? = some hop :=
  ⟨_, List.getElem?_eq_getElem (h.length.symm ▸ hk)⟩

theorem next_eq (h : InOrder rand c peers isOutbound) (k : ℕ) :
    c.next k = if k + 1 < peers.length then some (k + 1) else none := by
  rw [next]
  rcases hk : c.hops[k]? with _ | hop
  · have hout : ¬ k + 1 < peers.length := by
      have := List.getElem?_eq_none_iff.mp hk
      rw [h.length] at this
      omega
    rw [if_neg hout]
    rfl
  · exact (h.hop k hop hk).2.2.2.1

theorem previous_eq (h : InOrder rand c peers isOutbound) {k : ℕ} :
    c.previous k = if 0 < k ∧ k < peers.length then some (k - 1) else none := by
  rw [previous]
  rcases hk : c.hops[k]? with _ | hop
  · have hout : ¬ (0 < k ∧ k < peers.length) := by
      have := List.getElem?_eq_none_iff.mp hk
      rw [h.length] at this
      omega
    rw [if_neg hout]
    rfl
  · have hlt : k < peers.length := h.length ▸ (List.getElem?_eq_some_iff.mp hk).1
    change hop.previousHop = _
    rw [(h.hop k hop hk).2.2.1]
    split_ifs with h0 hpos hpos <;> first | rfl | omega

/-- From a hop on, the links lead to the last one. -/
theorem hopsFrom_eq (h : InOrder rand c peers isOutbound) {m k fuel : ℕ} (hk : k + (m + 1) = peers.length)
    (hfuel : m + 1 ≤ fuel) : c.hopsFrom fuel (some k) = some (List.range' k (m + 1)) := by
  induction m generalizing k fuel with
  | zero =>
    obtain ⟨fuel, rfl⟩ := Nat.exists_eq_add_of_le' hfuel
    obtain ⟨hop, hhop⟩ := h.exists_hop (k := k) (by omega)
    have hlast : ¬ k + 1 < peers.length := by omega
    rw [hopsFrom]
    simp only [hhop, (h.hop k hop hhop).2.2.2.1, if_neg hlast]
    simp [hopsFrom]
  | succ m ih =>
    obtain ⟨fuel, rfl⟩ := Nat.exists_eq_add_of_le' (le_trans (Nat.le_add_left 1 (m + 1)) hfuel)
    obtain ⟨hop, hhop⟩ := h.exists_hop (k := k) (by omega)
    have hnext : k + 1 < peers.length := by omega
    rw [hopsFrom]
    simp only [hhop, (h.hop k hop hhop).2.2.2.1, if_pos hnext]
    rw [ih (by omega) (by omega), List.range'_succ (n := m + 1)]
    rfl

theorem getHops_eq (h : InOrder rand c peers isOutbound) (hne : peers ≠ []) :
    c.getHops = some (List.range peers.length) := by
  have hpos : 0 < peers.length := List.length_pos_of_ne_nil hne
  obtain ⟨m, hm⟩ := Nat.exists_eq_add_of_le' hpos
  rw [getHops, h.first, h.length, hm, h.hopsFrom_eq (by omega) le_rfl, List.range_eq_range']

theorem mapM_currentRouter (h : InOrder rand c peers isOutbound) {m k : ℕ} (hk : k + m = peers.length) :
    (List.range' k m).mapM (fun p => c.hops[p]?.map (·.currentRouter)) = some (peers.drop k) := by
  induction m generalizing k with
  | zero => rw [List.drop_eq_nil_of_le (by omega)]; rfl
  | succ m ih =>
    obtain ⟨hop, hhop⟩ := h.exists_hop (k := k) (by omega)
    have hrouter := (h.hop k hop hhop).1
    rw [List.range'_succ, List.mapM_cons, hhop, ih (by omega), List.drop_eq_getElem_cons (i := k) (by omega),
      (List.getElem?_eq_some_iff.mp hrouter).2]
    rfl

theorem getPeers_eq (h : InOrder rand c peers isOutbound) (hne : peers ≠ []) : c.getPeers = some peers := by
  rw [getPeers, h.getHops_eq hne, Option.bind_some, List.range_eq_range',
    h.mapM_currentRouter (Nat.zero_add _), List.drop_zero]

/-- What the order says about links. -/
theorem linked (h : InOrder rand c peers isOutbound) (hne : peers ≠ []) : Linked c peers isOutbound where
  getPeers := h.getPeers_eq hne
  chain := by
    have hpos : 0 < peers.length := List.length_pos_of_ne_nil hne
    refine ⟨_, h.getHops_eq hne, ?_, ?_⟩
    · rw [h.first, List.head?_range, if_neg hpos.ne']
    · rw [h.last, List.getLast?_range, if_neg hpos.ne']
  inverse i j := by
    rw [h.next_eq, h.previous_eq]
    split_ifs with hi hj hj <;> simp <;> omega
  previous_first := by
    rw [h.first, Option.bind_some, h.previous_eq]
    simp
  next_last := by
    rw [h.last, Option.bind_some, h.next_eq, if_neg (by omega)]
  agree i j hop hop' hi hj hnext := by
    rw [h.next_eq] at hnext
    split_ifs at hnext with hlt
    obtain rfl := Option.some.inj hnext
    obtain ⟨hrouter, hid⟩ := (h.hop i hop hi).2.2.2.2.1 hlt
    rw [hrouter, hid, (h.hop _ hop' hj).1, (h.hop _ hop' hj).2.1]
    exact ⟨rfl, rfl⟩
  gateway i hop hi := by
    rw [(h.hop i hop hi).2.2.2.2.2.1, h.first, Option.some.injEq, eq_comm (a := i)]
  endpoint i hop hi := by
    have hlt : i < peers.length := h.length ▸ (List.getElem?_eq_some_iff.mp hi).1
    rw [(h.hop i hop hi).2.2.2.2.2.2, h.last, Option.some.injEq]
    refine and_congr_right fun _ => ?_
    omega
  isInbound := by
    obtain ⟨hop, hhop⟩ := h.exists_hop (List.length_pos_of_ne_nil hne)
    have hgateway := (h.hop 0 hop hhop).2.2.2.2.2.1
    rw [TunnelConfig.isInbound, deref, h.first, Option.bind_some, hhop, Option.map_some]
    cases isOutbound <;> simpa using hgateway

end InOrder

/-! ## Configurations that are made of others -/

/-- What the constructor makes is linked. It throws only for a reply tunnel without hops. -/
def Made (made : Option (TunnelConfig R)) (peers : List R) (reply : Option (TunnelConfig R)) : Prop :=
  match made with
  | some c => Linked c peers reply.isSome
  | none => ∃ r ∈ reply, r.deref r.firstHop = none

/-- A configuration is made, unless the reply tunnel has no hop, and its hops are linked. -/
theorem linked_of_tunnelConfig (own : R) {peers : List R} (hne : peers ≠ [])
    (reply : Option (TunnelConfig R)) (hreply : ∀ r ∈ reply, r.deref r.firstHop ≠ none) :
    ∃ c, tunnelConfig own rand peers reply = some c ∧ Linked c peers reply.isSome := by
  rcases reply with _ | reply
  · obtain ⟨c, hc, h⟩ := inOrder_inbound rand own hne
    exact ⟨c, hc, h.linked hne⟩
  · obtain ⟨hop, hhop⟩ := Option.ne_none_iff_exists'.mp (hreply reply rfl)
    obtain ⟨c, hc, h⟩ := inOrder_outbound rand own hne hhop
    exact ⟨c, hc, h.linked hne⟩

theorem made_tunnelConfig (own : R) {peers : List R} (hne : peers ≠ []) (reply : Option (TunnelConfig R)) :
    Made (tunnelConfig own rand peers reply) peers reply := by
  by_cases hreply : ∀ r ∈ reply, r.deref r.firstHop ≠ none
  · obtain ⟨c, hc, hlinked⟩ := linked_of_tunnelConfig rand own hne reply hreply
    rw [hc]
    exact hlinked
  · push Not at hreply
    obtain ⟨r, hr, hnull⟩ := hreply
    obtain rfl := Option.mem_def.mp hr
    have hthrow : tunnelConfig own rand peers (some r) = none := by
      rw [tunnelConfig, linkHops_eq rand peers hne]
      simp only [setReplyHop, hnull, Option.map_none]
    rw [hthrow]
    exact ⟨r, rfl, hnull⟩

namespace TunnelConfig.Linked

variable {rand} {c : TunnelConfig R} {peers : List R} {isOutbound : Bool}

/-- A configuration has a first hop, which can be replied to. -/
theorem deref_firstHop (h : Linked c peers isOutbound) : c.deref c.firstHop ≠ none := by
  intro hnull
  have hinbound := h.isInbound
  rw [TunnelConfig.isInbound, hnull] at hinbound
  cases hinbound

/-- `Invert` reverses the peers, and makes an outbound tunnel of an inbound one and the other way round. -/
theorem invert (h : Linked c peers isOutbound) (own : R) (rand : ℕ → UInt32) (hne : peers ≠ []) :
    ∃ c' ∈ c.invert own rand, Linked c' peers.reverse (!isOutbound) := by
  have hne' : peers.reverse ≠ [] := fun h => hne (List.reverse_eq_nil_iff.mp h)
  rw [TunnelConfig.invert, h.getPeers, h.isInbound]
  rcases isOutbound
  · exact linked_of_tunnelConfig rand own hne' (some c) fun r hr =>
      Option.some.inj hr ▸ h.deref_firstHop
  · exact linked_of_tunnelConfig rand own hne' none nofun

/-- `Clone` keeps the peers. -/
theorem made_clone (h : Linked c peers isOutbound) (own : R) (rand : ℕ → UInt32) (hne : peers ≠ [])
    (reply : Option (TunnelConfig R)) : Made (c.clone own rand reply) peers reply := by
  rw [clone, h.getPeers]
  exact made_tunnelConfig rand own hne reply

end TunnelConfig.Linked

/-- A configuration of routers is linked, and so is what `Invert` and `Clone` make of it. `Invert` turns
peers and direction round. `Clone` keeps the peers; the direction is that of its argument. -/
theorem config_sound (own router : R) (routers : List R) (reply : Option (TunnelConfig R)) :
    Made (tunnelConfig own rand (router :: routers) reply) (router :: routers) reply ∧
      ∀ c ∈ tunnelConfig own rand (router :: routers) reply,
        (∀ rand, ∃ c' ∈ c.invert own rand, Linked c' (router :: routers).reverse (!reply.isSome)) ∧
          ∀ rand reply, Made (c.clone own rand reply) (router :: routers) reply := by
  have hmade := made_tunnelConfig rand own (List.cons_ne_nil router routers) reply
  refine ⟨hmade, fun c hc => ?_⟩
  rw [Option.mem_def.mp hc] at hmade
  exact ⟨fun rand => hmade.invert own rand (List.cons_ne_nil _ _),
    fun rand reply => hmade.made_clone own rand (List.cons_ne_nil _ _) reply⟩

/-- An outbound tunnel that is cloned without a reply tunnel becomes an inbound one. -/
theorem clone_of_outbound :
    (do
      let reply ← tunnelConfig 0 UInt32.ofNat [2] none
      let c ← tunnelConfig 0 UInt32.ofNat [1] (some reply)
      let c' ← c.clone 0 UInt32.ofNat none
      pure (c.isInbound, c'.isInbound)) = some (some false, some true) := rfl

end Tunnel.Config
