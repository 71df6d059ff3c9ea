import Xi2p.Router.NetDb

/-!
# The selection of peers for a tunnel

`SelectNextHop` and `SelectPeers` of `core/router/tunnel/pool.cc`, without explicit peers, and the profiles of
routers in `core/router/profiling.cc`. The keys of the database are shuffled for every search: the search finds
any router that fits, or none if there is none.

Routers are objects, and are compared as such by the filters. The router itself is not one of those in the
database. What the function has been called on before is in the profiles.

* `selectPeers`: the function, for given shuffles.
* `Selected`: the routers that can be selected.
* `selections_sound_iff`: for which databases and peers every selection is sound.
-/

namespace Tunnel.PeerSelection

open I2NP Router

/-! ## Profiles -/

/-- `RouterProfile`, as far as it is used. -/
structure RouterProfile where
  numTunnelsAgreed : UInt32 := 0
  numTunnelsDeclined : UInt32 := 0
  numTunnelsNonReplied : UInt32 := 0
  numTimesTaken : UInt32 := 0
  numTimesRejected : UInt32 := 0

namespace RouterProfile

/-- `IsAlwaysDeclining`. -/
def isAlwaysDeclining (p : RouterProfile) : Bool := p.numTunnelsAgreed = 0 ∧ 5 ≤ p.numTunnelsDeclined

/-- `IsLowPartcipationRate`. -/
def isLowPartcipationRate (p : RouterProfile) : Bool := 4 * p.numTunnelsAgreed < p.numTunnelsDeclined

/-- `IsBad`: the answer, and the profile with which it leaves. -/
def isBad (p : RouterProfile) : Bool × RouterProfile :=
  let isBad := p.isAlwaysDeclining || p.isLowPartcipationRate
  if isBad ∧ p.numTimesRejected > 10 * (p.numTimesTaken + 1) then
    -- the profile is reset
    (false, { p with
      numTunnelsAgreed := 0
      numTunnelsDeclined := 0
      numTunnelsNonReplied := 0
      numTimesTaken := p.numTimesTaken + 1 })
  else if isBad then (true, { p with numTimesRejected := p.numTimesRejected + 1 })
  else (false, { p with numTimesTaken := p.numTimesTaken + 1 })

end RouterProfile

/-- The profiles of the routers. -/
abbrev Profiles := ℕ → RouterProfile

/-- `IsBad` of the profile of a router. -/
def Profiles.isBad (profiles : Profiles) (r : ℕ) : Bool := (profiles r).isBad.1

/-- The profiles after `IsBad` of one of them. -/
def Profiles.ask (profiles : Profiles) (r : ℕ) : Profiles :=
  Function.update profiles r (profiles r).isBad.2

/-! ## Searching the database -/

/-- What the selection depends on. -/
structure Env where
  db : NetDb
  /-- `context.GetSharedRouterInfo()`. -/
  own : RouterInfo
  /-- The pool is the exploratory one. -/
  isExploratory : Bool
  /-- The routers of `m_Peers`, or null. -/
  peers : List (Option ℕ)

/-- `Cap::HighBandwidth`. -/
abbrev capHighBandwidth : UInt8 := 0x04

/-- `Cap::Hidden`. -/
abbrev capHidden : UInt8 := 0x40

namespace Env

variable (env : Env)

def info (r : ℕ) : RouterInfo := env.db.routers r

def hash (r : ℕ) : IdentHash := (env.info r).getIdentHash

/-- The previous hop: the router itself if there is none. -/
def prevInfo (prev : Option ℕ) : RouterInfo := (prev.map env.info).getD env.own

/-- The filter of `GetRandomRouter()`. -/
def fits (r : ℕ) : Bool :=
  (env.info r).contents.caps &&& capHidden = 0 ∧ env.hash r ≠ env.own.getIdentHash

/-- The filter of `GetRandomRouter` or `GetHighBandwidthRandomRouter`, for a previous hop. -/
def fitsBehind (prev : Option ℕ) (r : ℕ) : Bool :=
  env.fits r ∧ some r ≠ prev ∧
    (env.info r).contents.supportedTransports &&&
      (env.prevInfo prev).contents.supportedTransports ≠ 0 ∧
    (env.isExploratory ∨ (env.info r).contents.caps &&& capHighBandwidth ≠ 0)

/-- `GetRandomRouter`, with a filter, for the keys in random order. -/
def getRandomRouter (idents : List IdentHash) (filter : ℕ → Bool) : Option ℕ :=
  (idents.filterMap env.db.findRouter).find? fun r => !(env.info r).isUnreachable && filter r

end Env

/-! ## Selection -/

/-- The keys in the orders in which two searches look at them. -/
structure Shuffles where
  first : List IdentHash
  second : List IdentHash

/-- `SelectNextHop`. -/
def selectNextHop (env : Env) (shuffles : Shuffles) (profiles : Profiles) (prev : Option ℕ) :
    Option ℕ × Profiles :=
  match env.getRandomRouter shuffles.first (env.fitsBehind prev) with
  | none => (env.getRandomRouter shuffles.second env.fits, profiles)
  | some hop =>
    if profiles.isBad hop then (env.getRandomRouter shuffles.second env.fits, profiles.ask hop)
    else (some hop, profiles.ask hop)

/-- The loop of `SelectPeers`: what it returns, and the hops that it adds. -/
def selectHops (env : Env) : ℕ → (ℕ → Shuffles) → Profiles → Option ℕ → Bool × List ℕ
  | 0, _, _, _ => (true, [])
  | n + 1, shuffles, profiles, prev =>
    match selectNextHop env (shuffles 0) profiles prev with
    | (none, _) => (false, [])
    | (some hop, profiles) =>
      let (selected, hops) := selectHops env n (fun i => shuffles (i + 1)) profiles (some hop)
      (selected, hop :: hops)

/-- What is random in `SelectPeers`: the index in `GetRandomPeer`, and the shuffles. -/
structure Choices where
  peer : ℕ
  shuffles : ℕ → Shuffles

/-- The choices that are possible. -/
def Choices.Valid (env : Env) (choices : Choices) : Prop :=
  (env.peers ≠ [] → choices.peer < env.peers.length) ∧
    ∀ i, (choices.shuffles i).first.Perm (env.db.routerInfos.map Prod.fst) ∧
      (choices.shuffles i).second.Perm (env.db.routerInfos.map Prod.fst)

/-- `SelectPeers`. -/
def selectPeers (env : Env) (choices : Choices) (profiles : Profiles) (numHops : ℤ) : Bool × List ℕ :=
  if 25 < env.peers.length then
    match env.peers[choices.peer]?.join with
    | some r =>
      if profiles.isBad r then selectHops env numHops.toNat choices.shuffles (profiles.ask r) none
      else
        let (selected, hops) :=
          selectHops env (numHops - 1).toNat choices.shuffles (profiles.ask r) (some r)
        (selected, r :: hops)
    | none => selectHops env numHops.toNat choices.shuffles profiles none
  else selectHops env numHops.toNat choices.shuffles profiles none

/-- As many hops as configured, none of them the router itself, and no two neighbours the same router. -/
structure Sound (env : Env) (numHops : ℕ) (hops : List ℕ) : Prop where
  length : hops.length = numHops
  ne_own : ∀ r ∈ hops, env.hash r ≠ env.own.getIdentHash
  chain : hops.IsChain fun r r' => env.hash r ≠ env.hash r'

/-- Every selection that succeeds is sound. -/
def SelectsSoundly (env : Env) (profiles : Profiles) (numHops : ℕ) : Prop :=
  ∀ choices : Choices, choices.Valid env → ∀ hops,
    selectPeers env choices profiles numHops = (true, hops) → Sound env numHops hops

/-! ## What can be found -/

/-- What a search for a router with this filter can find, for some order of the keys. -/
def Env.Found (env : Env) (filter : ℕ → Bool) : Option ℕ → Prop
  | some r => ∃ ident ∈ env.db.routerInfos.map Prod.fst, env.db.findRouter ident = some r ∧
      (env.info r).isUnreachable = false ∧ filter r
  | none => ∀ ident ∈ env.db.routerInfos.map Prod.fst, ∀ r, env.db.findRouter ident = some r →
      (env.info r).isUnreachable = false → ¬ filter r

variable {env : Env} {filter : ℕ → Bool} {profiles profiles' : Profiles} {prev : Option ℕ}

theorem found_getRandomRouter {idents : List IdentHash}
    (hperm : idents.Perm (env.db.routerInfos.map Prod.fst)) (filter : ℕ → Bool) :
    env.Found filter (env.getRandomRouter idents filter) := by
  rcases hfound : env.getRandomRouter idents filter with _ | r
  · intro ident hident r hr hreachable hfilter
    have hnone := List.find?_eq_none.mp hfound r
      (List.mem_filterMap.mpr ⟨ident, hperm.mem_iff.mpr hident, hr⟩)
    simp [hreachable, hfilter] at hnone
  · obtain ⟨ident, hident, hr⟩ := List.mem_filterMap.mp (List.mem_of_find?_eq_some hfound)
    have hfits := List.find?_some hfound
    rw [Bool.and_eq_true, Bool.not_eq_true'] at hfits
    exact ⟨ident, hperm.mem_iff.mp hident, hr, hfits⟩

/-- Everything that can be found is found with some order. -/
theorem exists_getRandomRouter {res : Option ℕ} (hfound : env.Found filter res) :
    ∃ idents, idents.Perm (env.db.routerInfos.map Prod.fst) ∧ env.getRandomRouter idents filter = res := by
  rcases res with _ | r
  · refine ⟨_, .refl _, List.find?_eq_none.mpr fun r hr => ?_⟩
    obtain ⟨ident, hident, hr⟩ := List.mem_filterMap.mp hr
    rw [Bool.and_eq_true, Bool.not_eq_true']
    exact fun h => hfound ident hident r hr h.1 h.2
  · obtain ⟨ident, hident, hr, hreachable, hfilter⟩ := hfound
    refine ⟨_, (List.perm_cons_erase hident).symm, ?_⟩
    rw [Env.getRandomRouter, List.filterMap_cons_some hr, List.find?_cons_of_pos]
    simp [hreachable, hfilter]

/-- What `SelectNextHop` can give, and the profiles with which it leaves. -/
inductive Next (env : Env) (profiles : Profiles) (prev : Option ℕ) : Option ℕ → Profiles → Prop
  | taken {hop : ℕ} (hfound : env.Found (env.fitsBehind prev) (some hop)) (hgood : ¬ profiles.isBad hop) :
    Next env profiles prev (some hop) (profiles.ask hop)
  | bad {hop : ℕ} {res : Option ℕ} (hfound : env.Found (env.fitsBehind prev) (some hop))
    (hbad : profiles.isBad hop) (hres : env.Found env.fits res) :
    Next env profiles prev res (profiles.ask hop)
  | missing {res : Option ℕ} (hfound : env.Found (env.fitsBehind prev) none)
    (hres : env.Found env.fits res) : Next env profiles prev res profiles

/-- The shuffles that are possible. -/
def Shuffles.Valid (env : Env) (shuffles : Shuffles) : Prop :=
  shuffles.first.Perm (env.db.routerInfos.map Prod.fst) ∧
    shuffles.second.Perm (env.db.routerInfos.map Prod.fst)

theorem next_selectNextHop {shuffles : Shuffles} (hvalid : shuffles.Valid env) (profiles : Profiles)
    (prev : Option ℕ) :
    Next env profiles prev (selectNextHop env shuffles profiles prev).1
      (selectNextHop env shuffles profiles prev).2 := by
  have hfirst := found_getRandomRouter hvalid.1 (env.fitsBehind prev)
  have hsecond := found_getRandomRouter hvalid.2 env.fits
  rw [selectNextHop]
  rcases hhop : env.getRandomRouter shuffles.first (env.fitsBehind prev) with _ | hop
  · exact .missing (hhop ▸ hfirst) hsecond
  · rw [hhop] at hfirst
    by_cases hbad : profiles.isBad hop
    · simp only [hbad, if_true]
      exact .bad hfirst hbad hsecond
    · simp only [hbad]
      exact .taken hfirst hbad

theorem exists_selectNextHop {res : Option ℕ} (hnext : Next env profiles prev res profiles') :
    ∃ shuffles : Shuffles, shuffles.Valid env ∧
      selectNextHop env shuffles profiles prev = (res, profiles') := by
  rcases hnext with ⟨hfound, hgood⟩ | ⟨hfound, hbad, hres⟩ | ⟨hfound, hres⟩
  · obtain ⟨first, hperm, hfirst⟩ := exists_getRandomRouter hfound
    refine ⟨⟨first, _⟩, ⟨hperm, .refl _⟩, ?_⟩
    rw [selectNextHop, hfirst]
    simp only [hgood]
    rfl
  · obtain ⟨first, hperm, hfirst⟩ := exists_getRandomRouter hfound
    obtain ⟨second, hperm', hsecond⟩ := exists_getRandomRouter hres
    refine ⟨⟨first, second⟩, ⟨hperm, hperm'⟩, ?_⟩
    rw [selectNextHop, hfirst]
    simp only [hbad, if_true, hsecond]
  · obtain ⟨first, hperm, hfirst⟩ := exists_getRandomRouter hfound
    obtain ⟨second, hperm', hsecond⟩ := exists_getRandomRouter hres
    refine ⟨⟨first, second⟩, ⟨hperm, hperm'⟩, ?_⟩
    rw [selectNextHop, hfirst, hsecond]

/-! ## Selections without repetition -/

/-- A hop can be selected behind itself: as another object with the same hash, or by the search without a
previous hop, which is made if the router that is found first is bad, or if none is found. -/
def Repeats (env : Env) (profiles : Profiles) (r : ℕ) : Prop :=
  (∃ hop, env.Found (env.fitsBehind (some r)) (some hop) ∧ ¬ profiles.isBad hop ∧
    env.hash hop = env.hash r) ∨
  ((env.Found (env.fitsBehind (some r)) none ∨
      ∃ hop, env.Found (env.fitsBehind (some r)) (some hop) ∧ profiles.isBad hop) ∧
    ∃ hop, env.Found env.fits (some hop) ∧ env.hash hop = env.hash r)

/-- No hop with another one to follow, of those that can be selected, can be selected behind itself. -/
def NeverRepeats (env : Env) : ℕ → Profiles → Option ℕ → Prop
  | 0, _, _ => True
  | n + 1, profiles, prev =>
    (∀ r ∈ prev, ¬ Repeats env profiles r) ∧
      ∀ hop profiles', Next env profiles prev (some hop) profiles' → NeverRepeats env n profiles' (some hop)

/-- Neighbours are different routers. -/
abbrev Distinct (env : Env) (hops : List ℕ) : Prop := hops.IsChain fun r r' => env.hash r ≠ env.hash r'

theorem found_fits_of_behind {r : ℕ} (h : env.Found (env.fitsBehind prev) (some r)) :
    env.Found env.fits (some r) := by
  obtain ⟨ident, hident, hr, hreachable, hfilter⟩ := h
  refine ⟨ident, hident, hr, hreachable, ?_⟩
  rw [Env.fitsBehind, decide_eq_true_iff] at hfilter
  exact hfilter.1

/-- A hop comes from the database, and is not the router itself. -/
theorem Next.found {hop : ℕ} (h : Next env profiles prev (some hop) profiles') :
    env.Found env.fits (some hop) := by
  cases h with
  | taken hfound _ => exact found_fits_of_behind hfound
  | bad _ _ hres => exact hres
  | missing _ hres => exact hres

theorem ne_own_of_found {r : ℕ} (h : env.Found env.fits (some r)) :
    env.hash r ≠ env.own.getIdentHash := by
  obtain ⟨ident, hident, hr, hreachable, hfilter⟩ := h
  rw [Env.fits, decide_eq_true_iff] at hfilter
  exact hfilter.2

theorem repeats_iff {r : ℕ} :
    Repeats env profiles r ↔
      ∃ hop profiles', Next env profiles (some r) (some hop) profiles' ∧ env.hash hop = env.hash r := by
  constructor
  · rintro (⟨hop, hfound, hgood, heq⟩ | ⟨hmissing | ⟨bad, hfound, hbad⟩, hop, hres, heq⟩)
    · exact ⟨hop, _, .taken hfound hgood, heq⟩
    · exact ⟨hop, _, .missing hmissing hres, heq⟩
    · exact ⟨hop, _, .bad hfound hbad hres, heq⟩
  · rintro ⟨hop, profiles', hnext, heq⟩
    cases hnext with
    | taken hfound hgood => exact .inl ⟨hop, hfound, hgood, heq⟩
    | bad hfound hbad hres => exact .inr ⟨.inr ⟨_, hfound, hbad⟩, hop, hres, heq⟩
    | missing hfound hres => exact .inr ⟨.inl hfound, hop, hres, heq⟩

theorem distinct_cons {r : ℕ} {hops : List ℕ} :
    Distinct env (prev.toList ++ r :: hops) ↔
      (∀ p ∈ prev, env.hash p ≠ env.hash r) ∧ Distinct env (r :: hops) := by
  rcases prev with _ | p
  · simp
  · simp [List.isChain_cons_cons]

/-- Without repetitions, what is selected is sound. -/
theorem sound_selectHops {n : ℕ} {shuffles : ℕ → Shuffles} (hvalid : ∀ i, (shuffles i).Valid env)
    (hnever : NeverRepeats env n profiles prev) {hops : List ℕ}
    (hselected : selectHops env n shuffles profiles prev = (true, hops)) :
    hops.length = n ∧ (∀ r ∈ hops, env.Found env.fits (some r)) ∧ Distinct env (prev.toList ++ hops) := by
  induction n generalizing shuffles profiles prev hops with
  | zero =>
    obtain ⟨-, rfl⟩ := Prod.mk.inj hselected
    refine ⟨rfl, nofun, ?_⟩
    rcases prev with _ | p <;> simp
  | succ n ih =>
    have hnext := next_selectNextHop (hvalid 0) profiles prev
    rw [selectHops] at hselected
    rcases hhop : selectNextHop env (shuffles 0) profiles prev with ⟨_ | hop, profiles'⟩
    · rw [hhop] at hselected
      cases (Prod.mk.inj hselected).1
    · rw [hhop] at hselected hnext
      obtain ⟨hres, hhops⟩ := Prod.mk.inj hselected
      obtain ⟨hlen, hfound, hdistinct⟩ := ih (fun i => hvalid (i + 1)) (hnever.2 hop profiles' hnext)
        (Prod.ext hres rfl)
      subst hhops
      refine ⟨congrArg (· + 1) hlen, ?_, distinct_cons.mpr ⟨fun p hp heq => ?_, hdistinct⟩⟩
      · exact List.forall_mem_cons.mpr ⟨hnext.found, hfound⟩
      · obtain rfl := Option.mem_def.mp hp
        exact hnever.1 p rfl (repeats_iff.mpr ⟨hop, profiles', hnext, heq.symm⟩)

/-- Shuffles for the first hop, and for the others. -/
def prepend (first : Shuffles) (shuffles : ℕ → Shuffles) : ℕ → Shuffles
  | 0 => first
  | i + 1 => shuffles i

theorem selectHops_prepend {n hop : ℕ} {first : Shuffles} {shuffles : ℕ → Shuffles}
    (hfirst : selectNextHop env first profiles prev = (some hop, profiles')) :
    selectHops env (n + 1) (prepend first shuffles) profiles prev =
      ((selectHops env n shuffles profiles' (some hop)).1,
        hop :: (selectHops env n shuffles profiles' (some hop)).2) := by
  rw [selectHops]
  simp only [prepend, hfirst]

theorem valid_prepend {first : Shuffles} {shuffles : ℕ → Shuffles} (hfirst : first.Valid env)
    (hvalid : ∀ i, (shuffles i).Valid env) (i : ℕ) :
    (prepend first shuffles i).Valid env := by
  cases i with
  | zero => exact hfirst
  | succ i => exact hvalid i

theorem found_total (env : Env) (filter : ℕ → Bool) : ∃ res, env.Found filter res :=
  ⟨_, found_getRandomRouter (.refl _) filter⟩

/-- If there is a router, a hop is found. -/
theorem exists_next {r : ℕ} (hr : env.Found env.fits (some r)) (profiles : Profiles) (prev : Option ℕ) :
    ∃ hop profiles', Next env profiles prev (some hop) profiles' := by
  obtain ⟨res, hfound⟩ := found_total env (env.fitsBehind prev)
  rcases res with _ | hop
  · exact ⟨r, _, .missing hfound hr⟩
  · by_cases hbad : profiles.isBad hop
    · exact ⟨r, _, .bad hfound hbad hr⟩
    · exact ⟨hop, _, .taken hfound hbad⟩

/-- If there is a router, some selection succeeds. -/
theorem exists_selectHops {n : ℕ} (h : n = 0 ∨ ∃ r, env.Found env.fits (some r)) (profiles : Profiles)
    (prev : Option ℕ) :
    ∃ shuffles : ℕ → Shuffles, (∀ i, (shuffles i).Valid env) ∧
      (selectHops env n shuffles profiles prev).1 = true := by
  induction n generalizing profiles prev with
  | zero => exact ⟨fun _ => ⟨_, _⟩, fun _ => ⟨.refl _, .refl _⟩, rfl⟩
  | succ n ih =>
    obtain ⟨r, hr⟩ := h.resolve_left (Nat.succ_ne_zero n)
    obtain ⟨hop, profiles', hnext⟩ := exists_next hr profiles prev
    obtain ⟨first, hfirst, hselected⟩ := exists_selectNextHop hnext
    obtain ⟨shuffles, hvalid, hrest⟩ := ih (.inr ⟨r, hr⟩) profiles' (some hop)
    refine ⟨_, valid_prepend hfirst hvalid, ?_⟩
    rw [selectHops_prepend hselected]
    exact hrest

/-- If a repetition can come about, it does in some selection that succeeds. -/
theorem exists_repetition {n : ℕ} (h : ¬ NeverRepeats env n profiles prev) :
    ∃ shuffles : ℕ → Shuffles, (∀ i, (shuffles i).Valid env) ∧
      (selectHops env n shuffles profiles prev).1 = true ∧
        ¬ Distinct env (prev.toList ++ (selectHops env n shuffles profiles prev).2) := by
  induction n generalizing profiles prev with
  | zero => exact absurd trivial h
  | succ n ih =>
    rw [NeverRepeats, not_and_or] at h
    push Not at h
    rcases h with ⟨r, hr, hrepeats⟩ | ⟨hop, profiles', hnext, hlater⟩
    · -- the next hop is the same router, and any others follow
      obtain rfl := Option.mem_def.mp hr
      obtain ⟨hop, profiles', hnext, heq⟩ := repeats_iff.mp hrepeats
      obtain ⟨first, hfirst, hselected⟩ := exists_selectNextHop hnext
      obtain ⟨shuffles, hvalid, hrest⟩ := exists_selectHops (n := n) (.inr ⟨hop, hnext.found⟩) profiles'
        (some hop)
      refine ⟨_, valid_prepend hfirst hvalid, ?_, ?_⟩
      · rw [selectHops_prepend hselected]
        exact hrest
      · rw [selectHops_prepend hselected, distinct_cons]
        exact fun hdistinct => hdistinct.1 r rfl heq.symm
    · obtain ⟨first, hfirst, hselected⟩ := exists_selectNextHop hnext
      obtain ⟨shuffles, hvalid, hrest, hdistinct⟩ := ih hlater
      refine ⟨_, valid_prepend hfirst hvalid, ?_, ?_⟩
      · rw [selectHops_prepend hselected]
        exact hrest
      · rw [selectHops_prepend hselected, distinct_cons]
        exact fun h => hdistinct h.2

/-! ## The first peer -/

/-- A connected peer can be taken as the first hop. -/
def FirstPeer (env : Env) (profiles : Profiles) (r : ℕ) : Prop :=
  25 < env.peers.length ∧ some r ∈ env.peers ∧ ¬ profiles.isBad r

/-- The profiles with which the selection can begin without a connected peer. -/
def WithoutPeer (env : Env) (profiles profiles' : Profiles) : Prop :=
  (env.peers.length ≤ 25 ∧ profiles' = profiles) ∨
  (25 < env.peers.length ∧
    ((none ∈ env.peers ∧ profiles' = profiles) ∨
      ∃ r, some r ∈ env.peers ∧ profiles.isBad r ∧ profiles' = profiles.ask r))

/-- What keeps every selection sound. -/
structure Unambiguous (env : Env) (profiles : Profiles) (numHops : ℕ) : Prop where
  /-- No peer is taken when no hop is asked for. -/
  zero : numHops = 0 → ∀ r, ¬ FirstPeer env profiles r
  /-- The router itself is not one of the peers that can be taken, unless no router can follow it. -/
  own : numHops ≤ 1 ∨ (∃ r, env.Found env.fits (some r)) →
    ∀ r, FirstPeer env profiles r → env.hash r ≠ env.own.getIdentHash
  behindPeer : ∀ r, FirstPeer env profiles r → NeverRepeats env (numHops - 1) (profiles.ask r) (some r)
  withoutPeer : ∀ profiles', WithoutPeer env profiles profiles' → NeverRepeats env numHops profiles' none

theorem selectPeers_of_taken {choices : Choices} {r : ℕ} (hmany : 25 < env.peers.length)
    (hpeer : env.peers[choices.peer]? = some (some r)) (hgood : ¬ profiles.isBad r) (numHops : ℕ) :
    selectPeers env choices profiles numHops =
      ((selectHops env (numHops - 1) choices.shuffles (profiles.ask r) (some r)).1,
        r :: (selectHops env (numHops - 1) choices.shuffles (profiles.ask r) (some r)).2) := by
  have hcount : ((numHops : ℤ) - 1).toNat = numHops - 1 := by omega
  rw [selectPeers, if_pos hmany, hpeer, hcount]
  simp only [Option.join_some, hgood]
  rfl

theorem selectPeers_of_bad {choices : Choices} {r : ℕ} (hmany : 25 < env.peers.length)
    (hpeer : env.peers[choices.peer]? = some (some r)) (hbad : profiles.isBad r) (numHops : ℕ) :
    selectPeers env choices profiles numHops =
      selectHops env numHops choices.shuffles (profiles.ask r) none := by
  rw [selectPeers, if_pos hmany, hpeer]
  simp only [Option.join_some, hbad, if_true, Int.toNat_natCast]

theorem selectPeers_of_null {choices : Choices} (hmany : 25 < env.peers.length)
    (hpeer : env.peers[choices.peer]? = some none) (numHops : ℕ) :
    selectPeers env choices profiles numHops =
      selectHops env numHops choices.shuffles profiles none := by
  rw [selectPeers, if_pos hmany, hpeer]
  simp only [Option.join_some, Int.toNat_natCast]

theorem selectPeers_of_few {choices : Choices} (hfew : env.peers.length ≤ 25) (numHops : ℕ) :
    selectPeers env choices profiles numHops =
      selectHops env numHops choices.shuffles profiles none := by
  rw [selectPeers, if_neg (by omega), Int.toNat_natCast]

/-- How a selection begins. -/
theorem selectPeers_cases {choices : Choices} (hvalid : choices.Valid env) (profiles : Profiles)
    (numHops : ℕ) :
    (∃ r, FirstPeer env profiles r ∧
      selectPeers env choices profiles numHops =
        ((selectHops env (numHops - 1) choices.shuffles (profiles.ask r) (some r)).1,
          r :: (selectHops env (numHops - 1) choices.shuffles (profiles.ask r) (some r)).2)) ∨
    ∃ profiles', WithoutPeer env profiles profiles' ∧
      selectPeers env choices profiles numHops =
        selectHops env numHops choices.shuffles profiles' none := by
  rcases Nat.lt_or_ge 25 env.peers.length with hmany | hfew
  · have hlt : choices.peer < env.peers.length := hvalid.1 (List.ne_nil_of_length_pos (by omega))
    obtain ⟨peer, hpeer⟩ : ∃ peer, env.peers[choices.peer]? = some peer :=
      ⟨_, List.getElem?_eq_getElem hlt⟩
    have hmem := List.mem_of_getElem? hpeer
    rcases peer with _ | r
    · exact .inr ⟨profiles, .inr ⟨hmany, .inl ⟨hmem, rfl⟩⟩, selectPeers_of_null hmany hpeer numHops⟩
    · by_cases hbad : profiles.isBad r
      · exact .inr ⟨profiles.ask r, .inr ⟨hmany, .inr ⟨r, hmem, hbad, rfl⟩⟩,
          selectPeers_of_bad hmany hpeer hbad numHops⟩
      · exact .inl ⟨r, ⟨hmany, hmem, hbad⟩, selectPeers_of_taken hmany hpeer hbad numHops⟩
  · exact .inr ⟨profiles, .inl ⟨hfew, rfl⟩, selectPeers_of_few hfew numHops⟩

/-- Every beginning is made for some choices, whatever the shuffles are. -/
theorem exists_firstPeer {r : ℕ} (hfirst : FirstPeer env profiles r) {shuffles : ℕ → Shuffles}
    (hvalid : ∀ i, (shuffles i).Valid env) (numHops : ℕ) :
    ∃ choices : Choices, choices.Valid env ∧
      selectPeers env choices profiles numHops =
        ((selectHops env (numHops - 1) shuffles (profiles.ask r) (some r)).1,
          r :: (selectHops env (numHops - 1) shuffles (profiles.ask r) (some r)).2) := by
  obtain ⟨hmany, hmem, hgood⟩ := hfirst
  obtain ⟨peer, hpeer⟩ := List.mem_iff_getElem?.mp hmem
  have hlt := (List.getElem?_eq_some_iff.mp hpeer).1
  exact ⟨⟨peer, shuffles⟩, ⟨fun _ => hlt, hvalid⟩, selectPeers_of_taken hmany hpeer hgood numHops⟩

theorem exists_withoutPeer (hwithout : WithoutPeer env profiles profiles') {shuffles : ℕ → Shuffles}
    (hvalid : ∀ i, (shuffles i).Valid env) (numHops : ℕ) :
    ∃ choices : Choices, choices.Valid env ∧
      selectPeers env choices profiles numHops = selectHops env numHops shuffles profiles' none := by
  rcases hwithout with ⟨hfew, rfl⟩ | ⟨hmany, ⟨hmem, rfl⟩ | ⟨r, hmem, hbad, rfl⟩⟩
  · exact ⟨⟨0, shuffles⟩, ⟨fun hne => List.length_pos_of_ne_nil hne, hvalid⟩,
      selectPeers_of_few hfew numHops⟩
  · obtain ⟨peer, hpeer⟩ := List.mem_iff_getElem?.mp hmem
    have hlt := (List.getElem?_eq_some_iff.mp hpeer).1
    exact ⟨⟨peer, shuffles⟩, ⟨fun _ => hlt, hvalid⟩, selectPeers_of_null hmany hpeer numHops⟩
  · obtain ⟨peer, hpeer⟩ := List.mem_iff_getElem?.mp hmem
    have hlt := (List.getElem?_eq_some_iff.mp hpeer).1
    exact ⟨⟨peer, shuffles⟩, ⟨fun _ => hlt, hvalid⟩, selectPeers_of_bad hmany hpeer hbad numHops⟩

/-- What is not ambiguous is sound. -/
theorem selectsSoundly_of_unambiguous {numHops : ℕ} (h : Unambiguous env profiles numHops) :
    SelectsSoundly env profiles numHops := by
  intro choices hvalid hops hselected
  have hshuffles : ∀ i, (choices.shuffles i).Valid env := hvalid.2
  rcases selectPeers_cases hvalid profiles numHops with ⟨r, hfirst, heq⟩ | ⟨profiles', hwithout, heq⟩
  · rw [heq] at hselected
    obtain ⟨hres, rfl⟩ := Prod.mk.inj hselected
    obtain ⟨hlen, hfound, hdistinct⟩ :=
      sound_selectHops hshuffles (h.behindPeer r hfirst) (Prod.ext hres rfl)
    have hpos : numHops ≠ 0 := fun hzero => h.zero hzero r hfirst
    have hroom : numHops ≤ 1 ∨ ∃ r, env.Found env.fits (some r) := by
      by_cases hone : numHops ≤ 1
      · exact .inl hone
      · obtain ⟨r', hr'⟩ := List.exists_mem_of_length_pos (by rw [hlen]; omega)
        exact .inr ⟨r', hfound r' hr'⟩
    refine ⟨?_, List.forall_mem_cons.mpr ⟨h.own hroom r hfirst, fun r' hr' =>
      ne_own_of_found (hfound r' hr')⟩, hdistinct⟩
    rw [List.length_cons, hlen]
    omega
  · rw [heq] at hselected
    obtain ⟨hlen, hfound, hdistinct⟩ :=
      sound_selectHops hshuffles (h.withoutPeer profiles' hwithout) hselected
    exact ⟨hlen, fun r hr => ne_own_of_found (hfound r hr), hdistinct⟩

/-- What is ambiguous goes wrong for some choices. -/
theorem unambiguous_of_selectsSoundly {numHops : ℕ} (h : SelectsSoundly env profiles numHops) :
    Unambiguous env profiles numHops where
  zero hzero r hfirst := by
    subst hzero
    have hnone : 0 = 0 ∨ ∃ r, env.Found env.fits (some r) := .inl rfl
    obtain ⟨shuffles, hvalid, hrest⟩ := exists_selectHops hnone (profiles.ask r) (some r)
    obtain ⟨choices, hchoices, heq⟩ := exists_firstPeer hfirst hvalid 0
    have hlen := (h choices hchoices _ (heq.trans (Prod.ext hrest rfl))).length
    cases hlen
  own hroom r hfirst := by
    have hcompletes : numHops - 1 = 0 ∨ ∃ r, env.Found env.fits (some r) :=
      hroom.imp_left fun hle => by omega
    obtain ⟨shuffles, hvalid, hrest⟩ := exists_selectHops hcompletes (profiles.ask r) (some r)
    obtain ⟨choices, hchoices, heq⟩ := exists_firstPeer hfirst hvalid numHops
    exact (h choices hchoices _ (heq.trans (Prod.ext hrest rfl))).ne_own r List.mem_cons_self
  behindPeer r hfirst := by
    by_contra hrepeats
    obtain ⟨shuffles, hvalid, hrest, hdistinct⟩ := exists_repetition hrepeats
    obtain ⟨choices, hchoices, heq⟩ := exists_firstPeer hfirst hvalid numHops
    exact hdistinct (h choices hchoices _ (heq.trans (Prod.ext hrest rfl))).chain
  withoutPeer profiles' hwithout := by
    by_contra hrepeats
    obtain ⟨shuffles, hvalid, hrest, hdistinct⟩ := exists_repetition hrepeats
    obtain ⟨choices, hchoices, heq⟩ := exists_withoutPeer hwithout hvalid numHops
    exact hdistinct (h choices hchoices _ (heq.trans (Prod.ext hrest rfl))).chain

/-- Every selection is sound if and only if nothing is ambiguous. -/
theorem selections_sound_iff (env : Env) (profiles : Profiles) (numHops : ℕ) :
    SelectsSoundly env profiles numHops ↔ Unambiguous env profiles numHops :=
  ⟨unambiguous_of_selectsSoundly, selectsSoundly_of_unambiguous⟩

/-- A router that is not the router itself. -/
def otherHash : IdentHash := ⟨List.replicate 32 7, by simp⟩

/-- A database with one other router. -/
def lonelyEnv : Env where
  db :=
    { routers := fun _ =>
        { identity := { identHash := otherHash }, contents := { supportedTransports := 1 } }
      routerInfos := [(otherHash, 0)] }
  own := { contents := { supportedTransports := 1 } }
  isExploratory := true
  peers := []

/-- The only router becomes the first hop and the second one. -/
theorem sameHopTwice : ¬ SelectsSoundly lonelyEnv (fun _ => {}) 2 := by
  intro h
  have hsound := h ⟨0, fun _ => ⟨[otherHash], [otherHash]⟩⟩ ⟨fun hne => absurd rfl hne, fun _ => ⟨.refl _, .refl _⟩⟩
    [0, 0] (by decide +kernel)
  exact (List.isChain_cons_cons.mp hsound.chain).1 rfl

end Tunnel.PeerSelection
