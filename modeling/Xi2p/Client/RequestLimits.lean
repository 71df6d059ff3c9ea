import Xi2p.Client.LeaseSetRequests

/-!
# Limits of lease-set requests

A request for a lease set remembers the floodfills that it has asked, the time of its last query, and no
other time. `HandleDatabaseSearchReplyMessage` and `HandleRequestTimoutTimer` ask more of them.

* `Watched`: a destination, and what its request for one lease set has asked since it was created.
* `limited_iff`: the runs in which no floodfill is asked twice, at most seven are asked, and none after
  the timeout.
-/

namespace Client

open Bytes I2NP Garlic Router

/-! ## Runs -/

namespace ClientDestination

variable (crypto : Identity.Crypto) (d : ClientDestination)

/-- What an event does. -/
def perform : RequestEvent → ClientDestination × List Effect
  | .requestDestination outside dest hasCallback =>
    d.requestDestination outside dest (if hasCallback then some 0 else none)
  | .runPosted outside => d.runPosted outside
  | .handleDatabaseStoreMessage ambient m buf len =>
    d.handleDatabaseStoreMessage crypto ambient m buf len
  | .handleDatabaseSearchReplyMessage outside m buf =>
    d.handleDatabaseSearchReplyMessage outside m buf
  | .handleRequestTimeoutTimer outside aborted dest =>
    d.handleRequestTimeoutTimer outside aborted dest
  | .leaseSets leaseSet remoteLeaseSets => ({ d with leaseSet, remoteLeaseSets }, [])

end ClientDestination

/-- When it happens; `0` for events that ask no floodfill. -/
def RequestEvent.seconds : RequestEvent → ℕ
  | .requestDestination outside _ _ => outside.seconds
  | .runPosted outside => outside.seconds
  | .handleDatabaseSearchReplyMessage outside _ _ => outside.seconds
  | .handleRequestTimeoutTimer outside _ _ => outside.seconds
  | .handleDatabaseStoreMessage _ _ _ _ => 0
  | .leaseSets _ _ => 0

/-- The floodfills that are asked for a lease set. -/
def lookupsOf (dest : Tag) (effects : List Effect) : List Tag :=
  effects.filterMap fun
    | .lookup dest' floodfill _ => if dest' = dest then some floodfill else none
    | .requestComplete _ _ => none
    | .requestRouter _ => none

/-- A destination, and its last request for one lease set. -/
structure Watched where
  destination : ClientDestination
  /-- When the request was created. -/
  created : ℕ := 0
  /-- The floodfills that it has asked, and when. -/
  asked : List (Tag × ℕ) := []

namespace Watched

variable (crypto : Identity.Crypto) (dest : Tag)

/-- The request, until it ends. -/
def request (s : Watched) : Option LeaseSetRequest :=
  AssocMap.find s.destination.leaseSetRequests dest

def step (s : Watched) (event : RequestEvent) : Watched :=
  let (destination, effects) := s.destination.perform crypto event
  let sent := (lookupsOf dest effects).map (·, event.seconds)
  if (s.request dest).isSome then { s with destination, asked := s.asked ++ sent }
  -- a new request
  else if (AssocMap.find destination.leaseSetRequests dest).isSome then
    { destination, created := event.seconds, asked := sent }
  else { s with destination }

/-- No floodfill was asked twice, not too many were asked, and none was asked too late. -/
structure Limited (s : Watched) : Prop where
  once : (s.asked.map Prod.fst).Nodup
  count : s.asked.length ≤ maxNumFloodfillsPerRequest
  timely : ∀ e ∈ s.asked, e.2 ≤ s.created + maxLeaseSetRequestTimeout

end Watched

/-! ## What is asked -/

/-- The peers of a search reply that the network database knows, while there are tunnels. -/
def knownPeers (outside : RequestOutside) (peers : List (ℕ × Tag)) : List Tag :=
  peers.filterMap fun peer =>
    if outside.hasInboundTunnel peer.1 && outside.hasOutboundTunnel peer.1 then
      outside.findRouter peer.2
    else none

/-- The floodfills that an event makes a request ask. -/
def asks (dest : Tag) (request : LeaseSetRequest) : RequestEvent → List Tag
  | .handleDatabaseSearchReplyMessage outside m buf =>
    if IdentHash.ofMem m buf = dest ∧ request.excluded.length < maxNumFloodfillsPerRequest then
      knownPeers outside (ClientDestination.replyPeers m buf)
    else []
  | .handleRequestTimeoutTimer outside aborted dest' =>
    if aborted = false ∧ dest' = dest ∧
        outside.seconds < request.requestTime + maxLeaseSetRequestTimeout ∧
        (outside.hasInboundTunnel 0 && outside.hasOutboundTunnel 0) = true then
      (outside.closestFloodfill dest request.excluded).toList
    else []
  | _ => []

/-- The floodfills that are to be asked are new and different, not too many, and it is not too late. -/
structure Watched.Fits (s : Watched) (request : LeaseSetRequest) (floodfills : List Tag)
    (seconds : ℕ) : Prop where
  nodup : floodfills.Nodup
  new : ∀ f ∈ floodfills, f ∉ request.excluded
  count : request.excluded.length + floodfills.length ≤ maxNumFloodfillsPerRequest
  timely : floodfills ≠ [] → seconds ≤ s.created + maxLeaseSetRequestTimeout

/-- What an event makes the request ask is within the limits. -/
def Watched.Allowed (dest : Tag) (s : Watched) (event : RequestEvent) : Prop :=
  ∀ request, s.request dest = some request → s.Fits request (asks dest request event) event.seconds

/-- `request->excluded.insert`, for one floodfill after the other. -/
def exclude (excluded floodfills : List Tag) : List Tag :=
  floodfills.foldl (fun excluded f => excluded.insert f) excluded

theorem exclude_of_new {excluded fs : List Tag} (hnodup : fs.Nodup) (hnew : ∀ f ∈ fs, f ∉ excluded) :
    exclude excluded fs = fs.reverse ++ excluded := by
  induction fs generalizing excluded with
  | nil => rfl
  | cons f fs ih =>
    rw [List.nodup_cons] at hnodup
    rw [List.forall_mem_cons] at hnew
    have hrest : ∀ g ∈ fs, g ∉ f :: excluded := by
      intro g hg hmem
      rcases List.mem_cons.mp hmem with rfl | hmem
      · exact hnodup.1 hg
      · exact hnew.2 g hg hmem
    show exclude (excluded.insert f) fs = _
    rw [List.insert_of_not_mem hnew.1, ih hnodup.2 hrest, List.reverse_cons, List.append_assoc]
    rfl

@[simp]
theorem lookupsOf_append (dest : Tag) (effects effects' : List Effect) :
    lookupsOf dest (effects ++ effects') = lookupsOf dest effects ++ lookupsOf dest effects' :=
  List.filterMap_append

@[simp]
theorem lookupsOf_complete (dest : Tag) (callback : Option ℕ) (leaseSet : Option LeaseSet) :
    lookupsOf dest (complete callback leaseSet) = [] := by
  cases callback <;> rfl

section Steps

variable {crypto : Identity.Crypto} {dest : Tag} {d : ClientDestination}

/-- The loop over the peers of a search reply. -/
theorem foldl_askPeer (outside : RequestOutside) (key : Tag) (peers : List (ℕ × Tag))
    (acc : LeaseSetRequest × Bool × List Effect) :
    let r := peers.foldl (ClientDestination.askPeer outside key) acc
    lookupsOf dest r.2.2 = lookupsOf dest acc.2.2 ++ (if key = dest then knownPeers outside peers else [])
      ∧ r.1.excluded = exclude acc.1.excluded (knownPeers outside peers) ∧
      r.2.1 = (acc.2.1 || !(knownPeers outside peers).isEmpty) := by
  induction peers generalizing acc with
  | nil => simp [knownPeers, exclude]
  | cons peer peers ih =>
    obtain ⟨hlookups, hexcluded, hfound⟩ := ih (ClientDestination.askPeer outside key acc peer)
    dsimp only
    rw [List.foldl_cons, hlookups, hexcluded, hfound]
    have hcons (f : Tag) (fs : List Tag) (ex : List Tag) :
        exclude ex (f :: fs) = exclude (ex.insert f) fs := rfl
    rw [ClientDestination.askPeer]
    cases hrouter : outside.findRouter peer.2 with
    | none =>
      have hknown : knownPeers outside (peer :: peers) = knownPeers outside peers := by
        rw [knownPeers, List.filterMap_cons, hrouter, ite_self]
        rfl
      rw [hknown]
      simp [lookupsOf]
    | some floodfill =>
      dsimp only
      rw [LeaseSetRequest.send]
      by_cases htunnels : (outside.hasInboundTunnel peer.1 && outside.hasOutboundTunnel peer.1) = true
      · have hknown : knownPeers outside (peer :: peers) = floodfill :: knownPeers outside peers := by
          rw [knownPeers, List.filterMap_cons, if_pos htunnels, hrouter]
          rfl
        rw [if_pos htunnels, hknown, hcons]
        by_cases hkey : key = dest
        · simp [lookupsOf, hkey]
        · simp [lookupsOf, hkey]
      · have hknown : knownPeers outside (peer :: peers) = knownPeers outside peers := by
          rw [knownPeers, List.filterMap_cons, if_neg htunnels]
          rfl
        rw [if_neg htunnels, hknown]
        exact ⟨rfl, rfl, rfl⟩

/-- Nothing is asked for the lease set, and there is no other request for it than before. -/
structure Kept (dest : Tag) (d : ClientDestination) (r : ClientDestination × List Effect) : Prop where
  distinct : AssocMap.Distinct r.1.leaseSetRequests
  lookups : lookupsOf dest r.2 = []
  kept : ∀ request, AssocMap.find r.1.leaseSetRequests dest = some request →
    AssocMap.find d.leaseSetRequests dest = some request

theorem Kept.same {d' : ClientDestination} {effects : List Effect}
    (hdistinct : AssocMap.Distinct d.leaseSetRequests)
    (hsame : d'.leaseSetRequests = d.leaseSetRequests) (hlookups : lookupsOf dest effects = []) :
    Kept dest d (d', effects) where
  distinct := hsame ▸ hdistinct
  lookups := hlookups
  kept _ hrequest := hsame ▸ hrequest

/-- A request ends. -/
theorem Kept.erase {d' : ClientDestination} {key : Tag} {effects : List Effect}
    (hdistinct : AssocMap.Distinct d.leaseSetRequests)
    (herase : d'.leaseSetRequests = AssocMap.erase d.leaseSetRequests key)
    (hlookups : lookupsOf dest effects = []) : Kept dest d (d', effects) where
  distinct := herase ▸ hdistinct.filter _
  lookups := hlookups
  kept request hrequest := by
    rw [herase, AssocMap.find_erase] at hrequest
    split at hrequest
    · cases hrequest
    · exact hrequest

/-- A request for another lease set changes. -/
theorem Kept.assign {d' : ClientDestination} {key : Tag} {request : LeaseSetRequest}
    {effects : List Effect} (hdistinct : AssocMap.Distinct d.leaseSetRequests)
    (hassign : d'.leaseSetRequests = AssocMap.assign hashKey d.leaseSetRequests key request)
    (hne : key ≠ dest) (hlookups : lookupsOf dest effects = []) : Kept dest d (d', effects) where
  distinct := hassign ▸ hdistinct.assign hashKey_injective _ _
  lookups := hlookups
  kept request' hrequest' := by
    rw [hassign, AssocMap.find_assign hashKey_injective hdistinct, if_neg (Ne.symm hne)] at hrequest'
    exact hrequest'

/-- After an event: the floodfills that were asked for the lease set, and what a request for it
excludes. -/
structure Performed (dest : Tag) (r : ClientDestination × List Effect) (sent excluded : List Tag) :
    Prop where
  distinct : AssocMap.Distinct r.1.leaseSetRequests
  lookups : lookupsOf dest r.2 = sent
  excluded_eq : ∀ request, AssocMap.find r.1.leaseSetRequests dest = some request →
    request.excluded = excluded

theorem Kept.performed {r : ClientDestination × List Effect} (h : Kept dest d r)
    {request : LeaseSetRequest} (hfind : AssocMap.find d.leaseSetRequests dest = some request) :
    Performed dest r [] request.excluded where
  distinct := h.distinct
  lookups := h.lookups
  excluded_eq request' hrequest' := by
    have hbefore := h.kept request' hrequest'
    rw [hfind] at hbefore
    rw [Option.some.inj hbefore]

theorem Performed.assign {d' : ClientDestination} {request : LeaseSetRequest} {effects : List Effect}
    {sent excluded : List Tag} (hdistinct : AssocMap.Distinct d.leaseSetRequests)
    (hassign : d'.leaseSetRequests = AssocMap.assign hashKey d.leaseSetRequests dest request)
    (hlookups : lookupsOf dest effects = sent) (hexcluded : request.excluded = excluded) :
    Performed dest (d', effects) sent excluded where
  distinct := hassign ▸ hdistinct.assign hashKey_injective _ _
  lookups := hlookups
  excluded_eq request' hrequest' := by
    rw [hassign, AssocMap.find_assign hashKey_injective hdistinct, if_pos rfl] at hrequest'
    rw [← Option.some.inj hrequest', hexcluded]

theorem lookupsOf_send {request request' : LeaseSetRequest} {outside : RequestOutside} {i : ℕ}
    {key floodfill : Tag} {effects : List Effect}
    (h : request.send outside i key floodfill = some (request', effects)) :
    lookupsOf dest effects = (if key = dest then [floodfill] else []) ∧
      request'.excluded = request.excluded.insert floodfill ∧
      (outside.hasInboundTunnel i && outside.hasOutboundTunnel i) = true := by
  rw [LeaseSetRequest.send] at h
  split at h
  next htunnels =>
    obtain ⟨rfl, rfl⟩ := Prod.mk.inj (Option.some.inj h)
    refine ⟨?_, rfl, htunnels⟩
    by_cases hkey : key = dest
    · simp [lookupsOf, hkey]
    · simp [lookupsOf, hkey]
  next => cases h

/-! ### Events that ask nothing for the lease set -/

section Kept

variable (hdistinct : AssocMap.Distinct d.leaseSetRequests)

include hdistinct

theorem kept_requestDestination (outside : RequestOutside) (dest' : Tag) (callback : Option ℕ) :
    Kept dest d (d.requestDestination outside dest' callback) := by
  rw [ClientDestination.requestDestination]
  split
  · exact Kept.same hdistinct rfl rfl
  · exact Kept.same hdistinct rfl (lookupsOf_complete _ _ _)

theorem kept_handleDatabaseStoreMessage (ambient : Ambient) (m : Mem) (buf len : ℕ) :
    Kept dest d (d.handleDatabaseStoreMessage crypto ambient m buf len) := by
  rw [ClientDestination.handleDatabaseStoreMessage]
  dsimp only
  split
  next => exact Kept.same hdistinct (d.clearLeases_frame _).1 rfl
  next =>
    have hstored : ∀ stored : ClientDestination × Option LeaseSet,
        stored = (if m (buf + 32) = 1 then
          d.storeLeaseSet crypto ambient (IdentHash.ofMem m buf) (leaseSetData m buf len)
          else (d, none)) →
        stored.1.leaseSetRequests = d.leaseSetRequests := by
      rintro _ rfl
      split
      · exact (d.storeLeaseSet_cases crypto ambient _ _).1
      · rfl
    generalize hresult : (if m (buf + 32) = 1 then
      d.storeLeaseSet crypto ambient (IdentHash.ofMem m buf) (leaseSetData m buf len)
      else (d, none)) = stored
    have hrequests := hstored stored hresult.symm
    obtain ⟨d', leaseSet⟩ := stored
    dsimp only at hrequests ⊢
    split
    next =>
      exact Kept.erase hdistinct (congrArg (AssocMap.erase · _) hrequests) (lookupsOf_complete _ _ _)
    next => exact Kept.same hdistinct hrequests rfl

theorem kept_handleDatabaseSearchReplyMessage (outside : RequestOutside) {m : Mem} {buf : ℕ}
    (h : IdentHash.ofMem m buf = dest → AssocMap.find d.leaseSetRequests dest = none) :
    Kept dest d (d.handleDatabaseSearchReplyMessage outside m buf) := by
  rw [ClientDestination.handleDatabaseSearchReplyMessage]
  generalize IdentHash.ofMem m buf = key at h
  dsimp only
  split
  next request hfind =>
    have hne : key ≠ dest := by
      rintro rfl
      rw [h rfl] at hfind
      cases hfind
    have hlookups : ∀ acc : LeaseSetRequest × Bool × List Effect,
        acc = (if request.excluded.length < maxNumFloodfillsPerRequest then
          (ClientDestination.replyPeers m buf).foldl
            (ClientDestination.askPeer outside key) (request, false, []) else (request, false, [])) →
        lookupsOf dest acc.2.2 = [] := by
      rintro _ rfl
      split
      · rw [(foldl_askPeer outside key _ _).1, if_neg hne]
        rfl
      · rfl
    generalize hacc : (if request.excluded.length < maxNumFloodfillsPerRequest then
      (ClientDestination.replyPeers m buf).foldl
        (ClientDestination.askPeer outside key) (request, false, []) else (request, false, [])) = acc
    have hnone := hlookups acc hacc.symm
    obtain ⟨request', found, effects⟩ := acc
    dsimp only at hnone ⊢
    split
    · exact Kept.assign hdistinct rfl hne hnone
    · refine Kept.erase hdistinct rfl ?_
      rw [lookupsOf_append, hnone, ClientDestination.finish, lookupsOf_complete]
      rfl
  next => exact Kept.same hdistinct rfl rfl

theorem kept_handleRequestTimeoutTimer (outside : RequestOutside) {aborted : Bool} {dest' : Tag}
    (h : aborted = false → dest' = dest → AssocMap.find d.leaseSetRequests dest = none) :
    Kept dest d (d.handleRequestTimeoutTimer outside aborted dest') := by
  rw [ClientDestination.handleRequestTimeoutTimer]
  split
  next => exact Kept.same hdistinct rfl rfl
  next haborted =>
    split
    next request hfind =>
      have hne : dest' ≠ dest := by
        rintro rfl
        rw [h (Bool.eq_false_of_not_eq_true haborted) rfl] at hfind
        cases hfind
      dsimp only
      split
      next request' effects hsent =>
        split at hsent
        · obtain ⟨floodfill, -, hsend⟩ := Option.bind_eq_some_iff.mp hsent
          refine Kept.assign hdistinct rfl hne ?_
          rw [(lookupsOf_send hsend).1, if_neg hne]
        · cases hsent
      next => exact Kept.erase hdistinct rfl (lookupsOf_complete _ _ _)
    next => exact Kept.same hdistinct rfl rfl

/-- A call of `RequestLeaseSet` makes a new request only if there is none. -/
theorem runPosted_cases (outside : RequestOutside) :
    Kept dest d (d.runPosted outside) ∨
      AssocMap.find d.leaseSetRequests dest = none ∧
        ∃ floodfill, Performed dest (d.runPosted outside) [floodfill] [floodfill] := by
  rw [ClientDestination.runPosted]
  split
  next dest' callback posted _ =>
    rw [ClientDestination.requestLeaseSet]
    split
    next floodfill _ =>
      split
      next =>
        left
        exact Kept.same hdistinct rfl (lookupsOf_complete _ _ _)
      next hnone =>
        split
        next request effects hsend =>
          obtain ⟨hlookups, hexcluded, -⟩ := @lookupsOf_send dest _ _ _ _ _ _ _ hsend
          by_cases hdest : dest' = dest
          · -- the new request
            subst hdest
            rw [if_pos rfl] at hlookups
            exact .inr ⟨hnone, floodfill, Performed.assign hdistinct rfl hlookups hexcluded⟩
          · rw [if_neg hdest] at hlookups
            left
            exact Kept.assign hdistinct rfl hdest hlookups
        next =>
          left
          exact Kept.same hdistinct rfl (lookupsOf_complete _ _ _)
    next =>
      left
      exact Kept.same hdistinct rfl rfl
  next =>
    left
    exact Kept.same hdistinct rfl rfl

end Kept

/-! ### While the request lasts -/

section Performed

variable {request : LeaseSetRequest} (hdistinct : AssocMap.Distinct d.leaseSetRequests)
  (hfind : AssocMap.find d.leaseSetRequests dest = some request)

include hdistinct hfind

theorem performed_handleDatabaseSearchReplyMessage (outside : RequestOutside) (m : Mem) (buf : ℕ) :
    Performed dest (d.handleDatabaseSearchReplyMessage outside m buf)
      (asks dest request (.handleDatabaseSearchReplyMessage outside m buf))
      (exclude request.excluded
        (asks dest request (.handleDatabaseSearchReplyMessage outside m buf))) := by
  rw [asks]
  by_cases hdest : IdentHash.ofMem m buf = dest
  · rw [ClientDestination.handleDatabaseSearchReplyMessage, hdest]
    dsimp only
    rw [hfind]
    dsimp only
    by_cases hcount : request.excluded.length < maxNumFloodfillsPerRequest
    · have hasks : dest = dest ∧ request.excluded.length < maxNumFloodfillsPerRequest := ⟨rfl, hcount⟩
      rw [if_pos hasks, if_pos hcount]
      obtain ⟨hlookups, hexcluded, hfound⟩ := @foldl_askPeer dest outside dest
        (ClientDestination.replyPeers m buf) (request, false, [])
      generalize (ClientDestination.replyPeers m buf).foldl
        (ClientDestination.askPeer outside dest) (request, false, []) = acc at *
      obtain ⟨request', found, effects⟩ := acc
      dsimp only at hlookups hexcluded hfound ⊢
      rw [if_pos rfl] at hlookups
      rw [← hexcluded]
      have hsent : knownPeers outside (ClientDestination.replyPeers m buf) = lookupsOf dest effects :=
        hlookups.symm
      rw [hsent] at hexcluded hfound ⊢
      split
      · exact Performed.assign hdistinct rfl rfl rfl
      next hnot =>
        -- nothing was sent, and the request ends
        have hnone : lookupsOf dest effects = [] := by simpa [hfound] using hnot
        rw [hnone] at hexcluded ⊢
        rw [hexcluded]
        refine Kept.performed (Kept.erase hdistinct rfl ?_) hfind
        rw [lookupsOf_append, hnone, ClientDestination.finish, lookupsOf_complete]
        rfl
    · have hasks : ¬ (dest = dest ∧ request.excluded.length < maxNumFloodfillsPerRequest) :=
        fun h => hcount h.2
      rw [if_neg hasks, if_neg hcount]
      dsimp only
      rw [if_neg Bool.false_ne_true]
      exact (Kept.erase hdistinct rfl (lookupsOf_complete _ _ _)).performed hfind
  · rw [if_neg fun h => hdest h.1]
    exact (kept_handleDatabaseSearchReplyMessage hdistinct outside fun h => absurd h hdest).performed
      hfind

theorem performed_handleRequestTimeoutTimer (outside : RequestOutside) (aborted : Bool) (dest' : Tag) :
    Performed dest (d.handleRequestTimeoutTimer outside aborted dest')
      (asks dest request (.handleRequestTimeoutTimer outside aborted dest'))
      (exclude request.excluded
        (asks dest request (.handleRequestTimeoutTimer outside aborted dest'))) := by
  rw [asks]
  by_cases hown : aborted = false ∧ dest' = dest
  · obtain ⟨rfl, rfl⟩ := hown
    rw [ClientDestination.handleRequestTimeoutTimer, if_neg Bool.false_ne_true, hfind]
    have hends : Performed dest' (d.finish dest' request none) [] request.excluded :=
      (Kept.erase hdistinct rfl (lookupsOf_complete _ _ _)).performed hfind
    dsimp only
    by_cases htime : outside.seconds < request.requestTime + maxLeaseSetRequestTimeout
    · rw [if_pos htime]
      cases hclosest : outside.closestFloodfill dest' request.excluded with
      | none =>
        rw [Option.toList_none, ite_self]
        exact hends
      | some floodfill =>
        rw [Option.bind_some, LeaseSetRequest.send]
        by_cases htunnels : (outside.hasInboundTunnel 0 && outside.hasOutboundTunnel 0) = true
        · rw [if_pos htunnels, if_pos ⟨rfl, rfl, htime, htunnels⟩]
          have hsent (excluded : List Tag) :
              lookupsOf dest' [.lookup dest' floodfill excluded] = [floodfill] := by simp [lookupsOf]
          exact Performed.assign hdistinct rfl (hsent _) rfl
        · rw [if_neg htunnels, if_neg fun h => htunnels h.2.2.2]
          exact hends
    · rw [if_neg htime, if_neg fun h => htime h.2.2.1]
      exact hends
  · rw [if_neg fun h => hown ⟨h.1, h.2.1⟩]
    refine (kept_handleRequestTimeoutTimer hdistinct outside ?_).performed hfind
    exact fun haborted hdest => absurd ⟨haborted, hdest⟩ hown

theorem performed_perform (event : RequestEvent) :
    Performed dest (d.perform crypto event) (asks dest request event)
      (exclude request.excluded (asks dest request event)) := by
  cases event with
  | requestDestination outside dest' hasCallback =>
    exact (kept_requestDestination hdistinct outside dest' _).performed hfind
  | runPosted outside =>
    obtain hkept | ⟨hnone, -⟩ := runPosted_cases hdistinct outside
    · exact Kept.performed hkept hfind
    · rw [hfind] at hnone
      cases hnone
  | handleDatabaseStoreMessage ambient m buf len =>
    exact (kept_handleDatabaseStoreMessage hdistinct ambient m buf len).performed hfind
  | handleDatabaseSearchReplyMessage outside m buf =>
    exact performed_handleDatabaseSearchReplyMessage hdistinct hfind outside m buf
  | handleRequestTimeoutTimer outside aborted dest' =>
    exact performed_handleRequestTimeoutTimer hdistinct hfind outside aborted dest'
  | leaseSets leaseSet remoteLeaseSets =>
    have hkept : Kept dest d (d.perform crypto (.leaseSets leaseSet remoteLeaseSets)) :=
      Kept.same hdistinct rfl rfl
    exact hkept.performed hfind

end Performed

/-- Without a request nothing is asked, but by a new request, which asks one floodfill. -/
theorem perform_of_none (hdistinct : AssocMap.Distinct d.leaseSetRequests)
    (hfind : AssocMap.find d.leaseSetRequests dest = none) (event : RequestEvent) :
    Kept dest d (d.perform crypto event) ∨
      ∃ floodfill, Performed dest (d.perform crypto event) [floodfill] [floodfill] := by
  cases event with
  | requestDestination outside dest' hasCallback =>
    exact .inl (kept_requestDestination hdistinct outside dest' _)
  | runPosted outside =>
    exact (runPosted_cases hdistinct outside).imp_right And.right
  | handleDatabaseStoreMessage ambient m buf len =>
    exact .inl (kept_handleDatabaseStoreMessage hdistinct ambient m buf len)
  | handleDatabaseSearchReplyMessage outside m buf =>
    exact .inl (kept_handleDatabaseSearchReplyMessage hdistinct outside fun _ => hfind)
  | handleRequestTimeoutTimer outside aborted dest' =>
    exact .inl (kept_handleRequestTimeoutTimer hdistinct outside fun _ _ => hfind)
  | leaseSets leaseSet remoteLeaseSets => exact .inl (Kept.same hdistinct rfl rfl)

end Steps

/-! ## The limits -/

namespace Watched

variable {crypto : Identity.Crypto} {dest : Tag} {s : Watched}

/-- The request excludes what it has asked. -/
structure Invariant (dest : Tag) (s : Watched) : Prop where
  distinct : AssocMap.Distinct s.destination.leaseSetRequests
  limited : s.Limited
  excluded_eq : ∀ request, s.request dest = some request →
    request.excluded = (s.asked.map Prod.fst).reverse

theorem Invariant.limited_append_iff (h : s.Invariant dest) {request : LeaseSetRequest}
    (hrequest : s.request dest = some request) (destination : ClientDestination)
    (floodfills : List Tag) (seconds : ℕ) :
    ({ s with destination, asked := s.asked ++ floodfills.map (·, seconds) } : Watched).Limited ↔
      s.Fits request floodfills seconds := by
  have hexcluded := h.excluded_eq request hrequest
  have hlength : request.excluded.length = s.asked.length := by
    rw [hexcluded, List.length_reverse, List.length_map]
  have hmem (f : Tag) : f ∈ request.excluded ↔ f ∈ s.asked.map Prod.fst := by
    rw [hexcluded, List.mem_reverse]
  have hfst : (s.asked ++ floodfills.map (·, seconds)).map Prod.fst =
      s.asked.map Prod.fst ++ floodfills := by
    rw [List.map_append, List.map_map]
    exact congrArg _ (List.map_id _)
  constructor
  · intro hlimited
    have honce := hlimited.once
    rw [hfst, List.nodup_append] at honce
    have hcount := hlimited.count
    rw [List.length_append, List.length_map] at hcount
    refine ⟨honce.2.1, fun f hf hmem' => ?_, hlength ▸ hcount, fun hne => ?_⟩
    · exact honce.2.2 f ((hmem f).mp hmem') f hf rfl
    · obtain ⟨f, hf⟩ := List.exists_mem_of_ne_nil _ hne
      exact hlimited.timely (f, seconds)
        (List.mem_append_right _ (List.mem_map.mpr ⟨f, hf, rfl⟩))
  · intro hfits
    refine ⟨?_, ?_, fun e he => ?_⟩
    · rw [hfst, List.nodup_append]
      refine ⟨h.limited.once, hfits.nodup, fun f hf g hg heq => ?_⟩
      exact hfits.new g hg ((hmem g).mpr (heq ▸ hf))
    · rw [List.length_append, List.length_map, ← hlength]
      exact hfits.count
    · obtain hold | hnew := List.mem_append.mp he
      · exact h.limited.timely e hold
      · obtain ⟨f, hf, rfl⟩ := List.mem_map.mp hnew
        exact hfits.timely (List.ne_nil_of_mem hf)

theorem Invariant.step_of_some (h : s.Invariant dest) {request : LeaseSetRequest}
    (hrequest : s.request dest = some request) (event : RequestEvent) :
    s.step crypto dest event = { s with
      destination := (s.destination.perform crypto event).1
      asked := s.asked ++ (asks dest request event).map (·, event.seconds) } := by
  rw [← (performed_perform h.distinct hrequest event).lookups, step, hrequest]
  rfl

/-- What is asked is within the limits exactly if the event is allowed. -/
theorem Invariant.limited_step_iff (h : s.Invariant dest) {request : LeaseSetRequest}
    (hrequest : s.request dest = some request) (event : RequestEvent) :
    (s.step crypto dest event).Limited ↔ s.Fits request (asks dest request event) event.seconds := by
  rw [h.step_of_some hrequest]
  exact h.limited_append_iff hrequest _ _ _

/-- Without a request, or with a new one. -/
theorem Invariant.step_of_none (h : s.Invariant dest) (hrequest : s.request dest = none)
    (event : RequestEvent) : (s.step crypto dest event).Invariant dest := by
  have hperform : Kept dest s.destination (s.destination.perform crypto event) ∨
      ∃ floodfill, Performed dest (s.destination.perform crypto event) [floodfill] [floodfill] :=
    perform_of_none h.distinct hrequest event
  have hdistinct : AssocMap.Distinct (s.destination.perform crypto event).1.leaseSetRequests :=
    hperform.elim Kept.distinct fun ⟨_, hnew⟩ => hnew.distinct
  rw [Watched.step, hrequest]
  generalize s.destination.perform crypto event = performed at *
  obtain ⟨destination, effects⟩ := performed
  dsimp only at hdistinct ⊢
  rw [Option.isSome_none, if_neg Bool.false_ne_true]
  cases hfind : AssocMap.find destination.leaseSetRequests dest with
  | none =>
    rw [Option.isSome_none, if_neg Bool.false_ne_true]
    refine ⟨hdistinct, ⟨h.limited.once, h.limited.count, h.limited.timely⟩, fun request hsome => ?_⟩
    rw [Watched.request, hfind] at hsome
    cases hsome
  | some request =>
    obtain hkept | ⟨floodfill, hnew⟩ := hperform
    · have hbefore := hkept.kept request hfind
      rw [show AssocMap.find s.destination.leaseSetRequests dest = none from hrequest] at hbefore
      cases hbefore
    · -- the new request has asked one floodfill, just now
      have hlookups : lookupsOf dest effects = [floodfill] := hnew.lookups
      rw [if_pos (Option.isSome_some), hlookups]
      refine ⟨hdistinct, ⟨List.nodup_singleton _, ?_, fun e he => ?_⟩, hnew.excluded_eq⟩
      · exact Nat.one_le_ofNat
      · rw [List.mem_singleton.mp he]
        exact Nat.le_add_right _ _

theorem Invariant.step (h : s.Invariant dest) {event : RequestEvent} (hallowed : s.Allowed dest event) :
    (s.step crypto dest event).Invariant dest := by
  cases hrequest : s.request dest with
  | none => exact h.step_of_none hrequest event
  | some request =>
    have hfits := hallowed request hrequest
    have hperformed : Performed dest (s.destination.perform crypto event) _ _ :=
      performed_perform h.distinct hrequest event
    refine ⟨?_, (h.limited_step_iff hrequest event).mpr hfits, fun request' hrequest' => ?_⟩
    · rw [h.step_of_some hrequest]
      exact hperformed.distinct
    · rw [h.step_of_some hrequest] at hrequest' ⊢
      rw [hperformed.excluded_eq request' hrequest', exclude_of_new hfits.nodup hfits.new,
        h.excluded_eq request hrequest, List.map_append, List.reverse_append, List.map_map]
      exact congrArg (·.reverse ++ _) (List.map_id _).symm

theorem Invariant.not_limited (h : s.Invariant dest) {event : RequestEvent}
    (hnot : ¬ s.Allowed dest event) : ¬ (s.step crypto dest event).Limited := by
  rw [Allowed, not_forall] at hnot
  obtain ⟨request, hnot⟩ := hnot
  rw [Classical.not_imp] at hnot
  obtain ⟨hrequest, hfits⟩ := hnot
  rwa [h.limited_step_iff hrequest]

end Watched

/-- No floodfill is asked twice, at most seven are asked, and none after the timeout, exactly if what the
search replies and timers make the request ask is new and different, not too much and not too late. -/
theorem limited_iff (crypto : Identity.Crypto) (isPublic : Bool) (dest : Tag)
    (events : List RequestEvent) :
    Runs.Always (Watched.step crypto dest) Watched.Limited { destination := { isPublic } } events ↔
      Runs.Meets (Watched.step crypto dest) (Watched.Allowed dest) { destination := { isPublic } }
        events := by
  have hstart : Watched.Invariant dest { destination := { isPublic } } :=
    ⟨List.nodup_nil, ⟨List.nodup_nil, Nat.zero_le _, nofun⟩, nofun⟩
  exact Runs.always_iff_meets (fun _ _ h hallowed => h.step hallowed) (fun _ h => h.limited)
    (fun _ _ h hnot => h.not_limited hnot) hstart events

/-- One floodfill is known, and there are tunnels. -/
def singleFloodfill : RequestOutside where
  seconds := 0
  hasNonExpiredLeases := true
  hasOutboundTunnels := true
  hasInboundTunnel _ := true
  hasOutboundTunnel _ := true
  closestFloodfill _ excluded := if excluded = [] then some IdentHash.zero else none
  findRouter ident := if ident = IdentHash.zero then some IdentHash.zero else none

/-- A search reply that lists the floodfill that was asked. -/
theorem not_limited_repeatedFloodfill :
    ¬ ∀ (crypto : Identity.Crypto) (isPublic : Bool) (dest : Tag) (events : List RequestEvent),
      Runs.Always (Watched.step crypto dest) Watched.Limited { destination := { isPublic } }
        events := by
  intro h
  have hlimited := h { sha256 := fun _ => IdentHash.zero, verify := fun _ _ _ _ => false } true
    IdentHash.zero
    [.leaseSets (some []) [], .requestDestination singleFloodfill IdentHash.zero true,
      .runPosted singleFloodfill,
      .handleDatabaseSearchReplyMessage singleFloodfill (fun i => if i = 32 then 1 else 0) 0]
    _ (List.prefix_refl _)
  have honce := hlimited.once
  revert honce
  decide

end Client
