import Xi2p.Lib.Runs
import Xi2p.Client.Destination

/-!
# Requests for lease sets

A callback that is passed to `RequestDestination` is called when its request ends. Requests are ended by
stores, by search replies and by timers, in any order.

* `Requester`: a destination with the callbacks that were passed to it, and those that were called.
* `completedOnce_iff`: every callback is called once and with the right lease set, unless no floodfill is
  known or a lease set is stored under the hash of another one.
-/

namespace Client

open Bytes I2NP Garlic Router

/-! ## Stored lease sets -/

/-- The lease set in a store message is valid. -/
def ClientDestination.Accepts (crypto : Identity.Crypto) (ambient : Ambient) (d : ClientDestination)
    (key : Tag) (data : List UInt8) : Prop :=
  match AssocMap.find d.remoteLeaseSets key with
  | some old => (old.isValid &&
      LeaseSet.isSigned crypto old.identity (old.updateBuffer ambient data) data.length) = true
  | none =>
    LeaseSet.isSigned crypto {} (store (ambient.newBuffer data.length) 0 data) data.length = true

/-- The hash of the identity in a store message. If no identity can be read, it is that of the lease set
that was there before. -/
def ClientDestination.storedIdent (crypto : Identity.Crypto) (d : ClientDestination) (key : Tag)
    (data : List UInt8) : Tag :=
  (dataIdent crypto data).getD
    (((AssocMap.find d.remoteLeaseSets key).map LeaseSet.getIdentHash).getD IdentHash.zero)

theorem ClientDestination.storeLeaseSet_cases (crypto : Identity.Crypto) (ambient : Ambient)
    (d : ClientDestination) (key : Tag) (data : List UInt8) :
    (d.storeLeaseSet crypto ambient key data).1.leaseSetRequests = d.leaseSetRequests ∧
      (d.storeLeaseSet crypto ambient key data).1.posted = d.posted ∧
      ((d.storeLeaseSet crypto ambient key data).2 = none ∧ ¬ d.Accepts crypto ambient key data ∨
        ∃ leaseSet, (d.storeLeaseSet crypto ambient key data).2 = some leaseSet ∧
          d.Accepts crypto ambient key data ∧
          leaseSet.getIdentHash = d.storedIdent crypto key data) := by
  unfold storeLeaseSet Accepts storedIdent
  split
  next old hfind =>
    dsimp only
    rw [LeaseSet.isValid_update]
    simp only [hfind]
    split
    next hvalid =>
      exact ⟨rfl, rfl, .inr ⟨_, rfl, hvalid, LeaseSet.update_identHash crypto ambient old data⟩⟩
    next hnot => exact ⟨rfl, rfl, .inl ⟨rfl, hnot⟩⟩
  next hfind =>
    have hsigned : (LeaseSet.ofBuffer crypto ambient data).isValid =
        LeaseSet.isSigned crypto {} (store (ambient.newBuffer data.length) 0 data) data.length :=
      Bool.true_and _
    dsimp only
    rw [hsigned]
    simp only [hfind]
    split
    next hvalid =>
      exact ⟨rfl, rfl, .inr ⟨_, rfl, hvalid, LeaseSet.ofBuffer_identHash crypto ambient data⟩⟩
    next hnot => exact ⟨rfl, rfl, .inl ⟨rfl, hnot⟩⟩

theorem ClientDestination.clearLeases_frame (d : ClientDestination) (key : Tag) :
    (d.clearLeases key).leaseSetRequests = d.leaseSetRequests ∧
      (d.clearLeases key).posted = d.posted := by
  rw [clearLeases]
  split <;> exact ⟨rfl, rfl⟩

/-! ## Runs -/

/-- What happens to a destination. -/
inductive RequestEvent
  | requestDestination (outside : RequestOutside) (dest : Tag) (hasCallback : Bool)
  | runPosted (outside : RequestOutside)
  | handleDatabaseStoreMessage (ambient : Ambient) (m : Mem) (buf len : ℕ)
  | handleDatabaseSearchReplyMessage (outside : RequestOutside) (m : Mem) (buf : ℕ)
  | handleRequestTimeoutTimer (outside : RequestOutside) (aborted : Bool) (dest : Tag)
  /-- The lease sets change: `UpdateLeaseSet`, `FindLeaseSet`, `CleanupRemoteLeaseSets`, or the network
  database updates a lease set that it shares. -/
  | leaseSets (leaseSet : Option (List UInt8)) (remoteLeaseSets : List (Tag × LeaseSet))

/-- A destination, and what has become of the callbacks. -/
structure Requester where
  destination : ClientDestination
  /-- What the callbacks were passed for, in the order of the calls. -/
  passed : List Tag := []
  /-- The calls of callbacks, with the lease set or null. -/
  completions : List (ℕ × Option LeaseSet) := []

/-- The calls of callbacks. -/
def completionsOf (effects : List Effect) : List (ℕ × Option LeaseSet) :=
  effects.filterMap fun
    | .requestComplete callback leaseSet => some (callback, leaseSet)
    | .lookup _ _ _ => none
    | .requestRouter _ => none

/-- The callbacks of requests. -/
def callbacksOf (requests : List (Tag × LeaseSetRequest)) : List ℕ :=
  requests.filterMap fun e => e.2.requestComplete

namespace Requester

variable (crypto : Identity.Crypto)

/-- After a call. -/
def after (s : Requester) (result : ClientDestination × List Effect) : Requester :=
  { s with
    destination := result.1
    completions := s.completions ++ completionsOf result.2 }

def step (s : Requester) : RequestEvent → Requester
  | .requestDestination outside dest hasCallback =>
    if hasCallback then
      { s with passed := s.passed ++ [dest] }.after
        (s.destination.requestDestination outside dest (some s.passed.length))
    else s.after (s.destination.requestDestination outside dest none)
  | .runPosted outside => s.after (s.destination.runPosted outside)
  | .handleDatabaseStoreMessage ambient m buf len =>
    s.after (s.destination.handleDatabaseStoreMessage crypto ambient m buf len)
  | .handleDatabaseSearchReplyMessage outside m buf =>
    s.after (s.destination.handleDatabaseSearchReplyMessage outside m buf)
  | .handleRequestTimeoutTimer outside aborted dest =>
    s.after (s.destination.handleRequestTimeoutTimer outside aborted dest)
  | .leaseSets leaseSet remoteLeaseSets =>
    { s with destination := { s.destination with leaseSet, remoteLeaseSets } }

/-- The callbacks of the requests that have still to be made. -/
def postedCallbacks (s : Requester) : List ℕ := s.destination.posted.filterMap Prod.snd

/-- The callbacks of the requests in `m_LeaseSetRequests`. -/
def requestCallbacks (s : Requester) : List ℕ := callbacksOf s.destination.leaseSetRequests

/-- The callbacks that were called. -/
def completedCallbacks (s : Requester) : List ℕ := s.completions.map Prod.fst

/-- Every callback is called at most once, has been called unless its request is still to be made or to
be answered, and was given a lease set only if it is the one that was asked for. -/
structure CompletedOnce (s : Requester) : Prop where
  once : s.completedCallbacks.Nodup
  done : ∀ n < s.passed.length,
    n ∈ s.postedCallbacks ∨ n ∈ s.requestCallbacks ∨ n ∈ s.completedCallbacks
  matched : ∀ n leaseSet, (n, some leaseSet) ∈ s.completions →
    s.passed[n]? = some leaseSet.getIdentHash

/-- A request with a callback finds a floodfill when it is made; and a valid lease set that is stored for
a request with a callback has the hash that it is stored under. -/
def Allowed (s : Requester) : RequestEvent → Prop
  | .runPosted outside => ∀ dest n, s.destination.posted.head? = some (dest, some n) →
      outside.closestFloodfill dest [] ≠ none
  | .handleDatabaseStoreMessage ambient m buf len =>
    m (buf + 32) = 1 → leaseSetOffset m buf ≤ len →
      s.destination.Accepts crypto ambient (IdentHash.ofMem m buf) (leaseSetData m buf len) →
      ∀ request, AssocMap.find s.destination.leaseSetRequests (IdentHash.ofMem m buf) = some request →
        request.requestComplete ≠ none →
        s.destination.storedIdent crypto (IdentHash.ofMem m buf) (leaseSetData m buf len) =
          IdentHash.ofMem m buf
  | _ => True

/-- Every callback is at one place. -/
structure Invariant (s : Requester) : Prop where
  distinct : AssocMap.Distinct s.destination.leaseSetRequests
  somewhere : ∀ n, s.postedCallbacks.count n + s.requestCallbacks.count n +
    s.completedCallbacks.count n = (List.range s.passed.length).count n
  posted : ∀ dest n, (dest, some n) ∈ s.destination.posted → s.passed[n]? = some dest
  requested : ∀ dest request, (dest, request) ∈ s.destination.leaseSetRequests →
    ∀ n ∈ request.requestComplete, s.passed[n]? = some dest
  matched : ∀ n leaseSet, (n, some leaseSet) ∈ s.completions →
    s.passed[n]? = some leaseSet.getIdentHash

/-! ### Callbacks -/

theorem callbacksOf_cons (dest : Tag) (request : LeaseSetRequest)
    (requests : List (Tag × LeaseSetRequest)) :
    callbacksOf ((dest, request) :: requests) =
      request.requestComplete.toList ++ callbacksOf requests := by
  rw [callbacksOf, callbacksOf, List.filterMap_cons]
  cases request.requestComplete <;> rfl

theorem count_callbacksOf_find {requests : List (Tag × LeaseSetRequest)} {dest : Tag}
    {request : LeaseSetRequest} (hdistinct : AssocMap.Distinct requests)
    (hfind : AssocMap.find requests dest = some request) (n : ℕ) :
    (callbacksOf requests).count n = request.requestComplete.toList.count n +
      (callbacksOf (AssocMap.erase requests dest)).count n := by
  have hperm := (hdistinct.perm_cons_erase hfind).filterMap fun e => e.2.requestComplete
  rw [callbacksOf, hperm.count_eq, ← List.count_append, ← callbacksOf_cons dest]
  rfl

theorem count_callbacksOf_assign (requests : List (Tag × LeaseSetRequest)) (dest : Tag)
    (request : LeaseSetRequest) (n : ℕ) :
    (callbacksOf (AssocMap.assign hashKey requests dest request)).count n =
      request.requestComplete.toList.count n +
        (callbacksOf (AssocMap.erase requests dest)).count n := by
  have hperm := (AssocMap.assign_perm hashKey_injective requests dest request).filterMap
    fun e => e.2.requestComplete
  rw [callbacksOf, hperm.count_eq, ← List.count_append, ← callbacksOf_cons dest]
  rfl

theorem erase_of_find_eq_none {requests : List (Tag × LeaseSetRequest)} {dest : Tag}
    (h : AssocMap.find requests dest = none) : AssocMap.erase requests dest = requests :=
  List.filter_eq_self.mpr fun e he =>
    decide_eq_true fun hdest => AssocMap.find_eq_none_iff.mp h e.2 (hdest ▸ he)

@[simp]
theorem completionsOf_append (effects effects' : List Effect) :
    completionsOf (effects ++ effects') = completionsOf effects ++ completionsOf effects' :=
  List.filterMap_append

@[simp]
theorem completionsOf_complete (callback : Option ℕ) (leaseSet : Option LeaseSet) :
    completionsOf (complete callback leaseSet) = callback.toList.map (·, leaseSet) := by
  cases callback <;> rfl

/-- A lookup completes nothing. -/
theorem completionsOf_send {request request' : LeaseSetRequest} {outside : RequestOutside} {i : ℕ}
    {dest nextFloodfill : Tag} {effects : List Effect}
    (h : request.send outside i dest nextFloodfill = some (request', effects)) :
    completionsOf effects = [] ∧ request'.requestComplete = request.requestComplete := by
  rw [LeaseSetRequest.send] at h
  split at h
  · obtain ⟨rfl, rfl⟩ := Prod.mk.inj (Option.some.inj h)
    exact ⟨rfl, rfl⟩
  · cases h

theorem completionsOf_askPeer (outside : RequestOutside) (key : Tag) (peers : List (ℕ × Tag))
    (acc : LeaseSetRequest × Bool × List Effect) :
    completionsOf (peers.foldl (ClientDestination.askPeer outside key) acc).2.2 =
        completionsOf acc.2.2 ∧
      (peers.foldl (ClientDestination.askPeer outside key) acc).1.requestComplete =
        acc.1.requestComplete := by
  induction peers generalizing acc with
  | nil => exact ⟨rfl, rfl⟩
  | cons peer peers ih =>
    have hstep : completionsOf (ClientDestination.askPeer outside key acc peer).2.2 =
          completionsOf acc.2.2 ∧
        (ClientDestination.askPeer outside key acc peer).1.requestComplete =
          acc.1.requestComplete := by
      rw [ClientDestination.askPeer]
      split
      next floodfill =>
        split
        next request effects hsend =>
          obtain ⟨hnone, hcallback⟩ := completionsOf_send hsend
          exact ⟨by simp [hnone], hcallback⟩
        next => exact ⟨rfl, rfl⟩
      next => exact ⟨by simp [completionsOf], rfl⟩
    obtain ⟨heffects, hcallback⟩ := ih (ClientDestination.askPeer outside key acc peer)
    exact ⟨heffects.trans hstep.1, hcallback.trans hstep.2⟩

/-! ### Steps -/

variable {crypto : Identity.Crypto} {s : Requester}

/-- What was posted or requested before is completed, requested, or left as it is. -/
theorem Invariant.after (h : s.Invariant) {d : ClientDestination} {effects : List Effect}
    (hdistinct : AssocMap.Distinct d.leaseSetRequests)
    (hcount : ∀ n, (d.posted.filterMap Prod.snd).count n + (callbacksOf d.leaseSetRequests).count n +
      ((completionsOf effects).map Prod.fst).count n =
        s.postedCallbacks.count n + s.requestCallbacks.count n)
    (hposted : ∀ dest n, (dest, some n) ∈ d.posted → (dest, some n) ∈ s.destination.posted)
    (hrequested : ∀ dest request, (dest, request) ∈ d.leaseSetRequests →
      ∀ n ∈ request.requestComplete, s.passed[n]? = some dest)
    (hmatched : ∀ n leaseSet, (n, some leaseSet) ∈ completionsOf effects →
      s.passed[n]? = some leaseSet.getIdentHash) : (s.after (d, effects)).Invariant where
  distinct := hdistinct
  somewhere n := by
    have h₁ := hcount n
    have h₂ := h.somewhere n
    simp only [postedCallbacks, requestCallbacks, completedCallbacks, Requester.after, List.map_append,
      List.count_append] at h₁ h₂ ⊢
    omega
  posted dest n hmem := h.posted dest n (hposted dest n hmem)
  requested := hrequested
  matched n leaseSet hmem := (List.mem_append.mp hmem).elim (h.matched n leaseSet)
    (hmatched n leaseSet)

/-- Nothing happens. -/
theorem Invariant.after_self (h : s.Invariant) : (s.after (s.destination, [])).Invariant :=
  h.after h.distinct (fun _ => rfl) (fun _ _ hmem => hmem) h.requested fun _ _ hmem => by cases hmem

/-- A request is sent again. -/
theorem Invariant.setRequest (h : s.Invariant) {dest : Tag} {request request' : LeaseSetRequest}
    {effects : List Effect}
    (hfind : AssocMap.find s.destination.leaseSetRequests dest = some request)
    (hcallback : request'.requestComplete = request.requestComplete)
    (heffects : completionsOf effects = []) :
    (s.after (s.destination.setRequest dest request', effects)).Invariant := by
  refine h.after (h.distinct.assign hashKey_injective dest request') (fun n => ?_)
    (fun _ _ hmem => hmem) (fun d r hmem n hn => ?_) fun _ _ hmem => ?_
  · have h₁ := count_callbacksOf_assign s.destination.leaseSetRequests dest request' n
    have h₂ := count_callbacksOf_find h.distinct hfind n
    rw [heffects]
    simp only [ClientDestination.setRequest, postedCallbacks, requestCallbacks, List.map_nil,
      List.count_nil]
    rw [hcallback] at h₁
    omega
  · obtain heq | ⟨hmem, -⟩ := (AssocMap.mem_assign_iff hashKey_injective).mp hmem
    · obtain ⟨rfl, rfl⟩ := Prod.mk.inj heq
      exact h.requested d request (AssocMap.mem_of_find hfind) n (hcallback ▸ hn)
    · exact h.requested d r hmem n hn
  · rw [heffects] at hmem
    cases hmem

/-- A request ends. -/
theorem Invariant.finish (h : s.Invariant) {d : ClientDestination} {dest : Tag}
    {request : LeaseSetRequest} {leaseSet : Option LeaseSet} {effects : List Effect}
    (hfind : AssocMap.find s.destination.leaseSetRequests dest = some request)
    (hposted : d.posted = s.destination.posted)
    (hrequests : d.leaseSetRequests = AssocMap.erase s.destination.leaseSetRequests dest)
    (heffects : completionsOf effects = request.requestComplete.toList.map (·, leaseSet))
    (hmatched : ∀ l ∈ leaseSet, request.requestComplete ≠ none → l.getIdentHash = dest) :
    (s.after (d, effects)).Invariant := by
  refine h.after ?_ (fun n => ?_) (fun _ _ hmem => hposted ▸ hmem) (fun d' r hmem n hn => ?_)
    fun n l hmem => ?_
  · rw [hrequests]
    exact h.distinct.filter _
  · have h₁ := count_callbacksOf_find h.distinct hfind n
    rw [heffects, hposted, hrequests, List.map_map, postedCallbacks, requestCallbacks, h₁]
    have hcallbacks : request.requestComplete.toList.map (Prod.fst ∘ (·, leaseSet)) =
        request.requestComplete.toList := List.map_id _
    rw [hcallbacks]
    omega
  · rw [hrequests] at hmem
    exact h.requested d' r (AssocMap.mem_erase_iff.mp hmem).1 n hn
  · rw [heffects] at hmem
    obtain ⟨n', hn', heq⟩ := List.mem_map.mp hmem
    obtain ⟨rfl, rfl⟩ := Prod.mk.inj heq
    have hn' := Option.mem_toList.mp hn'
    rw [hmatched l rfl (Option.isSome_iff_ne_none.mp (Option.isSome_of_mem hn'))]
    exact h.requested dest request (AssocMap.mem_of_find hfind) n' hn'

theorem Invariant.handleRequestTimeoutTimer (h : s.Invariant) (outside : RequestOutside)
    (aborted : Bool) (dest : Tag) :
    (s.step crypto (.handleRequestTimeoutTimer outside aborted dest)).Invariant := by
  rw [step, ClientDestination.handleRequestTimeoutTimer]
  split
  next => exact h.after_self
  next =>
    split
    next request hfind =>
      dsimp only
      split
      next request' effects hsent =>
        -- another floodfill is asked
        split at hsent
        next =>
          obtain ⟨floodfill, -, hsend⟩ := Option.bind_eq_some_iff.mp hsent
          obtain ⟨heffects, hcallback⟩ := completionsOf_send hsend
          exact h.setRequest hfind hcallback heffects
        next => cases hsent
      next =>
        exact h.finish hfind rfl rfl (completionsOf_complete _ _) fun l hl => absurd hl (Option.not_mem_none l)
    next => exact h.after_self

theorem Invariant.handleDatabaseSearchReplyMessage (h : s.Invariant) (outside : RequestOutside)
    (m : Mem) (buf : ℕ) :
    (s.step crypto (.handleDatabaseSearchReplyMessage outside m buf)).Invariant := by
  rw [step, ClientDestination.handleDatabaseSearchReplyMessage]
  dsimp only
  split
  next request hfind =>
    have hasked : ∀ asked : LeaseSetRequest × Bool × List Effect,
        asked = (if request.excluded.length < maxNumFloodfillsPerRequest then
          (ClientDestination.replyPeers m buf).foldl
            (ClientDestination.askPeer outside (IdentHash.ofMem m buf)) (request, false, [])
          else (request, false, [])) →
        completionsOf asked.2.2 = [] ∧ asked.1.requestComplete = request.requestComplete := by
      rintro _ rfl
      split
      · exact completionsOf_askPeer outside _ _ _
      · exact ⟨rfl, rfl⟩
    generalize hresult : (if request.excluded.length < maxNumFloodfillsPerRequest then
      (ClientDestination.replyPeers m buf).foldl
        (ClientDestination.askPeer outside (IdentHash.ofMem m buf)) (request, false, [])
      else (request, false, [])) = asked
    obtain ⟨heffects, hcallback⟩ := hasked asked hresult.symm
    obtain ⟨request', found, effects⟩ := asked
    dsimp only at heffects hcallback ⊢
    split
    next => exact h.setRequest hfind hcallback heffects
    next =>
      refine h.finish hfind rfl rfl ?_ fun l hl => absurd hl (Option.not_mem_none l)
      rw [completionsOf_append, heffects, List.nil_append, ← hcallback]
      exact completionsOf_complete _ _
  next => exact h.after_self

theorem Invariant.handleDatabaseStoreMessage (h : s.Invariant) {ambient : Ambient} {m : Mem}
    {buf len : ℕ} (hallowed : s.Allowed crypto (.handleDatabaseStoreMessage ambient m buf len)) :
    (s.step crypto (.handleDatabaseStoreMessage ambient m buf len)).Invariant := by
  rw [step, ClientDestination.handleDatabaseStoreMessage]
  dsimp only
  split
  next =>
    -- the message is too short
    obtain ⟨hrequests, hposted⟩ :=
      s.destination.clearLeases_frame (IdentHash.ofMem m buf)
    refine h.after ?_ (fun n => ?_) (fun _ _ hmem => hposted ▸ hmem) ?_ fun _ _ hmem => by cases hmem
    · rw [hrequests]
      exact h.distinct
    · rw [hrequests, hposted]
      rfl
    · rw [hrequests]
      exact h.requested
  next hlong =>
    obtain ⟨hrequests, hposted, hcases⟩ := s.destination.storeLeaseSet_cases crypto ambient
      (IdentHash.ofMem m buf) (leaseSetData m buf len)
    have hstored : ∀ stored : ClientDestination × Option LeaseSet,
        stored = (if m (buf + 32) = 1 then
          s.destination.storeLeaseSet crypto ambient (IdentHash.ofMem m buf) (leaseSetData m buf len)
          else (s.destination, none)) →
        stored.1.leaseSetRequests = s.destination.leaseSetRequests ∧
          stored.1.posted = s.destination.posted ∧
          ∀ l ∈ stored.2, m (buf + 32) = 1 ∧
            s.destination.Accepts crypto ambient (IdentHash.ofMem m buf) (leaseSetData m buf len) ∧
            l.getIdentHash =
              s.destination.storedIdent crypto (IdentHash.ofMem m buf) (leaseSetData m buf len) := by
      rintro _ rfl
      split
      next htype =>
        refine ⟨hrequests, hposted, fun l hl => ⟨htype, ?_⟩⟩
        obtain ⟨hnone, -⟩ | ⟨l', hsome, haccepts, hident⟩ := hcases
        · rw [hnone] at hl
          cases hl
        · rw [hsome] at hl
          obtain rfl := Option.some.inj hl
          exact ⟨haccepts, hident⟩
      next => exact ⟨rfl, rfl, fun l hl => absurd hl (Option.not_mem_none l)⟩
    generalize hresult : (if m (buf + 32) = 1 then
      s.destination.storeLeaseSet crypto ambient (IdentHash.ofMem m buf) (leaseSetData m buf len)
      else (s.destination, none)) = stored
    obtain ⟨hrequests', hposted', hleaseSet⟩ := hstored stored hresult.symm
    obtain ⟨d, leaseSet⟩ := stored
    dsimp only at hrequests' hposted' hleaseSet ⊢
    rw [hrequests']
    split
    next request hfind =>
      refine h.finish hfind hposted' (congrArg (AssocMap.erase · _) hrequests')
        (completionsOf_complete _ _) fun l hl hcallback => ?_
      obtain ⟨htype, haccepts, hident⟩ := hleaseSet l hl
      have hle : leaseSetOffset m buf ≤ len := Nat.le_of_not_lt fun hlt => hlong ⟨htype, hlt⟩
      exact hident.trans (hallowed htype hle haccepts request hfind hcallback)
    next =>
      refine h.after ?_ (fun n => ?_) (fun _ _ hmem => hposted' ▸ hmem) ?_ fun _ _ hmem => by cases hmem
      · rw [hrequests']
        exact h.distinct
      · rw [hrequests', hposted']
        rfl
      · rw [hrequests']
        exact h.requested

/-- A request that is made: its callback was posted, or is not there. -/
theorem Invariant.runPosted (h : s.Invariant) {outside : RequestOutside}
    (hallowed : s.Allowed crypto (.runPosted outside)) :
    (s.step crypto (.runPosted outside)).Invariant := by
  rw [step, ClientDestination.runPosted]
  split
  next dest callback posted hposted =>
    have hcount : ∀ n, s.postedCallbacks.count n =
        callback.toList.count n + (posted.filterMap Prod.snd).count n := fun n => by
      rw [postedCallbacks, hposted, List.filterMap_cons]
      cases callback with
      | none => exact (Nat.zero_add _).symm
      | some n' =>
        rw [← List.count_append]
        rfl
    have hrest : ∀ dest n, (dest, some n) ∈ posted →
        (dest, some n) ∈ s.destination.posted := fun _ _ hmem => by
      rw [hposted]
      exact List.mem_cons_of_mem _ hmem
    -- the callback is called at once
    have hrefused : (s.after ({ s.destination with posted }, complete callback none)).Invariant := by
      refine h.after h.distinct (fun n => ?_) hrest h.requested fun n l hmem => ?_
      · rw [completionsOf_complete, hcount, List.map_map]
        have hcallbacks : callback.toList.map (Prod.fst ∘ (·, (none : Option LeaseSet))) =
            callback.toList := List.map_id _
        rw [hcallbacks]
        simp only [requestCallbacks]
        omega
      · rw [completionsOf_complete] at hmem
        obtain ⟨n', -, heq⟩ := List.mem_map.mp hmem
        cases (Prod.mk.inj heq).2
    rw [ClientDestination.requestLeaseSet]
    split
    next floodfill _ =>
      split
      next => exact hrefused
      next hfind =>
        split
        next request effects hsend =>
          obtain ⟨heffects, hcallback⟩ := completionsOf_send hsend
          refine h.after (h.distinct.assign hashKey_injective dest request) (fun n => ?_) hrest
            (fun d r hmem n hn => ?_) fun _ _ hmem => ?_
          · have h₁ := count_callbacksOf_assign s.destination.leaseSetRequests dest request n
            rw [erase_of_find_eq_none hfind, hcallback] at h₁
            dsimp only at h₁
            rw [heffects, hcount]
            simp only [ClientDestination.setRequest, requestCallbacks, List.map_nil, List.count_nil]
            omega
          · obtain heq | ⟨hmem, -⟩ := (AssocMap.mem_assign_iff hashKey_injective).mp hmem
            · obtain ⟨rfl, rfl⟩ := Prod.mk.inj heq
              rw [hcallback] at hn
              refine h.posted d n ?_
              rw [hposted, ← Option.mem_def.mp hn]
              exact List.mem_cons_self
            · exact h.requested d r hmem n hn
          · rw [heffects] at hmem
            cases hmem
        next => exact hrefused
    next hnone =>
      -- no callback is left without a call
      have hcallback : callback = none := by
        cases callback with
        | none => rfl
        | some n =>
          refine absurd hnone (hallowed dest n ?_)
          rw [hposted]
          rfl
      subst hcallback
      exact h.after h.distinct (fun n => by rw [hcount]; simp [requestCallbacks, completionsOf]) hrest
        h.requested fun _ _ hmem => by cases hmem
  next => exact h.after_self

/-- A callback that is passed is posted, or called at once. -/
theorem Invariant.requestDestination (h : s.Invariant) (outside : RequestOutside) (dest : Tag)
    (hasCallback : Bool) :
    (s.step crypto (.requestDestination outside dest hasCallback)).Invariant := by
  rw [step, ClientDestination.requestDestination, ClientDestination.requestDestination]
  have hposted : ∀ callback : Option ℕ,
      (s.destination.posted ++ [(dest, callback)]).filterMap Prod.snd =
        s.postedCallbacks ++ callback.toList := fun callback => by
    rw [List.filterMap_append]
    cases callback <;> rfl
  by_cases hcallback : hasCallback = true
  · -- the callback has the next number
    rw [if_pos hcallback]
    have hgrow : ∀ n d, s.passed[n]? = some d → (s.passed ++ [dest])[n]? = some d := fun n d hd => by
      rw [List.getElem?_append_left (List.getElem?_eq_some_iff.mp hd).1, hd]
    have hnext : (s.passed ++ [dest])[s.passed.length]? = some dest := List.getElem?_concat_length ..
    have hcount : ∀ n, (List.range (s.passed ++ [dest]).length).count n =
        (List.range s.passed.length).count n + [s.passed.length].count n := fun n => by
      rw [List.length_append, List.length_singleton, List.range_succ, List.count_append]
    split
    · refine ⟨h.distinct, fun n => ?_, fun d n hmem => ?_,
        fun d r hmem n hn => hgrow n d (h.requested d r hmem n hn),
        fun n l hmem => hgrow n _ (h.matched n l ?_)⟩
      · have := h.somewhere n
        simp only [Requester.after, postedCallbacks, hposted, completedCallbacks, completionsOf,
          List.filterMap_nil, List.append_nil, hcount, List.count_append, requestCallbacks] at this ⊢
        simp only [Option.toList_some]
        omega
      · obtain hmem | hmem := List.mem_append.mp hmem
        · exact hgrow n d (h.posted d n hmem)
        · obtain ⟨rfl, heq⟩ := Prod.mk.inj (List.mem_singleton.mp hmem)
          rw [Option.some.inj heq]
          exact hnext
      · simpa [Requester.after, completionsOf] using hmem
    · refine ⟨h.distinct, fun n => ?_, fun d n hmem => hgrow n d (h.posted d n hmem),
        fun d r hmem n hn => hgrow n d (h.requested d r hmem n hn), fun n l hmem => ?_⟩
      · have := h.somewhere n
        simp only [Requester.after, postedCallbacks, completedCallbacks, completionsOf_complete,
          Option.toList_some, List.map_append, List.map_cons, List.map_nil, hcount,
          List.count_append, requestCallbacks] at this ⊢
        omega
      · refine hgrow n _ (h.matched n l ?_)
        simpa [Requester.after] using hmem
  · rw [if_neg hcallback]
    split
    · refine h.after h.distinct (fun n => ?_) (fun d n hmem => ?_) h.requested
        fun _ _ hmem => by cases hmem
      · rw [hposted]
        simp [completionsOf, requestCallbacks]
      · obtain hmem | hmem := List.mem_append.mp hmem
        · exact hmem
        · cases (Prod.mk.inj (List.mem_singleton.mp hmem)).2
    · exact h.after_self

theorem Invariant.step (h : s.Invariant) {event : RequestEvent}
    (hallowed : s.Allowed crypto event) : (s.step crypto event).Invariant := by
  cases event with
  | requestDestination outside dest hasCallback => exact h.requestDestination outside dest hasCallback
  | runPosted outside => exact h.runPosted hallowed
  | handleDatabaseStoreMessage ambient m buf len => exact h.handleDatabaseStoreMessage hallowed
  | handleDatabaseSearchReplyMessage outside m buf =>
    exact h.handleDatabaseSearchReplyMessage outside m buf
  | handleRequestTimeoutTimer outside aborted dest =>
    exact h.handleRequestTimeoutTimer outside aborted dest
  | leaseSets leaseSet remoteLeaseSets =>
    exact ⟨h.distinct, h.somewhere, h.posted, h.requested, h.matched⟩

theorem Invariant.completedOnce (h : s.Invariant) : s.CompletedOnce where
  once := List.nodup_iff_count_le_one.mpr fun n =>
    (Nat.le_add_left _ _).trans <| (h.somewhere n).trans_le <|
      List.nodup_iff_count_le_one.mp List.nodup_range n
  done n hn := by
    have hpos : 0 < (List.range s.passed.length).count n :=
      List.count_pos_iff.mpr (List.mem_range.mpr hn)
    rw [← h.somewhere n] at hpos
    rw [← List.count_pos_iff, ← List.count_pos_iff, ← List.count_pos_iff]
    omega
  matched := h.matched

/-- Without a floodfill the callback is lost. -/
theorem Invariant.lost (h : s.Invariant) {outside : RequestOutside}
    (hnot : ¬ s.Allowed crypto (.runPosted outside)) :
    ¬ (s.step crypto (.runPosted outside)).CompletedOnce := by
  simp only [Allowed, not_forall, not_not] at hnot
  obtain ⟨dest, n, hhead, hfloodfill⟩ := hnot
  obtain ⟨posted, hposted⟩ := List.head?_eq_some_iff.mp hhead
  have hrun : s.destination.runPosted outside = ({ s.destination with posted }, []) := by
    simp only [ClientDestination.runPosted, hposted, ClientDestination.requestLeaseSet, hfloodfill]
  intro hcompleted
  have hpassed : s.passed[n]? = some dest := h.posted dest n (by
    rw [hposted]
    exact List.mem_cons_self)
  have hlt : n < s.passed.length := (List.getElem?_eq_some_iff.mp hpassed).1
  -- the callback was posted, and is nowhere else
  have hsomewhere := h.somewhere n
  rw [List.count_eq_one_of_mem List.nodup_range (List.mem_range.mpr hlt), postedCallbacks, hposted,
    List.filterMap_cons] at hsomewhere
  simp only [List.count_cons_self] at hsomewhere
  have hdone := hcompleted.done n hlt
  rw [Requester.step, hrun] at hdone
  simp only [postedCallbacks, requestCallbacks, completedCallbacks, Requester.after, completionsOf,
    List.filterMap_nil, List.append_nil, ← List.count_pos_iff] at hdone hsomewhere
  omega

/-- A lease set that is stored under the hash of another one is passed on. -/
theorem Invariant.mismatched (h : s.Invariant) {ambient : Ambient} {m : Mem} {buf len : ℕ}
    (hnot : ¬ s.Allowed crypto (.handleDatabaseStoreMessage ambient m buf len)) :
    ¬ (s.step crypto (.handleDatabaseStoreMessage ambient m buf len)).CompletedOnce := by
  simp only [Allowed, Classical.not_imp, not_forall] at hnot
  obtain ⟨htype, hle, haccepts, request, hfind, hcallback, hne⟩ := hnot
  obtain ⟨n, hn⟩ := Option.ne_none_iff_exists'.mp hcallback
  obtain ⟨hrequests, -, ⟨-, hrejects⟩ | ⟨leaseSet, hleaseSet, -, hident⟩⟩ :=
    s.destination.storeLeaseSet_cases crypto ambient (IdentHash.ofMem m buf) (leaseSetData m buf len)
  · exact absurd haccepts hrejects
  intro hcompleted
  have hpassed : s.passed[n]? = some (IdentHash.ofMem m buf) :=
    h.requested _ request (AssocMap.mem_of_find hfind) n hn
  have hcalled : (n, some leaseSet) ∈
      completionsOf (s.destination.handleDatabaseStoreMessage crypto ambient m buf len).2 := by
    rw [ClientDestination.handleDatabaseStoreMessage]
    simp only [htype, true_and, if_true, Nat.not_lt.mpr hle, if_false, hrequests, hfind, hleaseSet]
    simp [ClientDestination.finish, hn]
  have hmatched := hcompleted.matched n leaseSet (List.mem_append_right _ hcalled)
  rw [hident] at hmatched
  exact hne (Option.some.inj (hmatched.symm.trans hpassed))

theorem Invariant.not_completedOnce (h : s.Invariant) {event : RequestEvent}
    (hnot : ¬ s.Allowed crypto event) : ¬ (s.step crypto event).CompletedOnce := by
  cases event with
  | runPosted outside => exact h.lost hnot
  | handleDatabaseStoreMessage ambient m buf len => exact h.mismatched hnot
  | requestDestination outside dest hasCallback => exact absurd trivial hnot
  | handleDatabaseSearchReplyMessage outside m buf => exact absurd trivial hnot
  | handleRequestTimeoutTimer outside aborted dest => exact absurd trivial hnot
  | leaseSets leaseSet remoteLeaseSets => exact absurd trivial hnot

end Requester

/-- Callbacks are completed once and with the right lease set throughout a run, exactly if a floodfill is
found for every request with a callback, and no valid lease set is stored for such a request under the
hash of another identity. -/
theorem completedOnce_iff (crypto : Identity.Crypto) (isPublic : Bool) (events : List RequestEvent) :
    Runs.Always (Requester.step crypto) Requester.CompletedOnce { destination := { isPublic } } events ↔
      Runs.Meets (Requester.step crypto) (Requester.Allowed crypto) { destination := { isPublic } }
        events := by
  have hstart : Requester.Invariant { destination := { isPublic } } :=
    ⟨List.nodup_nil, fun _ => rfl, nofun, nofun, nofun⟩
  exact Runs.always_iff_meets (fun _ _ h hallowed => h.step hallowed) (fun _ h => h.completedOnce)
    (fun _ _ h hnot => h.not_completedOnce hnot) hstart events

/-- A request while no floodfill is known. -/
def exampleOutside : RequestOutside where
  seconds := 0
  hasNonExpiredLeases := true
  hasOutboundTunnels := true
  hasInboundTunnel _ := true
  hasOutboundTunnel _ := true
  closestFloodfill _ _ := none
  findRouter _ := none

theorem not_completedOnce_exampleOutside :
    ¬ ∀ (crypto : Identity.Crypto) (isPublic : Bool) (events : List RequestEvent),
      Runs.Always (Requester.step crypto) Requester.CompletedOnce { destination := { isPublic } }
        events := by
  intro h
  have hdone := (h { sha256 := fun _ => IdentHash.zero, verify := fun _ _ _ _ => false } true
    [.leaseSets (some []) [], .requestDestination exampleOutside IdentHash.zero true,
      .runPosted exampleOutside] _ (List.prefix_refl _)).done 0 (by decide)
  revert hdone
  decide

end Client
