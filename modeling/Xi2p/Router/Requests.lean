import Xi2p.Router.HandlerBounds
import Xi2p.Lib.Runs

/-!
# Requests for destinations

`core/router/net_db/requests.cc`, and the functions of `core/router/net_db/impl.cc` that make and end
requests. A request holds the callback of the call that made it. The callback is invoked when the
request succeeds or fails, and otherwise by the destructor, so that it does not matter at which of the
places a request is removed.

* `callbacks_invoked`: over every run, a callback is invoked at most once, and it has been invoked
  unless its request is still there.
-/

namespace Router

open Bytes I2NP

/-- `RequestedDestination`. -/
structure RequestedDestination where
  /-- `m_Destination`. -/
  destination : IdentHash
  /-- `m_IsExploratory`. -/
  isExploratory : Bool
  /-- `m_ExcludedPeers`. -/
  excludedPeers : List IdentHash := []
  /-- `m_CreationTime`, in seconds. -/
  creationTime : UInt64 := 0
  /-- `m_RequestComplete`: the call whose callback it is. -/
  requestComplete : Option ℕ

/-- `CreateRequestMessage`: the peer that is asked is excluded from then on. -/
def RequestedDestination.createRequestMessage (dest : RequestedDestination) (ts : UInt64)
    (peer : IdentHash) : RequestedDestination :=
  { dest with excludedPeers := dest.excludedPeers.insert peer, creationTime := ts }

/-- What the functions on requests find outside. -/
structure RequestEnv where
  /-- The time, in seconds. -/
  ts : UInt64
  /-- `GetClosestFloodfill`, for a destination and excluded peers. -/
  closestFloodfill : IdentHash → List IdentHash → Option IdentHash
  /-- The exploratory pool has an outbound tunnel. -/
  hasOutbound : Bool
  /-- The exploratory pool has an inbound tunnel. -/
  hasInbound : Bool
  /-- A router is not in the database, or too old. -/
  isWanted : IdentHash → Bool

/-- `NetDbRequests`, with the calls of `RequestDestination` so far. -/
structure NetDbRequests where
  /-- `m_RequestedDestinations`. -/
  requestedDestinations : List (IdentHash × RequestedDestination) := []
  /-- The destinations of the calls that passed a callback. -/
  calls : List IdentHash := []
  /-- The calls that were refused since there was a request. -/
  refused : List ℕ := []
  /-- The callbacks that have been invoked, with the router info. -/
  invoked : List (ℕ × Option ℕ) := []

namespace NetDbRequests

/-! ## Requests -/

/-- `m_RequestComplete(r)`, if there is a callback. -/
def invoke (s : NetDbRequests) (dest : RequestedDestination) (r : Option ℕ) : NetDbRequests :=
  match dest.requestComplete with
  | some call => { s with invoked := s.invoked ++ [(call, r)] }
  | none => s

/-- `FindRequest`. -/
def findRequest (s : NetDbRequests) (ident : IdentHash) : Option RequestedDestination :=
  AssocMap.find s.requestedDestinations ident

/-- The removal of a request, whose destructor invokes a callback that is left. -/
def erase (s : NetDbRequests) (ident : IdentHash) (dest : RequestedDestination) : NetDbRequests :=
  { s.invoke dest none with
    requestedDestinations := AssocMap.erase s.requestedDestinations ident }

/-- A change of a request. -/
def setRequest (s : NetDbRequests) (ident : IdentHash) (dest : RequestedDestination) :
    NetDbRequests :=
  { s with requestedDestinations := AssocMap.assign hashKey s.requestedDestinations ident dest }

/-- `CreateRequest`: the request, if it was made. Otherwise its destructor invokes the callback. -/
def createRequest (s : NetDbRequests) (destination : IdentHash) (isExploratory : Bool)
    (requestComplete : Option ℕ) : NetDbRequests × Option RequestedDestination :=
  let dest : RequestedDestination := { destination, isExploratory, requestComplete }
  match s.findRequest destination with
  | some _ =>
    let s := { s with refused := s.refused ++ requestComplete.toList }
    (s.invoke dest none, none)
  | none => (s.setRequest destination dest, some dest)

/-- `RequestComplete`: `Success` or `Fail`, and the removal. -/
def requestComplete (s : NetDbRequests) (ident : IdentHash) (r : Option ℕ) : NetDbRequests :=
  match s.findRequest ident with
  | some dest => (s.invoke dest r).erase ident { dest with requestComplete := none }
  | none => s

/-- `RequestDestination`, of the database; `requestComplete` is the callback. -/
def requestDestination (env : RequestEnv) (s : NetDbRequests) (destination : IdentHash)
    (requestComplete : Option ℕ) : NetDbRequests :=
  match s.createRequest destination false requestComplete with
  | (s, none) => s
  | (s, some dest) =>
    match env.closestFloodfill destination dest.excludedPeers with
    | some floodfill => s.setRequest destination (dest.createRequestMessage env.ts floodfill)
    | none => s.requestComplete destination none

/-- The answer to a search reply for a request: another floodfill is asked, or the request fails. -/
def nextFloodfill (env : RequestEnv) (s : NetDbRequests) (ident : IdentHash) (num : ℕ)
    (dest : RequestedDestination) : NetDbRequests :=
  let next :=
    if num ≠ 0 ∧ !dest.isExploratory ∧ env.hasOutbound ∧ env.hasInbound ∧
        dest.excludedPeers.length < 7 then
      env.closestFloodfill dest.destination dest.excludedPeers
    else none
  match next with
  | some floodfill => s.setRequest ident (dest.createRequestMessage env.ts floodfill)
  -- no more requests for the destination
  | none => s.requestComplete ident none

/-- `HandleDatabaseSearchReplyMsg`. -/
def handleDatabaseSearchReplyMsg (env : RequestEnv) (s : NetDbRequests) (payload : Mem) :
    NetDbRequests :=
  let (ident, routers) := (readSearchReply payload).val
  let s :=
    match s.findRequest ident with
    | some dest => s.nextFloodfill env ident routers.length dest
    | none => s
  -- try responses
  routers.foldl (fun s router => if env.isWanted router then s.requestDestination env router none
    else s) s

/-- The loop of `ManageRequests`, for a destination. -/
def manageRequest (env : RequestEnv) (s : NetDbRequests) (ident : IdentHash) : NetDbRequests :=
  match s.findRequest ident with
  | none => s
  | some dest =>
    -- request is worthless after 1 minute
    if env.ts < dest.creationTime + 60 then
      -- no response for 5 seconds
      if env.ts > dest.creationTime + 5 then
        if !dest.isExploratory ∧ dest.excludedPeers.length < 7 then
          match env.closestFloodfill dest.destination dest.excludedPeers with
          | some floodfill =>
            if env.hasOutbound ∧ env.hasInbound then
              s.setRequest ident (dest.createRequestMessage env.ts floodfill)
            else s.erase ident dest
          | none => s.erase ident dest
        else s.erase ident dest
      else s
    else s.erase ident dest

/-- `ManageRequests`. -/
def manageRequests (env : RequestEnv) (s : NetDbRequests) : NetDbRequests :=
  (s.requestedDestinations.map Prod.fst).foldl (manageRequest env) s

/-- The loop of `Explore`, over random destinations; `floodfills` have been asked. -/
def explore (env : RequestEnv) : NetDbRequests → List IdentHash → List IdentHash → NetDbRequests
  | s, _, [] => s
  | s, floodfills, destination :: rest =>
    match s.createRequest destination true none with
    | (s, none) => s
    | (s, some dest) =>
      match env.closestFloodfill destination dest.excludedPeers with
      | some floodfill =>
        -- request floodfill only once
        if floodfill ∈ floodfills then
          explore env (s.requestComplete destination none) floodfills rest
        else
          explore env (s.setRequest destination (dest.createRequestMessage env.ts floodfill))
            (floodfill :: floodfills) rest
      | none => explore env (s.requestComplete destination none) floodfills rest

/-- `Stop`: the requests are removed one by one. -/
def stop (s : NetDbRequests) : NetDbRequests :=
  (s.requestedDestinations.map Prod.fst).foldl (fun s ident =>
    match s.findRequest ident with
    | some dest => s.erase ident dest
    | none => s) s

/-- A call of `RequestDestination`; the callback of a call is its number. -/
def request (env : RequestEnv) (s : NetDbRequests) (destination : IdentHash) (hasCallback : Bool) :
    NetDbRequests :=
  if hasCallback then
    let call := s.calls.length
    { s with calls := s.calls ++ [destination] }.requestDestination env destination (some call)
  else s.requestDestination env destination none

/-! ## Callbacks -/

/-- The callbacks that have been invoked. -/
def invokedCalls (s : NetDbRequests) : List ℕ := s.invoked.map Prod.fst

/-- A call waits for the request that it made. -/
def Waits (s : NetDbRequests) (call : ℕ) (destination : IdentHash) : Prop :=
  ∃ dest, s.findRequest destination = some dest ∧ dest.requestComplete = some call

/-- A request for a destination that holds a callback holds that of a call for the destination which
has neither been invoked nor refused. -/
structure Owned (s : NetDbRequests) (call : ℕ) (destination : IdentHash) : Prop where
  call_eq : s.calls[call]? = some destination
  not_invoked : call ∉ s.invokedCalls
  not_refused : call ∉ s.refused

theorem Owned.lt {s : NetDbRequests} {call : ℕ} {destination : IdentHash}
    (h : s.Owned call destination) : call < s.calls.length :=
  (List.getElem?_eq_some_iff.mp h.call_eq).1

/-- The state of the callbacks between two calls. -/
structure Invariant (s : NetDbRequests) : Prop where
  distinct : AssocMap.Distinct s.requestedDestinations
  nodup : s.invokedCalls.Nodup
  invoked_lt : ∀ call ∈ s.invokedCalls, call < s.calls.length
  refused_lt : ∀ call ∈ s.refused, call < s.calls.length
  owned : ∀ destination dest, s.findRequest destination = some dest →
    ∀ call, dest.requestComplete = some call → s.Owned call destination
  covered : ∀ call destination, s.calls[call]? = some destination →
    call ∈ s.invokedCalls ∨ s.Waits call destination

theorem invariant_init : Invariant {} where
  distinct := List.nodup_nil
  nodup := List.nodup_nil
  invoked_lt _ h := by cases h
  refused_lt _ h := by cases h
  owned _ _ h := by cases h
  covered _ _ h := by cases h

theorem getElem?_concat_eq_some_iff {α : Type} {l : List α} {a b : α} {i : ℕ} :
    (l ++ [a])[i]? = some b ↔ l[i]? = some b ∨ i = l.length ∧ b = a := by
  rcases lt_trichotomy i l.length with hlt | rfl | hgt
  · rw [List.getElem?_append_left hlt]
    simp [hlt.ne]
  · simp [eq_comm]
  · rw [List.getElem?_eq_none (by simpa using hgt), List.getElem?_eq_none hgt.le]
    simp [hgt.ne']

@[simp]
theorem invokedCalls_invoke (s : NetDbRequests) (dest : RequestedDestination) (r : Option ℕ) :
    (s.invoke dest r).invokedCalls = s.invokedCalls ++ dest.requestComplete.toList := by
  unfold invoke
  split
  next call hcall => simp [invokedCalls, hcall]
  next hcall => simp [hcall]

@[simp]
theorem calls_invoke (s : NetDbRequests) (dest : RequestedDestination) (r : Option ℕ) :
    (s.invoke dest r).calls = s.calls := by
  unfold invoke
  split <;> rfl

@[simp]
theorem refused_invoke (s : NetDbRequests) (dest : RequestedDestination) (r : Option ℕ) :
    (s.invoke dest r).refused = s.refused := by
  unfold invoke
  split <;> rfl

@[simp]
theorem requestedDestinations_invoke (s : NetDbRequests) (dest : RequestedDestination)
    (r : Option ℕ) : (s.invoke dest r).requestedDestinations = s.requestedDestinations := by
  unfold invoke
  split <;> rfl

theorem findRequest_setRequest {s : NetDbRequests}
    (hdistinct : AssocMap.Distinct s.requestedDestinations) (ident : IdentHash)
    (dest : RequestedDestination) (d : IdentHash) :
    (s.setRequest ident dest).findRequest d = if d = ident then some dest else s.findRequest d :=
  AssocMap.find_assign hashKey_injective hdistinct ident dest d

/-- A request that was made is in the map. -/
theorem findRequest_of_createRequest {s s' : NetDbRequests} {destination : IdentHash}
    {isExploratory : Bool} {callback : Option ℕ} {dest : RequestedDestination}
    (h : s.createRequest destination isExploratory callback = (s', some dest))
    (hdistinct : AssocMap.Distinct s'.requestedDestinations) :
    s'.findRequest destination = some dest := by
  unfold createRequest at h
  split at h
  · cases h
  · obtain ⟨rfl, hdest⟩ := Prod.mk.inj h
    obtain rfl := Option.some.inj hdest
    exact hdistinct.find_eq_some ((AssocMap.mem_assign_iff hashKey_injective).mpr (.inl rfl))

namespace Invariant

variable {s : NetDbRequests} (h : s.Invariant)

include h

/-- A change of a request that keeps its callback. -/
theorem setRequest {ident : IdentHash} {dest : RequestedDestination}
    (hcallback : ∀ call, dest.requestComplete = some call ↔ s.Waits call ident) :
    (s.setRequest ident dest).Invariant := by
  have hfind := findRequest_setRequest h.distinct ident dest
  refine ⟨h.distinct.assign hashKey_injective ident dest, h.nodup, h.invoked_lt, h.refused_lt, ?_, ?_⟩
  · intro d dest' hd call hcall
    rw [hfind] at hd
    split at hd
    next heq =>
      obtain rfl := Option.some.inj hd
      obtain ⟨old, hold, hcall⟩ := (hcallback call).mp hcall
      obtain ⟨hcalls, hinvoked, hrefused⟩ := h.owned ident old hold call hcall
      exact ⟨heq ▸ hcalls, hinvoked, hrefused⟩
    · obtain ⟨hcalls, hinvoked, hrefused⟩ := h.owned d dest' hd call hcall
      exact ⟨hcalls, hinvoked, hrefused⟩
  · intro call d hcall
    refine (h.covered call d hcall).imp_right ?_
    rintro ⟨old, hold, hwaits⟩
    by_cases heq : d = ident
    · subst heq
      exact ⟨dest, by rw [hfind, if_pos rfl], (hcallback call).mpr ⟨old, hold, hwaits⟩⟩
    · exact ⟨old, by rw [hfind, if_neg heq, hold], hwaits⟩

theorem createRequestMessage {ident : IdentHash} {dest : RequestedDestination}
    (hfind : s.findRequest ident = some dest) (ts : UInt64) (peer : IdentHash) :
    (s.setRequest ident (dest.createRequestMessage ts peer)).Invariant := by
  refine h.setRequest fun call => ⟨fun hcall => ⟨dest, hfind, hcall⟩, ?_⟩
  rintro ⟨old, hold, hcall⟩
  obtain rfl := Option.some.inj (hfind.symm.trans hold)
  exact hcall

/-- The removal of a request, whose callback is invoked. -/
theorem remove {ident : IdentHash} {dest : RequestedDestination}
    (hfind : s.findRequest ident = some dest) (r : Option ℕ) :
    Invariant { s.invoke dest r with
      requestedDestinations := AssocMap.erase s.requestedDestinations ident } := by
  have hfind' : ∀ d, AssocMap.find (AssocMap.erase s.requestedDestinations ident) d =
      if d = ident then none else s.findRequest d := AssocMap.find_erase _ ident
  have hinvoked : (s.invoke dest r).invokedCalls = s.invokedCalls ++ dest.requestComplete.toList :=
    invokedCalls_invoke s dest r
  refine ⟨h.distinct.filter _, ?_, ?_, ?_, ?_, ?_⟩
  · show (s.invoke dest r).invokedCalls.Nodup
    rw [hinvoked, List.nodup_append]
    refine ⟨h.nodup, by cases dest.requestComplete <;> simp, ?_⟩
    rintro call hcall _ hmem rfl
    exact (h.owned ident dest hfind call (Option.mem_toList.mp hmem)).not_invoked hcall
  · show ∀ call ∈ (s.invoke dest r).invokedCalls, call < (s.invoke dest r).calls.length
    rw [hinvoked, calls_invoke]
    intro call hcall
    rcases List.mem_append.mp hcall with hcall | hcall
    · exact h.invoked_lt call hcall
    · exact (h.owned ident dest hfind call (Option.mem_toList.mp hcall)).lt
  · show ∀ call ∈ (s.invoke dest r).refused, call < (s.invoke dest r).calls.length
    rw [refused_invoke, calls_invoke]
    exact h.refused_lt
  · intro d dest' hd call hcall
    replace hd := (hfind' d).symm.trans hd
    split at hd
    · cases hd
    next hne =>
      obtain ⟨hcalls, hnotInvoked, hrefused⟩ := h.owned d dest' hd call hcall
      refine ⟨(calls_invoke s dest r).symm ▸ hcalls, ?_, (refused_invoke s dest r).symm ▸ hrefused⟩
      show call ∉ (s.invoke dest r).invokedCalls
      rw [hinvoked, List.mem_append]
      rintro (hmem | hmem)
      · exact hnotInvoked hmem
      · -- the callback that is invoked belongs to another destination
        have howned := h.owned ident dest hfind call (Option.mem_toList.mp hmem)
        exact hne (Option.some.inj (hcalls.symm.trans howned.call_eq))
  · intro call d hcall
    replace hcall : s.calls[call]? = some d := (calls_invoke s dest r) ▸ hcall
    show call ∈ (s.invoke dest r).invokedCalls ∨ _
    rw [hinvoked, List.mem_append]
    rcases h.covered call d hcall with hmem | ⟨old, hold, hwaits⟩
    · exact .inl (.inl hmem)
    · by_cases heq : d = ident
      · subst heq
        obtain rfl := Option.some.inj (hfind.symm.trans hold)
        exact .inl (.inr (Option.mem_toList.mpr hwaits))
      · exact .inr ⟨old, (hfind' d).trans ((if_neg heq).trans hold), hwaits⟩

theorem erase {ident : IdentHash} {dest : RequestedDestination}
    (hfind : s.findRequest ident = some dest) : (s.erase ident dest).Invariant :=
  h.remove hfind none

theorem requestComplete (ident : IdentHash) (r : Option ℕ) :
    (s.requestComplete ident r).Invariant := by
  unfold NetDbRequests.requestComplete
  split
  next dest hfind =>
    -- the destructor finds no callback any more
    have hremove := h.remove hfind r
    rwa [← requestedDestinations_invoke s dest r] at hremove
  · exact h

/-- A request without a callback. -/
theorem createRequest (destination : IdentHash) (isExploratory : Bool) :
    (s.createRequest destination isExploratory none).1.Invariant := by
  unfold NetDbRequests.createRequest
  split
  · show Invariant { s with refused := s.refused ++ [] }
    rwa [List.append_nil]
  next hnone =>
    refine h.setRequest fun call => iff_of_false (fun hcall => by cases hcall) ?_
    rintro ⟨dest, hfind, -⟩
    cases hnone.symm.trans hfind

/-- A new call that is refused: its callback is invoked at once. -/
theorem refuse (destination : IdentHash) :
    Invariant { s with
      calls := s.calls ++ [destination]
      refused := s.refused ++ [s.calls.length]
      invoked := s.invoked ++ [(s.calls.length, none)] } := by
  have hfresh : s.calls.length ∉ s.invokedCalls := fun hmem => lt_irrefl _ (h.invoked_lt _ hmem)
  have hinvoked : ∀ call, call ∈ (s.invoked ++ [(s.calls.length, (none : Option ℕ))]).map Prod.fst ↔
      call ∈ s.invokedCalls ∨ call = s.calls.length := by
    simp [invokedCalls]
  have hrefused : ∀ call, call ∈ s.refused ++ [s.calls.length] ↔
      call ∈ s.refused ∨ call = s.calls.length := by
    simp
  have hlt : ∀ call, call < s.calls.length ∨ call = s.calls.length →
      call < (s.calls ++ [destination]).length := by
    intro call hcall
    rw [List.length_append, List.length_singleton]
    omega
  refine ⟨h.distinct, ?_, fun call hcall => ?_, fun call hcall => ?_, ?_, ?_⟩
  · show ((s.invoked ++ [(s.calls.length, none)]).map Prod.fst).Nodup
    rw [List.map_append, List.map_singleton, ← List.concat_eq_append]
    exact h.nodup.concat hfresh
  · exact hlt call (((hinvoked call).mp hcall).imp_left (h.invoked_lt call))
  · exact hlt call (((hrefused call).mp hcall).imp_left (h.refused_lt call))
  · intro d dest hd call hcall
    have howned := h.owned d dest hd call hcall
    have hne : call ≠ s.calls.length := howned.lt.ne
    refine ⟨getElem?_concat_eq_some_iff.mpr (.inl howned.call_eq), fun hmem => ?_, fun hmem => ?_⟩
    · exact ((hinvoked call).mp hmem).elim howned.not_invoked hne
    · exact ((hrefused call).mp hmem).elim howned.not_refused hne
  · intro call d hcall
    rcases getElem?_concat_eq_some_iff.mp hcall with hcall | ⟨rfl, -⟩
    · exact (h.covered call d hcall).imp_left fun hmem => (hinvoked call).mpr (.inl hmem)
    · exact .inl ((hinvoked _).mpr (.inr rfl))

/-- A new call that makes a request: the request holds its callback. -/
theorem make {destination : IdentHash} (hnone : s.findRequest destination = none)
    {dest : RequestedDestination} (hcallback : dest.requestComplete = some s.calls.length) :
    (NetDbRequests.setRequest { s with calls := s.calls ++ [destination] } destination
      dest).Invariant := by
  have hfind := AssocMap.find_assign hashKey_injective h.distinct destination dest
  have hlt : ∀ call, call < s.calls.length → call < (s.calls ++ [destination]).length := by
    intro call hcall
    rw [List.length_append]
    omega
  refine ⟨h.distinct.assign hashKey_injective _ _, h.nodup, fun call hcall =>
    hlt call (h.invoked_lt call hcall), fun call hcall => hlt call (h.refused_lt call hcall), ?_, ?_⟩
  · intro d dest' hd call hcall
    replace hd := (hfind d).symm.trans hd
    split at hd
    next heq =>
      subst heq
      obtain rfl := Option.some.inj hd
      obtain rfl := Option.some.inj (hcallback.symm.trans hcall)
      exact ⟨getElem?_concat_eq_some_iff.mpr (.inr ⟨rfl, rfl⟩),
        fun hmem => lt_irrefl _ (h.invoked_lt _ hmem), fun hmem => lt_irrefl _ (h.refused_lt _ hmem)⟩
    · obtain ⟨hcall, hinvoked, hrefused⟩ := h.owned d dest' hd call hcall
      exact ⟨getElem?_concat_eq_some_iff.mpr (.inl hcall), hinvoked, hrefused⟩
  · intro call d hcall
    rcases getElem?_concat_eq_some_iff.mp hcall with hcall | ⟨rfl, rfl⟩
    · refine (h.covered call d hcall).imp_right ?_
      rintro ⟨old, hold, hwaits⟩
      have hne : d ≠ destination := by
        rintro rfl
        cases hnone.symm.trans hold
      exact ⟨old, (hfind d).trans ((if_neg hne).trans hold), hwaits⟩
    · exact .inr ⟨dest, (hfind d).trans (if_pos rfl), hcallback⟩

/-- A request with the callback of a new call. -/
theorem createRequest_call (destination : IdentHash) :
    (NetDbRequests.createRequest { s with calls := s.calls ++ [destination] } destination false
      (some s.calls.length)).1.Invariant := by
  unfold NetDbRequests.createRequest
  split
  · exact h.refuse destination
  next hnone => exact h.make hnone rfl

end Invariant

/-- What `RequestDestination` does with a request that was made. -/
theorem invariant_requestDestination (env : RequestEnv) {s : NetDbRequests}
    {destination : IdentHash} {callback : Option ℕ}
    (h : (s.createRequest destination false callback).1.Invariant) :
    (s.requestDestination env destination callback).Invariant := by
  unfold requestDestination
  cases hcreate : s.createRequest destination false callback with
  | mk s' made =>
    rw [hcreate] at h
    cases made with
    | none => exact h
    | some dest =>
      simp only
      split
      · exact h.createRequestMessage (findRequest_of_createRequest hcreate h.distinct) _ _
      · exact h.requestComplete destination none

namespace Invariant

variable {s : NetDbRequests} (h : s.Invariant)

include h

theorem request (env : RequestEnv) (destination : IdentHash) (hasCallback : Bool) :
    (s.request env destination hasCallback).Invariant := by
  unfold NetDbRequests.request
  split
  · exact invariant_requestDestination env (h.createRequest_call destination)
  · exact invariant_requestDestination env (h.createRequest destination false)

theorem nextFloodfill (env : RequestEnv) {ident : IdentHash} {dest : RequestedDestination}
    (hfind : s.findRequest ident = some dest) (num : ℕ) :
    (s.nextFloodfill env ident num dest).Invariant := by
  unfold NetDbRequests.nextFloodfill
  split
  · -- another floodfill may be asked
    simp only
    split
    · exact h.createRequestMessage hfind _ _
    · exact h.requestComplete ident none
  · exact h.requestComplete ident none

/-- A loop whose body keeps the invariant. -/
theorem foldl {α : Type} {f : NetDbRequests → α → NetDbRequests}
    (hf : ∀ s a, Invariant s → Invariant (f s a)) (l : List α) : (l.foldl f s).Invariant :=
  Runs.invariant_exec hf h l

theorem handleDatabaseSearchReplyMsg (env : RequestEnv) (payload : Mem) :
    (s.handleDatabaseSearchReplyMsg env payload).Invariant := by
  unfold NetDbRequests.handleDatabaseSearchReplyMsg
  refine foldl ?_ (fun s router hs => ?_) _
  · split
    next dest hfind => exact h.nextFloodfill env hfind _
    · exact h
  · split
    · exact invariant_requestDestination env (hs.createRequest router false)
    · exact hs

theorem manageRequest (env : RequestEnv) (ident : IdentHash) :
    (s.manageRequest env ident).Invariant := by
  unfold NetDbRequests.manageRequest
  split
  · exact h
  next dest hfind =>
    have herase := h.erase hfind
    have hmessage := h.createRequestMessage hfind env.ts
    split
    · split
      · split
        · split
          next floodfill _ =>
            split
            · exact hmessage floodfill
            · exact herase
          · exact herase
        · exact herase
      · exact h
    · exact herase

theorem explore (env : RequestEnv) (floodfills destinations : List IdentHash) :
    (s.explore env floodfills destinations).Invariant := by
  induction destinations generalizing s floodfills with
  | nil => exact h
  | cons destination rest ih =>
    have hcreate := h.createRequest destination true
    unfold NetDbRequests.explore
    cases hmade : s.createRequest destination true none with
    | mk s' made =>
      rw [hmade] at hcreate
      cases made with
      | none => exact hcreate
      | some dest =>
        simp only
        split
        next floodfill _ =>
          split
          · exact ih (hcreate.requestComplete destination none) floodfills
          · have hfind := findRequest_of_createRequest hmade hcreate.distinct
            exact ih (hcreate.createRequestMessage hfind _ _) (floodfill :: floodfills)
        · exact ih (hcreate.requestComplete destination none) floodfills

theorem stop : s.stop.Invariant := by
  refine h.foldl (fun s ident hs => ?_) _
  split
  next dest hfind => exact hs.erase hfind
  · exact hs

end Invariant

/-! ## The keys of the database -/

/-- The destinations that the database knows as requested are those of the requests. -/
def Agrees (s : NetDbRequests) (db : NetDb) : Prop :=
  ∀ d, d ∈ db.requested ↔ (s.findRequest d).isSome

theorem findRequest_requestComplete (s : NetDbRequests) (ident : IdentHash) (r : Option ℕ)
    (d : IdentHash) : (s.requestComplete ident r).findRequest d =
      if d = ident then none else s.findRequest d := by
  unfold requestComplete
  split
  next dest hfind =>
    show AssocMap.find (AssocMap.erase (s.invoke dest r).requestedDestinations ident) d = _
    rw [requestedDestinations_invoke]
    exact AssocMap.find_erase _ ident d
  next hnone =>
    split
    next heq => exact heq ▸ hnone
    · rfl

/-- The database completes a request as the requests do. -/
theorem Agrees.requestComplete {s : NetDbRequests} {db : NetDb} (h : s.Agrees db)
    (ident : IdentHash) (r : ℕ) :
    ∃ db' completed, db.requestComplete ident r = .returns db' completed ∧
      (s.requestComplete ident (some r)).Agrees db' := by
  unfold NetDb.requestComplete
  split
  next hmem =>
    refine ⟨_, _, rfl, fun d => ?_⟩
    rw [findRequest_requestComplete]
    by_cases heq : d = ident <;> simp [heq, h d]
  next hmem =>
    refine ⟨_, _, rfl, fun d => ?_⟩
    rw [findRequest_requestComplete]
    split
    next heq => simpa [heq] using hmem
    · exact h d

/-- The database requests a destination as the requests do. -/
theorem Agrees.requestDestination {s : NetDbRequests} {db : NetDb} (h : s.Agrees db)
    (hs : s.Invariant) (env : RequestEnv) (destination : IdentHash) :
    (s.requestDestination env destination none).Agrees
      (db.requestDestination (fun d => (env.closestFloodfill d []).isSome) destination) := by
  unfold NetDbRequests.requestDestination createRequest NetDb.requestDestination
  cases hfind : s.findRequest destination with
  | some dest =>
    rw [if_pos (.inl ((h destination).mpr (by simp [hfind])))]
    exact h
  | none =>
    have hmem : destination ∉ db.requested := by simp [h destination, hfind]
    simp only [hmem, false_or]
    cases env.closestFloodfill destination [] with
    | none =>
      -- the request is made and fails
      rw [if_pos (by rfl)]
      intro d
      rw [findRequest_requestComplete, findRequest_setRequest hs.distinct]
      by_cases heq : d = destination
      · simp [heq, hmem]
      · simp [heq, h d]
    | some floodfill =>
      rw [if_neg (by simp)]
      intro d
      rw [findRequest_setRequest (hs.distinct.assign hashKey_injective _ _),
        findRequest_setRequest hs.distinct]
      by_cases heq : d = destination <;> simp [heq, h d]

/-! ## Runs -/

/-- A call on the database that concerns requests. -/
inductive Op
  /-- `RequestDestination`, with a callback or without. -/
  | requestDestination (env : RequestEnv) (destination : IdentHash) (hasCallback : Bool)
  /-- A `DatabaseStore` message with a router info that could be read. -/
  | storeRouterInfo (ident : IdentHash) (r : ℕ)
  /-- A `DatabaseStore` message with a lease set; the gateways of its leases that are not in the
  database. -/
  | storeLeaseSet (env : RequestEnv) (gateways : List IdentHash)
  /-- A `DatabaseSearchReply` message. -/
  | searchReply (env : RequestEnv) (payload : Mem)
  | manageRequests (env : RequestEnv)
  | explore (env : RequestEnv) (destinations : List IdentHash)
  | stop

/-- One call. -/
def step (s : NetDbRequests) : Op → NetDbRequests
  | .requestDestination env destination hasCallback => s.request env destination hasCallback
  | .storeRouterInfo ident r => s.requestComplete ident (some r)
  | .storeLeaseSet env gateways => gateways.foldl (fun s gateway => s.request env gateway false) s
  | .searchReply env payload => s.handleDatabaseSearchReplyMsg env payload
  | .manageRequests env => s.manageRequests env
  | .explore env destinations => s.explore env [] destinations
  | .stop => s.stop

theorem invariant_step (s : NetDbRequests) (op : Op) (h : s.Invariant) : (s.step op).Invariant := by
  cases op with
  | requestDestination env destination hasCallback => exact h.request env destination hasCallback
  | storeRouterInfo ident r => exact h.requestComplete ident (some r)
  | storeLeaseSet env gateways =>
    exact h.foldl (fun s gateway hs => hs.request env gateway false) gateways
  | searchReply env payload => exact h.handleDatabaseSearchReplyMsg env payload
  | manageRequests env => exact h.foldl (fun s ident hs => hs.manageRequest env ident) _
  | explore env destinations => exact h.explore env [] destinations
  | stop => exact h.stop

/-- After every run, no callback has been invoked twice, and the callback of a call has been invoked if
the call was refused or if there is no request for its destination, or only a later one. -/
theorem callbacks_invoked (ops : List Op) :
    (Runs.exec step {} ops).invokedCalls.Nodup ∧
      ∀ call destination, (Runs.exec step {} ops).calls[call]? = some destination →
        call ∈ (Runs.exec step {} ops).refused ∨ ¬(Runs.exec step {} ops).Waits call destination →
          call ∈ (Runs.exec step {} ops).invokedCalls := by
  have h : (Runs.exec step {} ops).Invariant := Runs.invariant_exec invariant_step invariant_init ops
  refine ⟨h.nodup, fun call destination hcall hended => ?_⟩
  refine (h.covered call destination hcall).resolve_right fun hwaits => ?_
  rcases hended with hrefused | hnot
  · obtain ⟨dest, hfind, hcallback⟩ := hwaits
    exact (h.owned destination dest hfind call hcallback).not_refused hrefused
  · exact hnot hwaits

/-- There is one floodfill to ask. -/
def exampleRequestEnv : RequestEnv where
  ts := 0
  closestFloodfill _ excluded := if exampleIdent 9 ∈ excluded then none else some (exampleIdent 9)
  hasOutbound := true
  hasInbound := true
  isWanted _ := false

-- The second call is refused and told so at once, the first one is told when the router info arrives.
example :
    (Runs.exec step {}
      [.requestDestination exampleRequestEnv (exampleIdent 1) true,
        .requestDestination exampleRequestEnv (exampleIdent 1) true,
        .storeRouterInfo (exampleIdent 1) 5]).invoked = [(1, none), (0, some 5)] := by
  decide +kernel

end NetDbRequests

end Router
