import Xi2p.Router.Requests

/-!
# The floodfills that are asked

The functions that make and end requests, with a log of what they do: requests are created, floodfills are asked,
requests end. `GetClosestFloodfill` is that of the database. The database, the tunnels and the date may be any at
every call.

* `requests_exec`: the functions are those of `NetDbRequests`.
* `sound_log`: in every run, the floodfills that are asked for a request are distinct, they are at most seven, and
  each was the closest one.
-/

namespace Router.Asking

open Bytes I2NP

/-! ## The closest floodfill -/

/-- A floodfill that `GetClosestFloodfill` may return. -/
def Candidate (db : NetDb) (excluded : List IdentHash) (r : ℕ) : Prop :=
  (db.routers r).isUnreachable = false ∧ (db.routers r).getIdentHash ∉ excluded

/-- A closest one of the floodfills that are reachable and not excluded. -/
structure IsClosest (db : NetDb) (destKey : IdentHash) (excluded : List IdentHash) (r : ℕ) : Prop where
  mem : r ∈ db.floodfills
  candidate : Candidate db excluded r
  le : ∀ r' ∈ db.floodfills, Candidate db excluded r' →
    NetDb.metric destKey (db.routers r).getIdentHash ≤ NetDb.metric destKey (db.routers r').getIdentHash

/-- What the loop of `GetClosestFloodfill` has found in the floodfills that it has seen. -/
structure Found (db : NetDb) (destKey : IdentHash) (excluded : List IdentHash) (seen : List ℕ)
    (best : Option ℕ × ℕ) : Prop where
  best_eq : ∀ r ∈ best.1, r ∈ seen ∧ Candidate db excluded r ∧
    best.2 = NetDb.metric destKey (db.routers r).getIdentHash
  le : ∀ r ∈ seen, Candidate db excluded r → best.2 ≤ NetDb.metric destKey (db.routers r).getIdentHash

/-- One round of the loop. -/
theorem Found.concat {db : NetDb} {destKey : IdentHash} {excluded : List IdentHash} {seen : List ℕ}
    {best : Option ℕ × ℕ} (h : Found db destKey excluded seen best) (r : ℕ) :
    Found db destKey excluded (seen ++ [r])
      (if !(db.routers r).isUnreachable ∧
          NetDb.metric destKey (db.routers r).getIdentHash < best.2 ∧
            (db.routers r).getIdentHash ∉ excluded then
        (some r, NetDb.metric destKey (db.routers r).getIdentHash)
      else best) := by
  split_ifs with hbetter
  · obtain ⟨hreachable, hlt, hnew⟩ := hbetter
    constructor
    · intro r' hr'
      obtain rfl := Option.some.inj hr'
      exact ⟨by simp, ⟨by simpa using hreachable, hnew⟩, rfl⟩
    · intro r' hr' hcandidate
      rcases List.mem_append.mp hr' with hseen | hlast
      · exact hlt.le.trans (h.le r' hseen hcandidate)
      · obtain rfl := List.mem_singleton.mp hlast
        exact le_rfl
  · constructor
    · intro r' hr'
      obtain ⟨hseen, hrest⟩ := h.best_eq r' hr'
      exact ⟨List.mem_append_left _ hseen, hrest⟩
    · intro r' hr' hcandidate
      rcases List.mem_append.mp hr' with hseen | hlast
      · exact h.le r' hseen hcandidate
      · obtain rfl := List.mem_singleton.mp hlast
        by_contra hlt
        exact hbetter ⟨by simpa using hcandidate.1, not_le.mp hlt, hcandidate.2⟩

/-- `GetClosestFloodfill` returns a closest floodfill. -/
theorem isClosest_of_getClosestFloodfill {db : NetDb} {destKey : IdentHash} {excluded : List IdentHash} {r : ℕ}
    (h : db.getClosestFloodfill destKey excluded = some r) : IsClosest db destKey excluded r := by
  have hloop : ∀ rest seen best, Found db destKey excluded seen best →
      Found db destKey excluded (seen ++ rest) (rest.foldl (fun (best : Option ℕ × ℕ) r =>
        if !(db.routers r).isUnreachable ∧
            NetDb.metric destKey (db.routers r).getIdentHash < best.2 ∧
              (db.routers r).getIdentHash ∉ excluded then
          (some r, NetDb.metric destKey (db.routers r).getIdentHash)
        else best) best) := by
    intro rest
    induction rest with
    | nil =>
      intro seen best hbest
      rwa [List.append_nil]
    | cons r rest ih =>
      intro seen best hbest
      have hnext := ih (seen ++ [r]) _ (hbest.concat r)
      rwa [List.append_assoc] at hnext
  have hfound := hloop db.floodfills [] (none, 2 ^ 256 - 1) ⟨nofun, nofun⟩
  obtain ⟨hmem, hcandidate, hmin⟩ := hfound.best_eq r h
  exact ⟨hmem, hcandidate, fun r' hr' hr => hmin ▸ hfound.le r' hr' hr⟩

/-! ## The log -/

/-- What the functions find outside. -/
structure AskEnv where
  /-- The time, in seconds. -/
  ts : UInt64
  /-- `CreateRoutingKey`, at the date. -/
  routingKey : IdentHash → IdentHash
  /-- The database. -/
  db : NetDb
  /-- The exploratory pool has an outbound tunnel. -/
  hasOutbound : Bool
  /-- The exploratory pool has an inbound tunnel. -/
  hasInbound : Bool
  /-- A router is not in the database, or too old. -/
  isWanted : IdentHash → Bool

/-- What the requests find outside, with `GetClosestFloodfill` of the database. -/
def AskEnv.requestEnv (env : AskEnv) : RequestEnv where
  ts := env.ts
  closestFloodfill destination excluded :=
    (env.db.getClosestFloodfill (env.routingKey destination) excluded).map fun r =>
      (env.db.routers r).getIdentHash
  hasOutbound := env.hasOutbound
  hasInbound := env.hasInbound
  isWanted := env.isWanted

/-- What is done about a destination. -/
inductive Action
  /-- A request is created. -/
  | created (destination : IdentHash)
  /-- The message of `CreateRequestMessage` is sent to a floodfill. -/
  | asked (env : AskEnv) (destination floodfill : IdentHash)
  /-- There is no request any more. -/
  | ended (destination : IdentHash)

/-- The floodfills that have been asked for a request after an action, if there is a request. -/
def Action.update (d : IdentHash) (asked : Option (List IdentHash)) : Action → Option (List IdentHash)
  | .created destination => if d = destination then some [] else asked
  | .asked _ destination floodfill => if d = destination then asked.map (· ++ [floodfill]) else asked
  | .ended destination => if d = destination then none else asked

/-- The floodfills that have been asked for the request for a destination, if there is a request. -/
def askedFor (d : IdentHash) (log : List Action) : Option (List IdentHash) :=
  log.foldl (Action.update d) none

/-- The floodfills that are asked for a request are distinct and at most seven. There is a request whenever one is
asked, which is a closest one of those that are reachable and have not been asked. -/
structure Sound (log : List Action) : Prop where
  distinct : ∀ pre, pre <+: log → ∀ d, ∀ asked ∈ askedFor d pre, asked.Nodup ∧ asked.length ≤ 7
  closest : ∀ pre env destination floodfill, pre ++ [.asked env destination floodfill] <+: log →
    ∃ asked ∈ askedFor destination pre, ∃ r, (env.db.routers r).getIdentHash = floodfill ∧
      IsClosest env.db (env.routingKey destination) asked r

/-- `NetDbRequests`, with the log. -/
structure Logged where
  requests : NetDbRequests := {}
  log : List Action := []

namespace Logged

/-- `CreateRequest`. -/
def createRequest (s : Logged) (destination : IdentHash) (isExploratory : Bool) (callback : Option ℕ) :
    Logged × Option RequestedDestination :=
  match s.requests.createRequest destination isExploratory callback with
  | (requests, none) => ({ s with requests }, none)
  | (requests, some dest) => ({ requests, log := s.log ++ [.created destination] }, some dest)

/-- `RequestComplete`. -/
def requestComplete (s : Logged) (ident : IdentHash) (r : Option ℕ) : Logged where
  requests := s.requests.requestComplete ident r
  log := s.log ++ [.ended ident]

/-- The removal of a request. -/
def erase (s : Logged) (ident : IdentHash) (dest : RequestedDestination) : Logged where
  requests := s.requests.erase ident dest
  log := s.log ++ [.ended ident]

/-- The message of `CreateRequestMessage` is sent to a floodfill. -/
def ask (s : Logged) (env : AskEnv) (ident : IdentHash) (dest : RequestedDestination) (floodfill : IdentHash) :
    Logged where
  requests := s.requests.setRequest ident (dest.createRequestMessage env.ts floodfill)
  log := s.log ++ [.asked env ident floodfill]

/-- `RequestDestination`, of the database. -/
def requestDestination (env : AskEnv) (s : Logged) (destination : IdentHash) (callback : Option ℕ) : Logged :=
  match s.createRequest destination false callback with
  | (s, none) => s
  | (s, some dest) =>
    match env.requestEnv.closestFloodfill destination dest.excludedPeers with
    | some floodfill => s.ask env destination dest floodfill
    | none => s.requestComplete destination none

/-- The answer to a search reply for a request. -/
def nextFloodfill (env : AskEnv) (s : Logged) (ident : IdentHash) (num : ℕ) (dest : RequestedDestination) :
    Logged :=
  let next :=
    if num ≠ 0 ∧ !dest.isExploratory ∧ env.hasOutbound ∧ env.hasInbound ∧ dest.excludedPeers.length < 7 then
      env.requestEnv.closestFloodfill dest.destination dest.excludedPeers
    else none
  match next with
  | some floodfill => s.ask env ident dest floodfill
  | none => s.requestComplete ident none

/-- `HandleDatabaseSearchReplyMsg`. -/
def handleDatabaseSearchReplyMsg (env : AskEnv) (s : Logged) (payload : Mem) : Logged :=
  let (ident, routers) := (readSearchReply payload).val
  let s :=
    match s.requests.findRequest ident with
    | some dest => s.nextFloodfill env ident routers.length dest
    | none => s
  -- try responses
  routers.foldl (fun s router => if env.isWanted router then s.requestDestination env router none else s) s

/-- The loop of `ManageRequests`, for a destination. -/
def manageRequest (env : AskEnv) (s : Logged) (ident : IdentHash) : Logged :=
  match s.requests.findRequest ident with
  | none => s
  | some dest =>
    -- request is worthless after 1 minute
    if env.ts < dest.creationTime + 60 then
      -- no response for 5 seconds
      if env.ts > dest.creationTime + 5 then
        if !dest.isExploratory ∧ dest.excludedPeers.length < 7 then
          match env.requestEnv.closestFloodfill dest.destination dest.excludedPeers with
          | some floodfill =>
            if env.hasOutbound ∧ env.hasInbound then s.ask env ident dest floodfill else s.erase ident dest
          | none => s.erase ident dest
        else s.erase ident dest
      else s
    else s.erase ident dest

/-- `ManageRequests`. -/
def manageRequests (env : AskEnv) (s : Logged) : Logged :=
  (s.requests.requestedDestinations.map Prod.fst).foldl (manageRequest env) s

/-- A call of `RequestDestination`. -/
def request (env : AskEnv) (s : Logged) (destination : IdentHash) (hasCallback : Bool) : Logged :=
  if hasCallback then
    let call := s.requests.calls.length
    { s with requests := { s.requests with calls := s.requests.calls ++ [destination] }
      }.requestDestination env destination (some call)
  else s.requestDestination env destination none

end Logged

/-- A call on the database that concerns requests. -/
inductive Event
  /-- `RequestDestination`, with a callback or without. -/
  | requestDestination (env : AskEnv) (destination : IdentHash) (hasCallback : Bool)
  /-- A `DatabaseStore` message with a router info that could be read. -/
  | storeRouterInfo (ident : IdentHash) (r : ℕ)
  /-- A `DatabaseSearchReply` message. -/
  | searchReply (env : AskEnv) (payload : Mem)
  | manageRequests (env : AskEnv)

/-- The call, as a call on the requests. -/
def Event.op : Event → NetDbRequests.Op
  | .requestDestination env destination hasCallback => .requestDestination env.requestEnv destination hasCallback
  | .storeRouterInfo ident r => .storeRouterInfo ident r
  | .searchReply env payload => .searchReply env.requestEnv payload
  | .manageRequests env => .manageRequests env.requestEnv

/-- One call. -/
def step (s : Logged) : Event → Logged
  | .requestDestination env destination hasCallback => s.request env destination hasCallback
  | .storeRouterInfo ident r => s.requestComplete ident (some r)
  | .searchReply env payload => s.handleDatabaseSearchReplyMsg env payload
  | .manageRequests env => s.manageRequests env

/-! ## The functions are those of the requests -/

theorem requests_requestDestination (env : AskEnv) (s : Logged) (destination : IdentHash) (callback : Option ℕ) :
    (s.requestDestination env destination callback).requests =
      s.requests.requestDestination env.requestEnv destination callback := by
  rw [Logged.requestDestination, Logged.createRequest, NetDbRequests.requestDestination]
  rcases s.requests.createRequest destination false callback with ⟨requests, _ | dest⟩
  · rfl
  · dsimp only
    rcases env.requestEnv.closestFloodfill destination dest.excludedPeers with _ | floodfill
    · rfl
    · rfl

theorem requests_nextFloodfill (env : AskEnv) (s : Logged) (ident : IdentHash) (num : ℕ)
    (dest : RequestedDestination) :
    (s.nextFloodfill env ident num dest).requests = s.requests.nextFloodfill env.requestEnv ident num dest := by
  have hnext : ∀ next : Option IdentHash,
      Logged.requests (match next with
        | some floodfill => s.ask env ident dest floodfill
        | none => s.requestComplete ident none) =
      match next with
      | some floodfill => s.requests.setRequest ident (dest.createRequestMessage env.ts floodfill)
      | none => s.requests.requestComplete ident none := by
    rintro (_ | floodfill)
    · rfl
    · rfl
  exact hnext _

theorem requests_manageRequest (env : AskEnv) (s : Logged) (ident : IdentHash) :
    (s.manageRequest env ident).requests = s.requests.manageRequest env.requestEnv ident := by
  rw [Logged.manageRequest, NetDbRequests.manageRequest]
  rcases s.requests.findRequest ident with _ | dest
  · rfl
  dsimp only
  rcases env.requestEnv.closestFloodfill dest.destination dest.excludedPeers with _ | floodfill
  · simp only [apply_ite Logged.requests]
    rfl
  · simp only [apply_ite Logged.requests]
    rfl

/-- A loop whose body does the same to the requests. -/
theorem requests_foldl {α : Type} {f : Logged → α → Logged} {g : NetDbRequests → α → NetDbRequests}
    (hf : ∀ s a, (f s a).requests = g s.requests a) (l : List α) (s : Logged) :
    (l.foldl f s).requests = l.foldl g s.requests := by
  induction l generalizing s with
  | nil => rfl
  | cons a l ih => rw [List.foldl_cons, List.foldl_cons, ih, hf]

theorem requests_handleDatabaseSearchReplyMsg (env : AskEnv) (s : Logged) (payload : Mem) :
    (s.handleDatabaseSearchReplyMsg env payload).requests =
      s.requests.handleDatabaseSearchReplyMsg env.requestEnv payload := by
  have hresponse : ∀ (s : Logged) (router : IdentHash),
      (if env.isWanted router then s.requestDestination env router none else s).requests =
        if env.isWanted router then s.requests.requestDestination env.requestEnv router none
        else s.requests := by
    intro s router
    rw [apply_ite Logged.requests, requests_requestDestination]
  rw [Logged.handleDatabaseSearchReplyMsg, NetDbRequests.handleDatabaseSearchReplyMsg]
  refine (requests_foldl (g := fun requests router =>
    if env.isWanted router then requests.requestDestination env.requestEnv router none else requests)
    hresponse _ _).trans ?_
  congr 1
  rcases s.requests.findRequest (readSearchReply payload).val.1 with _ | dest
  · rfl
  · exact requests_nextFloodfill env s _ _ dest

theorem requests_step (s : Logged) (e : Event) : (step s e).requests = s.requests.step e.op := by
  cases e with
  | requestDestination env destination hasCallback =>
    cases hasCallback with
    | true => exact requests_requestDestination env _ destination _
    | false => exact requests_requestDestination env s destination none
  | storeRouterInfo ident r => rfl
  | searchReply env payload =>
    exact requests_handleDatabaseSearchReplyMsg env s payload
  | manageRequests env => exact requests_foldl (requests_manageRequest env) _ s

/-- The functions with the log do what the functions without it do. -/
theorem requests_exec (events : List Event) (s : Logged) :
    (Runs.exec step s events).requests = Runs.exec NetDbRequests.step s.requests (events.map Event.op) := by
  induction events generalizing s with
  | nil => rfl
  | cons e events ih =>
    rw [List.map_cons, Runs.exec, List.foldl_cons, Runs.exec, List.foldl_cons, ← requests_step]
    exact ih _

/-! ## Soundness of the log -/

theorem askedFor_concat (d : IdentHash) (log : List Action) (a : Action) :
    askedFor d (log ++ [a]) = a.update d (askedFor d log) :=
  List.foldl_concat _ _ _ _

theorem sound_nil : Sound [] where
  distinct pre hpre d asked hasked := by
    rw [List.prefix_nil.mp hpre] at hasked
    cases hasked
  closest pre env destination floodfill hpre := by
    have hnil := List.prefix_nil.mp hpre
    cases List.append_eq_nil_iff.mp hnil |>.2

/-- An action after a sound log. -/
theorem Sound.concat {log : List Action} (h : Sound log) {a : Action}
    (hdistinct : ∀ d, ∀ asked ∈ a.update d (askedFor d log), asked.Nodup ∧ asked.length ≤ 7)
    (hclosest : ∀ env destination floodfill, a = .asked env destination floodfill →
      ∃ asked ∈ askedFor destination log, ∃ r, (env.db.routers r).getIdentHash = floodfill ∧
        IsClosest env.db (env.routingKey destination) asked r) : Sound (log ++ [a]) where
  distinct pre hpre d asked hasked := by
    rcases List.prefix_concat_iff.mp hpre with rfl | hpre
    · rw [askedFor_concat] at hasked
      exact hdistinct d asked hasked
    · exact h.distinct pre hpre d asked hasked
  closest pre env destination floodfill hpre := by
    rcases List.prefix_concat_iff.mp hpre with heq | hpre
    · obtain ⟨rfl, ha⟩ := List.append_inj' heq rfl
      exact hclosest env destination floodfill (List.singleton_inj.mp ha).symm
    · exact h.closest pre env destination floodfill hpre

/-- The state between two calls: a request excludes the floodfills that have been asked for it. -/
structure Invariant (s : Logged) : Prop where
  distinct : AssocMap.Distinct s.requests.requestedDestinations
  destination_eq : ∀ d, ∀ dest ∈ s.requests.findRequest d, dest.destination = d
  excluded : ∀ d, askedFor d s.log = (s.requests.findRequest d).map fun dest => dest.excludedPeers.reverse
  sound : Sound s.log

theorem invariant_init : Invariant {} where
  distinct := List.nodup_nil
  destination_eq _ _ h := by cases h
  excluded _ := rfl
  sound := sound_nil

namespace Invariant

variable {s : Logged} (h : Invariant s)

include h

/-- What has been asked for a request is distinct, and at most seven. -/
theorem distinct_asked {d : IdentHash} {asked : List IdentHash} (hasked : asked ∈ askedFor d s.log) :
    asked.Nodup ∧ asked.length ≤ 7 :=
  h.sound.distinct s.log List.prefix_rfl d asked hasked

/-- A request ends. -/
theorem ended {ident : IdentHash} {requests : NetDbRequests}
    (hdistinct : AssocMap.Distinct requests.requestedDestinations)
    (hfind : ∀ d, requests.findRequest d = if d = ident then none else s.requests.findRequest d) :
    Invariant { requests, log := s.log ++ [.ended ident] } where
  distinct := hdistinct
  destination_eq d dest hdest := by
    rw [hfind] at hdest
    split at hdest
    · cases hdest
    · exact h.destination_eq d dest hdest
  excluded d := by
    rw [askedFor_concat, Action.update, hfind, h.excluded]
    split <;> rfl
  sound := by
    refine h.sound.concat (fun d asked hasked => ?_) nofun
    rw [Action.update] at hasked
    split at hasked
    · cases hasked
    · exact h.distinct_asked hasked

theorem requestComplete (ident : IdentHash) (r : Option ℕ) : Invariant (s.requestComplete ident r) := by
  refine h.ended ?_ (NetDbRequests.findRequest_requestComplete s.requests ident r)
  rw [NetDbRequests.requestComplete]
  split
  next dest hfind =>
    change AssocMap.Distinct (AssocMap.erase (s.requests.invoke dest r).requestedDestinations ident)
    rw [NetDbRequests.requestedDestinations_invoke]
    exact h.distinct.filter _
  · exact h.distinct

theorem erase (ident : IdentHash) (dest : RequestedDestination) : Invariant (s.erase ident dest) :=
  h.ended (h.distinct.filter _) (AssocMap.find_erase _ ident)

/-- A closest floodfill is asked. -/
theorem ask {env : AskEnv} {ident floodfill : IdentHash} {dest : RequestedDestination}
    (hfind : s.requests.findRequest ident = some dest)
    (hclosest : env.requestEnv.closestFloodfill ident dest.excludedPeers = some floodfill)
    (hlen : dest.excludedPeers.length < 7) : Invariant (s.ask env ident dest floodfill) := by
  obtain ⟨r, hr, rfl⟩ := Option.map_eq_some_iff.mp hclosest
  have hr := isClosest_of_getClosestFloodfill hr
  have hnew : (env.db.routers r).getIdentHash ∉ dest.excludedPeers := hr.candidate.2
  have hasked : askedFor ident s.log = some dest.excludedPeers.reverse := by
    rw [h.excluded, hfind]
    rfl
  have hfind' := NetDbRequests.findRequest_setRequest h.distinct ident
    (dest.createRequestMessage env.ts (env.db.routers r).getIdentHash)
  constructor
  · exact h.distinct.assign hashKey_injective ident _
  · intro d dest' hdest'
    rw [Logged.ask, hfind'] at hdest'
    split at hdest'
    next heq =>
      obtain rfl := Option.some.inj hdest'
      exact heq ▸ h.destination_eq ident dest hfind
    · exact h.destination_eq d dest' hdest'
  · intro d
    rw [Logged.ask, askedFor_concat, Action.update, hfind']
    split
    next heq =>
      rw [heq, hasked]
      simp [RequestedDestination.createRequestMessage, List.insert_of_not_mem hnew]
    · exact h.excluded d
  · refine h.sound.concat (fun d asked hmem => ?_) ?_
    · rw [Action.update] at hmem
      split at hmem
      next heq =>
        rw [heq, hasked] at hmem
        obtain rfl := Option.some.inj hmem
        obtain ⟨hnodup, -⟩ := h.distinct_asked hasked
        dsimp only
        rw [← List.reverse_cons, List.nodup_reverse, List.length_reverse]
        exact ⟨List.nodup_cons.mpr ⟨hnew, List.nodup_reverse.mp hnodup⟩, hlen⟩
      · exact h.distinct_asked hmem
    · rintro _ _ _ ⟨⟩
      refine ⟨_, hasked, r, rfl, hr.mem, ?_, ?_⟩
      · exact ⟨hr.candidate.1, by simpa using hr.candidate.2⟩
      · intro r' hr' hcandidate
        exact hr.le r' hr' ⟨hcandidate.1, by simpa using hcandidate.2⟩

/-- A change that leaves the requests themselves. -/
theorem keep {requests : NetDbRequests}
    (heq : requests.requestedDestinations = s.requests.requestedDestinations) :
    Invariant { s with requests } := by
  have hfind : requests.findRequest = s.requests.findRequest := by
    funext d
    rw [NetDbRequests.findRequest, heq, NetDbRequests.findRequest]
  constructor
  · exact heq ▸ h.distinct
  · exact hfind ▸ h.destination_eq
  · exact hfind ▸ h.excluded
  · exact h.sound

/-- A request is created, with nobody asked. -/
theorem created {destination : IdentHash} {dest : RequestedDestination} {requests : NetDbRequests}
    (hrequests : requests = s.requests.setRequest destination dest)
    (hdestination : dest.destination = destination) (hexcluded : dest.excludedPeers = []) :
    Invariant { requests, log := s.log ++ [.created destination] } := by
  subst hrequests
  have hfind := NetDbRequests.findRequest_setRequest h.distinct destination dest
  constructor
  · exact h.distinct.assign hashKey_injective destination dest
  · intro d dest' hdest'
    rw [hfind] at hdest'
    split at hdest'
    next heq =>
      obtain rfl := Option.some.inj hdest'
      exact hdestination.trans heq.symm
    · exact h.destination_eq d dest' hdest'
  · intro d
    rw [askedFor_concat, Action.update, hfind]
    split
    · simp [hexcluded]
    · exact h.excluded d
  · refine h.sound.concat (fun d asked hmem => ?_) nofun
    rw [Action.update] at hmem
    split at hmem
    · obtain rfl := Option.some.inj hmem
      exact ⟨List.nodup_nil, Nat.zero_le 7⟩
    · exact h.distinct_asked hmem

/-- `RequestDestination` keeps the invariant. -/
theorem requestDestination (env : AskEnv) (destination : IdentHash) (callback : Option ℕ) :
    Invariant (s.requestDestination env destination callback) := by
  rw [Logged.requestDestination, Logged.createRequest, NetDbRequests.createRequest]
  rcases hfind : s.requests.findRequest destination with _ | old
  · dsimp only
    let dest : RequestedDestination := { destination, isExploratory := false, requestComplete := callback }
    have hcreated : Invariant ⟨s.requests.setRequest destination dest, s.log ++ [.created destination]⟩ :=
      h.created rfl rfl rfl
    split
    next floodfill hclosest =>
      refine hcreated.ask ?_ hclosest (Nat.zero_lt_succ 6)
      exact (NetDbRequests.findRequest_setRequest h.distinct _ _ _).trans (if_pos rfl)
    · exact hcreated.requestComplete destination none
  · -- there is a request
    exact h.keep (NetDbRequests.requestedDestinations_invoke _ _ _)

/-- The answer to a search reply keeps the invariant. -/
theorem nextFloodfill (env : AskEnv) {ident : IdentHash} {dest : RequestedDestination}
    (hfind : s.requests.findRequest ident = some dest) (num : ℕ) :
    Invariant (s.nextFloodfill env ident num dest) := by
  rw [Logged.nextFloodfill, h.destination_eq ident dest hfind]
  by_cases hask : num ≠ 0 ∧ !dest.isExploratory ∧ env.hasOutbound ∧ env.hasInbound ∧
      dest.excludedPeers.length < 7
  · rw [if_pos hask]
    split
    next floodfill hclosest => exact h.ask hfind hclosest hask.2.2.2.2
    · exact h.requestComplete ident none
  · rw [if_neg hask]
    exact h.requestComplete ident none

/-- A loop whose body keeps the invariant. -/
theorem foldl {α : Type} {f : Logged → α → Logged} (hf : ∀ s a, Invariant s → Invariant (f s a)) (l : List α) :
    Invariant (l.foldl f s) :=
  Runs.invariant_exec hf h l

theorem handleDatabaseSearchReplyMsg (env : AskEnv) (payload : Mem) :
    Invariant (s.handleDatabaseSearchReplyMsg env payload) := by
  rw [Logged.handleDatabaseSearchReplyMsg]
  refine foldl ?_ (fun s router hs => ?_) _
  · split
    next dest hfind => exact h.nextFloodfill env hfind _
    · exact h
  · split
    · exact hs.requestDestination env router none
    · exact hs

theorem manageRequest (env : AskEnv) (ident : IdentHash) : Invariant (s.manageRequest env ident) := by
  rw [Logged.manageRequest]
  rcases hfind : s.requests.findRequest ident with _ | dest
  · exact h
  dsimp only
  rw [h.destination_eq ident dest hfind]
  have herase := h.erase ident dest
  split
  · split
    · split
      next hattempts =>
        split
        next floodfill hclosest =>
          split
          · exact h.ask hfind hclosest hattempts.2
          · exact herase
        · exact herase
      · exact herase
    · exact h
  · exact herase

/-- Every call keeps the invariant. -/
theorem step (e : Event) : Invariant (step s e) := by
  cases e with
  | requestDestination env destination hasCallback =>
    rw [Asking.step, Logged.request]
    split
    · have hcalls : Invariant { s with
          requests := { s.requests with calls := s.requests.calls ++ [destination] } } := h.keep rfl
      exact hcalls.requestDestination env destination _
    · exact h.requestDestination env destination none
  | storeRouterInfo ident r => exact h.requestComplete ident (some r)
  | searchReply env payload => exact h.handleDatabaseSearchReplyMsg env payload
  | manageRequests env => exact h.foldl (fun s ident hs => hs.manageRequest env ident) _

end Invariant

/-- In every run, no floodfill is asked twice for a request, at most seven are asked, and each is a closest one of
those that are reachable and have not been asked. -/
theorem sound_log (events : List Event) : Sound (Runs.exec step {} events).log :=
  (Runs.invariant_exec (fun _ e hs => hs.step e) invariant_init events).sound

end Router.Asking
