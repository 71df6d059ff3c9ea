import Xi2p.Router.NetDb

/-!
# Keys of the database

The key of a `DatabaseStore` message says where something is stored, and the data say what it is.
Nothing compares the two: an update puts the identity of the data under the key of the message, and a
lease set is stored under the key of the message.

* `KeyInvariant`: everything in the database stands under its own hash.
* `NetDb.keys_sound`: the runs in which this stays so.
-/

namespace Router

open Bytes I2NP Identity

namespace NetDb

/-! ## The invariant -/

/-- Router infos and lease sets stand under their own hashes. -/
structure KeyInvariant (db : NetDb) : Prop where
  routerInfos : ∀ e ∈ db.routerInfos, (db.routers e.2).getIdentHash = e.1
  leaseSets : ∀ e ∈ db.leaseSets, e.2.getIdentHash = e.1
  /-- Numbers of router infos that have not been created are free. -/
  lt_next : ∀ e ∈ db.routerInfos, e.2 < db.next

/-- Where a call returns, the invariant holds, and requests are completed with the router info they
asked for. -/
def KeysSound : Result → Prop
  | .returns db completed =>
    KeyInvariant db ∧ ∀ e ∈ completed, (db.routers e.2).getIdentHash = e.1
  | .hangs => True

variable {env : Env} {ambient : Ambient} {db : NetDb} {ident : IdentHash} {data : List UInt8}

theorem keyInvariant_empty : KeyInvariant {} where
  routerInfos _ h := by cases h
  leaseSets _ h := by cases h
  lt_next _ h := by cases h

theorem keysSound_requestComplete (h : KeyInvariant db) {r : ℕ}
    (hr : ident ∈ db.requested → (db.routers r).getIdentHash = ident) :
    KeysSound (db.requestComplete ident r) := by
  unfold requestComplete
  split
  next hrequested =>
    refine ⟨⟨h.routerInfos, h.leaseSets, h.lt_next⟩, ?_⟩
    intro e he
    rw [List.mem_singleton.mp he]
    exact hr hrequested
  · exact ⟨h, fun _ he => by cases he⟩

theorem keysSound_result (e : Failure) (h : KeyInvariant db) : KeysSound (e.result db) := by
  unfold Failure.result
  split
  · trivial
  · exact ⟨h, fun _ he => by cases he⟩

/-- A router info may change, if its hash stays. -/
theorem KeyInvariant.setRouter (h : KeyInvariant db) {r : ℕ} {info : RouterInfo}
    (hhash : info.getIdentHash = (db.routers r).getIdentHash) :
    KeyInvariant (db.setRouter r info) where
  routerInfos e he := by
    rw [← h.routerInfos e he]
    by_cases heq : e.2 = r
    · subst heq
      simpa [NetDb.setRouter] using hhash
    · simp [NetDb.setRouter, heq]
  leaseSets := h.leaseSets
  lt_next := h.lt_next

theorem KeyInvariant.addNewRouter (h : KeyInvariant db) (info : RouterInfo) :
    KeyInvariant (db.addNewRouter info) where
  routerInfos e he := by
    obtain rfl | ⟨he, -⟩ := (AssocMap.mem_assign_iff hashKey_injective).mp he
    · simp [NetDb.addNewRouter]
    · have hne : e.2 ≠ db.next := (h.lt_next e he).ne
      simpa [NetDb.addNewRouter, hne] using h.routerInfos e he
  leaseSets := h.leaseSets
  lt_next e he := by
    obtain rfl | ⟨he, -⟩ := (AssocMap.mem_assign_iff hashKey_injective).mp he
    · exact Nat.lt_succ_self db.next
    · exact (h.lt_next e he).trans (Nat.lt_succ_self db.next)

/-! ## Stores -/

/-- The data of a router info belong to its key, if they are written over a router info or answer a
request. -/
def RouterInfoFits (env : Env) (ambient : Ambient) (db : NetDb) (ident : IdentHash)
    (data : List UInt8) : Prop :=
  match db.findRouter ident with
  | some _ => data.length ≤ maxBuffer → ∀ h, dataIdent env.crypto data = some h → h = ident
  | none => ident ∈ db.requested → (RouterInfo.ofBuffer env ambient data).isOk →
    dataIdent env.crypto data = some ident

/-- The hash of the data is the key. -/
theorem routerInfoFits_of_dataIdent (hdata : dataIdent env.crypto data = some ident) :
    RouterInfoFits env ambient db ident data := by
  unfold RouterInfoFits
  rw [hdata]
  split
  · exact fun _ hash heq => (Option.some.inj heq).symm
  · exact fun _ _ => rfl

theorem keysSound_addRouterInfo (h : KeyInvariant db)
    (hfits : RouterInfoFits env ambient db ident data) :
    KeysSound (db.addRouterInfo env ambient ident data) := by
  unfold RouterInfoFits at hfits
  unfold addRouterInfo
  split
  next r hfind =>
    rw [hfind] at hfits
    have hold : (db.routers r).getIdentHash = ident := h.routerInfos _ (AssocMap.mem_of_find hfind)
    have hnew : ((db.routers r).update env ambient data).2.getIdentHash = ident := by
      obtain hsame | ⟨hlen, hdata⟩ := (db.routers r).update_identHash env ambient data
      · exact hsame.trans hold
      · exact hfits hlen _ hdata
    split
    next e info hupdate =>
      rw [hupdate] at hnew
      exact keysSound_result e (h.setRouter (hnew.trans hold.symm))
    next info hupdate =>
      rw [hupdate] at hnew
      refine keysSound_requestComplete (h.setRouter (hnew.trans hold.symm)) fun _ => ?_
      simpa [NetDb.setRouter] using hnew
  next hnone =>
    rw [hnone] at hfits
    split
    next e _ => exact keysSound_result e h
    next verified info hinfo =>
      refine keysSound_requestComplete (h.addNewRouter info) fun hrequested => ?_
      have hdata := hfits hrequested (by rw [hinfo]; rfl)
      rw [RouterInfo.ofBuffer_identHash hinfo] at hdata
      simpa [NetDb.addNewRouter] using Option.some.inj hdata

/-- The two-argument `AddRouterInfo` takes the key from the data. -/
theorem keysSound_addRouterInfoFromBuffer (h : KeyInvariant db) :
    KeysSound (db.addRouterInfoFromBuffer env ambient data) := by
  unfold addRouterInfoFromBuffer
  dsimp only
  split
  · exact ⟨h, fun _ he => by cases he⟩
  next hlen =>
    refine keysSound_addRouterInfo h ?_
    rw [fromBuffer_store_identHash]
    rw [IdentityEx.fromBuffer_snd] at hlen
    have hdata : dataIdent env.crypto data = some _ := if_neg hlen
    rw [hdata]
    exact routerInfoFits_of_dataIdent hdata

/-- The lease set that is read from the data belongs to its key, if it is valid. -/
def LeaseSetFits (crypto : Crypto) (ambient : Ambient) (db : NetDb) (ident : IdentHash)
    (data : List UInt8) : Prop :=
  match db.findLeaseSet ident with
  | some l => (l.update crypto ambient data).isValid →
    ∀ h, dataIdent crypto data = some h → h = ident
  | none => (LeaseSet.ofBuffer crypto ambient data).isValid → dataIdent crypto data = some ident

theorem KeyInvariant.assignLeaseSet (h : KeyInvariant db) {l : LeaseSet}
    (hl : l.getIdentHash = ident) :
    KeyInvariant { db with leaseSets := AssocMap.assign hashKey db.leaseSets ident l } where
  routerInfos := h.routerInfos
  leaseSets e he := by
    obtain rfl | ⟨he, -⟩ := (AssocMap.mem_assign_iff hashKey_injective).mp he
    · exact hl
    · exact h.leaseSets e he
  lt_next := h.lt_next

theorem KeyInvariant.filterLeaseSets (h : KeyInvariant db) (keep : IdentHash × LeaseSet → Bool) :
    KeyInvariant { db with leaseSets := db.leaseSets.filter keep } where
  routerInfos := h.routerInfos
  leaseSets e he := h.leaseSets e (List.mem_of_mem_filter he)
  lt_next := h.lt_next

theorem keyInvariant_addLeaseSet {crypto : Crypto} (h : KeyInvariant db)
    (canAsk : IdentHash → Bool) {hasTunnel : Bool}
    (hfits : hasTunnel = false → LeaseSetFits crypto ambient db ident data) :
    KeyInvariant (db.addLeaseSet crypto ambient canAsk ident data hasTunnel) := by
  have hgateways (leases : List Lease) : KeyInvariant (db.requestGateways canAsk leases) := by
    obtain ⟨requested, heq⟩ := db.exists_requestGateways canAsk leases
    rw [heq]
    exact ⟨h.routerInfos, h.leaseSets, h.lt_next⟩
  unfold addLeaseSet
  split
  · exact h
  next htunnel =>
    have hfits := hfits (by simpa using htunnel)
    unfold LeaseSetFits at hfits
    split
    next l hfind =>
      rw [hfind] at hfits
      dsimp only
      split
      next hvalid =>
        refine (hgateways _).assignLeaseSet ?_
        rw [LeaseSet.update_identHash]
        cases hdata : dataIdent crypto data with
        | none => exact h.leaseSets _ (AssocMap.mem_of_find hfind)
        | some hash => exact hfits hvalid hash hdata
      · exact (hgateways _).filterLeaseSets _
    next hfind =>
      rw [hfind] at hfits
      dsimp only
      split
      next hvalid =>
        refine (hgateways _).assignLeaseSet ?_
        rw [LeaseSet.ofBuffer_identHash, hfits hvalid]
        rfl
      · exact hgateways _

/-! ## Saving and loading -/

theorem keyInvariant_saveUpdated (h : KeyInvariant db) (save : SaveEnv) :
    KeyInvariant (db.saveUpdated save).1 := by
  have hkeeps := keeps_saveRouters save
    { db, total := UInt64.ofNat db.routerInfos.length } (db.routerInfos.map Prod.snd)
  have hdb : KeyInvariant (saveRouters save { db, total := UInt64.ofNat db.routerInfos.length }
      (db.routerInfos.map Prod.snd)).1.db := by
    constructor
    · intro e he
      rw [hkeeps.routerInfos] at he
      rw [RouterInfo.getIdentHash, hkeeps.identity]
      exact h.routerInfos e he
    · rw [hkeeps.leaseSets]
      exact h.leaseSets
    · rw [hkeeps.routerInfos, hkeeps.next]
      exact h.lt_next
  unfold saveUpdated
  dsimp only
  split
  · exact ⟨fun e he => hdb.routerInfos e (List.mem_of_mem_filter he), hdb.leaseSets,
      fun e he => hdb.lt_next e (List.mem_of_mem_filter he)⟩
  · exact hdb

theorem keyInvariant_loadFile (h : KeyInvariant db) {ts : UInt64} {file : List UInt8} {db' : NetDb}
    (hload : db.loadFile env ambient ts file = .ok db') : KeyInvariant db' := by
  obtain rfl | ⟨info, -, rfl⟩ := loadFile_cases hload
  · exact h
  · have hmem {e : IdentHash × ℕ}
        (he : e ∈ AssocMap.insert hashKey db.routerInfos info.getIdentHash db.next) :
        e = (info.getIdentHash, db.next) ∨ e ∈ db.routerInfos := AssocMap.mem_insert hashKey_injective he
    refine ⟨fun e he => ?_, h.leaseSets, fun e he => ?_⟩
    · obtain rfl | he := hmem he
      · simp
      · have hne : e.2 ≠ db.next := (h.lt_next e he).ne
        simpa [hne] using h.routerInfos e he
    · obtain rfl | he := hmem he
      · exact Nat.lt_succ_self db.next
      · exact (h.lt_next e he).trans (Nat.lt_succ_self db.next)

theorem keyInvariant_load (h : KeyInvariant db) {ts : UInt64}
    {files : List (Ambient × List UInt8)} {db' : NetDb} (hload : db.load env ts files = some db') :
    KeyInvariant db' := by
  refine load_induction (I := KeyInvariant) ?_ (fun hdb hfile => keyInvariant_loadFile hdb hfile) hload
  exact ⟨fun _ he => (by cases he), h.leaseSets, fun _ he => (by cases he)⟩

/-! ## Runs -/

/-- What a call stores belongs to its key. -/
def Fits (env : Env) (gunzip : List UInt8 → Option (List UInt8)) (db : NetDb) : Op → Prop
  | .databaseStore ambient _ msg =>
    match msg.stored gunzip with
    | .nothing => True
    | .routerInfo ident data => RouterInfoFits env ambient db ident data
    | .leaseSet ident data => msg.hasTunnel = false → LeaseSetFits env.crypto ambient db ident data
  | .addRouterInfo ambient ident data => RouterInfoFits env ambient db ident data
  | .addLeaseSet ambient _ ident data hasTunnel =>
    hasTunnel = false → LeaseSetFits env.crypto ambient db ident data
  | _ => True

variable {gunzip : List UInt8 → Option (List UInt8)}

theorem keysSound_step (h : KeyInvariant db) (op : Op) (hfits : Fits env gunzip db op) :
    KeysSound (db.step env gunzip op) := by
  have hsame {db : NetDb} (h : KeyInvariant db) : KeysSound (.returns db []) :=
    ⟨h, fun _ he => by cases he⟩
  cases op with
  | databaseStore ambient canAsk msg =>
    unfold Fits at hfits
    unfold step handleDatabaseStoreMsg
    dsimp only at hfits ⊢
    cases hstored : msg.stored gunzip with
    | nothing => exact hsame h
    | routerInfo ident data =>
      rw [hstored] at hfits
      exact keysSound_addRouterInfo h hfits
    | leaseSet ident data =>
      rw [hstored] at hfits
      exact hsame (keyInvariant_addLeaseSet h canAsk hfits)
  | addRouterInfo ambient ident data => exact keysSound_addRouterInfo h hfits
  | addRouterInfoFromBuffer ambient data => exact keysSound_addRouterInfoFromBuffer h
  | addLeaseSet ambient canAsk ident data hasTunnel =>
    exact hsame (keyInvariant_addLeaseSet h canAsk hfits)
  | saveUpdated save => exact hsame (keyInvariant_saveUpdated h save)
  | load ts files =>
    unfold step
    dsimp only
    split
    next db' hload => exact hsame (keyInvariant_load h hload)
    · trivial
  | manageLeaseSets ts => exact hsame (h.filterLeaseSets _)
  | setUnreachable ident isUnreachable =>
    refine hsame ?_
    unfold setUnreachable
    split
    · exact h.setRouter rfl
    · exact h
  | requestDestination canAsk destination =>
    refine hsame ?_
    unfold requestDestination
    split
    · exact h
    · exact ⟨h.routerInfos, h.leaseSets, h.lt_next⟩
  | dropRequest destination => exact hsame ⟨h.routerInfos, h.leaseSets, h.lt_next⟩

/-- In a run from the empty database in which everything that is stored belongs to its key, router
infos and lease sets stand under their own hashes after every call, and requests are completed with
the router infos they asked for. -/
theorem keys_sound (env : Env) (gunzip : List UInt8 → Option (List UInt8)) (ops : List Op)
    (hfits : Runs.Meets (exec env gunzip) (Allows (Fits env gunzip)) (some {}) ops) :
    Runs.Meets (exec env gunzip) (Ends env gunzip KeysSound) (some {}) ops := by
  have hstep (db : NetDb) (op : Op) (h : KeyInvariant db) (hop : Fits env gunzip db op) :
      KeysSound (db.step env gunzip op) := keysSound_step h op hop
  exact meets_ends_of_invariant hstep (fun db completed h => h.1) keyInvariant_empty hfits

/-- The store of the lease set of destination `1` under a key. -/
def exampleStoreLeaseSet (key : UInt8) : Op :=
  .databaseStore exampleAmbient (fun _ => false)
    (exampleLeaseSetStore (exampleIdent key) (exampleLeaseSet 1 1))

/-- The lease set is stored under its own hash, and a router info is added. -/
theorem keys_sound_ownKey :
    Runs.Meets (exec exampleEnv some) (Ends exampleEnv some KeysSound) (some {})
      [exampleStoreLeaseSet 1, .addRouterInfo exampleAmbient (exampleIdent 3)
        (exampleRouterInfo 3 0 [] 1)] := by
  refine keys_sound exampleEnv some _ ⟨?_, ?_, trivial⟩
  · rintro _ ⟨⟩
    have hstored := stored_exampleLeaseSetStore some
      (show exampleIdent 1 ≠ IdentHash.zero by decide)
      (show (exampleLeaseSet 1 1).length < 65536 by decide +kernel)
    have hdata : dataIdent exampleEnv.crypto (exampleLeaseSet 1 1) = some (exampleIdent 1) := by
      decide +kernel
    simp only [Fits, exampleStoreLeaseSet, hstored]
    exact fun _ _ => hdata
  · intro db hdb
    have hdata : dataIdent exampleEnv.crypto (exampleRouterInfo 3 0 [] 1) = some (exampleIdent 3) := by
      decide +kernel
    exact routerInfoFits_of_dataIdent hdata

/-- A lease set of destination `1` is stored under key `2`. -/
theorem not_keysSound_otherKey :
    ¬ Runs.Meets (exec exampleEnv some) (Ends exampleEnv some KeysSound) (some {})
      [exampleStoreLeaseSet 2] := by
  rintro ⟨h, -⟩
  have hstored := stored_exampleLeaseSetStore some
    (show exampleIdent 2 ≠ IdentHash.zero by decide)
    (show (exampleLeaseSet 1 1).length < 65536 by decide +kernel)
  have hsound : KeysSound (({} : NetDb).step exampleEnv some (exampleStoreLeaseSet 2)) := h {} rfl
  simp only [step, exampleStoreLeaseSet, handleDatabaseStoreMsg, hstored] at hsound
  generalize hdb : ({} : NetDb).addLeaseSet exampleEnv.crypto exampleAmbient (fun _ => false)
    (exampleIdent 2) (exampleLeaseSet 1 1) _ = db at hsound
  have hkeys : db.leaseSets.map (fun e => (e.1, e.2.getIdentHash)) =
      [(exampleIdent 2, exampleIdent 1)] := by
    rw [← hdb]
    decide +kernel
  have hall : ∀ e ∈ db.leaseSets.map (fun e => (e.1, e.2.getIdentHash)), e.2 = e.1 := by
    intro _ hmem
    obtain ⟨e, he, rfl⟩ := List.mem_map.mp hmem
    exact hsound.1.leaseSets e he
  rw [hkeys] at hall
  exact absurd (hall _ (List.mem_singleton_self _)) (by decide)

end NetDb

end Router
