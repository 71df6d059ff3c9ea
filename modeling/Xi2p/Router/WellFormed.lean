import Xi2p.Router.NetDb

/-!
# Objects of the database

What holds of the maps and the list of every database, whatever is stored: a map has every key once,
and a router info stands under one key only, since every router info that is added is a new object.

* `NetDb.wellFormed_step`: every call keeps this.
-/

namespace Router

open Bytes I2NP Identity

namespace NetDb

/-- Keys and objects are distinct, and all objects have been created. -/
structure WellFormed (db : NetDb) : Prop where
  routerInfos : AssocMap.Distinct db.routerInfos
  leaseSets : AssocMap.Distinct db.leaseSets
  nodup : (db.routerInfos.map Prod.snd).Nodup
  lt_next : ∀ e ∈ db.routerInfos, e.2 < db.next
  floodfills_lt : ∀ r ∈ db.floodfills, r < db.next

variable {env : Env} {ambient : Ambient} {db db' : NetDb} {ident : IdentHash} {data : List UInt8}

theorem wellFormed_empty : WellFormed {} where
  routerInfos := List.nodup_nil
  leaseSets := List.nodup_nil
  nodup := List.nodup_nil
  lt_next _ h := by cases h
  floodfills_lt _ h := by cases h

/-- The database that a call leaves is well formed, if it returns. -/
def LeavesWellFormed : Result → Prop
  | .returns db _ => WellFormed db
  | .hangs => True

theorem WellFormed.setRouter (h : WellFormed db) (r : ℕ) (info : RouterInfo) :
    WellFormed (db.setRouter r info) := ⟨h.1, h.2, h.3, h.4, h.5⟩

theorem WellFormed.requestComplete (h : WellFormed db) (ident : IdentHash) (r : ℕ) :
    LeavesWellFormed (db.requestComplete ident r) := by
  unfold NetDb.requestComplete
  split
  · exact ⟨h.1, h.2, h.3, h.4, h.5⟩
  · exact h

theorem WellFormed.result (h : WellFormed db) (e : Failure) : LeavesWellFormed (e.result db) := by
  unfold Failure.result
  split
  · trivial
  · exact h

/-- A new router info is put into the map and into the list of floodfills. -/
theorem WellFormed.addObject (h : WellFormed db) {info : RouterInfo} {isFloodfill : Bool}
    {routerInfos : List (IdentHash × ℕ)} (hdistinct : AssocMap.Distinct routerInfos)
    (hnodup : (routerInfos.map Prod.snd).Nodup)
    (hmem : ∀ e ∈ routerInfos, e.2 = db.next ∨ e ∈ db.routerInfos) :
    WellFormed { db with
      routers := Function.update db.routers db.next info
      next := db.next + 1
      routerInfos
      floodfills := if isFloodfill then db.floodfills ++ [db.next] else db.floodfills } where
  routerInfos := hdistinct
  leaseSets := h.leaseSets
  nodup := hnodup
  lt_next e he := by
    obtain heq | he := hmem e he
    · exact heq ▸ Nat.lt_succ_self db.next
    · exact (h.lt_next e he).trans (Nat.lt_succ_self db.next)
  floodfills_lt r hr := by
    have hold (hr : r ∈ db.floodfills) : r < db.next + 1 :=
      (h.floodfills_lt r hr).trans (Nat.lt_succ_self db.next)
    dsimp only at hr
    split at hr
    · obtain hr | hr := List.mem_append.mp hr
      · exact hold hr
      · exact List.mem_singleton.mp hr ▸ Nat.lt_succ_self db.next
    · exact hold hr

theorem WellFormed.ne_next (h : WellFormed db) : ∀ e ∈ db.routerInfos, e.2 ≠ db.next :=
  fun e he => (h.lt_next e he).ne

theorem WellFormed.addNewRouter (h : WellFormed db) (info : RouterInfo) :
    WellFormed (db.addNewRouter info) := by
  refine h.addObject (h.routerInfos.assign hashKey_injective _ _)
    (AssocMap.nodup_snd_assign hashKey_injective h.nodup h.ne_next) fun e he => ?_
  exact ((AssocMap.mem_assign_iff hashKey_injective).mp he).imp (congrArg Prod.snd) And.left

theorem WellFormed.addRouterInfo (h : WellFormed db) :
    LeavesWellFormed (db.addRouterInfo env ambient ident data) := by
  unfold NetDb.addRouterInfo
  split
  · split
    · exact (h.setRouter _ _).result _
    · exact (h.setRouter _ _).requestComplete _ _
  · split
    · exact h.result _
    · exact (h.addNewRouter _).requestComplete _ _

theorem WellFormed.addLeaseSet (h : WellFormed db) {crypto : Crypto} (canAsk : IdentHash → Bool)
    (hasTunnel : Bool) :
    WellFormed (db.addLeaseSet crypto ambient canAsk ident data hasTunnel) := by
  have hgateways (leases : List Lease) : WellFormed (db.requestGateways canAsk leases) := by
    obtain ⟨requested, heq⟩ := db.exists_requestGateways canAsk leases
    rw [heq]
    exact ⟨h.1, h.2, h.3, h.4, h.5⟩
  have hassign {db : NetDb} (h : WellFormed db) (l : LeaseSet) :
      WellFormed { db with leaseSets := AssocMap.assign hashKey db.leaseSets ident l } :=
    ⟨h.1, h.leaseSets.assign hashKey_injective _ _, h.3, h.4, h.5⟩
  unfold NetDb.addLeaseSet
  split
  · exact h
  · split
    · dsimp only
      split
      · exact hassign (hgateways _) _
      · have hdb := hgateways
          (LeaseSet.update crypto ambient ‹LeaseSet› data).leases
        exact ⟨hdb.1, hdb.leaseSets.filter _, hdb.3, hdb.4, hdb.5⟩
    · dsimp only
      split
      · exact hassign (hgateways _) _
      · exact hgateways _

theorem WellFormed.saveUpdated (h : WellFormed db) (save : SaveEnv) :
    WellFormed (db.saveUpdated save).1 := by
  have hkeeps := keeps_saveRouters save
    { db, total := UInt64.ofNat db.routerInfos.length } (db.routerInfos.map Prod.snd)
  unfold NetDb.saveUpdated
  dsimp only
  generalize saveRouters save _ _ = result at hkeeps
  have hdb : WellFormed result.1.db := by
    refine ⟨hkeeps.routerInfos ▸ h.1, hkeeps.leaseSets ▸ h.2, hkeeps.routerInfos ▸ h.3, ?_, ?_⟩
    · rw [hkeeps.routerInfos, hkeeps.next]
      exact h.lt_next
    · rw [hkeeps.next]
      exact fun r hr => h.floodfills_lt r (hkeeps.floodfills.subset hr)
  split
  · exact ⟨hdb.1.filter _, hdb.2, hdb.3.sublist (List.filter_sublist.map _),
      fun e he => hdb.4 e (List.mem_of_mem_filter he), hdb.5⟩
  · exact hdb

theorem WellFormed.loadFile (h : WellFormed db) {ts : UInt64} {file : List UInt8}
    (hload : db.loadFile env ambient ts file = .ok db') : WellFormed db' := by
  obtain rfl | ⟨info, -, rfl⟩ := loadFile_cases hload
  · exact h
  · have hnodup : ((AssocMap.insert hashKey db.routerInfos info.getIdentHash db.next).map
        Prod.snd).Nodup := by
      unfold AssocMap.insert
      split
      · exact h.nodup
      · exact AssocMap.nodup_snd_assign hashKey_injective h.nodup h.ne_next
    refine h.addObject (h.routerInfos.insert hashKey_injective _ _) hnodup fun e he => ?_
    exact (AssocMap.mem_insert hashKey_injective he).imp_left (congrArg Prod.snd)

theorem WellFormed.load (h : WellFormed db) {ts : UInt64} {files : List (Ambient × List UInt8)}
    (hload : db.load env ts files = some db') : WellFormed db' := by
  refine load_induction (I := WellFormed) ?_ (fun hdb hfile => hdb.loadFile hfile) hload
  exact ⟨List.nodup_nil, h.leaseSets, List.nodup_nil, fun _ he => (by cases he),
    fun _ hr => (by cases hr)⟩

/-- Every call keeps keys and objects distinct. -/
theorem wellFormed_step {gunzip : List UInt8 → Option (List UInt8)} (h : WellFormed db) (op : Op) :
    LeavesWellFormed (db.step env gunzip op) := by
  cases op with
  | databaseStore ambient canAsk msg =>
    unfold step handleDatabaseStoreMsg
    dsimp only
    split
    · exact h
    · exact h.addRouterInfo
    · exact h.addLeaseSet canAsk msg.hasTunnel
  | addRouterInfo ambient ident data => exact h.addRouterInfo
  | addRouterInfoFromBuffer ambient data =>
    unfold step addRouterInfoFromBuffer
    dsimp only
    split
    · exact h
    · exact h.addRouterInfo
  | addLeaseSet ambient canAsk ident data hasTunnel => exact h.addLeaseSet canAsk hasTunnel
  | saveUpdated save => exact h.saveUpdated save
  | load ts files =>
    unfold step
    dsimp only
    split
    next db' hload => exact h.load hload
    · trivial
  | manageLeaseSets ts => exact ⟨h.1, h.leaseSets.filter _, h.3, h.4, h.5⟩
  | setUnreachable ident isUnreachable =>
    show WellFormed (db.setUnreachable ident isUnreachable)
    unfold setUnreachable
    split
    · exact h.setRouter _ _
    · exact h
  | requestDestination canAsk destination =>
    show WellFormed (db.requestDestination canAsk destination)
    unfold requestDestination
    split
    · exact h
    · exact ⟨h.1, h.2, h.3, h.4, h.5⟩
  | dropRequest destination => exact ⟨h.1, h.2, h.3, h.4, h.5⟩

end NetDb

end Router
