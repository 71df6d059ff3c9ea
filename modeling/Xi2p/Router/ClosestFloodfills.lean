import Xi2p.Lib.CBC
import Xi2p.Lib.LeastElements
import Xi2p.Router.Asking

/-!
# The closest floodfills

`GetClosestFloodfills` takes the closest reachable floodfills and leaves out the excluded ones of these;
`GetClosestFloodfill` leaves out the excluded ones first.

* `getClosestFloodfills_eq`: the loop with the bounded set is a sort.
* `selectsClosest_iff`: when the closest ones of those that are not excluded are returned.
-/

namespace Router

open Bytes I2NP KeyedSet

namespace NetDb

/-! ## The metric -/

/-- The distance of a router from a key. -/
def distance (db : NetDb) (destKey : IdentHash) (r : ℕ) : ℕ :=
  metric destKey (db.routers r).getIdentHash

/-- Hashes at the same distance are the same. -/
theorem metric_injective (destKey : IdentHash) : Function.Injective (metric destKey) := by
  intro a b h
  have hlength : ∀ c : IdentHash, (List.zipWith (· ^^^ ·) destKey.bytes c.bytes).length = 32 := by
    intro c
    rw [List.length_zipWith, destKey.length_eq, c.length_eq, Nat.min_self]
  have hbytes : List.zipWith (· ^^^ ·) destKey.bytes a.bytes = List.zipWith (· ^^^ ·) destKey.bytes b.bytes := by
    calc _ = writeBE 32 (metric destKey a) := by rw [metric, ← hlength a, writeBE_readBE]
      _ = writeBE 32 (metric destKey b) := by rw [h]
      _ = _ := by rw [metric, ← hlength b, writeBE_readBE]
  have hcancel : ∀ c : IdentHash,
      List.zipWith (· ^^^ ·) (List.zipWith (· ^^^ ·) destKey.bytes c.bytes) destKey.bytes = c.bytes :=
    fun c => CBC.Block.zipWith_xor_cancel (destKey.length_eq.trans c.length_eq.symm)
  apply IdentHash.ext
  rw [← hcancel a, hbytes, hcancel b]

/-! ## The choice -/

/-- The reachable floodfills. -/
def reachableFloodfills (db : NetDb) : List ℕ :=
  db.floodfills.filter fun r => !(db.routers r).isUnreachable

/-- The reachable floodfills that are not excluded. -/
def candidates (db : NetDb) (excluded : List IdentHash) : List ℕ :=
  db.reachableFloodfills.filter fun r => (db.routers r).getIdentHash ∉ excluded

theorem mem_candidates {db : NetDb} {excluded : List IdentHash} {r : ℕ} :
    r ∈ db.candidates excluded ↔ r ∈ db.floodfills ∧ Asking.Candidate db excluded r := by
  simp [candidates, reachableFloodfills, Asking.Candidate, and_comm]

/-- The hashes of the floodfills are distinct. -/
def DistinctFloodfills (db : NetDb) : Prop :=
  (db.floodfills.map fun r => (db.routers r).getIdentHash).Nodup

theorem DistinctFloodfills.nodup {db : NetDb} (h : db.DistinctFloodfills) (destKey : IdentHash) :
    (db.floodfills.map (db.distance destKey)).Nodup := by
  have hmap : db.floodfills.map (db.distance destKey) =
      (db.floodfills.map fun r => (db.routers r).getIdentHash).map (metric destKey) := by
    rw [List.map_map]
    rfl
  rw [hmap]
  exact h.map (metric_injective destKey)

/-- The loop of `GetClosestFloodfills` sorts the reachable floodfills. -/
theorem sortFloodfills_eq {db : NetDb} (h : db.DistinctFloodfills) (destKey : IdentHash) {num : ℕ}
    (hnum : 1 ≤ num) :
    db.sortFloodfills destKey num = (sort (db.distance destKey) db.reachableFloodfills).take num := by
  have hloop : db.sortFloodfills destKey num =
      db.reachableFloodfills.foldl (keepLeast (db.distance destKey) num) [] := by
    rw [reachableFloodfills, List.foldl_filter]
    refine List.foldl_ext _ _ _ fun sorted r _ => ?_
    cases (db.routers r).isUnreachable <;> rfl
  rw [hloop]
  exact foldl_keepLeast hnum ((List.filter_sublist.map _).nodup (h.nodup destKey))

theorem getClosestFloodfills_eq {db : NetDb} (h : db.DistinctFloodfills) (destKey : IdentHash) {num : ℕ}
    (hnum : 1 ≤ num) (excluded : List IdentHash) :
    db.getClosestFloodfills destKey num excluded =
      ((sort (db.distance destKey) db.reachableFloodfills).take num).filter fun r =>
        (db.routers r).getIdentHash ∉ excluded := by
  rw [getClosestFloodfills, sortFloodfills_eq h destKey hnum]
  refine List.take_of_length_le ?_
  exact (List.length_filter_le _ _).trans (List.length_take_le _ _)

/-- `GetClosestFloodfills` returns the closest ones of the reachable floodfills that are not excluded, in increasing
distance. The first one is that of `GetClosestFloodfill`. -/
structure SelectsClosest (db : NetDb) (destKey : IdentHash) (num : ℕ) (excluded : List IdentHash) : Prop where
  least : Least (db.distance destKey) num (db.candidates excluded)
    (db.getClosestFloodfills destKey num excluded)
  head : ∀ r, db.getClosestFloodfill destKey excluded = some r →
    (db.getClosestFloodfills destKey num excluded).head? = some r

/-- The first one of the closest floodfills is that of `GetClosestFloodfill`. -/
theorem head?_of_least {db : NetDb} {destKey : IdentHash} {num : ℕ} (hnum : 1 ≤ num)
    {excluded : List IdentHash} {rs : List ℕ}
    (hleast : Least (db.distance destKey) num (db.candidates excluded) rs) {r : ℕ}
    (h : db.getClosestFloodfill destKey excluded = some r) : rs.head? = some r := by
  obtain ⟨hmem, hcandidate, hle⟩ := Asking.isClosest_of_getClosestFloodfill h
  have hcandidate : r ∈ db.candidates excluded := mem_candidates.mpr ⟨hmem, hcandidate⟩
  cases rs with
  | nil =>
    have hempty := hleast.length_eq
    have hpos := List.length_pos_of_mem hcandidate
    rw [List.length_nil] at hempty
    omega
  | cons first rest =>
    obtain ⟨hfloodfill, hfirst⟩ := mem_candidates.mp (hleast.subset first List.mem_cons_self)
    have hrle : db.distance destKey r ≤ db.distance destKey first := hle first hfloodfill hfirst
    have hlist : ∀ x ∈ rest, db.distance destKey first < db.distance destKey x :=
      (List.pairwise_cons.mp hleast.sorted).1
    -- what is not at the head is further away than the head
    by_cases hr : r ∈ first :: rest
    · rcases List.mem_cons.mp hr with rfl | hr
      · rfl
      · exact absurd (hlist r hr) (not_lt.mpr hrle)
    · exact absurd (hleast.least first List.mem_cons_self r hcandidate hr) (not_lt.mpr hrle)

/-- The closest floodfills that are not excluded are returned exactly if none of the closest floodfills is excluded, or
all that are not excluded are among the closest ones. -/
theorem selectsClosest_iff {db : NetDb} (hdistinct : db.DistinctFloodfills) (destKey : IdentHash) {num : ℕ}
    (hnum : 1 ≤ num) (excluded : List IdentHash) :
    db.SelectsClosest destKey num excluded ↔
      (∀ r ∈ db.reachableFloodfills, rank (db.distance destKey) db.reachableFloodfills r < num →
        (db.routers r).getIdentHash ∉ excluded) ∨
      ∀ r ∈ db.candidates excluded, rank (db.distance destKey) db.reachableFloodfills r < num := by
  have hreachable : (db.reachableFloodfills.map (db.distance destKey)).Nodup :=
    (List.filter_sublist.map _).nodup (hdistinct.nodup destKey)
  have hleast : Least (db.distance destKey) num (db.candidates excluded)
      (db.getClosestFloodfills destKey num excluded) ↔
        (∀ r ∈ db.reachableFloodfills, rank (db.distance destKey) db.reachableFloodfills r < num →
          (db.routers r).getIdentHash ∉ excluded) ∨
        ∀ r ∈ db.candidates excluded, rank (db.distance destKey) db.reachableFloodfills r < num := by
    rw [getClosestFloodfills_eq hdistinct destKey hnum, candidates, least_filter_iff hreachable]
    simp only [decide_eq_true_eq, List.mem_filter, and_imp]
  rw [← hleast]
  exact ⟨fun h => h.least, fun h => ⟨h, fun r hr => head?_of_least hnum h hr⟩⟩

/-- Two floodfills; the first has hash zero. -/
def twoFloodfills : NetDb where
  routers r := if r = 1 then { identity := { identHash := exampleIdent 1 } } else {}
  floodfills := [0, 1]

theorem selectsClosest_twoFloodfills :
    twoFloodfills.SelectsClosest IdentHash.zero 1 [exampleIdent 1] :=
  (selectsClosest_iff (by unfold DistinctFloodfills; decide +kernel) IdentHash.zero le_rfl [exampleIdent 1]).mpr
    (.inl (by decide +kernel))

/-- The closest floodfill is excluded, and nothing is returned instead of the other one. -/
theorem not_selectsClosest_twoFloodfills : ∃ (db : NetDb) (destKey : IdentHash) (num : ℕ)
    (excluded : List IdentHash), db.DistinctFloodfills ∧ 1 ≤ num ∧ ¬ db.SelectsClosest destKey num excluded := by
  have hdistinct : twoFloodfills.DistinctFloodfills := by
    unfold DistinctFloodfills
    decide +kernel
  refine ⟨twoFloodfills, IdentHash.zero, 1, [IdentHash.zero], hdistinct, le_rfl, ?_⟩
  intro h
  have hlength := h.least.length_eq
  revert hlength
  decide +kernel

end NetDb

end Router
