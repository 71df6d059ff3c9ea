import Mathlib.Data.Finset.Card
import Mathlib.Data.Finset.Max
import Mathlib.Data.Fintype.EquivFin
import Mathlib.Data.List.Perm.Basic
import Mathlib.Data.Set.Finite.Basic
import Mathlib.Tactic

/-!
# In-order reassembly of numbered pieces

A receiver takes numbered pieces in any order and releases them in order. What it has kept is a
finite set of numbers: the pieces below `mex s` form the released prefix and the pieces of
`early s` wait for a gap to close.

* `retain c s k`: keep piece `k` if it closes the gap, or if fewer than `c` pieces wait.
* `retainAll_eq_range_iff`: with a store of `c` waiting pieces, an arrival order of
  `0, …, n - 1` is completely kept iff no piece comes after more than `c` higher-numbered ones.
-/

namespace Reassembly

/-! ## The first gap -/

/-- The least number missing from `s`. -/
def mex (s : Finset ℕ) : ℕ := Nat.find (Infinite.exists_notMem_finset s)

theorem mex_notMem (s : Finset ℕ) : mex s ∉ s := Nat.find_spec (Infinite.exists_notMem_finset s)

theorem mem_of_lt_mex {s : Finset ℕ} {k : ℕ} (h : k < mex s) : k ∈ s := by
  by_contra hk
  exact Nat.find_min (Infinite.exists_notMem_finset s) h hk

theorem mex_le_of_notMem {s : Finset ℕ} {k : ℕ} (h : k ∉ s) : mex s ≤ k := by
  by_contra hlt
  exact h (mem_of_lt_mex (by omega))

/-- `m` is the first gap iff everything below is present and `m` is missing. -/
theorem mex_eq_iff {s : Finset ℕ} {m : ℕ} : mex s = m ↔ (∀ k < m, k ∈ s) ∧ m ∉ s := by
  constructor
  · rintro rfl
    exact ⟨fun k hk => mem_of_lt_mex hk, mex_notMem s⟩
  · rintro ⟨hlow, hm⟩
    refine le_antisymm (mex_le_of_notMem hm) ?_
    by_contra hlt
    exact mex_notMem s (hlow _ (by omega))

@[simp]
theorem mex_empty : mex ∅ = 0 := by
  simp [mex_eq_iff]

@[simp]
theorem mex_range (n : ℕ) : mex (Finset.range n) = n := by
  simp [mex_eq_iff]

theorem mex_eq_zero_iff {s : Finset ℕ} : mex s = 0 ↔ 0 ∉ s := by
  simp [mex_eq_iff]

/-- A piece behind the gap does not move it. -/
theorem mex_insert_of_ne {s : Finset ℕ} {k : ℕ} (h : k ≠ mex s) : mex (insert k s) = mex s := by
  rw [mex_eq_iff]
  refine ⟨fun i hi => Finset.mem_insert_of_mem (mem_of_lt_mex hi), ?_⟩
  rw [Finset.mem_insert]
  rintro (hk | hmem)
  · exact h hk.symm
  · exact mex_notMem s hmem

theorem mex_mono {s t : Finset ℕ} (h : s ⊆ t) : mex s ≤ mex t := by
  by_contra hlt
  exact mex_notMem t (h (mem_of_lt_mex (by omega)))

theorem mex_lt_mex_insert (s : Finset ℕ) : mex s < mex (insert (mex s) s) := by
  have hle : mex s ≤ mex (insert (mex s) s) := mex_mono (Finset.subset_insert _ _)
  refine lt_of_le_of_ne hle fun heq => ?_
  exact mex_notMem (insert (mex s) s) (heq ▸ Finset.mem_insert_self _ _)

/-! ## Waiting pieces -/

/-- The kept pieces behind the first gap. -/
def early (s : Finset ℕ) : Finset ℕ := s.filter (mex s < ·)

theorem mem_early {s : Finset ℕ} {k : ℕ} : k ∈ early s ↔ k ∈ s ∧ mex s < k := by
  simp [early]

@[simp]
theorem early_range (n : ℕ) : early (Finset.range n) = ∅ := by
  ext k
  simp only [mem_early, Finset.mem_range, mex_range, Finset.notMem_empty, iff_false, not_and]
  omega

/-- Every kept piece is released or waits. -/
theorem lt_mex_or_mem_early {s : Finset ℕ} {k : ℕ} (h : k ∈ s) : k < mex s ∨ k ∈ early s := by
  rcases lt_trichotomy k (mex s) with hlt | heq | hgt
  · exact Or.inl hlt
  · exact absurd (heq ▸ h) (mex_notMem s)
  · exact Or.inr (mem_early.mpr ⟨h, hgt⟩)

theorem early_eq_empty_iff {s : Finset ℕ} : early s = ∅ ↔ s = Finset.range (mex s) := by
  constructor
  · intro h
    ext k
    rw [Finset.mem_range]
    refine ⟨fun hk => ?_, mem_of_lt_mex⟩
    rcases lt_mex_or_mem_early hk with hlt | hmem
    · exact hlt
    · simp [h] at hmem
  · intro h
    rw [h, early_range]

/-- A piece behind the gap joins the waiting ones. -/
theorem early_insert_of_ne {s : Finset ℕ} {k : ℕ} (hk : mex s < k) :
    early (insert k s) = insert k (early s) := by
  ext i
  rw [Finset.mem_insert, mem_early, mem_early, mex_insert_of_ne (by omega), Finset.mem_insert]
  constructor
  · rintro ⟨rfl | hi, hlt⟩
    · exact Or.inl rfl
    · exact Or.inr ⟨hi, hlt⟩
  · rintro (rfl | ⟨hi, hlt⟩)
    · exact ⟨Or.inl rfl, hk⟩
    · exact ⟨Or.inr hi, hlt⟩

/-- Closing the gap only releases waiting pieces. -/
theorem early_insert_mex_subset (s : Finset ℕ) : early (insert (mex s) s) ⊆ early s := by
  intro i hi
  rw [mem_early, Finset.mem_insert] at hi
  have hlt := mex_lt_mex_insert s
  obtain ⟨rfl | hmem, hgt⟩ := hi
  · omega
  · exact mem_early.mpr ⟨hmem, by omega⟩

/-! ## A bounded store -/

/-- One arrival at a receiver whose store holds at most `c` waiting pieces. -/
def retain (c : ℕ) (s : Finset ℕ) (k : ℕ) : Finset ℕ :=
  if k = mex s ∨ (early s).card < c then insert k s else s

/-- The pieces kept after a list of arrivals. -/
def retainAll (c : ℕ) (s : Finset ℕ) (ks : List ℕ) : Finset ℕ := ks.foldl (retain c) s

theorem retain_subset (c : ℕ) (s : Finset ℕ) (k : ℕ) : retain c s k ⊆ insert k s := by
  unfold retain
  split
  · exact Finset.Subset.refl _
  · exact Finset.subset_insert _ _

theorem subset_retain (c : ℕ) (s : Finset ℕ) (k : ℕ) : s ⊆ retain c s k := by
  unfold retain
  split
  · exact Finset.subset_insert _ _
  · exact Finset.Subset.refl _

/-- The store never overflows. -/
theorem card_early_retain {c : ℕ} {s : Finset ℕ} (k : ℕ) (h : (early s).card ≤ c) :
    (early (retain c s k)).card ≤ c := by
  unfold retain
  split
  case isFalse => exact h
  case isTrue hk =>
    rcases lt_trichotomy k (mex s) with hlt | rfl | hgt
    · rwa [Finset.insert_eq_of_mem (mem_of_lt_mex hlt)]
    · exact (Finset.card_le_card (early_insert_mex_subset s)).trans h
    · have hcard : (early s).card < c := by
        rcases hk with rfl | hk
        · omega
        · exact hk
      rw [early_insert_of_ne hgt]
      exact (Finset.card_insert_le _ _).trans hcard

theorem card_early_retainAll {c : ℕ} (ks : List ℕ) {s : Finset ℕ} (h : (early s).card ≤ c) :
    (early (retainAll c s ks)).card ≤ c := by
  induction ks generalizing s with
  | nil => exact h
  | cons k ks ih => exact ih (card_early_retain k h)

theorem retainAll_subset (c : ℕ) (ks : List ℕ) (s : Finset ℕ) :
    retainAll c s ks ⊆ s ∪ ks.toFinset := by
  induction ks generalizing s with
  | nil => simp [retainAll]
  | cons k ks ih =>
    intro i hi
    have hmem := ih (retain c s k) hi
    rw [Finset.mem_union, List.mem_toFinset] at hmem
    rw [Finset.mem_union, List.mem_toFinset, List.mem_cons]
    rcases hmem with hret | htail
    · rcases Finset.mem_insert.mp (retain_subset c s k hret) with rfl | hs
      · exact Or.inr (Or.inl rfl)
      · exact Or.inl hs
    · exact Or.inr (Or.inr htail)

theorem retainAll_append (c : ℕ) (s : Finset ℕ) (ks ls : List ℕ) :
    retainAll c s (ks ++ ls) = retainAll c (retainAll c s ks) ls := by
  simp [retainAll, List.foldl_append]

/-! ## Which arrival orders are kept completely -/

/-- In the arrival order `ks`, piece `x` comes after the pieces `pre`; at most `c` of these have a
higher number. -/
def LateByAtMost (c : ℕ) (ks : List ℕ) : Prop :=
  ∀ pre x post, ks = pre ++ x :: post → (pre.filter (x < ·)).length ≤ c

/-- Nothing has been lost of a prefix of an order that is kept completely. -/
theorem retainAll_eq_of_append {c : ℕ} {pre post : List ℕ} (hnodup : (pre ++ post).Nodup)
    (h : retainAll c ∅ (pre ++ post) = (pre ++ post).toFinset) :
    retainAll c ∅ pre = pre.toFinset := by
  refine Finset.Subset.antisymm (by simpa using retainAll_subset c pre ∅) ?_
  intro i hi
  have hmem : i ∈ retainAll c (retainAll c ∅ pre) post := by
    rw [← retainAll_append, h]
    simpa using Or.inl (List.mem_toFinset.mp hi)
  have hpre : i ∈ pre := List.mem_toFinset.mp hi
  rcases Finset.mem_union.mp (retainAll_subset c post _ hmem) with hret | hpost
  · exact hret
  · have hdisj := List.disjoint_of_nodup_append hnodup
    exact absurd (List.mem_toFinset.mp hpost) (hdisj hpre)

/-- The higher-numbered pieces of a completely kept prefix wait for `x`. -/
theorem length_filter_le_card_early {c : ℕ} {pre : List ℕ} {x : ℕ} (hnodup : pre.Nodup)
    (hx : x ∉ pre) (h : retainAll c ∅ pre = pre.toFinset) :
    (pre.filter (x < ·)).length ≤ (early (retainAll c ∅ pre)).card := by
  have hcard : (pre.filter (x < ·)).toFinset.card = (pre.filter (x < ·)).length :=
    List.toFinset_card_of_nodup (hnodup.filter _)
  rw [← hcard]
  refine Finset.card_le_card fun i hi => ?_
  rw [List.mem_toFinset, List.mem_filter, decide_eq_true_eq] at hi
  have hgap : mex (retainAll c ∅ pre) ≤ x := mex_le_of_notMem (by simpa [h] using hx)
  rw [mem_early]
  exact ⟨by simpa [h] using hi.1, by omega⟩

/-- An arrival order of `0, …, n - 1` is kept completely by a store of `c` waiting pieces iff no
piece arrives after more than `c` higher-numbered ones. -/
theorem retainAll_eq_range_iff {c n : ℕ} {ks : List ℕ} (hperm : ks.Perm (List.range n)) :
    retainAll c ∅ ks = Finset.range n ↔ LateByAtMost c ks := by
  have hnodup : ks.Nodup := hperm.nodup_iff.mpr List.nodup_range
  have hset : ks.toFinset = Finset.range n := by
    ext i
    simp [hperm.mem_iff]
  constructor
  · rintro h pre x post rfl
    have hpre := retainAll_eq_of_append hnodup (by rw [h, hset])
    have hx : x ∉ pre := by
      intro hmem
      exact List.disjoint_of_nodup_append hnodup hmem (by simp)
    have hle := length_filter_le_card_early (List.nodup_append.mp hnodup).1 hx hpre
    exact hle.trans (card_early_retainAll pre (by simp [early]))
  · intro hlate
    -- The induction is on the prefix that has arrived: nothing of it has been lost.
    suffices hall : ∀ pre post, ks = pre ++ post → retainAll c ∅ pre = pre.toFinset by
      rw [hall ks [] (by simp), hset]
    intro pre
    induction pre using List.reverseRecOn with
    | nil => simp [retainAll]
    | append_singleton pre x ih =>
      intro post hks
      have hih := ih (x :: post) (by simpa using hks)
      rw [hks] at hnodup
      have hpre : pre.Nodup := (List.nodup_append.mp (List.nodup_append.mp hnodup).1).1
      have hx : x ∉ pre := by
        intro hmem
        exact List.disjoint_of_nodup_append (List.nodup_append.mp hnodup).1 hmem (by simp)
      have hkeep : retain c (retainAll c ∅ pre) x = insert x (retainAll c ∅ pre) := by
        rw [retain, if_pos]
        by_contra hno
        push Not at hno
        obtain ⟨hne, hfull⟩ := hno
        set m := mex (retainAll c ∅ pre) with hm
        have hmx : m < x := lt_of_le_of_ne (mex_le_of_notMem (by simpa [hih] using hx)) hne.symm
        have hmpre : m ∉ pre := by
          have hgap : m ∉ retainAll c ∅ pre := mex_notMem _
          rwa [hih, List.mem_toFinset] at hgap
        -- The gap `m` is still to come, behind `x` and behind every waiting piece.
        have hmks : m ∈ ks := by
          have hxn : x ∈ ks := by simp [hks]
          rw [hperm.mem_iff, List.mem_range] at hxn ⊢
          omega
        have hmpost : m ∈ post := by
          rw [hks] at hmks
          simp only [List.mem_append, List.mem_singleton] at hmks
          rcases hmks with (h | h) | h
          · exact absurd h hmpre
          · omega
          · exact h
        obtain ⟨before, after, rfl⟩ := List.append_of_mem hmpost
        have hbound := hlate (pre ++ [x] ++ before) m after (by rw [hks]; simp)
        have hwait : (early (retainAll c ∅ pre)).card ≤ (pre.filter (m < ·)).length := by
          rw [← List.toFinset_card_of_nodup (hpre.filter _)]
          refine Finset.card_le_card fun i hi => ?_
          rw [mem_early] at hi
          rw [List.mem_toFinset, List.mem_filter, decide_eq_true_eq]
          exact ⟨by simpa [hih] using hi.1, hi.2⟩
        rw [List.filter_append, List.filter_append, List.length_append, List.length_append] at hbound
        have hone : ([x].filter (m < ·)).length = 1 := by simp [hmx]
        omega
      rw [retainAll_append]
      change retain c (retainAll c ∅ pre) x = _
      rw [hkeep, hih]
      ext i
      simp

/-- In-order arrivals never need the store. -/
theorem retainAll_range (c n : ℕ) : retainAll c ∅ (List.range n) = Finset.range n := by
  rw [retainAll_eq_range_iff (List.Perm.refl _)]
  intro pre x post h
  have hnone : pre.filter (x < ·) = [] := by
    rw [List.filter_eq_nil_iff]
    intro i hi
    have hsorted : (pre ++ x :: post).Pairwise (· < ·) := h ▸ List.pairwise_lt_range
    have hlt : i < x := (List.pairwise_append.mp hsorted).2.2 i hi x (by simp)
    simp only [decide_eq_true_eq]
    omega
  simp [hnone]

/-! ## A store of one piece -/

/-- Closing the gap also releases the waiting piece if it is the next one. -/
theorem mex_early_insert_mex_of_next {s : Finset ℕ} (h : early s = {mex s + 1}) :
    mex (insert (mex s) s) = mex s + 2 ∧ early (insert (mex s) s) = ∅ := by
  have hnext : mex s + 1 ∈ s := (mem_early.mp (h ▸ Finset.mem_singleton_self _)).1
  have hmex : mex (insert (mex s) s) = mex s + 2 := by
    rw [mex_eq_iff]
    refine ⟨fun k hk => ?_, fun hmem => ?_⟩
    · rcases lt_trichotomy k (mex s) with hlt | heq | hgt
      · exact Finset.mem_insert_of_mem (mem_of_lt_mex hlt)
      · exact heq ▸ Finset.mem_insert_self _ _
      · exact Finset.mem_insert_of_mem ((show k = mex s + 1 by omega) ▸ hnext)
    · rcases Finset.mem_insert.mp hmem with heq | hmem
      · omega
      · have hearly : mex s + 2 ∈ early s := mem_early.mpr ⟨hmem, by omega⟩
        rw [h, Finset.mem_singleton] at hearly
        omega
  refine ⟨hmex, Finset.eq_empty_of_forall_notMem fun k hk => ?_⟩
  have hold := early_insert_mex_subset s hk
  rw [h, Finset.mem_singleton] at hold
  have hlt := (mem_early.mp hk).2
  omega

/-- Closing the gap releases nothing else if the next piece does not wait. -/
theorem mex_early_insert_mex_of_notMem {s : Finset ℕ} (h : mex s + 1 ∉ early s) :
    mex (insert (mex s) s) = mex s + 1 ∧ early (insert (mex s) s) = early s := by
  have hmex : mex (insert (mex s) s) = mex s + 1 := by
    rw [mex_eq_iff]
    refine ⟨fun k hk => ?_, fun hmem => ?_⟩
    · rcases Nat.lt_succ_iff_lt_or_eq.mp hk with hlt | heq
      · exact Finset.mem_insert_of_mem (mem_of_lt_mex hlt)
      · exact heq ▸ Finset.mem_insert_self _ _
    · rcases Finset.mem_insert.mp hmem with heq | hmem
      · omega
      · exact h (mem_early.mpr ⟨hmem, by omega⟩)
  refine ⟨hmex, Finset.Subset.antisymm (early_insert_mex_subset s) fun k hk => ?_⟩
  obtain ⟨hmem, hlt⟩ := mem_early.mp hk
  have hne : k ≠ mex s + 1 := fun heq => h (heq ▸ hk)
  rw [mem_early, hmex]
  exact ⟨Finset.mem_insert_of_mem hmem, by omega⟩

end Reassembly
