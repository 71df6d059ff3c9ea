import Xi2p.Lib.KeyedSet

/-!
# The elements with the least keys

A loop may keep the `n` elements with the least keys of those that it has seen in an ordered set, and throw out the
last one when there is a better one. It ends with the first `n` elements of the sorted list.

## Main results

* `foldl_keepLeast`: what the loop ends with, if the keys are distinct;
* `least_iff`: the first `n` elements of the sorted list are the only list of the `n` elements with the least keys in
  increasing order;
* `least_filter_iff`: when a condition may be checked after the choice.
-/

namespace KeyedSet

variable {α κ : Type} [LinearOrder κ] {key : α → κ}

/-! ## Sorting -/

/-- The elements in increasing order of keys. -/
def sort (key : α → κ) (xs : List α) : List α := xs.foldl (fun sorted x => insert key x sorted) []

/-- The keys of the elements of a set and of those that are still to be inserted stay distinct. -/
theorem nodup_insert {x : α} {xs sorted : List α} (h : ((sorted ++ x :: xs).map key).Nodup) :
    key x ∉ sorted.map key ∧ ((insert key x sorted ++ xs).map key).Nodup := by
  have hmoved : (sorted ++ x :: xs).Perm (x :: sorted ++ xs) := List.perm_middle
  have hnodup : ((x :: sorted ++ xs).map key).Nodup := (hmoved.map key).nodup_iff.mp h
  have hnew : key x ∉ sorted.map key := by
    intro hmem
    obtain ⟨y, hy, heq⟩ := List.mem_map.mp hmem
    have hother : key x ∈ (sorted ++ xs).map key :=
      List.mem_map.mpr ⟨y, List.mem_append_left _ hy, heq⟩
    exact (List.nodup_cons.mp hnodup).1 hother
  have hinsert : (insert key x sorted ++ xs).Perm (x :: sorted ++ xs) := (insert_perm hnew).append_right xs
  exact ⟨hnew, (hinsert.map key).nodup_iff.mpr hnodup⟩

/-- Elements that are inserted one after the other are all there, if their keys are new and distinct. -/
theorem foldl_insert_perm {xs sorted : List α} (h : ((sorted ++ xs).map key).Nodup) :
    (xs.foldl (fun sorted x => insert key x sorted) sorted).Perm (sorted ++ xs) := by
  induction xs generalizing sorted with
  | nil => simp
  | cons x xs ih =>
    obtain ⟨hnew, hnext⟩ := nodup_insert h
    exact (ih hnext).trans (((insert_perm hnew).append_right xs).trans List.perm_middle.symm)

theorem sort_perm {xs : List α} (h : (xs.map key).Nodup) : (sort key xs).Perm xs :=
  foldl_insert_perm h

theorem sorted_sort (xs : List α) : Sorted key (sort key xs) := by
  have hloop : ∀ xs sorted : List α, Sorted key sorted →
      Sorted key (xs.foldl (fun sorted x => insert key x sorted) sorted) := by
    intro xs
    induction xs with
    | nil => exact fun _ h => h
    | cons x xs ih => exact fun sorted h => ih _ h.insert
  exact hloop xs [] List.Pairwise.nil

/-- There is one sorted list of some elements. -/
theorem Sorted.eq_of_perm {xs ys : List α} (hxs : Sorted key xs) (hys : Sorted key ys)
    (h : xs.Perm ys) : xs = ys :=
  h.eq_of_pairwise (fun _ _ _ _ hlt hgt => absurd hgt hlt.asymm) hxs hys

/-- The order of the elements that a filter keeps does not depend on the others. -/
theorem sort_filter {xs : List α} (h : (xs.map key).Nodup) (p : α → Bool) :
    sort key (xs.filter p) = (sort key xs).filter p := by
  have hkept : ((xs.filter p).map key).Nodup := (List.filter_sublist.map key).nodup h
  have hfiltered : Sorted key ((sort key xs).filter p) := List.Pairwise.filter p (sorted_sort xs)
  exact (sorted_sort _).eq_of_perm hfiltered ((sort_perm hkept).trans ((sort_perm h).filter p).symm)

/-! ## A bounded set -/

/-- The first elements after an insertion depend on the first elements before. -/
theorem take_insert_take (x : α) (n : ℕ) (xs : List α) :
    (insert key x (xs.take n)).take n = (insert key x xs).take n := by
  induction xs generalizing n with
  | nil => rw [List.take_nil]
  | cons y ys ih =>
    cases n with
    | zero => rfl
    | succ n =>
      rw [List.take_succ_cons, insert, insert]
      split
      · rw [List.take_succ_cons, List.take_succ_cons]
        cases n with
        | zero => rfl
        | succ n => rw [List.take_succ_cons, List.take_succ_cons, List.take_take, Nat.min_eq_left n.le_succ]
      · split
        · rw [List.take_succ_cons, List.take_succ_cons, ih n]
        · rw [List.take_succ_cons, List.take_succ_cons, List.take_take, Nat.min_self]

/-- One round of the loop: an element is inserted while there is room, and then in place of the last one if it is
better. -/
def keepLeast (key : α → κ) (n : ℕ) (sorted : List α) (x : α) : List α :=
  if sorted.length < n then insert key x sorted
  else if sorted.getLast?.any (key x < key ·) then (insert key x sorted).dropLast
  else sorted

/-- A round leaves the first `n` elements of the set with the element. -/
theorem keepLeast_eq {n : ℕ} {x : α} {sorted : List α} (hn : 1 ≤ n) (hsorted : Sorted key sorted)
    (hlength : sorted.length ≤ n) (hnew : key x ∉ sorted.map key) :
    keepLeast key n sorted x = (insert key x sorted).take n := by
  have hinserted : (insert key x sorted).length = sorted.length + 1 := (insert_perm hnew).length_eq
  rw [keepLeast]
  split
  next hroom => exact (List.take_of_length_le (by omega)).symm
  next hfull =>
    obtain ⟨y, hy⟩ : ∃ y, sorted.getLast? = some y := by
      refine ⟨_, List.getLast?_eq_some_getLast ?_⟩
      rintro rfl
      exact hfull hn
    rw [hy, Option.any_some]
    split
    next => rw [List.dropLast_eq_take, hinserted, show sorted.length + 1 - 1 = n by omega]
    next hworse =>
      -- the keys increase, so an element that is not better than the last one comes behind it
      obtain ⟨before, rfl⟩ := List.getLast?_eq_some_iff.mp hy
      have hle : key y ≤ key x := not_lt.mp (by simpa using hworse)
      have hne : key y ≠ key x := fun heq => hnew (heq ▸ List.mem_map_of_mem (by simp))
      have hlast : ∀ z ∈ before ++ [y], key z < key x := by
        intro z hz
        rcases List.mem_append.mp hz with hz | hz
        · exact (((List.pairwise_append.mp hsorted).2.2 z hz y (by simp)).le.trans hle).lt_of_ne
            fun heq => hnew (heq ▸ List.mem_map_of_mem (List.mem_append_left _ hz))
        · obtain rfl := List.mem_singleton.mp hz
          exact hle.lt_of_ne hne
      rw [insert_eq_append hlast, List.take_append_of_le_length (by omega),
        List.take_of_length_le hlength]

/-- The loop ends with the first `n` elements of the sorted list. -/
theorem foldl_keepLeast {n : ℕ} (hn : 1 ≤ n) {xs : List α} (h : (xs.map key).Nodup) :
    xs.foldl (keepLeast key n) [] = (sort key xs).take n := by
  -- the loop has the first elements of the set of all elements that it has seen
  have hloop : ∀ xs sorted : List α, Sorted key sorted → ((sorted ++ xs).map key).Nodup →
      xs.foldl (keepLeast key n) (sorted.take n) =
        (xs.foldl (fun sorted x => insert key x sorted) sorted).take n := by
    intro xs
    induction xs with
    | nil => exact fun _ _ _ => rfl
    | cons x xs ih =>
      intro sorted hsorted hnodup
      obtain ⟨hnew, hnext⟩ := nodup_insert hnodup
      have hround : keepLeast key n (sorted.take n) x = (insert key x sorted).take n := by
        rw [keepLeast_eq hn (List.Pairwise.take hsorted) (List.length_take_le n sorted), take_insert_take]
        intro hmem
        rw [List.map_take] at hmem
        exact hnew (List.mem_of_mem_take hmem)
      rw [List.foldl_cons, hround]
      exact ih _ hsorted.insert hnext
  have hall := hloop xs [] List.Pairwise.nil h
  rwa [List.take_nil] at hall

/-! ## The least elements -/

/-- `ys` are the `n` elements of `xs` with the least keys, in increasing order, or all elements if there are fewer. -/
structure Least (key : α → κ) (n : ℕ) (xs ys : List α) : Prop where
  length_eq : ys.length = min n xs.length
  subset : ∀ y ∈ ys, y ∈ xs
  sorted : Sorted key ys
  least : ∀ y ∈ ys, ∀ x ∈ xs, x ∉ ys → key y < key x

theorem least_take_sort {xs : List α} (h : (xs.map key).Nodup) (n : ℕ) :
    Least key n xs ((sort key xs).take n) where
  length_eq := by rw [List.length_take, (sort_perm h).length_eq]
  subset y hy := (sort_perm h).mem_iff.mp (List.mem_of_mem_take hy)
  sorted := List.Pairwise.take (sorted_sort xs)
  least := by
    intro y hy x hx hnot
    have hx : x ∈ sort key xs := (sort_perm h).mem_iff.mpr hx
    have hsorted : Sorted key ((sort key xs).take n ++ (sort key xs).drop n) := by
      rw [List.take_append_drop]
      exact sorted_sort xs
    rw [← List.take_append_drop n (sort key xs)] at hx
    exact (List.pairwise_append.mp hsorted).2.2 y hy x ((List.mem_append.mp hx).resolve_left hnot)

/-- There is only one list of the least elements. -/
theorem least_iff {xs ys : List α} (h : (xs.map key).Nodup) {n : ℕ} :
    Least key n xs ys ↔ ys = (sort key xs).take n := by
  constructor
  · intro hleast
    have htake : Least key n xs ((sort key xs).take n) := least_take_sort h n
    have hnodup : ys.Nodup := hleast.sorted.imp fun hlt heq => hlt.ne (congrArg key heq)
    have hnodup' : ((sort key xs).take n).Nodup := htake.sorted.imp fun hlt heq => hlt.ne (congrArg key heq)
    have hlength : ys.length = ((sort key xs).take n).length := hleast.length_eq.trans htake.length_eq.symm
    -- an element of one list only would lie both below and above one of the other list only
    have hsubset : ys ⊆ (sort key xs).take n := by
      intro y hy
      by_contra hnot
      obtain ⟨z, hz, hznot⟩ : ∃ z ∈ (sort key xs).take n, z ∉ ys := by
        by_contra hall
        push Not at hall
        have hperm := (hnodup'.subperm hall).perm_of_length_le hlength.le
        exact hnot (hperm.mem_iff.mpr hy)
      have hlt := hleast.least y hy z (htake.subset z hz) hznot
      have hgt := htake.least z hz y (hleast.subset y hy) hnot
      exact hlt.asymm hgt
    exact hleast.sorted.eq_of_perm htake.sorted ((hnodup.subperm hsubset).perm_of_length_le hlength.ge)
  · rintro rfl
    exact least_take_sort h n

/-- A condition that is checked after the first `n` elements have been taken gives the first `n` elements that meet it
if and only if it is met by all that have been taken or by none of the others. -/
theorem filter_take_eq_iff {p : α → Bool} {n : ℕ} {xs : List α} :
    (xs.take n).filter p = (xs.filter p).take n ↔
      (∀ x ∈ xs.take n, p x) ∨ ∀ x ∈ xs.drop n, ¬ p x := by
  have hsplit : xs.filter p = (xs.take n).filter p ++ (xs.drop n).filter p := by
    rw [← List.filter_append, List.take_append_drop]
  have hlength : ((xs.take n).filter p).length ≤ n :=
    (List.length_filter_le _ _).trans (List.length_take_le n xs)
  rw [hsplit, List.take_append, List.take_of_length_le hlength]
  constructor
  · intro h
    have hnone : ((xs.drop n).filter p).take (n - ((xs.take n).filter p).length) = [] :=
      List.append_right_eq_self.mp h.symm
    rcases List.take_eq_nil_iff.mp hnone with hfull | hnil
    · have hkept : ((xs.take n).filter p).length = (xs.take n).length := by
        have hle := List.length_filter_le p (xs.take n)
        have htake := List.length_take_le n xs
        omega
      exact .inl (List.length_filter_eq_length_iff.mp hkept)
    · exact .inr (List.filter_eq_nil_iff.mp hnil)
  · rintro (hall | hnone)
    · rw [List.filter_eq_self.mpr hall, List.length_take]
      rcases le_total n xs.length with hmany | hfew
      · rw [Nat.min_eq_left hmany, Nat.sub_self, List.take_zero, List.append_nil]
      · rw [List.drop_eq_nil_of_le hfew, List.filter_nil, List.take_nil, List.append_nil]
    · rw [List.filter_eq_nil_iff.mpr hnone, List.take_nil, List.append_nil]

/-- How many elements have a smaller key. -/
def rank (key : α → κ) (xs : List α) (x : α) : ℕ := xs.countP (key · < key x)

/-- The first `n` elements of the sorted list are those with fewer than `n` better ones. -/
theorem mem_take_sort_iff {xs : List α} (h : (xs.map key).Nodup) {n : ℕ} {x : α} (hx : x ∈ xs) :
    x ∈ (sort key xs).take n ↔ rank key xs x < n := by
  have hsorted : Sorted key (sort key xs) := sorted_sort xs
  obtain ⟨before, after, hsplit⟩ := List.append_of_mem ((sort_perm h).mem_iff.mpr hx)
  have hrank : rank key xs x = before.length := by
    rw [rank, ← (sort_perm h).countP_eq, hsplit]
    rw [hsplit] at hsorted
    obtain ⟨-, htail, hcross⟩ := List.pairwise_append.mp hsorted
    have hafter := (List.pairwise_cons.mp htail).1
    have hbefore : before.countP (key · < key x) = before.length :=
      List.countP_eq_length.mpr fun y hy => by simpa using hcross y hy x List.mem_cons_self
    have hrest : (x :: after).countP (key · < key x) = 0 := by
      refine List.countP_eq_zero.mpr fun y hy => ?_
      rcases List.mem_cons.mp hy with rfl | hy
      · simp
      · simpa using (hafter y hy).le
    rw [List.countP_append, hbefore, hrest, Nat.add_zero]
  rw [hrank, hsplit, List.take_append]
  constructor
  · intro hmem
    by_contra hle
    rw [Nat.sub_eq_zero_of_le (not_lt.mp hle), List.take_zero, List.append_nil] at hmem
    -- the element would stand before itself
    rw [hsplit] at hsorted
    have hlt := (List.pairwise_append.mp hsorted).2.2 x (List.mem_of_mem_take hmem) x List.mem_cons_self
    exact lt_irrefl _ hlt
  · intro hlt
    obtain ⟨room, hroom⟩ := Nat.exists_eq_succ_of_ne_zero (Nat.sub_ne_zero_of_lt hlt)
    rw [hroom, List.take_succ_cons]
    exact List.mem_append_right _ List.mem_cons_self

/-- The other elements of the sorted list are those with `n` better ones. -/
theorem mem_drop_sort_iff {xs : List α} (h : (xs.map key).Nodup) {n : ℕ} {x : α} (hx : x ∈ xs) :
    x ∈ (sort key xs).drop n ↔ n ≤ rank key xs x := by
  have hmem : x ∈ (sort key xs).take n ++ (sort key xs).drop n := by
    rw [List.take_append_drop]
    exact (sort_perm h).mem_iff.mpr hx
  have hsorted : Sorted key ((sort key xs).take n ++ (sort key xs).drop n) := by
    rw [List.take_append_drop]
    exact sorted_sort xs
  rw [← not_lt, ← mem_take_sort_iff h hx]
  constructor
  · intro hdrop htake
    exact lt_irrefl _ ((List.pairwise_append.mp hsorted).2.2 x htake x hdrop)
  · exact (List.mem_append.mp hmem).resolve_left

/-- When the `n` elements with the least keys of those that meet a condition are those of the `n` elements with the
least keys that meet it: all of these meet it, or no other one does. -/
theorem least_filter_iff {xs : List α} (h : (xs.map key).Nodup) (p : α → Bool) (n : ℕ) :
    Least key n (xs.filter p) (((sort key xs).take n).filter p) ↔
      (∀ x ∈ xs, rank key xs x < n → p x) ∨ ∀ x ∈ xs, p x → rank key xs x < n := by
  have hkept : ((xs.filter p).map key).Nodup := (List.filter_sublist.map key).nodup h
  have hmem : ∀ {x}, x ∈ sort key xs → x ∈ xs := fun hx => (sort_perm h).mem_iff.mp hx
  rw [least_iff hkept, sort_filter h, filter_take_eq_iff]
  refine or_congr ⟨?_, ?_⟩ ⟨?_, ?_⟩
  · exact fun hall x hx hrank => hall x ((mem_take_sort_iff h hx).mpr hrank)
  · intro hall x htake
    have hx := hmem (List.mem_of_mem_take htake)
    exact hall x hx ((mem_take_sort_iff h hx).mp htake)
  · intro hnone x hx hp
    by_contra hrank
    exact hnone x ((mem_drop_sort_iff h hx).mpr (not_lt.mp hrank)) hp
  · intro hall x hdrop hp
    have hx := hmem (List.mem_of_mem_drop hdrop)
    exact absurd ((mem_drop_sort_iff h hx).mp hdrop) (not_le.mpr (hall x hx hp))

end KeyedSet
