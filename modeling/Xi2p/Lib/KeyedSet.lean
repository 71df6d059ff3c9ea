import Mathlib.Data.List.Basic
import Mathlib.Tactic

/-!
# Ordered sets of keyed elements

A `std::set` whose comparator looks at a key only: a list in increasing order of keys, into which
an element is inserted unless its key is already present.
-/

namespace KeyedSet

variable {α κ : Type} [LinearOrder κ] (key : α → κ)

/-- `std::set::insert`: an element whose key is present is not inserted. -/
def insert (x : α) : List α → List α
  | [] => [x]
  | y :: ys =>
    if key x < key y then x :: y :: ys
    else if key y < key x then y :: insert x ys
    else y :: ys

/-- The keys increase strictly. -/
def Sorted (xs : List α) : Prop := xs.Pairwise fun x y => key x < key y

variable {key}

theorem eq_or_mem_of_mem_insert {x z : α} {xs : List α} (h : z ∈ insert key x xs) :
    z = x ∨ z ∈ xs := by
  induction xs with
  | nil => simpa [insert] using h
  | cons y ys ih =>
    rw [insert] at h
    split at h
    · simpa using h
    · split at h
      · rcases List.mem_cons.mp h with rfl | hz
        · simp
        · rcases ih hz with rfl | hz
          · simp
          · simp [hz]
      · exact Or.inr h

/-- Inserting loses no element. -/
theorem mem_insert_of_mem {x z : α} {xs : List α} (h : z ∈ xs) : z ∈ insert key x xs := by
  induction xs with
  | nil => cases h
  | cons y ys ih =>
    rw [insert]
    split
    · exact List.mem_cons_of_mem _ h
    · split
      · rcases List.mem_cons.mp h with rfl | hz
        · exact List.mem_cons_self
        · exact List.mem_cons_of_mem _ (ih hz)
      · exact h

/-- An element whose key is new is inserted. -/
theorem mem_insert_self {x : α} (xs : List α) (h : key x ∉ xs.map key) : x ∈ insert key x xs := by
  induction xs with
  | nil => simp [insert]
  | cons y ys ih =>
    rw [List.map_cons, List.mem_cons, not_or] at h
    rw [insert]
    split
    · exact List.mem_cons_self
    · split
      · exact List.mem_cons_of_mem _ (ih h.2)
      next hnlt hngt => exact absurd (le_antisymm (not_lt.mp hngt) (not_lt.mp hnlt)) h.1

theorem insert_perm {x : α} {xs : List α} (h : key x ∉ xs.map key) :
    (insert key x xs).Perm (x :: xs) := by
  induction xs with
  | nil => exact List.Perm.refl _
  | cons y ys ih =>
    rw [List.map_cons, List.mem_cons, not_or] at h
    rw [insert]
    split
    · exact List.Perm.refl _
    · split
      · exact ((ih h.2).cons y).trans (List.Perm.swap x y ys)
      next hnlt hngt => exact absurd (le_antisymm (not_lt.mp hngt) (not_lt.mp hnlt)) h.1

theorem length_insert_le {x : α} (xs : List α) : (insert key x xs).length ≤ xs.length + 1 := by
  induction xs with
  | nil => exact Nat.le_refl _
  | cons y ys ih =>
    rw [insert]
    split
    · exact Nat.le_refl _
    · split
      · exact Nat.succ_le_succ ih
      · exact Nat.le_succ _

theorem Sorted.insert {x : α} {xs : List α} (h : Sorted key xs) :
    Sorted key (insert key x xs) := by
  induction xs with
  | nil => simp [KeyedSet.insert, Sorted]
  | cons y ys ih =>
    obtain ⟨hy, hys⟩ := List.pairwise_cons.mp h
    rw [KeyedSet.insert]
    split
    next hlt =>
      refine List.pairwise_cons.mpr ⟨?_, h⟩
      intro z hz
      rcases List.mem_cons.mp hz with rfl | hz
      · exact hlt
      · exact hlt.trans (hy z hz)
    next hnlt =>
      split
      next hgt =>
        refine List.pairwise_cons.mpr ⟨?_, ih hys⟩
        intro z hz
        -- an inserted element is the new one or an old one, and both lie above `y`
        rcases eq_or_mem_of_mem_insert hz with rfl | hz
        · exact hgt
        · exact hy z hz
      next => exact h

/-- An element that a filter drops makes no difference to what it keeps. -/
theorem filter_insert_of_neg {p : α → Bool} {x : α} (hx : ¬ p x) (xs : List α) :
    (insert key x xs).filter p = xs.filter p := by
  induction xs with
  | nil => exact List.filter_cons_of_neg hx
  | cons y ys ih =>
    rw [insert]
    split
    · exact List.filter_cons_of_neg hx
    · split
      · rw [List.filter_cons, ih, ← List.filter_cons]
      · rfl

/-- An element with the greatest key is inserted at the end. -/
theorem insert_eq_append {x : α} {xs : List α} (h : ∀ y ∈ xs, key y < key x) :
    insert key x xs = xs ++ [x] := by
  induction xs with
  | nil => rfl
  | cons y ys ih =>
    have hy := h y List.mem_cons_self
    rw [insert, if_neg (not_lt.mpr hy.le), if_pos hy, ih fun z hz => h z (List.mem_cons_of_mem _ hz)]
    rfl

end KeyedSet
