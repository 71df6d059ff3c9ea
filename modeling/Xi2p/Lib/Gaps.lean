import Mathlib.Data.Finset.Card
import Mathlib.Data.Finset.Range
import Mathlib.Data.List.Nodup
import Mathlib.Tactic

/-!
# Gaps in a list of numbers

The numbers that are missing from a sorted list, in front of each of its elements.

* `mem_gaps`: a number is in a gap iff it is missing and an element of the list is behind it.
* `card_missing`: the gaps have as many numbers as there are missing ones.
-/

namespace Gaps

/-- The numbers from `next` on that are missing in front of an element of a sorted list. -/
def gaps : ℕ → List ℕ → List ℕ
  | _, [] => []
  | next, n :: rest => List.range' next (n - next) ++ gaps (n + 1) rest

/-- The largest element, or `0`. -/
def top (ns : List ℕ) : ℕ := ns.foldr max 0

/-- The numbers from `next` on and below the largest element that are not in the list. -/
def missing (next : ℕ) (ns : List ℕ) : Finset ℕ :=
  (Finset.range (top ns)).filter fun k => next ≤ k ∧ k ∉ ns

variable {next k : ℕ} {ns : List ℕ}

theorem lt_top_iff : k < top ns ↔ ∃ n ∈ ns, k < n := by
  induction ns with
  | nil => simp [top]
  | cons n ns ih =>
    have htop : top (n :: ns) = max n (top ns) := rfl
    rw [htop, lt_max_iff, ih]
    simp

theorem le_top {n : ℕ} (h : n ∈ ns) : n ≤ top ns := by
  by_contra hlt
  exact lt_irrefl _ (lt_top_iff.mpr ⟨n, h, not_le.mp hlt⟩)

theorem top_mem (h : ns ≠ []) : top ns ∈ ns := by
  induction ns with
  | nil => exact absurd rfl h
  | cons n ns ih =>
    have htop : top (n :: ns) = max n (top ns) := rfl
    rw [htop]
    rcases le_total (top ns) n with hle | hle
    · rw [max_eq_left hle]
      exact List.mem_cons_self
    · rw [max_eq_right hle]
      by_cases hnil : ns = []
      · subst hnil
        rw [Nat.le_zero.mp hle]
        exact List.mem_cons_self
      · exact List.mem_cons_of_mem _ (ih hnil)

theorem mem_missing : k ∈ missing next ns ↔ next ≤ k ∧ k ∉ ns ∧ ∃ n ∈ ns, k < n := by
  rw [missing, Finset.mem_filter, Finset.mem_range, lt_top_iff]
  tauto

theorem mem_gaps (hsorted : ns.Pairwise (· < ·)) (hnext : ∀ n ∈ ns, next ≤ n) :
    k ∈ gaps next ns ↔ next ≤ k ∧ k ∉ ns ∧ ∃ n ∈ ns, k < n := by
  induction ns generalizing next with
  | nil => simp [gaps]
  | cons n ns ih =>
    obtain ⟨hfirst, hrest⟩ := List.pairwise_cons.mp hsorted
    have hn := hnext n List.mem_cons_self
    rw [gaps, List.mem_append, List.mem_range'_1, ih hrest fun m hm => hfirst m hm]
    constructor
    · rintro (⟨hle, hlt⟩ | ⟨hle, hmem, m, hm, hlt⟩)
      · -- in front of the first element, and so of all others
        have hkn : k < n := by omega
        refine ⟨hle, fun hmem => ?_, n, List.mem_cons_self, hkn⟩
        rcases List.mem_cons.mp hmem with rfl | hmem
        · exact lt_irrefl _ hkn
        · exact lt_irrefl _ (hkn.trans (hfirst k hmem))
      · refine ⟨by omega, fun hk => ?_, m, List.mem_cons_of_mem _ hm, hlt⟩
        rcases List.mem_cons.mp hk with rfl | hk
        · omega
        · exact hmem hk
    · rintro ⟨hle, hmem, m, hm, hlt⟩
      obtain ⟨hkn, hkns⟩ := not_or.mp (List.mem_cons.not.mp hmem)
      rcases lt_or_ge k n with hlt' | hge
      · exact .inl ⟨hle, by omega⟩
      · refine .inr ⟨by omega, hkns, m, ?_, hlt⟩
        rcases List.mem_cons.mp hm with rfl | hm
        · omega
        · exact hm

theorem nodup_gaps (hsorted : ns.Pairwise (· < ·)) (hnext : ∀ n ∈ ns, next ≤ n) :
    (gaps next ns).Nodup := by
  induction ns generalizing next with
  | nil => exact List.nodup_nil
  | cons n ns ih =>
    obtain ⟨hfirst, hrest⟩ := List.pairwise_cons.mp hsorted
    have hbehind : ∀ m ∈ ns, n + 1 ≤ m := fun m hm => hfirst m hm
    rw [gaps]
    refine List.Nodup.append List.nodup_range' (ih hrest hbehind) fun k hfront hback => ?_
    have hlt := (List.mem_range'_1.mp hfront).2
    have hge := ((mem_gaps hrest hbehind).mp hback).1
    have hn := hnext n List.mem_cons_self
    omega

/-- The gaps hold exactly the missing numbers, each one once. -/
theorem card_missing (hsorted : ns.Pairwise (· < ·)) (hnext : ∀ n ∈ ns, next ≤ n) :
    (missing next ns).card = (gaps next ns).length := by
  rw [← List.toFinset_card_of_nodup (nodup_gaps hsorted hnext)]
  congr 1
  ext k
  rw [mem_missing, List.mem_toFinset, mem_gaps hsorted hnext]

end Gaps
