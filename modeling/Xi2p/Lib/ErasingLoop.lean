import Mathlib.Data.List.Chain
import Mathlib.Order.Basic

/-!
# Loops that erase what they index

A loop over the positions of a vector that erases the elements with a property and then goes on to the
next position. The element behind an erased one has moved to its position, so the loop never looks at
it.

* `eraseLoop_eq_filter_iff`: it erases them all if no two of them are next to each other.
-/

namespace ErasingLoop

variable {α : Type*} (p : α → Bool)

/-- `for (i = ...; i < xs.size(); i++) if (p(xs[i])) xs.erase(xs.begin() + i)`. -/
def eraseLoop (xs : List α) (i : ℕ) : List α :=
  if h : i < xs.length then eraseLoop (if p xs[i] then xs.eraseIdx i else xs) (i + 1) else xs
termination_by xs.length - i
decreasing_by
  split
  · rw [List.length_eraseIdx_of_lt h]
    omega
  · omega

/-- What such a loop leaves: the element behind one that is erased, whatever it is. -/
def survivors : List α → List α
  | [] => []
  | [x] => if p x then [] else [x]
  | x :: y :: xs => if p x then y :: survivors xs else x :: survivors (y :: xs)

/-- No two elements with the property are next to each other. -/
def Scattered (xs : List α) : Prop := xs.IsChain fun x y => ¬ (p x = true ∧ p y = true)

theorem eraseLoop_of_le {xs : List α} {i : ℕ} (h : xs.length ≤ i) : eraseLoop p xs i = xs := by
  rw [eraseLoop, dif_neg (Nat.not_lt.mpr h)]

/-- One round. -/
theorem eraseLoop_append_cons (xs ys : List α) (x : α) :
    eraseLoop p (xs ++ x :: ys) xs.length =
      eraseLoop p (if p x then xs ++ ys else xs ++ x :: ys) (xs.length + 1) := by
  have hlt : xs.length < (xs ++ x :: ys).length := by simp
  have hget : (xs ++ x :: ys)[xs.length] = x := by simp
  have herase : (xs ++ x :: ys).eraseIdx xs.length = xs ++ ys := by
    rw [List.eraseIdx_append_of_length_le le_rfl, Nat.sub_self, List.eraseIdx_cons_zero]
  rw [eraseLoop, dif_pos hlt, hget, herase]

/-- The loop, from a position on. -/
theorem eraseLoop_append (xs ys : List α) :
    eraseLoop p (xs ++ ys) xs.length = xs ++ survivors p ys := by
  induction ys using survivors.induct (p := p) generalizing xs with
  | case1 => rw [List.append_nil, eraseLoop_of_le p le_rfl, survivors, List.append_nil]
  | case2 x hx =>
    rw [eraseLoop_append_cons, if_pos hx, survivors, if_pos hx]
    exact eraseLoop_of_le p (by simp)
  | case3 x hx =>
    rw [eraseLoop_append_cons, if_neg hx, survivors, if_neg hx]
    exact eraseLoop_of_le p (by simp)
  | case4 x y ys hx ih =>
    -- `y` stands at the position of `x` now
    rw [eraseLoop_append_cons, if_pos hx, survivors, if_pos hx]
    simpa using ih (xs ++ [y])
  | case5 x y ys hx ih =>
    rw [eraseLoop_append_cons, if_neg hx, survivors, if_neg hx]
    simpa using ih (xs ++ [x])

theorem eraseLoop_zero (xs : List α) : eraseLoop p xs 0 = survivors p xs := eraseLoop_append p [] xs

/-- Elements without the property stay, in their order. -/
theorem filter_survivors (xs : List α) :
    (survivors p xs).filter (!p ·) = xs.filter (!p ·) := by
  induction xs using survivors.induct (p := p) with
  | case1 => rfl
  | case2 x hx => simp [survivors, hx]
  | case3 x hx => simp [survivors, hx]
  | case4 x y ys hx ih => simp [survivors, hx, List.filter_cons, ih]
  | case5 x y ys hx ih => simp [survivors, hx, List.filter_cons] at ih ⊢; exact ih

/-- Nothing with the property survives if no two such elements are next to each other. -/
theorem forall_survivors_iff (xs : List α) :
    (∀ x ∈ survivors p xs, p x = false) ↔ Scattered p xs := by
  induction xs using survivors.induct (p := p) with
  | case1 => simp [survivors, Scattered]
  | case2 x hx => simp [survivors, Scattered, hx]
  | case3 x hx => simp [survivors, Scattered, hx]
  | case4 x y ys hx ih =>
    rw [survivors, if_pos hx, List.forall_mem_cons, ih, Scattered, Scattered, List.isChain_cons_cons]
    cases ys with
    | nil => simp [hx]
    | cons z zs =>
      simp only [hx, true_and, Bool.not_eq_true, List.isChain_cons_cons, and_congr_right_iff]
      intro hy
      simp [hy]
  | case5 x y ys hx ih =>
    rw [survivors, if_neg hx, List.forall_mem_cons, ih, Scattered, Scattered, List.isChain_cons_cons]
    simp [hx]

/-- The loop leaves nothing with the property if no two such elements are next to each other. -/
theorem eraseLoop_eq_filter_iff (xs : List α) :
    eraseLoop p xs 0 = xs.filter (!p ·) ↔ Scattered p xs := by
  rw [eraseLoop_zero, ← forall_survivors_iff, ← filter_survivors, eq_comm, List.filter_eq_self]
  simp

end ErasingLoop
