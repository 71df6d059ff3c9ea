import Mathlib.Data.List.Basic

/-!
# Readers that are fed in parts

A reader takes one element at a time, and goes on with a new state or stops with a result. What follows
is left over.

* `feed_eq_run`: it does not matter how its input is cut.
* `feedSteps_eq_steps`: nor for the steps that it takes.
-/

namespace Incremental

variable {σ α ρ : Type} (step : σ → α → σ ⊕ ρ)

/-- Reading until the reader stops: the state, or the result and what is left over. -/
def run : σ → List α → σ ⊕ (ρ × List α)
  | s, [] => .inl s
  | s, a :: as =>
    match step s a with
    | .inl s => run s as
    | .inr r => .inr (r, as)

/-- Reading parts one after the other. The parts behind the one in which the reader stops are left
over. -/
def feed : σ → List (List α) → σ ⊕ (ρ × List α)
  | s, [] => .inl s
  | s, part :: parts =>
    match run step s part with
    | .inl s => feed s parts
    | .inr (r, rest) => .inr (r, rest ++ parts.flatten)

variable {step}

theorem run_append (s : σ) (as bs : List α) :
    run step s (as ++ bs) =
      match run step s as with
      | .inl s => run step s bs
      | .inr (r, rest) => .inr (r, rest ++ bs) := by
  induction as generalizing s with
  | nil => rfl
  | cons a as ih =>
    rw [List.cons_append, run, run]
    rcases step s a with s' | r
    · exact ih s'
    · rfl

/-- It does not matter how the input is cut. -/
theorem feed_eq_run (s : σ) (parts : List (List α)) :
    feed step s parts = run step s parts.flatten := by
  induction parts generalizing s with
  | nil => rfl
  | cons part parts ih =>
    rw [feed, List.flatten_cons, run_append]
    rcases run step s part with s' | ⟨r, rest⟩
    · exact ih s'
    · rfl

/-! ## The steps of a reader -/

variable (step)

/-- The states and the elements of all steps until the reader stops. -/
def steps : σ → List α → List (σ × α)
  | _, [] => []
  | s, a :: as =>
    (s, a) ::
      match step s a with
      | .inl s => steps s as
      | .inr _ => []

/-- The steps when the reader is fed in parts. -/
def feedSteps : σ → List (List α) → List (σ × α)
  | _, [] => []
  | s, part :: parts =>
    steps step s part ++
      match run step s part with
      | .inl s => feedSteps s parts
      | .inr _ => []

variable {step}

theorem steps_append (s : σ) (as bs : List α) :
    steps step s (as ++ bs) = steps step s as ++
      match run step s as with
      | .inl s => steps step s bs
      | .inr _ => [] := by
  induction as generalizing s with
  | nil => rfl
  | cons a as ih =>
    rw [List.cons_append, steps, steps, run, List.cons_append]
    rcases step s a with s' | r
    · exact congrArg _ (ih s')
    · rfl

/-- The steps do not depend on how the input is cut. -/
theorem feedSteps_eq_steps (s : σ) (parts : List (List α)) :
    feedSteps step s parts = steps step s parts.flatten := by
  induction parts generalizing s with
  | nil => rfl
  | cons part parts ih =>
    rw [feedSteps, List.flatten_cons, steps_append]
    rcases run step s part with s' | ⟨r, rest⟩
    · exact congrArg _ (ih s')
    · rfl

/-- The steps of a reader that carries more than another one. -/
theorem map_steps {τ : Type} {step' : τ → α → τ ⊕ ρ} {f : τ → σ}
    (hstep : ∀ t a, step (f t) a = (step' t a).map f id) (t : τ) (as : List α) :
    (steps step' t as).map (Prod.map f id) = steps step (f t) as := by
  induction as generalizing t with
  | nil => rfl
  | cons a as ih =>
    rw [steps, steps, List.map_cons, hstep]
    rcases step' t a with t' | r
    · exact congrArg _ (ih t')
    · rfl

/-- Where an invariant is kept by the steps with `F`, what amounts to `F` under it holds in all steps if and
only if `F` does. -/
theorem forall_steps_iff {I : σ → Prop} {F P : σ → α → Prop} (hP : ∀ s a, I s → (P s a ↔ F s a))
    (hstep : ∀ s a s', I s → F s a → step s a = .inl s' → I s') {s : σ} (hs : I s) (as : List α) :
    (∀ e ∈ steps step s as, P e.1 e.2) ↔ ∀ e ∈ steps step s as, F e.1 e.2 := by
  induction as generalizing s with
  | nil => exact iff_of_true (List.forall_mem_nil _) (List.forall_mem_nil _)
  | cons a as ih =>
    rw [steps, List.forall_mem_cons, List.forall_mem_cons, hP s a hs]
    refine and_congr_right fun hF => ?_
    cases hnext : step s a with
    | inl s' => exact ih (hstep s a s' hs hF hnext)
    | inr r => exact iff_of_true (List.forall_mem_nil _) (List.forall_mem_nil _)

end Incremental
