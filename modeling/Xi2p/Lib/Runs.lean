import Mathlib.Data.List.Basic

/-!
# Runs of a state machine

A machine is a step function on states and inputs. `exec` runs it over a list of inputs, `Meets C`
says that every step of the run is taken in a state in which the condition `C` allows its input,
and `invariant_of_meets` is the induction over such a run.
-/

namespace Runs

variable {σ ι : Type} (step : σ → ι → σ)

/-- The state after a list of inputs. -/
def exec (s : σ) (inputs : List ι) : σ := inputs.foldl step s

/-- Every step of the run meets the condition `C` on the state before it and its input. -/
def Meets (C : σ → ι → Prop) : σ → List ι → Prop
  | _, [] => True
  | s, i :: inputs => C s i ∧ Meets C (step s i) inputs

instance decidableMeets (C : σ → ι → Prop) [∀ s i, Decidable (C s i)] :
    ∀ s inputs, Decidable (Meets step C s inputs)
  | _, [] => inferInstanceAs (Decidable True)
  | s, i :: inputs =>
    have := decidableMeets C (step s i) inputs
    inferInstanceAs (Decidable (C s i ∧ Meets step C (step s i) inputs))

variable {step}

/-- A property that holds at the start and that every allowed step preserves holds at the end. -/
theorem invariant_of_meets {C : σ → ι → Prop} {I : σ → Prop}
    (hstep : ∀ s i, I s → C s i → I (step s i)) {s : σ} {inputs : List ι}
    (hs : I s) (hmeets : Meets step C s inputs) : I (exec step s inputs) := by
  induction inputs generalizing s with
  | nil => exact hs
  | cons i inputs ih =>
    obtain ⟨hi, hrest⟩ := hmeets
    exact ih (hstep s i hs hi) hrest

/-- A property that every step preserves holds at the end of every run. -/
theorem invariant_exec {I : σ → Prop} (hstep : ∀ s i, I s → I (step s i)) {s : σ} (hs : I s)
    (inputs : List ι) : I (exec step s inputs) := by
  induction inputs generalizing s with
  | nil => exact hs
  | cons i inputs ih => exact ih (hstep s i hs)

/-- A condition on the inputs alone can be added to the condition on the steps. -/
theorem Meets.and_of_forall {C : σ → ι → Prop} {D : ι → Prop} {s : σ} {inputs : List ι}
    (hmeets : Meets step C s inputs) (hinputs : ∀ i ∈ inputs, D i) :
    Meets step (fun s i => C s i ∧ D i) s inputs := by
  induction inputs generalizing s with
  | nil => trivial
  | cons i inputs ih =>
    obtain ⟨hi, hrest⟩ := hmeets
    refine ⟨⟨hi, hinputs i List.mem_cons_self⟩, ih hrest ?_⟩
    exact fun j hj => hinputs j (List.mem_cons_of_mem i hj)

/-- A condition on the inputs alone. -/
theorem meets_of_forall {D : ι → Prop} {s : σ} {inputs : List ι} (hinputs : ∀ i ∈ inputs, D i) :
    Meets step (fun _ i => D i) s inputs := by
  induction inputs generalizing s with
  | nil => trivial
  | cons i inputs ih =>
    exact ⟨hinputs i List.mem_cons_self, ih fun j hj => hinputs j (List.mem_cons_of_mem i hj)⟩

/-- Every part of a run up to some state meets the condition too. -/
theorem Meets.of_append {C : σ → ι → Prop} {s : σ} {pre post : List ι}
    (h : Meets step C s (pre ++ post)) : Meets step C s pre := by
  induction pre generalizing s with
  | nil => trivial
  | cons i pre ih => exact ⟨h.1, ih h.2⟩

theorem exec_append (s : σ) (pre post : List ι) :
    exec step s (pre ++ post) = exec step (exec step s pre) post := List.foldl_append ..

/-- The rest of a run meets the condition too. -/
theorem Meets.exec_of_append {C : σ → ι → Prop} {s : σ} {pre post : List ι}
    (h : Meets step C s (pre ++ post)) : Meets step C (exec step s pre) post := by
  induction pre generalizing s with
  | nil => exact h
  | cons i pre ih => exact ih h.2

/-- What an allowed step has under an invariant of the machine, every step of a run has. -/
theorem Meets.of_invariant {C D : σ → ι → Prop} {I : σ → Prop}
    (hstep : ∀ s i, I s → C s i → I (step s i)) (hD : ∀ s i, I s → C s i → D s i) {s : σ}
    {inputs : List ι} (hs : I s) (h : Meets step C s inputs) : Meets step D s inputs := by
  induction inputs generalizing s with
  | nil => trivial
  | cons i inputs ih => exact ⟨hD s i hs h.1, ih (hstep s i hs h.1) h.2⟩

/-- Two conditions that agree under an invariant of the machine are met by the same runs. -/
theorem meets_iff_of_invariant {C D : σ → ι → Prop} {I : σ → Prop} {inputs : List ι}
    (hstep : ∀ s, ∀ i ∈ inputs, I s → I (step s i))
    (hiff : ∀ s, ∀ i ∈ inputs, I s → (C s i ↔ D s i)) {s : σ} (hs : I s) :
    Meets step C s inputs ↔ Meets step D s inputs := by
  induction inputs generalizing s with
  | nil => exact Iff.rfl
  | cons i inputs ih =>
    refine and_congr (hiff s i List.mem_cons_self hs) (ih ?_ ?_ ?_)
    · exact fun s j hj => hstep s j (List.mem_cons_of_mem i hj)
    · exact fun s j hj => hiff s j (List.mem_cons_of_mem i hj)
    · exact hstep s i List.mem_cons_self hs

/-- Two conditions that agree under an invariant that the steps meeting the first one keep are met by
the same runs. -/
theorem meets_iff_of_preserved {C D : σ → ι → Prop} {I : σ → Prop}
    (hstep : ∀ s i, I s → C s i → I (step s i)) (hiff : ∀ s i, I s → (C s i ↔ D s i)) {s : σ}
    (hs : I s) (inputs : List ι) : Meets step C s inputs ↔ Meets step D s inputs := by
  induction inputs generalizing s with
  | nil => exact Iff.rfl
  | cons i inputs ih =>
    rw [Meets, Meets, hiff s i hs]
    exact and_congr_right fun hD => ih (hstep s i hs ((hiff s i hs).mpr hD))

/-- A property that a run gains is gained in one of its steps. -/
theorem exists_turn {P : σ → Prop} {s : σ} {inputs : List ι} (hstart : ¬ P s)
    (hend : P (exec step s inputs)) :
    ∃ pre i post, inputs = pre ++ i :: post ∧ ¬ P (exec step s pre) ∧ P (exec step s (pre ++ [i])) := by
  induction inputs generalizing s with
  | nil => exact absurd hend hstart
  | cons i inputs ih =>
    by_cases hnext : P (step s i)
    · exact ⟨[], i, inputs, rfl, hstart, hnext⟩
    · obtain ⟨pre, j, post, rfl, hpre, hgained⟩ := ih hnext hend
      exact ⟨i :: pre, j, post, rfl, hpre, hgained⟩

/-- The property holds in every state of the run. -/
def Always (step : σ → ι → σ) (P : σ → Prop) (s : σ) (inputs : List ι) : Prop :=
  ∀ pre, pre <+: inputs → P (exec step s pre)

theorem always_cons {P : σ → Prop} {s : σ} {i : ι} {inputs : List ι} :
    Always step P s (i :: inputs) ↔ P s ∧ Always step P (step s i) inputs := by
  constructor
  · intro h
    refine ⟨h [] List.nil_prefix, fun pre hpre => ?_⟩
    exact h (i :: pre) (List.cons_prefix_cons.mpr ⟨rfl, hpre⟩)
  · rintro ⟨hs, hrest⟩ pre hpre
    cases pre with
    | nil => exact hs
    | cons j pre =>
      obtain ⟨rfl, hprefix⟩ := List.cons_prefix_cons.mp hpre
      exact hrest pre hprefix

/-- If the allowed steps keep an invariant with the property, and every other step loses the property,
then the property holds throughout a run if and only if every step of it is allowed. -/
theorem always_iff_meets {C : σ → ι → Prop} {I P : σ → Prop}
    (hstep : ∀ s i, I s → C s i → I (step s i)) (hholds : ∀ s, I s → P s)
    (hlost : ∀ s i, I s → ¬ C s i → ¬ P (step s i)) {s : σ} (hs : I s) (inputs : List ι) :
    Always step P s inputs ↔ Meets step C s inputs := by
  induction inputs generalizing s with
  | nil =>
    refine iff_of_true (fun pre hpre => ?_) trivial
    rw [List.prefix_nil.mp hpre]
    exact hholds s hs
  | cons i inputs ih =>
    rw [always_cons, Meets]
    by_cases hi : C s i
    · rw [ih (hstep s i hs hi)]
      exact ⟨fun h => ⟨hi, h.2⟩, fun h => ⟨hholds s hs, h.2⟩⟩
    · refine iff_of_false (fun h => ?_) fun h => hi h.1
      exact hlost s i hs hi (h.2 [] List.nil_prefix)

end Runs
