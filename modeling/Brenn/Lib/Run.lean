import Mathlib

/-!
Finite runs of a partial step function.

A step answers `none` where the modelled code panics. Invariants are carried along
a run whose steps all meet a side condition `ok` on the state before and the input.
-/

namespace Brenn.Lib

universe u v

variable {σ : Type u} {α : Type v} {step : σ → α → Option σ} {ok : σ → α → Prop} {inv : σ → Prop}

/-- Take the steps in order, stopping at a panic. -/
def run (step : σ → α → Option σ) : σ → List α → Option σ
  | state, [] => some state
  | state, input :: inputs => (step state input).bind fun next => run step next inputs

/-- Every step of the run meets `ok` in the state it is taken from. -/
def Along (step : σ → α → Option σ) (ok : σ → α → Prop) : σ → List α → Prop
  | _, [] => True
  | state, input :: inputs =>
    ok state input ∧
      match step state input with
      | some next => Along step ok next inputs
      | none => True

instance decidableAlong (step : σ → α → Option σ) (ok : σ → α → Prop) [∀ state input, Decidable (ok state input)] :
    (state : σ) → (inputs : List α) → Decidable (Along step ok state inputs)
  | _, [] => inferInstanceAs (Decidable True)
  | state, input :: inputs =>
    match decided : step state input with
    | some next =>
      have := decidableAlong step ok next inputs
      decidable_of_iff (ok state input ∧ Along step ok next inputs) (by simp [Along, decided])
    | none => decidable_of_iff (ok state input) (by simp [Along, decided])

theorem Along.tail {state next : σ} {input : α} {inputs : List α} (along : Along step ok state (input :: inputs))
    (stepped : step state input = some next) : Along step ok next inputs := by
  have rest := along.2
  rwa [stepped] at rest

theorem run_cons_eq_some {state final : σ} {input : α} {inputs : List α} :
    run step state (input :: inputs) = some final ↔
      ∃ next, step state input = some next ∧ run step next inputs = some final := by
  simp [run, Option.bind_eq_some_iff]

theorem run_append {state : σ} {first second : List α} :
    run step state (first ++ second) = (run step state first).bind fun next => run step next second := by
  induction first generalizing state with
  | nil => simp [run]
  | cons input inputs ih =>
    simp only [List.cons_append, run, Option.bind_assoc]
    congr 1
    funext next
    exact ih

theorem along_of_forall (all : ∀ state input, ok state input) (state : σ) (inputs : List α) :
    Along step ok state inputs := by
  induction inputs generalizing state with
  | nil => trivial
  | cons input inputs ih =>
    refine ⟨all state input, ?_⟩
    split
    · exact ih _
    · trivial

/-- A run meets what an invariant of its steps implies. -/
theorem along_of_invariant (preserved : ∀ state input next, inv state → step state input = some next → inv next)
    (enough : ∀ state input, inv state → ok state input) {state : σ} (start : inv state) (inputs : List α) :
    Along step ok state inputs := by
  induction inputs generalizing state with
  | nil => trivial
  | cons input inputs ih =>
    refine ⟨enough state input start, ?_⟩
    split
    next stepped => exact ih (preserved _ _ _ start stepped)
    · trivial

/-- What one step preserves, a run preserves. -/
theorem run_preserves (preserved : ∀ state input next, inv state → ok state input →
      step state input = some next → inv next)
    {state final : σ} {inputs : List α} (start : inv state) (along : Along step ok state inputs)
    (ran : run step state inputs = some final) : inv final := by
  induction inputs generalizing state with
  | nil =>
    obtain rfl : state = final := by simpa [run] using ran
    exact start
  | cons input inputs ih =>
    obtain ⟨next, stepped, rest⟩ := run_cons_eq_some.mp ran
    exact ih (preserved state input next start along.1 stepped) (along.tail stepped) rest

/-- A run whose steps never panic under the invariant reaches a state, and the invariant holds there. -/
theorem run_reaches (progress : ∀ state input, inv state → ok state input →
      ∃ next, step state input = some next ∧ inv next)
    {state : σ} {inputs : List α} (start : inv state) (along : Along step ok state inputs) :
    ∃ final, run step state inputs = some final ∧ inv final := by
  induction inputs generalizing state with
  | nil => exact ⟨state, rfl, start⟩
  | cons input inputs ih =>
    obtain ⟨next, stepped, held⟩ := progress state input start along.1
    obtain ⟨final, ran, good⟩ := ih held (along.tail stepped)
    exact ⟨final, run_cons_eq_some.mpr ⟨next, stepped, ran⟩, good⟩

/-- The same with a value beside the state that the inputs alone determine. -/
theorem run_tracks {γ : Type*} {follow : γ → α → γ} {tracked : γ → σ → Prop}
    (progress : ∀ ghost state input, tracked ghost state → ok state input →
      ∃ next, step state input = some next ∧ tracked (follow ghost input) next)
    {ghost : γ} {state : σ} {inputs : List α} (start : tracked ghost state) (along : Along step ok state inputs) :
    ∃ final, run step state inputs = some final ∧ tracked (inputs.foldl follow ghost) final := by
  induction inputs generalizing ghost state with
  | nil => exact ⟨state, rfl, start⟩
  | cons input inputs ih =>
    obtain ⟨next, stepped, held⟩ := progress ghost state input start along.1
    obtain ⟨final, ran, good⟩ := ih held (along.tail stepped)
    exact ⟨final, run_cons_eq_some.mpr ⟨next, stepped, ran⟩, good⟩

end Brenn.Lib
