import Mathlib.Data.List.Basic
import Mathlib.Data.List.Induction

/-! Transducers: machines that answer each input with a list of outputs. -/

namespace Transducer

variable {ι σ α β : Type*}

/-- The state behind a sequence of inputs. -/
def after (step : σ → α → List β × σ) (start : σ) (inputs : List α) : σ :=
  inputs.foldl (fun state input => (step state input).2) start

/-- The inputs with what each was answered. -/
def trace (step : σ → α → List β × σ) : σ → List α → List (α × List β)
  | _, [] => []
  | state, input :: inputs => (input, (step state input).1) :: trace step (step state input).2 inputs

@[simp] theorem after_concat (step : σ → α → List β × σ) (start : σ) (inputs : List α) (input : α) :
    after step start (inputs ++ [input]) = (step (after step start inputs) input).2 := by
  simp [after]

@[simp] theorem trace_concat (step : σ → α → List β × σ) (start : σ) (inputs : List α) (input : α) :
    trace step start (inputs ++ [input]) =
      trace step start inputs ++ [(input, (step (after step start inputs) input).1)] := by
  induction inputs generalizing start with
  | nil => rfl
  | cons first inputs ih =>
    rw [List.cons_append, trace, ih]
    rfl

theorem after_append (step : σ → α → List β × σ) (start : σ) (earlier later : List α) :
    after step start (earlier ++ later) = after step (after step start earlier) later := List.foldl_append

theorem trace_append (step : σ → α → List β × σ) (start : σ) (earlier later : List α) :
    trace step start (earlier ++ later) = trace step start earlier ++ trace step (after step start earlier) later := by
  induction earlier generalizing start with
  | nil => rfl
  | cons first earlier ih =>
    rw [List.cons_append, trace, ih]
    rfl

@[simp] theorem trace_inputs (step : σ → α → List β × σ) (start : σ) (inputs : List α) :
    (trace step start inputs).map Prod.fst = inputs := by
  induction inputs generalizing start with
  | nil => rfl
  | cons first inputs ih => rw [trace, List.map_cons, ih]

/-- What every answer has that is given in a state with some property, all
answers of a run have. -/
theorem trace_keeps {step : σ → α → List β × σ} (property : σ → Prop) (answers : α → β → Prop)
    (each : ∀ state input, property state →
      (∀ output ∈ (step state input).1, answers input output) ∧ property (step state input).2)
    {start : σ} (holds : property start) (inputs : List α) :
    ∀ entry ∈ trace step start inputs, ∀ output ∈ entry.2, answers entry.1 output := by
  induction inputs generalizing start with
  | nil =>
    intro entry none
    cases none
  | cons first inputs ih =>
    obtain ⟨answered, kept⟩ := each start first holds
    intro entry member
    rcases List.mem_cons.mp member with rfl | later
    · exact answered
    · exact ih kept entry later

/-- Members side by side: each makes its own step on the input they share, and
their answers are joined in the order of the members. -/
def stepAll (step : ι → σ → α → List β × σ) (members : List ι) (states : List σ) (input : α) : List β × List σ :=
  ((List.zipWith (fun member state => (step member state input).1) members states).flatten,
    List.zipWith (fun member state => (step member state input).2) members states)

theorem stepAll_map (step : ι → σ → α → List β × σ) (members : List ι) (state : ι → σ) (input : α) :
    stepAll step members (members.map state) input =
      (members.flatMap (fun member => (step member (state member) input).1),
        members.map (fun member => (step member (state member) input).2)) := by
  simp only [stepAll, List.zipWith_map_right, List.zipWith_self, List.flatMap_def]

/-- Members side by side are in the states in which each of them would be alone. -/
theorem after_stepAll (step : ι → σ → α → List β × σ) (members : List ι) (start : ι → σ) (inputs : List α) :
    after (stepAll step members) (members.map start) inputs =
      members.map (fun member => after (step member) (start member) inputs) := by
  induction inputs using List.reverseRecOn with
  | nil => rfl
  | append_singleton inputs input ih => simp only [after_concat, ih, stepAll_map]

end Transducer
