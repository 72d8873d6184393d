import Mathlib.Logic.Relation

/-!
Forward simulation: a machine that is driven by events refines an abstract
transition system if every event is some abstract transitions.
-/

namespace Simulation

open Relation

variable {σ τ ε : Type*}

/-- Related states stay related: the abstract one makes some transitions for
each event that is allowed. -/
def Forward (step : σ → ε → σ) (allowed : ε → Prop) (transition : τ → τ → Prop) (related : σ → τ → Prop) : Prop :=
  ∀ state abstract event, related state abstract → allowed event →
    ∃ next, ReflTransGen transition abstract next ∧ related (step state event) next

variable {step : σ → ε → σ} {allowed : ε → Prop} {transition : τ → τ → Prop} {related : σ → τ → Prop}

/-- Every run is explained by a run of the abstract system. -/
theorem Forward.run (forward : Forward step allowed transition related) {state : σ} {abstract : τ}
    (holds : related state abstract) {events : List ε} (each : ∀ event ∈ events, allowed event) :
    ∃ next, ReflTransGen transition abstract next ∧ related (events.foldl step state) next := by
  induction events generalizing state abstract with
  | nil => exact ⟨abstract, .refl, holds⟩
  | cons event events ih =>
    obtain ⟨first, eachLater⟩ := List.forall_mem_cons.mp each
    obtain ⟨middle, moved, holdsThen⟩ := forward state abstract event holds first
    obtain ⟨next, moves, holdsLast⟩ := ih holdsThen eachLater
    exact ⟨next, moved.trans moves, holdsLast⟩

end Simulation
