import TwitchBot.Library.StringView

/-!
Loops that move a cursor over a view. A loop is the repetition of its round;
if every round moves the cursor forward, the loop ends.
-/

namespace StringView

open ExceptRun

variable {σ : Type} {ρ : Type}

/-- A round works on the state and says where the next round starts, if there is one. -/
abbrev Round (ρ σ : Type) := Nat → σ → Except (Failure ρ) (σ × Option Nat)

def iterate (round : Round ρ σ) : Nat → Nat → σ → Except (Failure ρ) σ
  | 0, _, _ => .error (.fault .outOfFuel)
  | fuel + 1, position, state => do
    let (state, next) ← round position state
    match next with
    | none => pure state
    | some next => iterate round fuel next state

/-- The cursor strictly advances and stays within the limit. -/
def Advances (round : Round ρ σ) (limit : Nat) : Prop :=
  ∀ position state state' next, round position state = .ok (state', some next) → position < next ∧ next ≤ limit

/-- A computation that does not leave its view. -/
def Safe {τ : Type} (run : Except (Failure ρ) τ) : Prop := ∀ fault, run ≠ .error (.fault fault)

theorem Safe.ok {τ : Type} (result : τ) : Safe (ρ := ρ) (.ok result) := by
  intro fault same
  cases same

theorem Safe.rejected {τ : Type} (reason : ρ) : Safe (τ := τ) (.error (.rejected reason)) := by
  intro fault same
  cases same

theorem Safe.bind {τ υ : Type} {run : Except (Failure ρ) τ} {next : τ → Except (Failure ρ) υ} (safe : Safe run)
    (then_ : ∀ result, run = .ok result → Safe (next result)) : Safe (run >>= next) := by
  cases run with
  | ok result => exact then_ result rfl
  | error failure =>
    intro fault same
    rw [error_bind] at same
    cases same
    exact safe fault rfl

/-- A loop with safe and advancing rounds ends, in at most one round for each
position that is left, and is safe. -/
theorem iterate_safe {round : Round ρ σ} {limit : Nat} (advances : Advances round limit)
    (safe : ∀ position ≤ limit, ∀ state, Safe (round position state)) (fuel : Nat) :
    ∀ position state, position ≤ limit → limit - position < fuel → Safe (iterate round fuel position state) := by
  induction fuel with
  | zero => intro _ _ _ bound; omega
  | succ fuel ih =>
    intro position state within bound
    refine (safe position within state).bind ?_
    intro result ran
    obtain ⟨state', next⟩ := result
    cases next with
    | none => exact Safe.ok state'
    | some next =>
      obtain ⟨forward, within'⟩ := advances position state state' next ran
      exact ih next state' within' (by omega)

variable {α : Type}

theorem find_bounds [DecidableEq α] {view : List α} {c : α} {position stop : Nat}
    (found : find view c position = some stop) : position ≤ stop ∧ stop < view.length := by
  obtain ⟨index, atIndex, rfl⟩ := Option.map_eq_some_iff.mp found
  obtain ⟨bound, _⟩ := List.findIdx?_eq_some_iff_getElem.mp atIndex
  rw [List.length_drop] at bound
  omega

theorem charAt_safe {view : List α} {position : Nat} (below : position < view.length) :
    Safe (charAt (ρ := ρ) view position) := by
  simp only [charAt, List.getElem?_eq_getElem below]
  exact Safe.ok _

theorem substr_safe {view : List α} {position : Nat} (within : position ≤ view.length) (count : Option Nat) :
    Safe (substr (ρ := ρ) view position count) := by
  rw [substr, if_pos within]
  exact Safe.ok _

theorem distance_safe {start : Nat} {stop : Option Nat} (ordered : ∀ s ∈ stop, start ≤ s) :
    Safe (distance (ρ := ρ) start stop) := by
  cases stop with
  | none => exact Safe.ok _
  | some stop =>
    rw [distance, if_pos (ordered stop rfl)]
    exact Safe.ok _

end StringView
