import Mathlib.Data.List.Range
import Mathlib.Order.Monotone.Basic

/-!
Clocks as the readings that are still to come: reading a clock takes its first
reading and leaves the others.
-/

universe u

variable {τ : Type u}

/-- Times that a clock gives, in their order, before it is another clock. -/
def Readings (clock next : ℕ → τ) (times : List τ) : Prop :=
  ∃ readings, (∀ n, next n = clock (n + readings)) ∧ times.Sublist ((List.range readings).map clock)

namespace Readings

variable {clock middle next : ℕ → τ} {times later : List τ}

theorem none (passed : ∃ count, ∀ n, next n = clock (n + count)) : Readings clock next [] := by
  obtain ⟨count, passed⟩ := passed
  exact ⟨count, passed, List.nil_sublist _⟩

theorem refl (clock : ℕ → τ) : Readings clock clock [] := ⟨0, fun _ => rfl, .refl _⟩

/-- One reading. -/
theorem tick (clock : ℕ → τ) : Readings clock (fun n => clock (n + 1)) [clock 0] := ⟨1, fun _ => rfl, .refl _⟩

theorem append (left : Readings clock middle times) (right : Readings middle next later) :
    Readings clock next (times ++ later) := by
  obtain ⟨earlier, passed, taken⟩ := left
  obtain ⟨more, passed', taken'⟩ := right
  refine ⟨earlier + more, fun n => ?_, ?_⟩
  · rw [passed', passed, Nat.add_assoc, Nat.add_comm more]
  · have shifted : (List.range more).map middle = ((List.range more).map (earlier + ·)).map clock := by
      rw [List.map_map]
      exact List.map_congr_left (fun n _ => by rw [passed, Function.comp_apply, Nat.add_comm])
    rw [List.range_add, List.map_append, ← shifted]
    exact taken.append taken'

/-- Some of the times. -/
theorem sublist (readings : Readings clock next times) (fewer : later.Sublist times) : Readings clock next later := by
  obtain ⟨count, passed, taken⟩ := readings
  exact ⟨count, passed, fewer.trans taken⟩

section

variable [Preorder τ]

theorem le (readings : Readings clock next times) (monotone : Monotone clock) : clock 0 ≤ next 0 := by
  obtain ⟨count, passed, _⟩ := readings
  rw [passed]
  exact monotone (Nat.zero_le _)

/-- A clock that never goes back gives its times between its first reading and what it gives next. -/
theorem bounds (readings : Readings clock next times) (monotone : Monotone clock) {time : τ} (member : time ∈ times) :
    clock 0 ≤ time ∧ time ≤ next 0 := by
  obtain ⟨count, passed, taken⟩ := readings
  obtain ⟨n, before, rfl⟩ := List.mem_map.mp (taken.subset member)
  rw [passed]
  exact ⟨monotone (Nat.zero_le n), monotone ((List.mem_range.mp before).le.trans (Nat.le_add_left _ _))⟩

theorem ordered (readings : Readings clock next times) (monotone : Monotone clock) : times.Pairwise (· ≤ ·) := by
  obtain ⟨count, _, taken⟩ := readings
  refine List.Pairwise.sublist taken (List.pairwise_map.mpr ?_)
  exact List.pairwise_lt_range.imp (fun less => monotone less.le)

end

end Readings
