import Mathlib.Data.Finmap

/-! Maps filled by assignments, of which the last one to a key stays. -/

namespace LastWins

universe u v

variable {κ : Type u} {ν : Type v} [DecidableEq κ]

/-- What the last assignment to a key gives it. -/
def lastValue (pairs : List (κ × ν)) (key : κ) : Option ν :=
  ((pairs.filter (fun pair => decide (pair.1 = key))).getLast?).map Prod.snd

def assignAll (pairs : List (κ × ν)) (map : Finmap (fun _ : κ => ν)) : Finmap (fun _ : κ => ν) :=
  pairs.foldl (fun map pair => map.insert pair.1 pair.2) map

theorem assignAll_cons (pair : κ × ν) (pairs : List (κ × ν)) (map : Finmap (fun _ : κ => ν)) :
    assignAll (pair :: pairs) map = assignAll pairs (map.insert pair.1 pair.2) := rfl

theorem lastValue_concat (pairs : List (κ × ν)) (pair : κ × ν) (key : κ) :
    lastValue (pairs ++ [pair]) key = if pair.1 = key then some pair.2 else lastValue pairs key := by
  by_cases same : pair.1 = key
  · simp [lastValue, List.filter_append, same]
  · simp [lastValue, List.filter_append, same]

/-- Keys that are not assigned keep their value. -/
theorem assignAll_lookup (pairs : List (κ × ν)) (map : Finmap (fun _ : κ => ν)) (key : κ) :
    (assignAll pairs map).lookup key = (lastValue pairs key).or (map.lookup key) := by
  induction pairs using List.reverseRecOn with
  | nil => rfl
  | append_singleton pairs pair ih =>
    have last : assignAll (pairs ++ [pair]) map = (assignAll pairs map).insert pair.1 pair.2 := by
      simp [assignAll]
    rw [last, lastValue_concat]
    by_cases same : pair.1 = key
    · subst same
      rw [Finmap.lookup_insert, if_pos rfl, Option.some_or]
    · rw [Finmap.lookup_insert_of_ne _ (Ne.symm same), if_neg same, ih]

/-- From the empty map, the assignments alone decide. -/
theorem assignAll_empty_lookup (pairs : List (κ × ν)) (key : κ) :
    (assignAll pairs ∅).lookup key = lastValue pairs key := by
  rw [assignAll_lookup, Finmap.lookup_empty, Option.or_none]

end LastWins
