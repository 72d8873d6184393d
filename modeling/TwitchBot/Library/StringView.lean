import Mathlib.Data.List.Basic
import TwitchBot.Library.ExceptRun

/-!
Checked string views. Every access reports what the unchecked program would
have done outside the bounds, so that "stays in bounds" is a statement about
the results and not a convention.
-/

namespace StringView

open ExceptRun

/-- Ways a cursor program can leave its view: `substr` beyond the end throws,
an index beyond the end is undefined, an unsigned difference wraps around, and
a loop that does not advance never returns. -/
inductive Fault
  | outOfRange
  | pastEnd
  | negativeLength
  | outOfFuel
  deriving DecidableEq, Repr

/-- A checked computation either rejects its input for a reason of its own or
leaves its view. -/
inductive Failure (ρ : Type*)
  | rejected (reason : ρ)
  | fault (fault : Fault)
  deriving DecidableEq, Repr

variable {α : Type*} {ρ : Type*}

/-- `view.find(c, pos)`; `none` is `npos`. -/
def find [DecidableEq α] (view : List α) (c : α) (pos : Nat) : Option Nat :=
  ((view.drop pos).findIdx? (fun x => decide (x = c))).map (pos + ·)

/-- `view[pos]`. -/
def charAt (view : List α) (pos : Nat) : Except (Failure ρ) α :=
  match view[pos]? with
  | some c => .ok c
  | none => .error (.fault .pastEnd)

/-- `view.substr(pos, count)`; the count `none` is `npos`. -/
def substr (view : List α) (pos : Nat) (count : Option Nat) : Except (Failure ρ) (List α) :=
  if pos ≤ view.length then
    .ok ((view.drop pos).take (count.getD (view.length - pos)))
  else .error (.fault .outOfRange)

/-- `stop == npos ? npos : stop - start` in unsigned arithmetic. -/
def distance (start : Nat) : Option Nat → Except (Failure ρ) (Option Nat)
  | none => .ok none
  | some stop => if start ≤ stop then .ok (some (stop - start)) else .error (.fault .negativeLength)

/-- A text either avoids a character or is cut at its first occurrence. -/
theorem cut_cases (c : α) (text : List α) :
    c ∉ text ∨ ∃ word rest, text = word ++ c :: rest ∧ c ∉ word := by
  by_cases member : c ∈ text
  · exact Or.inr (List.eq_append_cons_of_mem member)
  · exact Or.inl member

@[simp] theorem find_cut [DecidableEq α] (before : List α) {word : List α} (rest : List α) {c : α}
    (free : c ∉ word) :
    find (before ++ (word ++ c :: rest)) c before.length = some (before.length + word.length) := by
  have index : (word ++ c :: rest).findIdx? (fun x => decide (x = c)) = some word.length := by
    have none : word.findIdx? (fun x => decide (x = c)) = none := by
      rw [List.findIdx?_eq_none_iff]
      intro x member
      simp only [decide_eq_false_iff_not]
      rintro rfl
      exact free member
    simp [List.findIdx?_append, none, List.findIdx?_cons]
  simp only [find, List.drop_left, index, Option.map_some]

@[simp] theorem find_cut_zero [DecidableEq α] {word : List α} (rest : List α) {c : α} (free : c ∉ word) :
    find (word ++ c :: rest) c 0 = some word.length := by
  simpa using find_cut [] rest free

@[simp] theorem find_none [DecidableEq α] (before : List α) {word : List α} {c : α} (free : c ∉ word) :
    find (before ++ word) c before.length = none := by
  have index : word.findIdx? (fun x => decide (x = c)) = none := by
    rw [List.findIdx?_eq_none_iff]
    intro x member
    simp only [decide_eq_false_iff_not]
    rintro rfl
    exact free member
  simp only [find, List.drop_left, index, Option.map_none]

@[simp] theorem find_none_zero [DecidableEq α] {word : List α} {c : α} (free : c ∉ word) :
    find word c 0 = none := by
  simpa using find_none [] free

@[simp] theorem charAt_cut (before : List α) (c : α) (rest : List α) :
    charAt (ρ := ρ) (before ++ c :: rest) before.length = .ok c := by
  simp [charAt]

@[simp] theorem substr_cut (before word rest : List α) :
    substr (ρ := ρ) (before ++ (word ++ rest)) before.length (some word.length) = .ok word := by
  simp [substr]

@[simp] theorem substr_rest (before word : List α) :
    substr (ρ := ρ) (before ++ word) before.length none = .ok word := by
  simp [substr]

@[simp] theorem distance_none {start : Nat} : distance (ρ := ρ) start none = .ok none := rfl

@[simp] theorem distance_add (start count : Nat) :
    distance (ρ := ρ) start (some (start + count)) = .ok (some count) := by
  simp [distance]

end StringView
