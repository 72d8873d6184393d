import Mathlib.Data.List.Perm.Basic

/-!
Asynchronous operations as an execution context sees them: an operation is
outstanding until it completes with an outcome, and its handler runs at some
later time, in any order among the completed ones. Cancelling completes only
what is still outstanding.
-/

universe u v

structure IoContext (Op : Type u) (Out : Type v) where
  outstanding : List Op := []
  completed : List (Op × Out) := []

namespace IoContext

variable {Op : Type u} {Out : Type v}

def start (io : IoContext Op Out) (op : Op) : IoContext Op Out :=
  { io with outstanding := io.outstanding ++ [op] }

/-- Completes the selected outstanding operations with one outcome. -/
def cancel (io : IoContext Op Out) (selected : Op → Bool) (aborted : Out) : IoContext Op Out where
  outstanding := io.outstanding.filter (fun op => !selected op)
  completed := io.completed ++ (io.outstanding.filter selected).map (fun op => (op, aborted))

/-- One outstanding operation completes. -/
def complete (io : IoContext Op Out) (index : Nat) (outcome : Out) : IoContext Op Out :=
  match io.outstanding[index]? with
  | none => io
  | some op => ⟨io.outstanding.eraseIdx index, io.completed ++ [(op, outcome)]⟩

/-- Takes one completion for its handler. -/
def take (io : IoContext Op Out) (index : Nat) : Option ((Op × Out) × IoContext Op Out) :=
  match io.completed[index]? with
  | none => none
  | some completion => some (completion, { io with completed := io.completed.eraseIdx index })

/-- Operations of a kind whose handler has not run. -/
def count (kind : Op → Bool) (io : IoContext Op Out) : Nat :=
  io.outstanding.countP kind + io.completed.countP (fun completion => kind completion.1)

/-- An operation can still be handled with a good outcome. -/
def Alive (good : Out → Prop) (io : IoContext Op Out) (op : Op) : Prop :=
  op ∈ io.outstanding ∨ ∃ outcome, good outcome ∧ (op, outcome) ∈ io.completed

variable {good : Out → Prop}

/-- Completions that wait for their handlers with a good outcome. -/
def queued (good : Out → Prop) [DecidablePred good] (io : IoContext Op Out) : Nat :=
  io.completed.countP (fun completion => good completion.2)

/-- Operations that can still be handled with a good outcome. -/
def live (good : Out → Prop) [DecidablePred good] (io : IoContext Op Out) : Nat :=
  io.outstanding.length + io.queued good

theorem take_eq_some {io next : IoContext Op Out} {index : Nat} {completion : Op × Out}
    (taken : io.take index = some (completion, next)) :
    completion ∈ io.completed ∧ next.outstanding = io.outstanding ∧
      io.completed.Perm (completion :: next.completed) := by
  unfold take at taken
  split at taken
  · cases taken
  · rename_i other found
    cases Option.some.inj taken
    obtain ⟨bound, same⟩ := List.getElem?_eq_some_iff.mp found
    subst same
    exact ⟨List.getElem_mem bound, rfl, (List.getElem_cons_eraseIdx_perm bound).symm⟩

theorem completed_of_take {io next : IoContext Op Out} {index : Nat} {completion : Op × Out}
    (taken : io.take index = some (completion, next)) : io.completed[index]? = some completion := by
  unfold take at taken
  split at taken
  · cases taken
  · rename_i found
    cases taken
    exact found

theorem count_start (kind : Op → Bool) (io : IoContext Op Out) (op : Op) :
    (io.start op).count kind = io.count kind + if kind op then 1 else 0 := by
  simp only [start, count, List.countP_append, List.countP_singleton]
  omega

theorem count_cancel (kind selected : Op → Bool) (io : IoContext Op Out) (aborted : Out) :
    (io.cancel selected aborted).count kind = io.count kind := by
  have split := List.countP_eq_countP_filter_add io.outstanding kind selected
  have moved : ((io.outstanding.filter selected).map (fun op => (op, aborted))).countP
      (fun completion => kind completion.1) = (io.outstanding.filter selected).countP kind := by
    rw [List.countP_map]
    rfl
  simp only [cancel, count, List.countP_append, moved]
  omega

theorem count_complete (kind : Op → Bool) (io : IoContext Op Out) (index : Nat) (outcome : Out) :
    (io.complete index outcome).count kind = io.count kind := by
  unfold complete
  split
  · rfl
  · rename_i op found
    obtain ⟨bound, same⟩ := List.getElem?_eq_some_iff.mp found
    have moved := (List.getElem_cons_eraseIdx_perm bound).countP_eq kind
    rw [same, List.countP_cons] at moved
    simp only [count, List.countP_append, List.countP_singleton]
    omega

theorem count_take {io next : IoContext Op Out} {index : Nat} {completion : Op × Out}
    (taken : io.take index = some (completion, next)) (kind : Op → Bool) :
    io.count kind = next.count kind + if kind completion.1 then 1 else 0 := by
  obtain ⟨_, same, perm⟩ := take_eq_some taken
  have moved := perm.countP_eq (fun completion => kind completion.1)
  rw [List.countP_cons] at moved
  simp only [count, same]
  omega

theorem count_pos_of_alive {io : IoContext Op Out} {op : Op} (alive : io.Alive good op) {kind : Op → Bool}
    (isKind : kind op = true) : 0 < io.count kind := by
  rcases alive with waiting | ⟨outcome, _, queued⟩
  · have some := List.countP_pos_iff.mpr ⟨op, waiting, isKind⟩
    exact Nat.add_pos_left some _
  · have some : 0 < io.completed.countP (fun completion => kind completion.1) :=
      List.countP_pos_iff.mpr ⟨(op, outcome), queued, isKind⟩
    exact Nat.add_pos_right _ some

theorem alive_start {io : IoContext Op Out} {op other : Op} :
    (io.start op).Alive good other ↔ io.Alive good other ∨ other = op := by
  simp only [Alive, start, List.mem_append, List.mem_singleton]
  exact or_right_comm

/-- Cancelling with a bad outcome leaves alive what is completed or not selected. -/
theorem alive_cancel {io : IoContext Op Out} {selected : Op → Bool} {aborted : Out} (bad : ¬good aborted)
    {op : Op} : (io.cancel selected aborted).Alive good op →
      io.Alive good op ∧ (selected op = false ∨ ∃ outcome, good outcome ∧ (op, outcome) ∈ io.completed) := by
  rintro (waiting | ⟨outcome, isGood, queued⟩)
  · obtain ⟨member, free⟩ := List.mem_filter.mp waiting
    exact ⟨Or.inl member, Or.inl (by simpa using free)⟩
  · rcases List.mem_append.mp queued with old | new
    · exact ⟨Or.inr ⟨outcome, isGood, old⟩, Or.inr ⟨outcome, isGood, old⟩⟩
    · obtain ⟨_, _, same⟩ := List.mem_map.mp new
      cases same
      exact absurd isGood bad

theorem alive_cancel_of_not_selected {io : IoContext Op Out} {selected : Op → Bool} {aborted : Out} {op : Op}
    (free : selected op = false) (alive : io.Alive good op) : (io.cancel selected aborted).Alive good op := by
  rcases alive with waiting | ⟨outcome, isGood, queued⟩
  · exact Or.inl (List.mem_filter.mpr ⟨waiting, by simp [free]⟩)
  · exact Or.inr ⟨outcome, isGood, List.mem_append_left _ queued⟩

theorem alive_of_complete {io : IoContext Op Out} {index : Nat} {outcome : Out} {op : Op}
    (alive : (io.complete index outcome).Alive good op) : io.Alive good op := by
  unfold complete at alive
  split at alive
  · exact alive
  · rename_i found
    rcases alive with waiting | ⟨other, isGood, queued⟩
    · exact Or.inl (List.mem_of_mem_eraseIdx waiting)
    · rcases List.mem_append.mp queued with old | new
      · exact Or.inr ⟨other, isGood, old⟩
      · cases List.mem_singleton.mp new
        exact Or.inl (List.mem_of_getElem? found)

/-- Completing operations well keeps everything alive. -/
theorem alive_complete {io : IoContext Op Out} {index : Nat} {outcome : Out} {op : Op}
    (well : ∀ other, io.outstanding[index]? = some other → other = op → good outcome)
    (alive : io.Alive good op) : (io.complete index outcome).Alive good op := by
  unfold complete
  split
  · exact alive
  · rename_i other found
    rcases alive with waiting | ⟨past, isGood, queued⟩
    · obtain ⟨bound, same⟩ := List.getElem?_eq_some_iff.mp found
      have moved := (List.getElem_cons_eraseIdx_perm bound).mem_iff.mpr waiting
      rw [same] at moved
      rcases List.mem_cons.mp moved with rfl | rest
      · exact Or.inr ⟨outcome, well op found rfl, List.mem_append_right _ List.mem_cons_self⟩
      · exact Or.inl rest
    · exact Or.inr ⟨past, isGood, List.mem_append_left _ queued⟩

theorem alive_of_take {io next : IoContext Op Out} {index : Nat} {completion : Op × Out}
    (taken : io.take index = some (completion, next)) {op : Op} (alive : next.Alive good op) :
    io.Alive good op := by
  obtain ⟨_, same, perm⟩ := take_eq_some taken
  rcases alive with waiting | ⟨outcome, isGood, queued⟩
  · exact Or.inl (same ▸ waiting)
  · exact Or.inr ⟨outcome, isGood, perm.mem_iff.mpr (List.mem_cons_of_mem _ queued)⟩

theorem alive_take {io next : IoContext Op Out} {index : Nat} {completion : Op × Out}
    (taken : io.take index = some (completion, next)) {op : Op}
    (other : ¬good completion.2 ∨ completion.1 ≠ op) (alive : io.Alive good op) : next.Alive good op := by
  obtain ⟨_, same, perm⟩ := take_eq_some taken
  rcases alive with waiting | ⟨outcome, isGood, queued⟩
  · exact Or.inl (same ▸ waiting)
  · rcases List.mem_cons.mp (perm.mem_iff.mp queued) with rfl | rest
    · exact absurd other (by simp [isGood])
    · exact Or.inr ⟨outcome, isGood, rest⟩

section

variable [DecidablePred good]

theorem queued_cancel (io : IoContext Op Out) (selected : Op → Bool) {aborted : Out} (bad : ¬good aborted) :
    (io.cancel selected aborted).queued good = io.queued good := by
  simp [queued, cancel, List.countP_append, List.countP_eq_zero, bad]

theorem live_cancel_le {io : IoContext Op Out} {selected : Op → Bool} {aborted : Out} (bad : ¬good aborted) :
    (io.cancel selected aborted).live good ≤ io.live good := by
  rw [live, live, queued_cancel _ _ bad]
  exact Nat.add_le_add_right (List.length_filter_le _ _) _

/-- Only the new operation is outstanding after everything was cancelled. -/
theorem live_restart {io : IoContext Op Out} {aborted : Out} (bad : ¬good aborted) (op : Op) :
    ((io.cancel (fun _ => true) aborted).start op).live good = io.queued good + 1 := by
  have alone : ((io.cancel (fun _ => true) aborted).start op).outstanding = [op] := by
    simp [start, cancel]
  have kept : ((io.cancel (fun _ => true) aborted).start op).queued good = io.queued good := queued_cancel _ _ bad
  rw [live, alone, kept, List.length_singleton, Nat.add_comm]

theorem live_complete_le {io : IoContext Op Out} {index : Nat} {outcome : Out} :
    (io.complete index outcome).live good ≤ io.live good := by
  unfold complete
  split
  · exact Nat.le_refl _
  · rename_i op found
    obtain ⟨bound, _⟩ := List.getElem?_eq_some_iff.mp found
    simp only [live, queued, List.length_eraseIdx_of_lt bound, List.countP_append, List.countP_singleton]
    split <;> omega

/-- An operation that completes well stays live. -/
theorem live_complete (io : IoContext Op Out) (index : Nat) {outcome : Out} (isGood : good outcome) :
    (io.complete index outcome).live good = io.live good := by
  unfold complete
  split
  · rfl
  · rename_i op found
    obtain ⟨bound, _⟩ := List.getElem?_eq_some_iff.mp found
    simp only [live, queued, List.length_eraseIdx_of_lt bound, List.countP_append, List.countP_singleton,
      isGood, decide_true, if_true]
    omega

theorem live_take {io next : IoContext Op Out} {index : Nat} {completion : Op × Out}
    (taken : io.take index = some (completion, next)) :
    io.live good = next.live good + if good completion.2 then 1 else 0 := by
  obtain ⟨_, same, perm⟩ := take_eq_some taken
  have moved := perm.countP_eq (fun completion => decide (good completion.2))
  rw [List.countP_cons] at moved
  simp only [decide_eq_true_eq] at moved
  simp only [live, queued, same]
  omega

end

end IoContext
