import TwitchBot.Library.IoContext

/-!
Relabelling of asynchronous operations: an execution context does not look at
what its operations carry, so it does the same after its operations are renamed.
-/

universe u u' v

namespace IoContext

variable {Op : Type u} {Op' : Type u'} {Out : Type v}

/-- The context with every operation renamed. -/
def relabel (rename : Op → Op') (io : IoContext Op Out) : IoContext Op' Out where
  outstanding := io.outstanding.map rename
  completed := io.completed.map (fun completion => (rename completion.1, completion.2))

variable (rename : Op → Op') (io : IoContext Op Out)

@[simp] theorem relabel_start (op : Op) : (io.start op).relabel rename = (io.relabel rename).start (rename op) := by
  simp [relabel, start]

theorem relabel_cancel {selected : Op → Bool} {selected' : Op' → Bool}
    (same : ∀ op, selected' (rename op) = selected op) (aborted : Out) :
    (io.cancel selected aborted).relabel rename = (io.relabel rename).cancel selected' aborted := by
  simp [relabel, cancel, List.filter_map, Function.comp_def, same]

@[simp] theorem relabel_complete (index : Nat) (outcome : Out) :
    (io.complete index outcome).relabel rename = (io.relabel rename).complete index outcome := by
  have at_ : (io.relabel rename).outstanding[index]? = io.outstanding[index]?.map rename := by simp [relabel]
  unfold complete
  rw [at_]
  cases io.outstanding[index]? with
  | none => rfl
  | some op => simp [relabel, List.eraseIdx_map]

@[simp] theorem take_relabel (index : Nat) :
    (io.relabel rename).take index =
      (io.take index).map (fun taken => ((rename taken.1.1, taken.1.2), taken.2.relabel rename)) := by
  have at_ : (io.relabel rename).completed[index]? =
      io.completed[index]?.map (fun completion => (rename completion.1, completion.2)) := by simp [relabel]
  unfold take
  rw [at_]
  cases io.completed[index]? with
  | none => rfl
  | some completion => simp [relabel, List.eraseIdx_map]

end IoContext
