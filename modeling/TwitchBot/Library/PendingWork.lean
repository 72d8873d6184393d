import Mathlib.Algebra.BigOperators.Group.List.Basic
import Mathlib.Algebra.GroupWithZero.Nat
import TwitchBot.Library.IoContext

/-! The operations of an execution context whose handlers have not run. -/

namespace IoContext

universe u v

variable {Op : Type u} {Out : Type v}

/-- Operations whose handler has not run, outstanding or completed. -/
def pending (io : IoContext Op Out) : List Op := io.outstanding ++ io.completed.map Prod.fst

theorem pending_start (io : IoContext Op Out) (op : Op) : (io.start op).pending.Perm (op :: io.pending) := by
  simp only [start, pending, List.append_assoc]
  exact List.perm_middle

/-- Cancelling makes operations complete and leaves their handlers to run. -/
theorem pending_cancel (io : IoContext Op Out) (selected : Op → Bool) (aborted : Out) :
    (io.cancel selected aborted).pending.Perm io.pending := by
  have moved : ((io.outstanding.filter selected).map (fun op => (op, aborted))).map Prod.fst =
      io.outstanding.filter selected := by
    rw [List.map_map]
    exact List.map_id _
  have split : (io.outstanding.filter (fun op => !selected op) ++ io.outstanding.filter selected).Perm
      io.outstanding := List.perm_append_comm.trans (List.filter_append_perm selected io.outstanding)
  simp only [cancel, pending, List.map_append, moved]
  refine (List.Perm.append_left _ List.perm_append_comm).trans ?_
  rw [← List.append_assoc]
  exact split.append_right _

theorem pending_complete (io : IoContext Op Out) (index : Nat) (outcome : Out) :
    (io.complete index outcome).pending.Perm io.pending := by
  unfold complete
  split
  · exact .refl _
  · rename_i op found
    obtain ⟨bound, rfl⟩ := List.getElem?_eq_some_iff.mp found
    simp only [pending, List.map_append, List.map_cons, List.map_nil, ← List.append_assoc]
    refine List.perm_append_comm.trans ?_
    rw [← List.append_assoc]
    exact (List.getElem_cons_eraseIdx_perm bound).append_right _

theorem pending_take {io next : IoContext Op Out} {index : Nat} {completion : Op × Out}
    (taken : io.take index = some (completion, next)) : io.pending.Perm (completion.1 :: next.pending) := by
  obtain ⟨_, same, perm⟩ := take_eq_some taken
  simp only [pending, same]
  exact (List.Perm.append_left _ (perm.map Prod.fst)).trans List.perm_middle

/-- The work that is left, where every operation has its weight. -/
def load (weight : Op → Nat) (io : IoContext Op Out) : Nat := (io.pending.map weight).sum

theorem load_of_perm {weight : Op → Nat} {io next : IoContext Op Out} (perm : next.pending.Perm io.pending) :
    next.load weight = io.load weight := (perm.map weight).sum_eq

theorem load_start (weight : Op → Nat) (io : IoContext Op Out) (op : Op) :
    (io.start op).load weight = weight op + io.load weight := by
  rw [load, ((pending_start io op).map weight).sum_eq, List.map_cons, List.sum_cons, load]

theorem load_take {io next : IoContext Op Out} {index : Nat} {completion : Op × Out}
    (taken : io.take index = some (completion, next)) (weight : Op → Nat) :
    io.load weight = weight completion.1 + next.load weight := by
  rw [load, ((pending_take taken).map weight).sum_eq, List.map_cons, List.sum_cons, load]

end IoContext
