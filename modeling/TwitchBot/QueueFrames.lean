import TwitchBot.SingleWriter

namespace TwitchBot

open Outbox Relation

/-- What the queue does on its own while it schedules and writes. -/
def Effect.isScheduling : Effect → Bool
  | .started operation => operation.isOutgoing
  | .writing .. => true
  | .wrote .. => true
  | .undefinedBehaviour => true
  | _ => false

/-- One outbox behind another whose trace has grown by the queue's own effects. -/
def Schedules (start next : Outbox) : Prop :=
  ∃ effects, next.trace = start.trace ++ effects ∧ ∀ effect ∈ effects, effect.isScheduling = true

namespace Schedules

variable {start middle next : Outbox}

theorem of_eq (same : next.trace = start.trace) : Schedules start next :=
  ⟨[], by rw [same, List.append_nil], by simp⟩

theorem of_concat {effect : Effect} (grown : next.trace = start.trace ++ [effect])
    (scheduling : effect.isScheduling = true) : Schedules start next :=
  ⟨[effect], grown, by simpa using scheduling⟩

theorem trans (left : Schedules start middle) (right : Schedules middle next) : Schedules start next := by
  obtain ⟨earlier, grown, scheduling⟩ := left
  obtain ⟨later, grown', scheduling'⟩ := right
  refine ⟨earlier ++ later, by rw [grown', grown, List.append_assoc], fun effect member => ?_⟩
  exact (List.mem_append.mp member).elim (scheduling effect) (scheduling' effect)

/-- A reading of the trace that overlooks the queue's own effects is unchanged. -/
theorem filterMap {α : Type} {read : Effect → Option α} (schedules : Schedules start next)
    (overlooks : ∀ effect : Effect, effect.isScheduling = true → read effect = none) :
    next.trace.filterMap read = start.trace.filterMap read := by
  obtain ⟨effects, grown, scheduling⟩ := schedules
  have none : effects.filterMap read = [] :=
    List.filterMap_eq_nil_iff.mpr (fun effect member => overlooks effect (scheduling effect member))
  rw [grown, List.filterMap_append, none, List.append_nil]

theorem countP {kind : Effect → Bool} (schedules : Schedules start next)
    (overlooks : ∀ effect : Effect, effect.isScheduling = true → kind effect = false) :
    next.trace.countP kind = start.trace.countP kind := by
  obtain ⟨effects, grown, scheduling⟩ := schedules
  have none : effects.countP kind = 0 :=
    List.countP_eq_zero.mpr (fun effect member => by simp [overlooks effect (scheduling effect member)])
  rw [grown, List.countP_append, none, Nat.add_zero]

end Schedules

namespace Outbox

theorem scheduleWrite_schedules (outbox : Outbox) : Schedules outbox outbox.scheduleWrite := by
  rcases scheduleWrite_cases outbox with ⟨same, _⟩ | ⟨_, _, selected, limiter, _, _, ⟨_, armed⟩ | ⟨_, started⟩⟩
  · rw [same]
    exact .of_eq rfl
  · rw [armed]
    exact ⟨[.started (.writeWait selected.time)], rfl, by simp [Effect.isScheduling, Operation.isOutgoing,
      Operation.isWrite, Operation.isWriteWait]⟩
  · rw [started]
    refine ⟨[.writing selected.message outbox.now limiter, .started (.write selected.message.wireData)], ?_, ?_⟩
    · simp [startWrite, emit, launch, tick]
    · simp [Effect.isScheduling, Operation.isOutgoing, Operation.isWrite]

theorem onWritten_schedules (outbox : Outbox) : Schedules outbox outbox.onWritten := by
  cases current : outbox.currentWrite with
  | none =>
    rw [onWritten, current]
    exact .of_concat rfl rfl
  | some message =>
    have recorded : Schedules outbox (outbox.recorded message) := .of_concat rfl rfl
    rw [onWritten_of_current current]
    exact recorded.trans (scheduleWrite_schedules _)

theorem onWriteTimer_schedules (outbox : Outbox) (outcome : Outcome) :
    Schedules outbox (outbox.onWriteTimer outcome) := by
  cases outcome with
  | failure what => exact .of_eq rfl
  | success data => exact scheduleWrite_schedules outbox

/-- Everything that an outbox does with its operations: it starts one, aborts
some, and one completes or has its handler run. -/
inductive IoMove : IoContext Operation Outcome → IoContext Operation Outcome → Prop
  | start (io : IoContext Operation Outcome) (operation : Operation) : IoMove io (io.start operation)
  | cancel (io : IoContext Operation Outcome) (selected : Operation → Bool) :
    IoMove io (io.cancel selected operationAborted)
  | complete (io : IoContext Operation Outcome) (index : Nat) (operation : Operation) (outcome : Outcome) (now : Time)
    (found : io.outstanding[index]? = some operation) (possible : operation.completesWith now outcome = true) :
    IoMove io (io.complete index outcome)
  | take (io next : IoContext Operation Outcome) (index : Nat) (completion : Operation × Outcome)
    (taken : io.take index = some (completion, next)) : IoMove io next

abbrev IoMoves : IoContext Operation Outcome → IoContext Operation Outcome → Prop := ReflTransGen IoMove

theorem finish_io (outbox : Outbox) (reason : SessionEndReason) (message : Bytes) :
    IoMoves outbox.io (outbox.finish reason message).io := by
  unfold finish
  split
  · exact .refl
  · exact .single (.cancel _ _)

theorem scheduleWrite_io (outbox : Outbox) : IoMoves outbox.io outbox.scheduleWrite.io := by
  rcases scheduleWrite_cases outbox with ⟨same, _⟩ | ⟨_, _, selected, limiter, _, _, ⟨_, armed⟩ | ⟨_, started⟩⟩
  · rw [same]
  · rw [armed]
    exact (ReflTransGen.single (.cancel _ _)).tail (.start _ _)
  · rw [started]
    exact .single (.start _ _)

theorem onWritten_io (outbox : Outbox) : IoMoves outbox.io outbox.onWritten.io := by
  cases current : outbox.currentWrite with
  | none =>
    rw [onWritten, current]
    exact .refl
  | some message =>
    rw [onWritten_of_current current]
    exact scheduleWrite_io (outbox.recorded message)

theorem Move.io {outbox next : Outbox} (move : Move outbox next) : IoMoves outbox.io next.io := by
  cases move with
  | tick => exact .refl
  | enqueue message =>
    rcases enqueue_cases outbox message with ⟨_, same⟩ | ⟨_, _, _, dropped⟩ | ⟨_, _, _, ended⟩ | ⟨_, _, accepted⟩
    · rw [same]
    · rw [dropped]
      exact .refl
    · rw [ended]
      exact finish_io outbox _ _
    · rw [accepted]
      exact scheduleWrite_io ({ outbox with outbound := outbox.outbound ++ [message] }.emit (.accepted message))
  | finish reason message => exact finish_io outbox reason message
  | launch operation aside => exact .single (.start _ operation)
  | cancel selected aside => exact .single (.cancel _ selected)
  | emit effect aside => exact .refl
  | complete index operation outcome found possible =>
    exact .single (.complete _ index operation outcome _ found possible)
  | pass io index operation outcome taken aside => exact .single (.take _ io index _ taken)
  | timer io index deadline outcome taken =>
    refine (ReflTransGen.single (.take _ io index _ taken)).trans ?_
    cases outcome with
    | failure what => exact .refl
    | success data => exact scheduleWrite_io { outbox with io := io }
  | write io index data outcome taken =>
    refine (ReflTransGen.single (.take _ io index _ taken)).trans ?_
    cases outcome with
    | failure what => exact finish_io { outbox with io := io } _ _
    | success bytes => exact onWritten_io { outbox with io := io }

theorem Moves.io {outbox next : Outbox} (moves : Moves outbox next) : IoMoves outbox.io next.io := by
  induction moves with
  | refl => exact .refl
  | tail _ move ih => exact ih.trans move.io

end Outbox

/-- What was read fits the read buffer. -/
def ReadsFit (io : IoContext Operation Outcome) : Prop :=
  ∀ data, (Operation.read, Outcome.success data) ∈ io.completed → data.length ≤ 4096

theorem ReadsFit.move {io next : IoContext Operation Outcome} (fit : ReadsFit io) (move : IoMove io next) :
    ReadsFit next := by
  intro data member
  cases move with
  | start operation => exact fit data member
  | cancel selected =>
    rcases List.mem_append.mp member with old | aborted
    · exact fit data old
    · obtain ⟨_, _, same⟩ := List.mem_map.mp aborted
      cases same
  | complete index operation outcome now found possible =>
    simp only [IoContext.complete, found] at member
    rcases List.mem_append.mp member with old | new
    · exact fit data old
    · cases List.mem_singleton.mp new
      exact of_decide_eq_true possible
  | take _ index completion taken =>
    obtain ⟨_, _, perm⟩ := IoContext.take_eq_some taken
    exact fit data (perm.mem_iff.mpr (List.mem_cons_of_mem _ member))

theorem ReadsFit.moves {outbox next : Outbox} (fit : ReadsFit outbox.io) (moves : Moves outbox next) :
    ReadsFit next.io := by
  have run := moves.io
  generalize next.io = io at run ⊢
  induction run with
  | refl => exact fit
  | tail _ move ih => exact ih.move move

end TwitchBot
