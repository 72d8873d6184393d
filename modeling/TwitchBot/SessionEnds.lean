import TwitchBot.Pacing

namespace TwitchBot

open Outbox

/-- One outbox behind another: what it did since is added to the trace, and
among that is one end exactly if it was closed since. -/
def Continues (start next : Outbox) : Prop :=
  ∃ effects, next.trace = start.trace ++ effects ∧
    effects.countP Effect.isEnded + start.closed.toNat = next.closed.toNat

namespace Continues

variable {start middle next : Outbox}

theorem refl (outbox : Outbox) : Continues outbox outbox := ⟨[], (List.append_nil _).symm, Nat.zero_add _⟩

theorem trans (left : Continues start middle) (right : Continues middle next) : Continues start next := by
  obtain ⟨earlier, trace, closed⟩ := left
  obtain ⟨later, trace', closed'⟩ := right
  refine ⟨earlier ++ later, by rw [trace', trace, List.append_assoc], ?_⟩
  rw [List.countP_append]
  omega

/-- Nothing but the trace and the flag counts. -/
theorem of_eq (trace : next.trace = start.trace) (closed : next.closed = start.closed) : Continues start next :=
  ⟨[], by rw [trace, List.append_nil], by rw [closed]; exact Nat.zero_add _⟩

theorem of_concat {effect : Effect} (trace : next.trace = start.trace ++ [effect])
    (closed : next.closed = start.closed) (noEnd : effect.isEnded = false) : Continues start next := by
  refine ⟨[effect], trace, ?_⟩
  rw [closed, List.countP_singleton, noEnd]
  exact Nat.zero_add _

/-- An open outbox that goes on to be open has not ended. -/
theorem closed_of_closed (continues : Continues start next) (closed : start.closed = true) :
    next.closed = true := by
  obtain ⟨effects, _, count⟩ := continues
  rw [closed] at count
  cases isClosed : next.closed with
  | true => rfl
  | false =>
    rw [isClosed] at count
    cases count

end Continues

namespace Outbox

theorem emit_continues (outbox : Outbox) {effect : Effect} (noEnd : effect.isEnded = false) :
    Continues outbox (outbox.emit effect) := .of_concat rfl rfl noEnd

theorem launch_continues (outbox : Outbox) (operation : Operation) : Continues outbox (outbox.launch operation) :=
  .of_concat rfl rfl rfl

theorem finish_continues (outbox : Outbox) (reason : SessionEndReason) (message : Bytes) :
    Continues outbox (outbox.finish reason message) := by
  cases closed : outbox.closed with
  | true =>
    rw [finish_of_closed closed]
    exact .refl outbox
  | false =>
    refine ⟨[.ended reason message], ?_, ?_⟩
    all_goals rw [finish, closed]; rfl

theorem scheduleWrite_continues (outbox : Outbox) : Continues outbox outbox.scheduleWrite := by
  rcases scheduleWrite_cases outbox with ⟨same, _⟩ |
    ⟨_, _, selected, limiter, _, _, ⟨_, armed⟩ | ⟨_, started⟩⟩
  · rw [same]
    exact .refl outbox
  · rw [armed]
    exact .of_concat rfl rfl rfl
  · rw [started]
    exact (Continues.of_concat rfl rfl rfl : Continues outbox ({ outbox.tick with
      limiter := limiter
      currentWrite := some selected.message
      outbound := outbox.outbound.eraseIdx selected.index
      writeInProgress := true }.emit (.writing selected.message outbox.now limiter))).trans
      (launch_continues _ _)

theorem enqueue_continues (outbox : Outbox) (message : OutboundMessage) :
    Continues outbox (outbox.enqueue message) := by
  rcases enqueue_cases outbox message with ⟨_, same⟩ | ⟨_, _, _, dropped⟩ | ⟨_, _, _, ended⟩ |
    ⟨_, _, accepted⟩
  · rw [same]
    exact .refl outbox
  · rw [dropped]
    exact emit_continues outbox rfl
  · rw [ended]
    exact finish_continues outbox _ _
  · rw [accepted]
    exact (Continues.of_concat rfl rfl rfl : Continues outbox ({ outbox with
      outbound := outbox.outbound ++ [message] }.emit (.accepted message))).trans (scheduleWrite_continues _)

theorem onWritten_continues (outbox : Outbox) : Continues outbox outbox.onWritten := by
  unfold onWritten
  split
  · exact emit_continues outbox rfl
  · rename_i message _
    exact (Continues.of_concat rfl rfl rfl : Continues outbox ({ outbox.tick with
      limiter := outbox.limiter.record message.kind message.channel outbox.now
      currentWrite := none
      writeInProgress := false }.emit (.wrote message outbox.now))).trans (scheduleWrite_continues _)

/-- Every move continues its outbox. -/
theorem Move.continues {outbox next : Outbox} (move : Move outbox next) : Continues outbox next := by
  cases move with
  | tick => exact .of_eq rfl rfl
  | enqueue message => exact enqueue_continues outbox message
  | finish reason message => exact finish_continues outbox reason message
  | launch operation aside => exact launch_continues outbox operation
  | cancel selected aside => exact .of_eq rfl rfl
  | emit effect aside => exact emit_continues outbox (Effect.quiet_of_aside aside).2.2
  | complete index operation outcome found possible => exact .of_eq rfl rfl
  | pass io index operation outcome taken aside => exact .of_eq rfl rfl
  | timer io index deadline outcome taken =>
    have passed : Continues outbox { outbox with io := io } := .of_eq rfl rfl
    cases outcome with
    | failure what => exact passed
    | success data => exact passed.trans (scheduleWrite_continues _)
  | write io index data outcome taken =>
    have passed : Continues outbox { outbox with io := io } := .of_eq rfl rfl
    cases outcome with
    | failure what => exact passed.trans (finish_continues _ _ _)
    | success bytes => exact passed.trans (onWritten_continues _)

theorem Moves.continues {outbox next : Outbox} (moves : Moves outbox next) : Continues outbox next := by
  induction moves with
  | refl => exact .refl _
  | tail _ move ih => exact ih.trans move.continues

end Outbox

/-- Among effects that count one end there is a first part, the end, and a rest. -/
theorem split_at_end {effects : List Effect} (ends : effects.countP Effect.isEnded = 1) :
    ∃ before reason message after, effects = before ++ .ended reason message :: after ∧
      (∀ effect ∈ before, effect.isEnded = false) ∧ ∀ effect ∈ after, effect.isEnded = false := by
  have found : ∃ effect ∈ effects, effect.isEnded = true := by
    by_contra none
    rw [List.countP_eq_zero.mpr (by simpa using none)] at ends
    cases ends
  obtain ⟨effect, member, isEnd⟩ := found
  obtain ⟨before, after, rfl⟩ := List.append_of_mem member
  rw [List.countP_append, List.countP_cons_of_pos isEnd] at ends
  have first : before.countP Effect.isEnded = 0 := by omega
  have last : after.countP Effect.isEnded = 0 := by omega
  cases effect with
  | ended reason message =>
    exact ⟨before, reason, message, after, rfl, by simpa using List.countP_eq_zero.mp first,
      by simpa using List.countP_eq_zero.mp last⟩
  | _ => cases isEnd

/-- The end among such effects is the only one. -/
theorem end_unique {before after before' after' : List Effect} {reason reason' : SessionEndReason}
    {message message' : Bytes}
    (split : before ++ .ended reason message :: after = before' ++ .ended reason' message' :: after')
    (beforeQuiet : ∀ effect ∈ before, effect.isEnded = false)
    (afterQuiet : ∀ effect ∈ after, effect.isEnded = false) : before = before' ∧ reason = reason' := by
  rcases List.append_eq_append_iff.mp split with ⟨more, rfl, rest⟩ | ⟨more, rfl, rest⟩
  · cases more with
    | nil =>
      cases rest
      exact ⟨(List.append_nil _).symm, rfl⟩
    | cons effect more =>
      cases rest
      have isEnd := afterQuiet (.ended reason' message') (List.mem_append_right _ List.mem_cons_self)
      cases isEnd
  · cases more with
    | nil =>
      cases rest
      exact ⟨List.append_nil _, rfl⟩
    | cons effect more =>
      cases rest
      have isEnd := beforeQuiet (.ended reason' message') (List.mem_append_right _ List.mem_cons_self)
      cases isEnd

/-- What the count of ends says about an outbox before and after. -/
theorem closing_cases {ends : Nat} {was is : Bool} (count : ends + was.toNat = is.toNat) :
    ends = 0 ∧ is = was ∨ ends = 1 ∧ was = false ∧ is = true := by
  cases was <;> cases is
  all_goals simp only [Bool.toNat_false, Bool.toNat_true] at count
  · exact Or.inl ⟨count, rfl⟩
  · exact Or.inr ⟨count, rfl, rfl⟩
  · omega
  · exact Or.inl ⟨by omega, rfl⟩

end TwitchBot
