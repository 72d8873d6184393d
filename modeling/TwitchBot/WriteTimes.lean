import TwitchBot.Library.ClockReadings
import TwitchBot.RateHistory
import TwitchBot.SessionMoves

namespace TwitchBot

open Outbox

/-- The time at which a write was started or counted. -/
def Effect.writeTime : Effect → Option Time
  | .writing _ now _ => some now
  | .wrote _ sentAt => some sentAt
  | _ => none

def writeTimes (trace : List Effect) : List Time := trace.filterMap Effect.writeTime

theorem writeTimes_append (earlier later : List Effect) :
    writeTimes (earlier ++ later) = writeTimes earlier ++ writeTimes later := List.filterMap_append

/-- What became of a limiter: it was queried, and writes were recorded in it in
their order. -/
inductive Metered (limiter : RateLimiter) : History → RateLimiter → Prop
  | refl : Metered limiter [] limiter
  | query {history : History} {next : RateLimiter} (kind : OutboundKind) (channel : Bytes) (now : Time) :
    Metered limiter history next → Metered limiter history (next.nextAllowed kind channel now).2
  | record {history : History} {next : RateLimiter} (message : OutboundMessage) (sentAt : Time) :
    Metered limiter history next →
      Metered limiter (history ++ [(message, sentAt)]) (next.record message.kind message.channel sentAt)

namespace Metered

variable {limiter middle next : RateLimiter} {history later : History}

theorem append (left : Metered limiter history middle) (right : Metered middle later next) :
    Metered limiter (history ++ later) next := by
  induction right with
  | refl => rwa [List.append_nil]
  | query kind channel now _ ih => exact ih.query kind channel now
  | record message sentAt _ ih =>
    rw [← List.append_assoc]
    exact ih.record message sentAt

theorem of_queried {now : Time} (queried : Queried now limiter next) : Metered limiter [] next := by
  induction queried with
  | refl => exact .refl
  | query kind channel _ ih => exact ih.query kind channel now

end Metered

/-- What is added to the trace of an outbox: writes are started and counted at
readings of the clock, and the limiter records those that are counted. -/
structure Grows (start next : Outbox) (effects : List Effect) : Prop where
  trace : next.trace = start.trace ++ effects
  times : Readings start.clock next.clock (writeTimes effects)
  metered : Metered start.limiter (sentWrites effects) next.limiter

namespace Grows

variable {start middle next : Outbox} {effects more : List Effect}

theorem of_trace (trace : next.trace = start.trace) (clock : next.clock = start.clock)
    (limiter : next.limiter = start.limiter) : Grows start next [] := by
  refine ⟨by rw [trace, List.append_nil], ?_, ?_⟩
  · rw [clock]
    exact .refl _
  · rw [limiter]
    exact .refl

/-- An effect that is no write. -/
theorem of_effect {effect : Effect} (trace : next.trace = start.trace ++ [effect])
    (noTime : effect.writeTime = none) (clock : next.clock = start.clock) (limiter : next.limiter = start.limiter) :
    Grows start next [effect] := by
  have notSent : effect.sent = none := by
    cases effect with
    | wrote message sentAt => cases noTime
    | _ => rfl
  refine ⟨trace, ?_, ?_⟩
  · rw [clock, writeTimes, List.filterMap_cons_none noTime]
    exact .refl _
  · rw [limiter, sentWrites, List.filterMap_cons_none notSent]
    exact .refl

theorem trans (left : Grows start middle effects) (right : Grows middle next more) :
    Grows start next (effects ++ more) := by
  refine ⟨by rw [right.trace, left.trace, List.append_assoc], ?_, ?_⟩
  · rw [writeTimes_append]
    exact left.times.append right.times
  · rw [sentWrites_append]
    exact left.metered.append right.metered

theorem finish (outbox : Outbox) (reason : SessionEndReason) (message : Bytes) :
    ∃ effects, Grows outbox (outbox.finish reason message) effects := by
  unfold Outbox.finish
  split
  · exact ⟨[], of_trace rfl rfl rfl⟩
  · exact ⟨[.ended reason message], of_effect rfl rfl rfl rfl⟩

theorem scheduleWrite (outbox : Outbox) : ∃ effects, Grows outbox outbox.scheduleWrite effects := by
  rcases scheduleWrite_cases outbox with ⟨same, _⟩ | ⟨_, _, selected, limiter, _, queried, ⟨_, armed⟩ | ⟨_, started⟩⟩
  · rw [same]
    exact ⟨[], of_trace rfl rfl rfl⟩
  · rw [armed]
    exact ⟨[.started (.writeWait selected.time)], rfl, (Readings.tick outbox.clock).sublist (List.nil_sublist _),
      .of_queried queried⟩
  · rw [started]
    refine ⟨[.writing selected.message outbox.now limiter, .started (.write selected.message.wireData)], ?_,
      .tick outbox.clock, .of_queried queried⟩
    simp [startWrite, launch, emit, tick]

theorem enqueue (outbox : Outbox) (message : OutboundMessage) :
    ∃ effects, Grows outbox (outbox.enqueue message) effects := by
  rcases enqueue_cases outbox message with ⟨_, same⟩ | ⟨_, _, _, dropped⟩ | ⟨_, _, _, ended⟩ | ⟨_, _, accepted⟩
  · rw [same]
    exact ⟨[], of_trace rfl rfl rfl⟩
  · rw [dropped]
    exact ⟨[.dropped message outbox.outbound.length], of_effect rfl rfl rfl rfl⟩
  · rw [ended]
    exact finish outbox _ _
  · have queued : Grows outbox ({ outbox with outbound := outbox.outbound ++ [message] }.emit (.accepted message))
        [.accepted message] := of_effect rfl rfl rfl rfl
    obtain ⟨effects, scheduled⟩ :=
      scheduleWrite ({ outbox with outbound := outbox.outbound ++ [message] }.emit (.accepted message))
    rw [accepted]
    exact ⟨_, queued.trans scheduled⟩

/-- A write that is counted is recorded, before anything else is selected. -/
theorem onWritten (outbox : Outbox) : ∃ effects, Grows outbox outbox.onWritten effects := by
  cases current : outbox.currentWrite with
  | none =>
    rw [Outbox.onWritten, current]
    exact ⟨[.undefinedBehaviour], of_effect rfl rfl rfl rfl⟩
  | some message =>
    have counted : Grows outbox (outbox.recorded message) [.wrote message outbox.now] :=
      ⟨rfl, .tick outbox.clock, .record message outbox.now .refl⟩
    obtain ⟨effects, scheduled⟩ := scheduleWrite (outbox.recorded message)
    rw [onWritten_of_current current]
    exact ⟨_, counted.trans scheduled⟩

theorem move (move : Move start next) : ∃ effects, Grows start next effects := by
  cases move with
  | tick => exact ⟨[], (List.append_nil _).symm, (Readings.tick start.clock).sublist (List.nil_sublist _), .refl⟩
  | enqueue message => exact enqueue start message
  | finish reason message => exact finish start reason message
  | launch operation aside => exact ⟨[.started operation], of_effect rfl rfl rfl rfl⟩
  | cancel selected aside => exact ⟨[], of_trace rfl rfl rfl⟩
  | emit effect aside =>
    exact ⟨[effect], of_effect rfl (by cases effect <;> first | rfl | cases aside) rfl rfl⟩
  | complete index operation outcome found possible => exact ⟨[], of_trace rfl rfl rfl⟩
  | pass io index operation outcome taken aside => exact ⟨[], of_trace rfl rfl rfl⟩
  | timer io index deadline outcome taken =>
    cases outcome with
    | failure what => exact ⟨[], of_trace rfl rfl rfl⟩
    | success data =>
      obtain ⟨effects, grows⟩ := scheduleWrite { start with io := io }
      exact ⟨effects, grows.trace, grows.times, grows.metered⟩
  | write io index data outcome taken =>
    have passed {next : Outbox} (grown : ∃ effects, Grows { start with io := io } next effects) :
        ∃ effects, Grows start next effects := by
      obtain ⟨effects, grows⟩ := grown
      exact ⟨effects, grows.trace, grows.times, grows.metered⟩
    cases outcome with
    | failure what => exact passed (finish _ _ _)
    | success data => exact passed (onWritten _)

theorem moves (moves : Moves start next) : ∃ effects, Grows start next effects := by
  induction moves with
  | refl => exact ⟨[], of_trace rfl rfl rfl⟩
  | tail _ move ih =>
    obtain ⟨effects, earlier⟩ := ih
    obtain ⟨more, later⟩ := Grows.move move
    exact ⟨effects ++ more, earlier.trans later⟩

end Grows

namespace Session

/-- What an event adds to the trace of a session. -/
def newEffects (session : Session) (event : SessionEvent) : List Effect :=
  (session.step event).trace.drop session.trace.length

theorem step_grows (session : Session) (event : SessionEvent) :
    Grows session.toOutbox (session.step event).toOutbox (session.newEffects event) := by
  obtain ⟨effects, grows⟩ := Grows.moves (session.step_moves event)
  rwa [newEffects, grows.trace, List.drop_left]

end Session

end TwitchBot
