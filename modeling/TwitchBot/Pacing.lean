import TwitchBot.RateHistory
import TwitchBot.SingleWriter

namespace TwitchBot

open Outbox

/-- A write can still complete successfully or has not run its handler. -/
def WriteInFlight (outbox : Outbox) : Prop := ∃ data, outbox.io.Alive Outcome.IsSuccess (.write data)

def Effect.isWriting : Effect → Bool
  | .started operation => operation.isWrite
  | _ => false

def Effect.isEnded : Effect → Bool
  | .ended _ _ => true
  | _ => false

def StartsWrite (effects : List Effect) : Prop := ∃ effect ∈ effects, effect.isWriting = true

def EndsSession (effects : List Effect) : Prop := ∃ effect ∈ effects, effect.isEnded = true

theorem startsWrite_concat {effects : List Effect} {effect : Effect} :
    StartsWrite (effects ++ [effect]) ↔ StartsWrite effects ∨ effect.isWriting = true := by
  simp [StartsWrite, or_and_right, exists_or]

theorem endsSession_concat {effects : List Effect} {effect : Effect} :
    EndsSession (effects ++ [effect]) ↔ EndsSession effects ∨ effect.isEnded = true := by
  simp [EndsSession, or_and_right, exists_or]

theorem sentWrites_concat_of_unsent {effects : List Effect} {effect : Effect} (unsent : effect.sent = none) :
    sentWrites (effects ++ [effect]) = sentWrites effects := by
  simp [sentWrites, unsent]

theorem Effect.quiet_of_aside {effect : Effect} (aside : effect.isAside = true) :
    effect.sent = none ∧ effect.isWriting = false ∧ effect.isEnded = false := by
  cases effect <;> first | exact ⟨rfl, rfl, rfl⟩ | cases aside

theorem not_inFlight_of_count {outbox : Outbox} (none : outbox.io.count Operation.isWrite = 0) :
    ¬WriteInFlight outbox := by
  rintro ⟨data, alive⟩
  exact absurd none (IoContext.count_pos_of_alive alive rfl).ne'

theorem Accounted.idle {outbox : Outbox} (accounted : Accounted outbox)
    (idle : outbox.writeInProgress = false) : ¬WriteInFlight outbox := by
  have single := accounted.single
  rw [idle] at single
  exact not_inFlight_of_count (Nat.le_zero.mp single)

/-- What part of an event has done to an outbox that was `start` before it,
when `base` was written so far and other outboxes have `foreign` messages in
flight. -/
structure Paced (base : History) (foreign : OutboundMessage → Prop) (start : Outbox) (effects : List Effect)
    (outbox : Outbox) : Prop where
  trace : outbox.trace = start.trace ++ effects
  monotone : ∀ n, outbox.clock n ≤ outbox.clock (n + 1)
  limits : Limits (base ++ sentWrites effects) outbox.limiter outbox.now
  permit : WriteInFlight outbox → ∀ message, outbox.currentWrite = some message →
    Permitted outbox.limiter message outbox.now
  foreign : ¬StartsWrite effects → ∀ message, foreign message →
    ¬WriteInFlight outbox ∧ Permitted outbox.limiter message outbox.now
  closed : start.closed = true → outbox.closed = true ∧ ¬StartsWrite effects ∧ ¬EndsSession effects
  ended : EndsSession effects → outbox.closed = true

namespace Paced

variable {base : History} {foreign : OutboundMessage → Prop} {start outbox : Outbox} {effects : List Effect}

/-- An event that leaves the outbox open, starts a write or ends the session
found the outbox open. -/
theorem start_open (paced : Paced base foreign start effects outbox)
    (active : outbox.closed = false ∨ StartsWrite effects ∨ EndsSession effects) : start.closed = false := by
  by_contra closed
  obtain ⟨isClosed, noStart, noEnd⟩ := paced.closed (by simpa using closed)
  rcases active with isOpen | starts | ends
  · rw [isClosed] at isOpen
    cases isOpen
  · exact noStart starts
  · exact noEnd ends

theorem emit (paced : Paced base foreign start effects outbox) (effect : Effect) (unsent : effect.sent = none)
    (noStart : effect.isWriting = false)
    (end_open : effect.isEnded = true → start.closed = false ∧ outbox.closed = true) :
    Paced base foreign start (effects ++ [effect]) (outbox.emit effect) := by
  refine ⟨?_, paced.monotone, ?_, paced.permit, ?_, ?_, ?_⟩
  · rw [Outbox.emit, paced.trace, List.append_assoc]
  · rw [sentWrites_concat_of_unsent unsent]
    exact paced.limits
  · simp only [startsWrite_concat, noStart, Bool.false_eq_true, or_false]
    exact paced.foreign
  · intro wasClosed
    obtain ⟨isClosed, starts, ends⟩ := paced.closed wasClosed
    refine ⟨isClosed, ?_, ?_⟩
    · simpa only [startsWrite_concat, noStart, Bool.false_eq_true, or_false] using starts
    · rw [endsSession_concat]
      rintro (old | new)
      · exact ends old
      · rw [(end_open new).1] at wasClosed
        cases wasClosed
  · rw [endsSession_concat]
    rintro (old | new)
    · exact paced.ended old
    · exact (end_open new).2

theorem emit_quiet (paced : Paced base foreign start effects outbox) (effect : Effect)
    (unsent : effect.sent = none) (noStart : effect.isWriting = false) (noEnd : effect.isEnded = false) :
    Paced base foreign start (effects ++ [effect]) (outbox.emit effect) :=
  paced.emit effect unsent noStart (fun ends => absurd ends (by simp [noEnd]))

/-- Changes of the operations that bring no write into flight. -/
theorem of_io (paced : Paced base foreign start effects outbox) (io : IoContext Operation Outcome)
    (alive : ∀ data, io.Alive Outcome.IsSuccess (.write data) → outbox.io.Alive Outcome.IsSuccess (.write data)) :
    Paced base foreign start effects { outbox with io := io } := by
  have flight : WriteInFlight { outbox with io := io } → WriteInFlight outbox :=
    fun inFlight => inFlight.imp alive
  exact ⟨paced.trace, paced.monotone, paced.limits, fun inFlight => paced.permit (flight inFlight),
    fun noStart message isForeign => ⟨fun inFlight => (paced.foreign noStart message isForeign).1 (flight inFlight),
      (paced.foreign noStart message isForeign).2⟩, paced.closed, paced.ended⟩

theorem cancel (paced : Paced base foreign start effects outbox) (selected : Operation → Bool) :
    Paced base foreign start effects (outbox.cancel selected) := by
  refine paced.of_io _ (fun data alive => (IoContext.alive_cancel ?_ alive).1)
  rintro ⟨bytes, same⟩
  cases same

theorem launch (paced : Paced base foreign start effects outbox) {operation : Operation}
    (other : operation.isWrite = false) :
    Paced base foreign start (effects ++ [.started operation]) (outbox.launch operation) := by
  refine (paced.of_io (outbox.io.start operation) (fun data alive => ?_)).emit_quiet _ rfl other rfl
  rcases IoContext.alive_start.mp alive with old | rfl
  · exact old
  · cases other

/-- Queries at the time of a clock reading. -/
theorem tick (paced : Paced base foreign start effects outbox) {limiter : RateLimiter}
    (queried : Queried outbox.now outbox.limiter limiter) :
    Paced base foreign start effects { outbox.tick with limiter := limiter } := by
  have le : outbox.now ≤ outbox.clock 1 := paced.monotone 0
  exact ⟨paced.trace, fun n => paced.monotone (n + 1), (paced.limits.queried queried).later le,
    fun inFlight message current => ((paced.permit inFlight message current).queried queried).later le,
    fun noStart message isForeign => ⟨(paced.foreign noStart message isForeign).1,
      ((paced.foreign noStart message isForeign).2.queried queried).later le⟩, paced.closed, paced.ended⟩

theorem finish (paced : Paced base foreign start effects outbox) (reason : SessionEndReason) (message : Bytes) :
    ∃ more, Paced base foreign start more (outbox.finish reason message) := by
  cases isClosed : outbox.closed with
  | true =>
    rw [finish_of_closed isClosed]
    exact ⟨effects, paced⟩
  | false =>
    have wasOpen := paced.start_open (Or.inl isClosed)
    have closing : Paced base foreign start effects { outbox with closed := true } :=
      ⟨paced.trace, paced.monotone, paced.limits, paced.permit, paced.foreign,
        fun wasClosed => ⟨rfl, (paced.closed wasClosed).2⟩, fun _ => rfl⟩
    have result := (closing.cancel (fun _ => true)).emit (.ended reason message) rfl rfl
      (fun _ => ⟨wasOpen, rfl⟩)
    rw [Outbox.finish, isClosed]
    exact ⟨_, result⟩

/-- A write that the limiter permits is started by an open outbox. -/
theorem startWrite (paced : Paced base foreign start effects outbox) (isOpen : outbox.closed = false)
    {selected : Selection} {now : Time} (permitted : Permitted outbox.limiter selected.message outbox.now) :
    Paced base foreign start (effects ++ [.writing selected.message now outbox.limiter] ++
      [.started (.write selected.message.wireData)]) (outbox.startWrite selected now) := by
  have writing : StartsWrite (effects ++ [.writing selected.message now outbox.limiter] ++
      [.started (.write selected.message.wireData)]) :=
    startsWrite_concat.mpr (Or.inr rfl)
  refine ⟨?_, paced.monotone, ?_, ?_, fun noStart => absurd writing noStart, ?_, ?_⟩
  · simp only [Outbox.startWrite, Outbox.launch, Outbox.emit, paced.trace, List.append_assoc]
  · rw [sentWrites_concat_of_unsent rfl, sentWrites_concat_of_unsent rfl]
    exact paced.limits
  · intro _ message current
    cases Option.some.inj current
    exact permitted
  · intro wasClosed
    rw [(paced.closed wasClosed).1] at isOpen
    cases isOpen
  · simp only [endsSession_concat, Effect.isEnded, Bool.false_eq_true, or_false]
    exact paced.ended

theorem scheduleWrite (paced : Paced base foreign start effects outbox) :
    ∃ more, Paced base foreign start more outbox.scheduleWrite := by
  rcases scheduleWrite_cases outbox with ⟨same, _⟩ |
    ⟨isOpen, _, selected, limiter, selects, queried, ⟨_, armed⟩ | ⟨now, started⟩⟩
  · rw [same]
    exact ⟨effects, paced⟩
  · rw [armed]
    exact ⟨_, ((paced.tick queried).cancel _).launch rfl⟩
  · have permitted : Permitted limiter selected.message outbox.now := by
      rw [Permitted, queried.allowedAt]
      exact (le_max_right _ _).trans (selects.time.symm.le.trans now)
    rw [started]
    exact ⟨_, (paced.tick queried).startWrite isOpen (permitted.later (paced.monotone 0))⟩

theorem enqueue (paced : Paced base foreign start effects outbox) (message : OutboundMessage) :
    ∃ more, Paced base foreign start more (outbox.enqueue message) := by
  rcases enqueue_cases outbox message with ⟨_, same⟩ | ⟨_, _, _, dropped⟩ | ⟨_, _, _, ended⟩ |
    ⟨_, _, accepted⟩
  · rw [same]
    exact ⟨effects, paced⟩
  · rw [dropped]
    exact ⟨_, paced.emit_quiet _ rfl rfl rfl⟩
  · rw [ended]
    exact paced.finish _ _
  · have pushed : Paced base foreign start effects { outbox with outbound := outbox.outbound ++ [message] } :=
      ⟨paced.trace, paced.monotone, paced.limits, paced.permit, paced.foreign, paced.closed, paced.ended⟩
    rw [accepted]
    exact (pushed.emit_quiet (.accepted message) rfl rfl rfl).scheduleWrite

/-- The completion of the one write in flight is recorded. -/
theorem onWritten (paced : Paced base foreign start effects outbox) (inFlight : WriteInFlight outbox)
    {io : IoContext Operation Outcome} (noWrite : io.count Operation.isWrite = 0) :
    ∃ more, Paced base foreign start more ({ outbox with io := io } : Outbox).onWritten := by
  have grounded : ¬WriteInFlight { outbox with io := io } := not_inFlight_of_count noWrite
  have passed : Paced base foreign start effects { outbox with io := io } :=
    paced.of_io io (fun data alive => absurd ⟨data, alive⟩ grounded)
  simp only [Outbox.onWritten]
  cases current : outbox.currentWrite with
  | none =>
    rw [current] at passed
    exact ⟨_, passed.emit_quiet _ rfl rfl rfl⟩
  | some message =>
    have le : outbox.now ≤ outbox.clock 1 := paced.monotone 0
    have limits := (paced.limits.record (paced.permit inFlight message current)).later le
    rw [List.append_assoc] at limits
    have recorded : Paced base foreign start (effects ++ [.wrote message outbox.now])
        ({ outbox.tick with
            io := io
            limiter := outbox.limiter.record message.kind message.channel outbox.now
            currentWrite := none
            writeInProgress := false }.emit (.wrote message outbox.now)) := by
      refine ⟨?_, ?_, ?_, ?_, ?_, ?_, ?_⟩
      · simp only [Outbox.emit, Outbox.tick, paced.trace, List.append_assoc]
      · exact fun n => paced.monotone (n + 1)
      · rw [sentWrites_append]
        exact limits
      · intro _ _ none
        cases none
      · intro noStart other isForeign
        have none := (paced.foreign (fun old => noStart (startsWrite_concat.mpr (Or.inl old))) other isForeign).1
        exact absurd inFlight none
      · intro wasClosed
        obtain ⟨isClosed, starts, ends⟩ := paced.closed wasClosed
        refine ⟨isClosed, ?_, ?_⟩
        · simpa only [startsWrite_concat, Effect.isWriting, Bool.false_eq_true, or_false] using starts
        · simpa only [endsSession_concat, Effect.isEnded, Bool.false_eq_true, or_false] using ends
      · simp only [endsSession_concat, Effect.isEnded, Bool.false_eq_true, or_false]
        exact paced.ended
    exact recorded.scheduleWrite

/-- Every move keeps the pace. -/
theorem move {next : Outbox} (move : Move outbox next) (accounted : Accounted outbox)
    (paced : Paced base foreign start effects outbox) : ∃ more, Paced base foreign start more next := by
  cases move with
  | tick => exact ⟨effects, paced.tick .refl⟩
  | enqueue message => exact paced.enqueue message
  | finish reason message => exact paced.finish reason message
  | launch operation aside =>
    simp only [Operation.isOutgoing, Bool.or_eq_false_iff] at aside
    exact ⟨_, paced.launch aside.1⟩
  | cancel selected aside => exact ⟨effects, paced.cancel selected⟩
  | emit effect aside =>
    obtain ⟨unsent, noStart, noEnd⟩ := Effect.quiet_of_aside aside
    exact ⟨_, paced.emit_quiet effect unsent noStart noEnd⟩
  | complete index operation outcome found possible =>
    exact ⟨effects, paced.of_io _ (fun data alive => IoContext.alive_of_complete alive)⟩
  | pass io index operation outcome taken aside =>
    exact ⟨effects, paced.of_io _ (fun data alive => IoContext.alive_of_take taken alive)⟩
  | timer io index deadline outcome taken =>
    have passed := paced.of_io io (fun data alive => IoContext.alive_of_take taken alive)
    cases outcome with
    | failure what => exact ⟨effects, passed⟩
    | success data => exact passed.scheduleWrite
  | write io index data outcome taken =>
    cases outcome with
    | failure what => exact (paced.of_io _ (fun data alive => IoContext.alive_of_take taken alive)).finish _ _
    | success bytes =>
      have count := IoContext.count_take taken Operation.isWrite
      simp only [Operation.isWrite, if_true] at count
      have single := accounted.single
      refine paced.onWritten ⟨data, Or.inr ⟨_, ⟨bytes, rfl⟩, (IoContext.take_eq_some taken).1⟩⟩ ?_
      split at single <;> omega

/-- A whole event keeps the accounts and the pace. -/
theorem moves {next : Outbox} (moves : Moves start next) (accounted : Accounted start)
    (paced : Paced base foreign start [] start) :
    Accounted next ∧ ∃ effects, Paced base foreign start effects next := by
  have kept (outbox next : Outbox) (move : Move outbox next) :
      (Accounted outbox ∧ ∃ effects, Paced base foreign start effects outbox) →
        Accounted next ∧ ∃ effects, Paced base foreign start effects next := by
    rintro ⟨accounted, effects, paced⟩
    exact ⟨accounted.move move, paced.move move accounted⟩
  exact Moves.keeps kept moves ⟨accounted, [], paced⟩

end Paced

end TwitchBot
