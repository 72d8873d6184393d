import TwitchBot.ConfigValid
import TwitchBot.SingleWriter
import TwitchBot.WriteTimes

namespace TwitchBot

open Outbox

/-- A wait of the write timer has not run its handler and was not aborted. -/
def WriteTimerPending (outbox : Outbox) (deadline : Time) : Prop :=
  outbox.io.Alive Outcome.IsSuccess (.writeWait deadline)

/-- A wait is pending that ends no later than any message becomes eligible. -/
def Armed (outbox : Outbox) : Prop :=
  ∃ deadline, WriteTimerPending outbox deadline ∧
    ∀ message ∈ outbox.outbound, ∀ time, Eligible outbox.limiter message time → deadline ≤ time

def Effect.selectedData : Effect → Option Bytes
  | .writing message _ _ => some message.wireData
  | _ => none

/-- The data of the messages that were selected to be written, in order. -/
def selectedWrites (trace : List Effect) : List Bytes := trace.filterMap Effect.selectedData

theorem selectedWrites_concat (trace : List Effect) (effect : Effect) :
    selectedWrites (trace ++ [effect]) = selectedWrites trace ++ effect.selectedData.toList :=
  filterMap_concat _ _ _

/-- Every write was started for the message selected, which was eligible. -/
structure Timely (trace : List Effect) : Prop where
  matched : startedWrites trace = selectedWrites trace
  eligible : ∀ message now limiter, .writing message now limiter ∈ trace → Eligible limiter message now

/-- An open session with something to write and no write in progress will look
at its queue in time, and has only started writes of eligible messages. -/
structure Awake (outbox : Outbox) : Prop where
  armed : outbox.closed = false → outbox.outbound ≠ [] → outbox.writeInProgress = false → Armed outbox
  timely : Timely outbox.trace

/-- The effects that start no write. -/
def Effect.startsNothing : Effect → Bool
  | .writing _ _ _ => false
  | .started operation => !operation.isWrite
  | _ => true

theorem Effect.unselected {effect : Effect} (nothing : effect.startsNothing = true) :
    effect.writeData = none ∧ effect.selectedData = none := by
  cases effect with
  | started operation =>
    refine ⟨?_, rfl⟩
    cases operation <;> first | rfl | cases nothing
  | writing message now limiter => cases nothing
  | _ => exact ⟨rfl, rfl⟩

namespace Timely

variable {trace : List Effect}

theorem concat (timely : Timely trace) (effect : Effect) (nothing : effect.startsNothing = true) :
    Timely (trace ++ [effect]) := by
  obtain ⟨noWrite, noSelection⟩ := Effect.unselected nothing
  refine ⟨?_, fun message now limiter member => ?_⟩
  · rw [startedWrites_concat, selectedWrites_concat, noWrite, noSelection, timely.matched]
  · rcases List.mem_append.mp member with old | new
    · exact timely.eligible message now limiter old
    · cases List.mem_singleton.mp new
      cases nothing

/-- The two effects of starting a write. -/
theorem write (timely : Timely trace) {message : OutboundMessage} {now : Time} {limiter : RateLimiter}
    (eligible : Eligible limiter message now) :
    Timely (trace ++ [.writing message now limiter] ++ [.started (.write message.wireData)]) := by
  refine ⟨?_, fun other time used member => ?_⟩
  · simp only [startedWrites_concat, selectedWrites_concat, Effect.writeData, Effect.selectedData,
      Option.toList_none, Option.toList_some, List.append_nil, timely.matched]
  · rcases List.mem_append.mp member with old | new
    · rcases List.mem_append.mp old with older | new
      · exact timely.eligible other time used older
      · cases List.mem_singleton.mp new
        exact eligible
    · cases List.mem_singleton.mp new

end Timely

/-- `schedule_write` restores the guarantee whatever held of the timer before. -/
theorem Awake.scheduleWrite {outbox : Outbox} (timely : Timely outbox.trace) : Awake outbox.scheduleWrite := by
  rcases scheduleWrite_cases outbox with ⟨same, quiet⟩ |
    ⟨_, _, selected, limiter, selects, queried, ⟨later, armed⟩ | ⟨now, started⟩⟩
  · rw [same]
    refine ⟨fun isOpen queue idle => ?_, timely⟩
    rcases quiet with closed | busy | empty
    · simp [isOpen] at closed
    · simp [idle] at busy
    · exact absurd empty queue
  · rw [armed]
    refine ⟨fun _ _ _ => ⟨selected.time, IoContext.alive_start.mpr (Or.inr rfl), ?_⟩,
      timely.concat (.started (.writeWait selected.time)) rfl⟩
    intro message member time eligible
    have reach := eligibleTime_le eligible outbox.now
    simp only [armWriteTimer, Outbox.launch, Outbox.cancel, Outbox.tick, eligibleTime,
      queried.allowedAt] at reach
    have least := (selects.least message member).trans reach
    exact (le_max_iff.mp least).resolve_left (not_le.mpr later)
  · have eligible : Eligible limiter selected.message outbox.now :=
      (queried.eligible_iff _).mpr (selects.time ▸ now)
    rw [started]
    refine ⟨fun _ _ idle => ?_, timely.write eligible⟩
    cases idle

namespace Awake

variable {outbox : Outbox}

theorem emit (awake : Awake outbox) (effect : Effect) (nothing : effect.startsNothing = true) :
    Awake (outbox.emit effect) :=
  ⟨awake.armed, awake.timely.concat effect nothing⟩

/-- Changes of the operations that keep the waits of the write timer alive. -/
theorem of_io (awake : Awake outbox) (io : IoContext Operation Outcome)
    (alive : ∀ deadline, WriteTimerPending outbox deadline → io.Alive Outcome.IsSuccess (.writeWait deadline)) :
    Awake { outbox with io := io } := by
  refine ⟨fun isOpen queue idle => ?_, awake.timely⟩
  obtain ⟨deadline, pending, early⟩ := awake.armed isOpen queue idle
  exact ⟨deadline, alive deadline pending, early⟩

theorem finish (awake : Awake outbox) (reason : SessionEndReason) (message : Bytes) :
    Awake (outbox.finish reason message) := by
  unfold Outbox.finish
  split
  · exact awake
  · refine ⟨fun isOpen => ?_, awake.timely.concat (.ended reason message) rfl⟩
    cases isOpen

theorem enqueue (awake : Awake outbox) (message : OutboundMessage) : Awake (outbox.enqueue message) := by
  rcases enqueue_cases outbox message with ⟨_, same⟩ | ⟨_, _, _, dropped⟩ | ⟨_, _, _, ended⟩ |
    ⟨_, _, accepted⟩
  · rwa [same]
  · rw [dropped]
    exact awake.emit _ rfl
  · rw [ended]
    exact awake.finish _ _
  · rw [accepted]
    exact Awake.scheduleWrite (awake.timely.concat (.accepted message) rfl)

theorem onWritten (awake : Awake outbox) : Awake outbox.onWritten := by
  unfold Outbox.onWritten
  split
  · exact awake.emit _ rfl
  · exact Awake.scheduleWrite (awake.timely.concat (.wrote _ _) rfl)

/-- Every move keeps the guarantee. -/
theorem move {next : Outbox} (move : Move outbox next) (awake : Awake outbox) : Awake next := by
  cases move with
  | tick => exact ⟨awake.armed, awake.timely⟩
  | enqueue message => exact awake.enqueue message
  | finish reason message => exact awake.finish reason message
  | launch operation aside =>
    simp only [Operation.isOutgoing, Bool.or_eq_false_iff] at aside
    refine (awake.of_io (outbox.io.start operation) ?_).emit (.started operation)
      (by simp [Effect.startsNothing, aside.1])
    exact fun deadline pending => IoContext.alive_start.mpr (Or.inl pending)
  | cancel selected aside =>
    exact awake.of_io _ (fun deadline pending => IoContext.alive_cancel_of_not_selected (aside _ rfl) pending)
  | emit effect aside => exact awake.emit effect (by cases effect <;> first | rfl | cases aside)
  | complete index operation outcome found possible =>
    refine awake.of_io _ (fun deadline pending => IoContext.alive_complete ?_ pending)
    -- A wait that completes without being aborted completes successfully.
    intro other found' same
    cases Option.some.inj (found.symm.trans found')
    subst same
    cases outcome with
    | success data => exact ⟨data, rfl⟩
    | failure what => cases possible
  | pass io index operation outcome taken aside =>
    refine awake.of_io _ (fun deadline pending => IoContext.alive_take taken (Or.inr ?_) pending)
    rintro rfl
    cases aside
  | timer io index deadline outcome taken =>
    cases outcome with
    | failure what =>
      refine awake.of_io _ (fun other pending => IoContext.alive_take taken (Or.inl ?_) pending)
      rintro ⟨data, same⟩
      cases same
    | success data => exact Awake.scheduleWrite awake.timely
  | write io index data outcome taken =>
    have passed : Awake { outbox with io := io } :=
      awake.of_io _ (fun deadline pending => IoContext.alive_take taken (Or.inr (by simp)) pending)
    cases outcome with
    | failure what => exact passed.finish _ _
    | success _ => exact passed.onWritten

end Awake

theorem awake_start (config : RuntimeConfig) (limiter : RateLimiter) (clock : Nat → Time)
    (sniConfigured : Bool) : Awake (Session.new config limiter clock sniConfigured).start.toOutbox := by
  refine ⟨fun _ queue => absurd rfl queue, rfl, ?_⟩
  simp [Session.start, Session.onOutbox, Session.new, Outbox.launch]

/-- No wakeup is lost and no write is early: after any events, an open session
with queued messages and no write in progress has a pending wait that ends no
later than any queued message becomes eligible, while one with a write in
progress has this write pending. The writes that were started are those of the
selected messages, each eligible when it was selected, and every event starts
and counts its writes at the time that the clock gives. -/
theorem no_lost_wakeup (config : RuntimeConfig) (limiter : RateLimiter) (clock : Nat → Time)
    (sniConfigured : Bool) (events : List SessionEvent) :
    let session := (Session.new config limiter clock sniConfigured).start.after events
    (session.closed = false → session.outbound ≠ [] → session.writeInProgress = false →
        ∃ deadline, WriteTimerPending session.toOutbox deadline ∧
          ∀ message ∈ session.outbound, ∀ time, Eligible session.limiter message time → deadline ≤ time) ∧
      (session.closed = false → session.writeInProgress = true → session.io.count Operation.isWrite = 1) ∧
      startedWrites session.trace = selectedWrites session.trace ∧
      (∀ message now limiter, .writing message now limiter ∈ session.trace → Eligible limiter message now) ∧
      ∀ event, Readings session.clock (session.step event).clock (writeTimes (session.newEffects event)) := by
  intro session
  have awake : Awake session.toOutbox := (Session.after_moves _ events).keeps (fun _ _ => Awake.move)
    (awake_start config limiter clock sniConfigured)
  have underway : Underway session.toOutbox := underway_after config limiter clock sniConfigured events
  have accounted := accounted_after config limiter clock sniConfigured events
  exact ⟨awake.armed, underway.count_isWrite accounted, awake.timely.matched, awake.timely.eligible,
    fun event => (session.step_grows event).times⟩

/-- The connection up to the moment in which the session is ready, with the
write of the login line still in progress. -/
def loginEvents : List SessionEvent :=
  [.complete 0 (.success []), .deliver 0, .complete 0 (.success []), .deliver 0,
    .complete 0 (.success []), .deliver 0,
    .complete 2 (.success (bytes ":tmi.twitch.tv 001 example_bot :Welcome" ++ crlf ++
      bytes ":tmi.twitch.tv CAP * ACK :twitch.tv/membership twitch.tv/tags twitch.tv/commands" ++ crlf)),
    .deliver 0, .deliver 0]

/-- The writes of the login and of the JOINs, one after the other. -/
def loginWrites : List SessionEvent :=
  [.complete 0 (.success []), .deliver 0] ++
    (List.replicate 4 [.complete 1 (.success []), .deliver 0]).flatten

/-- A message that the rule answers. -/
def questionLine : Bytes := bytes ":a!a PRIVMSG #one :x\r\n"

/-- The session of a clock that ticks every second. -/
def chattySession (events : List SessionEvent) : Session :=
  (Session.new chattyConfig {} (fun n => seconds n) true).start.after events

/-- A session that has logged in and waits to send an answer of the rule. -/
def waitingSession : Session :=
  chattySession (loginEvents ++ loginWrites ++ [.complete 0 (.success questionLine), .deliver 0])

/-- Behind the login a write is pending; once all is written, the answer of the
rule waits for its delay. -/
theorem no_lost_wakeup_waiting :
    (chattySession loginEvents).io.count Operation.isWrite = 1 ∧
      ∃ deadline, WriteTimerPending waitingSession.toOutbox deadline ∧
        ∀ message ∈ waitingSession.outbound, ∀ time, Eligible waitingSession.limiter message time →
          deadline ≤ time := by
  have writes := no_lost_wakeup chattyConfig {} (fun n => seconds n) true loginEvents
  have waits := no_lost_wakeup chattyConfig {} (fun n => seconds n) true
    (loginEvents ++ loginWrites ++ [.complete 0 (.success questionLine), .deliver 0])
  rw [← chattySession] at writes waits
  rw [← waitingSession] at waits
  exact ⟨writes.2.1 (by decide +kernel) (by decide +kernel),
    waits.1 (by decide +kernel) (by decide +kernel) (by decide +kernel)⟩

end TwitchBot
