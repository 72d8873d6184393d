import TwitchBot.SingleWriter

namespace TwitchBot

open Outbox Relation

/-- A message that the limits of the rate limiter are about. -/
def OutboundMessage.isRated (message : OutboundMessage) : Bool := decide (message.kind ≠ .system)

/-- A chat or JOIN message is handed to `async_write`, or recorded in the rate limiter. -/
inductive RateMark
  | handed (message : OutboundMessage)
  | recorded (message : OutboundMessage)
  deriving DecidableEq

def Effect.rateMark : Effect → Option RateMark
  | .writing message _ _ => if message.isRated then some (.handed message) else none
  | .wrote message _ => if message.isRated then some (.recorded message) else none
  | _ => none

def rateMarks (effects : List Effect) : List RateMark := effects.filterMap Effect.rateMark

theorem rateMarks_append (earlier later : List Effect) :
    rateMarks (earlier ++ later) = rateMarks earlier ++ rateMarks later := List.filterMap_append

/-- Reads marks with one message owed at most, and gives what is owed behind
them. It refuses a message that is handed over while another is owed, and a
record of one that is not. -/
def charge : Option OutboundMessage → List RateMark → Option (Option OutboundMessage)
  | owed, [] => some owed
  | none, .handed message :: marks => charge (some message) marks
  | some owed, .recorded message :: marks => if message = owed then charge none marks else none
  | _, _ :: _ => none

theorem charge_append (owed : Option OutboundMessage) (earlier later : List RateMark) :
    charge owed (earlier ++ later) = (charge owed earlier).bind (charge · later) := by
  induction earlier generalizing owed with
  | nil => simp [charge]
  | cons mark earlier ih =>
    rcases owed with _ | owed <;> rcases mark with message | message
    · exact ih _
    · rfl
    · rfl
    · simp only [List.cons_append, charge]
      split
      · exact ih none
      · rfl

/-- Without a message handed over, nothing is recorded for an account without debt. -/
theorem charge_none {marks : List RateMark} {owed : Option OutboundMessage} (charged : charge none marks = some owed)
    (noneHanded : ∀ message, .handed message ∉ marks) : marks = [] ∧ owed = none := by
  rcases marks with _ | ⟨message | message, marks⟩
  · exact ⟨rfl, (Option.some.inj charged).symm⟩
  · exact absurd List.mem_cons_self (noneHanded message)
  · cases charged

/-- What is owed has been handed over. -/
theorem handed_of_charge {owed : Option OutboundMessage} {marks : List RateMark} {message : OutboundMessage}
    (charged : charge owed marks = some (some message)) (fresh : owed ≠ some message) : .handed message ∈ marks := by
  induction marks generalizing owed with
  | nil => exact absurd (Option.some.inj charged) fresh
  | cons mark marks ih =>
    rcases owed with _ | owed <;> rcases mark with next | next
    · by_cases same : next = message
      · exact same ▸ List.mem_cons_self
      · exact List.mem_cons_of_mem _ (ih charged (by simpa using same))
    · cases charged
    · cases charged
    · simp only [charge] at charged
      split at charged
      · exact List.mem_cons_of_mem _ (ih charged (by simp))
      · cases charged

/-- Between two messages that are handed over one after the other stands
exactly one record, that of the first. -/
def EveryWriteCharged (effects : List Effect) : Prop :=
  ∀ before first between second after,
    rateMarks effects = before ++ .handed first :: (between ++ .handed second :: after) →
    (∀ message, .handed message ∉ between) → between = [.recorded first]

theorem everyWriteCharged_of_charge {effects : List Effect} {owed : Option OutboundMessage}
    (charged : charge none (rateMarks effects) = some owed) : EveryWriteCharged effects := by
  intro before first between second after split noneHanded
  rw [split, charge_append] at charged
  obtain ⟨owing, _, charged⟩ := Option.bind_eq_some_iff.mp charged
  rcases owing with _ | owing
  · simp only [charge] at charged
    rcases between with _ | ⟨message | message, between⟩
    · cases charged
    · exact absurd List.mem_cons_self (noneHanded message)
    · simp only [List.cons_append, charge] at charged
      split at charged
      · rename_i same
        rw [charge_append] at charged
        obtain ⟨left, settled, _⟩ := Option.bind_eq_some_iff.mp charged
        have rest := charge_none settled (fun other member => noneHanded other (List.mem_cons_of_mem _ member))
        rw [rest.1, same]
      · cases charged
  · cases charged

/-- The chat or JOIN message of an outbox that is not recorded yet. -/
def Outbox.owed (outbox : Outbox) : Option OutboundMessage := outbox.currentWrite.filter OutboundMessage.isRated

theorem Outbox.owed_of_current {outbox : Outbox} {message : OutboundMessage}
    (current : outbox.currentWrite = some message) :
    outbox.owed = if message.isRated then some message else none := by
  rw [owed, current, Option.filter_some]

theorem Outbox.owed_of_none {outbox : Outbox} (noMessage : outbox.currentWrite = none) : outbox.owed = none := by
  rw [owed, noMessage, Option.filter_none]

/-- What the acts of an outbox do to its writes: nothing, or the start of one. -/
inductive Sends (start next : Outbox) : Prop
  | nothing (effects : List Effect) (trace : next.trace = start.trace ++ effects) (marks : rateMarks effects = [])
    (current : next.currentWrite = start.currentWrite) (busy : next.writeInProgress = start.writeInProgress)
    (count : next.io.count Operation.isWrite = start.io.count Operation.isWrite)
  | one (effects : List Effect) (message : OutboundMessage) (trace : next.trace = start.trace ++ effects)
    (marks : rateMarks effects = if message.isRated then [.handed message] else [])
    (idle : start.writeInProgress = false) (busy : next.writeInProgress = true)
    (current : next.currentWrite = some message)
    (count : next.io.count Operation.isWrite = start.io.count Operation.isWrite + 1)

namespace Sends

variable {start middle next : Outbox}

theorem refl (outbox : Outbox) : Sends outbox outbox := .nothing [] (List.append_nil _).symm rfl rfl rfl rfl

theorem trans (left : Sends start middle) (right : Sends middle next) : Sends start next := by
  rcases left with ⟨effects, trace, marks, current, busy, count⟩ |
    ⟨effects, message, trace, marks, idle, busy, current, count⟩ <;>
  rcases right with ⟨more, trace', marks', current', busy', count'⟩ |
    ⟨more, message', trace', marks', idle', busy', current', count'⟩
  · refine .nothing (effects ++ more) (by rw [trace', trace, List.append_assoc]) ?_ (current'.trans current)
      (busy'.trans busy) (count'.trans count)
    rw [rateMarks_append, marks, marks', List.append_nil]
  · refine .one (effects ++ more) message' (by rw [trace', trace, List.append_assoc]) ?_ (busy.symm.trans idle') busy'
      current' (by rw [count', count])
    rw [rateMarks_append, marks, marks', List.nil_append]
  · refine .one (effects ++ more) message (by rw [trace', trace, List.append_assoc]) ?_ idle (busy'.trans busy)
      (current'.trans current) (count'.trans count)
    rw [rateMarks_append, marks, marks', List.append_nil]
  · rw [busy] at idle'
    cases idle'

/-- An effect that is no mark. -/
theorem of_emit (effect : Effect) (unmarked : effect.rateMark = none) (trace : next.trace = start.trace ++ [effect])
    (current : next.currentWrite = start.currentWrite) (busy : next.writeInProgress = start.writeInProgress)
    (count : next.io.count Operation.isWrite = start.io.count Operation.isWrite) : Sends start next :=
  .nothing [effect] trace (by simp [rateMarks, unmarked]) current busy count

end Sends

namespace Outbox

theorem finish_sends (outbox : Outbox) (reason : SessionEndReason) (message : Bytes) :
    Sends outbox (outbox.finish reason message) := by
  unfold finish
  split
  · exact .refl outbox
  · exact .of_emit (.ended reason message) rfl rfl rfl rfl (IoContext.count_cancel _ _ _ _)

theorem launch_sends (outbox : Outbox) {operation : Operation} (other : operation.isWrite = false) :
    Sends outbox (outbox.launch operation) := by
  refine .of_emit (.started operation) rfl rfl rfl rfl ?_
  rw [launch, IoContext.count_start, other]
  rfl

theorem scheduleWrite_sends (outbox : Outbox) : Sends outbox outbox.scheduleWrite := by
  rcases scheduleWrite_cases outbox with ⟨same, _⟩ | ⟨_, idle, selected, limiter, _, _, ⟨_, armed⟩ | ⟨_, started⟩⟩
  · rw [same]
    exact .refl outbox
  · rw [armed]
    have cancelled : Sends outbox ({ outbox.tick with limiter := limiter }.cancel Operation.isWriteWait) :=
      .nothing [] (List.append_nil _).symm rfl rfl rfl (IoContext.count_cancel _ _ _ _)
    exact cancelled.trans (launch_sends _ rfl)
  · rw [started]
    refine .one [.writing selected.message outbox.now limiter, .started (.write selected.message.wireData)]
      selected.message ?_ ?_ idle rfl rfl ?_
    · simp [startWrite, launch, emit, tick]
    · cases rated : selected.message.isRated <;> simp [rateMarks, Effect.rateMark, rated]
    · exact IoContext.count_start _ _ _

theorem enqueue_sends (outbox : Outbox) (message : OutboundMessage) : Sends outbox (outbox.enqueue message) := by
  rcases enqueue_cases outbox message with ⟨_, same⟩ | ⟨_, _, _, dropped⟩ | ⟨_, _, _, ended⟩ | ⟨_, _, accepted⟩
  · rw [same]
    exact .refl outbox
  · rw [dropped]
    exact .of_emit (.dropped message outbox.outbound.length) rfl rfl rfl rfl rfl
  · rw [ended]
    exact finish_sends outbox _ _
  · rw [accepted]
    refine Sends.trans ?_ (scheduleWrite_sends _)
    exact .of_emit (.accepted message) rfl rfl rfl rfl rfl

end Outbox

namespace Session

theorem Act.sends {session next : Session} (act : Act session next) : Sends session.toOutbox next.toOutbox := by
  have quiet {outbox : Outbox} (trace : outbox.trace = session.trace)
      (current : outbox.currentWrite = session.currentWrite)
      (busy : outbox.writeInProgress = session.writeInProgress)
      (count : outbox.io.count Operation.isWrite = session.io.count Operation.isWrite) :
      Sends session.toOutbox outbox :=
    .nothing [] (by rw [trace, List.append_nil]) rfl current busy count
  cases act with
  | tick => exact quiet rfl rfl rfl rfl
  | send data kind channel =>
    have ticked : Sends session.toOutbox session.toOutbox.tick := quiet rfl rfl rfl rfl
    exact ticked.trans (enqueue_sends session.toOutbox.tick _)
  | chat data channel due => exact enqueue_sends session.toOutbox _
  | finish reason message => exact finish_sends session.toOutbox reason message
  | launch operation aside =>
    simp only [Operation.isOutgoing, Bool.or_eq_false_iff] at aside
    exact launch_sends session.toOutbox aside.1
  | cancel selected aside => exact quiet rfl rfl rfl (IoContext.count_cancel _ _ _ _)
  | emit effect aside => exact .of_emit effect (by cases effect <;> first | rfl | cases aside) rfl rfl rfl rfl
  | aside _ outbox sequence =>
    rw [outbox]
    exact .refl _

theorem Acts.sends {session next : Session} (acts : Acts session next) :
    Sends session.toOutbox next.toOutbox := by
  induction acts with
  | refl => exact .refl _
  | tail _ act ih => exact ih.trans act.sends

end Session

/-- A rated message that is owed is being written, or its completion is not handled yet. -/
def Afoot (outbox : Outbox) : Prop := outbox.owed.isSome = true → 0 < outbox.io.count Operation.isWrite

/-- An event has kept the books of an outbox: what it owes changes with its
marks, and a message that was handed over is owed. -/
structure Settles (start next : Outbox) (effects : List Effect) : Prop where
  trace : next.trace = start.trace ++ effects
  charged : charge start.owed (rateMarks effects) = some next.owed
  handed : ∀ message, .handed message ∈ rateMarks effects → next.owed = some message
  afoot : Afoot start → Afoot next

theorem Accounted.owed_none {outbox : Outbox} (accounted : Accounted outbox)
    (idle : outbox.writeInProgress = false) : outbox.owed = none := owed_of_none (accounted.current_of_idle idle)

/-- Acts behind an outbox without a message keep the books. -/
theorem Sends.settles {start next : Outbox} (sends : Sends start next)
    (accounted : start.writeInProgress = false → start.owed = none) : ∃ effects, Settles start next effects := by
  rcases sends with ⟨effects, trace, marks, current, busy, count⟩ |
    ⟨effects, message, trace, marks, idle, busy, current, count⟩
  · have same : next.owed = start.owed := by rw [owed, current, owed]
    refine ⟨effects, trace, ?_, ?_, ?_⟩
    · rw [marks, same]
      rfl
    · rw [marks]
      exact fun message none => absurd none List.not_mem_nil
    · rw [Afoot, Afoot, same, count]
      exact id
  · have none := accounted idle
    refine ⟨effects, trace, ?_, ?_, ?_⟩
    · rw [none, marks, owed_of_current current]
      cases message.isRated <;> rfl
    · rw [marks, owed_of_current current]
      intro other member
      split at member
      · rename_i rated
        cases List.mem_singleton.mp member
        exact if_pos rated
      · cases member
    · rw [Afoot, Afoot, count]
      exact fun _ _ => Nat.succ_pos _

/-- The completion of a write records its message. -/
theorem onWritten_settles {outbox : Outbox} {message : OutboundMessage}
    (current : outbox.currentWrite = some message) :
    (∃ effects, Settles outbox outbox.onWritten effects) ∧ Afoot outbox.onWritten := by
  rw [onWritten_of_current current]
  obtain ⟨effects, settles⟩ := (scheduleWrite_sends (outbox.recorded message)).settles (fun _ => rfl)
  have charged : charge none (rateMarks effects) = some _ := settles.charged
  have afoot := settles.afoot (fun none => Bool.noConfusion none)
  refine ⟨⟨.wrote message outbox.now :: effects, ?_, ?_, ?_, fun _ => afoot⟩, afoot⟩
  · rw [settles.trace]
    simp [recorded, emit, tick]
  · have marks : rateMarks (.wrote message outbox.now :: effects) =
        (if message.isRated then [.recorded message] else []) ++ rateMarks effects := by
      cases rated : message.isRated <;> simp [rateMarks, Effect.rateMark, rated]
    rw [marks, owed_of_current current, ← charged]
    cases message.isRated <;> simp [charge]
  · intro other member
    refine settles.handed other ?_
    cases rated : message.isRated <;> simpa [rateMarks, Effect.rateMark, rated] using member

/-- The handler of the queue that runs a completed write keeps the books, unless
the write has failed and its message is owed. -/
theorem Accounted.onWrite_settles {outbox : Outbox} (accounted : Accounted outbox)
    {io : IoContext Operation Outcome} {index : Nat} {data : Bytes} {outcome : Outcome}
    (taken : outbox.io.take index = some ((.write data, outcome), io))
    (calm : ¬outcome.IsSuccess → outbox.owed = none) :
    ∃ effects, Settles outbox ({ outbox with io := io }.onWrite outcome) effects := by
  obtain ⟨message, current⟩ := accounted.current_of_busy (accounted.busy_of_taken taken).1
  have passed : ({ outbox with io := io } : Outbox).currentWrite = some message := current
  cases outcome with
  | success data =>
    obtain ⟨⟨effects, settles⟩, afoot⟩ := onWritten_settles passed
    exact ⟨effects, settles.trace, settles.charged, settles.handed, fun _ => afoot⟩
  | failure what =>
    have paid : ({ outbox with io := io } : Outbox).owed = none := calm (by rintro ⟨data, other⟩; cases other)
    obtain ⟨effects, settles⟩ := (finish_sends { outbox with io := io } .networkError
      (bytes ("IRC write failed: " ++ what))).settles (fun _ => paid)
    refine ⟨effects, settles.trace, settles.charged, settles.handed, fun _ => settles.afoot ?_⟩
    rw [Afoot, paid]
    exact fun owes => Bool.noConfusion owes

namespace Session

/-- The event runs the handler of a chat or JOIN write with an error. -/
def failsRated (session : Session) : SessionEvent → Bool
  | .deliver index =>
    match session.io.completed[index]? with
    | some (.write _, .failure _) => session.owed.isSome
    | _ => false
  | _ => false

/-- Every event that is not such a handler keeps the books of a session. -/
theorem step_settles {session : Session} (accounted : Accounted session.toOutbox) {event : SessionEvent}
    (calm : session.failsRated event = false) :
    ∃ effects, Settles session.toOutbox (session.step event).toOutbox effects := by
  have passed {io : IoContext Operation Outcome}
      (count : io.count Operation.isWrite = session.io.count Operation.isWrite) :
      Sends session.toOutbox ({ session with io := io } : Session).toOutbox :=
    .nothing [] (List.append_nil _).symm rfl rfl rfl count
  have idle := accounted.owed_none
  cases event with
  | complete index outcome =>
    rcases complete_cases session index outcome with same | ⟨_, _, _, completed⟩
    · rw [step, same]
      exact (Sends.refl _).settles idle
    · rw [step, completed]
      exact (passed (IoContext.count_complete _ _ _ _)).settles idle
  | deliver index =>
    rcases deliver_cases session index with ⟨_, same⟩ | ⟨operation, outcome, io, taken, acted⟩
    · rw [step, same]
      exact (Sends.refl _).settles idle
    · have count := IoContext.count_take taken Operation.isWrite
      rcases acted with ⟨aside, acts⟩ | ⟨deadline, rfl, waited⟩ | ⟨data, rfl, written⟩
      · simp only [Operation.isOutgoing, Bool.or_eq_false_iff] at aside
        rw [aside.1] at count
        exact ((passed count.symm).trans acts.sends).settles idle
      · rw [step, waited]
        refine Sends.settles ((passed count.symm).trans ?_) idle
        cases outcome with
        | failure what => exact .refl _
        | success bytes => exact scheduleWrite_sends _
      · rw [step, written]
        refine accounted.onWrite_settles taken (fun failed => ?_)
        have found := IoContext.completed_of_take taken
        cases outcome with
        | success bytes => exact absurd ⟨bytes, rfl⟩ failed
        | failure what => simpa [failsRated, found] using calm
  | enqueue message => exact (enqueue_sends session.toOutbox message).settles idle
  | stop => exact (finish_sends session.toOutbox _ _).settles idle

end Session

end TwitchBot
