import TwitchBot.HandlerRules
import TwitchBot.Library.PendingWork
import TwitchBot.Library.Simulation
import TwitchBot.SingleWriter
import TwitchBot.SpokenConfig

namespace TwitchBot

open Outbox Relation

/-- The operations that carry a connection: the handler of each starts the next. -/
def Operation.isStage : Operation → Bool
  | .resolve => true
  | .connect => true
  | .handshake => true
  | .read => true
  | _ => false

def Effect.stage : Effect → Option Operation
  | .started operation => if operation.isStage then some operation else none
  | _ => none

/-- The operations of the connection that were started, in order. -/
def stagesOf (trace : List Effect) : List Operation := trace.filterMap Effect.stage

theorem stagesOf_concat (trace : List Effect) (effect : Effect) :
    stagesOf (trace ++ [effect]) = stagesOf trace ++ effect.stage.toList := filterMap_concat _ _ _

/-- The operations of the connection whose handlers have not run. -/
def Outbox.stagesPending (outbox : Outbox) : List Operation := outbox.io.pending.filter Operation.isStage

/-- What leaves the connection alone, and reopens nothing. -/
structure Steady (start next : Outbox) : Prop where
  closed : start.closed = true → next.closed = true
  pending : next.stagesPending.Perm start.stagesPending
  stages : stagesOf next.trace = stagesOf start.trace

namespace Steady

variable {start middle next : Outbox}

theorem refl (outbox : Outbox) : Steady outbox outbox := ⟨id, .refl _, rfl⟩

theorem trans (left : Steady start middle) (right : Steady middle next) : Steady start next :=
  ⟨right.closed ∘ left.closed, right.pending.trans left.pending, right.stages.trans left.stages⟩

theorem of_eq (trace : next.trace = start.trace) (closed : next.closed = start.closed)
    (io : next.io = start.io) : Steady start next := by
  refine ⟨closed.trans, ?_, congrArg stagesOf trace⟩
  rw [stagesPending, stagesPending, io]

end Steady

namespace Outbox

theorem emit_steady (outbox : Outbox) {effect : Effect} (other : effect.stage = none) :
    Steady outbox (outbox.emit effect) := by
  refine ⟨id, .refl _, ?_⟩
  rw [emit, stagesOf_concat, other, Option.toList_none, List.append_nil]

theorem tick_steady (outbox : Outbox) : Steady outbox outbox.tick := .of_eq rfl rfl rfl

theorem cancel_steady (outbox : Outbox) (selected : Operation → Bool) : Steady outbox (outbox.cancel selected) :=
  ⟨id, (IoContext.pending_cancel outbox.io selected operationAborted).filter _, rfl⟩

theorem launch_steady (outbox : Outbox) {operation : Operation} (other : operation.isStage = false) :
    Steady outbox (outbox.launch operation) := by
  have started : Steady outbox { outbox with io := outbox.io.start operation } := by
    refine ⟨id, ?_, rfl⟩
    have perm := (IoContext.pending_start outbox.io operation).filter Operation.isStage
    rwa [List.filter_cons_of_neg (by simp [other])] at perm
  exact started.trans (emit_steady _ (by simp [Effect.stage, other]))

theorem finish_steady (outbox : Outbox) (reason : SessionEndReason) (message : Bytes) :
    Steady outbox (outbox.finish reason message) := by
  unfold finish
  split
  · exact .refl outbox
  · have closed : Steady outbox { outbox with closed := true } := ⟨fun _ => rfl, .refl _, rfl⟩
    exact (closed.trans (cancel_steady _ _)).trans (emit_steady _ rfl)

theorem scheduleWrite_steady (outbox : Outbox) : Steady outbox outbox.scheduleWrite := by
  rcases scheduleWrite_cases outbox with ⟨same, _⟩ | ⟨_, _, selected, limiter, _, _, ⟨_, armed⟩ | ⟨_, started⟩⟩
  · rw [same]
    exact .refl outbox
  · have ticked : Steady outbox { outbox.tick with limiter := limiter } := .of_eq rfl rfl rfl
    rw [armed]
    exact (ticked.trans (cancel_steady _ _)).trans (launch_steady _ rfl)
  · have moved : Steady outbox { outbox.tick with
        limiter := limiter
        currentWrite := some selected.message
        outbound := outbox.outbound.eraseIdx selected.index
        writeInProgress := true } := .of_eq rfl rfl rfl
    rw [started]
    exact (moved.trans (emit_steady _ rfl)).trans (launch_steady _ rfl)

theorem enqueue_steady (outbox : Outbox) (message : OutboundMessage) :
    Steady outbox (outbox.enqueue message) := by
  rcases enqueue_cases outbox message with ⟨_, same⟩ | ⟨_, _, _, dropped⟩ | ⟨_, _, _, ended⟩ | ⟨_, _, accepted⟩
  · rw [same]
    exact .refl outbox
  · rw [dropped]
    exact emit_steady outbox rfl
  · rw [ended]
    exact finish_steady outbox _ _
  · have queued : Steady outbox { outbox with outbound := outbox.outbound ++ [message] } := .of_eq rfl rfl rfl
    rw [accepted]
    exact (queued.trans (emit_steady _ rfl)).trans (scheduleWrite_steady _)

theorem onWritten_steady (outbox : Outbox) : Steady outbox outbox.onWritten := by
  cases current : outbox.currentWrite with
  | none =>
    rw [onWritten, current]
    exact emit_steady outbox rfl
  | some message =>
    have recorded : Steady outbox (outbox.recorded message) :=
      ⟨id, .refl _, (stagesOf_concat outbox.trace (.wrote message outbox.now)).trans (List.append_nil _)⟩
    rw [onWritten_of_current current]
    exact recorded.trans (scheduleWrite_steady _)

theorem onWrite_steady (outbox : Outbox) (outcome : Outcome) : Steady outbox (outbox.onWrite outcome) := by
  cases outcome with
  | failure what => exact finish_steady outbox _ _
  | success data => exact onWritten_steady outbox

theorem onWriteTimer_steady (outbox : Outbox) (outcome : Outcome) :
    Steady outbox (outbox.onWriteTimer outcome) := by
  cases outcome with
  | failure what => exact .refl outbox
  | success data => exact scheduleWrite_steady outbox

end Outbox

theorem steady_keptByLines (start : Outbox) : KeptByLines (Steady start) where
  tick _ steady := steady.trans (tick_steady _)
  enqueue _ _ steady := steady.trans (enqueue_steady _ _)
  finish _ _ _ _ steady := steady.trans (finish_steady _ _ _)
  cancel _ steady := steady.trans (cancel_steady _ _)
  ready _ steady := steady.trans (emit_steady _ rfl)

namespace Session

theorem startAuthTimeout_steady (session : Session) : Steady session.toOutbox session.startAuthTimeout.toOutbox :=
  ((tick_steady _).trans (cancel_steady _ _)).trans (launch_steady _ rfl)

theorem onAuthTimer_steady (session : Session) (outcome : Outcome) :
    Steady session.toOutbox (session.onAuthTimer outcome).toOutbox := by
  unfold onAuthTimer
  split
  · exact .refl _
  · split
    · exact .refl _
    · exact finish_steady _ _ _

/-- The loop over the lines returns early only from a closed session. -/
theorem closed_of_handleLines {session next : Session} {lines : List Bytes}
    (early : session.handleLines lines = (.ok true, next)) : next.closed = true := by
  induction lines generalizing session with
  | nil =>
    simp [handleLines] at early
  | cons line lines ih =>
    unfold handleLines at early
    split at early
    · simp at early
    · split at early
      · cases early
        assumption
      · exact ih early

theorem closed_of_receive {session next : Session} {data : Bytes}
    (early : session.receive data = (.ok true, next)) : next.closed = true := by
  unfold receive at early
  dsimp only at early
  split at early
  · simp at early
  · exact closed_of_handleLines early

end Session

/-- How far a connection has come; a session that listens counts the reads
behind it. -/
inductive Stage
  | resolving
  | connecting
  | handshaking
  | listening (reads : Nat)

namespace Stage

/-- The operation that a connection waits for. -/
def operation : Stage → Operation
  | resolving => .resolve
  | connecting => .connect
  | handshaking => .handshake
  | listening _ => .read

/-- The operations that a connection has started. -/
def started : Stage → List Operation
  | resolving => [.resolve]
  | connecting => [.resolve, .connect]
  | handshaking => [.resolve, .connect, .handshake]
  | listening reads => [.resolve, .connect, .handshake] ++ List.replicate (reads + 1) .read

def IsListening (stage : Stage) : Prop := ∃ reads, stage = listening reads

theorem isStage_operation (stage : Stage) : stage.operation.isStage = true := by
  cases stage <;> rfl

end Stage

/-- What a session is for its peer, without its queue and its protocol. -/
structure Connection where
  stage : Stage
  isOver : Bool

/-- A connection takes its stages in order. One that is over does not listen,
but an operation that completed before may still take it to its handshake. -/
inductive Connection.Step : Connection → Connection → Prop
  | resolved (isOver : Bool) : Step ⟨.resolving, isOver⟩ ⟨.connecting, isOver⟩
  | connected (isOver : Bool) : Step ⟨.connecting, isOver⟩ ⟨.handshaking, isOver⟩
  | secured : Step ⟨.handshaking, false⟩ ⟨.listening 0, false⟩
  | received (reads : Nat) : Step ⟨.listening reads, false⟩ ⟨.listening (reads + 1), false⟩
  | closes (stage : Stage) : Step ⟨stage, false⟩ ⟨stage, true⟩

/-- A session that has done nothing but work on its connection. -/
structure Untouched (config : RuntimeConfig) (stage : Stage) (session : Session) : Prop where
  protocol : session.protocol = { config }
  automation : session.automation = .new config.bot
  assembler : session.assembler = .empty
  outbound : session.outbound = []
  idle : session.writeInProgress = false
  pending : session.io.pending = [stage.operation]
  trace : session.trace = stage.started.map Effect.started

/-- A session goes through its connection: while it is open it waits for the
operation of its stage and for no other, and does nothing else until it listens. -/
structure Realizes (config : RuntimeConfig) (session : Session) (connection : Connection) : Prop where
  closed : session.closed = connection.isOver
  stages : stagesOf session.trace = connection.stage.started
  pending : session.stagesPending = [connection.stage.operation] ∨
    connection.isOver = true ∧ session.stagesPending = []
  untouched : connection.isOver = false → connection.stage.IsListening ∨ Untouched config connection.stage session

end TwitchBot
