import Mathlib.Logic.Relation
import TwitchBot.OutboxCases
import TwitchBot.Session

namespace TwitchBot

open Relation

/-- The operations that belong to the queue. -/
def Operation.isOutgoing (operation : Operation) : Bool := operation.isWrite || operation.isWriteWait

/-- The effects of the rest of the session. -/
def Effect.isAside : Effect → Bool
  | .ready => true
  | .uncaught _ => true
  | _ => false

namespace Outbox

/-- The single moves of an outbox. Every event of a session is a sequence of
them; `aside` marks moves that the queue does not notice. -/
inductive Move : Outbox → Outbox → Prop
  | tick (outbox : Outbox) : Move outbox outbox.tick
  | enqueue (outbox : Outbox) (message : OutboundMessage) : Move outbox (outbox.enqueue message)
  | finish (outbox : Outbox) (reason : SessionEndReason) (message : Bytes) :
    Move outbox (outbox.finish reason message)
  | launch (outbox : Outbox) (operation : Operation) (aside : operation.isOutgoing = false) :
    Move outbox (outbox.launch operation)
  | cancel (outbox : Outbox) (selected : Operation → Bool)
    (aside : ∀ operation, operation.isOutgoing = true → selected operation = false) :
    Move outbox (outbox.cancel selected)
  | emit (outbox : Outbox) (effect : Effect) (aside : effect.isAside = true) : Move outbox (outbox.emit effect)
  | complete (outbox : Outbox) (index : Nat) (operation : Operation) (outcome : Outcome)
    (found : outbox.io.outstanding[index]? = some operation)
    (possible : operation.completesWith outbox.now outcome = true) :
    Move outbox { outbox with io := outbox.io.complete index outcome }
  | pass (outbox : Outbox) (io : IoContext Operation Outcome) (index : Nat) (operation : Operation)
    (outcome : Outcome) (taken : outbox.io.take index = some ((operation, outcome), io))
    (aside : operation.isOutgoing = false) : Move outbox { outbox with io := io }
  | timer (outbox : Outbox) (io : IoContext Operation Outcome) (index : Nat) (deadline : Time)
    (outcome : Outcome) (taken : outbox.io.take index = some ((.writeWait deadline, outcome), io)) :
    Move outbox ({ outbox with io := io }.onWriteTimer outcome)
  | write (outbox : Outbox) (io : IoContext Operation Outcome) (index : Nat) (data : Bytes)
    (outcome : Outcome) (taken : outbox.io.take index = some ((.write data, outcome), io)) :
    Move outbox ({ outbox with io := io }.onWrite outcome)

/-- Any number of moves. -/
abbrev Moves : Outbox → Outbox → Prop := ReflTransGen Move

/-- One clock is another after some readings. -/
def Elapsed (clock next : Nat → Time) : Prop := ∃ readings, ∀ n, next n = clock (n + readings)

theorem Elapsed.refl (clock : Nat → Time) : Elapsed clock clock := ⟨0, fun _ => rfl⟩

theorem Elapsed.trans {first second third : Nat → Time} (left : Elapsed first second)
    (right : Elapsed second third) : Elapsed first third := by
  obtain ⟨earlier, left⟩ := left
  obtain ⟨later, right⟩ := right
  refine ⟨later + earlier, fun n => ?_⟩
  rw [right, left, Nat.add_assoc]

theorem tick_elapsed (outbox : Outbox) : Elapsed outbox.clock outbox.tick.clock := ⟨1, fun _ => rfl⟩

theorem finish_clock (outbox : Outbox) (reason : SessionEndReason) (message : Bytes) :
    (outbox.finish reason message).clock = outbox.clock := by
  unfold finish
  split <;> rfl

theorem finish_closed (outbox : Outbox) (reason : SessionEndReason) (message : Bytes) :
    (outbox.finish reason message).closed = true := by
  unfold finish
  split
  · assumption
  · rfl

theorem scheduleWrite_elapsed (outbox : Outbox) : Elapsed outbox.clock outbox.scheduleWrite.clock := by
  rcases scheduleWrite_cases outbox with ⟨same, _⟩ | ⟨_, _, _, _, _, _, ⟨_, armed⟩ | ⟨_, started⟩⟩
  · rw [same]
    exact .refl _
  · rw [armed]
    exact tick_elapsed outbox
  · rw [started]
    exact tick_elapsed outbox

theorem onWritten_elapsed (outbox : Outbox) : Elapsed outbox.clock outbox.onWritten.clock := by
  unfold onWritten
  split
  · exact .refl _
  · exact (tick_elapsed outbox).trans (scheduleWrite_elapsed _)

/-- A move may read the clock, and does nothing else to it. -/
theorem Move.elapsed {outbox next : Outbox} (move : Move outbox next) : Elapsed outbox.clock next.clock := by
  cases move with
  | tick => exact tick_elapsed outbox
  | enqueue message =>
    rcases enqueue_cases outbox message with ⟨_, same⟩ | ⟨_, _, _, dropped⟩ | ⟨_, _, _, ended⟩ | ⟨_, _, accepted⟩
    · rw [same]
      exact .refl _
    · rw [dropped]
      exact .refl _
    · rw [ended, finish_clock]
      exact .refl _
    · rw [accepted]
      exact scheduleWrite_elapsed _
  | finish reason message =>
    rw [finish_clock]
    exact .refl _
  | timer io index deadline outcome taken =>
    cases outcome with
    | failure what => exact .refl _
    | success data => exact scheduleWrite_elapsed { outbox with io := io }
  | write io index data outcome taken =>
    cases outcome with
    | failure what =>
      rw [onWrite, finish_clock]
      exact .refl _
    | success bytes => exact onWritten_elapsed { outbox with io := io }
  | _ => exact .refl _

/-- What every move keeps, any number of moves keeps. -/
theorem Moves.keeps {property : Outbox → Prop}
    (step : ∀ outbox next, Move outbox next → property outbox → property next) {outbox next : Outbox}
    (moves : Moves outbox next) (holds : property outbox) : property next := by
  induction moves with
  | refl => exact holds
  | tail _ move ih => exact step _ _ move ih

theorem Moves.elapsed {outbox next : Outbox} (moves : Moves outbox next) : Elapsed outbox.clock next.clock := by
  induction moves with
  | refl => exact .refl _
  | tail _ move ih => exact ih.trans move.elapsed

end Outbox

open Outbox

namespace Session

/-- The single acts of handlers. Every handler but those of the queue is a
sequence of them; `aside` marks acts that the queue does not notice. -/
inductive Act : Session → Session → Prop
  | tick (session : Session) : Act session (session.onOutbox (·.tick))
  | send (session : Session) (data : Bytes) (kind : OutboundKind) (channel : Bytes) :
    Act session ((session.onOutbox (·.tick)).enqueueNext data kind channel session.now)
  | chat (session : Session) (data channel : Bytes) (due : Time) :
    Act session (session.enqueueNext data .chat channel due)
  | finish (session : Session) (reason : SessionEndReason) (message : Bytes) :
    Act session (session.finish reason message)
  | launch (session : Session) (operation : Operation) (aside : operation.isOutgoing = false) :
    Act session (session.onOutbox (·.launch operation))
  | cancel (session : Session) (selected : Operation → Bool)
    (aside : ∀ operation, operation.isOutgoing = true → selected operation = false) :
    Act session (session.onOutbox (·.cancel selected))
  | emit (session : Session) (effect : Effect) (aside : effect.isAside = true) :
    Act session (session.onOutbox (·.emit effect))
  | aside (session next : Session) (outbox : next.toOutbox = session.toOutbox)
    (sequence : next.nextSequence = session.nextSequence) : Act session next

abbrev Acts : Session → Session → Prop := ReflTransGen Act

theorem Act.moves {session next : Session} (act : Act session next) : Moves session.toOutbox next.toOutbox := by
  cases act with
  | tick => exact .single (.tick _)
  | send data kind channel => exact (ReflTransGen.single (.tick _)).tail (.enqueue _ _)
  | chat data channel due => exact .single (.enqueue _ _)
  | finish reason message => exact .single (.finish _ reason message)
  | launch operation aside => exact .single (.launch _ operation aside)
  | cancel selected aside => exact .single (.cancel _ selected aside)
  | emit effect aside => exact .single (.emit _ effect aside)
  | aside _ outbox sequence =>
    rw [outbox]

theorem Acts.moves {session next : Session} (acts : Acts session next) : Moves session.toOutbox next.toOutbox := by
  induction acts with
  | refl => exact .refl
  | tail _ act ih => exact ih.trans act.moves

theorem finish_acts (session : Session) (reason : SessionEndReason) (message : Bytes) :
    Acts session (session.finish reason message) := .single (.finish session reason message)

theorem launch_acts (session : Session) {operation : Operation} (aside : operation.isOutgoing = false) :
    Acts session (session.onOutbox (·.launch operation)) := .single (.launch session operation aside)

theorem cancelAuth_acts (session : Session) :
    Acts session (session.onOutbox (·.cancel Operation.isAuthWait)) := by
  refine .single (.cancel _ _ ?_)
  intro operation outgoing
  cases operation <;> simp_all [Operation.isOutgoing, Operation.isWrite, Operation.isWriteWait,
    Operation.isAuthWait]

theorem applyAction_acts (session : Session) (action : ProtocolAction) :
    Acts session (session.applyAction action) := by
  unfold applyAction
  split
  · exact .single (.send session _ _ _)
  · exact (cancelAuth_acts session).tail (.emit _ _ rfl)
  · exact finish_acts session _ _
  · exact finish_acts session _ _

theorem applyActions_acts (session : Session) (actions : List ProtocolAction) :
    Acts session (actions.foldl applyAction session) := by
  induction actions generalizing session with
  | nil => exact .refl
  | cons action actions ih => exact (applyAction_acts session action).trans (ih _)

theorem applyUntilClosed_acts (session : Session) (actions : List ProtocolAction) :
    Acts session (session.applyUntilClosed actions).2 := by
  induction actions generalizing session with
  | nil => exact .refl
  | cons action actions ih =>
    simp only [applyUntilClosed]
    split
    · exact applyAction_acts session action
    · exact (applyAction_acts session action).trans (ih _)

theorem enqueueChats_acts (session : Session) (chats : List ScheduledChatMessage) :
    Acts session (chats.foldl enqueueChat session) := by
  induction chats generalizing session with
  | nil => exact .refl
  | cons chat chats ih =>
    refine .trans ?_ (ih _)
    unfold enqueueChat
    split
    · exact .refl
    · exact .single (.chat session _ _ _)

theorem respond_acts (session : Session) (message : IrcMessage) :
    Acts session (session.respond message).2 := by
  unfold respond
  split
  · exact .refl
  · have ticked : Acts session (session.onOutbox (·.tick)) := .single (.tick session)
    have asked : Acts session { session.onOutbox (·.tick) with
        automation := (session.automation.handle message session.now).2 } := ticked.tail (.aside _ _ rfl rfl)
    dsimp only
    split
    · exact asked
    · exact asked.trans (enqueueChats_acts _ _)

theorem handleMessage_acts (session : Session) (message : IrcMessage) :
    Acts session (session.handleMessage message).2 := by
  have handled : Acts session { session with protocol := (session.protocol.handle message).2 } :=
    .single (.aside _ _ rfl rfl)
  unfold handleMessage
  dsimp only
  split
  · exact handled
  · rename_i actions _
    have applied := applyUntilClosed_acts { session with protocol := (session.protocol.handle message).2 } actions
    split
    · rename_i result
      rw [result] at applied
      exact handled.trans applied
    · rename_i result
      rw [result] at applied
      exact (handled.trans applied).trans (respond_acts _ _)

theorem handleLine_acts (session : Session) (line : Bytes) : Acts session (session.handleLine line).2 := by
  unfold handleLine
  split
  · exact .refl
  · exact handleMessage_acts session _

theorem handleLines_acts (session : Session) (lines : List Bytes) :
    Acts session (session.handleLines lines).2 := by
  induction lines generalizing session with
  | nil => exact .refl
  | cons line lines ih =>
    have first := handleLine_acts session line
    unfold handleLines
    split
    · rename_i result
      rw [result] at first
      exact first
    · rename_i result
      rw [result] at first
      split
      · exact first
      · exact first.trans (ih _)

theorem receive_acts (session : Session) (data : Bytes) : Acts session (session.receive data).2 := by
  have pushed : Acts session { session with assembler := (session.assembler.push data).2 } :=
    .single (.aside _ _ rfl rfl)
  unfold receive
  dsimp only
  split
  · exact pushed
  · exact pushed.trans (handleLines_acts _ _)

theorem read_acts (session : Session) : Acts session session.read := by
  unfold read
  split
  · exact .refl
  · exact launch_acts session rfl

theorem startAuthTimeout_acts (session : Session) : Acts session session.startAuthTimeout :=
  ((ReflTransGen.single (.tick _)).trans (cancelAuth_acts _)).trans (launch_acts _ rfl)

theorem login_acts (session : Session) : Acts session session.login := by
  have begun : Acts session { session with protocol := session.protocol.begin.2 } := .single (.aside _ _ rfl rfl)
  unfold login
  dsimp only
  split
  · exact begun.tail (.emit _ _ rfl)
  · rename_i actions _
    have applied := begun.trans (applyActions_acts _ actions)
    exact (applied.trans (startAuthTimeout_acts _)).trans (read_acts (startAuthTimeout _))

theorem onRead_acts (session : Session) (outcome : Outcome) : Acts session (session.onRead outcome) := by
  unfold onRead
  split
  · exact finish_acts session _ _
  · rename_i data
    have received := receive_acts session data
    split
    · rename_i result
      rw [result] at received
      exact received.trans (finish_acts _ _ _)
    · rename_i result
      rw [result] at received
      exact received
    · rename_i result
      rw [result] at received
      exact received.trans (read_acts _)

theorem handshake_acts (session : Session) : Acts session session.handshake := by
  unfold handshake
  split
  · exact launch_acts session rfl
  · exact finish_acts session _ _

theorem onAuthTimer_acts (session : Session) (outcome : Outcome) : Acts session (session.onAuthTimer outcome) := by
  unfold onAuthTimer
  split
  · exact .refl
  · split
    · exact .refl
    · exact finish_acts session _ _

/-- Everything a handler run can do: only the handlers of the queue are more
than acts behind the completion that was taken. -/
theorem deliver_cases (session : Session) (index : Nat) :
    (session.io.take index = none ∧ session.deliver index = session) ∨
      ∃ operation outcome io, session.io.take index = some ((operation, outcome), io) ∧
        ((operation.isOutgoing = false ∧
            Acts { session with io := io } (session.deliver index)) ∨
          (∃ deadline, operation = .writeWait deadline ∧
            session.deliver index = ({ session with io := io } : Session).onOutbox (·.onWriteTimer outcome)) ∨
          ∃ data, operation = .write data ∧
            session.deliver index = ({ session with io := io } : Session).onOutbox (·.onWrite outcome)) := by
  unfold deliver
  split
  · rename_i none
    exact Or.inl ⟨none, rfl⟩
  · rename_i operation outcome io taken
    refine Or.inr ⟨operation, outcome, io, taken, ?_⟩
    cases operation with
    | resolve =>
      cases outcome with
      | failure what => exact Or.inl ⟨rfl, finish_acts _ _ _⟩
      | success data => exact Or.inl ⟨rfl, launch_acts _ rfl⟩
    | connect =>
      cases outcome with
      | failure what => exact Or.inl ⟨rfl, finish_acts _ _ _⟩
      | success data => exact Or.inl ⟨rfl, handshake_acts _⟩
    | handshake =>
      cases outcome with
      | failure what => exact Or.inl ⟨rfl, finish_acts _ _ _⟩
      | success data => exact Or.inl ⟨rfl, login_acts _⟩
    | authWait deadline => exact Or.inl ⟨rfl, onAuthTimer_acts _ _⟩
    | read => exact Or.inl ⟨rfl, onRead_acts _ _⟩
    | writeWait deadline => exact Or.inr (Or.inl ⟨deadline, rfl, rfl⟩)
    | write data => exact Or.inr (Or.inr ⟨data, rfl, rfl⟩)

/-- A handler run: the completion is taken and its handler moves the outbox. -/
theorem deliver_moves (session : Session) (index : Nat) :
    Moves session.toOutbox (session.deliver index).toOutbox := by
  rcases deliver_cases session index with ⟨_, same⟩ | ⟨operation, outcome, io, taken, acted⟩
  · rw [same]
  · rcases acted with ⟨aside, acts⟩ | ⟨deadline, rfl, waited⟩ | ⟨data, rfl, written⟩
    · exact (ReflTransGen.single (.pass _ io index operation outcome taken aside)).trans acts.moves
    · rw [waited]
      exact .single (.timer _ io index deadline outcome taken)
    · rw [written]
      exact .single (.write _ io index data outcome taken)

/-- A completion is that of an outstanding operation, or it does nothing. -/
theorem complete_cases (session : Session) (index : Nat) (outcome : Outcome) :
    session.complete index outcome = session ∨
      ∃ operation, session.io.outstanding[index]? = some operation ∧
        operation.completesWith session.now outcome = true ∧
          session.complete index outcome = { session with io := session.io.complete index outcome } := by
  unfold complete
  split
  · exact Or.inl rfl
  · rename_i operation found
    split
    · rename_i possible
      exact Or.inr ⟨operation, found, possible, rfl⟩
    · exact Or.inl rfl

theorem complete_moves (session : Session) (index : Nat) (outcome : Outcome) :
    Moves session.toOutbox (session.complete index outcome).toOutbox := by
  rcases complete_cases session index outcome with same | ⟨operation, found, possible, completed⟩
  · rw [same]
  · rw [completed]
    exact .single (.complete _ index operation outcome found possible)

/-- Every event of a session is a sequence of moves of its outbox. -/
theorem step_moves (session : Session) (event : SessionEvent) :
    Moves session.toOutbox (session.step event).toOutbox := by
  cases event with
  | complete index outcome => exact complete_moves session index outcome
  | deliver index => exact deliver_moves session index
  | enqueue message => exact .single (.enqueue _ message)
  | stop => exact (finish_acts session _ _).moves

theorem after_moves (session : Session) (events : List SessionEvent) :
    Moves session.toOutbox (session.after events).toOutbox := by
  induction events generalizing session with
  | nil => exact .refl
  | cons event events ih => exact (step_moves session event).trans (ih _)

/-- What every event keeps that is not a message from outside, a run of such events keeps. -/
theorem after_keeps (property : Session → Prop) {events : List SessionEvent}
    (own : ∀ message, .enqueue message ∉ events)
    (step : ∀ (session : Session) (event : SessionEvent), (∀ message, event ≠ .enqueue message) →
      property session → property (session.step event)) {session : Session} (holds : property session) :
    property (session.after events) := by
  induction events generalizing session with
  | nil => exact holds
  | cons event events ih =>
    refine ih (fun message member => own message (List.mem_cons_of_mem _ member)) (step session event ?_ holds)
    rintro message rfl
    exact own message List.mem_cons_self

end Session

end TwitchBot
