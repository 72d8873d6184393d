import TwitchBot.Library.PendingWork
import TwitchBot.SessionMoves

namespace TwitchBot

open Outbox

def Effect.acceptedMessage : Effect → Option OutboundMessage
  | .accepted message => some message
  | _ => none

def Effect.writtenMessage : Effect → Option OutboundMessage
  | .wrote message _ => some message
  | _ => none

def Effect.writeData : Effect → Option Bytes
  | .started (.write data) => some data
  | _ => none

/-- The messages a queue has accepted, in order. -/
def acceptedMessages (trace : List Effect) : List OutboundMessage := trace.filterMap Effect.acceptedMessage

/-- The messages whose writes have completed successfully, in order. -/
def writtenMessages (trace : List Effect) : List OutboundMessage := trace.filterMap Effect.writtenMessage

/-- The data handed to `async_write`, in order. -/
def startedWrites (trace : List Effect) : List Bytes := trace.filterMap Effect.writeData

/-- One more effect adds at most one entry to what is read off a trace. -/
theorem filterMap_concat {α : Type} (read : Effect → Option α) (trace : List Effect) (effect : Effect) :
    (trace ++ [effect]).filterMap read = trace.filterMap read ++ (read effect).toList := by
  rw [List.filterMap_append]
  cases found : read effect <;> simp [found]

theorem acceptedMessages_concat (trace : List Effect) (effect : Effect) :
    acceptedMessages (trace ++ [effect]) = acceptedMessages trace ++ effect.acceptedMessage.toList :=
  filterMap_concat _ _ _

theorem writtenMessages_concat (trace : List Effect) (effect : Effect) :
    writtenMessages (trace ++ [effect]) = writtenMessages trace ++ effect.writtenMessage.toList :=
  filterMap_concat _ _ _

theorem startedWrites_concat (trace : List Effect) (effect : Effect) :
    startedWrites (trace ++ [effect]) = startedWrites trace ++ effect.writeData.toList :=
  filterMap_concat _ _ _

/-- The effects that do not count for the accounting. -/
def Effect.isUncounted : Effect → Bool
  | .accepted _ => false
  | .wrote _ _ => false
  | .started operation => !operation.isWrite
  | _ => true

/-- The effects a session may have: no access to an empty `current_write_`, and
no drop but that of a chat message at a full queue. -/
def Effect.isLawful : Effect → Bool
  | .undefinedBehaviour => false
  | .dropped message queued => decide (message.kind = .chat) && decide (queued = maxOutboundQueue)
  | _ => true

theorem Effect.uncounted {effect : Effect} (uncounted : effect.isUncounted = true) :
    effect.acceptedMessage = none ∧ effect.writtenMessage = none ∧ effect.writeData = none := by
  cases effect with
  | started operation =>
    refine ⟨rfl, rfl, ?_⟩
    cases operation <;> first | rfl | cases uncounted
  | accepted message => cases uncounted
  | wrote message sentAt => cases uncounted
  | _ => exact ⟨rfl, rfl, rfl⟩

theorem lawful_concat {trace : List Effect} (lawful : ∀ effect ∈ trace, effect.isLawful = true)
    {effect : Effect} (next : effect.isLawful = true) :
    ∀ other ∈ trace ++ [effect], other.isLawful = true := by
  intro other member
  rcases List.mem_append.mp member with old | new
  · exact lawful other old
  · rw [List.mem_singleton.mp new]
    exact next

/-- Every accepted message is in exactly one place, the writes are those of the
messages that left the queue, and a pending one is the only one. -/
structure Accounted (outbox : Outbox) : Prop where
  bound : outbox.outbound.length ≤ maxOutboundQueue
  current : outbox.writeInProgress = outbox.currentWrite.isSome
  single : outbox.io.count Operation.isWrite ≤ if outbox.writeInProgress then 1 else 0
  conserved : (acceptedMessages outbox.trace).Perm
    (outbox.outbound ++ outbox.currentWrite.toList ++ writtenMessages outbox.trace)
  handed : startedWrites outbox.trace =
    (writtenMessages outbox.trace ++ outbox.currentWrite.toList).map (·.wireData)
  lawful : ∀ effect ∈ outbox.trace, effect.isLawful = true

namespace Accounted

variable {outbox : Outbox}

theorem emit (accounted : Accounted outbox) (effect : Effect) (uncounted : effect.isUncounted = true)
    (lawful : effect.isLawful = true) : Accounted (outbox.emit effect) := by
  obtain ⟨notAccepted, notWritten, noWrite⟩ := Effect.uncounted uncounted
  refine ⟨accounted.bound, accounted.current, accounted.single, ?_, ?_, lawful_concat accounted.lawful lawful⟩
  · simp only [Outbox.emit, acceptedMessages_concat, writtenMessages_concat, notAccepted, notWritten,
      Option.toList_none, List.append_nil]
    exact accounted.conserved
  · simp only [Outbox.emit, startedWrites_concat, writtenMessages_concat, noWrite, notWritten,
      Option.toList_none, List.append_nil]
    exact accounted.handed

theorem of_io (accounted : Accounted outbox) (io : IoContext Operation Outcome)
    (le : io.count Operation.isWrite ≤ outbox.io.count Operation.isWrite) :
    Accounted { outbox with io := io } :=
  ⟨accounted.bound, accounted.current, le.trans accounted.single, accounted.conserved, accounted.handed,
    accounted.lawful⟩

/-- The limiter, the clock and the closed flag do not count. -/
theorem aside (accounted : Accounted outbox) (limiter : RateLimiter) (clock : Nat → Time) (closed : Bool) :
    Accounted { outbox with limiter := limiter, clock := clock, closed := closed } :=
  ⟨accounted.bound, accounted.current, accounted.single, accounted.conserved, accounted.handed,
    accounted.lawful⟩

theorem tick (accounted : Accounted outbox) (limiter : RateLimiter) :
    Accounted { outbox.tick with limiter := limiter } := accounted.aside limiter _ outbox.closed

theorem cancel (accounted : Accounted outbox) (selected : Operation → Bool) :
    Accounted (outbox.cancel selected) :=
  accounted.of_io _ (IoContext.count_cancel _ _ _ _).le

theorem launch (accounted : Accounted outbox) {operation : Operation} (other : operation.isWrite = false) :
    Accounted (outbox.launch operation) := by
  refine (accounted.of_io (outbox.io.start operation) ?_).emit (.started operation)
    (by simp [Effect.isUncounted, other]) rfl
  simp [IoContext.count_start, other]

theorem finish (accounted : Accounted outbox) (reason : SessionEndReason) (message : Bytes) :
    Accounted (outbox.finish reason message) := by
  unfold Outbox.finish
  split
  · exact accounted
  · exact ((accounted.aside outbox.limiter outbox.clock true).cancel _).emit _ rfl rfl

theorem current_of_idle (accounted : Accounted outbox) (idle : outbox.writeInProgress = false) :
    outbox.currentWrite = none := by
  have current := accounted.current
  rw [idle] at current
  simpa using current.symm

/-- Starting a write moves its message from the queue to `current_write_`. -/
theorem startWrite (accounted : Accounted outbox) (idle : outbox.writeInProgress = false)
    {selected : Selection} (at_index : outbox.outbound[selected.index]? = some selected.message) (now : Time) :
    Accounted (outbox.startWrite selected now) := by
  obtain ⟨bound, same⟩ := List.getElem?_eq_some_iff.mp at_index
  have noMessage := accounted.current_of_idle idle
  have noWrite := accounted.single
  simp only [idle, Bool.false_eq_true, if_false] at noWrite
  have moved : outbox.outbound.Perm (outbox.outbound.eraseIdx selected.index ++ [selected.message]) := by
    rw [← same]
    exact (List.getElem_cons_eraseIdx_perm bound).symm.trans (List.perm_append_singleton _ _).symm
  have conserved := accounted.conserved
  rw [noMessage, Option.toList_none, List.append_nil] at conserved
  have handed := accounted.handed
  rw [noMessage, Option.toList_none, List.append_nil] at handed
  refine ⟨?_, rfl, ?_, ?_, ?_, ?_⟩
  · exact (List.length_eraseIdx_le _ _).trans accounted.bound
  · simp only [Outbox.startWrite, Outbox.launch, Outbox.emit, IoContext.count_start, Operation.isWrite]
    simpa using noWrite
  · simp only [Outbox.startWrite, Outbox.launch, Outbox.emit, acceptedMessages_concat,
      writtenMessages_concat, Effect.acceptedMessage, Effect.writtenMessage, Option.toList_none,
      Option.toList_some, List.append_nil]
    exact conserved.trans (moved.append_right _)
  · simp only [Outbox.startWrite, Outbox.launch, Outbox.emit, startedWrites_concat, writtenMessages_concat,
      Effect.writeData, Effect.writtenMessage, Option.toList_none, Option.toList_some, List.append_nil,
      List.map_append, List.map_singleton, handed]
  · exact lawful_concat (lawful_concat accounted.lawful rfl) rfl

theorem scheduleWrite (accounted : Accounted outbox) : Accounted outbox.scheduleWrite := by
  rcases scheduleWrite_cases outbox with ⟨same, _⟩ |
    ⟨_, idle, selected, limiter, selects, _, ⟨_, armed⟩ | ⟨_, started⟩⟩
  · rwa [same]
  · rw [armed]
    exact ((accounted.tick limiter).cancel _).launch rfl
  · rw [started]
    exact (accounted.tick limiter).startWrite idle selects.at_index _

/-- A message that enters the queue is accounted for. -/
theorem push (accounted : Accounted outbox) (room : outbox.outbound.length < maxOutboundQueue)
    (message : OutboundMessage) :
    Accounted ({ outbox with outbound := outbox.outbound ++ [message] }.emit (.accepted message)) := by
  refine ⟨?_, accounted.current, accounted.single, ?_, ?_, ?_⟩
  · rw [Outbox.emit, List.length_append, List.length_singleton]
    exact room
  · simp only [Outbox.emit, acceptedMessages_concat, writtenMessages_concat, Effect.acceptedMessage,
      Effect.writtenMessage, Option.toList_none, Option.toList_some, List.append_nil]
    calc (acceptedMessages outbox.trace ++ [message]).Perm (message :: acceptedMessages outbox.trace) :=
          List.perm_append_singleton _ _
      _ |>.Perm (message :: (outbox.outbound ++ (outbox.currentWrite.toList ++ writtenMessages outbox.trace))) := by
          rw [← List.append_assoc]
          exact accounted.conserved.cons message
      _ |>.Perm (outbox.outbound ++ [message] ++ outbox.currentWrite.toList ++ writtenMessages outbox.trace) := by
          simp only [List.append_assoc, List.singleton_append]
          exact List.perm_middle.symm
  · simp only [Outbox.emit, startedWrites_concat, writtenMessages_concat, Effect.writeData,
      Effect.writtenMessage, Option.toList_none, List.append_nil]
    exact accounted.handed
  · exact lawful_concat accounted.lawful rfl

theorem enqueue (accounted : Accounted outbox) (message : OutboundMessage) :
    Accounted (outbox.enqueue message) := by
  rcases enqueue_cases outbox message with ⟨_, same⟩ | ⟨_, full, chat, dropped⟩ | ⟨_, _, _, ended⟩ |
    ⟨_, room, accepted⟩
  · rwa [same]
  · have atBound : outbox.outbound.length = maxOutboundQueue := le_antisymm accounted.bound full
    rw [dropped]
    exact accounted.emit _ rfl (by simp [Effect.isLawful, chat, atBound])
  · rw [ended]
    exact accounted.finish _ _
  · rw [accepted]
    exact (accounted.push room message).scheduleWrite

/-- A message whose write has completed is counted. -/
theorem recorded (accounted : Accounted outbox) {message : OutboundMessage}
    (current : outbox.currentWrite = some message) (noWrite : outbox.io.count Operation.isWrite = 0) :
    Accounted (outbox.recorded message) := by
  have conserved := accounted.conserved
  rw [current, Option.toList_some] at conserved
  have handed := accounted.handed
  rw [current, Option.toList_some] at handed
  refine ⟨accounted.bound, rfl, noWrite.le, ?_, ?_, ?_⟩
  · simp only [Outbox.recorded, Outbox.emit, Outbox.tick, acceptedMessages_concat, writtenMessages_concat,
      Effect.acceptedMessage, Effect.writtenMessage, Option.toList_none, Option.toList_some, List.append_nil]
    refine conserved.trans ?_
    rw [List.append_assoc]
    exact List.perm_append_comm.append_left _
  · simp only [Outbox.recorded, Outbox.emit, Outbox.tick, startedWrites_concat, writtenMessages_concat,
      Effect.writeData, Effect.writtenMessage, Option.toList_none, Option.toList_some, List.append_nil]
    exact handed
  · exact lawful_concat accounted.lawful rfl

/-- A message whose write is in progress. -/
theorem current_of_busy (accounted : Accounted outbox) (busy : outbox.writeInProgress = true) :
    ∃ message, outbox.currentWrite = some message :=
  Option.isSome_iff_exists.mp (accounted.current.symm.trans busy)

/-- A completed write was in progress, and is the only one. -/
theorem busy_of_taken (accounted : Accounted outbox) {io : IoContext Operation Outcome} {index : Nat} {data : Bytes}
    {outcome : Outcome} (taken : outbox.io.take index = some ((.write data, outcome), io)) :
    outbox.writeInProgress = true ∧ io.count Operation.isWrite = 0 := by
  have count := IoContext.count_take taken Operation.isWrite
  simp only [Operation.isWrite, if_true] at count
  have single := accounted.single
  have busy : outbox.writeInProgress = true := by
    by_contra idle
    rw [if_neg idle] at single
    omega
  rw [if_pos busy] at single
  exact ⟨busy, by omega⟩

/-- The handler of a successful write finds its message and counts it. -/
theorem onWritten (accounted : Accounted outbox) (busy : outbox.writeInProgress = true)
    (noWrite : outbox.io.count Operation.isWrite = 0) : Accounted outbox.onWritten := by
  obtain ⟨message, current⟩ := accounted.current_of_busy busy
  rw [onWritten_of_current current]
  exact (accounted.recorded current noWrite).scheduleWrite

theorem onWrite (accounted : Accounted outbox) {io : IoContext Operation Outcome} {index : Nat} {data : Bytes}
    {outcome : Outcome} (taken : outbox.io.take index = some ((.write data, outcome), io)) :
    Accounted ({ outbox with io := io }.onWrite outcome) := by
  obtain ⟨busy, noWrite⟩ := accounted.busy_of_taken taken
  have passed : Accounted { outbox with io := io } :=
    accounted.of_io _ (by rw [noWrite]; exact Nat.zero_le _)
  cases outcome with
  | failure what => exact passed.finish _ _
  | success data => exact passed.onWritten busy noWrite

/-- Every move keeps the accounts. -/
theorem move {next : Outbox} (move : Move outbox next) (accounted : Accounted outbox) : Accounted next := by
  cases move with
  | tick => exact accounted.tick outbox.limiter
  | enqueue message => exact accounted.enqueue message
  | finish reason message => exact accounted.finish reason message
  | launch operation aside =>
    simp only [Operation.isOutgoing, Bool.or_eq_false_iff] at aside
    exact accounted.launch aside.1
  | cancel selected aside => exact accounted.cancel selected
  | emit effect aside =>
    have quiet : effect.isUncounted = true ∧ effect.isLawful = true := by
      cases effect <;> first | exact ⟨rfl, rfl⟩ | cases aside
    exact accounted.emit effect quiet.1 quiet.2
  | complete index operation outcome found possible =>
    exact accounted.of_io _ (IoContext.count_complete _ _ _ _).le
  | pass io index operation outcome taken aside =>
    exact accounted.of_io _ (by rw [IoContext.count_take taken]; exact Nat.le_add_right _ _)
  | timer io index deadline outcome taken =>
    have passed : Accounted { outbox with io := io } :=
      accounted.of_io _ (by rw [IoContext.count_take taken]; exact Nat.le_add_right _ _)
    cases outcome with
    | failure what => exact passed
    | success data => exact passed.scheduleWrite
  | write io index data outcome taken => exact accounted.onWrite taken

end Accounted

/-- The writes whose handlers have not run. -/
def Outbox.writesPending (outbox : Outbox) : List Operation := outbox.io.pending.filter Operation.isWrite

/-- In an open session the write of the current message is pending, and no other. -/
def Underway (outbox : Outbox) : Prop :=
  outbox.closed = false →
    outbox.writesPending = outbox.currentWrite.toList.map (fun message => .write message.wireData)

namespace Underway

variable {outbox next : Outbox}

theorem of_perm (underway : Underway outbox) (closed : next.closed = outbox.closed)
    (current : next.currentWrite = outbox.currentWrite) (perm : next.writesPending.Perm outbox.writesPending) :
    Underway next := by
  intro isOpen
  rw [underway (closed.symm.trans isOpen)] at perm
  rw [current]
  cases message : outbox.currentWrite with
  | none =>
    rw [message] at perm
    exact List.perm_nil.mp perm
  | some message' =>
    rw [message] at perm
    exact List.perm_singleton.mp perm

theorem of_closed (closed : outbox.closed = true) : Underway outbox := by
  intro isOpen
  rw [closed] at isOpen
  cases isOpen

theorem finish (outbox : Outbox) (reason : SessionEndReason) (message : Bytes) :
    Underway (outbox.finish reason message) := .of_closed (finish_closed outbox reason message)

theorem cancel (underway : Underway outbox) (selected : Operation → Bool) : Underway (outbox.cancel selected) :=
  underway.of_perm rfl rfl ((IoContext.pending_cancel _ _ _).filter _)

theorem launch (underway : Underway outbox) {operation : Operation} (other : operation.isWrite = false) :
    Underway (outbox.launch operation) := by
  have perm := (IoContext.pending_start outbox.io operation).filter Operation.isWrite
  rw [List.filter_cons_of_neg (by simp [other])] at perm
  exact underway.of_perm rfl rfl perm

theorem take (underway : Underway outbox) {io : IoContext Operation Outcome} {index : Nat} {operation : Operation}
    {outcome : Outcome} (taken : outbox.io.take index = some ((operation, outcome), io))
    (other : operation.isWrite = false) : Underway { outbox with io := io } := by
  have perm := (IoContext.pending_take taken).filter Operation.isWrite
  rw [List.filter_cons_of_neg (by simp [other])] at perm
  exact underway.of_perm rfl rfl perm.symm

theorem scheduleWrite (underway : Underway outbox) (accounted : Accounted outbox) : Underway outbox.scheduleWrite := by
  rcases scheduleWrite_cases outbox with ⟨same, _⟩ |
    ⟨isOpen, idle, selected, limiter, _, _, ⟨_, armed⟩ | ⟨_, started⟩⟩
  · rwa [same]
  · have ticked : Underway { outbox.tick with limiter := limiter } := underway
    rw [armed]
    exact (ticked.cancel _).launch rfl
  · intro _
    have none := underway isOpen
    rw [accounted.current_of_idle idle] at none
    have perm := (IoContext.pending_start outbox.io (.write selected.message.wireData)).filter Operation.isWrite
    rw [List.filter_cons_of_pos rfl, show outbox.io.pending.filter Operation.isWrite = [] from none] at perm
    rw [started]
    exact List.perm_singleton.mp perm

theorem enqueue (underway : Underway outbox) (accounted : Accounted outbox) (message : OutboundMessage) :
    Underway (outbox.enqueue message) := by
  rcases enqueue_cases outbox message with ⟨_, same⟩ | ⟨_, _, _, dropped⟩ | ⟨_, _, _, ended⟩ |
    ⟨_, room, accepted⟩
  · rwa [same]
  · rw [dropped]
    exact underway
  · rw [ended]
    exact finish _ _ _
  · have pushed : Underway ({ outbox with outbound := outbox.outbound ++ [message] }.emit (.accepted message)) :=
      underway
    rw [accepted]
    exact pushed.scheduleWrite (accounted.push room message)

/-- The handler of a write leaves none pending, unless it starts the next. -/
theorem onWrite (underway : Underway outbox) (accounted : Accounted outbox) {io : IoContext Operation Outcome}
    {index : Nat} {data : Bytes} {outcome : Outcome}
    (taken : outbox.io.take index = some ((.write data, outcome), io)) :
    Underway ({ outbox with io := io }.onWrite outcome) := by
  cases outcome with
  | failure what => exact finish _ _ _
  | success bytes =>
    obtain ⟨busy, noWrite⟩ := accounted.busy_of_taken taken
    obtain ⟨message, current⟩ := accounted.current_of_busy busy
    have passed : Accounted { outbox with io := io } := accounted.of_io _ (by rw [noWrite]; exact Nat.zero_le _)
    have kept : ({ outbox with io := io } : Outbox).currentWrite = some message := current
    rw [Outbox.onWrite, onWritten_of_current kept]
    refine scheduleWrite (fun isOpen => ?_) (passed.recorded current noWrite)
    have single := underway isOpen
    rw [current] at single
    have perm := (IoContext.pending_take taken).filter Operation.isWrite
    rw [List.filter_cons_of_pos rfl, show outbox.io.pending.filter Operation.isWrite = [_] from single] at perm
    exact (List.cons.inj (List.singleton_perm.mp perm)).2.symm

/-- Every move keeps the write of the current message pending. -/
theorem move (move : Move outbox next) (underway : Underway outbox) (accounted : Accounted outbox) :
    Underway next := by
  cases move with
  | tick => exact underway
  | enqueue message => exact underway.enqueue accounted message
  | finish reason message => exact finish _ _ _
  | launch operation aside =>
    simp only [Operation.isOutgoing, Bool.or_eq_false_iff] at aside
    exact underway.launch aside.1
  | cancel selected aside => exact underway.cancel selected
  | emit effect aside => exact underway
  | complete index operation outcome found possible =>
    exact underway.of_perm rfl rfl ((IoContext.pending_complete _ _ _).filter _)
  | pass io index operation outcome taken aside =>
    simp only [Operation.isOutgoing, Bool.or_eq_false_iff] at aside
    exact underway.take taken aside.1
  | timer io index deadline outcome taken =>
    have passed := underway.take taken rfl
    cases outcome with
    | failure what => exact passed
    | success data =>
      refine passed.scheduleWrite (accounted.of_io _ ?_)
      rw [IoContext.count_take taken]
      exact Nat.le_add_right _ _
  | write io index data outcome taken => exact underway.onWrite accounted taken

/-- The writes that are pending are counted. -/
theorem count_isWrite (underway : Underway outbox) (accounted : Accounted outbox) (isOpen : outbox.closed = false)
    (busy : outbox.writeInProgress = true) : outbox.io.count Operation.isWrite = 1 := by
  obtain ⟨message, current⟩ := accounted.current_of_busy busy
  have single := underway isOpen
  rw [current] at single
  have counted : outbox.io.count Operation.isWrite = outbox.writesPending.length := by
    rw [IoContext.count, Outbox.writesPending, ← List.countP_eq_length_filter, IoContext.pending,
      List.countP_append, List.countP_map]
    rfl
  rw [counted, single]
  rfl

end Underway

theorem scheduleWrite_accepted (outbox : Outbox) :
    acceptedMessages outbox.scheduleWrite.trace = acceptedMessages outbox.trace := by
  rcases scheduleWrite_cases outbox with ⟨same, _⟩ |
    ⟨_, _, selected, limiter, _, _, ⟨_, armed⟩ | ⟨_, started⟩⟩
  · rw [same]
  · rw [armed]
    simp [armWriteTimer, Outbox.launch, Outbox.cancel, Outbox.tick, acceptedMessages_concat,
      Effect.acceptedMessage]
  · rw [started]
    simp only [startWrite, Outbox.launch, Outbox.emit, Outbox.tick, acceptedMessages_concat,
      Effect.acceptedMessage, Option.toList_none, List.append_nil]

theorem accounted_new (config : RuntimeConfig) (limiter : RateLimiter) (clock : Nat → Time)
    (sniConfigured : Bool) : Accounted (Session.new config limiter clock sniConfigured).toOutbox :=
  ⟨Nat.zero_le _, rfl, Nat.le_refl 0, .refl _, rfl, fun _ none => absurd none List.not_mem_nil⟩

theorem accounted_start (config : RuntimeConfig) (limiter : RateLimiter) (clock : Nat → Time)
    (sniConfigured : Bool) : Accounted (Session.new config limiter clock sniConfigured).start.toOutbox :=
  (accounted_new config limiter clock sniConfigured).launch rfl

/-- The accounts are right after any events. -/
theorem accounted_after (config : RuntimeConfig) (limiter : RateLimiter) (clock : Nat → Time)
    (sniConfigured : Bool) (events : List SessionEvent) :
    Accounted ((Session.new config limiter clock sniConfigured).start.after events).toOutbox :=
  (Session.after_moves _ events).keeps (fun _ _ => Accounted.move)
    (accounted_start config limiter clock sniConfigured)

/-- The write of the current message of an open session is pending after any events. -/
theorem underway_after (config : RuntimeConfig) (limiter : RateLimiter) (clock : Nat → Time)
    (sniConfigured : Bool) (events : List SessionEvent) :
    Underway ((Session.new config limiter clock sniConfigured).start.after events).toOutbox :=
  ((Session.after_moves _ events).keeps
    (fun _ _ move (holds : Accounted _ ∧ Underway _) => ⟨holds.1.move move, holds.2.move move holds.1⟩)
    ⟨accounted_start config limiter clock sniConfigured, fun _ => rfl⟩).2

/-- After any events of a session: the queue is bounded, at most one write is
pending and a pending one has its message, every accepted message is in exactly
one of the queue, `current_write_` and the completed writes, the data written is
that of the last two, and nothing was dropped but chat messages at a full queue;
an outbox that a message leaves open accepts it or reports it as dropped. While
the session is open, the write of `current_write_` is pending and no other, so
that the handlers of all other writes have run and have counted them. -/
theorem single_writer (config : RuntimeConfig) (limiter : RateLimiter) (clock : Nat → Time)
    (sniConfigured : Bool) (events : List SessionEvent) :
    let session := (Session.new config limiter clock sniConfigured).start.after events
    session.outbound.length ≤ 1000 ∧
      session.io.count Operation.isWrite ≤ 1 ∧
      (session.writeInProgress = true → session.currentWrite.isSome = true) ∧
      .undefinedBehaviour ∉ session.trace ∧
      (acceptedMessages session.trace).Perm
        (session.outbound ++ session.currentWrite.toList ++ writtenMessages session.trace) ∧
      startedWrites session.trace =
        (writtenMessages session.trace ++ session.currentWrite.toList).map (·.wireData) ∧
      (∀ message queued, .dropped message queued ∈ session.trace → message.kind = .chat ∧ queued = 1000) ∧
      (∀ (outbox : Outbox) (message : OutboundMessage), outbox.closed = false →
        (outbox.enqueue message).closed = false →
          acceptedMessages (outbox.enqueue message).trace = acceptedMessages outbox.trace ++ [message] ∨
            outbox.enqueue message = outbox.emit (.dropped message outbox.outbound.length)) ∧
      session.writeInProgress = session.currentWrite.isSome ∧
      (session.closed = false →
        session.writesPending = session.currentWrite.toList.map (fun message => .write message.wireData)) := by
  intro session
  have accounted : Accounted session.toOutbox := accounted_after config limiter clock sniConfigured events
  have defined : .undefinedBehaviour ∉ session.trace := by
    intro member
    cases accounted.lawful _ member
  refine ⟨accounted.bound, ?_, ?_, defined, accounted.conserved, accounted.handed, ?_, ?_,
    accounted.current, underway_after config limiter clock sniConfigured events⟩
  · have single := accounted.single
    split at single <;> omega
  · intro busy
    rw [← accounted.current]
    exact busy
  · intro message queued member
    have lawful := accounted.lawful _ member
    simp only [Effect.isLawful, Bool.and_eq_true, decide_eq_true_eq] at lawful
    exact lawful
  · intro outbox message isOpen stillOpen
    rcases enqueue_of_open isOpen stillOpen with accepted | dropped
    · left
      rw [accepted, scheduleWrite_accepted, Outbox.emit, acceptedMessages_concat]
      rfl
    · exact Or.inr dropped

end TwitchBot
