import TwitchBot.ReadyOnce
import TwitchBot.SessionProtocolRuns
import TwitchBot.SingleWriter

namespace TwitchBot

open Outbox SessionProtocol

/-- What the protocol object can ask of a session: to report that it is ready,
or to enqueue a line outside chat. -/
inductive Output
  | ready
  | line (kind : OutboundKind) (data : Bytes)
  deriving DecidableEq

def Effect.output : Effect → Option Output
  | .ready => some .ready
  | .accepted message => if message.kind = .chat then none else some (.line message.kind message.wireData)
  | _ => none

/-- The requests that a session has followed, in order. -/
def outputs (trace : List Effect) : List Output := trace.filterMap Effect.output

theorem outputs_concat (trace : List Effect) (effect : Effect) :
    outputs (trace ++ [effect]) = outputs trace ++ effect.output.toList := filterMap_concat _ _ _

def ProtocolAction.output (action : ProtocolAction) : Option Output :=
  match action.kind with
  | .send => if action.outboundKind = .chat then none else some (.line action.outboundKind action.data)
  | .ready => some .ready
  | _ => none

/-- What actions request. -/
def requested (actions : List ProtocolAction) : List Output := actions.filterMap ProtocolAction.output

theorem requested_cons (action : ProtocolAction) (actions : List ProtocolAction) :
    requested (action :: actions) = action.output.toList ++ requested actions := by
  cases output : action.output <;> simp [requested, output]

def Operation.isRead : Operation → Bool
  | .read => true
  | _ => false

/-- What follows no request, reopens nothing and starts no read. -/
structure Silences (start next : Outbox) : Prop where
  closed : start.closed = true → next.closed = true
  outputs : outputs next.trace = outputs start.trace
  reads : next.io.count Operation.isRead ≤ start.io.count Operation.isRead

namespace Silences

variable {start middle next : Outbox}

theorem refl (outbox : Outbox) : Silences outbox outbox := ⟨id, rfl, le_rfl⟩

theorem trans (left : Silences start middle) (right : Silences middle next) : Silences start next :=
  ⟨right.closed ∘ left.closed, right.outputs.trans left.outputs, right.reads.trans left.reads⟩

theorem of_eq (trace : next.trace = start.trace) (closed : next.closed = start.closed)
    (reads : next.io.count Operation.isRead ≤ start.io.count Operation.isRead) : Silences start next :=
  ⟨closed.trans, congrArg TwitchBot.outputs trace, reads⟩

end Silences

namespace Outbox

theorem emit_silences (outbox : Outbox) {effect : Effect} (silent : effect.output = none) :
    Silences outbox (outbox.emit effect) := by
  refine ⟨id, ?_, le_rfl⟩
  rw [emit, outputs_concat, silent, Option.toList_none, List.append_nil]

theorem cancel_silences (outbox : Outbox) (selected : Operation → Bool) :
    Silences outbox (outbox.cancel selected) := .of_eq rfl rfl (IoContext.count_cancel _ _ _ _).le

theorem launch_silences (outbox : Outbox) {operation : Operation} (other : operation.isRead = false) :
    Silences outbox (outbox.launch operation) := by
  have started : Silences outbox { outbox with io := outbox.io.start operation } := by
    refine .of_eq rfl rfl ?_
    rw [IoContext.count_start, other]
    exact le_rfl
  exact started.trans (emit_silences _ rfl)

theorem finish_silences (outbox : Outbox) (reason : SessionEndReason) (message : Bytes) :
    Silences outbox (outbox.finish reason message) := by
  unfold finish
  split
  · exact .refl outbox
  · have closed : Silences outbox { outbox with closed := true } := ⟨fun _ => rfl, rfl, le_rfl⟩
    exact (closed.trans (cancel_silences _ _)).trans (emit_silences _ rfl)

theorem scheduleWrite_silences (outbox : Outbox) : Silences outbox outbox.scheduleWrite := by
  rcases scheduleWrite_cases outbox with ⟨same, _⟩ | ⟨_, _, selected, limiter, _, _, ⟨_, armed⟩ | ⟨_, started⟩⟩
  · rw [same]
    exact .refl outbox
  · have ticked : Silences outbox { outbox.tick with limiter := limiter } := .of_eq rfl rfl le_rfl
    rw [armed]
    exact (ticked.trans (cancel_silences _ _)).trans (launch_silences _ rfl)
  · have moved : Silences outbox { outbox.tick with
        limiter := limiter
        currentWrite := some selected.message
        outbound := outbox.outbound.eraseIdx selected.index
        writeInProgress := true } := .of_eq rfl rfl le_rfl
    rw [started]
    exact (moved.trans (emit_silences _ rfl)).trans (launch_silences _ rfl)

theorem onWriteTimer_silences (outbox : Outbox) (outcome : Outcome) :
    Silences outbox (outbox.onWriteTimer outcome) := by
  cases outcome with
  | failure what => exact .refl outbox
  | success data => exact scheduleWrite_silences outbox

theorem onWritten_silences (outbox : Outbox) : Silences outbox outbox.onWritten := by
  cases current : outbox.currentWrite with
  | none =>
    rw [onWritten, current]
    exact emit_silences outbox rfl
  | some message =>
    have recorded : Silences outbox (outbox.recorded message) :=
      ⟨id, (outputs_concat outbox.trace (.wrote message outbox.now)).trans (List.append_nil _), le_rfl⟩
    rw [onWritten_of_current current]
    exact recorded.trans (scheduleWrite_silences _)

theorem onWrite_silences (outbox : Outbox) (outcome : Outcome) : Silences outbox (outbox.onWrite outcome) := by
  cases outcome with
  | failure what => exact finish_silences outbox _ _
  | success data => exact onWritten_silences outbox

end Outbox

/-- What is requested is followed until the queue is closed. A closed queue still
reports that the session is ready. -/
structure Follows (expected : List Output) (start next : Outbox) : Prop where
  closed : start.closed = true →
    next.closed = true ∧ ∃ late, outputs next.trace = outputs start.trace ++ List.replicate late .ready
  followed : ∃ taken late, outputs next.trace = outputs start.trace ++ taken ++ List.replicate late .ready ∧
    taken <+: expected ∧ (next.closed = false → taken = expected ∧ late = 0)

namespace Follows

variable {expected rest : List Output} {start middle next : Outbox}

theorem of_eq (closed : start.closed = true → next.closed = true)
    (same : outputs next.trace = outputs start.trace) : Follows [] start next := by
  refine ⟨fun isClosed => ⟨closed isClosed, 0, ?_⟩, [], 0, ?_, List.prefix_refl _, fun _ => ⟨rfl, rfl⟩⟩
  · rw [same]
    exact (List.append_nil _).symm
  · rw [same, List.append_nil]
    exact (List.append_nil _).symm

theorem of_silences (silent : Silences start next) : Follows [] start next := of_eq silent.closed silent.outputs

/-- What is requested of a closed queue does not matter. -/
theorem of_closed (silent : Silences start next) (closed : start.closed = true) : Follows expected start next := by
  refine ⟨(of_silences silent).closed, [], 0, ?_, List.nil_prefix, fun isOpen => ?_⟩
  · rw [silent.outputs, List.append_nil]
    exact (List.append_nil _).symm
  · rw [silent.closed closed] at isOpen
    cases isOpen

/-- Further requests to a session that closed. -/
theorem widen (follows : Follows expected start next) (closed : next.closed = true) :
    Follows (expected ++ rest) start next := by
  obtain ⟨taken, late, same, inside, _⟩ := follows.followed
  refine ⟨follows.closed, taken, late, same, inside.trans (List.prefix_append _ _), fun isOpen => ?_⟩
  rw [closed] at isOpen
  cases isOpen

theorem trans (left : Follows expected start middle) (right : Follows rest middle next) :
    Follows (expected ++ rest) start next := by
  obtain ⟨taken, late, same, inside, whole⟩ := left.followed
  refine ⟨fun closed => ?_, ?_⟩
  · obtain ⟨isClosed, late, same⟩ := left.closed closed
    obtain ⟨stays, later, same'⟩ := right.closed isClosed
    refine ⟨stays, late + later, ?_⟩
    rw [same', same, List.append_assoc, List.replicate_append_replicate]
  · cases isOpen : middle.closed with
    | true =>
      obtain ⟨stays, later, same'⟩ := right.closed isOpen
      refine ⟨taken, late + later, ?_, inside.trans (List.prefix_append _ _), fun stillOpen => ?_⟩
      · rw [same', same, List.append_assoc, List.replicate_append_replicate]
      · rw [stays] at stillOpen
        cases stillOpen
    | false =>
      obtain ⟨rfl, rfl⟩ := whole isOpen
      obtain ⟨more, later, same', inside', whole'⟩ := right.followed
      refine ⟨taken ++ more, later, ?_, (List.prefix_append_right_inj _).mpr inside', fun stillOpen => ?_⟩
      · rw [same', same, List.replicate_zero, List.append_nil, List.append_assoc (outputs start.trace)]
      · rw [(whole' stillOpen).1, (whole' stillOpen).2]
        exact ⟨rfl, rfl⟩

/-- Nothing more is requested. -/
theorem tail (left : Follows expected start middle) (right : Follows [] middle next) : Follows expected start next := by
  have follows := left.trans right
  rwa [List.append_nil] at follows

end Follows

/-- The request behind a message: none for chat. -/
def OutboundMessage.output (message : OutboundMessage) : List Output :=
  (Effect.accepted message).output.toList

/-- A message outside chat is accepted, or the session ends. -/
theorem Outbox.enqueue_follows (outbox : Outbox) (message : OutboundMessage) :
    Follows message.output outbox (outbox.enqueue message) := by
  rcases enqueue_cases outbox message with ⟨closed, same⟩ | ⟨_, _, chat, dropped⟩ | ⟨_, _, _, ended⟩ |
    ⟨isOpen, _, accepted⟩
  · rw [same]
    exact .of_closed (.refl outbox) closed
  · have none : message.output = [] := by simp [OutboundMessage.output, Effect.output, chat]
    rw [dropped, none]
    exact .of_silences (emit_silences outbox rfl)
  · rw [ended]
    exact (Follows.of_silences (finish_silences outbox _ _)).widen (finish_closed outbox _ _)
  · have pushed : Follows message.output outbox
        ({ outbox with outbound := outbox.outbound ++ [message] }.emit (.accepted message)) := by
      refine ⟨fun closed => ?_, message.output, 0, ?_, List.prefix_refl _, fun _ => ⟨rfl, rfl⟩⟩
      · rw [isOpen] at closed
        cases closed
      · rw [emit, outputs_concat, List.replicate_zero, List.append_nil]
        rfl
    rw [accepted]
    exact pushed.tail (.of_silences (scheduleWrite_silences _))

namespace Session

/-- One session behind another in a run: its protocol object has had these calls,
and what they returned was followed. -/
structure Relays (calls : List ProtocolCall) (session next : Session) : Prop where
  protocol : next.protocol = session.protocol.after calls
  follows : Follows (requested (session.protocol.actions calls)) session.toOutbox next.toOutbox

theorem Relays.of_silences {session next : Session} (protocol : next.protocol = session.protocol)
    (silent : Silences session.toOutbox next.toOutbox) : Relays [] session next :=
  ⟨protocol, .of_silences silent⟩

theorem Relays.trans {earlier later : List ProtocolCall} {first second third : Session}
    (left : Relays earlier first second) (right : Relays later second third) :
    Relays (earlier ++ later) first third := by
  refine ⟨by rw [right.protocol, left.protocol, after_concat], ?_⟩
  rw [actions_concat, requested, List.filterMap_append, ← left.protocol]
  exact left.follows.trans right.follows

theorem Relays.tail {calls : List ProtocolCall} {first second third : Session} (left : Relays calls first second)
    (protocol : third.protocol = second.protocol) (right : Follows [] second.toOutbox third.toOutbox) :
    Relays calls first third := ⟨protocol.trans left.protocol, left.follows.tail right⟩

theorem applyAction_follows (session : Session) (action : ProtocolAction) :
    Follows action.output.toList session.toOutbox (session.applyAction action).toOutbox := by
  unfold applyAction
  split
  · rename_i isSend
    have same : action.output.toList = OutboundMessage.output
        ⟨action.data, action.outboundKind, action.channel, session.now, session.nextSequence⟩ := by
      simp [ProtocolAction.output, isSend, OutboundMessage.output, Effect.output]
    have ticked : Silences session.toOutbox session.toOutbox.tick := .of_eq rfl rfl le_rfl
    rw [same]
    exact (Follows.of_silences ticked).trans (enqueue_follows _ _)
  · rename_i isReady
    have output : action.output = some .ready := by simp [ProtocolAction.output, isReady]
    have cancelled := Follows.of_silences (cancel_silences session.toOutbox Operation.isAuthWait)
    have emitted (outbox : Outbox) : Follows [.ready] outbox (outbox.emit .ready) := by
      refine ⟨fun closed => ⟨closed, 1, outputs_concat _ _⟩, ?_⟩
      cases isOpen : outbox.closed with
      | true =>
        refine ⟨[], 1, ?_, List.nil_prefix, fun stillOpen => absurd (isOpen.symm.trans stillOpen) (by decide)⟩
        rw [List.append_nil]
        exact outputs_concat _ _
      | false =>
        refine ⟨[.ready], 0, ?_, List.prefix_refl _, fun _ => ⟨rfl, rfl⟩⟩
        rw [List.replicate_zero, List.append_nil]
        exact outputs_concat _ _
    rw [output]
    exact cancelled.trans (emitted _)
  · rename_i isReconnect
    have output : action.output = none := by simp [ProtocolAction.output, isReconnect]
    rw [output]
    exact .of_silences (finish_silences _ _ _)
  · rename_i isFatal
    have output : action.output = none := by simp [ProtocolAction.output, isFatal]
    rw [output]
    exact .of_silences (finish_silences _ _ _)

theorem applyActions_follows (session : Session) (actions : List ProtocolAction) :
    Follows (requested actions) session.toOutbox (actions.foldl applyAction session).toOutbox := by
  induction actions generalizing session with
  | nil => exact .of_silences (.refl _)
  | cons action actions ih =>
    rw [requested_cons]
    exact (applyAction_follows session action).trans (ih _)

theorem applyUntilClosed_follows (session : Session) (actions : List ProtocolAction) :
    Follows (requested actions) session.toOutbox (session.applyUntilClosed actions).2.toOutbox := by
  induction actions generalizing session with
  | nil => exact .of_silences (.refl _)
  | cons action actions ih =>
    rw [requested_cons]
    simp only [applyUntilClosed]
    split
    · rename_i closed
      exact (applyAction_follows session action).widen closed
    · exact (applyAction_follows session action).trans (ih _)

theorem enqueueChats_follows (session : Session) (chats : List ScheduledChatMessage) :
    Follows [] session.toOutbox (chats.foldl enqueueChat session).toOutbox := by
  induction chats generalizing session with
  | nil => exact .of_silences (.refl _)
  | cons chat chats ih =>
    have first : Follows [] session.toOutbox (session.enqueueChat chat).toOutbox := by
      unfold enqueueChat
      split
      · exact .of_silences (.refl _)
      · exact enqueue_follows session.toOutbox ⟨_, .chat, chat.channel, chat.due, session.nextSequence⟩
    exact first.trans (ih _)

theorem respond_follows (session : Session) (message : IrcMessage) :
    Follows [] session.toOutbox (session.respond message).2.toOutbox := by
  have ticked : Follows [] session.toOutbox session.toOutbox.tick := .of_silences (.of_eq rfl rfl le_rfl)
  unfold respond
  split
  · exact .of_silences (.refl _)
  · dsimp only
    split
    · exact ticked
    · rename_i chats _
      exact ticked.trans (enqueueChats_follows { session.onOutbox (·.tick) with
        automation := (session.automation.handle message session.now).2 } chats)

theorem handleMessage_relays (session : Session) (message : IrcMessage) :
    Relays [.handle message] session (session.handleMessage message).2 := by
  refine ⟨handleMessage_protocol session message, ?_⟩
  rw [actions_single, SessionProtocol.call]
  unfold handleMessage
  dsimp only
  split
  · rename_i what answered
    rw [answered]
    exact .of_silences (.refl _)
  · rename_i actions answered
    have applied := applyUntilClosed_follows { session with protocol := (session.protocol.handle message).2 } actions
    rw [answered]
    split
    · rename_i result
      rw [result] at applied
      exact applied
    · rename_i result
      rw [result] at applied
      exact applied.tail (respond_follows _ message)

theorem handleLine_relays (session : Session) (line : Bytes) :
    ∃ calls, Relays calls session (session.handleLine line).2 := by
  unfold handleLine
  split
  · exact ⟨[], .of_silences rfl (.refl _)⟩
  · rename_i message _
    exact ⟨[.handle message], handleMessage_relays session message⟩

theorem handleLines_relays (session : Session) (lines : List Bytes) :
    ∃ calls, Relays calls session (session.handleLines lines).2 := by
  induction lines generalizing session with
  | nil => exact ⟨[], .of_silences rfl (.refl _)⟩
  | cons line lines ih =>
    have first := handleLine_relays session line
    unfold handleLines
    split
    · rename_i result
      rw [result] at first
      exact first
    · rename_i next result
      rw [result] at first
      split
      · exact first
      · obtain ⟨earlier, left⟩ := first
        obtain ⟨later, right⟩ := ih next
        exact ⟨earlier ++ later, left.trans right⟩

theorem receive_relays (session : Session) (data : Bytes) :
    ∃ calls, Relays calls session (session.receive data).2 := by
  have pushed : Relays [] session { session with assembler := (session.assembler.push data).2 } :=
    .of_silences rfl (.refl _)
  unfold receive
  dsimp only
  split
  · exact ⟨[], pushed⟩
  · rename_i lines _
    obtain ⟨calls, handled⟩ := handleLines_relays { session with assembler := (session.assembler.push data).2 } lines
    exact ⟨calls, pushed.trans handled⟩

theorem read_follows (session : Session) : Follows [] session.toOutbox session.read.toOutbox := by
  unfold read
  split
  · exact .of_silences (.refl _)
  · exact .of_eq id ((outputs_concat session.trace (.started .read)).trans (List.append_nil _))

theorem onRead_relays (session : Session) (outcome : Outcome) :
    ∃ calls, Relays calls session (session.onRead outcome) := by
  unfold onRead
  split
  · exact ⟨[], .of_silences rfl (finish_silences _ _ _)⟩
  · rename_i data
    obtain ⟨calls, received⟩ := receive_relays session data
    refine ⟨calls, ?_⟩
    split
    · rename_i result
      rw [result] at received
      exact received.tail rfl (.of_silences (finish_silences _ _ _))
    · rename_i result
      rw [result] at received
      exact received
    · rename_i result
      rw [result] at received
      exact received.tail (read_protocol _) (read_follows _)

theorem login_relays (session : Session) : Relays [.begin] session session.login := by
  unfold login
  dsimp only
  split
  · rename_i what answered
    refine ⟨rfl, ?_⟩
    rw [actions_single, SessionProtocol.call, answered]
    exact .of_silences (emit_silences _ rfl)
  · rename_i actions answered
    have applied := applyActions_follows { session with protocol := session.protocol.begin.2 } actions
    have timed (next : Session) : Silences next.toOutbox next.startAuthTimeout.toOutbox := by
      have ticked : Silences next.toOutbox next.toOutbox.tick := .of_eq rfl rfl le_rfl
      exact (ticked.trans (cancel_silences _ _)).trans (launch_silences _ rfl)
    refine ⟨?_, ?_⟩
    · rw [read_protocol]
      exact applyActions_protocol _ _
    · rw [actions_single, SessionProtocol.call, answered]
      exact (applied.tail (.of_silences (timed _))).tail (read_follows _)

theorem handshake_silences (session : Session) : Silences session.toOutbox session.handshake.toOutbox := by
  unfold handshake
  split
  · exact launch_silences _ rfl
  · exact finish_silences _ _ _

theorem onAuthTimer_silences (session : Session) (outcome : Outcome) :
    Silences session.toOutbox (session.onAuthTimer outcome).toOutbox := by
  unfold onAuthTimer
  split
  · exact .refl _
  · split
    · exact .refl _
    · exact finish_silences _ _ _

/-- A handler calls the protocol object only at the login and for what was read. -/
theorem deliver_relays (session : Session) (index : Nat) :
    ∃ calls, Relays calls session (session.deliver index) ∧
      ((calls = [] ∧ (session.deliver index).io.count Operation.isRead ≤ session.io.count Operation.isRead) ∨
        calls.head? = some .begin ∨ session.io.count Operation.isRead ≠ 0) := by
  unfold deliver
  split
  · exact ⟨[], .of_silences rfl (.refl _), Or.inl ⟨rfl, le_rfl⟩⟩
  · rename_i operation outcome io taken
    have count := IoContext.count_take taken Operation.isRead
    have passed : Silences session.toOutbox { session with io := io }.toOutbox :=
      .of_eq rfl rfl (by rw [count]; exact Nat.le_add_right _ _)
    have silently {next : Session} (protocol : next.protocol = session.protocol)
        (silent : Silences { session with io := io }.toOutbox next.toOutbox) :
        ∃ calls, Relays calls session next ∧
          ((calls = [] ∧ next.io.count Operation.isRead ≤ session.io.count Operation.isRead) ∨
            calls.head? = some .begin ∨ session.io.count Operation.isRead ≠ 0) :=
      ⟨[], .of_silences protocol (passed.trans silent), Or.inl ⟨rfl, (passed.trans silent).reads⟩⟩
    have before : Relays [] session { session with io := io } := .of_silences rfl passed
    cases operation with
    | resolve =>
      cases outcome with
      | failure what => exact silently rfl (finish_silences _ _ _)
      | success data => exact silently rfl (launch_silences _ rfl)
    | connect =>
      cases outcome with
      | failure what => exact silently rfl (finish_silences _ _ _)
      | success data => exact silently (handshake_protocol _) (handshake_silences _)
    | handshake =>
      cases outcome with
      | failure what => exact silently rfl (finish_silences _ _ _)
      | success data => exact ⟨[.begin], before.trans (login_relays _), Or.inr (Or.inl rfl)⟩
    | authWait deadline => exact silently (onAuthTimer_protocol _ _) (onAuthTimer_silences _ _)
    | read =>
      obtain ⟨calls, handled⟩ := onRead_relays { session with io := io } outcome
      refine ⟨calls, before.trans handled, Or.inr (Or.inr ?_)⟩
      rw [count]
      exact Nat.succ_ne_zero _
    | writeWait deadline => exact silently rfl (onWriteTimer_silences _ _)
    | write data => exact silently rfl (onWrite_silences _ _)

/-- Events reach the protocol object only through calls of `begin` and `handle`. -/
theorem step_leads (session : Session) (event : SessionEvent) :
    ∃ calls, (session.step event).protocol = session.protocol.after calls := by
  cases event with
  | complete index outcome =>
    rcases complete_cases session index outcome with same | ⟨_, _, _, completed⟩
    · exact ⟨[], by rw [step, same]; rfl⟩
    · exact ⟨[], by rw [step, completed]; rfl⟩
  | deliver index =>
    obtain ⟨calls, relays, _⟩ := deliver_relays session index
    exact ⟨calls, relays.protocol⟩
  | enqueue message => exact ⟨[], rfl⟩
  | stop => exact ⟨[], rfl⟩

theorem after_leads (session : Session) (events : List SessionEvent) :
    ∃ calls, (session.after events).protocol = session.protocol.after calls := by
  induction events generalizing session with
  | nil => exact ⟨[], rfl⟩
  | cons event events ih =>
    obtain ⟨earlier, first⟩ := step_leads session event
    obtain ⟨later, rest⟩ := ih (session.step event)
    refine ⟨earlier ++ later, ?_⟩
    rw [after_concat, ← first]
    exact rest

/-- What the protocol object was asked to do so far was done, and `begin` was the first call. -/
def Introduced (fresh session : Session) : Prop :=
  ∃ calls, Relays calls fresh session ∧
    ((calls = [] ∧ session.io.count Operation.isRead = 0) ∨ calls.head? = some .begin)

theorem Introduced.step {fresh session : Session} (introduced : Introduced fresh session) {event : SessionEvent}
    (own : ∀ message, event ≠ .enqueue message) : Introduced fresh (session.step event) := by
  obtain ⟨earlier, relays, first⟩ := introduced
  have silently {next : Session} (protocol : next.protocol = session.protocol)
      (silent : Silences session.toOutbox next.toOutbox) : Introduced fresh next := by
    refine ⟨earlier, relays.tail protocol (.of_silences silent), ?_⟩
    rcases first with ⟨none, noRead⟩ | begun
    · exact Or.inl ⟨none, Nat.le_zero.mp (silent.reads.trans_eq noRead)⟩
    · exact Or.inr begun
  cases event with
  | complete index outcome =>
    rcases complete_cases session index outcome with same | ⟨_, _, _, completed⟩
    · rw [Session.step, same]
      exact silently rfl (.refl _)
    · rw [Session.step, completed]
      exact silently rfl (.of_eq rfl rfl (IoContext.count_complete _ _ _ _).le)
  | deliver index =>
    obtain ⟨later, relays', called⟩ := deliver_relays session index
    refine ⟨earlier ++ later, relays.trans relays', ?_⟩
    rcases first with ⟨rfl, noRead⟩ | begun
    · rcases called with ⟨rfl, reads⟩ | begun | reading
      · exact Or.inl ⟨rfl, Nat.le_zero.mp (reads.trans_eq noRead)⟩
      · exact Or.inr begun
      · exact absurd noRead reading
    · right
      rw [List.head?_append, begun]
      rfl
  | enqueue message => exact absurd rfl (own message)
  | stop => exact silently rfl (finish_silences _ _ _)

/-- Every run of a session introduces itself before anything else. -/
theorem introduced_after (config : RuntimeConfig) (limiter : RateLimiter) (clock : Nat → Time)
    (sniConfigured : Bool) (events : List SessionEvent) (own : ∀ message, .enqueue message ∉ events) :
    Introduced (.new config limiter clock sniConfigured)
      ((Session.new config limiter clock sniConfigured).start.after events) := by
  refine after_keeps (Introduced _) own (fun session event other introduced => introduced.step other) ?_
  exact ⟨[], .of_silences rfl (launch_silences _ rfl), Or.inl ⟨rfl, rfl⟩⟩

end Session

end TwitchBot
