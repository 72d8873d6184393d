import TwitchBot.ClosedSession
import TwitchBot.SessionEnds
import TwitchBot.SpokenConfig

namespace TwitchBot

open Outbox SessionProtocol

/-- A timeout that was armed with 20 seconds at some reading of the clock is
waiting, or its handler is queued. -/
def AuthPending (clock : Nat → Time) (outbox : Outbox) : Prop :=
  ∃ reading, outbox.io.Alive Outcome.IsSuccess (.authWait (clock reading + seconds 20))

/-- What happened between two outboxes has closed the session or spared its
authentication timeout. -/
structure Spares (start next : Outbox) : Prop where
  closed : start.closed = true → next.closed = true
  alive : next.closed = false → ∀ deadline, start.io.Alive Outcome.IsSuccess (.authWait deadline) →
    next.io.Alive Outcome.IsSuccess (.authWait deadline)

namespace Spares

variable {start middle next : Outbox} {clock : Nat → Time}

theorem refl (outbox : Outbox) : Spares outbox outbox := ⟨id, fun _ _ => id⟩

theorem trans (left : Spares start middle) (right : Spares middle next) : Spares start next := by
  refine ⟨right.closed ∘ left.closed, fun isOpen deadline alive => ?_⟩
  have wasOpen : middle.closed = false := by
    by_contra closed
    rw [right.closed (by simpa using closed)] at isOpen
    cases isOpen
  exact right.alive isOpen deadline (left.alive wasOpen deadline alive)

/-- Nothing but the flag and the operations count. -/
theorem of_eq (closed : next.closed = start.closed) (io : next.io = start.io) : Spares start next :=
  ⟨fun wasClosed => closed.trans wasClosed, fun _ deadline alive => by rwa [io]⟩

theorem of_closed (closed : next.closed = true) : Spares start next :=
  ⟨fun _ => closed, fun isOpen => by rw [closed] at isOpen; cases isOpen⟩

theorem pending (spares : Spares start next) (isOpen : next.closed = false) (pending : AuthPending clock start) :
    AuthPending clock next := by
  obtain ⟨reading, alive⟩ := pending
  exact ⟨reading, spares.alive isOpen _ alive⟩

end Spares

namespace Outbox

theorem launch_spares (outbox : Outbox) (operation : Operation) : Spares outbox (outbox.launch operation) :=
  ⟨id, fun _ _ alive => IoContext.alive_start.mpr (Or.inl alive)⟩

theorem finish_spares (outbox : Outbox) (reason : SessionEndReason) (message : Bytes) :
    Spares outbox (outbox.finish reason message) := .of_closed (finish_closed outbox reason message)

theorem cancelWriteWait_spares (outbox : Outbox) : Spares outbox (outbox.cancel Operation.isWriteWait) :=
  ⟨id, fun _ _ alive => IoContext.alive_cancel_of_not_selected rfl alive⟩

theorem scheduleWrite_spares (outbox : Outbox) : Spares outbox outbox.scheduleWrite := by
  rcases scheduleWrite_cases outbox with ⟨same, _⟩ | ⟨_, _, selected, limiter, _, _, ⟨_, armed⟩ | ⟨_, started⟩⟩
  · rw [same]
    exact .refl outbox
  · rw [armed]
    refine Spares.trans (.of_eq rfl rfl : Spares outbox { outbox.tick with limiter := limiter }) ?_
    exact (cancelWriteWait_spares _).trans (launch_spares _ _)
  · rw [started]
    refine Spares.trans (.of_eq rfl rfl : Spares outbox ({ outbox.tick with
      limiter := limiter
      currentWrite := some selected.message
      outbound := outbox.outbound.eraseIdx selected.index
      writeInProgress := true }.emit (.writing selected.message outbox.now limiter))) ?_
    exact launch_spares _ _

theorem enqueue_spares (outbox : Outbox) (message : OutboundMessage) : Spares outbox (outbox.enqueue message) := by
  rcases enqueue_cases outbox message with ⟨_, same⟩ | ⟨_, _, _, dropped⟩ | ⟨_, _, _, ended⟩ | ⟨_, _, accepted⟩
  · rw [same]
    exact .refl outbox
  · rw [dropped]
    exact .of_eq rfl rfl
  · rw [ended]
    exact finish_spares outbox _ _
  · rw [accepted]
    refine Spares.trans ?_ (scheduleWrite_spares _)
    exact .of_eq rfl rfl

theorem onWritten_spares (outbox : Outbox) : Spares outbox outbox.onWritten := by
  unfold onWritten
  split
  · exact .of_eq rfl rfl
  · refine Spares.trans ?_ (scheduleWrite_spares _)
    exact .of_eq rfl rfl

theorem onWrite_spares (outbox : Outbox) (outcome : Outcome) : Spares outbox (outbox.onWrite outcome) := by
  cases outcome with
  | failure what => exact finish_spares outbox _ _
  | success data => exact onWritten_spares outbox

theorem onWriteTimer_spares (outbox : Outbox) (outcome : Outcome) : Spares outbox (outbox.onWriteTimer outcome) := by
  cases outcome with
  | failure what => exact .refl outbox
  | success data => exact scheduleWrite_spares outbox

end Outbox

namespace Session

/-- Every action but the ready action spares the timeout. -/
theorem applyAction_spares (session : Session) {action : ProtocolAction} (other : action.kind ≠ .ready) :
    Spares session.toOutbox (session.applyAction action).toOutbox := by
  unfold applyAction
  split
  · have ticked : Spares session.toOutbox session.toOutbox.tick := .of_eq rfl rfl
    exact ticked.trans (enqueue_spares session.toOutbox.tick _)
  · rename_i isReady
    exact absurd isReady other
  · exact finish_spares session.toOutbox _ _
  · exact finish_spares session.toOutbox _ _

theorem applyUntilClosed_spares (session : Session) {actions : List ProtocolAction}
    (others : ∀ action ∈ actions, action.kind ≠ .ready) :
    Spares session.toOutbox (session.applyUntilClosed actions).2.toOutbox := by
  induction actions generalizing session with
  | nil => exact .refl _
  | cons action actions ih =>
    obtain ⟨first, rest⟩ := List.forall_mem_cons.mp others
    simp only [applyUntilClosed]
    split
    · exact applyAction_spares session first
    · exact (applyAction_spares session first).trans (ih _ rest)

theorem enqueueChats_spares (session : Session) (chats : List ScheduledChatMessage) :
    Spares session.toOutbox (chats.foldl enqueueChat session).toOutbox := by
  induction chats generalizing session with
  | nil => exact .refl _
  | cons chat chats ih =>
    refine Spares.trans ?_ (ih _)
    unfold enqueueChat
    split
    · exact .refl _
    · exact enqueue_spares session.toOutbox _

theorem respond_spares (session : Session) (message : IrcMessage) :
    Spares session.toOutbox (session.respond message).2.toOutbox := by
  unfold respond
  split
  · exact .refl _
  · dsimp only
    split
    · exact .of_eq rfl rfl
    · refine Spares.trans ?_ (enqueueChats_spares _ _)
      exact .of_eq rfl rfl

theorem read_spares (session : Session) : Spares session.toOutbox session.read.toOutbox := by
  unfold read
  split
  · exact .refl _
  · exact launch_spares session.toOutbox _

theorem handshake_spares (session : Session) : Spares session.toOutbox session.handshake.toOutbox := by
  unfold handshake
  split
  · exact launch_spares session.toOutbox _
  · exact finish_spares session.toOutbox _ _

/-- The login arms the timeout. -/
theorem login_pending {session : Session} {clock : Nat → Time} {actions : List ProtocolAction}
    (elapsed : Elapsed clock session.clock) (answered : session.protocol.begin.1 = .ok actions) :
    AuthPending clock session.login.toOutbox := by
  have moved := (applyActions_acts { session with protocol := session.protocol.begin.2 } actions).moves.elapsed
  obtain ⟨reading, same⟩ := elapsed.trans moved
  have armed : (actions.foldl applyAction
      { session with protocol := session.protocol.begin.2 }).startAuthTimeout.io.Alive Outcome.IsSuccess
        (.authWait (clock reading + seconds 20)) := by
    refine IoContext.alive_start.mpr (Or.inr ?_)
    rw [← Nat.zero_add reading, ← same 0]
    rfl
  refine ⟨reading, ?_⟩
  simp only [login, answered]
  unfold read
  split
  · exact armed
  · exact IoContext.alive_start.mpr (Or.inl armed)

/-- A session is ended, ready, or under its authentication timeout. -/
def Attended (clock : Nat → Time) (session : Session) : Prop :=
  session.closed = false → session.protocol.ready = true ∨ AuthPending clock session.toOutbox

/-- The message takes a required capability from a session that is ready and
whose authentication timeout is gone. -/
def Strands (clock : Nat → Time) (session : Session) (message : IrcMessage) : Prop :=
  session.closed = false ∧ session.protocol.ready = true ∧ ¬AuthPending clock session.toOutbox ∧
    hasCapStatus message "ACK" ∧
    ¬AllRequired ((acknowledgedTokens message).foldl acknowledge session.protocol.acknowledgedCapabilities)

/-- The messages of lines that a session hands to its protocol object, each
with the session that does. -/
def handling (session : Session) : List Bytes → List (Session × IrcMessage)
  | [] => []
  | line :: lines =>
    (match parseIrcMessage line with
      | .error _ => []
      | .ok message => [(session, message)]) ++
    match session.handleLine line with
    | (.error _, _) => []
    | (.ok (), next) => if next.closed then [] else next.handling lines

/-- The same for an event, which hands messages on if it runs a read handler. -/
def handledBy (session : Session) : SessionEvent → List (Session × IrcMessage)
  | .deliver index =>
    match session.io.take index with
    | some ((.read, .success data), io) =>
      let (pushed, assembler) := session.assembler.push data
      match pushed with
      | .error _ => []
      | .ok lines => { session with io := io, assembler := assembler }.handling lines
    | _ => []
  | _ => []

theorem handleMessage_spares {session : Session} {message : IrcMessage}
    (others : ∀ returned, (session.protocol.handle message).1 = .ok returned →
      ∀ action ∈ returned, action.kind ≠ .ready) :
    Spares session.toOutbox (session.handleMessage message).2.toOutbox := by
  unfold handleMessage
  dsimp only
  split
  · exact .of_eq rfl rfl
  · rename_i actions answered
    have applied := applyUntilClosed_spares { session with protocol := (session.protocol.handle message).2 }
      (others actions answered)
    split
    · rename_i result
      rw [result] at applied
      exact applied
    · rename_i result
      rw [result] at applied
      exact applied.trans (respond_spares _ _)

/-- A reconnect or fatal action ends the session. -/
theorem handleMessage_ends {session : Session} {message : IrcMessage} {action : ProtocolAction}
    (answered : (session.protocol.handle message).1 = .ok [action])
    (terminal : action.kind = .reconnect ∨ action.kind = .fatal) :
    (session.handleMessage message).2.closed = true := by
  have ends (session : Session) : (session.applyAction action).closed = true := by
    unfold applyAction
    rcases terminal with reconnect | fatal
    · rw [reconnect]
      exact finish_closed session.toOutbox _ _
    · rw [fatal]
      exact finish_closed session.toOutbox _ _
  simp only [handleMessage, answered, applyUntilClosed, ends, if_true]

/-- A ready session without its timeout is not acknowledged by a message that
neither strands it nor makes it ready again. -/
theorem no_ack_of_calm {config : RuntimeConfig} {calls : List ProtocolCall} {clock : Nat → Time}
    {session : Session} {message : IrcMessage} (gated : Gated config calls session.protocol)
    (isOpen : session.closed = false) (isReady : session.protocol.ready = true)
    (unpending : ¬AuthPending clock session.toOutbox) (calm : ¬session.Strands clock message)
    (settled : (session.protocol.recorded message).authenticated = true →
      AllRequired (session.protocol.recorded message).acknowledgedCapabilities →
        Settled (session.protocol.recorded message).state) : ¬hasCapStatus message "ACK" := by
  intro ack
  have state : session.protocol.state = .ready := by simpa [SessionProtocol.ready] using isReady
  have complete : AllRequired (session.protocol.recorded message).acknowledgedCapabilities := by
    rw [recorded_acknowledged]
    by_contra incomplete
    exact calm ⟨isOpen, isReady, unpending, ack, incomplete⟩
  have authenticated := (recorded_authenticated session.protocol message).mpr
    (Or.inl (gated.ready_complete state).1)
  have unsettled := settled authenticated complete
  rw [recorded_state, if_pos ack] at unsettled
  exact absurd unsettled (by decide)

/-- A message leaves a session attended unless it strands it. -/
theorem handleMessage_attended {config : RuntimeConfig} {calls : List ProtocolCall} {clock : Nat → Time}
    {session : Session} {message : IrcMessage} (gated : Gated config calls session.protocol)
    (attended : session.Attended clock) (calm : ¬session.Strands clock message) :
    (session.handleMessage message).2.Attended clock := by
  intro isOpen
  have wasOpen : session.closed = false := by
    by_contra closed
    rw [(handleMessage_acts session message).moves.continues.closed_of_closed (by simpa using closed)] at isOpen
    cases isOpen
  have spared (others : ∀ returned, (session.protocol.handle message).1 = .ok returned →
      ∀ action ∈ returned, action.kind ≠ .ready) (pending : AuthPending clock session.toOutbox) :
      AuthPending clock (session.handleMessage message).2.toOutbox :=
    (handleMessage_spares others).pending isOpen pending
  have ended {action : ProtocolAction} (answered : (session.protocol.handle message).1 = .ok [action])
      (terminal : action.kind = .reconnect ∨ action.kind = .fatal) : False := by
    rw [handleMessage_ends answered terminal] at isOpen
    cases isOpen
  rw [handleMessage_protocol]
  rcases handle_cases session.protocol message with ⟨_, same, system⟩ | ⟨_, result⟩ | ⟨_, result⟩ | ⟨_, result⟩ |
    ⟨_, _, _, _, result⟩
  · rw [same]
    refine (attended wasOpen).imp_right (spared fun returned answered action member isReady => ?_)
    have isSend := (system returned answered action member).1
    rw [isReady] at isSend
    cases isSend
  · exact (ended (congrArg Prod.fst result) (Or.inl rfl)).elim
  · exact (ended (congrArg Prod.fst result) (Or.inr rfl)).elim
  · exact (ended (congrArg Prod.fst result) (Or.inr rfl)).elim
  · rcases becomeReadyIfPossible_cases (session.protocol.recorded message) with ⟨quiet, settled⟩ | ⟨loud, _⟩
    · rw [quiet] at result
      have others (returned : List ProtocolAction) (answered : (session.protocol.handle message).1 = .ok returned) :
          ∀ action ∈ returned, action.kind ≠ .ready := by
        rw [result] at answered
        cases answered
        exact fun action member => absurd member List.not_mem_nil
      by_cases pending : AuthPending clock session.toOutbox
      · exact Or.inr (spared others pending)
      · have isReady : session.protocol.ready = true := (attended wasOpen).resolve_right pending
        have kept := no_ack_of_calm gated wasOpen isReady pending calm settled
        refine Or.inl ?_
        rw [result, SessionProtocol.ready, recorded_state, if_neg kept]
        exact isReady
    · rw [result, loud]
      exact Or.inl rfl

variable {config : RuntimeConfig} {clock : Nat → Time} {session : Session}

theorem finish_attended (session : Session) (reason : SessionEndReason) (message : Bytes) :
    (session.finish reason message).Attended clock := by
  intro isOpen
  rw [show (session.finish reason message).closed = true from Outbox.finish_closed _ _ _] at isOpen
  cases isOpen

/-- What spares the timeout and does not touch the protocol object leaves the session attended. -/
theorem Attended.spared (attended : session.Attended clock) {next : Session}
    (spares : Spares session.toOutbox next.toOutbox) (protocol : next.protocol = session.protocol) :
    next.Attended clock := by
  intro isOpen
  have wasOpen : session.closed = false := by
    by_contra closed
    rw [spares.closed (by simpa using closed)] at isOpen
    cases isOpen
  rw [protocol]
  exact (attended wasOpen).imp_right (spares.pending isOpen)

/-- Lines of which no message strands the session leave it attended. -/
theorem handleLines_attended {calls : List ProtocolCall} (gated : Gated config calls session.protocol)
    (attended : session.Attended clock) {lines : List Bytes}
    (calm : ∀ handled ∈ session.handling lines, ¬handled.1.Strands clock handled.2) :
    (session.handleLines lines).2.Attended clock := by
  induction lines generalizing session calls with
  | nil => exact attended
  | cons line lines ih =>
    have first : (∃ calls, Gated config calls (session.handleLine line).2.protocol) ∧
        (session.handleLine line).2.Attended clock := by
      simp only [handling] at calm
      unfold handleLine
      cases parsed : parseIrcMessage line with
      | error what => exact ⟨⟨calls, gated⟩, attended⟩
      | ok message =>
        rw [parsed] at calm
        refine ⟨⟨calls ++ [.handle message], ?_⟩, handleMessage_attended gated attended (calm (session, message) ?_)⟩
        · rw [handleMessage_protocol]
          exact gated.handle message
        · exact List.mem_append_left _ List.mem_cons_self
    obtain ⟨⟨laterCalls, laterGated⟩, laterAttended⟩ := first
    simp only [handling] at calm
    simp only [handleLines]
    generalize session.handleLine line = result at laterGated laterAttended calm ⊢
    obtain ⟨answer, next⟩ := result
    cases answer with
    | error what => exact laterAttended
    | ok _ =>
      dsimp only at calm ⊢
      split
      · exact laterAttended
      · rename_i isOpen
        rw [if_neg isOpen] at calm
        exact ih laterGated laterAttended (fun handled member => calm handled (List.mem_append_right _ member))

/-- A chunk of which no message strands the session leaves it attended. -/
theorem onRead_attended {calls : List ProtocolCall} (gated : Gated config calls session.protocol)
    (attended : session.Attended clock) {data : Bytes}
    (calm : ∀ lines, (session.assembler.push data).1 = .ok lines →
      ∀ handled ∈ ({ session with assembler := (session.assembler.push data).2 } : Session).handling lines,
        ¬handled.1.Strands clock handled.2) : (session.onRead (.success data)).Attended clock := by
  unfold onRead receive
  dsimp only
  cases pushed : (session.assembler.push data).1 with
  | error what => exact finish_attended _ _ _
  | ok lines =>
    have reached : Gated config calls
        ({ session with assembler := (session.assembler.push data).2 } : Session).protocol := gated
    have handled := handleLines_attended reached attended (calm lines pushed)
    dsimp only
    generalize ({ session with assembler := (session.assembler.push data).2 } : Session).handleLines lines = result
      at handled ⊢
    obtain ⟨answer, next⟩ := result
    cases answer with
    | error what => exact finish_attended next _ _
    | ok returned =>
      cases returned with
      | true => exact handled
      | false => exact handled.spared (read_spares next) (read_protocol next)

/-- A handler run leaves the session attended unless one of its messages strands it. -/
theorem deliver_attended {calls : List ProtocolCall} (valid : config.Valid)
    (gated : Gated config calls session.protocol) (elapsed : Elapsed clock session.clock)
    (attended : session.Attended clock) (index : Nat)
    (calm : ∀ handled ∈ session.handledBy (.deliver index), ¬handled.1.Strands clock handled.2) :
    (session.deliver index).Attended clock := by
  unfold deliver
  split
  · exact attended
  · rename_i operation outcome io taken
    have passed (other : ¬outcome.IsSuccess ∨ operation.isAuthWait = false) :
        ({ session with io := io } : Session).Attended clock := by
      have spares : Spares session.toOutbox ({ session with io := io } : Session).toOutbox := by
        refine ⟨id, fun _ deadline alive => IoContext.alive_take taken (other.imp_right ?_) alive⟩
        rintro notAuth rfl
        cases notAuth
      exact attended.spared spares rfl
    cases operation with
    | resolve =>
      cases outcome with
      | failure what => exact finish_attended _ _ _
      | success data => exact (passed (Or.inr rfl)).spared (launch_spares _ _) rfl
    | connect =>
      cases outcome with
      | failure what => exact finish_attended _ _ _
      | success data => exact (passed (Or.inr rfl)).spared (handshake_spares _) (handshake_protocol _)
    | handshake =>
      cases outcome with
      | failure what => exact finish_attended _ _ _
      | success data =>
        obtain ⟨actions, answered, _⟩ := begin_spoken valid gated.config
        have armed : AuthPending clock (login { session with io := io }).toOutbox := login_pending elapsed answered
        exact fun _ => Or.inr armed
    | authWait deadline =>
      cases outcome with
      | failure what => exact passed (Or.inl (by rintro ⟨data, other⟩; cases other))
      | success data =>
        simp only [dispatch, onAuthTimer]
        split
        · rename_i isReady
          exact fun _ => Or.inl isReady
        · exact finish_attended _ _ _
    | read =>
      cases outcome with
      | failure what => exact finish_attended _ _ _
      | success data =>
        have reached : Gated config calls ({ session with io := io } : Session).protocol := gated
        refine onRead_attended reached (passed (Or.inr rfl)) (fun lines pushed => ?_)
        simp only [handledBy, taken] at calm
        rw [show (session.assembler.push data).1 = .ok lines from pushed] at calm
        exact calm
    | writeWait deadline => exact (passed (Or.inr rfl)).spared (onWriteTimer_spares _ outcome) rfl
    | write data => exact (passed (Or.inr rfl)).spared (onWrite_spares _ outcome) rfl

/-- Every event leaves a session attended unless one of its messages strands it. -/
theorem step_attended {calls : List ProtocolCall} (valid : config.Valid)
    (gated : Gated config calls session.protocol) (elapsed : Elapsed clock session.clock)
    (attended : session.Attended clock) (event : SessionEvent)
    (calm : ∀ handled ∈ session.handledBy event, ¬handled.1.Strands clock handled.2) :
    (session.step event).Attended clock := by
  cases event with
  | complete index outcome =>
    rcases complete_cases session index outcome with same | ⟨operation, found, possible, completed⟩
    · rwa [step, same]
    · have spares : Spares session.toOutbox
          ({ session with io := session.io.complete index outcome } : Session).toOutbox := by
        refine ⟨id, fun _ deadline alive => IoContext.alive_complete ?_ alive⟩
        rintro other atIndex rfl
        cases Option.some.inj (found.symm.trans atIndex)
        cases outcome with
        | failure what => cases possible
        | success data => exact ⟨data, rfl⟩
      rw [step, completed]
      exact attended.spared spares rfl
  | deliver index => exact deliver_attended valid gated elapsed attended index calm
  | enqueue message => exact attended.spared (enqueue_spares session.toOutbox message) rfl
  | stop => exact finish_attended _ _ _

end Session

/-- From the handshake on, a session that is not ended is ready or under its
authentication timeout, as long as no message takes a required capability from
it once it is ready and its timeout gone. -/
theorem never_stranded {parseJson : JsonParser} {environment : Environment} {botJson : Bytes}
    {config : RuntimeConfig} (accepted : parseRuntimeConfig parseJson environment botJson = .ok config)
    (limiter : RateLimiter) (clock : Nat → Time) (sniConfigured : Bool) (connecting : List SessionEvent)
    (index : Nat) (data : Bytes)
    (handshaken : ((Session.new config limiter clock sniConfigured).start.after connecting).io.completed[index]? =
      some (.handshake, .success data)) (events : List SessionEvent)
    (calm : ∀ earlier event, earlier ++ [event] <+: events →
      ∀ handled ∈ ((Session.new config limiter clock sniConfigured).start.after
          (connecting ++ .deliver index :: earlier)).handledBy event, ¬handled.1.Strands clock handled.2) :
    ((Session.new config limiter clock sniConfigured).start.after
      (connecting ++ .deliver index :: events)).Attended clock := by
  have valid := parseRuntimeConfig_ok accepted
  have elapsed (before : List SessionEvent) :
      Elapsed clock ((Session.new config limiter clock sniConfigured).start.after before).clock :=
    (Session.after_moves (Session.new config limiter clock sniConfigured).start before).elapsed
  induction events using List.reverseRecOn with
  | nil =>
    rw [Session.after_append]
    obtain ⟨calls, gated⟩ := Session.gated_after config limiter clock sniConfigured connecting
    obtain ⟨actions, answered, _⟩ := begin_spoken valid gated.config
    have reached := elapsed connecting
    generalize (Session.new config limiter clock sniConfigured).start.after connecting = session
      at answered reached handshaken ⊢
    have delivered : session.deliver index = Session.login
        { session with io := { session.io with completed := session.io.completed.eraseIdx index } } := by
      simp only [Session.deliver, IoContext.take, handshaken]
      rfl
    intro _
    refine Or.inr ?_
    show AuthPending clock (session.deliver index).toOutbox
    rw [delivered]
    exact Session.login_pending reached answered
  | append_singleton events event ih =>
    have attended := ih (fun earlier event before => calm earlier event (before.trans (List.prefix_append _ _)))
    have meets := calm events event (List.prefix_refl _)
    obtain ⟨calls, gated⟩ := Session.gated_after config limiter clock sniConfigured
      (connecting ++ .deliver index :: events)
    rw [← List.cons_append, ← List.append_assoc, Session.after_append]
    exact Session.step_attended valid gated (elapsed _) attended event meets

/-- The connection up to the completion of the handshake. -/
def connectingEvents : List SessionEvent :=
  [.complete 0 (.success []), .deliver 0, .complete 0 (.success []), .deliver 0, .complete 0 (.success [])]

def capabilityAck (capabilities : String) : Bytes :=
  bytes (":tmi.twitch.tv CAP * ACK :" ++ capabilities) ++ crlf

/-- The answers that make the session ready. -/
def answeredEvents : List SessionEvent :=
  [.complete 2 (.success (bytes ":tmi.twitch.tv 001 example_bot :Welcome" ++ crlf ++
      capabilityAck "twitch.tv/membership twitch.tv/tags twitch.tv/commands")),
    .deliver 0, .deliver 0]

/-- The server takes a capability back. -/
def removalEvents : List SessionEvent := [.complete 1 (.success (capabilityAck "-twitch.tv/tags")), .deliver 0]

def connectedSession : Session :=
  (Session.new validConfig {} (fun _ => 0) true).start.after connectingEvents

theorem connectedSession_handshaken :
    connectedSession.io.completed[0]? = some (.handshake, .success []) := by
  decide +kernel

/-- Nothing in the login strands the session. -/
theorem answeredEvents_calm : ∀ earlier ∈ answeredEvents.inits, ∀ event ∈ answeredEvents,
    ∀ handled ∈ (connectedSession.after (.deliver 0 :: earlier)).handledBy event,
      ¬(handled.1.protocol.ready = true ∧ hasCapStatus handled.2 "ACK") := by
  decide +kernel

theorem never_stranded_login :
    ((Session.new validConfig {} (fun _ => 0) true).start.after
      (connectingEvents ++ .deliver 0 :: answeredEvents)).Attended (fun _ => 0) := by
  refine never_stranded validConfig_accepted {} (fun _ => 0) true connectingEvents 0 []
    connectedSession_handshaken answeredEvents ?_
  intro earlier event before handled member strands
  have inside : event ∈ answeredEvents := before.subset (List.mem_append_right _ List.mem_cons_self)
  have start : earlier ∈ answeredEvents.inits :=
    (List.mem_inits _ _).mpr ((List.prefix_append _ _).trans before)
  rw [Session.after_append] at member
  exact answeredEvents_calm earlier start event inside handled member ⟨strands.2.1, strands.2.2.2.1⟩

/-- After the removal the session stays open with neither readiness nor timeout. -/
theorem stranded_state :
    (connectedSession.after (.deliver 0 :: (answeredEvents ++ removalEvents))).closed = false ∧
      (connectedSession.after (.deliver 0 :: (answeredEvents ++ removalEvents))).protocol.ready = false ∧
      (connectedSession.after (.deliver 0 :: (answeredEvents ++ removalEvents))).io.count Operation.isAuthWait = 0 := by
  decide +kernel

theorem stranded_fails :
    ¬∀ (config : RuntimeConfig) (limiter : RateLimiter) (clock : Nat → Time) (sniConfigured : Bool)
      (connecting : List SessionEvent) (index : Nat) (data : Bytes) (events : List SessionEvent),
      (∃ parseJson environment botJson, parseRuntimeConfig parseJson environment botJson = .ok config) →
      ((Session.new config limiter clock sniConfigured).start.after connecting).io.completed[index]? =
        some (.handshake, .success data) →
        ((Session.new config limiter clock sniConfigured).start.after
          (connecting ++ .deliver index :: events)).Attended clock := by
  intro attended
  have result : (connectedSession.after (.deliver 0 :: (answeredEvents ++ removalEvents))).Attended (fun _ => 0) := by
    rw [connectedSession, ← Session.after_append]
    exact attended validConfig {} (fun _ => 0) true connectingEvents 0 [] (answeredEvents ++ removalEvents)
      ⟨_, _, _, validConfig_accepted⟩ connectedSession_handshaken
  obtain ⟨isOpen, notReady, none⟩ := stranded_state
  rcases result isOpen with isReady | ⟨reading, alive⟩
  · rw [notReady] at isReady
    cases isReady
  · have some := IoContext.count_pos_of_alive alive (show Operation.isAuthWait (.authWait _) = true from rfl)
    rw [none] at some
    cases some

end TwitchBot
