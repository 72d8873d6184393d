import TwitchBot.Requests

namespace TwitchBot

open ExceptRun Outbox SessionProtocol

/-- The effects a closed session should not have: a started operation and a
call of one of the two handlers its owner gave it. -/
def Effect.isLoud : Effect → Bool
  | .started _ => true
  | .ready => true
  | .ended _ _ => true
  | _ => false

def loudEffects (trace : List Effect) : List Effect := trace.filter Effect.isLoud

/-- Between two states of a run the session starts nothing, calls no handler
of its owner and has the same protocol object. -/
structure Inert (session next : Session) : Prop where
  protocol : next.protocol = session.protocol
  effects : loudEffects next.trace = loudEffects session.trace

theorem Inert.refl (session : Session) : Inert session session := ⟨rfl, rfl⟩

theorem Inert.trans {first second third : Session} (left : Inert first second) (right : Inert second third) :
    Inert first third :=
  ⟨right.protocol.trans left.protocol, right.effects.trans left.effects⟩

theorem Inert.between {first second third : Session} (left : Inert first second) (whole : Inert first third) :
    Inert second third :=
  ⟨whole.protocol.trans left.protocol.symm, whole.effects.trans left.effects.symm⟩

theorem loudEffects_concat (trace : List Effect) (effect : Effect) :
    loudEffects (trace ++ [effect]) = loudEffects trace ++ if effect.isLoud then [effect] else [] := by
  cases loud : effect.isLoud <;> simp [loudEffects, loud]

/-- A message that `handle` neither records anything of nor answers with a
ready action. -/
def LeavesAlone (protocol : SessionProtocol) (message : IrcMessage) : Prop :=
  if message.command = bytes "PING" then True
  else if message.command = bytes "RECONNECT" then protocol.state = .reconnectRequested
  else if containsLoginFailure message = true ∨ hasCapStatus message "NAK" then protocol.state = .failed
  else (hasCapStatus message "ACK" → protocol.state = .capabilityNegotiation ∧
      (acknowledgedTokens message).foldl acknowledge protocol.acknowledgedCapabilities =
        protocol.acknowledgedCapabilities) ∧
    (isWelcome message → protocol.authenticated = true)

/-- The message of the first line that a chunk completes. -/
def firstMessage (assembler : IrcStreamAssembler) (data : Bytes) : Option IrcMessage :=
  match (assembler.push data).1 with
  | .ok (line :: _) => (parseIrcMessage line).toOption
  | _ => none

/-- The completions whose handlers do nothing on a closed session. -/
def HarmlessCompletion (session : Session) : Operation → Outcome → Prop
  | .resolve, .success _ => False
  | .connect, .success _ => session.sniConfigured = false
  | .handshake, .success _ => False
  | .read, .success data => ∀ message, firstMessage session.assembler data = some message →
    LeavesAlone session.protocol message
  | _, _ => True

/-- The events that do nothing to a closed session. -/
def Harmless (session : Session) : SessionEvent → Prop
  | .deliver index => ∀ operation outcome, session.io.completed[index]? = some (operation, outcome) →
    HarmlessCompletion session operation outcome
  | _ => True

/-- Whether the first action of an answer is a ready action. -/
def readyFirst : Answer → Bool
  | .ok (action :: _) => action.kind = .ready
  | _ => false

theorem recorded_eq_iff {protocol : SessionProtocol} {message : IrcMessage} :
    protocol.recorded message = protocol ↔
      (hasCapStatus message "ACK" → protocol.state = .capabilityNegotiation ∧
          (acknowledgedTokens message).foldl acknowledge protocol.acknowledgedCapabilities =
            protocol.acknowledgedCapabilities) ∧
        (isWelcome message → protocol.authenticated = true) := by
  constructor
  · intro same
    refine ⟨fun ack => ⟨?_, ?_⟩, fun welcome => ?_⟩
    · rw [← same, recorded_state, if_pos ack]
    · rw [← recorded_acknowledged]
      exact congrArg acknowledgedCapabilities same
    · rw [← same, recorded_authenticated]
      exact Or.inr welcome
  · rintro ⟨acked, welcomed⟩
    have acknowledged : protocol.recordAcknowledgement message = protocol := by
      unfold recordAcknowledgement
      split
      · rename_i ack
        obtain ⟨state, capabilities⟩ := acked ack
        rw [acknowledgedTokens, if_pos ack] at capabilities
        rw [acknowledgeAll, capabilities, ← state]
      · rfl
    rw [SessionProtocol.recorded, acknowledged, recordAuthentication]
    split
    · rename_i welcome
      rw [← welcomed welcome]
    · rfl

/-- A message leaves the protocol object alone and causes no ready action
exactly under the condition on the message and the object. -/
theorem leavesAlone_iff {config : RuntimeConfig} {calls : List ProtocolCall} {protocol : SessionProtocol}
    (gated : Gated config calls protocol) (names : ∀ channel ∈ config.channels, LoginName channel)
    (message : IrcMessage) :
    ((protocol.handle message).2 = protocol ∧ readyFirst (protocol.handle message).1 = false) ↔
      LeavesAlone protocol message := by
  have setState (state : SessionState) : { protocol with state := state } = protocol ↔ protocol.state = state :=
    ⟨fun same => (congrArg SessionProtocol.state same).symm, fun same => by rw [← same]⟩
  unfold LeavesAlone
  rcases handle_cases protocol message with ⟨ping, same, system⟩ | ⟨reconnect, result⟩ | ⟨failure, result⟩ |
    ⟨nak, result⟩ | ⟨notPing, notReconnect, noFailure, notNak, result⟩
  · rw [if_pos ping, same]
    refine iff_of_true ⟨rfl, ?_⟩ trivial
    cases answered : (protocol.handle message).1 with
    | error what => rfl
    | ok returned =>
      cases returned with
      | nil => rfl
      | cons action actions => simp [readyFirst, (system _ answered action List.mem_cons_self).1]
  · have notPing : message.command ≠ bytes "PING" := by
      rw [reconnect]
      decide
    rw [if_neg notPing, if_pos reconnect, result]
    simpa [readyFirst] using setState .reconnectRequested
  · have notice := containsLoginFailure_command failure
    have notPing : message.command ≠ bytes "PING" ∧ message.command ≠ bytes "RECONNECT" := by
      rw [notice]
      decide
    rw [if_neg notPing.1, if_neg notPing.2, if_pos (Or.inl failure), result]
    simpa [readyFirst] using setState .failed
  · have notPing : message.command ≠ bytes "PING" ∧ message.command ≠ bytes "RECONNECT" := by
      rw [hasCapStatus_command nak]
      decide
    rw [if_neg notPing.1, if_neg notPing.2, if_pos (Or.inr nak), result]
    simpa [readyFirst] using setState .failed
  · rw [if_neg notPing, if_neg notReconnect, if_neg (by simp [noFailure, notNak]), result, ← recorded_eq_iff]
    have kept : (protocol.recorded message).config.channels = config.channels := by
      rw [recorded_config, gated.config]
    rcases becomeReadyIfPossible_cases (protocol.recorded message) with ⟨quiet, _⟩ |
      ⟨loud, authenticated, complete, unsettled⟩
    · simp [quiet, readyFirst]
    · rw [loud, kept, readyActions_ok names]
      have first : readyFirst (.ok (readyAction :: config.channels.map joinAction)) = true := rfl
      refine iff_of_false (fun alone => by simp [first] at alone) (fun same => ?_)
      rw [same] at authenticated complete unsettled
      exact unsettled (gated.complete_settled authenticated complete)

namespace Session

variable {session : Session}

theorem enqueueNext_of_closed (session : Session) (closed : session.closed = true) (data : Bytes)
    (kind : OutboundKind) (channel : Bytes) (due : Time) :
    (session.enqueueNext data kind channel due).toOutbox = session.toOutbox :=
  enqueue_of_closed closed _

theorem finish_of_closed (closed : session.closed = true) (reason : SessionEndReason) (message : Bytes) :
    session.finish reason message = session :=
  congrArg (fun outbox => { session with toOutbox := outbox }) (Outbox.finish_of_closed closed reason message)

/-- On a closed session the only effect of an action is that of a ready action. -/
theorem applyAction_of_closed (session : Session) (closed : session.closed = true) (action : ProtocolAction) :
    (session.applyAction action).closed = true ∧
      loudEffects (session.applyAction action).trace =
        loudEffects session.trace ++ if action.kind = .ready then [.ready] else [] := by
  unfold applyAction
  split
  · rename_i send
    have same := enqueueNext_of_closed (session.onOutbox (·.tick)) closed action.data
      action.outboundKind action.channel session.now
    rw [same, send]
    exact ⟨closed, by simp [onOutbox, Outbox.tick]⟩
  · rename_i isReady
    rw [isReady]
    exact ⟨closed, loudEffects_concat _ _⟩
  · rename_i reconnect
    rw [finish_of_closed closed, reconnect]
    exact ⟨closed, by simp⟩
  · rename_i fatal
    rw [finish_of_closed closed, fatal]
    exact ⟨closed, by simp⟩

theorem applyActions_of_closed (session : Session) (closed : session.closed = true)
    (actions : List ProtocolAction) :
    (actions.foldl applyAction session).closed = true := by
  induction actions generalizing session with
  | nil => exact closed
  | cons action actions ih => exact ih _ (applyAction_of_closed session closed action).1

theorem enqueueChats_of_closed (session : Session) (closed : session.closed = true)
    (chats : List ScheduledChatMessage) :
    (chats.foldl enqueueChat session).toOutbox = session.toOutbox := by
  induction chats generalizing session with
  | nil => rfl
  | cons chat chats ih =>
    have same : (session.enqueueChat chat).toOutbox = session.toOutbox := by
      unfold enqueueChat
      split
      · rfl
      · exact enqueueNext_of_closed _ closed _ _ _ _
    rw [List.foldl_cons, ih _ (by rw [same]; exact closed), same]

theorem respond_of_closed (session : Session) (closed : session.closed = true) (message : IrcMessage) :
    (session.respond message).2.closed = true ∧
      (session.respond message).2.trace = session.trace := by
  unfold respond
  split
  · exact ⟨closed, rfl⟩
  · dsimp only
    split
    · exact ⟨closed, rfl⟩
    · rw [enqueueChats_of_closed { session.onOutbox (·.tick) with
        automation := (session.automation.handle message session.now).2 } closed]
      exact ⟨closed, rfl⟩

/-- On a closed session a message reaches the protocol object, and only the
first of its actions is applied. -/
theorem handleMessage_of_closed (closed : session.closed = true) (message : IrcMessage) :
    (session.handleMessage message).2.closed = true ∧
      loudEffects (session.handleMessage message).2.trace = loudEffects session.trace ++
        if readyFirst (session.protocol.handle message).1 then [.ready] else [] := by
  unfold handleMessage
  dsimp only
  split
  · rename_i what answered
    rw [answered]
    exact ⟨closed, by simp [readyFirst]⟩
  · rename_i actions answered
    rw [answered]
    cases actions with
    | nil =>
      simp only [applyUntilClosed]
      obtain ⟨stays, same⟩ := respond_of_closed
        { session with protocol := (session.protocol.handle message).2 } closed message
      exact ⟨stays, by rw [same]; simp [readyFirst]⟩
    | cons action actions =>
      obtain ⟨stays, effects⟩ := applyAction_of_closed
        { session with protocol := (session.protocol.handle message).2 } closed action
      simp only [applyUntilClosed, stays, if_true, readyFirst, decide_eq_true_eq]
      exact ⟨trivial, effects⟩

theorem read_of_closed (session : Session) (closed : session.closed = true) : session.read = session := if_pos closed

/-- On a closed session the read handler still handles the first line. -/
theorem onRead_of_closed (closed : session.closed = true) (data : Bytes) :
    (firstMessage session.assembler data = none ∧ Inert session (session.onRead (.success data)) ∧
        (session.onRead (.success data)).closed = true) ∨
      ∃ message, firstMessage session.assembler data = some message ∧
        (session.onRead (.success data)).closed = true ∧
        (session.onRead (.success data)).protocol = (session.protocol.handle message).2 ∧
        loudEffects (session.onRead (.success data)).trace = loudEffects session.trace ++
          if readyFirst (session.protocol.handle message).1 then [.ready] else [] := by
  have stays : ({ session with assembler := (session.assembler.push data).2 } : Session).closed = true := closed
  unfold onRead receive firstMessage
  dsimp only
  cases pushed : (session.assembler.push data).1 with
  | error what =>
    left
    simp only [fail, finish_of_closed stays]
    exact ⟨trivial, ⟨rfl, rfl⟩, closed⟩
  | ok lines =>
    cases lines with
    | nil =>
      left
      simp only [handleLines, read_of_closed _ stays]
      exact ⟨trivial, ⟨rfl, rfl⟩, closed⟩
    | cons line rest =>
      cases parsed : parseIrcMessage line with
      | error what =>
        left
        simp only [handleLines, handleLine, parsed, closed, if_true, Except.toOption]
        exact ⟨trivial, ⟨rfl, rfl⟩, trivial⟩
      | ok message =>
        right
        refine ⟨message, by simp only [parsed, Except.toOption], ?_⟩
        have handled := handleMessage_of_closed stays message
        have protocol := handleMessage_protocol
          { session with assembler := (session.assembler.push data).2 } message
        simp only [handleLines, handleLine, parsed]
        generalize ({ session with assembler := (session.assembler.push data).2 } : Session).handleMessage
          message = result at handled protocol ⊢
        obtain ⟨outcome, next⟩ := result
        cases outcome with
        | error what =>
          simp only [fail, finish_of_closed handled.1]
          exact ⟨handled.1, protocol, handled.2⟩
        | ok _ =>
          have nextClosed : next.closed = true := handled.1
          simp only [nextClosed, if_true]
          exact ⟨trivial, protocol, handled.2⟩

/-- A handshake that succeeds on a closed session starts the login. -/
theorem login_not_inert (closed : session.closed = true) : ¬Inert session session.login := by
  intro inert
  rcases begin_cases session.protocol with ⟨quiet, _⟩ | ⟨changed, fresh, _⟩
  · have run : session.login = session.startAuthTimeout := by
      have stays : session.startAuthTimeout.closed = true := closed
      simp only [login, quiet, List.foldl_nil]
      exact read_of_closed _ stays
    have effects := inert.effects
    rw [run] at effects
    simp [startAuthTimeout, onOutbox, Outbox.launch, loudEffects_concat, Outbox.tick, Outbox.cancel,
      Effect.isLoud] at effects
  · have protocol : session.login.protocol = session.protocol.begin.2 := by
      unfold login
      dsimp only
      split
      · rfl
      · rw [read_protocol]
        exact applyActions_protocol _ _
    have state := congrArg SessionProtocol.state (protocol.symm.trans inert.protocol)
    rw [changed] at state
    rw [← state] at fresh
    simp at fresh

/-- What is started is an effect. -/
theorem launch_not_inert (operation : Operation) :
    ¬Inert session (session.onOutbox (·.launch operation)) := by
  intro inert
  have effects := inert.effects
  simp [onOutbox, Outbox.launch, loudEffects_concat, Effect.isLoud] at effects

theorem onWrite_of_closed {outbox : Outbox} (closed : outbox.closed = true) (outcome : Outcome) :
    (outbox.onWrite outcome).closed = true ∧
      loudEffects (outbox.onWrite outcome).trace = loudEffects outbox.trace := by
  cases outcome with
  | failure what =>
    rw [Outbox.onWrite, Outbox.finish_of_closed closed]
    exact ⟨closed, rfl⟩
  | success data =>
    simp only [Outbox.onWrite, Outbox.onWritten]
    split
    · exact ⟨closed, by simp [Outbox.emit, loudEffects_concat, Effect.isLoud]⟩
    · simp [Outbox.scheduleWrite, Outbox.emit, Outbox.tick, closed, loudEffects_concat, Effect.isLoud]

theorem onWriteTimer_of_closed {outbox : Outbox} (closed : outbox.closed = true) (outcome : Outcome) :
    outbox.onWriteTimer outcome = outbox := by
  cases outcome with
  | failure what => rfl
  | success data => exact scheduleWrite_of_closed closed

theorem login_of_closed (closed : session.closed = true) : session.login.closed = true := by
  unfold login
  dsimp only
  split
  · exact closed
  · rename_i actions _
    have stays := applyActions_of_closed { session with protocol := session.protocol.begin.2 } closed actions
    rw [read_of_closed (startAuthTimeout _) stays]
    exact stays

/-- The handshake starts unless the server name cannot be set. -/
theorem handshake_of_closed (closed : session.closed = true) :
    session.handshake.closed = true ∧ (Inert session session.handshake ↔ session.sniConfigured = false) := by
  unfold handshake
  cases sni : session.sniConfigured with
  | true =>
    simp only [if_true]
    exact ⟨closed, iff_of_false (launch_not_inert .handshake) (by simp)⟩
  | false =>
    simp only [fail, finish_of_closed closed]
    exact ⟨closed, iff_of_true (Inert.refl session) trivial⟩

/-- What was read leaves a closed session inert exactly if the first message
leaves its protocol object alone. -/
theorem received_of_closed {config : RuntimeConfig} {calls : List ProtocolCall}
    (gated : Gated config calls session.protocol) (names : ∀ channel ∈ config.channels, LoginName channel)
    (closed : session.closed = true) (data : Bytes) :
    (session.onRead (.success data)).closed = true ∧ (Inert session (session.onRead (.success data)) ↔
      ∀ message, firstMessage session.assembler data = some message → LeavesAlone session.protocol message) := by
  rcases onRead_of_closed closed data with ⟨none, inert, stays⟩ | ⟨message, found, stays, protocol, effects⟩
  · exact ⟨stays, iff_of_true inert (by simp [none])⟩
  · refine ⟨stays, ?_⟩
    have condition : (∀ other, firstMessage session.assembler data = some other →
        LeavesAlone session.protocol other) ↔ LeavesAlone session.protocol message := by
      simp [found]
    rw [condition, ← leavesAlone_iff gated names]
    constructor
    · intro inert
      refine ⟨protocol.symm.trans inert.protocol, ?_⟩
      have quiet := effects.symm.trans inert.effects
      by_contra loud
      rw [if_pos (by simpa using loud)] at quiet
      simp at quiet
    · rintro ⟨unchanged, notReady⟩
      refine ⟨protocol.trans unchanged, ?_⟩
      rw [effects, notReady]
      simp

/-- A handler keeps a closed session closed, and inert exactly if its
completion is harmless. -/
theorem dispatch_of_closed (session : Session) {config : RuntimeConfig} {calls : List ProtocolCall}
    (gated : Gated config calls session.protocol) (names : ∀ channel ∈ config.channels, LoginName channel)
    (closed : session.closed = true) (operation : Operation) (outcome : Outcome) :
    (session.dispatch operation outcome).closed = true ∧
      (Inert session (session.dispatch operation outcome) ↔ HarmlessCompletion session operation outcome) := by
  have same {next : Session} (eq : next = session) (harmless : HarmlessCompletion session operation outcome) :
      next.closed = true ∧ (Inert session next ↔ HarmlessCompletion session operation outcome) :=
    ⟨eq ▸ closed, iff_of_true (eq ▸ Inert.refl session) harmless⟩
  cases outcome with
  | failure what =>
    cases operation with
    | resolve => exact same (finish_of_closed closed _ _) trivial
    | connect => exact same (finish_of_closed closed _ _) trivial
    | handshake => exact same (finish_of_closed closed _ _) trivial
    | authWait deadline => exact same rfl trivial
    | read => exact same (finish_of_closed closed _ _) trivial
    | writeWait deadline => exact same rfl trivial
    | write data =>
      obtain ⟨stays, effects⟩ := onWrite_of_closed closed (.failure what)
      exact ⟨stays, iff_of_true ⟨rfl, effects⟩ trivial⟩
  | success bytes =>
    cases operation with
    | resolve => exact ⟨closed, iff_of_false (launch_not_inert .connect) (fun harmless => harmless)⟩
    | connect => exact handshake_of_closed closed
    | handshake =>
      exact ⟨login_of_closed closed, iff_of_false (login_not_inert closed) (fun harmless => harmless)⟩
    | authWait deadline =>
      refine same ?_ trivial
      simp only [dispatch, onAuthTimer]
      split
      · rfl
      · exact finish_of_closed closed _ _
    | read => exact received_of_closed gated names closed bytes
    | writeWait deadline =>
      refine same ?_ trivial
      exact congrArg (fun outbox => { session with toOutbox := outbox }) (onWriteTimer_of_closed closed _)
    | write data =>
      obtain ⟨stays, effects⟩ := onWrite_of_closed closed (.success bytes)
      exact ⟨stays, iff_of_true ⟨rfl, effects⟩ trivial⟩

theorem complete_of_closed (closed : session.closed = true) (index : Nat) (outcome : Outcome) :
    (session.complete index outcome).closed = true ∧ Inert session (session.complete index outcome) := by
  rcases complete_cases session index outcome with same | ⟨_, _, _, completed⟩
  · rw [same]
    exact ⟨closed, Inert.refl session⟩
  · rw [completed]
    exact ⟨closed, ⟨rfl, rfl⟩⟩

/-- An event keeps a closed session closed, and inert exactly if it is harmless. -/
theorem step_of_closed {config : RuntimeConfig} {calls : List ProtocolCall}
    (gated : Gated config calls session.protocol) (names : ∀ channel ∈ config.channels, LoginName channel)
    (closed : session.closed = true) (event : SessionEvent) :
    (session.step event).closed = true ∧ (Inert session (session.step event) ↔ Harmless session event) := by
  cases event with
  | complete index outcome =>
    have kept := complete_of_closed closed index outcome
    exact ⟨kept.1, iff_of_true kept.2 trivial⟩
  | enqueue message =>
    simp only [step, onOutbox, enqueue_of_closed closed]
    exact ⟨closed, iff_of_true (Inert.refl session) trivial⟩
  | stop =>
    rw [step, stop, finish_of_closed closed]
    exact ⟨closed, iff_of_true (Inert.refl session) trivial⟩
  | deliver index =>
    simp only [step, deliver, Harmless, IoContext.take]
    cases found : session.io.completed[index]? with
    | none => exact ⟨closed, iff_of_true (Inert.refl session) (by simp)⟩
    | some completion =>
      obtain ⟨operation, outcome⟩ := completion
      dsimp only
      generalize rest : ({ session.io with completed := session.io.completed.eraseIdx index } :
        IoContext Operation Outcome) = io
      obtain ⟨stays, inert_iff⟩ := dispatch_of_closed { session with io := io } gated names closed
        operation outcome
      refine ⟨stays, Iff.trans ?_ (inert_iff.trans ?_)⟩
      · exact ⟨fun inert => ⟨inert.protocol, inert.effects⟩, fun inert => ⟨inert.protocol, inert.effects⟩⟩
      · have same : HarmlessCompletion { session with io := io } operation outcome ↔
            HarmlessCompletion session operation outcome := by
          cases operation <;> cases outcome <;> exact Iff.rfl
        rw [same]
        simp

end Session

/-- The protocol object of a session is that of its calls. -/
theorem Session.gated_after (config : RuntimeConfig) (limiter : RateLimiter) (clock : Nat → Time)
    (sniConfigured : Bool) (events : List SessionEvent) :
    ∃ calls, Gated config calls
      ((Session.new config limiter clock sniConfigured).start.after events).protocol := by
  obtain ⟨calls, leads⟩ := after_leads (Session.new config limiter clock sniConfigured).start events
  rw [leads]
  exact ⟨calls, TwitchBot.gated_after config calls⟩

theorem Session.after_append (session : Session) (earlier later : List SessionEvent) :
    session.after (earlier ++ later) = (session.after earlier).after later := by
  simp [Session.after]

/-- A closed session stays inert over a run exactly if every event of the run
is harmless in the state it meets. -/
theorem closed_inert_iff {parseJson : JsonParser} {environment : Environment} {botJson : Bytes}
    {config : RuntimeConfig} (accepted : parseRuntimeConfig parseJson environment botJson = .ok config)
    (limiter : RateLimiter) (clock : Nat → Time) (sniConfigured : Bool) (before : List SessionEvent)
    (closed : ((Session.new config limiter clock sniConfigured).start.after before).closed = true)
    (events : List SessionEvent) :
    let session := (Session.new config limiter clock sniConfigured).start.after before
    (∀ earlier, earlier <+: events → Inert session (session.after earlier)) ↔
      ∀ earlier event, earlier ++ [event] <+: events → Harmless (session.after earlier) event := by
  intro session
  have names := (parseRuntimeConfig_ok accepted).channels
  have step (earlier : List SessionEvent) (event : SessionEvent) (stays : (session.after earlier).closed = true) :
      (session.after (earlier ++ [event])).closed = true ∧
        (Inert (session.after earlier) (session.after (earlier ++ [event])) ↔
          Harmless (session.after earlier) event) := by
    obtain ⟨calls, gated⟩ := Session.gated_after config limiter clock sniConfigured (before ++ earlier)
    rw [Session.after_append] at gated
    rw [Session.after_append]
    exact Session.step_of_closed gated names stays event
  have stays (earlier : List SessionEvent) : (session.after earlier).closed = true := by
    induction earlier using List.reverseRecOn with
    | nil => exact closed
    | append_singleton earlier event ih => exact (step earlier event ih).1
  constructor
  · intro inert earlier event isPrefix
    refine (step earlier event (stays earlier)).2.mp ?_
    exact (inert earlier ((List.prefix_append _ _).trans isPrefix)).between (inert _ isPrefix)
  · intro harmless earlier isPrefix
    induction earlier using List.reverseRecOn with
    | nil => exact Inert.refl session
    | append_singleton earlier event ih =>
      exact (ih ((List.prefix_append _ _).trans isPrefix)).trans
        ((step earlier event (stays earlier)).2.mpr (harmless earlier event isPrefix))

/-- A session stopped while it resolves the host name stays inert when the
aborted handler runs. -/
theorem closed_inert_iff_aborted :
    Inert ((Session.new validConfig {} (fun n => n) true).start.after [.stop])
      ((Session.new validConfig {} (fun n => n) true).start.after [.stop, .deliver 0]) := by
  refine (closed_inert_iff validConfig_accepted {} (fun n => n) true [.stop] rfl [.deliver 0]).mpr ?_
    [.deliver 0] (List.prefix_refl _)
  intro earlier event isPrefix
  obtain ⟨rfl, rfl⟩ : earlier = [] ∧ event = .deliver 0 := by
    have length := isPrefix.length_le
    simp only [List.length_append, List.length_singleton] at length
    obtain rfl := List.length_eq_zero_iff.mp (show earlier.length = 0 by omega)
    exact ⟨rfl, List.singleton_inj.mp (List.IsPrefix.eq_of_length isPrefix rfl)⟩
  intro operation outcome found
  cases Option.some.inj found
  trivial

/-- A session stopped after the host name was resolved still connects. -/
theorem closed_inert_fails :
    ¬∀ (config : RuntimeConfig) (limiter : RateLimiter) (clock : Nat → Time) (sniConfigured : Bool)
      (before events : List SessionEvent),
      (∃ parseJson environment botJson, parseRuntimeConfig parseJson environment botJson = .ok config) →
      ((Session.new config limiter clock sniConfigured).start.after before).closed = true →
        Inert ((Session.new config limiter clock sniConfigured).start.after before)
          (((Session.new config limiter clock sniConfigured).start.after before).after events) := by
  intro inert
  have effects := (inert validConfig {} (fun n => n) true [.complete 0 (.success []), .stop] [.deliver 0]
    ⟨_, _, _, validConfig_accepted⟩ rfl).effects
  exact absurd (congrArg List.length effects) (by decide)

end TwitchBot
