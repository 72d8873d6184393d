import TwitchBot.Exceptions
import TwitchBot.Relabelling
import TwitchBot.WireLanguage

namespace TwitchBot

open ExceptRun Outbox SessionProtocol

/-- The lines that carry the token. -/
def isPass (data : Bytes) : Bool := decide (data.take 4 = bytes "PASS")

/-- The line that is sent instead if the token is another one. -/
def retoken (token data : Bytes) : Bytes := if isPass data then passLine token else data

theorem retoken_of_other {data : Bytes} (other : isPass data = false) (token : Bytes) : retoken token data = data := by
  rw [retoken, if_neg (by simp [other])]

def RuntimeConfig.withToken (config : RuntimeConfig) (token : Bytes) : RuntimeConfig :=
  { config with oauthToken := token }

def SessionProtocol.withToken (protocol : SessionProtocol) (token : Bytes) : SessionProtocol :=
  { protocol with config := protocol.config.withToken token }

/-- An action that sends another line if it sends the token. -/
def ProtocolAction.withToken (action : ProtocolAction) (token : Bytes) : ProtocolAction :=
  match action.kind with
  | .send => { action with data := retoken token action.data }
  | _ => action

/-- A session that was given another token. -/
def Session.withToken (session : Session) (token : Bytes) : Session :=
  { session.onOutbox (·.relabel (retoken token)) with
    config := session.config.withToken token
    protocol := session.protocol.withToken token }

namespace SessionProtocol

variable (protocol : SessionProtocol) (token : Bytes)

theorem becomeReadyIfPossible_withToken : (protocol.withToken token).becomeReadyIfPossible =
    (protocol.becomeReadyIfPossible.1, protocol.becomeReadyIfPossible.2.withToken token) := by
  unfold becomeReadyIfPossible
  rw [show (protocol.withToken token).state = protocol.state from rfl,
    show (protocol.withToken token).authenticated = protocol.authenticated from rfl,
    show (protocol.withToken token).capabilitiesReady = protocol.capabilitiesReady from rfl]
  split_ifs <;> rfl

/-- Messages are handled without a look at the token. -/
theorem handle_withToken (message : IrcMessage) : (protocol.withToken token).handle message =
    ((protocol.handle message).1, (protocol.handle message).2.withToken token) := by
  have recorded : ((protocol.withToken token).recordAcknowledgement message).recordAuthentication message =
      ((protocol.recordAcknowledgement message).recordAuthentication message).withToken token := by
    simp only [recordAcknowledgement, recordAuthentication, withToken]
    split_ifs <;> rfl
  simp only [handle, recorded, becomeReadyIfPossible_withToken]
  split_ifs
  · cases message.parameters <;> rfl
  all_goals rfl

theorem notPass_of_encoded {line data : Bytes} (encoded : encodeIrcLine line = .ok data)
    (other : ∀ rest, isPass (line ++ rest) = false) : isPass data = false := by
  obtain ⟨_, _, _, _, rfl⟩ := encodeIrcLine_ok_iff.mp encoded
  exact other crlf

theorem notPass_of_sent {kind : OutboundKind} {channel line : Bytes} {action : ProtocolAction}
    (sent : sendAction kind channel line = .ok action) (other : ∀ rest, isPass (line ++ rest) = false) :
    isPass action.data = false := by
  obtain ⟨data, encoded, sent⟩ := bind_eq_ok.mp sent
  cases Except.ok.inj sent
  exact notPass_of_encoded encoded other

/-- What is done in answer to a message does not carry the token. -/
theorem handle_notPass {message : IrcMessage} {actions : List ProtocolAction}
    (answered : (protocol.handle message).1 = .ok actions) :
    ∀ action ∈ actions, action.withToken token = action := by
  intro action member
  have returned : action ∈ returnedActions (protocol.handle message).1 := by
    rw [answered]
    exact member
  unfold ProtocolAction.withToken
  split
  · rename_i isSend
    have other : isPass action.data = false := by
      rcases handle_sends returned isSend with ⟨_, _, _, _, sent⟩ | ⟨_, _, sent⟩
      · exact notPass_of_sent sent (fun _ => rfl)
      · exact notPass_of_sent sent (fun _ => rfl)
    rw [retoken_of_other other]
  · rfl

/-- The greeting carries the token in its first line alone. -/
theorem begin_withToken {config : RuntimeConfig} (valid : config.Valid) (validThen : (config.withToken token).Valid)
    (same : protocol.config = config) : ∃ actions, protocol.begin.1 = .ok actions ∧
      (protocol.withToken token).begin =
        (.ok (actions.map (·.withToken token)), protocol.begin.2.withToken token) := by
  have sameThen : (protocol.withToken token).config = config.withToken token := by
    rw [← same]
    rfl
  rw [begin_greets valid same, begin_greets validThen sameThen,
    show (protocol.withToken token).state = protocol.state from rfl]
  split
  · exact ⟨[], rfl, rfl⟩
  · exact ⟨greetingActions config, rfl, rfl⟩

end SessionProtocol

namespace Session

variable (session : Session) (token : Bytes)

theorem withToken_onOutbox {act act' : Outbox → Outbox}
    (same : (act session.toOutbox).relabel (retoken token) = act' (session.toOutbox.relabel (retoken token))) :
    (session.onOutbox act).withToken token = (session.withToken token).onOutbox act' := by
  simp only [withToken, onOutbox, same]

@[simp] theorem withToken_finish (reason : SessionEndReason) (message : Bytes) :
    (session.finish reason message).withToken token = (session.withToken token).finish reason message :=
  withToken_onOutbox session token (relabel_finish _ _ reason message)

theorem withToken_enqueueNext (data : Bytes) (kind : OutboundKind) (channel : Bytes) (due : Time) :
    (session.enqueueNext data kind channel due).withToken token =
      (session.withToken token).enqueueNext (retoken token data) kind channel due := by
  simp only [enqueueNext, withToken, onOutbox, relabel_enqueue]
  rfl

theorem withToken_cancelAuth : (session.onOutbox (·.cancel Operation.isAuthWait)).withToken token =
    (session.withToken token).onOutbox (·.cancel Operation.isAuthWait) :=
  @withToken_onOutbox session token (·.cancel Operation.isAuthWait) (·.cancel Operation.isAuthWait)
    (relabel_cancel _ session.toOutbox (fun operation => operation.relabel_isAuthWait _))

theorem withToken_launch (operation : Operation) : (session.onOutbox (·.launch operation)).withToken token =
    (session.withToken token).onOutbox (·.launch (operation.relabel (retoken token))) :=
  withToken_onOutbox session token (relabel_launch _ _ operation)

theorem withToken_applyAction (action : ProtocolAction) :
    (session.applyAction action).withToken token = (session.withToken token).applyAction (action.withToken token) := by
  obtain ⟨kind, data, outboundKind, channel⟩ := action
  cases kind with
  | send =>
    exact withToken_enqueueNext (session.onOutbox (·.tick)) token data outboundKind channel session.now
  | ready =>
    calc ((session.onOutbox (·.cancel Operation.isAuthWait)).onOutbox (·.emit .ready)).withToken token
        = ((session.onOutbox (·.cancel Operation.isAuthWait)).withToken token).onOutbox (·.emit .ready) :=
          withToken_onOutbox _ token (relabel_emit _ _ .ready)
      _ = _ := by
          rw [withToken_cancelAuth]
          rfl
  | reconnect => exact withToken_finish session token _ _
  | fatal => exact withToken_finish session token _ _

theorem withToken_applyUntilClosed {actions : List ProtocolAction}
    (plain : ∀ action ∈ actions, action.withToken token = action) :
    (session.withToken token).applyUntilClosed actions =
      ((session.applyUntilClosed actions).1, (session.applyUntilClosed actions).2.withToken token) := by
  induction actions generalizing session with
  | nil => rfl
  | cons action actions ih =>
    have applied : (session.withToken token).applyAction action = (session.applyAction action).withToken token := by
      rw [withToken_applyAction, plain action List.mem_cons_self]
    simp only [applyUntilClosed, applied,
      show ((session.applyAction action).withToken token).closed = (session.applyAction action).closed from rfl]
    split
    · rfl
    · exact ih _ (fun other member => plain other (List.mem_cons_of_mem _ member))

theorem withToken_foldl_applyAction (actions : List ProtocolAction) :
    (actions.foldl applyAction session).withToken token =
      (actions.map (·.withToken token)).foldl applyAction (session.withToken token) := by
  induction actions generalizing session with
  | nil => rfl
  | cons action actions ih => rw [List.foldl_cons, ih, withToken_applyAction, List.map_cons, List.foldl_cons]

theorem withToken_enqueueChat (chat : ScheduledChatMessage) :
    (session.enqueueChat chat).withToken token = (session.withToken token).enqueueChat chat := by
  cases made : makePrivmsg chat.channel chat.text with
  | error what =>
    simp only [enqueueChat, made]
  | ok data =>
    have other : isPass data = false := by
      unfold makePrivmsg at made
      split at made
      · cases made
      · exact notPass_of_encoded made (fun _ => rfl)
    simp only [enqueueChat, made]
    rw [withToken_enqueueNext, retoken_of_other other]

theorem withToken_foldl_enqueueChat (chats : List ScheduledChatMessage) :
    (chats.foldl enqueueChat session).withToken token = chats.foldl enqueueChat (session.withToken token) := by
  induction chats generalizing session with
  | nil => rfl
  | cons chat chats ih => rw [List.foldl_cons, ih, withToken_enqueueChat, List.foldl_cons]

/-- A pair of an answer and a session, for another token. -/
def both {α : Type} (token : Bytes) (result : α × Session) : α × Session := (result.1, result.2.withToken token)

theorem withToken_respond (message : IrcMessage) :
    (session.withToken token).respond message = both token (session.respond message) := by
  unfold respond
  rw [show (session.withToken token).protocol.ready = session.protocol.ready from rfl]
  split
  · rfl
  · rw [show (session.withToken token).automation = session.automation from rfl,
      show (session.withToken token).now = session.now from rfl]
    cases session.automation.handle message session.now with
    | mk answer automation =>
      cases answer with
      | error what => rfl
      | ok chats =>
        exact congrArg (Prod.mk (Except.ok ())) (withToken_foldl_enqueueChat
          { session.onOutbox (·.tick) with automation := automation } token chats).symm

theorem withToken_handleMessage (message : IrcMessage) :
    (session.withToken token).handleMessage message = both token (session.handleMessage message) := by
  have handled := handle_withToken session.protocol token message
  have plain := @handle_notPass session.protocol token message
  unfold handleMessage
  rw [show (session.withToken token).protocol = session.protocol.withToken token from rfl, handled]
  cases answered : session.protocol.handle message with
  | mk answer protocol =>
    cases answer with
    | error what => rfl
    | ok actions =>
      have applied := withToken_applyUntilClosed { session with protocol := protocol } token
        (plain (by rw [answered]))
      dsimp only
      rw [show ({ session.withToken token with protocol := protocol.withToken token } : Session) =
        ({ session with protocol := protocol } : Session).withToken token from rfl, applied]
      cases { session with protocol := protocol }.applyUntilClosed actions with
      | mk stopped session =>
        cases stopped with
        | true => rfl
        | false => exact withToken_respond session token message

theorem withToken_handleLine (line : Bytes) :
    (session.withToken token).handleLine line = both token (session.handleLine line) := by
  unfold handleLine
  cases parseIrcMessage line with
  | error what => rfl
  | ok message => exact withToken_handleMessage session token message

theorem withToken_handleLines (lines : List Bytes) :
    (session.withToken token).handleLines lines = both token (session.handleLines lines) := by
  induction lines generalizing session with
  | nil => rfl
  | cons line lines ih =>
    simp only [handleLines, withToken_handleLine session token line]
    cases session.handleLine line with
    | mk answer session =>
      cases answer with
      | error what => rfl
      | ok _ =>
        simp only [both]
        rw [show (session.withToken token).closed = session.closed from rfl]
        split
        · rfl
        · exact ih session

theorem withToken_receive (data : Bytes) :
    (session.withToken token).receive data = both token (session.receive data) := by
  unfold receive
  rw [show (session.withToken token).assembler = session.assembler from rfl]
  cases session.assembler.push data with
  | mk pushed assembler =>
    cases pushed with
    | error what => rfl
    | ok lines => exact withToken_handleLines { session with assembler := assembler } token lines

theorem withToken_read : session.read.withToken token = (session.withToken token).read := by
  unfold read
  rw [show (session.withToken token).closed = session.closed from rfl]
  split
  · rfl
  · exact withToken_launch session token .read

theorem withToken_startAuthTimeout :
    session.startAuthTimeout.withToken token = (session.withToken token).startAuthTimeout := by
  rw [startAuthTimeout, withToken_launch, withToken_cancelAuth]
  rfl

section Login

variable {session token}
variable {config : RuntimeConfig} (valid : config.Valid) (validThen : (config.withToken token).Valid)
variable (same : session.protocol.config = config)
include valid validThen same

theorem withToken_login : session.login.withToken token = (session.withToken token).login := by
  obtain ⟨actions, begun, begunThen⟩ := begin_withToken session.protocol token valid validThen same
  unfold login
  rw [show (session.withToken token).protocol = session.protocol.withToken token from rfl, begunThen]
  cases answered : session.protocol.begin with
  | mk answer protocol =>
    rw [answered] at begun
    cases begun
    dsimp only
    rw [withToken_read, withToken_startAuthTimeout, withToken_foldl_applyAction]
    rfl

theorem withToken_onHandshake (outcome : Outcome) :
    (session.onHandshake outcome).withToken token = (session.withToken token).onHandshake outcome := by
  cases outcome with
  | failure what => exact withToken_finish session token _ _
  | success data => exact withToken_login valid validThen same

end Login

theorem withToken_onResolve (outcome : Outcome) :
    (session.onResolve outcome).withToken token = (session.withToken token).onResolve outcome := by
  cases outcome with
  | failure what => exact withToken_finish session token _ _
  | success data => exact withToken_launch session token .connect

theorem withToken_onConnect (outcome : Outcome) :
    (session.onConnect outcome).withToken token = (session.withToken token).onConnect outcome := by
  cases outcome with
  | failure what => exact withToken_finish session token _ _
  | success data =>
    unfold onConnect handshake
    rw [show (session.withToken token).sniConfigured = session.sniConfigured from rfl]
    dsimp only
    split
    · exact withToken_launch session token .handshake
    · exact withToken_finish session token _ _

theorem withToken_onAuthTimer (outcome : Outcome) :
    (session.onAuthTimer outcome).withToken token = (session.withToken token).onAuthTimer outcome := by
  cases outcome with
  | failure what => rfl
  | success data =>
    unfold onAuthTimer
    rw [show (session.withToken token).protocol.ready = session.protocol.ready from rfl]
    dsimp only
    split
    · rfl
    · exact withToken_finish session token _ _

theorem withToken_onRead (outcome : Outcome) :
    (session.onRead outcome).withToken token = (session.withToken token).onRead outcome := by
  cases outcome with
  | failure what => exact withToken_finish session token _ _
  | success data =>
    unfold onRead
    dsimp only
    rw [withToken_receive]
    cases session.receive data with
    | mk answer session =>
      cases answer with
      | error what => exact withToken_finish session token _ _
      | ok stopped =>
        cases stopped with
        | true => rfl
        | false => exact withToken_read session token

section Step

variable {session token}
variable {config : RuntimeConfig} (valid : config.Valid) (validThen : (config.withToken token).Valid)
variable (same : session.protocol.config = config)
include valid validThen same

theorem withToken_dispatch (operation : Operation) (outcome : Outcome) :
    (session.dispatch operation outcome).withToken token =
      (session.withToken token).dispatch (operation.relabel (retoken token)) outcome := by
  cases operation with
  | resolve => exact withToken_onResolve session token outcome
  | connect => exact withToken_onConnect session token outcome
  | handshake => exact withToken_onHandshake valid validThen same outcome
  | authWait deadline => exact withToken_onAuthTimer session token outcome
  | read => exact withToken_onRead session token outcome
  | writeWait deadline =>
    exact @withToken_onOutbox session token (·.onWriteTimer outcome) (·.onWriteTimer outcome)
      (relabel_onWriteTimer _ _ outcome)
  | write data =>
    exact @withToken_onOutbox session token (·.onWrite outcome) (·.onWrite outcome) (relabel_onWrite _ _ outcome)

theorem withToken_deliver (index : Nat) :
    (session.deliver index).withToken token = (session.withToken token).deliver index := by
  unfold deliver
  rw [show (session.withToken token).io = session.io.relabel (Operation.relabel (retoken token)) from rfl,
    IoContext.take_relabel]
  cases session.io.take index with
  | none => rfl
  | some taken => exact @withToken_dispatch { session with io := taken.2 } token config valid validThen same _ _

/-- Each step of a session goes the same way with another token. -/
theorem withToken_step {event : SessionEvent} (own : ∀ message, event ≠ .enqueue message) :
    (session.step event).withToken token = (session.withToken token).step event := by
  cases event with
  | complete index outcome =>
    have at_ : (session.withToken token).io.outstanding[index]? =
        session.io.outstanding[index]?.map (Operation.relabel (retoken token)) := List.getElem?_map
    unfold step complete
    dsimp only
    rw [at_]
    cases session.io.outstanding[index]? with
    | none => rfl
    | some operation =>
      simp only [Option.map_some, Operation.relabel_completesWith]
      rw [show (session.withToken token).now = session.now from rfl]
      split
      · simp only [withToken, onOutbox, relabel, IoContext.relabel_complete]
      · rfl
  | deliver index => exact withToken_deliver valid validThen same index
  | enqueue message => exact absurd rfl (own message)
  | stop => exact withToken_finish session token _ _

end Step

end Session

/-- A client that was given another token. -/
def Client.withToken (client : Client) (token : Bytes) : Client :=
  { client with
    config := client.config.withToken token
    sessions := client.sessions.map (·.withToken token)
    trace := client.trace.map (fun entry => (entry.1, entry.2.relabel (retoken token))) }

namespace Client

variable (client : Client) (token : Bytes)

theorem withToken_scheduleConnection (delay : Time) :
    (client.scheduleConnection delay).withToken token = (client.withToken token).scheduleConnection delay := by
  unfold scheduleConnection
  rw [show (client.withToken token).stopping = client.stopping from rfl]
  split <;> rfl

theorem withToken_handleSessionEnd (reason : SessionEndReason) :
    (client.handleSessionEnd reason).withToken token = (client.withToken token).handleSessionEnd reason := by
  unfold handleSessionEnd
  rw [show (client.withToken token).stopping = client.stopping from rfl]
  dsimp only
  split_ifs
  · rfl
  · rfl
  · exact withToken_scheduleConnection _ token _

theorem withToken_react (effect : Effect) :
    (client.react effect).withToken token = (client.withToken token).react (effect.relabel (retoken token)) := by
  cases effect with
  | ended reason message => exact client.withToken_handleSessionEnd token reason
  | _ => rfl

theorem withToken_reacts (effects : List Effect) : (effects.foldl react client).withToken token =
    (effects.map (·.relabel (retoken token))).foldl react (client.withToken token) := by
  induction effects generalizing client with
  | nil => rfl
  | cons effect effects ih => rw [List.foldl_cons, ih, withToken_react, List.map_cons, List.foldl_cons]

theorem withToken_runSession (index : Nat) (act act' : Session → Session)
    (same : ∀ session ∈ client.sessions,
      (act (client.plugged session)).withToken token = act' ((client.plugged session).withToken token)) :
    (client.runSession index act).withToken token = (client.withToken token).runSession index act' := by
  have at_ : (client.withToken token).sessions[index]? = client.sessions[index]?.map (·.withToken token) :=
    List.getElem?_map
  unfold runSession
  rw [at_]
  cases found : client.sessions[index]? with
  | none => rfl
  | some session =>
    have acted := same session (List.mem_of_getElem? found)
    have effects : ((act (client.plugged session)).withToken token).trace.drop (session.withToken token).trace.length =
        ((act (client.plugged session)).trace.drop session.trace.length).map (·.relabel (retoken token)) := by
      rw [List.map_drop, show (session.withToken token).trace.length = session.trace.length from List.length_map _]
      rfl
    dsimp only [Option.map_some]
    rw [withToken_reacts]
    rw [show ({ session.withToken token with
        limiter := (client.withToken token).limiter, clock := (client.withToken token).clock } : Session) =
      (client.plugged session).withToken token from rfl, ← acted, effects]
    simp only [withToken, List.map_set, List.map_append, List.map_map, Function.comp_def]
    rfl

theorem withToken_connect : client.connect.withToken token = (client.withToken token).connect := by
  have length : (client.withToken token).sessions.length = client.sessions.length := List.length_map _
  have more : (client.withToken token).sessions ++ [Session.new (client.withToken token).config
      (client.withToken token).limiter (client.withToken token).clock (client.withToken token).sniConfigured] =
      (client.sessions ++ [Session.new client.config client.limiter client.clock client.sniConfigured]).map
        (·.withToken token) := by
    rw [List.map_append]
    rfl
  unfold connect
  dsimp only
  rw [length, more]
  exact withToken_runSession _ token _ Session.start Session.start
    (fun session _ => Session.withToken_launch _ token .resolve)

theorem stop_idle {client : Client} (running : client.stopping = false) (idle : client.session = none) :
    client.stop = cancelTimer { client with stopping := true } := by
  rcases client.stop_cases with ⟨stopping, _⟩ | ⟨_, ⟨_, stopped⟩ | ⟨_, isLive, _⟩⟩
  · cases running.symm.trans stopping
  · exact stopped
  · cases idle.symm.trans isLive

theorem stop_live {client : Client} (running : client.stopping = false) {index : Nat}
    (isLive : client.session = some index) : client.stop =
      { (cancelTimer { client with stopping := true }).runSession index Session.stop with session := none } := by
  rcases client.stop_cases with ⟨stopping, _⟩ | ⟨_, ⟨idle, _⟩ | ⟨_, same, stopped⟩⟩
  · cases running.symm.trans stopping
  · cases isLive.symm.trans idle
  · cases isLive.symm.trans same
    exact stopped

theorem withToken_stop : client.stop.withToken token = (client.withToken token).stop := by
  cases stopping : client.stopping with
  | true => rw [stop, if_pos stopping, stop, if_pos (show (client.withToken token).stopping = true from stopping)]
  | false =>
    have running : (client.withToken token).stopping = false := stopping
    cases isLive : client.session with
    | none =>
      rw [stop_idle stopping isLive, stop_idle running (show (client.withToken token).session = none from isLive)]
      rfl
    | some index =>
      have stopped := withToken_runSession (cancelTimer { client with stopping := true }) token index Session.stop
        Session.stop (fun session _ => Session.withToken_finish _ token .stopped (bytes "Stopped"))
      rw [stop_live stopping isLive, stop_live running (show (client.withToken token).session = some index from isLive)]
      exact congrArg (fun next : Client => { next with session := none }) stopped

theorem withToken_timerExpires (index : Nat) :
    (client.timerExpires index).withToken token = (client.withToken token).timerExpires index := by
  unfold timerExpires
  rw [show (client.withToken token).reconnectTimer = client.reconnectTimer from rfl]
  cases client.reconnectTimer.outstanding[index]? with
  | none => rfl
  | some deadline =>
    dsimp only
    rw [show (client.withToken token).now = client.now from rfl]
    split <;> rfl

theorem withToken_timerHandler (index : Nat) :
    (client.timerHandler index).withToken token = (client.withToken token).timerHandler index := by
  unfold timerHandler
  rw [show (client.withToken token).reconnectTimer = client.reconnectTimer from rfl]
  cases client.reconnectTimer.take index with
  | none => rfl
  | some taken =>
    obtain ⟨⟨deadline, outcome⟩, timer⟩ := taken
    cases outcome with
    | failure what => rfl
    | success data =>
      unfold onReconnectTimer
      dsimp only
      rw [show ({ client.withToken token with reconnectTimer := timer } : Client).stopping = client.stopping from rfl]
      split
      · rfl
      · exact withToken_connect { client with reconnectTimer := timer } token

variable {client token}
variable {config : RuntimeConfig}

theorem withToken_step (valid : config.Valid) (validThen : (config.withToken token).Valid)
    (contains : client.Contains config) {event : ClientEvent}
    (own : ∀ session message, event ≠ .enqueue session message) :
    (client.step event).withToken token = (client.withToken token).step event := by
  have same {session : Session} (member : session ∈ client.sessions) :
      (client.plugged session).protocol.config = config := (contains.sessions session member).configured.config_eq
  unfold step
  rw [show (client.withToken token).ioStopped = client.ioStopped from rfl]
  split
  · rfl
  · cases event with
    | complete place index outcome =>
      exact withToken_runSession client token place (·.step (.complete index outcome))
        (·.step (.complete index outcome))
        (fun session member => Session.withToken_step valid validThen (same member) (by simp))
    | deliver place index =>
      exact withToken_runSession client token place (·.step (.deliver index)) (·.step (.deliver index))
        (fun session member => Session.withToken_step valid validThen (same member) (by simp))
    | enqueue place message => exact absurd rfl (own place message)
    | timerExpires index => exact client.withToken_timerExpires token index
    | timerHandler index => exact client.withToken_timerHandler token index
    | stop => exact client.withToken_stop token

theorem withToken_after (valid : config.Valid) (validThen : (config.withToken token).Valid)
    (contains : client.Contains config) {events : List ClientEvent} (own : OwnEvents events) :
    (client.after events).withToken token = (client.withToken token).after events := by
  induction events generalizing client with
  | nil => rfl
  | cons event events ih =>
    have stepped : (client.step event).withToken token = (client.withToken token).step event :=
      withToken_step valid validThen contains (fun session message same => own session message (by simp [same]))
    have rest := ih ((contains_kept valid).step contains event)
      (fun session message member => own session message (by simp [member]))
    exact rest.trans (congrArg (after · events) stepped)

end Client

/-- The token decides nothing: a client that was given another token, and meets
the same events at the same times, does the same at every step, down to its
timers, its queues and its exit code. Only the line `PASS` of a login differs. -/
theorem token_only_in_pass {parseJson parseJson' : JsonParser} {environment environment' : Environment}
    {botJson botJson' : Bytes} {config : RuntimeConfig} {token : Bytes}
    (accepted : parseRuntimeConfig parseJson environment botJson = .ok config)
    (acceptedThen : parseRuntimeConfig parseJson' environment' botJson' = .ok (config.withToken token))
    (sniConfigured : Bool) (clock : Nat → Time) (random : Nat → Fin 501) {events : List ClientEvent}
    (own : OwnEvents events) :
    (Client.start { config := config.withToken token, sniConfigured, clock, random }).after events =
      ((Client.start { config, sniConfigured, clock, random }).after events).withToken token := by
  have starts := Client.Contains.start config sniConfigured clock random
  exact (Client.withToken_after (parseRuntimeConfig_ok accepted) (parseRuntimeConfig_ok acceptedThen) starts own).symm

def otherToken : Bytes := bytes "oauth:another_test_token_value"

/-- The client behind a login and a `PING` with this configuration. -/
def pinged (config : RuntimeConfig) : Client :=
  (Client.start { config, clock := fun n => n, random := fun _ => Fin.last 500 }).after
    (openingEvents (bytes "PING :x\r\n"))

theorem token_only_in_pass_ping :
    pinged (validConfig.withToken otherToken) = (pinged validConfig).withToken otherToken :=
  token_only_in_pass validConfig_accepted (show parseRuntimeConfig parseEmptyObject
    (validEnvironment.insert (bytes "TWITCH_OAUTH_TOKEN") otherToken) (bytes "{}") = _ by decide +kernel) true
    (fun n => n) (fun _ => Fin.last 500) (by simp [OwnEvents, openingEvents])

end TwitchBot
