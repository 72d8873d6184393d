import TwitchBot.ProtocolDrivers
import TwitchBot.WireLanguage

namespace TwitchBot

open IrcStreamAssembler Outbox SessionProtocol

theorem ready_earned {config : RuntimeConfig} {messages : List IrcMessage}
    (ready : (SessionProtocol.after { config } (loginRun messages)).ready = true) :
    Authenticated (loginRun messages) ∧ AllRequired (acknowledgedBy (loginRun messages)) := by
  have gated := gated_after config (loginRun messages)
  obtain ⟨authenticated, complete⟩ := gated.ready_complete (by simpa [SessionProtocol.ready] using ready)
  exact ⟨gated.authenticated.mp authenticated, gated.acknowledged ▸ complete⟩

/-- Whatever is admitted, the object was ready when it had handled it. -/
theorem admitted_ready {protocol : SessionProtocol} {messages : List IrcMessage}
    (some : admitted protocol messages ≠ []) :
    ∃ earlier, earlier <+: messages ∧ (protocol.after (earlier.map .handle)).ready = true := by
  induction messages generalizing protocol with
  | nil => exact absurd rfl some
  | cons message messages ih =>
    cases ready : (protocol.handle message).2.ready with
    | true => exact ⟨[message], ⟨messages, rfl⟩, ready⟩
    | false =>
      rw [admitted, if_neg (by simp [ready])] at some
      obtain ⟨earlier, within, isReady⟩ := ih some
      exact ⟨message :: earlier, (List.prefix_cons_inj message).mpr within, isReady⟩

/-- Whenever a JOIN is requested, the object was ready at some time. -/
theorem requested_ready {config : RuntimeConfig} {messages : List IrcMessage} {data : Bytes}
    (member : .line .join data ∈ requestsOf config messages) :
    ∃ earlier, earlier <+: messages ∧ (SessionProtocol.after { config } (loginRun earlier)).ready = true := by
  obtain ⟨action, returned, read⟩ := List.mem_filterMap.mp member
  have isJoin : IsJoin action := by
    cases kind : action.kind <;> simp_all [ProtocolAction.output, IsJoin]
  by_contra unready
  push Not at unready
  refine (actions_of_never_ready (fun before within => ?_) action returned).2 isJoin
  rcases List.prefix_cons_iff.mp within with rfl | ⟨rest, rfl, inside⟩
  · rfl
  · obtain ⟨earlier, earlierWithin, rfl⟩ := List.prefix_map_iff.mp inside
    exact Bool.not_eq_true _ ▸ unready earlier earlierWithin

namespace Listens

variable {config : RuntimeConfig} {stream : Bytes} {heard : List TimedMessage} {session : Session}

/-- Nothing but the login and answers to `PING` is enqueued before the stream
has accepted the login and acknowledged all capabilities. -/
theorem earned (listens : Listens config stream heard session) {message : OutboundMessage}
    (accepted : message ∈ acceptedMessages session.trace) (gated : message.kind ≠ .system) :
    ∃ messages, messages <+: messagesIn stream ∧ Authenticated (loginRun messages) ∧
      AllRequired (acknowledgedBy (loginRun messages)) := by
  have traced := mem_acceptedMessages.mp accepted
  suffices isReady : ∃ earlier, earlier <+: messagesIn stream ∧
      (SessionProtocol.after { config } (loginRun earlier)).ready = true by
    obtain ⟨messages, within, ready⟩ := isReady
    exact ⟨messages, within, ready_earned ready⟩
  cases kind : message.kind with
  | system => exact absurd kind gated
  | join =>
    have output : .line .join message.wireData ∈ outputs session.trace :=
      List.mem_filterMap.mpr ⟨_, traced, by simp [Effect.output, kind]⟩
    exact requested_ready (listens.wasRequested output)
  | chat =>
    have offered : (message.wireData, message.channel, message.due) ∈ offers session.trace :=
      List.mem_filterMap.mpr ⟨_, traced, if_pos kind⟩
    have spoken : heard ≠ [] := by
      rintro rfl
      rw [listens.offered] at offered
      cases offered
    refine @admitted_ready (opened config) _ (fun none => spoken ?_)
    have inside := listens.inside
    rw [none] at inside
    exact List.map_eq_nil_iff.mp (List.prefix_nil.mp inside)

end Listens

def Output.isPong : Output → Bool
  | .ready => false
  | .line _ data => (bytes "PONG").isPrefixOf data

/-- The line that answers a message: the first parameter of a `PING`, if the line
is short enough to be sent. -/
def pong (message : IrcMessage) : Option Output :=
  match message.parameters with
  | [] => none
  | payload :: _ =>
    if message.command = bytes "PING" ∧ payload.length ≤ 504 then
      some (.line .system (bytes "PONG :" ++ payload ++ crlf))
    else none

/-- No parameter of a message breaks its line. -/
def Unbroken (message : IrcMessage) : Prop := ∀ parameter ∈ message.parameters, cr ∉ parameter ∧ lf ∉ parameter

theorem messagesIn_unbroken (stream : Bytes) : ∀ message ∈ messagesIn stream, Unbroken message := by
  intro message member parameter inside
  obtain ⟨line, _, parsed⟩ := List.mem_filterMap.mp member
  cases answer : parseIrcMessage line with
  | error what => simp [answer, Except.toOption] at parsed
  | ok other =>
    cases Option.some.inj (by simpa [answer, Except.toOption] using parsed : some other = some message)
    exact parameter_unbroken answer inside

theorem sent_output {kind : OutboundKind} {channel line : Bytes} {action : ProtocolAction}
    (sent : sendAction kind channel line = .ok action) (notChat : kind ≠ .chat) :
    action.output = some (.line kind (line ++ crlf)) := by
  obtain ⟨data, encoded, same⟩ := ExceptRun.bind_eq_ok.mp sent
  obtain ⟨_, _, _, _, rfl⟩ := encodeIrcLine_ok_iff.mp encoded
  cases Except.ok.inj same
  simp [ProtocolAction.output, notChat]

/-- Other messages than `PING` are answered by no `PONG`. -/
theorem handle_pongless {protocol : SessionProtocol} {message : IrcMessage} (other : message.command ≠ bytes "PING") :
    (requested (returnedActions (protocol.handle message).1)).filter Output.isPong = [] := by
  refine List.filter_eq_nil_iff.mpr fun output member => ?_
  obtain ⟨action, inside, same⟩ := List.mem_filterMap.mp member
  cases kind : action.kind with
  | send =>
    rcases handle_sends inside kind with ⟨_, _, ping, _⟩ | ⟨channel, _, sent⟩
    · exact absurd ping other
    · rw [sent_output sent (by simp)] at same
      cases same
      exact Bool.false_ne_true
  | ready =>
    rw [ProtocolAction.output, kind] at same
    cases same
    exact Bool.false_ne_true
  | reconnect => simp [ProtocolAction.output, kind] at same
  | fatal => simp [ProtocolAction.output, kind] at same

/-- `handle` answers a `PING` with its `PONG`, and asks for no other. -/
theorem handle_pongs (protocol : SessionProtocol) {message : IrcMessage} (unbroken : Unbroken message) :
    (requested (returnedActions (protocol.handle message).1)).filter Output.isPong = (pong message).toList := by
  by_cases ping : message.command = bytes "PING"
  · unfold pong
    cases parameters : message.parameters with
    | nil =>
      rw [SessionProtocol.handle, if_pos ping, parameters]
      rfl
    | cons payload rest =>
      have whole := unbroken payload (by simp [parameters])
      by_cases short : payload.length ≤ 504
      · rw [handle_ping ping parameters, sendAction_of_encoded (speaks_pong short whole).1]
        simp only [ping, short, and_self, if_true]
        rfl
      · rw [handle_ping_long ping parameters whole (not_le.mp short)]
        simp [short, requested, returnedActions, Except.toOption]
  · have none : pong message = none := by
      unfold pong
      split <;> simp [ping]
    rw [none]
    exact handle_pongless ping

theorem requestsTo_pongs (protocol : SessionProtocol) {messages : List IrcMessage}
    (unbroken : ∀ message ∈ messages, Unbroken message) :
    (requestsTo protocol messages).filter Output.isPong = messages.filterMap pong := by
  induction messages generalizing protocol with
  | nil => rfl
  | cons message messages ih =>
    have first : requestsTo protocol (message :: messages) =
        requested (returnedActions (protocol.handle message).1) ++ requestsTo (protocol.handle message).2 messages := by
      rw [requestsTo, List.map_cons, actions_cons, requested, List.filterMap_append]
      rfl
    obtain ⟨whole, others⟩ := List.forall_mem_cons.mp unbroken
    rw [first, List.filter_append, handle_pongs protocol whole, ih _ others]
    cases answer : pong message <;> simp [answer]

theorem requestsOf_pongs {config : RuntimeConfig} (valid : config.Valid) {messages : List IrcMessage}
    (unbroken : ∀ message ∈ messages, Unbroken message) :
    (requestsOf config messages).filter Output.isPong = messages.filterMap pong := by
  have split := requestsOf_append config [] messages
  have greeting : (requestsOf config []).filter Output.isPong = [] := by
    rw [requestsOf, loginRun, List.map_nil, actions_single, SessionProtocol.call, begin_greets valid rfl]
    rfl
  rw [List.nil_append] at split
  rw [split, List.filter_append, greeting, requestsTo_pongs _ unbroken, List.nil_append]

/-- The `PONG` lines that a session has enqueued answer the first `PING` messages of
its stream in their order, and while the session is open they answer them all. -/
theorem Listens.pongs {config : RuntimeConfig} {stream : Bytes} {heard : List TimedMessage} {session : Session}
    (valid : config.Valid) (listens : Listens config stream heard session) :
    (outputs session.trace).filter Output.isPong <+: (messagesIn stream).filterMap pong ∧
      (session.closed = false →
        (outputs session.trace).filter Output.isPong = (messagesIn stream).filterMap pong) := by
  obtain ⟨taken, late, same, inside, _⟩ := listens.followed
  have answers := requestsOf_pongs valid (messagesIn_unbroken stream)
  have few : (outputs session.trace).filter Output.isPong <+: (messagesIn stream).filterMap pong := by
    have none : (List.replicate late Output.ready).filter Output.isPong = [] := by
      simp [Output.isPong]
    rw [same, List.nil_append, List.filter_append, none, List.append_nil, ← answers]
    exact inside.filter _
  refine ⟨few, fun isOpen => ?_⟩
  by_cases reads : Operation.read ∈ stagesOf session.trace
  · rw [listens.answered isOpen reads, answers]
  · rw [listens.early reads] at few ⊢
    exact List.prefix_nil.mp few

/-- The server speaks first: whatever the interleaving, no session has enqueued a
JOIN or a chat message unless some part of the stream that it received accepts
the login and acknowledges all required capabilities. -/
theorem joins_earned {parseJson : JsonParser} {environment : Environment} {botJson : Bytes}
    {config : RuntimeConfig} (accepted : parseRuntimeConfig parseJson environment botJson = .ok config)
    (sniConfigured : Bool) {clock : Nat → Time} (monotone : MonotoneClock clock) (random : Nat → Fin 501)
    {events : List ClientEvent} (own : OwnEvents events) {place : Nat} {session : Session}
    (found : ((Client.start { config, sniConfigured, clock, random }).after events).sessions[place]? = some session) :
    ∀ message ∈ acceptedMessages session.trace, message.kind ≠ .system →
      ∃ messages, messages <+:
          messagesIn ((Client.start { config, sniConfigured, clock, random }).received place events) ∧
        Authenticated (loginRun messages) ∧ AllRequired (acknowledgedBy (loginRun messages)) := by
  intro message enqueued gated
  have conversant := client_conversant (parseRuntimeConfig_ok accepted) sniConfigured monotone random own found
  obtain ⟨heard, listens⟩ := conversant.listens
  exact listens.earned enqueued gated

/-- The lines of a server that accepts the login. -/
def welcomeLines : Bytes :=
  bytes ":s 001 example_bot :Welcome\r\n:s CAP * ACK :twitch.tv/membership twitch.tv/tags twitch.tv/commands\r\n"

theorem joins_earned_login :
    ∃ session, (loggedIn welcomeLines).sessions[0]? = some session ∧
      ∀ message ∈ acceptedMessages session.trace, message.kind ≠ .system →
        ∃ messages, messages <+: messagesIn (freshClient.received 0 (openingEvents welcomeLines)) ∧
          Authenticated (loginRun messages) ∧ AllRequired (acknowledgedBy (loginRun messages)) := by
  obtain ⟨session, found⟩ : ∃ session, (loggedIn welcomeLines).sessions[0]? = some session :=
    Option.isSome_iff_exists.mp (by decide +kernel)
  exact ⟨session, found, joins_earned validConfig_accepted true steadyClock (fun _ => Fin.last 500)
    (by simp [OwnEvents, openingEvents]) found⟩

/-- Here the queue has accepted a JOIN for each channel. -/
example : (loggedIn welcomeLines).sessions[0]?.map
    (fun session => ((acceptedMessages session.trace).filter (fun message => message.kind = .join)).length) =
      some 2 := by
  decide +kernel

/-- Every session of every run of a client answers `PING` messages as they come:
its `PONG` lines answer the first of them in order, once each, and while it is
open they answer all that it has received. -/
theorem pings_kept {parseJson : JsonParser} {environment : Environment} {botJson : Bytes}
    {config : RuntimeConfig} (accepted : parseRuntimeConfig parseJson environment botJson = .ok config)
    (sniConfigured : Bool) {clock : Nat → Time} (monotone : MonotoneClock clock) (random : Nat → Fin 501)
    {events : List ClientEvent} (own : OwnEvents events) {place : Nat} {session : Session}
    (found : ((Client.start { config, sniConfigured, clock, random }).after events).sessions[place]? = some session) :
    let pings := (messagesIn ((Client.start { config, sniConfigured, clock, random }).received place events)).filterMap
      pong
    (outputs session.trace).filter Output.isPong <+: pings ∧
      (session.closed = false → (outputs session.trace).filter Output.isPong = pings) := by
  have valid := parseRuntimeConfig_ok accepted
  obtain ⟨heard, listens⟩ := (client_conversant valid sniConfigured monotone random own found).listens
  exact listens.pongs valid

theorem pings_kept_ping :
    ∃ session, (loggedIn (bytes "PING :x\r\n")).sessions[0]? = some session ∧
      (outputs session.trace).filter Output.isPong <+:
        (messagesIn (freshClient.received 0 (openingEvents (bytes "PING :x\r\n")))).filterMap pong ∧
      (session.closed = false → (outputs session.trace).filter Output.isPong =
        (messagesIn (freshClient.received 0 (openingEvents (bytes "PING :x\r\n")))).filterMap pong) := by
  obtain ⟨session, found⟩ : ∃ session, (loggedIn (bytes "PING :x\r\n")).sessions[0]? = some session :=
    Option.isSome_iff_exists.mp (by decide +kernel)
  exact ⟨session, found, pings_kept validConfig_accepted true steadyClock (fun _ => Fin.last 500)
    (by simp [OwnEvents, openingEvents]) found⟩

end TwitchBot
