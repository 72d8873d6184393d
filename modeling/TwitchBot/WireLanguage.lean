import TwitchBot.ClientConversations
import TwitchBot.Replies

namespace TwitchBot

open Framing Outbox SessionProtocol

/-- A command with parameters, as the server reads a line of the client. -/
def IrcMessage.request (command : String) (parameters : List Bytes) : IrcMessage := ⟨∅, [], bytes command, parameters⟩

/-- Everything that a client with this configuration can ask of the server. -/
inductive Request (config : RuntimeConfig) : OutboundKind → IrcMessage → Prop
  | pass : Request config .system (.request "PASS" [config.oauthToken])
  | nick : Request config .system (.request "NICK" [config.username])
  | cap : Request config .system (.request "CAP" [bytes "REQ", capabilityList])
  | pong (payload : Bytes) : Request config .system (.request "PONG" [payload])
  | join {channel : Bytes} (configured : channel ∈ config.channels) :
    Request config .join (.request "JOIN" [hashSign :: channel])
  | privmsg {channel text : Bytes} (login : LoginName channel) (configured : text ∈ configuredTexts config.bot) :
    Request config .chat (.request "PRIVMSG" [hashSign :: channel, text])

/-- One line with one request, in at most 512 bytes. -/
def Utters (config : RuntimeConfig) (kind : OutboundKind) (data : Bytes) : Prop :=
  ∃ line message, data = line ++ crlf ∧ line.length ≤ maxOutgoingPayloadBytes ∧
    parseIrcMessage line = .ok message ∧ Request config kind message

namespace Utters

variable {config : RuntimeConfig} {kind : OutboundKind}

theorem of_speaks {line data : Bytes} {command : String} {parameters : List Bytes}
    (encoded : encodeIrcLine line = .ok data) (speaks : Speaks data command parameters)
    (request : Request config kind (.request command parameters)) : Utters config kind data := by
  obtain ⟨_, _, _, short, rfl⟩ := encodeIrcLine_ok_iff.mp encoded
  obtain ⟨wire, same, parsed⟩ := speaks
  obtain rfl := List.append_cancel_right same
  exact ⟨line, _, rfl, short, parsed, request⟩

theorem of_sent {line channel : Bytes} {command : String} {parameters : List Bytes} {action : ProtocolAction}
    (sent : sendAction kind channel line = .ok action)
    (speaks : ∀ data, encodeIrcLine line = .ok data → Speaks data command parameters)
    (request : Request config kind (.request command parameters)) :
    Utters config action.outboundKind action.data := by
  obtain ⟨data, encoded, sent⟩ := ExceptRun.bind_eq_ok.mp sent
  cases Except.ok.inj sent
  exact of_speaks encoded (speaks data encoded) request

end Utters

theorem begin_utters {config : RuntimeConfig} (valid : config.Valid) {protocol : SessionProtocol}
    (same : protocol.config = config) :
    ∀ action ∈ returnedActions protocol.begin.1, Utters config action.outboundKind action.data := by
  obtain ⟨token, written, _, short, plain⟩ := valid.oauthToken
  obtain ⟨pass, passSpoken⟩ := speaks_pass short plain
  obtain ⟨nick, nickSpoken⟩ := speaks_nick valid.username
  obtain ⟨cap, capSpoken⟩ := speaks_cap
  rw [← written] at pass passSpoken
  rw [begin_greets valid same]
  split
  · simp [returnedActions, Except.toOption]
  · intro action member
    change action ∈ [_, _, _] at member
    simp only [List.mem_cons, List.not_mem_nil, or_false] at member
    rcases member with rfl | rfl | rfl
    · exact .of_speaks pass passSpoken .pass
    · exact .of_speaks nick nickSpoken .nick
    · exact .of_speaks cap capSpoken .cap

theorem handle_utters {config : RuntimeConfig} (valid : config.Valid) {protocol : SessionProtocol}
    (same : protocol.config = config) (message : IrcMessage) :
    ∀ action ∈ returnedActions (protocol.handle message).1, action.kind = .send →
      Utters config action.outboundKind action.data := by
  intro action member isSend
  rcases handle_sends member isSend with ⟨payload, _, _, _, sent⟩ | ⟨channel, configured, sent⟩
  · refine .of_sent sent (fun data encoded => ?_) (.pong payload)
    obtain ⟨_, noCr, noLf, short, _⟩ := encodeIrcLine_ok_iff.mp encoded
    have length : (bytes "PONG :").length = 6 := by decide
    simp only [List.length_append, length, maxOutgoingPayloadBytes] at short
    have within : payload.length ≤ 504 := by omega
    obtain ⟨same, speaks⟩ := speaks_pong within
      ⟨fun inside => noCr (List.mem_append_right _ inside), fun inside => noLf (List.mem_append_right _ inside)⟩
    cases Except.ok.inj (same.symm.trans encoded)
    exact speaks
  · rw [same] at configured
    obtain ⟨encoded, speaks⟩ := speaks_join (valid.channels channel configured)
    refine .of_sent sent (fun data encodedThen => ?_) (.join configured)
    cases Except.ok.inj (encoded.symm.trans encodedThen)
    exact speaks

/-- Whatever is called, the protocol object sends nothing but requests. -/
theorem actions_utter {config : RuntimeConfig} (valid : config.Valid) (calls : List ProtocolCall) :
    ∀ action ∈ SessionProtocol.actions { config } calls, action.kind = .send →
      Utters config action.outboundKind action.data := by
  induction calls using List.reverseRecOn with
  | nil =>
    intro action none
    cases none
  | append_singleton calls call ih =>
    intro action member isSend
    rw [SessionProtocol.actions_append] at member
    rcases List.mem_append.mp member with earlier | new
    · exact ih action earlier isSend
    · have same := (gated_after config calls).config
      cases call with
      | begin => exact begin_utters valid same action new
      | handle message => exact handle_utters valid same message action new isSend

theorem encoded_of_makePrivmsg {channel text data : Bytes} (made : makePrivmsg channel text = .ok data) :
    ∃ line, encodeIrcLine line = .ok data := by
  unfold makePrivmsg at made
  split at made
  · cases made
  · exact ⟨_, made⟩

theorem AutomationEngine.trace_proper {settings : BotSettings} (valid : settings.Valid) (heard : List TimedMessage) :
    ∀ entry ∈ Transducer.trace AutomationEngine.step (.new settings) heard, ∀ chat ∈ entry.2, Proper settings chat := by
  refine Transducer.trace_keeps (AutomationEngine.Sound settings) (fun _ chat => Proper settings chat)
    (fun engine input sound => ?_) (AutomationEngine.new_sound valid) heard
  obtain ⟨⟨output, answered, proper⟩, kept⟩ := AutomationEngine.handle_sound sound input.1 input.2
  refine ⟨fun chat inside => proper chat ?_, kept⟩
  simpa [AutomationEngine.step, answered, Except.toOption] using inside

/-- What is offered as chat was said in answer to something heard. -/
theorem said_member {engine : AutomationEngine} {heard : List TimedMessage} {offer : Offer}
    (member : offer ∈ said engine heard) :
    ∃ entry ∈ Transducer.trace AutomationEngine.step engine heard, ∃ chat ∈ entry.2, chat.offer = some offer := by
  obtain ⟨entry, answered, inside⟩ := List.mem_flatMap.mp member
  obtain ⟨chat, said, same⟩ := List.mem_filterMap.mp inside
  exact ⟨entry, answered, chat, said, same⟩

theorem offer_utters {config : RuntimeConfig} (valid : config.Valid) {heard : List TimedMessage} {offer : Offer}
    (member : offer ∈ said (.new config.bot) heard) : Utters config .chat offer.1 := by
  obtain ⟨entry, answered, chat, inside, same⟩ := said_member member
  have proper := AutomationEngine.trace_proper valid.bot heard entry answered chat inside
  obtain ⟨data, made, speaks⟩ := proper.spoken valid.bot
  obtain ⟨line, encoded⟩ := encoded_of_makePrivmsg made
  rw [ScheduledChatMessage.offer, made] at same
  cases Option.some.inj same
  exact .of_speaks encoded speaks (.privmsg proper.1 proper.2)

theorem mem_acceptedMessages {trace : List Effect} {message : OutboundMessage} :
    message ∈ acceptedMessages trace ↔ .accepted message ∈ trace := by
  refine List.mem_filterMap.trans ⟨?_, fun traced => ⟨_, traced, rfl⟩⟩
  rintro ⟨effect, traced, same⟩
  cases effect with
  | accepted other => rwa [← Option.some.inj same]
  | _ => cases same

namespace Conversant

variable {config : RuntimeConfig} {stream : Bytes} {session : Session}

/-- The queue of a session has accepted nothing but requests. -/
theorem accepted_utters (valid : config.Valid) (conversant : Conversant config past session)
    {message : OutboundMessage} (accepted : message ∈ acceptedMessages session.trace) :
    Utters config message.kind message.wireData := by
  have traced := mem_acceptedMessages.mp accepted
  obtain ⟨heard, listens⟩ := conversant.listens
  by_cases chat : message.kind = .chat
  · have offered : (message.wireData, message.channel, message.due) ∈ offers session.trace :=
      List.mem_filterMap.mpr ⟨_, traced, if_pos chat⟩
    rw [listens.offered] at offered
    rw [chat]
    exact offer_utters valid offered
  · have output : .line message.kind message.wireData ∈ outputs session.trace :=
      List.mem_filterMap.mpr ⟨_, traced, if_neg chat⟩
    obtain ⟨action, returned, read⟩ := List.mem_filterMap.mp (listens.wasRequested output)
    cases kind : action.kind with
    | send =>
      have utters := actions_utter valid (loginRun (messagesIn (bytesReceived past))) action returned kind
      simp only [ProtocolAction.output, kind] at read
      split at read
      · cases read
      · obtain ⟨sameKind, sameData⟩ := Output.line.injEq _ _ _ _ ▸ Option.some.inj read
        rwa [← sameKind, ← sameData]
    | ready => simp [ProtocolAction.output, kind] at read
    | reconnect => simp [ProtocolAction.output, kind] at read
    | fatal => simp [ProtocolAction.output, kind] at read

/-- Every write that was started hands over an accepted message. -/
theorem started_accepted (conversant : Conversant config past session) {message : OutboundMessage}
    (started : message ∈ startedMessages session.trace) : message ∈ acceptedMessages session.trace := by
  rw [conversant.inOrder.started] at started
  refine conversant.inOrder.accounted.conserved.mem_iff.mpr ?_
  rw [List.append_assoc]
  exact List.mem_append_right _ (List.perm_append_comm.mem_iff.mp started)

theorem written (conversant : Conversant config past session) :
    startedWrites session.trace = (startedMessages session.trace).map (·.wireData) := by
  rw [conversant.inOrder.accounted.handed, conversant.inOrder.started]

end Conversant

/-- Writes that are requests are lines. -/
theorem lines_of_utters {config : RuntimeConfig} {writes : List Bytes}
    (utters : ∀ data ∈ writes, ∃ kind, Utters config kind data) :
    ∃ lines : List Bytes, writes = lines.map (· ++ crlf) ∧ ∀ line ∈ lines, line.length ≤ maxOutgoingPayloadBytes ∧
      ∃ kind message, parseIrcMessage line = .ok message ∧ Request config kind message := by
  induction writes with
  | nil => exact ⟨[], rfl, by simp⟩
  | cons data writes ih =>
    obtain ⟨⟨kind, line, message, rfl, short, parsed, request⟩, others⟩ := List.forall_mem_cons.mp utters
    obtain ⟨lines, same, each⟩ := ih others
    refine ⟨line :: lines, by rw [same, List.map_cons], fun other member => ?_⟩
    rcases List.mem_cons.mp member with rfl | later
    · exact ⟨short, kind, message, parsed, request⟩
    · exact each other later

/-- A server that splits what a session writes into lines reads requests and
nothing else: whatever was received, each line is one request of at most 512
bytes for what the configuration permits. -/
theorem client_requests {parseJson : JsonParser} {environment : Environment} {botJson : Bytes}
    {config : RuntimeConfig} (accepted : parseRuntimeConfig parseJson environment botJson = .ok config)
    (sniConfigured : Bool) {clock : Nat → Time} (monotone : MonotoneClock clock) (random : Nat → Fin 501)
    {events : List ClientEvent} (own : OwnEvents events) {place : Nat} {session : Session}
    (found : ((Client.start { config, sniConfigured, clock, random }).after events).sessions[place]? = some session) :
    ∃ lines, frames cr lf (startedWrites session.trace).flatten = (lines, []) ∧
      ∀ line ∈ lines, line.length ≤ maxOutgoingPayloadBytes ∧
        ∃ kind message, parseIrcMessage line = .ok message ∧ Request config kind message := by
  have valid := parseRuntimeConfig_ok accepted
  have conversant := client_conversant valid sniConfigured monotone random own found
  have utters : ∀ data ∈ startedWrites session.trace, ∃ kind, Utters config kind data := by
    intro data written
    rw [conversant.written] at written
    obtain ⟨message, started, rfl⟩ := List.mem_map.mp written
    exact ⟨message.kind, conversant.accepted_utters valid (conversant.started_accepted started)⟩
  obtain ⟨lines, same, each⟩ := lines_of_utters utters
  refine ⟨lines, ?_, each⟩
  rw [same]
  refine frames_join (fun line inside => ?_)
  obtain ⟨_, kind, message, parsed, _⟩ := each line inside
  exact (parseIrcMessage_sound parsed).2.2.2.1

/-- The events of a client whose first session logs in and reads a line. -/
def openingEvents (line : Bytes) : List ClientEvent :=
  [.timerExpires 0, .timerHandler 0, .complete 0 0 (.success []), .deliver 0 0, .complete 0 0 (.success []),
    .deliver 0 0, .complete 0 0 (.success []), .deliver 0 0, .complete 0 2 (.success line), .deliver 0 0]

/-- A client that was just started. -/
def freshClient : Client := Client.start { config := validConfig, clock := fun n => n, random := fun _ => Fin.last 500 }

/-- The client behind these events. -/
def loggedIn (line : Bytes) : Client := freshClient.after (openingEvents line)

/-- An event of the first session of a client. -/
def SessionEvent.ofFirst : SessionEvent → ClientEvent
  | .complete index outcome => .complete 0 index outcome
  | .deliver index => .deliver 0 index
  | .enqueue message => .enqueue 0 message
  | .stop => .stop

/-- The events of a client whose first session goes through some events. -/
def firstEvents (events : List SessionEvent) : List ClientEvent :=
  [.timerExpires 0, .timerHandler 0] ++ events.map SessionEvent.ofFirst

/-- A client whose rule answers, just started. -/
def chattyClient (clock : Nat → Time) : Client :=
  Client.start { config := chattyConfig, clock, random := fun _ => Fin.last 500 }

theorem client_requests_ping :
    ∃ session, (loggedIn (bytes "PING :x\r\n")).sessions[0]? = some session ∧
      ∃ lines, frames cr lf (startedWrites session.trace).flatten = (lines, []) ∧
        ∀ line ∈ lines, line.length ≤ maxOutgoingPayloadBytes ∧
          ∃ kind message, parseIrcMessage line = .ok message ∧ Request validConfig kind message := by
  obtain ⟨session, found⟩ : ∃ session, (loggedIn (bytes "PING :x\r\n")).sessions[0]? = some session :=
    Option.isSome_iff_exists.mp (by decide +kernel)
  exact ⟨session, found, client_requests validConfig_accepted true steadyClock (fun _ => Fin.last 500)
    (by simp [OwnEvents, openingEvents]) found⟩

end TwitchBot
