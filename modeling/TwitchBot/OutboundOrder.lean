import TwitchBot.Requests
import TwitchBot.WriteOrder

namespace TwitchBot

open Outbox SessionProtocol

def Output.data (kind : OutboundKind) : Output → Option Bytes
  | .ready => none
  | .line other data => if other = kind then some data else none

/-- What a login says first. -/
def greeting (config : RuntimeConfig) : List Bytes :=
  [bytes "PASS " ++ config.oauthToken ++ crlf, bytes "NICK " ++ config.username ++ crlf,
    bytes "CAP REQ :twitch.tv/membership twitch.tv/tags twitch.tv/commands" ++ crlf]

def joinLine (channel : Bytes) : Bytes := bytes "JOIN #" ++ channel ++ crlf

/-- The data of the writes of a kind that were started, in order. -/
def startedData (kind : OutboundKind) (trace : List Effect) : List Bytes :=
  ((startedMessages trace).filter (·.kind = kind)).map OutboundMessage.wireData

/-- Outside chat the requests that were followed are the messages that were accepted. -/
theorem acceptedData {kind : OutboundKind} (notChat : kind ≠ .chat) (trace : List Effect) :
    ((acceptedMessages trace).filter (·.kind = kind)).map OutboundMessage.wireData =
      (outputs trace).filterMap (Output.data kind) := by
  induction trace with
  | nil => rfl
  | cons effect trace ih =>
    have single : ((effect.acceptedMessage.toList).filter (·.kind = kind)).map OutboundMessage.wireData =
        effect.output.toList.filterMap (Output.data kind) := by
      cases effect with
      | accepted message =>
        by_cases same : message.kind = kind
        · simp [Effect.acceptedMessage, Effect.output, Output.data, same, notChat]
        · by_cases chat : message.kind = .chat
          · simp [Effect.acceptedMessage, Effect.output, chat, Ne.symm notChat]
          · simp [Effect.acceptedMessage, Effect.output, Output.data, same, chat]
      | _ => rfl
    have accepted : acceptedMessages (effect :: trace) = effect.acceptedMessage.toList ++ acceptedMessages trace := by
      cases message : effect.acceptedMessage <;> simp [acceptedMessages, message]
    have followed : outputs (effect :: trace) = effect.output.toList ++ outputs trace := by
      cases output : effect.output <;> simp [outputs, output]
    rw [accepted, followed, List.filter_append, List.map_append, List.filterMap_append, ih, single]

/-- A valid configuration lets `begin` request the greeting. -/
theorem begin_requested {config : RuntimeConfig} (valid : config.Valid) :
    requested (returnedActions (begin { config }).1) = (greeting config).map (.line .system) := by
  obtain ⟨token, written, _, short, plain⟩ := valid.oauthToken
  have pass := (speaks_pass short plain).1
  rw [← written] at pass
  have nick := (speaks_nick valid.username).1
  have cap := speaks_cap.1
  simp only [begin, sendAction_of_encoded pass, sendAction_of_encoded nick, sendAction_of_encoded cap]
  rfl

/-- The outputs of a session that becomes ready. -/
def readyRound (channels : List Bytes) : List Output :=
  .ready :: channels.map (fun channel => .line .join (joinLine channel))

def Output.isGate : Output → Bool
  | .ready => true
  | .line kind _ => kind = .join

theorem readyActions_requested (channels : List Bytes) :
    requested (readyAction :: channels.map joinAction) = readyRound channels := by
  have join (channel : Bytes) : (joinAction channel).output = some (.line .join (joinLine channel)) := rfl
  have ready : readyAction.output = some .ready := rfl
  simp [requested, readyRound, ready, List.filterMap_map, join]

theorem readyRound_gates (channels : List Bytes) :
    (readyRound channels).filter Output.isGate = readyRound channels := by
  rw [List.filter_eq_self]
  intro output member
  rcases List.mem_cons.mp member with rfl | join
  · rfl
  · obtain ⟨channel, _, rfl⟩ := List.mem_map.mp join
    rfl

/-- A call requests a whole round, or neither READY nor a JOIN. -/
theorem call_rounds {protocol : SessionProtocol} (names : ∀ channel ∈ protocol.config.channels, LoginName channel)
    (call : ProtocolCall) : ∃ rounds, (requested (returnedActions (protocol.call call).1)).filter Output.isGate =
      (List.replicate rounds (readyRound protocol.config.channels)).flatten := by
  rcases call_cases protocol call with system | ⟨last, terminal, ended, _⟩ | ⟨ready, _⟩
  · refine ⟨0, ?_⟩
    rw [List.replicate_zero, List.flatten_nil, List.filter_eq_nil_iff]
    intro output member gate
    obtain ⟨action, inside, same⟩ := List.mem_filterMap.mp member
    obtain ⟨isSend, isSystem⟩ := system action inside
    simp only [ProtocolAction.output, isSend, isSystem, reduceCtorEq, if_false, Option.some.injEq] at same
    rw [← same] at gate
    cases gate
  · have none : last.output = none := by
      rcases terminal with kind | kind <;> simp [ProtocolAction.output, kind]
    rw [ended]
    exact ⟨0, by simp [returnedActions, Except.toOption, requested, none]⟩
  · refine ⟨1, ?_⟩
    rw [ready, readyActions_ok names, returnedActions, Except.toOption, Option.getD_some, readyActions_requested,
      readyRound_gates]
    exact (List.append_nil _).symm

/-- Whatever is called, READY and JOINs are requested in whole rounds. -/
theorem requested_rounds {config : RuntimeConfig} (valid : config.Valid) (calls : List ProtocolCall) :
    ∃ rounds, (requested (SessionProtocol.actions { config } calls)).filter Output.isGate =
      (List.replicate rounds (readyRound config.channels)).flatten := by
  induction calls using List.reverseRecOn with
  | nil => exact ⟨0, rfl⟩
  | append_singleton calls call ih =>
    obtain ⟨earlier, before⟩ := ih
    have same := (gated_after config calls).config
    have names : ∀ channel ∈ (SessionProtocol.after { config } calls).config.channels, LoginName channel := by
      rw [same]
      exact valid.channels
    obtain ⟨later, last⟩ := call_rounds names call
    refine ⟨earlier + later, ?_⟩
    rw [actions_append, requested, List.filterMap_append, List.filter_append]
    rw [requested] at before last
    rw [before, last, same, ← List.replicate_append_replicate, List.flatten_append]

theorem rounds_mono {α : Type*} (round : List α) {less more : Nat} (le : less ≤ more) :
    (List.replicate less round).flatten <+: (List.replicate more round).flatten := by
  obtain ⟨extra, rfl⟩ := Nat.exists_eq_add_of_le le
  rw [← List.replicate_append_replicate, List.flatten_append]
  exact List.prefix_append _ _

/-- The first outputs of some rounds: the JOINs behind each READY are in the configured order. -/
theorem joins_of_rounds {channels : List Bytes} {rounds : Nat} {taken : List Output}
    (inside : taken <+: (List.replicate rounds (readyRound channels)).flatten) :
    taken.filterMap (Output.data .join) <+:
      (List.replicate (taken.count .ready) (channels.map joinLine)).flatten := by
  induction rounds generalizing taken with
  | zero =>
    cases List.prefix_nil.mp inside
    exact List.prefix_refl _
  | succ rounds ih =>
    have joins : (readyRound channels).filterMap (Output.data .join) = channels.map joinLine := by
      rw [readyRound, List.filterMap_cons_none rfl, List.filterMap_map]
      exact congrFun List.filterMap_eq_map channels
    have once : (readyRound channels).count .ready = 1 := by
      simp [readyRound, List.count_eq_zero]
    obtain ⟨rest, split⟩ := inside
    rw [List.replicate_succ, List.flatten_cons] at split
    rcases List.append_eq_append_iff.mp split with ⟨missing, whole, _⟩ | ⟨more, rfl, after⟩
    · cases taken with
      | nil => exact List.nil_prefix
      | cons first others =>
        have front : first = .ready := (List.cons.inj whole).1.symm
        have prefixed : (first :: others).filterMap (Output.data .join) <+: channels.map joinLine := by
          rw [← joins, whole, List.filterMap_append]
          exact List.prefix_append _ _
        have some : 1 ≤ (first :: others).count .ready := by simp [front]
        refine prefixed.trans (List.IsPrefix.trans ?_ (rounds_mono _ some))
        simp
    · rw [List.filterMap_append, List.count_append, joins, once, Nat.add_comm, List.replicate_succ, List.flatten_cons]
      exact (List.prefix_append_right_inj _).mpr (ih ⟨rest, after.symm⟩)

/-- The JOINs of any outputs are those of their rounds. -/
theorem joins_of_gates (taken : List Output) :
    (taken.filter Output.isGate).filterMap (Output.data .join) = taken.filterMap (Output.data .join) ∧
      (taken.filter Output.isGate).count .ready = taken.count .ready := by
  constructor
  · rw [List.filterMap_filter]
    refine List.filterMap_congr (fun output _ => ?_)
    cases output with
    | ready => rfl
    | line kind data =>
      by_cases join : kind = .join
      · simp [Output.isGate, join]
      · simp [Output.isGate, Output.data, join]
  · exact List.count_filter rfl

theorem data_of_late (kind : OutboundKind) (taken : List Output) (late : Nat) :
    (taken ++ List.replicate late Output.ready).filterMap (Output.data kind) = taken.filterMap (Output.data kind) := by
  simp [Output.data]

theorem greeting_data (config : RuntimeConfig) :
    ((greeting config).map (.line .system)).filterMap (Output.data .system) = greeting config := rfl

/-- The order of a history: writes of a kind and channel start in the order of
acceptance and due times, the greeting comes first, the JOINs behind each READY
are in the configured order, and a write is of the eligible message accepted first. -/
structure OutboundOrdered (config : RuntimeConfig) (trace : List Effect) : Prop where
  order : KeepsOrder trace
  fifo : ∀ kind, kind ≠ .chat →
    (startedMessages trace).filter (·.kind = kind) <+: (acceptedMessages trace).filter (·.kind = kind)
  greeted : ∃ rest, startedData .system trace <+: greeting config ++ rest
  joined : startedData .join trace <+:
    (List.replicate ((outputs trace).count .ready) (config.channels.map joinLine)).flatten
  choices : ChoosesFirst trace

/-- What was started outside chat is what was accepted first. -/
theorem InOrder.started_prefix {bound : Nat} {outbox : Outbox} (inOrder : InOrder bound outbox) {kind : OutboundKind}
    (notChat : kind ≠ .chat) :
    (startedMessages outbox.trace).filter (·.kind = kind) <+: (acceptedMessages outbox.trace).filter (·.kind = kind) :=
  ⟨_, inOrder.fifo kind notChat⟩

theorem InOrder.startedData_prefix {bound : Nat} {outbox : Outbox} (inOrder : InOrder bound outbox)
    {kind : OutboundKind} (notChat : kind ≠ .chat) :
    startedData kind outbox.trace <+: (outputs outbox.trace).filterMap (Output.data kind) := by
  rw [← acceptedData notChat]
  exact (inOrder.started_prefix notChat).map _

/-- While an eligible message is in the queue nothing is waited for. -/
theorem Outbox.scheduleWrite_starts {outbox : Outbox} (isOpen : outbox.closed = false)
    (idle : outbox.writeInProgress = false) {message : OutboundMessage} (queued : message ∈ outbox.outbound)
    (eligible : Eligible outbox.limiter message outbox.now) :
    ∃ chosen ∈ outbox.outbound, Eligible outbox.limiter chosen outbox.now ∧
      startedMessages outbox.scheduleWrite.trace = startedMessages outbox.trace ++ [chosen] := by
  rcases scheduleWrite_cases outbox with ⟨_, stuck⟩ | ⟨_, _, selected, limiter, selects, _, acted⟩
  · rcases stuck with closed | busy | empty
    · exact absurd (closed.symm.trans isOpen) (by decide)
    · exact absurd (busy.symm.trans idle) (by decide)
    · rw [empty] at queued
      cases queued
  · have reached : selected.time ≤ outbox.now :=
      (selects.least message queued).trans (eligibleTime_le_iff.mpr eligible)
    rcases acted with ⟨later, _⟩ | ⟨_, started⟩
    · exact absurd reached (not_le.mpr later)
    · refine ⟨selected.message, List.mem_of_getElem? selects.at_index, ?_, ?_⟩
      · exact eligibleTime_le_iff.mp (selects.time ▸ reached)
      · have trace : outbox.scheduleWrite.trace = outbox.trace ++ [.writing selected.message outbox.now limiter] ++
            [.started (.write selected.message.wireData)] := by
          rw [started]
          rfl
        rw [trace, startedMessages_concat, startedMessages_concat]
        exact List.append_nil _

/-- Every history of a session of an accepted configuration is in order, and an
idle session with an eligible message in its queue starts the write of one. -/
theorem outbound_order {parseJson : JsonParser} {environment : Environment} {botJson : Bytes}
    {config : RuntimeConfig} (accepted : parseRuntimeConfig parseJson environment botJson = .ok config)
    (limiter : RateLimiter) {clock : Nat → Time} (monotone : ∀ n, clock n ≤ clock (n + 1)) (sniConfigured : Bool)
    (events : List SessionEvent) (own : ∀ message, .enqueue message ∉ events) :
    OutboundOrdered config ((Session.new config limiter clock sniConfigured).start.after events).trace ∧
      ∀ outbox : Outbox, outbox.closed = false → outbox.writeInProgress = false →
        ∀ message ∈ outbox.outbound, Eligible outbox.limiter message outbox.now →
          ∃ chosen ∈ outbox.outbound, Eligible outbox.limiter chosen outbox.now ∧
            startedMessages outbox.scheduleWrite.trace = startedMessages outbox.trace ++ [chosen] := by
  have valid := parseRuntimeConfig_ok accepted
  have inOrder := Session.inOrder_after config limiter sniConfigured monotone events own
  obtain ⟨calls, relays, first⟩ := Session.introduced_after config limiter clock sniConfigured events own
  obtain ⟨taken, late, same, inside, _⟩ := relays.follows.followed
  have fresh : outputs (Session.new config limiter clock sniConfigured).trace = [] := rfl
  have protocol : (Session.new config limiter clock sniConfigured).protocol = { config } := rfl
  rw [fresh, List.nil_append] at same
  rw [protocol] at inside
  refine ⟨⟨inOrder.order, fun kind notChat => inOrder.started_prefix notChat, ?_, ?_, inOrder.choices⟩,
    fun outbox isOpen idle message queued eligible => scheduleWrite_starts isOpen idle queued eligible⟩
  · have started : startedData .system _ <+: _ := inOrder.startedData_prefix (by decide)
    rw [same, data_of_late] at started
    replace started := started.trans (inside.filterMap (Output.data .system))
    rcases first with ⟨rfl, _⟩ | begun
    · exact ⟨[], started.trans List.nil_prefix⟩
    · obtain ⟨rest, rfl⟩ := List.head?_eq_some_iff.mp begun
      rw [actions_cons, requested, List.filterMap_append, List.filterMap_append] at started
      have greeted := begin_requested valid
      rw [requested] at greeted
      rw [SessionProtocol.call, greeted, greeting_data] at started
      exact ⟨_, started⟩
  · have started : startedData .join _ <+: _ := inOrder.startedData_prefix (by decide)
    obtain ⟨rounds, gates⟩ := requested_rounds valid calls
    obtain ⟨joins, readies⟩ := joins_of_gates taken
    have whole := inside.filter Output.isGate
    rw [gates] at whole
    have joined := joins_of_rounds whole
    rw [joins, readies] at joined
    have fewer : taken.count .ready ≤ (taken ++ List.replicate late Output.ready).count .ready := by
      rw [List.count_append]
      exact Nat.le_add_right _ _
    rw [same, data_of_late] at started
    rw [same]
    exact (started.trans joined).trans (rounds_mono _ fewer)

/-- A whole login, up to the write of the second JOIN. -/
def joinedEvents : List SessionEvent :=
  [.complete 0 (.success []), .deliver 0, .complete 0 (.success []), .deliver 0,
    .complete 0 (.success []), .deliver 0,
    .complete 2 (.success (bytes ":tmi.twitch.tv 001 example_bot :Welcome" ++ crlf ++
      bytes ":tmi.twitch.tv CAP * ACK :twitch.tv/membership twitch.tv/tags twitch.tv/commands" ++ crlf)),
    .deliver 0, .deliver 0, .complete 0 (.success []), .deliver 0,
    .complete 1 (.success []), .deliver 0, .complete 1 (.success []), .deliver 0,
    .complete 1 (.success []), .deliver 0]

def joinedTrace : List Effect :=
  ((Session.new validConfig {} (fun n => seconds n) true).start.after joinedEvents).trace

theorem outbound_order_login : OutboundOrdered validConfig joinedTrace := by
  have monotone (n : Nat) : seconds n ≤ seconds (n + 1 : Nat) := by
    simp [seconds]
  have own : ∀ message, .enqueue message ∉ joinedEvents := by
    simp [joinedEvents]
  exact (outbound_order validConfig_accepted {} monotone true joinedEvents own).1

example : startedData .system joinedTrace = greeting validConfig ∧
    startedData .join joinedTrace = validConfig.channels.map joinLine := by
  decide +kernel

end TwitchBot
