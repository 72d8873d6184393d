import TwitchBot.ReadyGating

namespace TwitchBot

open ExceptRun SessionProtocol

/-- A whole login: the connection begins and every later call handles a message. -/
def loginRun (messages : List IrcMessage) : List ProtocolCall := .begin :: messages.map .handle

/-- A `CAP ACK` among the messages comes when the messages before it already
made the session ready. -/
def LateAcknowledgement (messages : List IrcMessage) : Prop :=
  ∃ earlier message later, messages = earlier ++ message :: later ∧ hasCapStatus message "ACK" ∧
    Authenticated (loginRun earlier) ∧ AllRequired (acknowledgedBy (loginRun earlier))

/-- No message takes a capability back. -/
def OnlyAdds (messages : List IrcMessage) : Prop :=
  ∀ message ∈ messages, ∀ token ∈ acknowledgedTokens message, token.head? ≠ some minus

/-- No action ends the session. -/
def Calm (actions : List ProtocolAction) : Prop :=
  ∀ action ∈ actions, action.kind ≠ .reconnect ∧ action.kind ≠ .fatal

def readyCount (actions : List ProtocolAction) : Nat :=
  actions.countP (fun action => action.kind = .ready)

def joinCount (channel : Bytes) (actions : List ProtocolAction) : Nat :=
  actions.countP (fun action => IsJoin action ∧ action.channel = channel)

theorem SessionProtocol.actions_cons (protocol : SessionProtocol) (call : ProtocolCall) (calls : List ProtocolCall) :
    protocol.actions (call :: calls) =
      returnedActions (protocol.call call).1 ++ (protocol.call call).2.actions calls := by
  rw [actions, returnedActions]
  cases (protocol.call call).1 <;> rfl

theorem SessionProtocol.actions_single (protocol : SessionProtocol) (call : ProtocolCall) :
    protocol.actions [call] = returnedActions (protocol.call call).1 := by
  rw [actions_cons, actions, List.append_nil]

theorem SessionProtocol.actions_concat (protocol : SessionProtocol) (earlier later : List ProtocolCall) :
    protocol.actions (earlier ++ later) = protocol.actions earlier ++ (protocol.after earlier).actions later := by
  induction earlier generalizing protocol with
  | nil => rfl
  | cons call earlier ih => rw [List.cons_append, actions_cons, actions_cons, ih, after_cons, List.append_assoc]

theorem SessionProtocol.actions_append (protocol : SessionProtocol) (calls : List ProtocolCall)
    (call : ProtocolCall) : protocol.actions (calls ++ [call]) =
      protocol.actions calls ++ returnedActions ((protocol.after calls).call call).1 := by
  rw [actions_concat, actions_single]

theorem loginRun_append (messages : List IrcMessage) (message : IrcMessage) :
    loginRun (messages ++ [message]) = loginRun messages ++ [.handle message] := by
  simp [loginRun]

theorem lateAcknowledgement_append (messages : List IrcMessage) (message : IrcMessage) :
    LateAcknowledgement (messages ++ [message]) ↔ LateAcknowledgement messages ∨
      (hasCapStatus message "ACK" ∧ Authenticated (loginRun messages) ∧
        AllRequired (acknowledgedBy (loginRun messages))) := by
  constructor
  · rintro ⟨earlier, ack, later, split, late⟩
    rcases List.eq_nil_or_concat later with rfl | ⟨before, last, rfl⟩
    · obtain ⟨rfl, rfl⟩ := List.append_inj' split rfl |>.imp_right List.singleton_inj.mp
      exact Or.inr late
    · rw [List.concat_eq_append, ← List.cons_append, ← List.append_assoc] at split
      obtain ⟨rfl, _⟩ := List.append_inj' split rfl
      exact Or.inl ⟨earlier, ack, before, rfl, late⟩
  · rintro (⟨earlier, ack, later, rfl, late⟩ | late)
    · exact ⟨earlier, ack, later ++ [message], by simp, late⟩
    · exact ⟨messages, message, [], rfl, late⟩

theorem subset_acknowledge {tokens : List Bytes} (adds : ∀ token ∈ tokens, token.head? ≠ some minus)
    (capabilities : Finset Bytes) : capabilities ⊆ tokens.foldl acknowledge capabilities := by
  induction tokens generalizing capabilities with
  | nil => exact Finset.Subset.refl _
  | cons token tokens ih =>
    have grows : capabilities ⊆ acknowledge capabilities token := by
      rw [acknowledge, if_neg (adds token List.mem_cons_self)]
      exact Finset.subset_insert _ _
    exact grows.trans (ih (fun other member => adds other (List.mem_cons_of_mem _ member)) _)

theorem AllRequired.mono {old new : Finset Bytes} (complete : AllRequired old) (subset : old ⊆ new) :
    AllRequired new := fun capability member => subset (complete capability member)

theorem readyCount_of_system {actions : List ProtocolAction}
    (system : ∀ action ∈ actions, action.kind = .send ∧ action.outboundKind = .system) :
    readyCount actions = 0 ∧ ∀ channel, joinCount channel actions = 0 := by
  constructor
  · refine List.countP_eq_zero.mpr (fun action member => ?_)
    simp [(system action member).1]
  · refine fun channel => List.countP_eq_zero.mpr (fun action member => ?_)
    simp [IsJoin, (system action member).2]

theorem readyCount_append (earlier later : List ProtocolAction) :
    readyCount (earlier ++ later) = readyCount earlier + readyCount later := List.countP_append

theorem joinCount_append (channel : Bytes) (earlier later : List ProtocolAction) :
    joinCount channel (earlier ++ later) = joinCount channel earlier + joinCount channel later :=
  List.countP_append

theorem readyCount_ready (channels : List Bytes) :
    readyCount (readyAction :: channels.map joinAction) = 1 := by
  have joins : (channels.map joinAction).countP (fun action => action.kind = .ready) = 0 := by
    simp [List.countP_eq_zero, joinAction]
  rw [readyCount, List.countP_cons_of_pos (by simp [readyAction]), joins]

theorem joinCount_ready {channels : List Bytes} (distinct : channels.Nodup) {channel : Bytes}
    (member : channel ∈ channels) : joinCount channel (readyAction :: channels.map joinAction) = 1 := by
  rw [joinCount, List.countP_cons_of_neg (by simp [readyAction, IsJoin]), List.countP_map,
    ← List.count_eq_one_of_mem distinct member]
  refine List.countP_congr (fun other _ => ?_)
  simp [joinAction, IsJoin]

/-- The states of a session that no action has ended. -/
def Open (state : SessionState) : Prop := state ≠ .reconnectRequested ∧ state ≠ .failed

/-- A message that returns nothing that counts and leaves readiness as it was. -/
structure Quiet (protocol : SessionProtocol) (message : IrcMessage) : Prop where
  noReady : readyCount (returnedActions (protocol.handle message).1) = 0
  noJoin : ∀ channel, joinCount channel (returnedActions (protocol.handle message).1) = 0
  isOpen : Open (protocol.handle message).2.state
  ready_iff : (protocol.handle message).2.state = .ready ↔ protocol.state = .ready
  notAck : protocol.state = .ready → ¬hasCapStatus message "ACK"

/-- A message that makes the session ready: again, if it is an acknowledgement. -/
structure Loud (protocol : SessionProtocol) (message : IrcMessage) : Prop where
  returned : returnedActions (protocol.handle message).1 =
    readyAction :: protocol.config.channels.map joinAction
  isReady : (protocol.handle message).2.state = .ready
  again : protocol.state = .ready → hasCapStatus message "ACK"

theorem quiet_of_ping {protocol : SessionProtocol} {message : IrcMessage} (isOpen : Open protocol.state)
    (ping : message.command = bytes "PING") (same : (protocol.handle message).2 = protocol)
    (system : ∀ returned, (protocol.handle message).1 = .ok returned → ∀ action ∈ returned,
      action.kind = .send ∧ action.outboundKind = .system) : Quiet protocol message := by
  have zero : readyCount (returnedActions (protocol.handle message).1) = 0 ∧
      ∀ channel, joinCount channel (returnedActions (protocol.handle message).1) = 0 := by
    refine readyCount_of_system (fun action member => ?_)
    obtain ⟨returned, answered, inside⟩ := mem_returnedActions member
    exact system returned answered action inside
  refine ⟨zero.1, zero.2, ?_, ?_, fun _ => (unrecorded_of_command ping (by decide)).1⟩
  · rwa [same]
  · rw [same]

/-- A message that leaves the object as recorded leaves a ready session ready. -/
theorem quiet_of_recorded {protocol : SessionProtocol} {message : IrcMessage} (isOpen : Open protocol.state)
    (result : protocol.handle message = (.ok [], protocol.recorded message))
    (notAck : protocol.state = .ready → ¬hasCapStatus message "ACK") : Quiet protocol message := by
  have state := recorded_state protocol message
  refine ⟨by rw [result]; rfl, fun _ => by rw [result]; rfl, ?_, ?_, notAck⟩
  · rw [result, state]
    split
    · exact ⟨by decide, by decide⟩
    · exact isOpen
  · rw [result, state]
    split
    · rename_i ack
      exact ⟨fun negotiating => absurd negotiating (by decide), fun isReady => absurd ack (notAck isReady)⟩
    · rfl

/-- Nothing but an end of the session is neither quiet nor loud. -/
theorem quiet_or_loud {protocol : SessionProtocol} {message : IrcMessage}
    (names : ∀ channel ∈ protocol.config.channels, LoginName channel) (isOpen : Open protocol.state)
    (ready_complete : protocol.state = .ready →
      protocol.authenticated = true ∧ AllRequired protocol.acknowledgedCapabilities)
    (adds : ∀ token ∈ acknowledgedTokens message, token.head? ≠ some minus)
    (calm : Calm (returnedActions (protocol.handle message).1)) :
    Quiet protocol message ∨ Loud protocol message := by
  rcases handle_answers protocol message with ⟨ping, same, system⟩ | ⟨action, next, terminal, result⟩ | result
  · exact Or.inl (quiet_of_ping isOpen ping same system)
  · rw [result] at calm
    have notEnd := calm action List.mem_cons_self
    rcases terminal with reconnect | fatal
    · exact absurd reconnect notEnd.1
    · exact absurd fatal notEnd.2
  · have state := recorded_state protocol message
    rcases becomeReadyIfPossible_cases (protocol.recorded message) with ⟨quiet, settled⟩ |
      ⟨loud, _, _, unsettled⟩
    · left
      refine quiet_of_recorded isOpen (result.trans quiet) (fun isReady ack => ?_)
      obtain ⟨authenticated, complete⟩ := ready_complete isReady
      have stillComplete : AllRequired (protocol.recorded message).acknowledgedCapabilities := by
        rw [recorded_acknowledged]
        exact complete.mono (subset_acknowledge adds _)
      have stillSettled := settled ((recorded_authenticated protocol message).mpr (Or.inl authenticated))
        stillComplete
      rw [state, if_pos ack] at stillSettled
      exact absurd stillSettled (by decide)
    · right
      rw [recorded_config, readyActions_ok names] at loud
      refine ⟨by rw [result, loud]; rfl, by rw [result, loud], fun isReady => ?_⟩
      by_contra other
      rw [state, if_neg other] at unsettled
      exact unsettled (Or.inl isReady)

/-- What the actions of a login say about its messages. -/
structure Counted (config : RuntimeConfig) (messages : List IrcMessage) : Prop where
  isOpen : Open (SessionProtocol.after { config } (loginRun messages)).state
  ready_iff : (SessionProtocol.after { config } (loginRun messages)).state = .ready ↔
    1 ≤ readyCount (SessionProtocol.actions { config } (loginRun messages))
  once_iff : readyCount (SessionProtocol.actions { config } (loginRun messages)) ≤ 1 ↔
    ¬LateAcknowledgement messages
  joins : ∀ channel ∈ config.channels,
    joinCount channel (SessionProtocol.actions { config } (loginRun messages)) =
      readyCount (SessionProtocol.actions { config } (loginRun messages))

theorem counted_nil (config : RuntimeConfig) : Counted config [] := by
  have after : SessionProtocol.after { config } (loginRun []) = { config, state := .authenticating } := by
    simp [loginRun, SessionProtocol.call, begin]
  have actions : SessionProtocol.actions { config } (loginRun []) = returnedActions (begin { config }).1 :=
    SessionProtocol.actions_single { config } .begin
  have zero : readyCount (SessionProtocol.actions { config } (loginRun [])) = 0 ∧
      ∀ channel, joinCount channel (SessionProtocol.actions { config } (loginRun [])) = 0 := by
    refine readyCount_of_system (fun action member => ?_)
    rw [actions] at member
    obtain ⟨returned, answered, inside⟩ := mem_returnedActions member
    rcases begin_cases { config } with ⟨_, fresh, _⟩ | ⟨_, _, system⟩
    · exact absurd rfl fresh
    · exact system returned answered action inside
  refine ⟨?_, ?_, ?_, ?_⟩
  · rw [after]
    exact ⟨by simp, by simp⟩
  · simp [after, zero.1]
  · simp [zero.1, LateAcknowledgement]
  · simp [zero.1, zero.2]

namespace Counted

variable {config : RuntimeConfig} {messages : List IrcMessage}

/-- The messages so far are complete exactly when the session is ready. -/
theorem complete_iff (counted : Counted config messages) :
    (Authenticated (loginRun messages) ∧ AllRequired (acknowledgedBy (loginRun messages))) ↔
      (SessionProtocol.after { config } (loginRun messages)).state = .ready := by
  have gated := gated_after config (loginRun messages)
  constructor
  · rintro ⟨authenticated, complete⟩
    rcases gated.complete_settled (gated.authenticated.mpr authenticated)
      (gated.acknowledged ▸ complete) with isReady | isReconnect | isFailed
    · exact isReady
    · exact absurd isReconnect counted.isOpen.1
    · exact absurd isFailed counted.isOpen.2
  · intro isReady
    obtain ⟨authenticated, complete⟩ := gated.ready_complete isReady
    exact ⟨gated.authenticated.mp authenticated, gated.acknowledged ▸ complete⟩

/-- What a further message adds to the actions and the state. -/
theorem actions_handle (config : RuntimeConfig) (messages : List IrcMessage) (message : IrcMessage) :
    SessionProtocol.actions { config } (loginRun (messages ++ [message])) =
        SessionProtocol.actions { config } (loginRun messages) ++
          returnedActions ((SessionProtocol.after { config } (loginRun messages)).handle message).1 ∧
      SessionProtocol.after { config } (loginRun (messages ++ [message])) =
        ((SessionProtocol.after { config } (loginRun messages)).handle message).2 := by
  rw [loginRun_append]
  exact ⟨SessionProtocol.actions_append _ _ _, SessionProtocol.after_append _ _ _⟩

theorem quiet (counted : Counted config messages) {message : IrcMessage}
    (quiet : Quiet (SessionProtocol.after { config } (loginRun messages)) message) :
    Counted config (messages ++ [message]) := by
  obtain ⟨actions, after⟩ := actions_handle config messages message
  have count : readyCount (SessionProtocol.actions { config } (loginRun (messages ++ [message]))) =
      readyCount (SessionProtocol.actions { config } (loginRun messages)) := by
    rw [actions, readyCount_append, quiet.noReady, Nat.add_zero]
  have notLate : ¬(hasCapStatus message "ACK" ∧ Authenticated (loginRun messages) ∧
      AllRequired (acknowledgedBy (loginRun messages))) := by
    rintro ⟨ack, complete⟩
    exact quiet.notAck (counted.complete_iff.mp complete) ack
  refine ⟨?_, ?_, ?_, ?_⟩
  · rw [after]
    exact quiet.isOpen
  · rw [after, count, ← counted.ready_iff]
    exact quiet.ready_iff
  · rw [count, counted.once_iff, lateAcknowledgement_append]
    simp only [notLate, or_false]
  · intro channel member
    rw [count, ← counted.joins channel member, actions, joinCount_append, quiet.noJoin, Nat.add_zero]

theorem loud (counted : Counted config messages) (distinct : config.channels.Nodup) {message : IrcMessage}
    (loud : Loud (SessionProtocol.after { config } (loginRun messages)) message) :
    Counted config (messages ++ [message]) := by
  obtain ⟨actions, after⟩ := actions_handle config messages message
  have returned := loud.returned
  rw [(gated_after config (loginRun messages)).config] at returned
  have count : readyCount (SessionProtocol.actions { config } (loginRun (messages ++ [message]))) =
      readyCount (SessionProtocol.actions { config } (loginRun messages)) + 1 := by
    rw [actions, readyCount_append, returned, readyCount_ready]
  refine ⟨?_, ?_, ?_, ?_⟩
  · rw [after, loud.isReady]
    exact ⟨by decide, by decide⟩
  · rw [after, count]
    exact ⟨fun _ => Nat.le_add_left 1 _, fun _ => loud.isReady⟩
  · rw [count, lateAcknowledgement_append, counted.complete_iff]
    by_cases wasReady : (SessionProtocol.after { config } (loginRun messages)).state = .ready
    · have twice := counted.ready_iff.mp wasReady
      have late := loud.again wasReady
      exact ⟨fun once => by omega, fun early => absurd (Or.inr ⟨late, wasReady⟩) early⟩
    · have none : readyCount (SessionProtocol.actions { config } (loginRun messages)) = 0 := by
        by_contra some
        exact wasReady (counted.ready_iff.mpr (Nat.pos_of_ne_zero some))
      have early := counted.once_iff.mp (none.le.trans (Nat.zero_le 1))
      refine iff_of_true (by omega) ?_
      rintro (late | ⟨_, isReady⟩)
      · exact early late
      · exact wasReady isReady
  · intro channel member
    rw [count, ← counted.joins channel member, actions, joinCount_append, returned,
      joinCount_ready distinct member]

theorem handle (counted : Counted config messages) (valid : config.Valid) {message : IrcMessage}
    (adds : ∀ token ∈ acknowledgedTokens message, token.head? ≠ some minus)
    (calm : Calm (returnedActions
      ((SessionProtocol.after { config } (loginRun messages)).handle message).1)) :
    Counted config (messages ++ [message]) := by
  have gated := gated_after config (loginRun messages)
  have names : ∀ channel ∈ (SessionProtocol.after { config } (loginRun messages)).config.channels,
      LoginName channel := by
    rw [gated.config]
    exact valid.channels
  rcases quiet_or_loud names counted.isOpen gated.ready_complete adds calm with quiet | loud
  · exact counted.quiet quiet
  · exact counted.loud valid.channels_nodup loud

end Counted

/-- Counting works for every login that nothing ends and that only adds capabilities. -/
theorem counted_login {config : RuntimeConfig} (valid : config.Valid) {messages : List IrcMessage}
    (calm : Calm (SessionProtocol.actions { config } (loginRun messages))) (adds : OnlyAdds messages) :
    Counted config messages := by
  induction messages using List.reverseRecOn with
  | nil => exact counted_nil config
  | append_singleton messages message ih =>
    have actions := SessionProtocol.actions_append { config } (loginRun messages) (.handle message)
    rw [loginRun_append, actions] at calm
    refine (ih ?_ ?_).handle valid ?_ ?_
    · exact fun action member => calm action (List.mem_append_left _ member)
    · exact fun other member => adds other (List.mem_append_left _ member)
    · exact adds message (List.mem_append_right _ List.mem_cons_self)
    · exact fun action member => calm action (List.mem_append_right _ member)

/-- In a login that nothing ends and that only adds capabilities, the ready
action and the JOIN of each channel are returned at most once if and only if
no acknowledgement comes after the messages that made the session ready. -/
theorem ready_once_iff {parseJson : JsonParser} {environment : Environment} {botJson : Bytes}
    {config : RuntimeConfig} (accepted : parseRuntimeConfig parseJson environment botJson = .ok config)
    {messages : List IrcMessage} (calm : Calm (SessionProtocol.actions { config } (loginRun messages)))
    (adds : OnlyAdds messages) :
    (readyCount (SessionProtocol.actions { config } (loginRun messages)) ≤ 1 ∧
        ∀ channel ∈ config.channels,
          joinCount channel (SessionProtocol.actions { config } (loginRun messages)) ≤ 1) ↔
      ¬LateAcknowledgement messages := by
  have counted := counted_login (parseRuntimeConfig_ok accepted) calm adds
  rw [← counted.once_iff]
  refine ⟨And.left, fun once => ⟨once, fun channel member => ?_⟩⟩
  rw [counted.joins channel member]
  exact once

theorem ready_once_iff_login :
    ¬LateAcknowledgement [welcomeMessage, acknowledgeMessage] := by
  have calm : Calm (SessionProtocol.actions { config := validConfig }
      (loginRun [welcomeMessage, acknowledgeMessage])) := by
    unfold Calm
    decide +kernel
  have adds : OnlyAdds [welcomeMessage, acknowledgeMessage] := by
    unfold OnlyAdds
    decide +kernel
  exact (ready_once_iff validConfig_accepted calm adds).mp (by decide +kernel)

/-- A second acknowledgement of the same capabilities repeats everything. -/
theorem ready_once_fails :
    ¬∀ (config : RuntimeConfig) (messages : List IrcMessage),
      (∃ parseJson environment botJson, parseRuntimeConfig parseJson environment botJson = .ok config) →
      Calm (SessionProtocol.actions { config } (loginRun messages)) → OnlyAdds messages →
        readyCount (SessionProtocol.actions { config } (loginRun messages)) ≤ 1 ∧
          ∀ channel ∈ config.channels,
            joinCount channel (SessionProtocol.actions { config } (loginRun messages)) ≤ 1 := by
  intro once
  have twice := (once validConfig [welcomeMessage, acknowledgeMessage, acknowledgeMessage]
    ⟨_, _, _, validConfig_accepted⟩ (by unfold Calm; decide +kernel) (by unfold OnlyAdds; decide +kernel)).1
  revert twice
  decide +kernel

end TwitchBot
