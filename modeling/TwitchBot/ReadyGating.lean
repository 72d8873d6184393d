import TwitchBot.ProtocolRuns

namespace TwitchBot

open ExceptRun SessionProtocol

/-- What links a protocol object to the calls made on it so far: the flag and
the set are those of the history, and the state agrees with them. -/
structure Gated (config : RuntimeConfig) (calls : List ProtocolCall) (protocol : SessionProtocol) : Prop where
  config : protocol.config = config
  authenticated : protocol.authenticated = true ↔ Authenticated calls
  acknowledged : protocol.acknowledgedCapabilities = acknowledgedBy calls
  ready_complete : protocol.state = .ready →
    protocol.authenticated = true ∧ AllRequired protocol.acknowledgedCapabilities
  complete_settled : protocol.authenticated = true → AllRequired protocol.acknowledgedCapabilities →
    Settled protocol.state

theorem hasCapStatus_command {message : IrcMessage} {status : String} (cap : hasCapStatus message status) :
    message.command = bytes "CAP" := cap.1

theorem containsLoginFailure_command {message : IrcMessage} (failure : containsLoginFailure message = true) :
    message.command = bytes "NOTICE" := by
  unfold containsLoginFailure at failure
  split at failure
  · cases failure
  · rename_i notice
    exact not_not.mp notice

theorem hasCapStatus_unique {message : IrcMessage} (nak : hasCapStatus message "NAK") :
    ¬hasCapStatus message "ACK" := by
  intro ack
  have same := Option.some.inj (nak.2.symm.trans ack.2)
  exact absurd same (by decide)

/-- Commands other than `CAP` and the two welcomes leave no trace in the history. -/
theorem unrecorded_of_command {message : IrcMessage} {command : String}
    (is : message.command = bytes command)
    (other : bytes command ≠ bytes "CAP" ∧ bytes command ≠ bytes "001" ∧
      bytes command ≠ bytes "GLOBALUSERSTATE") : ¬hasCapStatus message "ACK" ∧ ¬isWelcome message := by
  constructor
  · rintro ⟨cap, _⟩
    exact other.1 (is.symm.trans cap)
  · rintro (welcome | welcome)
    · exact other.2.1 (is.symm.trans welcome)
    · exact other.2.2 (is.symm.trans welcome)

theorem authenticated_handle (calls : List ProtocolCall) (message : IrcMessage) :
    Authenticated (calls ++ [.handle message]) ↔ Authenticated calls ∨ isWelcome message := by
  simp only [Authenticated, handledMessages_append, List.mem_append, or_and_right, exists_or]
  simp [handledMessages]

theorem acknowledgedBy_handle (calls : List ProtocolCall) (message : IrcMessage) :
    acknowledgedBy (calls ++ [.handle message]) =
      (acknowledgedTokens message).foldl acknowledge (acknowledgedBy calls) := by
  simp only [acknowledgedBy, handledMessages_append, List.flatMap_append, List.foldl_append]
  simp [handledMessages]

theorem acknowledgedTokens_of_not_ack {message : IrcMessage} (other : ¬hasCapStatus message "ACK") :
    acknowledgedTokens message = [] := if_neg other

/-- A message that records nothing keeps the link to the history if it leaves
the state or makes it terminal. -/
theorem Gated.unrecorded {config : RuntimeConfig} {calls : List ProtocolCall} {protocol : SessionProtocol}
    (gated : Gated config calls protocol) {message : IrcMessage} (silent : ¬hasCapStatus message "ACK" ∧
      ¬isWelcome message) {state : SessionState}
    (next : state = protocol.state ∨ state = .reconnectRequested ∨ state = .failed) :
    Gated config (calls ++ [.handle message]) { protocol with state := state } := by
  refine ⟨gated.config, ?_, ?_, ?_, ?_⟩
  · simpa [authenticated_handle, silent.2] using gated.authenticated
  · simpa [acknowledgedBy_handle, acknowledgedTokens_of_not_ack silent.1] using gated.acknowledged
  · intro isReady
    rcases next with rfl | rfl | rfl
    · exact gated.ready_complete isReady
    · cases isReady
    · cases isReady
  · intro authenticated complete
    rcases next with rfl | rfl | rfl
    · exact gated.complete_settled authenticated complete
    · exact Or.inr (Or.inl rfl)
    · exact Or.inr (Or.inr rfl)

/-- Recording a message and testing for readiness restores the link. -/
theorem Gated.recorded {config : RuntimeConfig} {calls : List ProtocolCall} {protocol : SessionProtocol}
    (gated : Gated config calls protocol) (message : IrcMessage) :
    Gated config (calls ++ [.handle message]) (protocol.recorded message).becomeReadyIfPossible.2 := by
  have config : (protocol.recorded message).config = config := by
    rw [recorded_config, gated.config]
  have authenticated : (protocol.recorded message).authenticated = true ↔
      Authenticated (calls ++ [.handle message]) := by
    rw [recorded_authenticated, gated.authenticated, authenticated_handle]
  have acknowledged : (protocol.recorded message).acknowledgedCapabilities =
      acknowledgedBy (calls ++ [.handle message]) := by
    rw [recorded_acknowledged, gated.acknowledged, acknowledgedBy_handle]
  rcases becomeReadyIfPossible_cases (protocol.recorded message) with ⟨result, settled⟩ |
    ⟨result, isAuthenticated, complete, _⟩
  · rw [result]
    refine ⟨config, authenticated, acknowledged, fun isReady => ?_, settled⟩
    rw [recorded_state] at isReady
    split at isReady
    · cases isReady
    · rename_i other
      obtain ⟨wasAuthenticated, wasComplete⟩ := gated.ready_complete isReady
      refine ⟨(recorded_authenticated protocol message).mpr (Or.inl wasAuthenticated), ?_⟩
      rw [recorded_acknowledged, acknowledgedTokens_of_not_ack other]
      exact wasComplete
  · rw [result]
    exact ⟨config, authenticated, acknowledged, fun _ => ⟨isAuthenticated, complete⟩,
      fun _ _ => Or.inl rfl⟩

theorem Gated.handle {config : RuntimeConfig} {calls : List ProtocolCall} {protocol : SessionProtocol}
    (gated : Gated config calls protocol) (message : IrcMessage) :
    Gated config (calls ++ [.handle message]) (protocol.handle message).2 := by
  rcases handle_cases protocol message with ⟨ping, same, _⟩ | ⟨reconnect, result⟩ | ⟨failure, result⟩ |
    ⟨nak, result⟩ | ⟨_, _, _, _, result⟩
  · rw [same]
    exact gated.unrecorded (unrecorded_of_command ping (by decide)) (Or.inl rfl)
  · rw [result]
    exact gated.unrecorded (unrecorded_of_command reconnect (by decide)) (Or.inr (Or.inl rfl))
  · rw [result]
    exact gated.unrecorded (unrecorded_of_command (containsLoginFailure_command failure) (by decide))
      (Or.inr (Or.inr rfl))
  · rw [result]
    refine gated.unrecorded ⟨hasCapStatus_unique nak, ?_⟩ (Or.inr (Or.inr rfl))
    rintro (welcome | welcome)
    · exact absurd (nak.1.symm.trans welcome) (by decide)
    · exact absurd (nak.1.symm.trans welcome) (by decide)
  · rw [result]
    exact gated.recorded message

theorem Gated.begin {config : RuntimeConfig} {calls : List ProtocolCall} {protocol : SessionProtocol}
    (gated : Gated config calls protocol) : Gated config (calls ++ [.begin]) protocol.begin.2 := by
  have handled : handledMessages (calls ++ [.begin]) = handledMessages calls := by
    rw [handledMessages_append]
    exact List.append_nil _
  have authenticated : Authenticated (calls ++ [.begin]) ↔ Authenticated calls := by
    rw [Authenticated, handled, Authenticated]
  have acknowledged : acknowledgedBy (calls ++ [.begin]) = acknowledgedBy calls := by
    rw [acknowledgedBy, handled, acknowledgedBy]
  rcases begin_cases protocol with ⟨result, _⟩ | ⟨result, fresh, _⟩
  · rw [result]
    exact ⟨gated.config, gated.authenticated.trans authenticated.symm,
      gated.acknowledged.trans acknowledged.symm, gated.ready_complete, gated.complete_settled⟩
  · rw [result]
    refine ⟨gated.config, gated.authenticated.trans authenticated.symm,
      gated.acknowledged.trans acknowledged.symm, by simp, ?_⟩
    intro isAuthenticated complete
    rcases gated.complete_settled isAuthenticated complete with h | h | h
    all_goals simp [h] at fresh

/-- The object behind every sequence of calls agrees with the history. -/
theorem gated_after (config : RuntimeConfig) (calls : List ProtocolCall) :
    Gated config calls (SessionProtocol.after { config } calls) := by
  induction calls using List.reverseRecOn with
  | nil =>
    refine ⟨rfl, ?_, rfl, by simp, by simp⟩
    simp [Authenticated, handledMessages]
  | append_singleton calls call ih =>
    rw [after_append]
    cases call with
    | begin => exact ih.begin
    | handle message => exact ih.handle message

/-- With valid channel names nothing in the ready path throws. -/
theorem readyActions_ok {channels : List Bytes} (names : ∀ channel ∈ channels, LoginName channel) :
    readyActions channels = .ok (readyAction :: channels.map joinAction) := by
  have joins := mapM_ok (f := fun channel => sendAction .join channel (bytes "JOIN #" ++ channel))
    (g := joinAction) (fun channel member => sendAction_of_encoded (speaks_join (names channel member)).1)
  rw [readyActions, joins]
  rfl

/-- A call that returns a ready action or a JOIN is the one that makes the
session ready, and returns exactly the ready actions. -/
theorem call_ready {protocol : SessionProtocol} {call : ProtocolCall} {returned : List ProtocolAction}
    (names : ∀ channel ∈ protocol.config.channels, LoginName channel)
    (answered : (protocol.call call).1 = .ok returned)
    (gating : ∃ action ∈ returned, action.kind = .ready ∨ IsJoin action) :
    returned = readyAction :: protocol.config.channels.map joinAction ∧
      (protocol.call call).2.state = .ready := by
  obtain ⟨action, member, gate⟩ := gating
  rcases call_cases protocol call with system | ⟨last, terminal, ended, _⟩ | ⟨ready, isReady⟩
  · rw [answered] at system
    obtain ⟨isSend, isSystem⟩ := system action member
    simp [IsJoin, isSend, isSystem] at gate
  · rw [answered] at ended
    cases ended
    cases List.mem_singleton.mp member
    rcases gate with isReady | ⟨isSend, _⟩
    · simp [isReady] at terminal
    · simp [isSend] at terminal
  · rw [answered, readyActions_ok names] at ready
    exact ⟨Except.ok.inj ready, isReady⟩

/-- Ready gating is exact: after any calls, ready means authenticated with all
required capabilities, these two leave no state but ready or a terminal one,
and ready and JOIN actions come only together, once the session is ready. -/
theorem ready_gating {parseJson : JsonParser} {environment : Environment} {botJson : Bytes}
    {config : RuntimeConfig} (accepted : parseRuntimeConfig parseJson environment botJson = .ok config)
    (calls : List ProtocolCall) :
    ((SessionProtocol.after { config } calls).ready = true →
        Authenticated calls ∧ AllRequired (acknowledgedBy calls)) ∧
      (Authenticated calls → AllRequired (acknowledgedBy calls) →
        (SessionProtocol.after { config } calls).state = .ready ∨
          (SessionProtocol.after { config } calls).state = .reconnectRequested ∨
          (SessionProtocol.after { config } calls).state = .failed) ∧
      ∀ call returned, ((SessionProtocol.after { config } calls).call call).1 = .ok returned →
        (∃ action ∈ returned, action.kind = .ready ∨ IsJoin action) →
          returned = readyAction :: config.channels.map joinAction ∧
            ((SessionProtocol.after { config } calls).call call).2.state = .ready := by
  have gated := gated_after config calls
  refine ⟨?_, ?_, ?_⟩
  · intro isReady
    obtain ⟨authenticated, complete⟩ := gated.ready_complete (by simpa [SessionProtocol.ready] using isReady)
    exact ⟨gated.authenticated.mp authenticated, gated.acknowledged ▸ complete⟩
  · intro authenticated complete
    exact gated.complete_settled (gated.authenticated.mpr authenticated) (gated.acknowledged ▸ complete)
  · intro call returned answered gating
    have names := (parseRuntimeConfig_ok accepted).channels
    rw [← gated.config] at names
    have result := call_ready names answered gating
    rwa [gated.config] at result

/-- A welcome as the server sends it. -/
def welcomeMessage : IrcMessage := ⟨∅, [], bytes "001", [bytes "example_bot", bytes "Welcome"]⟩

/-- The acknowledgement of all requested capabilities. -/
def acknowledgeMessage : IrcMessage := ⟨∅, [], bytes "CAP", [bytes "*", bytes "ACK", capabilityList]⟩

theorem ready_gating_login :
    Authenticated [.begin, .handle welcomeMessage, .handle acknowledgeMessage] ∧
      AllRequired (acknowledgedBy [.begin, .handle welcomeMessage, .handle acknowledgeMessage]) :=
  (ready_gating validConfig_accepted [.begin, .handle welcomeMessage, .handle acknowledgeMessage]).1
    (by decide +kernel)

end TwitchBot
