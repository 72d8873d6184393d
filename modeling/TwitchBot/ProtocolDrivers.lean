import TwitchBot.ReadyOnce

namespace TwitchBot

open ExceptRun SessionProtocol

/-- The commands that can move the protocol object. -/
def drivingCommands : List Bytes :=
  [bytes "RECONNECT", bytes "CAP", bytes "NOTICE", bytes "001", bytes "GLOBALUSERSTATE"]

/-- The messages on which `handle` returns a reconnect or a fatal action. -/
def EndsProtocol (message : IrcMessage) : Prop :=
  message.command = bytes "RECONNECT" ∨ containsLoginFailure message = true ∨ hasCapStatus message "NAK"

instance (message : IrcMessage) : Decidable (EndsProtocol message) := inferInstanceAs (Decidable (_ ∨ _ ∨ _))

theorem not_endsProtocol_of_ack {message : IrcMessage} (ack : hasCapStatus message "ACK") :
    ¬EndsProtocol message := by
  rintro (reconnect | failure | nak)
  · exact absurd (ack.1.symm.trans reconnect) (by decide)
  · exact absurd (ack.1.symm.trans (containsLoginFailure_command failure)) (by decide)
  · exact hasCapStatus_unique nak ack

namespace SessionProtocol

theorem recorded_of_silent {protocol : SessionProtocol} {message : IrcMessage}
    (silent : ¬hasCapStatus message "ACK" ∧ ¬isWelcome message) : protocol.recorded message = protocol := by
  rw [recorded, recordAcknowledgement, if_neg silent.1, recordAuthentication, if_neg silent.2]

/-- A ready object does not answer what is neither a `PING` nor a driving command. -/
theorem handle_of_ready {protocol : SessionProtocol} {message : IrcMessage} (isReady : protocol.state = .ready)
    (other : message.command ∉ bytes "PING" :: drivingCommands) :
    protocol.handle message = (.ok [], protocol) := by
  simp only [drivingCommands, List.mem_cons, List.not_mem_nil, or_false, not_or] at other
  obtain ⟨notPing, notReconnect, notCap, notNotice, notFirst, notSecond⟩ := other
  rcases handle_cases protocol message with ⟨ping, _⟩ | ⟨reconnect, _⟩ | ⟨failure, _⟩ | ⟨nak, _⟩ |
    ⟨_, _, _, _, result⟩
  · exact absurd ping notPing
  · exact absurd reconnect notReconnect
  · exact absurd (containsLoginFailure_command failure) notNotice
  · exact absurd nak.1 notCap
  · have silent : ¬hasCapStatus message "ACK" ∧ ¬isWelcome message :=
      ⟨fun ack => notCap ack.1, fun welcome => welcome.elim notFirst notSecond⟩
    rw [result, recorded_of_silent silent]
    exact if_pos (Or.inl isReady)

/-- No call returns a ready action or a JOIN without making the session ready. -/
theorem call_gating {protocol : SessionProtocol} {call : ProtocolCall} {action : ProtocolAction}
    (member : action ∈ returnedActions (protocol.call call).1) (gate : action.kind = .ready ∨ IsJoin action) :
    (protocol.call call).2.state = .ready := by
  rcases call_cases protocol call with system | ⟨last, terminal, ended, _⟩ | ⟨_, isReady⟩
  · obtain ⟨isSend, isSystem⟩ := system action member
    simp [IsJoin, isSend, isSystem] at gate
  · rw [ended] at member
    cases List.mem_singleton.mp member
    rcases gate with isReady | ⟨isSend, _⟩
    · simp [isReady] at terminal
    · simp [isSend] at terminal
  · exact isReady

end SessionProtocol

/-- Chat cannot drive the protocol: behind any calls, a message with another
command than the driving ones leaves the whole object as it is, and the call
returns nothing but system lines. -/
theorem chat_inert (config : RuntimeConfig) (calls : List ProtocolCall) {message : IrcMessage}
    (other : message.command ∉ drivingCommands) :
    ((SessionProtocol.after { config } calls).handle message).2 = SessionProtocol.after { config } calls ∧
      ∀ action ∈ returnedActions ((SessionProtocol.after { config } calls).handle message).1,
        action.kind ≠ .ready ∧ action.kind ≠ .reconnect ∧ action.kind ≠ .fatal ∧ ¬IsJoin action := by
  simp only [drivingCommands, List.mem_cons, List.not_mem_nil, or_false, not_or] at other
  obtain ⟨notReconnect, notCap, notNotice, notFirst, notSecond⟩ := other
  have gated := gated_after config calls
  generalize SessionProtocol.after { config } calls = protocol at gated ⊢
  rcases handle_cases protocol message with ⟨_, same, system⟩ | ⟨reconnect, _⟩ | ⟨failure, _⟩ |
    ⟨nak, _⟩ | ⟨_, _, _, _, result⟩
  · refine ⟨same, ?_⟩
    intro action member
    obtain ⟨returned, answered, inside⟩ := mem_returnedActions member
    obtain ⟨isSend, isSystem⟩ := system returned answered action inside
    simp [IsJoin, isSend, isSystem]
  · exact absurd reconnect notReconnect
  · exact absurd (containsLoginFailure_command failure) notNotice
  · exact absurd nak.1 notCap
  · have silent : ¬hasCapStatus message "ACK" ∧ ¬isWelcome message :=
      ⟨fun ack => notCap ack.1, fun welcome => welcome.elim notFirst notSecond⟩
    rw [recorded_of_silent silent] at result
    rcases becomeReadyIfPossible_cases protocol with ⟨quiet, _⟩ | ⟨_, authenticated, complete, unsettled⟩
    · rw [result, quiet]
      exact ⟨rfl, fun action member => by cases member⟩
    · exact absurd (gated.complete_settled authenticated complete) unsettled

theorem chat_inert_privmsg :
    ((SessionProtocol.after { config := validConfig } [.begin, .handle welcomeMessage]).handle
        ⟨∅, bytes "twitch", bytes "PRIVMSG", [bytes "#bot", bytes "RECONNECT"]⟩).2 =
      SessionProtocol.after { config := validConfig } [.begin, .handle welcomeMessage] :=
  (chat_inert validConfig [.begin, .handle welcomeMessage] (by decide)).1

/-- The call returns a reconnect or a fatal action. -/
def Terminates (answer : Answer) : Prop :=
  ∃ action ∈ returnedActions answer, action.kind = .reconnect ∨ action.kind = .fatal

instance (answer : Answer) : Decidable (Terminates answer) := inferInstanceAs (Decidable (∃ _ ∈ _, _))

/-- What the later calls on an object that has failed or been told to
reconnect should do: none of them makes it ready again. -/
def StaysDown (protocol : SessionProtocol) (later : List ProtocolCall) : Prop :=
  (∀ action ∈ protocol.actions later, action.kind ≠ .ready ∧ ¬IsJoin action) ∧
    ∀ before, before <+: later → (protocol.after before).ready = false

/-- The calls acknowledge capabilities, and nothing ends the session after that. -/
def Reopens (calls : List ProtocolCall) : Prop :=
  ∃ earlier ack after, calls = earlier ++ .handle ack :: after ∧ hasCapStatus ack "ACK" ∧
    ∀ message ∈ handledMessages after, ¬EndsProtocol message

/-- At some point the later calls have reopened the session, and all that
makes a session ready has been received. -/
def Revives (history later : List ProtocolCall) : Prop :=
  ∃ before, before <+: later ∧ Reopens before ∧ Authenticated (history ++ before) ∧
    AllRequired (acknowledgedBy (history ++ before))

theorem not_reopens_nil : ¬Reopens [] := by
  rintro ⟨earlier, ack, after, split, _⟩
  simp at split

theorem reopens_begin (calls : List ProtocolCall) : Reopens (calls ++ [.begin]) ↔ Reopens calls := by
  constructor
  · rintro ⟨earlier, ack, after, split, isAck, calm⟩
    rcases List.eq_nil_or_concat after with rfl | ⟨init, last, rfl⟩
    · simp at split
    · rw [List.concat_eq_append, ← List.cons_append, ← List.append_assoc] at split
      obtain ⟨rfl, _⟩ := List.append_inj' split rfl
      refine ⟨earlier, ack, init, rfl, isAck, fun message member => calm message ?_⟩
      rw [List.concat_eq_append, handledMessages_append]
      exact List.mem_append_left _ member
  · rintro ⟨earlier, ack, after, rfl, isAck, calm⟩
    refine ⟨earlier, ack, after ++ [.begin], by simp, isAck, ?_⟩
    rw [handledMessages_append]
    simpa [handledMessages] using calm

theorem reopens_handle (calls : List ProtocolCall) (message : IrcMessage) :
    Reopens (calls ++ [.handle message]) ↔
      hasCapStatus message "ACK" ∨ Reopens calls ∧ ¬EndsProtocol message := by
  constructor
  · rintro ⟨earlier, ack, after, split, isAck, calm⟩
    rcases List.eq_nil_or_concat after with rfl | ⟨init, last, rfl⟩
    · obtain ⟨_, same⟩ := List.append_inj' split rfl
      cases same
      exact Or.inl isAck
    · rw [List.concat_eq_append, ← List.cons_append, ← List.append_assoc] at split
      obtain ⟨rfl, same⟩ := List.append_inj' split rfl
      cases same
      rw [List.concat_eq_append, handledMessages_append] at calm
      refine Or.inr ⟨⟨earlier, ack, init, rfl, isAck, fun other member => ?_⟩, ?_⟩
      · exact calm other (List.mem_append_left _ member)
      · exact calm message (List.mem_append_right _ (by simp [handledMessages]))
  · rintro (isAck | ⟨⟨earlier, ack, after, rfl, isAck, calm⟩, calmLast⟩)
    · exact ⟨calls, message, [], rfl, isAck, by simp [handledMessages]⟩
    · refine ⟨earlier, ack, after ++ [.handle message], by simp, isAck, ?_⟩
      rw [handledMessages_append]
      intro other member
      rcases List.mem_append.mp member with old | new
      · exact calm other old
      · have same : other = message := by simpa [handledMessages] using new
        exact same ▸ calmLast

namespace SessionProtocol

/-- The states in which `become_ready_if_possible` refuses for good. -/
def Down (state : SessionState) : Prop := state = .reconnectRequested ∨ state = .failed

instance (state : SessionState) : Decidable (Down state) := inferInstanceAs (Decidable (_ ∨ _))

/-- The state of an object on which some call has done something. -/
def Started (state : SessionState) : Prop := state ≠ .disconnected ∧ state ≠ .tlsConnected

/-- A message takes an object down if it ends the session, and lifts it up
again if it is an acknowledgement. -/
theorem handle_down {protocol : SessionProtocol} (message : IrcMessage) (started : Started protocol.state) :
    (Down (protocol.handle message).2.state ↔
        EndsProtocol message ∨ Down protocol.state ∧ ¬hasCapStatus message "ACK") ∧
      Started (protocol.handle message).2.state := by
  rcases handle_cases protocol message with ⟨ping, same, _⟩ | ⟨reconnect, result⟩ | ⟨failure, result⟩ |
    ⟨nak, result⟩ | ⟨_, notReconnect, notFailure, notNak, result⟩
  · have silent := unrecorded_of_command ping (by decide)
    have calm : ¬EndsProtocol message := by
      rintro (reconnect | failure | nak)
      · exact absurd (ping.symm.trans reconnect) (by decide)
      · exact absurd (ping.symm.trans (containsLoginFailure_command failure)) (by decide)
      · exact absurd (ping.symm.trans nak.1) (by decide)
    rw [same]
    exact ⟨by simp [calm, silent.1], started⟩
  · rw [result]
    exact ⟨iff_of_true (Or.inl rfl) (Or.inl (Or.inl reconnect)), by simp [Started]⟩
  · rw [result]
    exact ⟨iff_of_true (Or.inr rfl) (Or.inl (Or.inr (Or.inl failure))), by simp [Started]⟩
  · rw [result]
    exact ⟨iff_of_true (Or.inr rfl) (Or.inl (Or.inr (Or.inr nak))), by simp [Started]⟩
  · have calm : ¬EndsProtocol message := by simp [EndsProtocol, notReconnect, notFailure, notNak]
    have state := recorded_state protocol message
    rw [result]
    rcases becomeReadyIfPossible_cases (protocol.recorded message) with ⟨quiet, _⟩ | ⟨loud, _, _, unsettled⟩
    · rw [quiet, state]
      split
      · rename_i ack
        simp [ack, calm, Down, Started]
      · rename_i other
        exact ⟨by simp [calm, other], started⟩
    · rw [loud]
      have lifted : ¬(Down protocol.state ∧ ¬hasCapStatus message "ACK") := by
        rintro ⟨down, other⟩
        rw [state, if_neg other] at unsettled
        exact unsettled (Or.inr down)
      exact ⟨iff_of_false (by simp [Down]) (not_or.mpr ⟨calm, lifted⟩), by simp [Started]⟩

theorem begin_of_started {protocol : SessionProtocol} (started : Started protocol.state) :
    protocol.begin = (.ok [], protocol) := by
  unfold begin
  exact if_pos started

theorem readyActions_kinds {channels : List Bytes} {returned : List ProtocolAction}
    (answered : readyActions channels = .ok returned) :
    ∀ action ∈ returned, action.kind = .ready ∨ action.kind = .send := by
  obtain ⟨joins, sent, answered⟩ := bind_eq_ok.mp answered
  cases Except.ok.inj answered
  intro action member
  rcases List.mem_cons.mp member with rfl | member
  · exact Or.inl rfl
  · obtain ⟨channel, _, sent⟩ := mapM_eq_ok sent action member
    obtain ⟨_, rfl⟩ := sendAction_ok sent
    exact Or.inr rfl

/-- A call that returns a reconnect or a fatal action leaves the object down. -/
theorem down_of_terminates {protocol : SessionProtocol} {call : ProtocolCall}
    (ended : Terminates (protocol.call call).1) : Down (protocol.call call).2.state := by
  obtain ⟨action, member, ends⟩ := ended
  rcases call_cases protocol call with system | ⟨_, _, _, down⟩ | ⟨ready, _⟩
  · simp [(system action member).1] at ends
  · exact down
  · obtain ⟨returned, answered, inside⟩ := mem_returnedActions member
    rw [ready] at answered
    rcases readyActions_kinds answered action inside with kind | kind
    · simp [kind] at ends
    · simp [kind] at ends

/-- After a call has taken the object down, it stays down exactly until the
later calls reopen it. -/
theorem after_down {protocol : SessionProtocol} (down : Down protocol.state) (later : List ProtocolCall) :
    (Down (protocol.after later).state ↔ ¬Reopens later) ∧ Started (protocol.after later).state := by
  induction later using List.reverseRecOn with
  | nil =>
    refine ⟨iff_of_true down not_reopens_nil, ?_⟩
    rcases down with down | down
    all_goals simp [Started, down]
  | append_singleton later call ih =>
    rw [after_append]
    obtain ⟨stays, started⟩ := ih
    cases call with
    | begin =>
      rw [SessionProtocol.call, begin_of_started started, reopens_begin]
      exact ⟨stays, started⟩
    | handle message =>
      obtain ⟨down, started⟩ := handle_down message started
      refine ⟨?_, started⟩
      rw [SessionProtocol.call, down, stays, reopens_handle]
      have exclusive : hasCapStatus message "ACK" → ¬EndsProtocol message := not_endsProtocol_of_ack
      tauto

end SessionProtocol

/-- Behind an object that is down, the session is ready exactly where the
calls have reopened it and the history is complete. -/
theorem ready_iff_reopened {config : RuntimeConfig} {history : List ProtocolCall}
    (down : Down (SessionProtocol.after { config } history).state) (later : List ProtocolCall) :
    ((SessionProtocol.after { config } history).after later).state = .ready ↔
      Reopens later ∧ Authenticated (history ++ later) ∧ AllRequired (acknowledgedBy (history ++ later)) := by
  have gated := gated_after config (history ++ later)
  obtain ⟨stays, _⟩ := after_down down later
  have joined : (SessionProtocol.after { config } history).after later =
      SessionProtocol.after { config } (history ++ later) := List.foldl_append.symm
  rw [joined] at stays ⊢
  constructor
  · intro isReady
    obtain ⟨authenticated, complete⟩ := gated.ready_complete isReady
    refine ⟨?_, gated.authenticated.mp authenticated, gated.acknowledged ▸ complete⟩
    by_contra closed
    rcases stays.mpr closed with h | h
    all_goals rw [isReady] at h; cases h
  · rintro ⟨reopened, authenticated, complete⟩
    have lifted : ¬Down (SessionProtocol.after { config } (history ++ later)).state :=
      fun h => stays.mp h reopened
    rcases gated.complete_settled (gated.authenticated.mpr authenticated)
      (gated.acknowledged ▸ complete) with isReady | isReconnect | isFailed
    · exact isReady
    · exact absurd (Or.inl isReconnect) lifted
    · exact absurd (Or.inr isFailed) lifted

/-- An object that is never ready returns no ready action and no JOIN. -/
theorem actions_of_never_ready {protocol : SessionProtocol} {later : List ProtocolCall}
    (never : ∀ before, before <+: later → (protocol.after before).ready = false) :
    ∀ action ∈ protocol.actions later, action.kind ≠ .ready ∧ ¬IsJoin action := by
  induction later using List.reverseRecOn with
  | nil =>
    intro action member
    cases member
  | append_singleton later call ih =>
    intro action member
    rw [SessionProtocol.actions_append] at member
    rcases List.mem_append.mp member with old | new
    · exact ih (fun before within => never before (within.trans (List.prefix_append _ _))) action old
    · have last := never (later ++ [call]) List.prefix_rfl
      rw [after_append] at last
      by_contra gate
      have isReady := call_gating new (by tauto)
      simp [SessionProtocol.ready, isReady] at last

/-- A protocol object that has returned a reconnect or a fatal action is never
ready again and returns no JOIN if and only if the later calls do not revive it. -/
theorem stays_down_iff (config : RuntimeConfig) {before : List ProtocolCall} {call : ProtocolCall}
    (ended : Terminates ((SessionProtocol.after { config } before).call call).1)
    (later : List ProtocolCall) :
    StaysDown (SessionProtocol.after { config } (before ++ [call])) later ↔
      ¬Revives (before ++ [call]) later := by
  have down : Down (SessionProtocol.after { config } (before ++ [call])).state := by
    rw [after_append]
    exact down_of_terminates ended
  have ready_iff : ∀ reached, ((SessionProtocol.after { config } (before ++ [call])).after reached).ready = true ↔
      Reopens reached ∧ Authenticated (before ++ [call] ++ reached) ∧
        AllRequired (acknowledgedBy (before ++ [call] ++ reached)) := by
    intro reached
    rw [← ready_iff_reopened down reached]
    simp [SessionProtocol.ready]
  constructor
  · rintro ⟨_, never⟩ ⟨reached, within, revived⟩
    have isReady := (ready_iff reached).mpr revived
    rw [never reached within] at isReady
    cases isReady
  · intro lasting
    have never : ∀ reached, reached <+: later →
        ((SessionProtocol.after { config } (before ++ [call])).after reached).ready = false := by
      intro reached within
      rw [Bool.eq_false_iff]
      intro isReady
      exact lasting ⟨reached, within, (ready_iff reached).mp isReady⟩
    exact ⟨actions_of_never_ready never, never⟩

/-- The reconnect request of a server that is about to close. -/
def reconnectMessage : IrcMessage := ⟨∅, bytes "tmi.twitch.tv", bytes "RECONNECT", []⟩

theorem stays_down_iff_welcome :
    StaysDown (SessionProtocol.after { config := validConfig } [.begin, .handle reconnectMessage])
        [.handle welcomeMessage] ↔
      ¬Revives [.begin, .handle reconnectMessage] [.handle welcomeMessage] := by
  have ended : Terminates ((SessionProtocol.after { config := validConfig } [.begin]).call
      (.handle reconnectMessage)).1 := by decide +kernel
  exact stays_down_iff validConfig ended [.handle welcomeMessage]

/-- The acknowledgement that follows a reconnect request makes the object ready. -/
theorem stays_down_fails :
    ¬∀ (config : RuntimeConfig) (before : List ProtocolCall) (call : ProtocolCall) (later : List ProtocolCall),
      (∃ parseJson environment botJson, parseRuntimeConfig parseJson environment botJson = .ok config) →
      Terminates ((SessionProtocol.after { config } before).call call).1 →
        StaysDown (SessionProtocol.after { config } (before ++ [call])) later := by
  intro lasting
  have down := lasting validConfig [.begin, .handle welcomeMessage] (.handle reconnectMessage)
    [.handle acknowledgeMessage] ⟨_, _, _, validConfig_accepted⟩ (by decide +kernel)
  have never := down.2 [.handle acknowledgeMessage] List.prefix_rfl
  revert never
  decide +kernel

end TwitchBot
