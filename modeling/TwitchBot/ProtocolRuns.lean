import TwitchBot.SessionProtocol
import TwitchBot.SpokenLines

namespace TwitchBot

open ExceptRun

inductive ProtocolCall
  | begin
  | handle (message : IrcMessage)

namespace SessionProtocol

def call (protocol : SessionProtocol) : ProtocolCall → Answer × SessionProtocol
  | .begin => protocol.begin
  | .handle message => protocol.handle message

/-- The protocol object behind a sequence of calls. -/
def after (protocol : SessionProtocol) (calls : List ProtocolCall) : SessionProtocol :=
  calls.foldl (fun protocol call => (protocol.call call).2) protocol

/-- The actions a sequence of calls returns, in order; a call that throws returns none. -/
def actions (protocol : SessionProtocol) : List ProtocolCall → List ProtocolAction
  | [] => []
  | call :: calls =>
    match (protocol.call call).1 with
    | .ok returned => returned ++ (protocol.call call).2.actions calls
    | .error _ => (protocol.call call).2.actions calls

end SessionProtocol

/-- What a call contributes to `actions`. -/
def returnedActions (answer : Answer) : List ProtocolAction := answer.toOption.getD []

/-- The messages handled in a sequence of calls. -/
def handledMessages (calls : List ProtocolCall) : List IrcMessage :=
  calls.filterMap (fun call => match call with
    | .begin => none
    | .handle message => some message)

/-- A login was accepted somewhere in the calls. -/
def Authenticated (calls : List ProtocolCall) : Prop := ∃ message ∈ handledMessages calls, isWelcome message

/-- The tokens that a message acknowledges. -/
def acknowledgedTokens (message : IrcMessage) : List Bytes :=
  if hasCapStatus message "ACK" then words (message.parameters.getLast?.getD []) else []

/-- All tokens acknowledged in the calls, added and removed in order. -/
def acknowledgedBy (calls : List ProtocolCall) : Finset Bytes :=
  ((handledMessages calls).flatMap acknowledgedTokens).foldl acknowledge ∅

def AllRequired (capabilities : Finset Bytes) : Prop :=
  ∀ capability ∈ requiredCapabilities, capability ∈ capabilities

instance (capabilities : Finset Bytes) : Decidable (AllRequired capabilities) :=
  inferInstanceAs (Decidable (∀ capability ∈ requiredCapabilities, capability ∈ capabilities))

def readyAction : ProtocolAction := ⟨.ready, bytes "Session ready", .system, []⟩

def joinAction (channel : Bytes) : ProtocolAction :=
  ⟨.send, bytes "JOIN #" ++ channel ++ crlf, .join, channel⟩

def IsJoin (action : ProtocolAction) : Prop := action.kind = .send ∧ action.outboundKind = .join

instance (action : ProtocolAction) : Decidable (IsJoin action) := inferInstanceAs (Decidable (_ ∧ _))

theorem handledMessages_append (calls : List ProtocolCall) (call : ProtocolCall) :
    handledMessages (calls ++ [call]) = handledMessages calls ++ handledMessages [call] := by
  simp [handledMessages]

theorem mem_returnedActions {answer : Answer} {action : ProtocolAction}
    (member : action ∈ returnedActions answer) : ∃ returned, answer = .ok returned ∧ action ∈ returned := by
  cases answer with
  | error what => simp [returnedActions, Except.toOption] at member
  | ok returned => exact ⟨returned, rfl, member⟩

theorem sendAction_of_encoded {kind : OutboundKind} {channel line data : Bytes}
    (encoded : encodeIrcLine line = .ok data) :
    sendAction kind channel line = .ok ⟨.send, data, kind, channel⟩ := by
  rw [sendAction, encoded]
  rfl

theorem sendAction_ok {kind : OutboundKind} {channel line : Bytes} {action : ProtocolAction}
    (sent : sendAction kind channel line = .ok action) :
    ∃ data, action = ⟨.send, data, kind, channel⟩ := by
  obtain ⟨data, _, sent⟩ := bind_eq_ok.mp sent
  exact ⟨data, (Except.ok.inj sent).symm⟩

namespace SessionProtocol

@[simp] theorem after_nil (protocol : SessionProtocol) : protocol.after [] = protocol := rfl

@[simp] theorem after_cons (protocol : SessionProtocol) (call : ProtocolCall) (calls : List ProtocolCall) :
    protocol.after (call :: calls) = (protocol.call call).2.after calls := rfl

theorem after_append (protocol : SessionProtocol) (calls : List ProtocolCall) (call : ProtocolCall) :
    protocol.after (calls ++ [call]) = ((protocol.after calls).call call).2 := by
  simp [after]

@[simp] theorem recordAcknowledgement_config (protocol : SessionProtocol) (message : IrcMessage) :
    (protocol.recordAcknowledgement message).config = protocol.config := by
  unfold recordAcknowledgement
  split <;> rfl

@[simp] theorem recordAuthentication_config (protocol : SessionProtocol) (message : IrcMessage) :
    (protocol.recordAuthentication message).config = protocol.config := by
  unfold recordAuthentication
  split <;> rfl

@[simp] theorem recordAcknowledgement_authenticated (protocol : SessionProtocol) (message : IrcMessage) :
    (protocol.recordAcknowledgement message).authenticated = protocol.authenticated := by
  unfold recordAcknowledgement
  split <;> rfl

@[simp] theorem recordAuthentication_acknowledged (protocol : SessionProtocol) (message : IrcMessage) :
    (protocol.recordAuthentication message).acknowledgedCapabilities = protocol.acknowledgedCapabilities := by
  unfold recordAuthentication
  split <;> rfl

@[simp] theorem recordAuthentication_state (protocol : SessionProtocol) (message : IrcMessage) :
    (protocol.recordAuthentication message).state = protocol.state := by
  unfold recordAuthentication
  split <;> rfl

theorem recordAcknowledgement_acknowledged (protocol : SessionProtocol) (message : IrcMessage) :
    (protocol.recordAcknowledgement message).acknowledgedCapabilities =
      (acknowledgedTokens message).foldl acknowledge protocol.acknowledgedCapabilities := by
  unfold recordAcknowledgement acknowledgedTokens
  split <;> rfl

theorem recordAuthentication_authenticated (protocol : SessionProtocol) (message : IrcMessage) :
    (protocol.recordAuthentication message).authenticated = true ↔
      protocol.authenticated = true ∨ isWelcome message := by
  unfold recordAuthentication
  split
  · rename_i welcome
    simp [welcome]
  · rename_i other
    simp [other]

theorem capabilitiesReady_iff (protocol : SessionProtocol) :
    protocol.capabilitiesReady = true ↔ AllRequired protocol.acknowledgedCapabilities := by
  simp only [capabilitiesReady, AllRequired, List.all_eq_true, decide_eq_true_eq]

/-- The states in which nothing more can make the session ready. -/
def Settled (state : SessionState) : Prop := state = .ready ∨ state = .reconnectRequested ∨ state = .failed

instance (state : SessionState) : Decidable (Settled state) := inferInstanceAs (Decidable (_ ∨ _))

/-- The two things `become_ready_if_possible` can do. -/
theorem becomeReadyIfPossible_cases (protocol : SessionProtocol) :
    (protocol.becomeReadyIfPossible = (.ok [], protocol) ∧ (protocol.authenticated = true →
        AllRequired protocol.acknowledgedCapabilities → Settled protocol.state)) ∨
      (protocol.becomeReadyIfPossible =
          (readyActions protocol.config.channels, { protocol with state := .ready }) ∧
        protocol.authenticated = true ∧ AllRequired protocol.acknowledgedCapabilities ∧
        ¬Settled protocol.state) := by
  unfold becomeReadyIfPossible
  split
  · rename_i held
    refine Or.inl ⟨rfl, fun authenticated _ => ?_⟩
    unfold Settled
    rcases held with h | h | h | h
    · exact Or.inl h
    · exact Or.inr (Or.inr h)
    · exact Or.inr (Or.inl h)
    · rw [authenticated] at h
      cases h
  · rename_i free
    simp only [not_or, Bool.not_eq_false] at free
    split
    · rename_i missing
      refine Or.inl ⟨rfl, fun _ complete => ?_⟩
      rw [(capabilitiesReady_iff protocol).mpr complete] at missing
      cases missing
    · rename_i complete
      refine Or.inr ⟨rfl, free.2.2.2, (capabilitiesReady_iff protocol).mp (by simpa using complete), ?_⟩
      rintro (h | h | h)
      · exact free.1 h
      · exact free.2.2.1 h
      · exact free.2.1 h

/-- The object that a message leaves for `become_ready_if_possible`. -/
def recorded (protocol : SessionProtocol) (message : IrcMessage) : SessionProtocol :=
  (protocol.recordAcknowledgement message).recordAuthentication message

@[simp] theorem recorded_config (protocol : SessionProtocol) (message : IrcMessage) :
    (protocol.recorded message).config = protocol.config := by
  simp [recorded]

theorem recorded_authenticated (protocol : SessionProtocol) (message : IrcMessage) :
    (protocol.recorded message).authenticated = true ↔ protocol.authenticated = true ∨ isWelcome message := by
  rw [recorded, recordAuthentication_authenticated, recordAcknowledgement_authenticated]

theorem recorded_acknowledged (protocol : SessionProtocol) (message : IrcMessage) :
    (protocol.recorded message).acknowledgedCapabilities =
      (acknowledgedTokens message).foldl acknowledge protocol.acknowledgedCapabilities := by
  rw [recorded, recordAuthentication_acknowledged, recordAcknowledgement_acknowledged]

theorem recorded_state (protocol : SessionProtocol) (message : IrcMessage) :
    (protocol.recorded message).state =
      if hasCapStatus message "ACK" then .capabilityNegotiation else protocol.state := by
  rw [recorded, recordAuthentication_state]
  unfold recordAcknowledgement
  split <;> rfl

/-- Everything `handle` can do. -/
theorem handle_cases (protocol : SessionProtocol) (message : IrcMessage) :
    (message.command = bytes "PING" ∧ (protocol.handle message).2 = protocol ∧
        ∀ returned, (protocol.handle message).1 = .ok returned → ∀ action ∈ returned,
          action.kind = .send ∧ action.outboundKind = .system) ∨
      (message.command = bytes "RECONNECT" ∧
        protocol.handle message = (.ok [⟨.reconnect, bytes "Twitch requested reconnect", .system, []⟩],
          { protocol with state := .reconnectRequested })) ∨
      (containsLoginFailure message = true ∧
        protocol.handle message = (.ok [⟨.fatal, bytes "Twitch rejected the login", .system, []⟩],
          { protocol with state := .failed })) ∨
      (hasCapStatus message "NAK" ∧
        protocol.handle message =
          (.ok [⟨.fatal, bytes "Twitch rejected required IRC capabilities", .system, []⟩],
            { protocol with state := .failed })) ∨
      (message.command ≠ bytes "PING" ∧ message.command ≠ bytes "RECONNECT" ∧
        containsLoginFailure message = false ∧ ¬hasCapStatus message "NAK" ∧
        protocol.handle message = (protocol.recorded message).becomeReadyIfPossible) := by
  unfold handle
  split
  · rename_i ping
    left
    refine ⟨ping, ?_, ?_⟩
    · split <;> rfl
    · intro returned answered action member
      split at answered
      · cases Except.ok.inj answered
        simp at member
      · rename_i payload _ _
        cases sent : sendAction .system [] (bytes "PONG :" ++ payload) with
        | error what =>
          rw [sent] at answered
          cases answered
        | ok pong =>
          obtain ⟨data, rfl⟩ := sendAction_ok sent
          rw [sent] at answered
          cases Except.ok.inj answered
          cases List.mem_singleton.mp member
          exact ⟨rfl, rfl⟩
  · rename_i notPing
    split
    · rename_i reconnect
      exact Or.inr (Or.inl ⟨reconnect, rfl⟩)
    · rename_i notReconnect
      split
      · rename_i failure
        exact Or.inr (Or.inr (Or.inl ⟨failure, rfl⟩))
      · rename_i noFailure
        split
        · rename_i nak
          exact Or.inr (Or.inr (Or.inr (Or.inl ⟨nak, rfl⟩)))
        · rename_i notNak
          exact Or.inr (Or.inr (Or.inr (Or.inr ⟨notPing, notReconnect, by simpa using noFailure,
            notNak, rfl⟩)))

/-- The three kinds of answers of `handle`: lines for the server that change
nothing, one action that ends the session, and the test for readiness. -/
theorem handle_answers (protocol : SessionProtocol) (message : IrcMessage) :
    (message.command = bytes "PING" ∧ (protocol.handle message).2 = protocol ∧
        ∀ returned, (protocol.handle message).1 = .ok returned → ∀ action ∈ returned,
          action.kind = .send ∧ action.outboundKind = .system) ∨
      (∃ action next, (action.kind = .reconnect ∨ action.kind = .fatal) ∧
        protocol.handle message = (.ok [action], next)) ∨
      protocol.handle message = (protocol.recorded message).becomeReadyIfPossible := by
  rcases handle_cases protocol message with ping | ⟨_, result⟩ | ⟨_, result⟩ | ⟨_, result⟩ |
    ⟨_, _, _, _, result⟩
  · exact Or.inl ping
  · exact Or.inr (Or.inl ⟨_, _, Or.inl rfl, result⟩)
  · exact Or.inr (Or.inl ⟨_, _, Or.inr rfl, result⟩)
  · exact Or.inr (Or.inl ⟨_, _, Or.inr rfl, result⟩)
  · exact Or.inr (Or.inr result)

theorem begin_cases (protocol : SessionProtocol) :
    (protocol.begin = (.ok [], protocol) ∧ protocol.state ≠ .disconnected ∧
        protocol.state ≠ .tlsConnected) ∨
      (protocol.begin.2 = { protocol with state := .authenticating } ∧
        (protocol.state = .disconnected ∨ protocol.state = .tlsConnected) ∧
        ∀ returned, protocol.begin.1 = .ok returned → ∀ action ∈ returned,
          action.kind = .send ∧ action.outboundKind = .system) := by
  unfold begin
  split
  · rename_i started
    exact Or.inl ⟨rfl, started⟩
  · rename_i fresh
    refine Or.inr ⟨rfl, by tauto, ?_⟩
    intro returned answered action member
    obtain ⟨pass, sentPass, answered⟩ := bind_eq_ok.mp answered
    obtain ⟨nick, sentNick, answered⟩ := bind_eq_ok.mp answered
    obtain ⟨cap, sentCap, answered⟩ := bind_eq_ok.mp answered
    cases Except.ok.inj answered
    obtain ⟨_, rfl⟩ := sendAction_ok sentPass
    obtain ⟨_, rfl⟩ := sendAction_ok sentNick
    obtain ⟨_, rfl⟩ := sendAction_ok sentCap
    simp only [List.mem_cons, List.not_mem_nil, or_false] at member
    rcases member with rfl | rfl | rfl
    all_goals exact ⟨rfl, rfl⟩

/-- The three kinds of answers of a call: lines for the server, one action that
ends the session, and what a session does that becomes ready. -/
theorem call_cases (protocol : SessionProtocol) (call : ProtocolCall) :
    (∀ action ∈ returnedActions (protocol.call call).1, action.kind = .send ∧ action.outboundKind = .system) ∨
      (∃ action, (action.kind = .reconnect ∨ action.kind = .fatal) ∧ (protocol.call call).1 = .ok [action] ∧
        ((protocol.call call).2.state = .reconnectRequested ∨ (protocol.call call).2.state = .failed)) ∨
      ((protocol.call call).1 = readyActions protocol.config.channels ∧ (protocol.call call).2.state = .ready) := by
  cases call with
  | begin =>
    left
    intro action member
    obtain ⟨returned, answered, inside⟩ := mem_returnedActions member
    rcases begin_cases protocol with ⟨result, _⟩ | ⟨_, _, system⟩
    · rw [SessionProtocol.call, result] at answered
      cases answered
      cases inside
    · exact system returned answered action inside
  | handle message =>
    rw [SessionProtocol.call]
    rcases handle_cases protocol message with ⟨_, _, system⟩ | ⟨_, result⟩ | ⟨_, result⟩ | ⟨_, result⟩ |
      ⟨_, _, _, _, result⟩
    · left
      intro action member
      obtain ⟨returned, answered, inside⟩ := mem_returnedActions member
      exact system returned answered action inside
    · rw [result]
      exact Or.inr (Or.inl ⟨_, Or.inl rfl, rfl, Or.inl rfl⟩)
    · rw [result]
      exact Or.inr (Or.inl ⟨_, Or.inr rfl, rfl, Or.inr rfl⟩)
    · rw [result]
      exact Or.inr (Or.inl ⟨_, Or.inr rfl, rfl, Or.inr rfl⟩)
    · rw [result]
      rcases becomeReadyIfPossible_cases (protocol.recorded message) with ⟨quiet, _⟩ | ⟨loud, _⟩
      · rw [quiet]
        exact Or.inl (fun action member => by cases member)
      · rw [loud, recorded_config]
        exact Or.inr (Or.inr ⟨rfl, rfl⟩)

end SessionProtocol

end TwitchBot
