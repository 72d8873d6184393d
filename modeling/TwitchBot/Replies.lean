import TwitchBot.PingPong
import TwitchBot.ReadyGating
import TwitchBot.SpokenConfig

namespace TwitchBot

open ExceptRun

def passLine (token : Bytes) : Bytes := bytes "PASS " ++ token ++ crlf

namespace SessionProtocol

/-- What `begin` sends. -/
def greetingActions (config : RuntimeConfig) : List ProtocolAction :=
  [⟨.send, passLine config.oauthToken, .system, []⟩,
    ⟨.send, bytes "NICK " ++ config.username ++ crlf, .system, []⟩,
    ⟨.send, bytes "CAP REQ :twitch.tv/membership twitch.tv/tags twitch.tv/commands" ++ crlf, .system, []⟩]

theorem begin_greets {config : RuntimeConfig} (valid : config.Valid) {protocol : SessionProtocol}
    (same : protocol.config = config) :
    protocol.begin = if protocol.state ≠ .disconnected ∧ protocol.state ≠ .tlsConnected then (.ok [], protocol)
      else (.ok (greetingActions config), { protocol with state := .authenticating }) := by
  obtain ⟨written, sameToken, _, short, plain⟩ := valid.oauthToken
  have pass := (speaks_pass short plain).1
  rw [← sameToken] at pass
  subst same
  simp only [begin, sendAction_of_encoded pass, sendAction_of_encoded (speaks_nick valid.username).1,
    sendAction_of_encoded speaks_cap.1]
  rfl

/-- `handle` sends nothing but the answer to a `PING` and the JOINs of the channels. -/
theorem handle_sends {protocol : SessionProtocol} {message : IrcMessage} {action : ProtocolAction}
    (member : action ∈ returnedActions (protocol.handle message).1) (isSend : action.kind = .send) :
    (∃ payload rest, message.command = bytes "PING" ∧ message.parameters = payload :: rest ∧
        sendAction .system [] (bytes "PONG :" ++ payload) = .ok action) ∨
      ∃ channel ∈ protocol.config.channels, sendAction .join channel (bytes "JOIN #" ++ channel) = .ok action := by
  rcases handle_answers protocol message with ⟨ping, _⟩ | ⟨last, next, terminal, result⟩ | result
  · cases parameters : message.parameters with
    | nil =>
      rw [SessionProtocol.handle, if_pos ping, parameters] at member
      cases member
    | cons payload rest =>
      rw [handle_ping ping parameters] at member
      cases sent : sendAction .system [] (bytes "PONG :" ++ payload) with
      | error what =>
        rw [sent] at member
        cases member
      | ok answer =>
        rw [sent] at member
        cases List.mem_singleton.mp (show action ∈ [answer] from member)
        exact Or.inl ⟨payload, rest, ping, rfl, sent⟩
  · rw [result] at member
    cases List.mem_singleton.mp (show action ∈ [last] from member)
    simp [isSend] at terminal
  · rw [result] at member
    rcases becomeReadyIfPossible_cases (protocol.recorded message) with ⟨quiet, _⟩ | ⟨loud, _⟩
    · rw [quiet] at member
      cases member
    · rw [loud, recorded_config] at member
      cases answered : readyActions protocol.config.channels with
      | error what =>
        rw [answered] at member
        cases member
      | ok actions =>
        rw [answered] at member
        obtain ⟨joins, run, rest⟩ := bind_eq_ok.mp answered
        cases Except.ok.inj rest
        rcases List.mem_cons.mp member with rfl | join
        · cases isSend
        · obtain ⟨channel, configured, sent⟩ := mapM_eq_ok run action join
          exact Or.inr ⟨channel, configured, sent⟩

end SessionProtocol

end TwitchBot
