import TwitchBot.AutomationCases
import TwitchBot.ReadyGating

namespace TwitchBot

open ExceptRun SessionProtocol

/-- The lines a session sends on its own account, as the server reads them. -/
def SpokenLogin (config : RuntimeConfig) (data : Bytes) : Prop :=
  Speaks data "PASS" [config.oauthToken] ∨ Speaks data "NICK" [config.username] ∨
    Speaks data "CAP" [bytes "REQ", capabilityList] ∨
    ∃ channel ∈ config.channels, Speaks data "JOIN" [hashSign :: channel]

/-- A valid configuration lets `begin` encode its three lines. -/
theorem begin_spoken {config : RuntimeConfig} (valid : config.Valid) {protocol : SessionProtocol}
    (same : protocol.config = config) :
    ∃ returned, protocol.begin.1 = .ok returned ∧
      ∀ action ∈ returned, action.kind = .send → SpokenLogin config action.data := by
  unfold begin
  split
  · exact ⟨[], rfl, by simp⟩
  · obtain ⟨token, written, _, short, plain⟩ := valid.oauthToken
    obtain ⟨passEncoded, passSpoken⟩ := speaks_pass short plain
    obtain ⟨nickEncoded, nickSpoken⟩ := speaks_nick valid.username
    obtain ⟨capEncoded, capSpoken⟩ := speaks_cap
    rw [← written] at passEncoded passSpoken
    simp only [same, sendAction_of_encoded passEncoded, sendAction_of_encoded nickEncoded,
      sendAction_of_encoded capEncoded]
    refine ⟨_, rfl, ?_⟩
    intro action member _
    simp only [List.mem_cons, List.not_mem_nil, or_false] at member
    rcases member with rfl | rfl | rfl
    · exact Or.inl passSpoken
    · exact Or.inr (Or.inl nickSpoken)
    · exact Or.inr (Or.inr (Or.inl capSpoken))

theorem readyActions_spoken {config : RuntimeConfig} (valid : config.Valid) :
    ∃ returned, readyActions config.channels = .ok returned ∧
      ∀ action ∈ returned, action.kind = .send → SpokenLogin config action.data := by
  refine ⟨_, readyActions_ok valid.channels, ?_⟩
  intro action member isSend
  rcases List.mem_cons.mp member with rfl | join
  · cases isSend
  · obtain ⟨channel, configured, rfl⟩ := List.mem_map.mp join
    exact Or.inr (Or.inr (Or.inr ⟨channel, configured, (speaks_join (valid.channels channel configured)).2⟩))

/-- Messages other than `PING` never make `handle` throw. -/
theorem handle_spoken {config : RuntimeConfig} (valid : config.Valid) {protocol : SessionProtocol}
    (same : protocol.config = config) {message : IrcMessage} (notPing : message.command ≠ bytes "PING") :
    ∃ returned, (protocol.handle message).1 = .ok returned ∧
      ∀ action ∈ returned, action.kind = .send → SpokenLogin config action.data := by
  rcases handle_answers protocol message with ⟨ping, _⟩ | ⟨action, next, terminal, result⟩ | result
  · exact absurd ping notPing
  · refine ⟨[action], by rw [result], ?_⟩
    intro other member isSend
    rw [List.mem_singleton.mp member] at isSend
    simp [isSend] at terminal
  · rw [result]
    rcases becomeReadyIfPossible_cases (protocol.recorded message) with ⟨quiet, _⟩ | ⟨loud, _⟩
    · exact ⟨[], by rw [quiet], by simp⟩
    · rw [loud, recorded_config, same]
      exact readyActions_spoken valid

inductive AutomationCall
  | handle (message : IrcMessage) (now : Time)
  | resetSession

namespace AutomationEngine

def call (engine : AutomationEngine) : AutomationCall → AutomationEngine
  | .handle message now => (engine.handle message now).2
  | .resetSession => engine.resetSession

/-- The engine behind a sequence of calls. -/
def after (engine : AutomationEngine) (calls : List AutomationCall) : AutomationEngine :=
  calls.foldl call engine

/-- An engine keeps its settings and can look up the next text of each rotation. -/
structure Sound (settings : BotSettings) (engine : AutomationEngine) : Prop where
  same : engine.settings = settings
  subscriptionIndex : settings.hype.enabled = true →
    engine.subscriptionIndex < settings.hype.subscriptionMessages.length
  giftIndex : settings.hype.enabled = true → engine.giftIndex < settings.hype.giftMessages.length

end AutomationEngine

open AutomationEngine

/-- All texts the automation is configured to say. -/
def configuredTexts (settings : BotSettings) : List Bytes :=
  settings.messageRules.map (·.response) ++ settings.hype.subscriptionMessages ++ settings.hype.giftMessages

theorem configuredTexts_speakable {settings : BotSettings} (valid : settings.Valid) {text : Bytes}
    (configured : text ∈ configuredTexts settings) : SpeakableText text := by
  simp only [configuredTexts, List.mem_append, List.mem_map] at configured
  rcases configured with (⟨rule, member, rfl⟩ | subscription) | gift
  · exact (valid.messageRules rule member).response
  · exact valid.hype.subscriptionMessages text subscription
  · exact valid.hype.giftMessages text gift

/-- A chat message to a proper channel with a configured text. -/
def Proper (settings : BotSettings) (chat : ScheduledChatMessage) : Prop :=
  LoginName chat.channel ∧ chat.text ∈ configuredTexts settings

theorem channelFromMessage_login {message : IrcMessage} {channel : Bytes}
    (found : channelFromMessage message = some channel) : LoginName channel := by
  unfold channelFromMessage at found
  split at found
  · cases found
  · rename_i first _ _
    cases normalized : normalizeChannel first with
    | error what => simp [normalized, Except.toOption] at found
    | ok name =>
      rw [normalized] at found
      cases Option.some.inj found
      exact normalizeChannel_ok normalized

theorem ruleLoop_response (sender channel text : Bytes) (now : Time) (rules : List MessageRule)
    (times : List (Option Time)) : ∀ chat ∈ (ruleLoop sender channel text now rules times).1,
      chat.channel = channel ∧ ∃ rule ∈ rules, chat.text = rule.response := by
  induction rules generalizing times with
  | nil => simp [ruleLoop]
  | cons rule rules ih =>
    cases times with
    | nil => simp [ruleLoop]
    | cons lastSent times =>
      have later : ∀ chat ∈ (ruleLoop sender channel text now rules times).1,
          chat.channel = channel ∧ ∃ other ∈ rule :: rules, chat.text = other.response := by
        intro chat member
        obtain ⟨place, other, configured, response⟩ := ih times chat member
        exact ⟨place, other, List.mem_cons_of_mem _ configured, response⟩
      intro chat member
      simp only [ruleLoop] at member
      split at member
      · exact later chat member
      · rcases List.mem_cons.mp member with rfl | old
        · exact ⟨rfl, rule, List.mem_cons_self, rfl⟩
        · exact later chat old

theorem rotated_lt {index length : Nat} (bound : index < length) : (index + 1) % length < length :=
  Nat.mod_lt _ (by omega)

namespace AutomationEngine

theorem new_sound {settings : BotSettings} (valid : settings.Valid) : Sound settings (new settings) :=
  ⟨rfl, fun enabled => List.length_pos_iff.mpr (valid.hype.nonempty enabled).1,
    fun enabled => List.length_pos_iff.mpr (valid.hype.nonempty enabled).2⟩

theorem handlePrivmsg_sound {settings : BotSettings} {engine : AutomationEngine} (sound : Sound settings engine)
    (message : IrcMessage) (now : Time) :
    (∀ chat ∈ (engine.handlePrivmsg message now).1, Proper settings chat) ∧
      Sound settings (engine.handlePrivmsg message now).2 := by
  unfold handlePrivmsg
  split
  · exact ⟨by simp, sound⟩
  · split
    · rename_i sender channel _ found
      refine ⟨fun chat member => ?_, sound.same, sound.subscriptionIndex, sound.giftIndex⟩
      obtain ⟨place, rule, configured, response⟩ := ruleLoop_response _ _ _ _ _ _ chat member
      rw [sound.same] at configured
      refine ⟨place ▸ channelFromMessage_login found, ?_⟩
      simp only [configuredTexts, List.mem_append, List.mem_map]
      exact Or.inl (Or.inl ⟨rule, configured, response.symm⟩)
    · exact ⟨by simp, sound⟩

/-- The rotation finds its next text. -/
theorem Sound.rotate_ne_error {settings : BotSettings} {engine : AutomationEngine} (sound : Sound settings engine)
    (enabled : engine.settings.hype.enabled = true) {event : Bytes} {what : String} :
    engine.rotate event ≠ .error what := by
  obtain ⟨rfl, subscription, gift⟩ := sound
  intro thrown
  rcases rotate_error thrown with outside | outside
  · exact absurd (List.getElem?_eq_none_iff.mp outside) (Nat.not_le.mpr (subscription enabled))
  · exact absurd (List.getElem?_eq_none_iff.mp outside) (Nat.not_le.mpr (gift enabled))

/-- The rotation stays in range and says configured texts. -/
theorem Rotates.sound {settings : BotSettings} {engine next : AutomationEngine} {event response : Bytes}
    (rotates : Rotates engine event response next) (sound : Sound settings engine)
    (enabled : engine.settings.hype.enabled = true) :
    response ∈ configuredTexts settings ∧ Sound settings next := by
  obtain ⟨rfl, subscription, gift⟩ := sound
  cases rotates with
  | subscription _ read =>
    refine ⟨?_, rfl, fun _ => rotated_lt (subscription enabled), gift⟩
    exact List.mem_append_left _ (List.mem_append_right _ (List.mem_of_getElem? read))
  | gift _ _ read =>
    refine ⟨?_, rfl, subscription, fun _ => rotated_lt (gift enabled)⟩
    exact List.mem_append_right _ (List.mem_of_getElem? read)

theorem handleUsernotice_sound {settings : BotSettings} {engine : AutomationEngine}
    (sound : Sound settings engine) (message : IrcMessage) (now : Time) :
    (∃ output, (engine.handleUsernotice message now).1 = .ok output ∧
        ∀ chat ∈ output, Proper settings chat) ∧
      Sound settings (engine.handleUsernotice message now).2 := by
  rcases handleUsernotice_cases engine message now with quiet | ⟨event, what, enabled, thrown, _⟩ |
    ⟨channel, event, response, next, answers, said⟩
  · rw [quiet]
    exact ⟨⟨[], rfl, by simp⟩, sound⟩
  · exact absurd thrown (sound.rotate_ne_error enabled)
  · obtain ⟨configured, nextSound⟩ := answers.rotates.sound sound answers.enabled
    rw [said]
    refine ⟨⟨_, rfl, ?_⟩, nextSound.same, nextSound.subscriptionIndex, nextSound.giftIndex⟩
    intro chat member
    cases List.mem_singleton.mp member
    exact ⟨channelFromMessage_login answers.foundChannel, configured⟩

/-- One call of `handle` never throws, says proper messages only and keeps the engine sound. -/
theorem handle_sound {settings : BotSettings} {engine : AutomationEngine} (sound : Sound settings engine)
    (message : IrcMessage) (now : Time) :
    (∃ output, (engine.handle message now).1 = .ok output ∧ ∀ chat ∈ output, Proper settings chat) ∧
      Sound settings (engine.handle message now).2 := by
  unfold handle
  split
  · obtain ⟨proper, kept⟩ := handlePrivmsg_sound sound message now
    exact ⟨⟨_, rfl, proper⟩, kept⟩
  · split
    · exact handleUsernotice_sound sound message now
    · exact ⟨⟨[], rfl, by simp⟩, sound⟩

theorem after_sound {settings : BotSettings} {engine : AutomationEngine} (sound : Sound settings engine)
    (calls : List AutomationCall) : Sound settings (engine.after calls) := by
  induction calls generalizing engine with
  | nil => exact sound
  | cons call calls ih =>
    cases call with
    | handle message now => exact ih (handle_sound sound message now).2
    | resetSession => exact ih ⟨sound.same, fun enabled =>
        Nat.zero_lt_of_lt (sound.subscriptionIndex enabled),
        fun enabled => Nat.zero_lt_of_lt (sound.giftIndex enabled)⟩

end AutomationEngine

theorem Proper.spoken {settings : BotSettings} (valid : settings.Valid) {chat : ScheduledChatMessage}
    (proper : Proper settings chat) :
    ∃ data, makePrivmsg chat.channel chat.text = .ok data ∧
      Speaks data "PRIVMSG" [hashSign :: chat.channel, chat.text] :=
  speaks_privmsg proper.1 (configuredTexts_speakable valid proper.2)

/-- An accepted configuration can always be spoken: after any calls, the
protocol encodes its login and JOIN lines and the automation returns only chat
messages with configured texts that can be encoded. -/
theorem config_spoken {parseJson : JsonParser} {environment : Environment} {botJson : Bytes}
    {config : RuntimeConfig} (accepted : parseRuntimeConfig parseJson environment botJson = .ok config) :
    (∀ (calls : List ProtocolCall) (call : ProtocolCall),
        (∀ message, call = .handle message → message.command ≠ bytes "PING") →
          ∃ returned, ((SessionProtocol.after { config } calls).call call).1 = .ok returned ∧
            ∀ action ∈ returned, action.kind = .send → SpokenLogin config action.data) ∧
      ∀ (calls : List AutomationCall) (message : IrcMessage) (now : Time),
        ∃ output, (((AutomationEngine.new config.bot).after calls).handle message now).1 = .ok output ∧
          ∀ chat ∈ output, chat.text ∈ configuredTexts config.bot ∧
            ∃ data, makePrivmsg chat.channel chat.text = .ok data ∧
              Speaks data "PRIVMSG" [hashSign :: chat.channel, chat.text] := by
  have valid := parseRuntimeConfig_ok accepted
  refine ⟨?_, ?_⟩
  · intro calls call notPing
    have same := (gated_after config calls).config
    cases call with
    | begin => exact begin_spoken valid same
    | handle message => exact handle_spoken valid same (notPing message rfl)
  · intro calls message now
    have sound := after_sound (new_sound valid.bot) calls
    obtain ⟨⟨output, run, proper⟩, _⟩ := handle_sound sound message now
    exact ⟨output, run, fun chat member =>
      ⟨(proper chat member).2, (proper chat member).spoken valid.bot⟩⟩

theorem config_spoken_begin :
    ∃ returned, (SessionProtocol.begin { config := validConfig }).1 = .ok returned ∧
      ∀ action ∈ returned, action.kind = .send → SpokenLogin validConfig action.data :=
  (config_spoken validConfig_accepted).1 [] .begin (by simp)

end TwitchBot
