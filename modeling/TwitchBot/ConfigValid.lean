import TwitchBot.Config

namespace TwitchBot

open ExceptRun

/-- What validation establishes of a text the bot is configured to say. -/
def SpeakableText (text : Bytes) : Prop :=
  text ≠ [] ∧ text.length ≤ 450 ∧ cr ∉ text ∧ lf ∉ text

/-- What validation establishes of a login or channel name. -/
def LoginName (name : Bytes) : Prop :=
  1 ≤ name.length ∧ name.length ≤ 25 ∧ ∀ c ∈ name, isLoginByte c = true

structure MessageRule.Valid (rule : MessageRule) : Prop where
  sender : LoginName rule.sender
  channel : ∀ channel ∈ rule.channel, LoginName channel
  response : SpeakableText rule.response

structure HypeSettings.Valid (hype : HypeSettings) : Prop where
  subscriptionMessages : ∀ text ∈ hype.subscriptionMessages, SpeakableText text
  giftMessages : ∀ text ∈ hype.giftMessages, SpeakableText text
  channel : hype.enabled = true → LoginName hype.channel
  nonempty : hype.enabled = true → hype.subscriptionMessages ≠ [] ∧ hype.giftMessages ≠ []

structure BotSettings.Valid (bot : BotSettings) : Prop where
  messageRules : ∀ rule ∈ bot.messageRules, rule.Valid
  hype : bot.hype.Valid

structure RuntimeConfig.Valid (config : RuntimeConfig) : Prop where
  username : LoginName config.username
  oauthToken : ∃ token, config.oauthToken = oauthPrefix ++ token ∧ 10 ≤ token.length ∧
    token.length ≤ 499 ∧ ∀ c ∈ token, isTokenByte c = true
  channels : ∀ channel ∈ config.channels, LoginName channel
  channels_nodup : config.channels.Nodup
  channels_nonempty : config.channels ≠ []
  channels_bound : config.channels.length ≤ 100
  bot : config.bot.Valid

theorem rejectLineBreaks_ok {field : String} {value : Bytes} (passed : rejectLineBreaks field value = .ok ()) :
    cr ∉ value ∧ lf ∉ value := by
  unfold rejectLineBreaks at passed
  split at passed
  · cases passed
  · rename_i unbroken
    exact containsLineBreak_eq_false.mp (by simpa using unbroken)

theorem normalizeLogin_ok {value name : Bytes} (run : normalizeLogin value = .ok name) : LoginName name := by
  simp only [normalizeLogin] at run
  split at run
  · rename_i matched
    cases Except.ok.inj run
    simp only [matchesLogin, Bool.and_eq_true, decide_eq_true_eq, List.all_eq_true] at matched
    exact ⟨matched.1.1, matched.1.2, matched.2⟩
  · cases run

theorem normalizeChannel_ok {value name : Bytes} (run : normalizeChannel value = .ok name) : LoginName name :=
  normalizeLogin_ok run

/-- What validation establishes of a token without its prefix. -/
structure AcceptedToken (token : Bytes) : Prop where
  long : 10 ≤ token.length
  short : token.length ≤ 499
  plain : ∀ c ∈ token, isTokenByte c = true
  proper : token ≠ bytes "replace_me" ∧ token ≠ bytes "your_user_access_token"

theorem normalizeOauthToken_accepted {value normalized : Bytes} (run : normalizeOauthToken value = .ok normalized) :
    ∃ token, normalized = oauthPrefix ++ token ∧ AcceptedToken token := by
  obtain ⟨_, _, run⟩ := bind_eq_ok.mp run
  simp only at run
  generalize (if oauthPrefix.isPrefixOf (trim value) then (trim value).drop oauthPrefix.length
    else trim value) = token at run
  split at run
  · cases run
  · rename_i proper
    split at run
    · cases run
    · rename_i clean
      obtain ⟨_, encoded, run⟩ := bind_eq_ok.mp run
      obtain ⟨_, _, _, short, _⟩ := encodeIrcLine_ok_iff.mp encoded
      have length : (bytes "PASS ").length = 5 ∧ oauthPrefix.length = 6 := by decide
      simp only [List.length_append, length, maxOutgoingPayloadBytes] at short
      simp only [not_or] at proper
      exact ⟨token, (Except.ok.inj run).symm, by omega, by omega, by simpa using clean, proper.1, proper.2.1⟩

theorem normalizeOauthToken_ok {value normalized : Bytes} (run : normalizeOauthToken value = .ok normalized) :
    ∃ token, normalized = oauthPrefix ++ token ∧ 10 ≤ token.length ∧ token.length ≤ 499 ∧
      ∀ c ∈ token, isTokenByte c = true := by
  obtain ⟨token, written, accepted⟩ := normalizeOauthToken_accepted run
  exact ⟨token, written, accepted.long, accepted.short, accepted.plain⟩

theorem readMessage_ok {value : Json} {field : String} {text : Bytes}
    (run : readMessage value field = .ok text) : SpeakableText text := by
  unfold readMessage at run
  split at run
  · obtain ⟨_, passed, run⟩ := bind_eq_ok.mp run
    obtain ⟨noCr, noLf⟩ := rejectLineBreaks_ok passed
    split at run
    · cases run
    · rename_i sized
      cases Except.ok.inj run
      simp only [Bool.or_eq_true, List.isEmpty_iff, decide_eq_true_eq, not_or, gt_iff_lt, not_lt] at sized
      exact ⟨sized.1, sized.2, noCr, noLf⟩
  · cases run

theorem readMessages_ok {object : Json} {key : String} {texts : List Bytes}
    (run : readMessages object key = .ok texts) : ∀ text ∈ texts, SpeakableText text := by
  unfold readMessages at run
  split at run
  · cases Except.ok.inj run
    simp
  · intro text member
    obtain ⟨value, _, read⟩ := mapM_eq_ok run text member
    exact readMessage_ok read
  · cases run

theorem readRuleChannel_ok {item : Json} {channel : Option Bytes}
    (run : readRuleChannel item = .ok channel) : ∀ name ∈ channel, LoginName name := by
  unfold readRuleChannel at run
  split at run
  · cases Except.ok.inj run
    simp
  split at run
  · cases Except.ok.inj run
    simp
  obtain ⟨_, _, run⟩ := bind_eq_ok.mp run
  obtain ⟨name, normalized, run⟩ := bind_eq_ok.mp run
  cases Except.ok.inj run
  intro name member
  cases member
  exact normalizeChannel_ok normalized

theorem readRule_ok {item : Json} {rule : MessageRule} (run : readRule item = .ok rule) : rule.Valid := by
  unfold readRule at run
  split at run
  · cases run
  obtain ⟨enabled, _, run⟩ := bind_eq_ok.mp run
  obtain ⟨_, _, run⟩ := bind_eq_ok.mp run
  obtain ⟨sender, readSender, run⟩ := bind_eq_ok.mp run
  obtain ⟨channel, readChannel, run⟩ := bind_eq_ok.mp run
  obtain ⟨contains, _, run⟩ := bind_eq_ok.mp run
  obtain ⟨_, _, run⟩ := bind_eq_ok.mp run
  split at run
  · cases run
  obtain ⟨_, _, run⟩ := bind_eq_ok.mp run
  obtain ⟨response, readResponse, run⟩ := bind_eq_ok.mp run
  obtain ⟨delay, _, run⟩ := bind_eq_ok.mp run
  obtain ⟨cooldown, _, run⟩ := bind_eq_ok.mp run
  cases Except.ok.inj run
  exact ⟨normalizeLogin_ok readSender, readRuleChannel_ok readChannel, readMessage_ok readResponse⟩

theorem readRules_ok {root : Json} {rules : List MessageRule} (run : readRules root = .ok rules) :
    ∀ rule ∈ rules, rule.Valid := by
  unfold readRules at run
  split at run
  · cases Except.ok.inj run
    simp
  · intro rule member
    obtain ⟨_, _, read⟩ := mapM_eq_ok run rule member
    exact readRule_ok read
  · cases run

theorem readHypeChannel_ok {hype : Json} {channel : Bytes} (run : readHypeChannel hype = .ok channel)
    (nonempty : channel ≠ []) : LoginName channel := by
  obtain ⟨written, _, run⟩ := bind_eq_ok.mp run
  split at run
  · exact absurd (Except.ok.inj run).symm nonempty
  · exact normalizeChannel_ok run

theorem readHype_ok {root : Json} {hype : HypeSettings} (run : readHype root = .ok hype) : hype.Valid := by
  unfold readHype at run
  split at run
  · cases Except.ok.inj run
    exact ⟨by simp, by simp, by simp, by simp⟩
  split at run
  · cases run
  obtain ⟨enabled, _, run⟩ := bind_eq_ok.mp run
  obtain ⟨channel, readChannel, run⟩ := bind_eq_ok.mp run
  obtain ⟨subscriptions, readSubscriptions, run⟩ := bind_eq_ok.mp run
  obtain ⟨gifts, readGifts, run⟩ := bind_eq_ok.mp run
  obtain ⟨delay, _, run⟩ := bind_eq_ok.mp run
  obtain ⟨cooldown, _, run⟩ := bind_eq_ok.mp run
  split at run
  · cases run
  rename_i complete
  cases Except.ok.inj run
  simp only [Bool.and_eq_true, Bool.or_eq_true, List.isEmpty_iff, not_and, not_or] at complete
  exact ⟨readMessages_ok readSubscriptions, readMessages_ok readGifts,
    fun isEnabled => readHypeChannel_ok readChannel (complete isEnabled).1.1,
    fun isEnabled => ⟨(complete isEnabled).1.2, (complete isEnabled).2⟩⟩

theorem parseBotSettings_ok {parseJson : JsonParser} {botJson : Bytes} {bot : BotSettings}
    (run : parseBotSettings parseJson botJson = .ok bot) : bot.Valid := by
  unfold parseBotSettings at run
  split at run
  · cases run
  split at run
  · cases run
  obtain ⟨rules, readRules, run⟩ := bind_eq_ok.mp run
  obtain ⟨hype, readHype, run⟩ := bind_eq_ok.mp run
  cases Except.ok.inj run
  exact ⟨readRules_ok readRules, readHype_ok readHype⟩

theorem readChannels_ok {items channels result : List Bytes} (run : readChannels items channels = .ok result)
    (names : ∀ channel ∈ channels, LoginName channel) (distinct : channels.Nodup) :
    (∀ channel ∈ result, LoginName channel) ∧ result.Nodup := by
  induction items generalizing channels with
  | nil =>
    cases Except.ok.inj run
    exact ⟨names, distinct⟩
  | cons item items ih =>
    obtain ⟨channel, normalized, run⟩ := bind_eq_ok.mp run
    by_cases seen : channel ∈ channels
    · rw [if_pos seen] at run
      exact ih run names distinct
    · rw [if_neg seen] at run
      refine ih run ?_ (by simpa [List.nodup_append] using ⟨distinct, fun a member same => seen (same ▸ member)⟩)
      intro name member
      rcases List.mem_append.mp member with old | new
      · exact names name old
      · cases List.mem_singleton.mp new
        exact normalizeChannel_ok normalized

/-- An accepted configuration satisfies everything that validation is for. -/
theorem parseRuntimeConfig_ok {parseJson : JsonParser} {environment : Environment} {botJson : Bytes}
    {config : RuntimeConfig} (accepted : parseRuntimeConfig parseJson environment botJson = .ok config) :
    config.Valid := by
  unfold parseRuntimeConfig at accepted
  obtain ⟨_, _, accepted⟩ := bind_eq_ok.mp accepted
  obtain ⟨username, login, accepted⟩ := bind_eq_ok.mp accepted
  obtain ⟨_, _, accepted⟩ := bind_eq_ok.mp accepted
  obtain ⟨token, oauth, accepted⟩ := bind_eq_ok.mp accepted
  obtain ⟨_, _, accepted⟩ := bind_eq_ok.mp accepted
  obtain ⟨channels, read, accepted⟩ := bind_eq_ok.mp accepted
  split at accepted
  · cases accepted
  rename_i count
  obtain ⟨logRawIrc, _, accepted⟩ := bind_eq_ok.mp accepted
  obtain ⟨bot, readBot, accepted⟩ := bind_eq_ok.mp accepted
  cases Except.ok.inj accepted
  obtain ⟨names, distinct⟩ := readChannels_ok read (by simp) List.nodup_nil
  simp only [Bool.or_eq_true, List.isEmpty_iff, decide_eq_true_eq, not_or, gt_iff_lt, not_lt] at count
  exact ⟨normalizeLogin_ok login, normalizeOauthToken_ok oauth, names, distinct, count.1, count.2,
    parseBotSettings_ok readBot⟩

/-- The environment of the project's own tests. -/
def validEnvironment : Environment :=
  ((Finmap.singleton (bytes "TWITCH_BOT_USERNAME") (bytes "Example_Bot")).insert
    (bytes "TWITCH_OAUTH_TOKEN") (bytes "unit_test_token_value")).insert
    (bytes "TWITCH_CHANNELS") (bytes "#One, two,ONE")

/-- A parser that knows the document `{}`. -/
def parseEmptyObject : JsonParser := fun text =>
  if text = bytes "{}" then .ok (.object []) else .error "unexpected input"

/-- The configuration of the project's own tests. -/
def validConfig : RuntimeConfig where
  username := bytes "example_bot"
  oauthToken := bytes "oauth:unit_test_token_value"
  channels := [bytes "one", bytes "two"]
  logRawIrc := false
  bot := {}

theorem validConfig_accepted :
    parseRuntimeConfig parseEmptyObject validEnvironment (bytes "{}") = .ok validConfig := by
  decide +kernel

/-- A document with a rule that answers `x` from the user `a` after two seconds, and with `hype`. -/
def chattyText : Bytes :=
  bytes ("\x7b\"messageRules\":[\x7b\"enabled\":true,\"sender\":\"a\",\"contains\":\"x\"," ++
    "\"response\":\"y\",\"delaySeconds\":2\x7d],\"hype\":\x7b\"enabled\":true,\"channel\":\"one\"," ++
    "\"subscriptionMessages\":[\"s\",\"t\"],\"giftMessages\":[\"g\",\"h\",\"i\"]\x7d\x7d")

/-- A parser that knows this document. -/
def parseChattyText : JsonParser := fun text =>
  if text = chattyText then
    .ok (.object [
      (bytes "messageRules", .array [.object [(bytes "enabled", .boolean true), (bytes "sender", .string (bytes "a")),
        (bytes "contains", .string (bytes "x")), (bytes "response", .string (bytes "y")),
        (bytes "delaySeconds", .numberUnsigned 2)]]),
      (bytes "hype", .object [(bytes "enabled", .boolean true), (bytes "channel", .string (bytes "one")),
        (bytes "subscriptionMessages", .array [.string (bytes "s"), .string (bytes "t")]),
        (bytes "giftMessages", .array [.string (bytes "g"), .string (bytes "h"), .string (bytes "i")])])])
  else .error "unexpected input"

def chattyRule : MessageRule where
  enabled := true
  sender := bytes "a"
  contains := bytes "x"
  response := bytes "y"
  delay := 2

def chattySettings : BotSettings where
  messageRules := [chattyRule]
  hype := ⟨true, bytes "one", [bytes "s", bytes "t"], [bytes "g", bytes "h", bytes "i"], 1, 2⟩

def chattyConfig : RuntimeConfig := { validConfig with bot := chattySettings }

theorem chattySettings_accepted : parseBotSettings parseChattyText chattyText = .ok chattySettings := by
  decide +kernel

theorem chattyConfig_accepted : parseRuntimeConfig parseChattyText validEnvironment chattyText = .ok chattyConfig := by
  decide +kernel

end TwitchBot
