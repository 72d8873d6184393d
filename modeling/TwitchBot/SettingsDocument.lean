import TwitchBot.ConfigCanonical

namespace TwitchBot

open ExceptRun

/-- Everything that the checks of a message rule establish. -/
structure MessageRule.Admissible (rule : MessageRule) : Prop where
  valid : rule.Valid
  contains : rule.contains ≠ [] ∧ rule.contains.length ≤ 400 ∧ cr ∉ rule.contains ∧ lf ∉ rule.contains
  delay : 0 ≤ rule.delay ∧ rule.delay ≤ 3600
  cooldown : 0 ≤ rule.cooldown ∧ rule.cooldown ≤ 86400

/-- Everything that the checks of `hype` establish. -/
structure HypeSettings.Admissible (hype : HypeSettings) : Prop where
  valid : hype.Valid
  channel : hype.channel ≠ [] → LoginName hype.channel
  delay : 0 ≤ hype.delay ∧ hype.delay ≤ 3600
  cooldown : 0 ≤ hype.cooldown ∧ hype.cooldown ≤ 86400

structure BotSettings.Admissible (bot : BotSettings) : Prop where
  messageRules : ∀ rule ∈ bot.messageRules, rule.Admissible
  hype : bot.hype.Admissible

/-- A duration as it is written in a document. -/
def secondsJson (value : Seconds) : Json := .numberUnsigned value.toNat

def MessageRule.document (rule : MessageRule) : Json :=
  .object [
    (bytes "enabled", .boolean rule.enabled),
    (bytes "sender", .string rule.sender),
    (bytes "channel", rule.channel.elim .null .string),
    (bytes "contains", .string rule.contains),
    (bytes "response", .string rule.response),
    (bytes "delaySeconds", secondsJson rule.delay),
    (bytes "cooldownSeconds", secondsJson rule.cooldown)]

def HypeSettings.document (hype : HypeSettings) : Json :=
  .object [
    (bytes "enabled", .boolean hype.enabled),
    (bytes "channel", .string hype.channel),
    (bytes "subscriptionMessages", .array (hype.subscriptionMessages.map .string)),
    (bytes "giftMessages", .array (hype.giftMessages.map .string)),
    (bytes "delaySeconds", secondsJson hype.delay),
    (bytes "cooldownSeconds", secondsJson hype.cooldown)]

/-- The document that writes settings out in full. -/
def BotSettings.document (bot : BotSettings) : Json :=
  .object [
    (bytes "messageRules", .array (bot.messageRules.map MessageRule.document)),
    (bytes "hype", bot.hype.document)]

theorem readSeconds_ok {object : Json} {key : String} {default_ maximum : Int} {value : Seconds}
    (run : readSeconds object key default_ maximum = .ok value) : 0 ≤ value ∧ value ≤ maximum := by
  obtain ⟨read, _, run⟩ := bind_eq_ok.mp run
  split at run
  · cases run
  · rename_i inside
    cases Except.ok.inj run
    simpa using inside

theorem readRule_admissible {item : Json} {rule : MessageRule} (run : readRule item = .ok rule) : rule.Admissible := by
  have valid := readRule_ok run
  unfold readRule at run
  split at run
  · cases run
  obtain ⟨enabled, _, run⟩ := bind_eq_ok.mp run
  obtain ⟨_, _, run⟩ := bind_eq_ok.mp run
  obtain ⟨sender, _, run⟩ := bind_eq_ok.mp run
  obtain ⟨channel, _, run⟩ := bind_eq_ok.mp run
  obtain ⟨contains, _, run⟩ := bind_eq_ok.mp run
  obtain ⟨_, unbroken, run⟩ := bind_eq_ok.mp run
  split at run
  · cases run
  rename_i sized
  obtain ⟨_, _, run⟩ := bind_eq_ok.mp run
  obtain ⟨response, _, run⟩ := bind_eq_ok.mp run
  obtain ⟨delay, readDelay, run⟩ := bind_eq_ok.mp run
  obtain ⟨cooldown, readCooldown, run⟩ := bind_eq_ok.mp run
  cases Except.ok.inj run
  simp only [Bool.or_eq_true, List.isEmpty_iff, decide_eq_true_eq, not_or, gt_iff_lt, not_lt] at sized
  exact ⟨valid, ⟨sized.1, sized.2, rejectLineBreaks_ok unbroken⟩, readSeconds_ok readDelay,
    readSeconds_ok readCooldown⟩

theorem readHype_admissible {root : Json} {hype : HypeSettings} (run : readHype root = .ok hype) :
    hype.Admissible := by
  have valid := readHype_ok run
  unfold readHype at run
  split at run
  · cases Except.ok.inj run
    exact ⟨valid, fun nonempty => absurd rfl nonempty, by decide, by decide⟩
  split at run
  · cases run
  obtain ⟨enabled, _, run⟩ := bind_eq_ok.mp run
  obtain ⟨channel, readChannel, run⟩ := bind_eq_ok.mp run
  obtain ⟨subscriptions, _, run⟩ := bind_eq_ok.mp run
  obtain ⟨gifts, _, run⟩ := bind_eq_ok.mp run
  obtain ⟨delay, readDelay, run⟩ := bind_eq_ok.mp run
  obtain ⟨cooldown, readCooldown, run⟩ := bind_eq_ok.mp run
  split at run
  · cases run
  cases Except.ok.inj run
  exact ⟨valid, readHypeChannel_ok readChannel, readSeconds_ok readDelay, readSeconds_ok readCooldown⟩

/-- Accepted settings are within all bounds. -/
theorem parseBotSettings_admissible {parseJson : JsonParser} {botJson : Bytes} {bot : BotSettings}
    (run : parseBotSettings parseJson botJson = .ok bot) : bot.Admissible := by
  unfold parseBotSettings at run
  split at run
  · cases run
  split at run
  · cases run
  obtain ⟨rules, readRules, run⟩ := bind_eq_ok.mp run
  obtain ⟨hype, readHype, run⟩ := bind_eq_ok.mp run
  cases Except.ok.inj run
  refine ⟨?_, readHype_admissible readHype⟩
  unfold TwitchBot.readRules at readRules
  split at readRules
  · cases Except.ok.inj readRules
    simp
  · intro rule member
    obtain ⟨_, _, read⟩ := mapM_eq_ok readRules rule member
    exact readRule_admissible read
  · cases readRules

/-- The value at a key, as it is read from an object. -/
theorem Json.value_of_find {α : Type} {get : Json → Except String α} {json found : Json} {key : String}
    (atKey : json.find? key = some found) (default_ : α) : json.value get key default_ = get found := by
  simp only [Json.value, atKey]

theorem readSeconds_document {object : Json} {key : String} {value : Int}
    (atKey : object.find? key = some (secondsJson value)) {maximum : Int} (bounds : 0 ≤ value ∧ value ≤ maximum)
    (small : maximum ≤ 86400) (default_ : Int) : readSeconds object key default_ maximum = .ok value := by
  have cast : Json.castInt (value.toNat : Int) = value := by
    rw [Int.toNat_of_nonneg bounds.1, Json.castInt]
    refine Int.bmod_eq_of_le ?_ ?_ <;> omega
  have inside : ¬ (value < 0 ∨ value > maximum) := by omega
  simp only [readSeconds, Json.value_of_find atKey, secondsJson, Json.getInt, cast, ok_bind, if_neg inside, pure_eq_ok]

theorem readMessage_document {text : Bytes} (speakable : SpeakableText text) (field : String) :
    readMessage (.string text) field = .ok text := by
  obtain ⟨nonempty, short, noCr, noLf⟩ := speakable
  have clean : rejectLineBreaks field text = .ok () := by
    simp [rejectLineBreaks, containsLineBreak_eq_false.mpr ⟨noCr, noLf⟩]
  have sized : ¬ (text.isEmpty || decide (text.length > 450)) = true := by simp [nonempty, short]
  simp only [readMessage, clean, ok_bind, if_neg sized, pure_eq_ok]

theorem readMessages_document {object : Json} {key : String} {texts : List Bytes}
    (atKey : object.find? key = some (.array (texts.map .string))) (speakable : ∀ text ∈ texts, SpeakableText text) :
    readMessages object key = .ok texts := by
  simp only [readMessages, atKey]
  exact mapM_map_ok (fun text member => readMessage_document (speakable text member) key)

/-- A channel name without its `#` is its own normal form. -/
theorem LoginName.normalizedChannel {name : Bytes} (login : LoginName name) : normalizeChannel name = .ok name :=
  Spelled.normalized (Or.inl rfl) login

theorem readRuleChannel_document {item : Json} {channel : Option Bytes}
    (atKey : item.find? "channel" = some (channel.elim .null .string)) (logins : ∀ name ∈ channel, LoginName name) :
    readRuleChannel item = .ok channel := by
  cases channel with
  | none => simp [readRuleChannel, atKey, Json.isNull]
  | some name =>
    simp [readRuleChannel, atKey, Json.isNull, Json.getString, (logins name rfl).normalizedChannel]

theorem readRule_document {rule : MessageRule} (admissible : rule.Admissible) : readRule rule.document = .ok rule := by
  obtain ⟨valid, ⟨someText, short, noCr, noLf⟩, delay, cooldown⟩ := admissible
  have clean : rejectLineBreaks "messageRules.contains" rule.contains = .ok () := by
    simp [rejectLineBreaks, containsLineBreak_eq_false.mpr ⟨noCr, noLf⟩]
  have sized : ¬ (rule.contains.isEmpty || decide (rule.contains.length > 400)) = true := by simp [someText, short]
  have enabled : rule.document.find? "enabled" = some (.boolean rule.enabled) := rfl
  have sender : rule.document.find? "sender" = some (.string rule.sender) := rfl
  have channel : rule.document.find? "channel" = some (rule.channel.elim .null .string) := rfl
  have contains : rule.document.find? "contains" = some (.string rule.contains) := rfl
  have response : rule.document.at_ "response" = .ok (.string rule.response) := rfl
  have delayed : rule.document.find? "delaySeconds" = some (secondsJson rule.delay) := rfl
  have cooled : rule.document.find? "cooldownSeconds" = some (secondsJson rule.cooldown) := rfl
  have isObject : ¬ (!rule.document.isObject) = true := by simp [MessageRule.document, Json.isObject]
  simp only [readRule, if_neg isObject, Json.value_of_find enabled, Json.value_of_find sender,
    Json.value_of_find contains, Json.getBool, Json.getString, ok_bind, valid.sender.normalized,
    readRuleChannel_document channel valid.channel, clean, if_neg sized, response,
    readMessage_document valid.response, readSeconds_document delayed delay (by decide),
    readSeconds_document cooled cooldown (by decide), pure_eq_ok]

theorem readHypeChannel_document {hype : Json} {channel : Bytes} (atKey : hype.find? "channel" = some (.string channel))
    (login : channel ≠ [] → LoginName channel) : readHypeChannel hype = .ok channel := by
  simp only [readHypeChannel, Json.value_of_find atKey, Json.getString, ok_bind]
  split
  · rename_i empty
    rw [List.isEmpty_iff.mp empty]
    rfl
  · rename_i nonempty
    exact (login (by simpa using nonempty)).normalizedChannel

theorem readHype_document {root : Json} {hype : HypeSettings} (atKey : root.find? "hype" = some hype.document)
    (admissible : hype.Admissible) : readHype root = .ok hype := by
  obtain ⟨valid, channelLogin, delay, cooldown⟩ := admissible
  have enabled : hype.document.find? "enabled" = some (.boolean hype.enabled) := rfl
  have channel : hype.document.find? "channel" = some (.string hype.channel) := rfl
  have subscriptions : hype.document.find? "subscriptionMessages" =
    some (.array (hype.subscriptionMessages.map .string)) := rfl
  have gifts : hype.document.find? "giftMessages" = some (.array (hype.giftMessages.map .string)) := rfl
  have delayed : hype.document.find? "delaySeconds" = some (secondsJson hype.delay) := rfl
  have cooled : hype.document.find? "cooldownSeconds" = some (secondsJson hype.cooldown) := rfl
  have isObject : ¬ (!hype.document.isObject) = true := by simp [HypeSettings.document, Json.isObject]
  have complete : ¬ (hype.enabled && (hype.channel.isEmpty || hype.subscriptionMessages.isEmpty ||
      hype.giftMessages.isEmpty)) = true := by
    cases isEnabled : hype.enabled with
    | false => simp
    | true =>
      have someChannel := List.length_pos_iff.mp (valid.channel isEnabled).1
      simp [someChannel, valid.nonempty isEnabled]
  simp only [readHype, atKey, if_neg isObject, Json.value_of_find enabled, Json.getBool, ok_bind,
    readHypeChannel_document channel channelLogin, readMessages_document subscriptions valid.subscriptionMessages,
    readMessages_document gifts valid.giftMessages, readSeconds_document delayed delay (by decide),
    readSeconds_document cooled cooldown (by decide), if_neg complete, pure_eq_ok]

theorem parseBotSettings_document {bot : BotSettings} (admissible : bot.Admissible) {parseJson : JsonParser}
    {botJson : Bytes} (parsed : parseJson botJson = .ok bot.document) :
    parseBotSettings parseJson botJson = .ok bot := by
  have rules : readRules bot.document = .ok bot.messageRules := by
    have atKey : bot.document.find? "messageRules" = some (.array (bot.messageRules.map MessageRule.document)) := rfl
    simp only [readRules, atKey]
    exact mapM_map_ok (fun rule member => readRule_document (admissible.messageRules rule member))
  have isObject : ¬ (!bot.document.isObject) = true := by simp [BotSettings.document, Json.isObject]
  have hype : readHype bot.document = .ok bot.hype := readHype_document rfl admissible.hype
  simp only [parseBotSettings, parsed, if_neg isObject, rules, hype, ok_bind, pure_eq_ok]

/-- Everything that the checks of a configuration establish. -/
structure RuntimeConfig.Admissible (config : RuntimeConfig) : Prop where
  valid : config.Valid
  token : ∃ token, config.oauthToken = oauthPrefix ++ token ∧ AcceptedToken token
  bot : config.bot.Admissible

/-- The environment that writes the rest of a configuration out in full. -/
def RuntimeConfig.environment (config : RuntimeConfig) : Environment :=
  (((Finmap.singleton (bytes "TWITCH_BOT_USERNAME") config.username).insert
    (bytes "TWITCH_OAUTH_TOKEN") config.oauthToken).insert
    (bytes "TWITCH_CHANNELS") ([comma].intercalate config.channels)).insert
    (bytes "TWITCH_LOG_RAW_IRC") (if config.logRawIrc then bytes "true" else bytes "false")

theorem RuntimeConfig.environment_spells (config : RuntimeConfig) : Spells config.environment config := by
  have distinct : [bytes "TWITCH_BOT_USERNAME", bytes "TWITCH_OAUTH_TOKEN", bytes "TWITCH_CHANNELS",
      bytes "TWITCH_LOG_RAW_IRC"].Nodup := by decide
  simp only [List.nodup_cons, List.mem_cons, List.not_mem_nil, or_false, not_or] at distinct
  obtain ⟨⟨userToken, userChannels, userLog⟩, ⟨tokenChannels, tokenLog⟩, channelsLog, _⟩ := distinct
  refine ⟨?_, ?_, ⟨config.channels, List.forall₂_same.mpr (fun _ _ => Or.inl rfl), ?_⟩, ?_⟩
  · simp only [environment, Finmap.lookup_insert_of_ne _ userLog, Finmap.lookup_insert_of_ne _ userChannels,
      Finmap.lookup_insert_of_ne _ userToken, Finmap.lookup_singleton_eq]
  · simp only [environment, Finmap.lookup_insert_of_ne _ tokenLog, Finmap.lookup_insert_of_ne _ tokenChannels,
      Finmap.lookup_insert]
  · simp only [environment, Finmap.lookup_insert_of_ne _ channelsLog, Finmap.lookup_insert]
  · simp only [environment, Finmap.lookup_insert]

/-- What is accepted is exactly what can be written out: an accepted
configuration is within all bounds, and the environment and the document that
write out a configuration within all bounds are read back as that configuration. -/
theorem config_round_trip (config : RuntimeConfig) :
    (∀ parseJson environment botJson, parseRuntimeConfig parseJson environment botJson = .ok config →
        config.Admissible) ∧
      (config.Admissible → ∀ (parseJson : JsonParser) (botJson : Bytes), parseJson botJson = .ok config.bot.document →
        parseRuntimeConfig parseJson config.environment botJson = .ok config) := by
  refine ⟨fun parseJson environment botJson accepted => ?_, fun admissible parseJson botJson parsed => ?_⟩
  · have read := parseRuntimeConfig_read accepted
    exact ⟨parseRuntimeConfig_ok accepted, read.token, parseBotSettings_admissible read.bot⟩
  · exact parseRuntimeConfig_spelled admissible.valid admissible.token
      (parseBotSettings_document admissible.bot parsed) config.environment_spells

/-- A configuration with a rule and with `hype` is written out and read back. -/
theorem config_round_trip_chatty :
    parseRuntimeConfig (fun _ => .ok chattyConfig.bot.document) chattyConfig.environment [] =
      .ok chattyConfig :=
  (config_round_trip chattyConfig).2 ((config_round_trip chattyConfig).1 _ _ _ chattyConfig_accepted) _ _ rfl

end TwitchBot
