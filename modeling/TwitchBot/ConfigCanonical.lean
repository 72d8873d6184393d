import TwitchBot.SpokenLines
import TwitchBot.Trim

namespace TwitchBot

open ExceptRun

theorem isLoginByte_canonical (c : UInt8) (login : isLoginByte c = true) :
    isSpace c = false ∧ c ≠ hashSign ∧ c ≠ comma ∧ toLower c = c := by
  revert login
  exact forall_byte (p := fun c => isLoginByte c = true →
    isSpace c = false ∧ c ≠ hashSign ∧ c ≠ comma ∧ toLower c = c) (by decide +kernel) c

theorem isTokenByte_canonical (c : UInt8) (token : isTokenByte c = true) : isSpace c = false := by
  revert token
  exact forall_byte (p := fun c => isTokenByte c = true → isSpace c = false) (by decide +kernel) c

theorem LoginName.edges {name : Bytes} (login : LoginName name) : PlainEdges name :=
  .of_mem (fun c member => (isLoginByte_canonical c (login.2.2 c member)).1)

/-- A login name is its own normal form. -/
theorem LoginName.normalized {name : Bytes} (login : LoginName name) : normalizeLogin name = .ok name := by
  have lower : name.map toLower = name := by
    conv_rhs => rw [← List.map_id name]
    exact List.map_congr_left (fun c member => (isLoginByte_canonical c (login.2.2 c member)).2.2.2)
  have matched : matchesLogin name = true := by
    simp only [matchesLogin, Bool.and_eq_true, decide_eq_true_eq, List.all_eq_true]
    exact ⟨⟨login.1, login.2.1⟩, login.2.2⟩
  simp only [normalizeLogin, trim_eq_self login.edges, lower, if_pos matched]

/-- A channel is written with or without its `#`. -/
def Spelled (written channel : Bytes) : Prop := written = channel ∨ written = hashSign :: channel

theorem Spelled.plain {written channel : Bytes} (spelled : Spelled written channel) (login : LoginName channel) :
    written ≠ [] ∧ ∀ c ∈ written, isSpace c = false ∧ c ≠ comma := by
  have each : ∀ c ∈ channel, isSpace c = false ∧ c ≠ comma := by
    intro c member
    obtain ⟨notSpace, _, notComma, _⟩ := isLoginByte_canonical c (login.2.2 c member)
    exact ⟨notSpace, notComma⟩
  rcases spelled with rfl | rfl
  · exact ⟨List.length_pos_iff.mp login.1, each⟩
  · refine ⟨by simp, ?_⟩
    intro c member
    rcases List.mem_cons.mp member with rfl | inName
    · decide
    · exact each c inName

theorem Spelled.normalized {written channel : Bytes} (spelled : Spelled written channel) (login : LoginName channel) :
    normalizeChannel written = .ok channel := by
  have edges := PlainEdges.of_mem (fun c member => ((spelled.plain login).2 c member).1)
  simp only [normalizeChannel, trim_eq_self edges]
  rcases spelled with rfl | rfl
  · have other : written.head? ≠ some hashSign := by
      intro head
      have hash := login.2.2 hashSign (List.mem_of_mem_head? head)
      exact absurd hash (by decide)
    rw [if_neg other, login.normalized]
  · simp only [List.head?_cons, if_true, List.tail_cons, login.normalized]

theorem AcceptedToken.unspaced {token : Bytes} (accepted : AcceptedToken token) :
    ∀ c ∈ oauthPrefix ++ token, isSpace c = false ∧ c ≠ cr ∧ c ≠ lf := by
  intro c member
  rcases List.mem_append.mp member with inPrefix | inToken
  · have all : oauthPrefix.all (fun c => !isSpace c && c != cr && c != lf) = true := by decide
    simpa [and_assoc] using List.all_eq_true.mp all c inPrefix
  · exact ⟨isTokenByte_canonical c (accepted.plain c inToken), (isTokenByte_plain c (accepted.plain c inToken)).2⟩

/-- A normalized token is its own normal form. -/
theorem AcceptedToken.normalized {token : Bytes} (accepted : AcceptedToken token) :
    normalizeOauthToken (oauthPrefix ++ token) = .ok (oauthPrefix ++ token) := by
  have plain := accepted.unspaced
  have trimmed : trim (oauthPrefix ++ token) = oauthPrefix ++ token :=
    trim_eq_self (.of_mem (fun c member => (plain c member).1))
  have unbroken : rejectLineBreaks "TWITCH_OAUTH_TOKEN" (oauthPrefix ++ token) = .ok () := by
    have clean : containsLineBreak (oauthPrefix ++ token) = false :=
      containsLineBreak_eq_false.mpr ⟨fun member => (plain cr member).2.1 rfl, fun member => (plain lf member).2.2 rfl⟩
    simp [rejectLineBreaks, clean]
  have stripped : (if oauthPrefix.isPrefixOf (oauthPrefix ++ token) then
      (oauthPrefix ++ token).drop oauthPrefix.length else oauthPrefix ++ token) = token := by
    simp
  have proper : ¬ (token = bytes "replace_me" ∨ token = bytes "your_user_access_token" ∨ token.length < 10) := by
    have long := accepted.long
    simp only [accepted.proper.1, accepted.proper.2, false_or]
    omega
  have clean : ¬ (!token.all isTokenByte) = true := by simpa using accepted.plain
  have encoded := (speaks_pass accepted.short accepted.plain).1
  simp only [normalizeOauthToken, trimmed, unbroken, ok_bind, stripped, if_neg proper, if_neg clean, encoded,
    pure_eq_ok]

theorem requireEnvironment_eq {environment : Environment} {key : String} {value : Bytes}
    (atKey : environment.lookup (bytes key) = some value) (edges : PlainEdges value) (nonempty : value ≠ []) :
    requireEnvironment environment key = .ok value := by
  have notEmpty : ¬ value.isEmpty = true := by simpa using nonempty
  simp only [requireEnvironment, atKey, trim_eq_self edges, if_neg notEmpty]

theorem requireEnvironment_ok {environment : Environment} {key : String} {value : Bytes}
    (run : requireEnvironment environment key = .ok value) :
    ∃ written, environment.lookup (bytes key) = some written ∧ value = trim written := by
  unfold requireEnvironment at run
  split at run
  · cases run
  · rename_i written found
    split at run
    · cases run
    · exact ⟨written, found, (Except.ok.inj run).symm⟩

/-- The bytes of texts that are joined by a separator. -/
theorem mem_intercalate {c separator : UInt8} {texts : List Bytes} (member : c ∈ [separator].intercalate texts) :
    c = separator ∨ ∃ text ∈ texts, c ∈ text := by
  induction texts with
  | nil => cases member
  | cons text texts ih =>
    cases texts with
    | nil =>
      rw [List.intercalate_singleton] at member
      exact Or.inr ⟨text, List.mem_singleton_self text, member⟩
    | cons next texts =>
      rw [List.intercalate_cons_cons, List.append_assoc, List.mem_append, List.mem_append, List.mem_singleton] at member
      rcases member with inText | same | later
      · exact Or.inr ⟨text, List.mem_cons_self .., inText⟩
      · exact Or.inl same
      · exact (ih later).imp_right (fun found => ⟨found.choose, List.mem_cons_of_mem _ found.choose_spec.1,
          found.choose_spec.2⟩)

/-- Items without the delimiter, the last of them not empty, are read back. -/
theorem getlineItems_intercalate {delimiter : UInt8} {items : List Bytes} (someItem : items ≠ [])
    (each : ∀ item ∈ items, item ≠ [] ∧ delimiter ∉ item) :
    getlineItems delimiter ([delimiter].intercalate items) = items := by
  have split := List.splitOn_intercalate delimiter (fun item member => (each item member).2) someItem
  have lastItem : items.getLast? ≠ some [] := fun last => (each [] (List.mem_of_getLast? last)).1 rfl
  simp only [getlineItems, split, if_neg lastItem]

theorem intercalate_nonempty {separator : UInt8} {items : List Bytes} (someItem : items ≠ [])
    (each : ∀ item ∈ items, item ≠ []) : [separator].intercalate items ≠ [] := by
  obtain ⟨first, rest, rfl⟩ := List.exists_cons_of_ne_nil someItem
  have nonempty := each first (List.mem_cons_self ..)
  cases rest with
  | nil => simpa using nonempty
  | cons next rest =>
    rw [List.intercalate_cons_cons]
    simp [nonempty]

/-- The loop keeps the first occurrence of every normalized item. -/
theorem readChannels_exact {items channels result : List Bytes} (run : readChannels items channels = .ok result)
    (distinct : channels.eraseDups = channels) :
    ∃ names, items.mapM normalizeChannel = .ok names ∧ result = (channels ++ names).eraseDups := by
  induction items generalizing channels with
  | nil =>
    cases Except.ok.inj run
    exact ⟨[], rfl, by rw [List.append_nil, distinct]⟩
  | cons item items ih =>
    obtain ⟨channel, normalized, run⟩ := bind_eq_ok.mp run
    by_cases seen : channel ∈ channels
    · rw [if_pos seen] at run
      obtain ⟨names, rest, rfl⟩ := ih run distinct
      refine ⟨channel :: names, by rw [List.mapM_cons, normalized, ok_bind, rest]; rfl, ?_⟩
      have without : (channel :: names).removeAll channels = names.removeAll channels := by
        simp [List.removeAll, seen]
      rw [List.eraseDups_append, List.eraseDups_append, without]
    · rw [if_neg seen] at run
      have longer : (channels ++ [channel]).eraseDups = channels ++ [channel] := by
        have kept : [channel].removeAll channels = [channel] := by
          simp [List.removeAll, seen]
        rw [List.eraseDups_append, distinct, kept]
        rfl
      obtain ⟨names, rest, rfl⟩ := ih run longer
      refine ⟨channel :: names, by rw [List.mapM_cons, normalized, ok_bind, rest]; rfl, ?_⟩
      rw [List.append_assoc, List.singleton_append]

/-- Spelled channels without repetition are read back. -/
theorem readChannels_spelled {written names : List Bytes} (spelled : List.Forall₂ Spelled written names) :
    ∀ channels : List Bytes, (∀ name ∈ names, LoginName name) → (channels ++ names).Nodup →
      readChannels written channels = .ok (channels ++ names) := by
  induction spelled with
  | nil => intro channels _ _; simp [readChannels]
  | @cons item name written names first _ ih =>
    intro channels logins distinct
    have fresh : name ∉ channels := by
      intro seen
      exact (List.disjoint_of_nodup_append distinct) seen (List.mem_cons_self ..)
    have login := logins name (List.mem_cons_self ..)
    have rest := ih (channels ++ [name]) (fun other member => logins other (List.mem_cons_of_mem _ member))
      (by simpa using distinct)
    rw [readChannels, first.normalized login, ok_bind, if_neg fresh, rest]
    simp

/-- An environment that spells out an accepted configuration. -/
structure Spells (environment : Environment) (config : RuntimeConfig) : Prop where
  username : environment.lookup (bytes "TWITCH_BOT_USERNAME") = some config.username
  oauthToken : environment.lookup (bytes "TWITCH_OAUTH_TOKEN") = some config.oauthToken
  channels : ∃ written, List.Forall₂ Spelled written config.channels ∧
    environment.lookup (bytes "TWITCH_CHANNELS") = some ([comma].intercalate written)
  logRawIrc : environment.lookup (bytes "TWITCH_LOG_RAW_IRC") =
    some (if config.logRawIrc then bytes "true" else bytes "false")

theorem readLogRawIrc_spelled {environment : Environment} {value : Bool}
    (written : environment.lookup (bytes "TWITCH_LOG_RAW_IRC") = some (if value then bytes "true" else bytes "false")) :
    readLogRawIrc environment = .ok value := by
  rw [readLogRawIrc, written]
  cases value <;> decide

theorem exists_of_spelled {written names : List Bytes} (spelled : List.Forall₂ Spelled written names) :
    ∀ item ∈ written, ∃ name ∈ names, Spelled item name := by
  induction spelled with
  | nil => simp
  | @cons item name written names first _ ih =>
    intro other member
    rcases List.mem_cons.mp member with rfl | later
    · exact ⟨name, List.mem_cons_self .., first⟩
    · obtain ⟨found, inNames, same⟩ := ih other later
      exact ⟨found, List.mem_cons_of_mem _ inNames, same⟩

/-- The channels of a spelled environment are read back. -/
theorem channels_spelled {environment : Environment} {written names : List Bytes}
    (spelled : List.Forall₂ Spelled written names) (someName : names ≠ []) (logins : ∀ name ∈ names, LoginName name)
    (distinct : names.Nodup)
    (atKey : environment.lookup (bytes "TWITCH_CHANNELS") = some ([comma].intercalate written)) :
    requireEnvironment environment "TWITCH_CHANNELS" = .ok ([comma].intercalate written) ∧
      readChannels (getlineItems comma ([comma].intercalate written)) [] = .ok names := by
  have someItem : written ≠ [] := by
    rintro rfl
    cases spelled
    exact someName rfl
  have plain : ∀ item ∈ written, item ≠ [] ∧ ∀ c ∈ item, isSpace c = false ∧ c ≠ comma := by
    intro item member
    obtain ⟨name, named, same⟩ := exists_of_spelled spelled item member
    exact same.plain (logins name named)
  have edges : PlainEdges ([comma].intercalate written) := by
    refine .of_mem (fun c member => ?_)
    rcases mem_intercalate member with rfl | ⟨item, inWritten, inItem⟩
    · decide
    · exact ((plain item inWritten).2 c inItem).1
  have apart : ∀ item ∈ written, item ≠ [] ∧ comma ∉ item :=
    fun item member => ⟨(plain item member).1, fun inItem => ((plain item member).2 comma inItem).2 rfl⟩
  rw [getlineItems_intercalate someItem apart]
  exact ⟨requireEnvironment_eq atKey edges (intercalate_nonempty someItem (fun item member => (plain item member).1)),
    by simpa using readChannels_spelled spelled [] logins (by simpa using distinct)⟩

/-- What was read for an accepted configuration. -/
structure ReadFrom (parseJson : JsonParser) (environment : Environment) (botJson : Bytes) (config : RuntimeConfig) :
    Prop where
  channels : ∃ written names, environment.lookup (bytes "TWITCH_CHANNELS") = some written ∧
    (getlineItems comma (trim written)).mapM normalizeChannel = .ok names ∧ config.channels = names.eraseDups
  token : ∃ token, config.oauthToken = oauthPrefix ++ token ∧ AcceptedToken token
  bot : parseBotSettings parseJson botJson = .ok config.bot

theorem parseRuntimeConfig_read {parseJson : JsonParser} {environment : Environment} {botJson : Bytes}
    {config : RuntimeConfig} (accepted : parseRuntimeConfig parseJson environment botJson = .ok config) :
    ReadFrom parseJson environment botJson config := by
  unfold parseRuntimeConfig at accepted
  obtain ⟨_, _, accepted⟩ := bind_eq_ok.mp accepted
  obtain ⟨username, login, accepted⟩ := bind_eq_ok.mp accepted
  obtain ⟨_, _, accepted⟩ := bind_eq_ok.mp accepted
  obtain ⟨token, oauth, accepted⟩ := bind_eq_ok.mp accepted
  obtain ⟨text, required, accepted⟩ := bind_eq_ok.mp accepted
  obtain ⟨channels, read, accepted⟩ := bind_eq_ok.mp accepted
  split at accepted
  · cases accepted
  obtain ⟨logRawIrc, _, accepted⟩ := bind_eq_ok.mp accepted
  obtain ⟨bot, readBot, accepted⟩ := bind_eq_ok.mp accepted
  cases Except.ok.inj accepted
  obtain ⟨written, atKey, rfl⟩ := requireEnvironment_ok required
  obtain ⟨names, normalized, first⟩ := readChannels_exact read rfl
  exact ⟨⟨written, names, atKey, normalized, first⟩, normalizeOauthToken_accepted oauth, readBot⟩

/-- Reading the spelled-out configuration yields the configuration. -/
theorem parseRuntimeConfig_spelled {parseJson : JsonParser} {environment : Environment} {botJson : Bytes}
    {config : RuntimeConfig} (valid : config.Valid)
    (token : ∃ token, config.oauthToken = oauthPrefix ++ token ∧ AcceptedToken token)
    (bot : parseBotSettings parseJson botJson = .ok config.bot) (spells : Spells environment config) :
    parseRuntimeConfig parseJson environment botJson = .ok config := by
  obtain ⟨token, written, acceptedToken⟩ := token
  obtain ⟨items, spelled, atChannels⟩ := spells.channels
  obtain ⟨channelsText, channels⟩ := channels_spelled spelled valid.channels_nonempty valid.channels
    valid.channels_nodup atChannels
  have username := requireEnvironment_eq spells.username valid.username.edges (List.length_pos_iff.mp valid.username.1)
  have tokenText : requireEnvironment environment "TWITCH_OAUTH_TOKEN" = .ok config.oauthToken := by
    refine requireEnvironment_eq spells.oauthToken ?_ ?_
    · rw [written]
      exact .of_mem (fun c member => (acceptedToken.unspaced c member).1)
    · rw [written]
      simp [oauthPrefix, bytes]
  have normalizedToken : normalizeOauthToken config.oauthToken = .ok config.oauthToken := by
    rw [written, acceptedToken.normalized]
  have count : ¬ (config.channels.isEmpty || decide (config.channels.length > 100)) = true := by
    have nonempty := valid.channels_nonempty
    have bound := valid.channels_bound
    simp [nonempty, bound]
  simp only [parseRuntimeConfig, username, ok_bind, valid.username.normalized, tokenText, normalizedToken,
    channelsText, channels, if_neg count, readLogRawIrc_spelled spells.logRawIrc, bot, pure_eq_ok]

/-- An accepted configuration is canonical: its names and token are in normal
form, its channels are the normalized items in the order of their first
occurrence, and an environment that spells it out yields exactly itself. -/
theorem parseRuntimeConfig_canonical {parseJson : JsonParser} {environment : Environment} {botJson : Bytes}
    {config : RuntimeConfig} (accepted : parseRuntimeConfig parseJson environment botJson = .ok config) :
    (∃ written names, environment.lookup (bytes "TWITCH_CHANNELS") = some written ∧
      (getlineItems comma (trim written)).mapM normalizeChannel = .ok names ∧ config.channels = names.eraseDups) ∧
    config.channels.Nodup ∧ 1 ≤ config.channels.length ∧ config.channels.length ≤ 100 ∧
    (∀ channel ∈ config.channels, LoginName channel) ∧ LoginName config.username ∧
    (∃ token, config.oauthToken = oauthPrefix ++ token ∧ 10 ≤ token.length ∧ token.length ≤ 499 ∧
      ∀ c ∈ token, isTokenByte c = true) ∧
    ∀ again, Spells again config → parseRuntimeConfig parseJson again botJson = .ok config := by
  have valid := parseRuntimeConfig_ok accepted
  have read := parseRuntimeConfig_read accepted
  exact ⟨read.channels, valid.channels_nodup, List.length_pos_iff.mpr valid.channels_nonempty, valid.channels_bound,
    valid.channels, valid.username, valid.oauthToken,
    fun _ spells => parseRuntimeConfig_spelled valid read.token read.bot spells⟩

/-- The configuration of the project's own tests, spelled with one `#`. -/
def respelledEnvironment : Environment :=
  (((Finmap.singleton (bytes "TWITCH_BOT_USERNAME") (bytes "example_bot")).insert
    (bytes "TWITCH_OAUTH_TOKEN") (bytes "oauth:unit_test_token_value")).insert
    (bytes "TWITCH_CHANNELS") (bytes "one,#two")).insert (bytes "TWITCH_LOG_RAW_IRC") (bytes "false")

theorem respelledEnvironment_spells : Spells respelledEnvironment validConfig where
  username := by decide +kernel
  oauthToken := by decide +kernel
  channels := ⟨[bytes "one", hashSign :: bytes "two"], .cons (.inl rfl) (.cons (.inr rfl) .nil), by decide +kernel⟩
  logRawIrc := by decide +kernel

theorem parseRuntimeConfig_canonical_valid :
    parseRuntimeConfig parseEmptyObject respelledEnvironment (bytes "{}") = .ok validConfig :=
  (parseRuntimeConfig_canonical validConfig_accepted).2.2.2.2.2.2.2 _ respelledEnvironment_spells

end TwitchBot
