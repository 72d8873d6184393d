import TwitchBot.Irc
import TwitchBot.Json

/-! Translation of `config.hpp` and `config.cpp`. -/

namespace TwitchBot

abbrev Environment := StringMap

/-- Durations in whole seconds. -/
abbrev Seconds := Int

structure MessageRule where
  enabled : Bool := false
  sender : Bytes := []
  channel : Option Bytes := none
  contains : Bytes := []
  response : Bytes := []
  delay : Seconds := 0
  cooldown : Seconds := 0
  deriving DecidableEq

structure HypeSettings where
  enabled : Bool := false
  channel : Bytes := []
  subscriptionMessages : List Bytes := []
  giftMessages : List Bytes := []
  delay : Seconds := 1
  cooldown : Seconds := 2
  deriving DecidableEq

structure BotSettings where
  messageRules : List MessageRule := []
  hype : HypeSettings := {}
  deriving DecidableEq

structure RuntimeConfig where
  username : Bytes
  oauthToken : Bytes
  channels : List Bytes
  logRawIrc : Bool
  bot : BotSettings
  deriving DecidableEq

def requireEnvironment (environment : Environment) (key : String) : Except String Bytes :=
  match environment.lookup (bytes key) with
  | none => .error ("Missing required environment variable: " ++ key)
  | some value =>
    if (trim value).isEmpty then .error ("Missing required environment variable: " ++ key)
    else .ok (trim value)

def parseBool (value : Bytes) : Except String Bool :=
  let value := value.map toLower
  if value = bytes "true" ∨ value = bytes "1" ∨ value = bytes "yes" then .ok true
  else if value = bytes "false" ∨ value = bytes "0" ∨ value = bytes "no" then .ok false
  else .error "TWITCH_LOG_RAW_IRC must be true or false"

def rejectLineBreaks (field : String) (value : Bytes) : Except String Unit :=
  if containsLineBreak value then .error (field ++ " must not contain CR or LF") else .ok ()

/-- `[a-z0-9_]`. -/
def isLoginByte (c : UInt8) : Bool := isLower c || isDigit c || c == underscore

/-- `std::regex_match` against `^[a-z0-9_]{1,25}$`. -/
def matchesLogin (value : Bytes) : Bool :=
  decide (1 ≤ value.length) && decide (value.length ≤ 25) && value.all isLoginByte

def normalizeLogin (value : Bytes) : Except String Bytes :=
  let result := (trim value).map toLower
  if matchesLogin result then .ok result
  else .error "Twitch login names may only contain a-z, 0-9, and _ (1-25 chars)"

def normalizeChannel (value : Bytes) : Except String Bytes :=
  let result := trim value
  normalizeLogin (if result.head? = some hashSign then result.tail else result)

def oauthPrefix : Bytes := bytes "oauth:"

def isTokenByte (c : UInt8) : Bool := isAlnum c || c == underscore || c == minus

def normalizeOauthToken (value : Bytes) : Except String Bytes := do
  let token := trim value
  rejectLineBreaks "TWITCH_OAUTH_TOKEN" token
  let token := if oauthPrefix.isPrefixOf token then token.drop oauthPrefix.length else token
  if token = bytes "replace_me" ∨ token = bytes "your_user_access_token" ∨ token.length < 10 then
    throw "TWITCH_OAUTH_TOKEN is missing or still contains a placeholder"
  else if !token.all isTokenByte then throw "TWITCH_OAUTH_TOKEN contains invalid characters"
  else do
    let normalized := oauthPrefix ++ token
    let _ ← encodeIrcLine (bytes "PASS " ++ normalized)
    pure normalized

def readSeconds (object : Json) (key : String) (defaultValue maximum : Int) : Except String Seconds := do
  let value ← object.value Json.getInt key defaultValue
  if value < 0 ∨ value > maximum then throw (key ++ " is outside the allowed range")
  else pure value

def readMessage (value : Json) (field : String) : Except String Bytes :=
  match value with
  | .string result => do
    rejectLineBreaks field result
    if result.isEmpty || result.length > 450 then throw (field ++ " must contain 1 to 450 bytes")
    else pure result
  | _ => throw (field ++ " must be a string")

def readMessages (object : Json) (key : String) : Except String (List Bytes) :=
  match object.find? key with
  | none => .ok []
  | some (.array items) => items.mapM (fun value => readMessage value key)
  | some _ => .error (key ++ " must be an array")

/-- `if (item.contains("channel") && !item.at("channel").is_null())`. -/
def readRuleChannel (item : Json) : Except String (Option Bytes) :=
  match item.find? "channel" with
  | none => .ok none
  | some channel =>
    if channel.isNull then .ok none
    else do
      let channel ← normalizeChannel (← channel.getString)
      pure (some channel)

/-- One entry of `messageRules`. -/
def readRule (item : Json) : Except String MessageRule := do
  if !item.isObject then throw "Every message rule must be an object"
  else do
    let enabled ← item.value Json.getBool "enabled" false
    let sender ← normalizeLogin (← item.value Json.getString "sender" [])
    let channel ← readRuleChannel item
    let contains ← item.value Json.getString "contains" []
    rejectLineBreaks "messageRules.contains" contains
    if contains.isEmpty || contains.length > 400 then
      throw "messageRules.contains must contain 1 to 400 bytes"
    else do
      let response ← readMessage (← item.at_ "response") "messageRules.response"
      let delay ← readSeconds item "delaySeconds" 0 3600
      let cooldown ← readSeconds item "cooldownSeconds" 0 86400
      pure { enabled, sender, channel, contains, response, delay, cooldown }

def readRules (root : Json) : Except String (List MessageRule) :=
  match root.find? "messageRules" with
  | none => .ok []
  | some (.array items) => items.mapM readRule
  | some _ => .error "messageRules must be an array"

/-- The channel of `hype`, which may stay empty. -/
def readHypeChannel (hype : Json) : Except String Bytes := do
  let channel ← hype.value Json.getString "channel" []
  if channel.isEmpty then pure [] else normalizeChannel channel

/-- The `hype` member. -/
def readHype (root : Json) : Except String HypeSettings :=
  match root.find? "hype" with
  | none => .ok {}
  | some hype =>
    if !hype.isObject then .error "hype must be an object"
    else do
      let enabled ← hype.value Json.getBool "enabled" false
      let channel ← readHypeChannel hype
      let subscriptionMessages ← readMessages hype "subscriptionMessages"
      let giftMessages ← readMessages hype "giftMessages"
      let delay ← readSeconds hype "delaySeconds" 1 3600
      let cooldown ← readSeconds hype "cooldownSeconds" 2 86400
      if enabled && (channel.isEmpty || subscriptionMessages.isEmpty || giftMessages.isEmpty) then
        throw "Enabled hype requires a channel plus non-empty subscription and gift messages"
      else pure { enabled, channel, subscriptionMessages, giftMessages, delay, cooldown }

def parseBotSettings (parseJson : JsonParser) (botJson : Bytes) : Except String BotSettings :=
  match parseJson botJson with
  | .error what => .error ("Invalid bot configuration JSON: " ++ what)
  | .ok root =>
    if !root.isObject then .error "Bot configuration root must be an object"
    else do
      let messageRules ← readRules root
      let hype ← readHype root
      pure { messageRules, hype }

/-- The loop over the items of `TWITCH_CHANNELS`; the channels read so far are
also the set of those seen. -/
def readChannels : List Bytes → List Bytes → Except String (List Bytes)
  | [], channels => .ok channels
  | item :: items, channels => do
    let channel ← normalizeChannel item
    readChannels items (if channel ∈ channels then channels else channels ++ [channel])

def readLogRawIrc (environment : Environment) : Except String Bool :=
  match environment.lookup (bytes "TWITCH_LOG_RAW_IRC") with
  | none => .ok false
  | some value => if (trim value).isEmpty then .ok false else parseBool (trim value)

def parseRuntimeConfig (parseJson : JsonParser) (environment : Environment) (botJson : Bytes) :
    Except String RuntimeConfig := do
  let username ← normalizeLogin (← requireEnvironment environment "TWITCH_BOT_USERNAME")
  let oauthToken ← normalizeOauthToken (← requireEnvironment environment "TWITCH_OAUTH_TOKEN")
  let items := getlineItems comma (← requireEnvironment environment "TWITCH_CHANNELS")
  let channels ← readChannels items []
  if channels.isEmpty || channels.length > 100 then
    throw "TWITCH_CHANNELS must contain between 1 and 100 unique channels"
  else do
    let logRawIrc ← readLogRawIrc environment
    let bot ← parseBotSettings parseJson botJson
    pure { username, oauthToken, channels, logRawIrc, bot }

end TwitchBot
