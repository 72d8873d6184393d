import TwitchBot.Config
import TwitchBot.Outbound

/-! Translation of `session_protocol.hpp` and `session_protocol.cpp`. -/

namespace TwitchBot

inductive SessionState
  | disconnected
  | tlsConnected
  | authenticating
  | capabilityNegotiation
  | ready
  | reconnectRequested
  | failed
  deriving DecidableEq, Repr

inductive ProtocolActionKind
  | send
  | ready
  | reconnect
  | fatal
  deriving DecidableEq, Repr

structure ProtocolAction where
  kind : ProtocolActionKind
  data : Bytes
  outboundKind : OutboundKind
  channel : Bytes
  deriving DecidableEq

def requiredCapabilities : List Bytes :=
  [bytes "twitch.tv/membership", bytes "twitch.tv/tags", bytes "twitch.tv/commands"]

def containsLoginFailure (message : IrcMessage) : Bool :=
  if message.command ≠ bytes "NOTICE" then false
  else match message.parameters.getLast? with
    | none => false
    | some text =>
      containsText (text.map toLower) (bytes "login authentication failed") ||
        containsText (text.map toLower) (bytes "improperly formatted auth")

/-- A `CAP` message whose second parameter is `status`. -/
def hasCapStatus (message : IrcMessage) (status : String) : Prop :=
  message.command = bytes "CAP" ∧ message.parameters[1]? = some (bytes status)

instance (message : IrcMessage) (status : String) : Decidable (hasCapStatus message status) :=
  inferInstanceAs (Decidable (_ ∧ _))

/-- The commands that tell the client its login was accepted. -/
def isWelcome (message : IrcMessage) : Prop :=
  message.command = bytes "001" ∨ message.command = bytes "GLOBALUSERSTATE"

instance (message : IrcMessage) : Decidable (isWelcome message) := inferInstanceAs (Decidable (_ ∨ _))

structure SessionProtocol where
  config : RuntimeConfig
  state : SessionState := .disconnected
  authenticated : Bool := false
  acknowledgedCapabilities : Finset Bytes := ∅
  deriving DecidableEq

/-- What a call returns or throws; the object keeps its changes either way. -/
abbrev Answer := Except String (List ProtocolAction)

/-- `{ProtocolActionKind::send, encode_irc_line(line), kind, channel}`. -/
def sendAction (kind : OutboundKind) (channel line : Bytes) : Except String ProtocolAction := do
  let data ← encodeIrcLine line
  pure ⟨.send, data, kind, channel⟩

/-- The effect of one token of a `CAP ACK`. -/
def acknowledge (capabilities : Finset Bytes) (token : Bytes) : Finset Bytes :=
  if token.head? = some minus then capabilities.erase token.tail else insert token capabilities

/-- The effect of all tokens of the last parameter, in order. -/
def acknowledgeAll (capabilities : Finset Bytes) (parameter : Bytes) : Finset Bytes :=
  (words parameter).foldl acknowledge capabilities

namespace SessionProtocol

def ready (protocol : SessionProtocol) : Bool := protocol.state == .ready

def begin (protocol : SessionProtocol) : Answer × SessionProtocol :=
  if protocol.state ≠ .disconnected ∧ protocol.state ≠ .tlsConnected then (.ok [], protocol)
  else
    let protocol := { protocol with state := .authenticating }
    (do
      let pass ← sendAction .system [] (bytes "PASS " ++ protocol.config.oauthToken)
      let nick ← sendAction .system [] (bytes "NICK " ++ protocol.config.username)
      let cap ← sendAction .system []
        (bytes "CAP REQ :twitch.tv/membership twitch.tv/tags twitch.tv/commands")
      pure [pass, nick, cap], protocol)

def capabilitiesReady (protocol : SessionProtocol) : Bool :=
  requiredCapabilities.all (fun capability => decide (capability ∈ protocol.acknowledgedCapabilities))

/-- The actions of a session that becomes ready. -/
def readyActions (channels : List Bytes) : Answer := do
  let joins ← channels.mapM (fun channel => sendAction .join channel (bytes "JOIN #" ++ channel))
  pure (⟨.ready, bytes "Session ready", .system, []⟩ :: joins)

def becomeReadyIfPossible (protocol : SessionProtocol) : Answer × SessionProtocol :=
  if protocol.state = .ready ∨ protocol.state = .failed ∨ protocol.state = .reconnectRequested ∨
      protocol.authenticated = false then (.ok [], protocol)
  else if protocol.capabilitiesReady = false then (.ok [], protocol)
  else (readyActions protocol.config.channels, { protocol with state := .ready })

/-- The branch of `handle` for a `CAP ACK`, which sets the state before
anything is tested. -/
def recordAcknowledgement (protocol : SessionProtocol) (message : IrcMessage) : SessionProtocol :=
  if hasCapStatus message "ACK" then
    { protocol with
      acknowledgedCapabilities :=
        acknowledgeAll protocol.acknowledgedCapabilities (message.parameters.getLast?.getD [])
      state := .capabilityNegotiation }
  else protocol

def recordAuthentication (protocol : SessionProtocol) (message : IrcMessage) : SessionProtocol :=
  if isWelcome message then { protocol with authenticated := true } else protocol

def handle (protocol : SessionProtocol) (message : IrcMessage) : Answer × SessionProtocol :=
  if message.command = bytes "PING" then
    match message.parameters with
    | [] => (.ok [], protocol)
    | payload :: _ => ((sendAction .system [] (bytes "PONG :" ++ payload)).map ([·]), protocol)
  else if message.command = bytes "RECONNECT" then
    (.ok [⟨.reconnect, bytes "Twitch requested reconnect", .system, []⟩],
      { protocol with state := .reconnectRequested })
  else if containsLoginFailure message then
    (.ok [⟨.fatal, bytes "Twitch rejected the login", .system, []⟩], { protocol with state := .failed })
  else if hasCapStatus message "NAK" then
    (.ok [⟨.fatal, bytes "Twitch rejected required IRC capabilities", .system, []⟩],
      { protocol with state := .failed })
  else ((protocol.recordAcknowledgement message).recordAuthentication message).becomeReadyIfPossible

end SessionProtocol

end TwitchBot
