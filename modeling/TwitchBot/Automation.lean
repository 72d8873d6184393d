import TwitchBot.Config
import TwitchBot.Outbound

/-! Translation of `automation.hpp` and `automation.cpp`. -/

namespace TwitchBot

structure ScheduledChatMessage where
  channel : Bytes
  text : Bytes
  due : Time
  deriving DecidableEq

/-- `sender_from_prefix`: the part before the first `!`, normalized. -/
def senderFromPrefix (sourcePrefix : Bytes) : Option Bytes :=
  match StringView.find sourcePrefix bang 0 with
  | none => none
  | some 0 => none
  | some delimiter => (normalizeLogin (sourcePrefix.take delimiter)).toOption

def channelFromMessage (message : IrcMessage) : Option Bytes :=
  match message.parameters with
  | [] => none
  | channel :: _ => (normalizeChannel channel).toOption

structure AutomationEngine where
  settings : BotSettings
  ruleLastSent : List (Option Time)
  hypeLastSent : Option Time := none
  subscriptionIndex : Nat := 0
  giftIndex : Nat := 0
  deriving DecidableEq

namespace AutomationEngine

def new (settings : BotSettings) : AutomationEngine where
  settings := settings
  ruleLastSent := List.replicate settings.messageRules.length none

/-- The conditions of the rule loop that do not look at the clock. -/
def matchesRule (rule : MessageRule) (sender channel text : Bytes) : Bool :=
  rule.enabled && decide (rule.sender = sender) && decide (∀ c ∈ rule.channel, c = channel) &&
    containsText text rule.contains

/-- `last_sent && now - *last_sent < cooldown`. -/
def coolingDown (lastSent : Option Time) (cooldown : Seconds) (now : Time) : Bool :=
  match lastSent with
  | none => false
  | some sent => decide (now - sent < seconds cooldown)

/-- The loop over the rules and their last-sent times: the messages to send
and the new times, both in rule order. -/
def ruleLoop (sender channel text : Bytes) (now : Time) :
    List MessageRule → List (Option Time) → List ScheduledChatMessage × List (Option Time)
  | rule :: rules, lastSent :: times =>
    let (output, times) := ruleLoop sender channel text now rules times
    if !matchesRule rule sender channel text || coolingDown lastSent rule.cooldown now then
      (output, lastSent :: times)
    else (⟨channel, rule.response, now + seconds rule.delay⟩ :: output, some now :: times)
  | _, times => ([], times)

def handlePrivmsg (engine : AutomationEngine) (message : IrcMessage) (now : Time) :
    List ScheduledChatMessage × AutomationEngine :=
  if message.parameters.length < 2 then ([], engine)
  else match senderFromPrefix message.sourcePrefix, channelFromMessage message with
    | some sender, some channel =>
      let text := message.parameters.getLast?.getD []
      let (output, times) := ruleLoop sender channel text now engine.settings.messageRules engine.ruleLastSent
      (output, { engine with ruleLastSent := times })
    | _, _ => ([], engine)

/-- `messages.at(index)`. -/
def messageAt (messages : List Bytes) (index : Nat) : Except String Bytes :=
  match messages[index]? with
  | some message => .ok message
  | none => .error "vector::_M_range_check"

def isSubscription (event : Bytes) : Bool := event = bytes "sub" || event = bytes "resub"

def isGift (event : Bytes) : Bool := event = bytes "subgift" || event = bytes "submysterygift"

/-- The message for an event that passed every test, and the advanced indices;
nothing for events the rotation does not know. -/
def rotate (engine : AutomationEngine) (event : Bytes) : Except String (Option (Bytes × AutomationEngine)) :=
  let hype := engine.settings.hype
  if isSubscription event then do
    let response ← messageAt hype.subscriptionMessages engine.subscriptionIndex
    let index := (engine.subscriptionIndex + 1) % hype.subscriptionMessages.length
    pure (some (response, { engine with subscriptionIndex := index }))
  else if isGift event then do
    let response ← messageAt hype.giftMessages engine.giftIndex
    let index := (engine.giftIndex + 1) % hype.giftMessages.length
    pure (some (response, { engine with giftIndex := index }))
  else pure none

def handleUsernotice (engine : AutomationEngine) (message : IrcMessage) (now : Time) :
    Except String (List ScheduledChatMessage) × AutomationEngine :=
  let hype := engine.settings.hype
  if !hype.enabled || message.parameters.isEmpty then (.ok [], engine)
  else match channelFromMessage message, message.tags.lookup (bytes "msg-id") with
    | some channel, some event =>
      if channel ≠ hype.channel || coolingDown engine.hypeLastSent hype.cooldown now then (.ok [], engine)
      else match engine.rotate event with
        | .error what => (.error what, engine)
        | .ok none => (.ok [], engine)
        | .ok (some (response, engine)) =>
          (.ok [⟨channel, response, now + seconds hype.delay⟩], { engine with hypeLastSent := some now })
    | _, _ => (.ok [], engine)

def handle (engine : AutomationEngine) (message : IrcMessage) (now : Time) :
    Except String (List ScheduledChatMessage) × AutomationEngine :=
  if message.command = bytes "PRIVMSG" then
    let (output, engine) := engine.handlePrivmsg message now
    (.ok output, engine)
  else if message.command = bytes "USERNOTICE" then engine.handleUsernotice message now
  else (.ok [], engine)

def resetSession (engine : AutomationEngine) : AutomationEngine where
  settings := engine.settings
  ruleLastSent := engine.ruleLastSent.map (fun _ => none)

end AutomationEngine

end TwitchBot
