import TwitchBot.ConfigValid

namespace TwitchBot

open ExceptRun

namespace Json

/-- The object with a member set to a value. -/
def setMember (json : Json) (key : String) (value : Json) : Json :=
  match json with
  | object members => object ((bytes key, value) :: members.filter (fun member => decide (member.1 ≠ bytes key)))
  | json => json

/-- The object with a change made inside of one of its members. -/
def modifyMember (json : Json) (key : String) (change : Json → Json) : Json :=
  match json with
  | object members => object (members.map (fun member =>
      if member.1 = bytes key then (member.1, change member.2) else member))
  | json => json

/-- The array with a change made inside of one of its items. -/
def modifyItem (json : Json) (index : Nat) (change : Json → Json) : Json :=
  match json with
  | array items => array (items.modify index change)
  | json => json

@[simp] theorem isObject_setMember (key : String) (value json : Json) :
    (json.setMember key value).isObject = json.isObject := by
  cases json <;> rfl

@[simp] theorem isObject_modifyMember (key : String) (change : Json → Json) (json : Json) :
    (json.modifyMember key change).isObject = json.isObject := by
  cases json <;> rfl

theorem find?_setMember {json : Json} (isObject : json.isObject = true) (key : String) (value : Json) :
    (json.setMember key value).find? key = some value := by
  cases json with
  | object members => simp [setMember, find?]
  | _ => cases isObject

theorem find?_setMember_of_ne {key other : String} (different : bytes other ≠ bytes key) (value json : Json) :
    (json.setMember key value).find? other = json.find? other := by
  cases json with
  | object members =>
    have head : ¬ bytes key = bytes other := different.symm
    simp only [setMember, find?, List.find?_cons, head, decide_false, List.find?_filter]
    congr 2
    funext member
    by_cases same : member.1 = bytes other
    · simp [same, different]
    · simp [same]
  | _ => rfl

theorem find?_modifyMember (key : String) (change : Json → Json) (json : Json) :
    (json.modifyMember key change).find? key = (json.find? key).map change := by
  cases json with
  | object members =>
    induction members with
    | nil => rfl
    | cons member members ih =>
      simp only [modifyMember, find?, List.map_cons, List.find?_cons] at ih ⊢
      by_cases same : member.1 = bytes key
      · simp [same]
      · simpa [same] using ih
  | _ => rfl

theorem find?_modifyMember_of_ne {key other : String} (different : bytes other ≠ bytes key)
    (change : Json → Json) (json : Json) : (json.modifyMember key change).find? other = json.find? other := by
  cases json with
  | object members =>
    induction members with
    | nil => rfl
    | cons member members ih =>
      simp only [modifyMember, find?, List.map_cons, List.find?_cons] at ih ⊢
      by_cases same : member.1 = bytes key
      · have headDifferent : ¬ bytes key = bytes other := different.symm
        simpa [same, headDifferent] using ih
      · by_cases found : member.1 = bytes other
        · simp [found, different]
        · simpa [same, found] using ih
  | _ => rfl

end Json

/-- An integer literal that fits a signed or an unsigned 64-bit integer. -/
structure IntegerLiteral where
  value : Int
  fits : -(2 ^ 63) ≤ value ∧ value < 2 ^ 64

/-- How the document holds the literal. -/
def IntegerLiteral.json (literal : IntegerLiteral) : Json :=
  if literal.value < 0 then .numberInteger literal.value else .numberUnsigned literal.value.toNat

inductive DurationField
  | delay
  | cooldown
  deriving DecidableEq

namespace DurationField

def key : DurationField → String
  | delay => "delaySeconds"
  | cooldown => "cooldownSeconds"

def maximum : DurationField → Int
  | delay => 3600
  | cooldown => 86400

/-- The member as `read_seconds` reads it when the literal is written there. -/
def check (field : DurationField) (literal : IntegerLiteral) : Except String Seconds :=
  if Json.castInt literal.value < 0 ∨ Json.castInt literal.value > field.maximum then
    .error (field.key ++ " is outside the allowed range")
  else .ok (Json.castInt literal.value)

end DurationField

theorem IntegerLiteral.getInt_json (literal : IntegerLiteral) :
    literal.json.getInt = .ok (Json.castInt literal.value) := by
  unfold IntegerLiteral.json
  split
  · rfl
  · rename_i nonnegative
    simp only [Json.getInt, Int.toNat_of_nonneg (not_lt.mp nonnegative)]

/-- Both durations of an object, in the order of the reads. -/
def readDurations (object : Json) (delay cooldown : Int) : Except String (Seconds × Seconds) := do
  let delay ← readSeconds object "delaySeconds" delay 3600
  let cooldown ← readSeconds object "cooldownSeconds" cooldown 86400
  pure (delay, cooldown)

def DurationField.set (field : DurationField) (durations : Seconds × Seconds) (value : Seconds) : Seconds × Seconds :=
  match field with
  | delay => (value, durations.2)
  | cooldown => (durations.1, value)

theorem readSeconds_written {object : Json} (isObject : object.isObject = true) (field : DurationField)
    (literal : IntegerLiteral) (default_ : Int) :
    readSeconds (object.setMember field.key literal.json) field.key default_ field.maximum = field.check literal := by
  simp only [readSeconds, Json.value, Json.find?_setMember isObject, literal.getInt_json, ok_bind]
  rfl

theorem readSeconds_other {object : Json} {key other : String} (different : bytes other ≠ bytes key)
    (value : Json) (default_ maximum : Int) :
    readSeconds (object.setMember key value) other default_ maximum = readSeconds object other default_ maximum := by
  simp only [readSeconds, Json.value, Json.find?_setMember_of_ne different]

/-- Where the document is fine with one literal, the check of another decides. -/
theorem readDurations_written {object : Json} (isObject : object.isObject = true) {field : DurationField}
    {delay cooldown : Int} {valid literal : IntegerLiteral} {durations : Seconds × Seconds}
    (accepted : readDurations (object.setMember field.key valid.json) delay cooldown = .ok durations) :
    readDurations (object.setMember field.key literal.json) delay cooldown =
      field.check literal >>= fun value => .ok (field.set durations value) := by
  obtain ⟨first, readDelay, accepted⟩ := bind_eq_ok.mp accepted
  obtain ⟨second, readCooldown, accepted⟩ := bind_eq_ok.mp accepted
  cases Except.ok.inj accepted
  cases field with
  | delay =>
    have written := readSeconds_written isObject .delay literal delay
    simp only [DurationField.key, DurationField.maximum] at written readCooldown
    rw [readSeconds_other (by decide)] at readCooldown
    have other : bytes "cooldownSeconds" ≠ bytes "delaySeconds" := by decide
    simp only [readDurations, DurationField.key, written, readSeconds_other other, readCooldown]
    rfl
  | cooldown =>
    have written := readSeconds_written isObject .cooldown literal cooldown
    simp only [DurationField.key, DurationField.maximum] at written readDelay
    rw [readSeconds_other (by decide)] at readDelay
    have other : bytes "delaySeconds" ≠ bytes "cooldownSeconds" := by decide
    simp only [readDurations, DurationField.key, written, readSeconds_other other, readDelay]
    rfl

/-- What is read of a rule before its durations. -/
def readRuleHead (item : Json) : Except String MessageRule := do
  if !item.isObject then throw "Every message rule must be an object"
  else do
    let enabled ← item.value Json.getBool "enabled" false
    let sender ← normalizeLogin (← item.value Json.getString "sender" [])
    let channel ← readRuleChannel item
    let contains ← item.value Json.getString "contains" []
    rejectLineBreaks "messageRules.contains" contains
    if contains.isEmpty || contains.length > 400 then
      throw "messageRules.contains must contain 1 to 400 bytes"
    else do
      let response ← readMessage (← item.at_ "response") "messageRules.response"
      pure { enabled, sender, channel, contains, response }

def MessageRule.withDurations (rule : MessageRule) (durations : Seconds × Seconds) : MessageRule :=
  { rule with delay := durations.1, cooldown := durations.2 }

theorem readRule_eq (item : Json) : readRule item =
    readRuleHead item >>= fun rule => readDurations item 0 0 >>= fun durations =>
      .ok (rule.withDurations durations) := by
  unfold readRule readRuleHead readDurations
  split
  · rfl
  · simp only [bind_assoc, pure_bind]
    congr 1
    funext enabled
    congr 1
    funext sender
    congr 1
    funext sender
    congr 1
    funext channel
    congr 1
    funext contains
    congr 1
    funext _
    split
    · rfl
    · simp only [bind_assoc, pure_bind]
      rfl

/-- The object under `hype`. -/
def readHypeObject (hype : Json) : Except String HypeSettings :=
  if !hype.isObject then .error "hype must be an object"
  else do
    let enabled ← hype.value Json.getBool "enabled" false
    let channel ← readHypeChannel hype
    let subscriptionMessages ← readMessages hype "subscriptionMessages"
    let giftMessages ← readMessages hype "giftMessages"
    let durations ← readDurations hype 1 2
    if enabled && (channel.isEmpty || subscriptionMessages.isEmpty || giftMessages.isEmpty) then
      throw "Enabled hype requires a channel plus non-empty subscription and gift messages"
    else pure ⟨enabled, channel, subscriptionMessages, giftMessages, durations.1, durations.2⟩

theorem readHype_eq (root : Json) : readHype root =
    match root.find? "hype" with
    | none => .ok {}
    | some hype => readHypeObject hype := by
  unfold readHype readHypeObject readDurations
  cases root.find? "hype" with
  | none => rfl
  | some hype =>
    simp only [bind_assoc, pure_bind]

theorem readRuleHead_setMember (field : DurationField) (item value : Json) :
    readRuleHead (item.setMember field.key value) = readRuleHead item := by
  cases field with
  | delay =>
    simp (disch := decide) only [readRuleHead, DurationField.key, Json.isObject_setMember, Json.value,
      readRuleChannel, Json.at_, Json.find?_setMember_of_ne]
  | cooldown =>
    simp (disch := decide) only [readRuleHead, DurationField.key, Json.isObject_setMember, Json.value,
      readRuleChannel, Json.at_, Json.find?_setMember_of_ne]

theorem readRuleHead_isObject {item : Json} {rule : MessageRule} (read : readRuleHead item = .ok rule) :
    item.isObject = true := by
  unfold readRuleHead at read
  split at read
  · cases read
  · rename_i object
    simpa using object

def MessageRule.withDuration (rule : MessageRule) (field : DurationField) (value : Seconds) : MessageRule :=
  match field with
  | .delay => { rule with delay := value }
  | .cooldown => { rule with cooldown := value }

def HypeSettings.withDuration (hype : HypeSettings) (field : DurationField) (value : Seconds) : HypeSettings :=
  match field with
  | .delay => { hype with delay := value }
  | .cooldown => { hype with cooldown := value }

theorem readRule_written {item : Json} {field : DurationField} {valid literal : IntegerLiteral} {rule : MessageRule}
    (accepted : readRule (item.setMember field.key valid.json) = .ok rule) :
    readRule (item.setMember field.key literal.json) =
      field.check literal >>= fun value => .ok (rule.withDuration field value) := by
  rw [readRule_eq, readRuleHead_setMember] at accepted ⊢
  obtain ⟨head, readHead, accepted⟩ := bind_eq_ok.mp accepted
  obtain ⟨durations, read, accepted⟩ := bind_eq_ok.mp accepted
  cases Except.ok.inj accepted
  rw [readHead, ok_bind, readDurations_written (readRuleHead_isObject readHead) read]
  cases field with
  | delay => cases DurationField.check .delay literal <;> rfl
  | cooldown => cases DurationField.check .cooldown literal <;> rfl

theorem readHypeObject_written {object : Json} {field : DurationField} {valid literal : IntegerLiteral}
    {hype : HypeSettings} (accepted : readHypeObject (object.setMember field.key valid.json) = .ok hype) :
    readHypeObject (object.setMember field.key literal.json) =
      field.check literal >>= fun value => .ok (hype.withDuration field value) := by
  have other : bytes "enabled" ≠ bytes field.key ∧ bytes "channel" ≠ bytes field.key ∧
      bytes "subscriptionMessages" ≠ bytes field.key ∧ bytes "giftMessages" ≠ bytes field.key := by
    cases field <;> decide
  simp only [readHypeObject, Json.isObject_setMember, readHypeChannel, Json.value, readMessages,
    Json.find?_setMember_of_ne other.1, Json.find?_setMember_of_ne other.2.1,
    Json.find?_setMember_of_ne other.2.2.1, Json.find?_setMember_of_ne other.2.2.2] at accepted ⊢
  split at accepted
  · cases accepted
  rename_i isObject
  rw [if_neg isObject]
  obtain ⟨enabled, readEnabled, accepted⟩ := bind_eq_ok.mp accepted
  obtain ⟨channel, readChannel, accepted⟩ := bind_eq_ok.mp accepted
  obtain ⟨subscriptions, readSubscriptions, accepted⟩ := bind_eq_ok.mp accepted
  obtain ⟨gifts, readGifts, accepted⟩ := bind_eq_ok.mp accepted
  obtain ⟨durations, read, accepted⟩ := bind_eq_ok.mp accepted
  split at accepted
  · cases accepted
  rename_i complete
  cases Except.ok.inj accepted
  rw [readEnabled, ok_bind, readChannel, ok_bind, readSubscriptions, ok_bind, readGifts, ok_bind,
    readDurations_written (by simpa using isObject) read]
  simp only [if_neg complete]
  cases field with
  | delay => cases DurationField.check .delay literal <;> rfl
  | cooldown => cases DurationField.check .cooldown literal <;> rfl

/-- The places of a document where a duration can be written. -/
inductive DurationPlace
  | rule (index : Nat) (field : DurationField)
  | hype (field : DurationField)

namespace DurationPlace

def maximum : DurationPlace → Int
  | rule _ field => field.maximum
  | hype field => field.maximum

/-- The document has the rule, or the `hype` member, that the place is in. -/
def Within (root : Json) : DurationPlace → Prop
  | rule index _ => ∃ items, root.find? "messageRules" = some (.array items) ∧ index < items.length
  | hype _ => ∃ object, root.find? "hype" = some object

/-- The document with the literal written at the place. -/
def write (root : Json) (literal : IntegerLiteral) : DurationPlace → Json
  | rule index field => root.modifyMember "messageRules" (fun items =>
      items.modifyItem index (fun item => item.setMember field.key literal.json))
  | hype field => root.modifyMember "hype" (fun object => object.setMember field.key literal.json)

def check (literal : IntegerLiteral) : DurationPlace → Except String Seconds
  | rule _ field => field.check literal
  | hype field => field.check literal

/-- The duration that the settings hold for the place. -/
def stored (settings : BotSettings) : DurationPlace → Option Seconds
  | rule index .delay => settings.messageRules[index]?.map (·.delay)
  | rule index .cooldown => settings.messageRules[index]?.map (·.cooldown)
  | hype .delay => some settings.hype.delay
  | hype .cooldown => some settings.hype.cooldown

end DurationPlace

theorem find?_write_hype (root : Json) (literal : IntegerLiteral) (index : Nat) (field : DurationField) :
    (DurationPlace.write root literal (.rule index field)).find? "hype" = root.find? "hype" := by
  simp (disch := decide) only [DurationPlace.write, Json.find?_modifyMember_of_ne]

theorem find?_write_rules (root : Json) (literal : IntegerLiteral) (field : DurationField) :
    (DurationPlace.write root literal (.hype field)).find? "messageRules" = root.find? "messageRules" := by
  simp (disch := decide) only [DurationPlace.write, Json.find?_modifyMember_of_ne]

def BotSettings.withDuration (settings : BotSettings) (value : Seconds) : DurationPlace → BotSettings
  | .rule index field =>
    { settings with messageRules := settings.messageRules.modify index (fun rule => rule.withDuration field value) }
  | .hype field => { settings with hype := settings.hype.withDuration field value }

theorem atRules_write {root : Json} {items : List Json} (found : root.find? "messageRules" = some (.array items))
    (literal : IntegerLiteral) (index : Nat) (field : DurationField) :
    (DurationPlace.write root literal (.rule index field)).find? "messageRules" =
      some (.array (items.modify index (fun item => item.setMember field.key literal.json))) := by
  rw [DurationPlace.write, Json.find?_modifyMember, found]
  rfl

theorem readRules_written {root : Json} {index : Nat} {field : DurationField} {valid literal : IntegerLiteral}
    {rules : List MessageRule} (within : DurationPlace.Within root (.rule index field))
    (accepted : readRules (DurationPlace.write root valid (.rule index field)) = .ok rules) :
    readRules (DurationPlace.write root literal (.rule index field)) =
      field.check literal >>= fun value => .ok (rules.modify index (fun rule => rule.withDuration field value)) := by
  obtain ⟨items, found, bound⟩ := within
  simp only [readRules, atRules_write found] at accepted ⊢
  exact mapM_modify (fun _ _ read => readRule_written read) bound accepted

theorem readHype_written {root : Json} {field : DurationField} {valid literal : IntegerLiteral} {hype : HypeSettings}
    (within : DurationPlace.Within root (.hype field))
    (accepted : readHype (DurationPlace.write root valid (.hype field)) = .ok hype) :
    readHype (DurationPlace.write root literal (.hype field)) =
      field.check literal >>= fun value => .ok (hype.withDuration field value) := by
  obtain ⟨object, found⟩ := within
  have atHype (literal : IntegerLiteral) : (DurationPlace.write root literal (.hype field)).find? "hype" =
      some (object.setMember field.key literal.json) := by
    rw [DurationPlace.write, Json.find?_modifyMember, found]
    rfl
  simp only [readHype_eq, atHype] at accepted ⊢
  exact readHypeObject_written accepted

/-- A document that is accepted with one literal is accepted with another one
as far as the check of that literal goes, and nothing else changes. -/
theorem parseBotSettings_written {parseJson : JsonParser} {text validText : Bytes} {root : Json}
    {place : DurationPlace} {valid literal : IntegerLiteral} {settings : BotSettings} (within : place.Within root)
    (validParsed : parseJson validText = .ok (place.write root valid))
    (parsed : parseJson text = .ok (place.write root literal))
    (accepted : parseBotSettings parseJson validText = .ok settings) :
    parseBotSettings parseJson text =
      place.check literal >>= fun value => .ok (settings.withDuration value place) := by
  have isObject (literal : IntegerLiteral) : (place.write root literal).isObject = root.isObject := by
    cases place <;> simp only [DurationPlace.write, Json.isObject_modifyMember]
  simp only [parseBotSettings, validParsed, parsed, isObject] at accepted ⊢
  split at accepted
  · cases accepted
  rename_i object
  rw [if_neg object]
  obtain ⟨rules, rulesRead, accepted⟩ := bind_eq_ok.mp accepted
  obtain ⟨hype, hypeRead, accepted⟩ := bind_eq_ok.mp accepted
  cases Except.ok.inj accepted
  cases place with
  | rule index field =>
    have sameHype : readHype (DurationPlace.write root literal (.rule index field)) = .ok hype := by
      rw [readHype_eq, find?_write_hype] at hypeRead ⊢
      exact hypeRead
    rw [readRules_written within rulesRead, sameHype, DurationPlace.check]
    cases field.check literal <;> rfl
  | hype field =>
    have sameRules : readRules (DurationPlace.write root literal (.hype field)) = .ok rules := by
      rw [readRules, find?_write_rules] at rulesRead ⊢
      exact rulesRead
    rw [sameRules, readHype_written within hypeRead, DurationPlace.check]
    cases field.check literal <;> rfl

/-- The settings hold what was stored for a place of the document they were read from. -/
theorem stored_withDuration {parseJson : JsonParser} {text : Bytes} {root : Json} {place : DurationPlace}
    {literal : IntegerLiteral} {settings : BotSettings} (within : place.Within root)
    (parsed : parseJson text = .ok (place.write root literal))
    (accepted : parseBotSettings parseJson text = .ok settings) (value : Seconds) :
    place.stored (settings.withDuration value place) = some value := by
  cases place with
  | hype field => cases field <;> rfl
  | rule index field =>
    obtain ⟨items, found, bound⟩ := within
    simp only [parseBotSettings, parsed] at accepted
    split at accepted
    · cases accepted
    obtain ⟨rules, rulesRead, accepted⟩ := bind_eq_ok.mp accepted
    obtain ⟨hype, _, accepted⟩ := bind_eq_ok.mp accepted
    cases Except.ok.inj accepted
    simp only [readRules, atRules_write found] at rulesRead
    have length := mapM_length rulesRead
    rw [List.length_modify] at length
    have atIndex := List.getElem?_eq_getElem (length ▸ bound : index < rules.length)
    cases field <;> simp [DurationPlace.stored, BotSettings.withDuration, atIndex, MessageRule.withDuration]

theorem castInt_outside_iff {maximum : Int} (bounds : 0 ≤ maximum ∧ maximum < 2 ^ 31) (value : Int) :
    (Json.castInt value < 0 ∨ Json.castInt value > maximum) ↔ maximum < value % 2 ^ 32 := by
  simp only [Json.castInt, Int.bmod]
  norm_num at bounds ⊢
  split
  · omega
  · omega

theorem castInt_inside {maximum value : Int} (bound : maximum < 2 ^ 31) (inside : 0 ≤ value ∧ value ≤ maximum) :
    Json.castInt value = value := by
  simp only [Json.castInt, Int.bmod]
  norm_num at bound ⊢
  split
  · omega
  · omega

theorem DurationField.maximum_bounds (field : DurationField) : 0 ≤ field.maximum ∧ field.maximum < 2 ^ 31 := by
  cases field <;> decide

theorem DurationPlace.maximum_bounds (place : DurationPlace) : 0 ≤ place.maximum ∧ place.maximum < 2 ^ 31 := by
  cases place with
  | rule _ field => exact field.maximum_bounds
  | hype field => exact field.maximum_bounds

theorem DurationPlace.check_eq (place : DurationPlace) (literal : IntegerLiteral) :
    (place.maximum < literal.value % 2 ^ 32 → ∃ text, place.check literal = .error text) ∧
      (¬ place.maximum < literal.value % 2 ^ 32 → place.check literal = .ok (Json.castInt literal.value)) := by
  have outside := castInt_outside_iff place.maximum_bounds literal.value
  rw [← outside]
  cases place with
  | rule index field =>
    exact ⟨fun wrong => ⟨_, if_pos wrong⟩, fun right => if_neg right⟩
  | hype field =>
    exact ⟨fun wrong => ⟨_, if_pos wrong⟩, fun right => if_neg right⟩

/-- The number that was written decides: the document is accepted exactly if
the number is in the range, and then that number is stored. -/
def RangeChecked (result : Except String BotSettings) (place : DurationPlace) (value : Int) : Prop :=
  ((∃ settings, result = .ok settings) ↔ 0 ≤ value ∧ value ≤ place.maximum) ∧
    ∀ settings, result = .ok settings → place.stored settings = some value

/-- The check sees the number modulo 2^32, so the number that was written
decides exactly if it is in the range or its remainder is not. -/
theorem rangeChecked_iff {parseJson : JsonParser} {text validText : Bytes} {root : Json}
    {place : DurationPlace} {valid literal : IntegerLiteral} {settings : BotSettings} (within : place.Within root)
    (validParsed : parseJson validText = .ok (place.write root valid))
    (accepted : parseBotSettings parseJson validText = .ok settings)
    (parsed : parseJson text = .ok (place.write root literal)) :
    RangeChecked (parseBotSettings parseJson text) place literal.value ↔
      (0 ≤ literal.value ∧ literal.value ≤ place.maximum) ∨ place.maximum < literal.value % 2 ^ 32 := by
  have stored := stored_withDuration within validParsed accepted
  rw [parseBotSettings_written within validParsed parsed accepted]
  by_cases outside : place.maximum < literal.value % 2 ^ 32
  · obtain ⟨text, rejected⟩ := (place.check_eq literal).1 outside
    have wrong : ¬ (0 ≤ literal.value ∧ literal.value ≤ place.maximum) := by
      have bounds := place.maximum_bounds
      omega
    rw [rejected]
    exact ⟨fun _ => Or.inr outside, fun _ => ⟨by simp [wrong], by simp⟩⟩
  · rw [(place.check_eq literal).2 outside, ok_bind]
    constructor
    · intro checked
      exact Or.inl (checked.1.mp ⟨_, rfl⟩)
    · intro condition
      have inside := condition.resolve_right outside
      rw [castInt_inside place.maximum_bounds.2 inside]
      refine ⟨⟨fun _ => inside, fun _ => ⟨_, rfl⟩⟩, ?_⟩
      intro result same
      cases Except.ok.inj same
      exact stored literal.value

/-- A document with a number as the delay of `hype`, and how it is held. -/
def hypeDelayText (number : String) : Bytes :=
  bytes ("\x7b\"hype\":\x7b\"delaySeconds\":" ++ number ++ "\x7d\x7d")

def hypeDocument : Json := .object [(bytes "hype", .object [])]

def zeroLiteral : IntegerLiteral := ⟨0, by decide⟩

def wrappingLiteral : IntegerLiteral := ⟨4294967296, by decide⟩

/-- A parser that knows two documents. -/
def parseHypeDelay : JsonParser := fun text =>
  if text = hypeDelayText "0" then .ok (DurationPlace.write hypeDocument zeroLiteral (.hype .delay))
  else if text = hypeDelayText "4294967296" then
    .ok (DurationPlace.write hypeDocument wrappingLiteral (.hype .delay))
  else .error "unexpected input"

theorem hypeDocument_within : DurationPlace.Within hypeDocument (.hype .delay) :=
  ⟨.object [], rfl⟩

theorem parseHypeDelay_zero :
    parseHypeDelay (hypeDelayText "0") = .ok (DurationPlace.write hypeDocument zeroLiteral (.hype .delay)) := by
  rw [parseHypeDelay, if_pos rfl]

theorem parseHypeDelay_wrapping : parseHypeDelay (hypeDelayText "4294967296") =
    .ok (DurationPlace.write hypeDocument wrappingLiteral (.hype .delay)) := by
  rw [parseHypeDelay, if_neg (by decide +kernel), if_pos rfl]

theorem hypeDocument_accepted :
    parseBotSettings parseHypeDelay (hypeDelayText "0") = .ok { hype := { delay := 0 } } := by
  decide +kernel

theorem rangeChecked_wrapping :
    RangeChecked (parseBotSettings parseHypeDelay (hypeDelayText "4294967296")) (.hype .delay) 4294967296 ↔
      (0 ≤ (4294967296 : Int) ∧ 4294967296 ≤ (3600 : Int)) ∨ (3600 : Int) < 4294967296 % 2 ^ 32 :=
  rangeChecked_iff hypeDocument_within parseHypeDelay_zero hypeDocument_accepted parseHypeDelay_wrapping

/-- The delay 2^32 passes the check as the delay 0. -/
theorem wrapping_accepted : ¬ ∀ (parseJson : JsonParser) (text validText : Bytes) (root : Json)
    (place : DurationPlace) (valid literal : IntegerLiteral) (settings : BotSettings), place.Within root →
      parseJson validText = .ok (place.write root valid) → parseBotSettings parseJson validText = .ok settings →
      parseJson text = .ok (place.write root literal) →
      RangeChecked (parseBotSettings parseJson text) place literal.value := by
  intro checked
  have atWrapping := checked parseHypeDelay (hypeDelayText "4294967296") (hypeDelayText "0") hypeDocument
    (.hype .delay) zeroLiteral wrappingLiteral _ hypeDocument_within parseHypeDelay_zero hypeDocument_accepted
    parseHypeDelay_wrapping
  have wrapped : parseBotSettings parseHypeDelay (hypeDelayText "4294967296") = .ok { hype := { delay := 0 } } := by
    decide +kernel
  have inside := atWrapping.1.mp ⟨_, wrapped⟩
  exact absurd inside.2 (by decide)

end TwitchBot
