import TwitchBot.Irc
import TwitchBot.Library.LastWins

namespace TwitchBot

open LastWins

/-- One tag of the wire format: a key, and a value if a `=` follows it. -/
structure Tag where
  key : Bytes
  value : Option Bytes
  key_nonempty : key ≠ []
  key_plain : equalsSign ∉ key ∧ semicolon ∉ key ∧ space ∉ key
  value_plain : ∀ v ∈ value, semicolon ∉ v ∧ space ∉ v

def Tag.text (tag : Tag) : Bytes :=
  tag.key ++ match tag.value with
    | none => []
    | some value => equalsSign :: value

/-- The raw value of a tag; a tag without `=` has the empty one. -/
def Tag.rawValue (tag : Tag) : Bytes := tag.value.getD []

/-- `tag *(';' tag)`. -/
def tagsText : List Tag → Bytes
  | [] => []
  | [tag] => tag.text
  | tag :: next :: rest => tag.text ++ semicolon :: tagsText (next :: rest)

def addTag (tags : StringMap) (tag : Tag) : StringMap := tags.insert tag.key (unescapeIrcTag tag.rawValue)

/-- The map the tags denote when read in order. -/
def tagMap (tags : List Tag) : StringMap := tags.foldl addTag ∅

def Middle (word : Bytes) : Prop := word ≠ [] ∧ space ∉ word ∧ word.head? ≠ some colon

/-- The text behind the space that ends the command, with its middle
parameters and the trailing one, if any. -/
inductive Params : Bytes → List Bytes → List Bytes → Prop
  | blank (n : Nat) : Params (List.replicate n space) [] []
  | trailing (n : Nat) (text : Bytes) : Params (List.replicate n space ++ colon :: text) [] [text]
  | last (n : Nat) {word : Bytes} : Middle word → Params (List.replicate n space ++ word) [word] []
  | middle (n : Nat) {word rest : Bytes} {middles trailing : List Bytes} : Middle word →
      Params rest middles trailing →
      Params (List.replicate n space ++ (word ++ space :: rest)) (word :: middles) trailing

/-- What follows the command: nothing, or a space and parameters. -/
def ParamsForm (middles trailing : List Bytes) : Option Bytes → Prop
  | none => middles = [] ∧ trailing = []
  | some text => Params text middles trailing

/-- The concrete syntax of a message: optional tags, optional prefix, command
and parameters, with the runs of spaces between them. -/
structure MessageSyntax where
  tags : List Tag
  lead : Nat
  sourcePrefix : Option Bytes
  gap : Nat
  command : Bytes
  paramsText : Option Bytes
  middles : List Bytes
  trailing : List Bytes
  prefix_form : ∀ p ∈ sourcePrefix, p ≠ [] ∧ space ∉ p
  command_nonempty : command ≠ []
  command_alnum : ∀ c ∈ command, isAlnum c = true
  params_form : ParamsForm middles trailing paramsText
  middles_bound : middles.length ≤ 32

namespace MessageSyntax

/-- `[ '@' tag *(';' tag) ' ' ]`. -/
def tagsPart (tags : List Tag) : Bytes :=
  if tags.isEmpty then [] else atSign :: (tagsText tags ++ [space])

/-- `[ ':' prefix ' ' ]`. -/
def prefixPart : Option Bytes → Bytes
  | none => []
  | some sourcePrefix => colon :: (sourcePrefix ++ [space])

/-- `[ ' ' params ]`. -/
def paramsPart : Option Bytes → Bytes
  | none => []
  | some text => space :: text

def text (m : MessageSyntax) : Bytes :=
  tagsPart m.tags ++ (List.replicate m.lead space ++ (prefixPart m.sourcePrefix ++
    (List.replicate m.gap space ++ (m.command ++ paramsPart m.paramsText))))

/-- The message that the syntax denotes. -/
def message (m : MessageSyntax) : IrcMessage where
  tags := tagMap m.tags
  sourcePrefix := m.sourcePrefix.getD []
  command := m.command.map toUpper
  parameters := m.middles ++ m.trailing

end MessageSyntax

theorem tagMap_eq (tags : List Tag) :
    tagMap tags = assignAll (tags.map (fun tag => (tag.key, unescapeIrcTag tag.rawValue))) ∅ := by
  rw [assignAll, List.foldl_map]
  rfl

/-- The last occurrence of a key decides what the map holds for it. -/
theorem tagMap_lookup (tags : List Tag) (key : Bytes) :
    (tagMap tags).lookup key =
      ((tags.filter (fun tag => decide (tag.key = key))).getLast?).map
        (fun tag => unescapeIrcTag tag.rawValue) := by
  rw [tagMap_eq, assignAll_empty_lookup, lastValue, List.filter_map, List.getLast?_map, Option.map_map]
  rfl

theorem tagsText_cons (tag next : Tag) (rest : List Tag) :
    tagsText (tag :: next :: rest) = tag.text ++ semicolon :: tagsText (next :: rest) := rfl

theorem Tag.text_nonempty (tag : Tag) : tag.text ≠ [] := by
  simp [Tag.text, tag.key_nonempty]

theorem Tag.text_plain (tag : Tag) : semicolon ∉ tag.text ∧ space ∉ tag.text := by
  obtain ⟨_, noSemicolon, noSpace⟩ := tag.key_plain
  cases atValue : tag.value with
  | none => simp [Tag.text, atValue, noSemicolon, noSpace]
  | some value =>
    obtain ⟨valueSemicolon, valueSpace⟩ := tag.value_plain value atValue
    constructor
    · simp [Tag.text, atValue, noSemicolon, valueSemicolon, semicolon, equalsSign]
    · simp [Tag.text, atValue, noSpace, valueSpace, space, equalsSign]

theorem tagsText_length (tags : List Tag) : tags.length ≤ (tagsText tags).length := by
  induction tags with
  | nil => simp
  | cons tag rest ih =>
    have positive := List.length_pos_iff.mpr tag.text_nonempty
    cases rest with
    | nil =>
      simp only [tagsText, List.length_singleton]
      omega
    | cons next rest =>
      rw [tagsText_cons]
      simp only [List.length_cons, List.length_append] at ih ⊢
      omega

theorem tagsText_noSpace (tags : List Tag) : space ∉ tagsText tags := by
  induction tags with
  | nil => simp [tagsText]
  | cons tag rest ih =>
    cases rest with
    | nil => exact tag.text_plain.2
    | cons next rest =>
      rw [tagsText_cons]
      simpa [tag.text_plain.2, space, semicolon] using ih

end TwitchBot
