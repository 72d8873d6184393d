import Mathlib.Data.Finmap
import TwitchBot.Bytes
import TwitchBot.Library.StringView

/-! Translation of `irc.hpp` and `irc.cpp`, the stream assembler apart. -/

namespace TwitchBot

open StringView

def maxIrcLineBytes : Nat := 8192
def maxIrcBufferBytes : Nat := 65536
def maxOutgoingPayloadBytes : Nat := 510

/-- `std::map<std::string, std::string>`: equal maps are equal values. -/
abbrev StringMap := Finmap (fun _ : Bytes => Bytes)

structure IrcMessage where
  tags : StringMap
  sourcePrefix : Bytes
  command : Bytes
  parameters : List Bytes
  deriving DecidableEq

/-- The byte a backslash followed by `character` stands for. -/
def unescapedByte (character : UInt8) : UInt8 :=
  if character = 's'.toUInt8 then space
  else if character = colon then semicolon
  else if character = 'r'.toUInt8 then cr
  else if character = 'n'.toUInt8 then lf
  else if character = backslash then backslash
  else character

/-- The loop of `unescape_irc_tag`, with its pending-escape flag. -/
def unescapeLoop (escaped : Bool) : Bytes → Bytes
  | [] => if escaped then [backslash] else []
  | character :: rest =>
    if !escaped && character = backslash then unescapeLoop true rest
    else if escaped then unescapedByte character :: unescapeLoop false rest
    else character :: unescapeLoop false rest

def unescapeIrcTag (value : Bytes) : Bytes := unescapeLoop false value

/-- The parser's own verdicts are the texts it assigns to `*error`. -/
abbrev Parse := Except (Failure String)

def reject {α : Type} (text : String) : Parse α := .error (.rejected text)

/-- `while (position < line.size() && line[position] == ' ') ++position`. -/
def skipSpaces (line : Bytes) : Nat → Nat → Parse Nat
  | 0, _ => .error (.fault .outOfFuel)
  | fuel + 1, position =>
    if position < line.length then do
      let c ← charAt line position
      if c = space then skipSpaces line fuel (position + 1) else pure position
    else pure position

/-- Key and raw value of one `raw_tag`. -/
def parseTag (rawTag : Bytes) : Parse (Bytes × Bytes) := do
  let equals := find rawTag equalsSign 0
  let key ← substr rawTag 0 equals
  if key.isEmpty then reject "IRC tag key is empty"
  else match equals with
    | none => pure (key, [])
    | some equals => pure (key, ← substr rawTag (equals + 1) none)

/-- The loop over the tag section, from `tag_start` on. -/
def tagLoop (tagSection : Bytes) : Nat → Nat → StringMap → Parse StringMap
  | 0, _, _ => .error (.fault .outOfFuel)
  | fuel + 1, tagStart, tags =>
    if tagStart ≤ tagSection.length then do
      let separator := find tagSection semicolon tagStart
      let (key, rawValue) ← parseTag (← substr tagSection tagStart (← distance tagStart separator))
      let tags := tags.insert key (unescapeIrcTag rawValue)
      match separator with
      | none => pure tags
      | some separator => tagLoop tagSection fuel (separator + 1) tags
    else pure tags

/-- The tag section, if the line starts with one; with the cursor behind it. -/
def parseTags (line : Bytes) : Parse (StringMap × Nat) := do
  if (← charAt line 0) = atSign then
    match find line space 0 with
    | none => reject "IRC tag section has no command"
    | some stop => do
      let tagSection ← substr line 1 (← distance 1 (some stop))
      let tags ← tagLoop tagSection (tagSection.length + 1) 0 ∅
      pure (tags, stop + 1)
  else pure (∅, 0)

/-- The prefix, if one stands at the cursor; with the cursor behind it. -/
def parsePrefix (line : Bytes) (position : Nat) : Parse (Bytes × Nat) :=
  if position < line.length then do
    if (← charAt line position) = colon then
      match find line space position with
      | none => reject "IRC prefix has no command"
      | some stop =>
        if stop = position + 1 then reject "IRC prefix has no command"
        else do
          let sourcePrefix ← substr line (position + 1) (← distance (position + 1) (some stop))
          pure (sourcePrefix, stop + 1)
    else pure ([], position)
  else pure ([], position)

/-- The command at the cursor, with the position of the space that ends it. -/
def parseCommand (line : Bytes) (position : Nat) : Parse (Bytes × Option Nat) := do
  let commandEnd := find line space position
  let commandView ← substr line position (← distance position commandEnd)
  if commandView.isEmpty then reject "IRC command is empty"
  else
    let command := commandView.map toUpper
    if command.all isAlnum then pure (command, commandEnd)
    else reject "IRC command contains invalid characters"

/-- The parameter loop, from the cursor on. Only middle parameters are counted
against the limit: the trailing one leaves the loop before the test. -/
def parameterLoop (line : Bytes) : Nat → Nat → List Bytes → Parse (List Bytes)
  | 0, _, _ => .error (.fault .outOfFuel)
  | fuel + 1, position, parameters =>
    if position < line.length then do
      let position ← skipSpaces line (line.length + 1) position
      if position ≥ line.length then pure parameters
      else if (← charAt line position) = colon then
        pure (parameters ++ [← substr line (position + 1) none])
      else do
        let stop := find line space position
        let parameters := parameters ++ [← substr line position (← distance position stop)]
        if parameters.length > 32 then reject "IRC message has too many parameters"
        else match stop with
          | none => pure parameters
          | some stop => parameterLoop line fuel (stop + 1) parameters
    else pure parameters

/-- The walk of the cursor over the sections of a line that passed the checks. -/
def parseSections (line : Bytes) : Parse IrcMessage := do
  let (tags, position) ← parseTags line
  let position ← skipSpaces line (line.length + 1) position
  let (sourcePrefix, position) ← parsePrefix line position
  let position ← skipSpaces line (line.length + 1) position
  let (command, commandEnd) ← parseCommand line position
  match commandEnd with
  | none => pure { tags, sourcePrefix, command, parameters := [] }
  | some commandEnd => do
    let parameters ← parameterLoop line (line.length + 1) (commandEnd + 1) []
    pure { tags, sourcePrefix, command, parameters }

/-- The `try` block of `parse_irc_message`. -/
def parseBody (line : Bytes) : Parse IrcMessage :=
  if line.isEmpty then reject "IRC line is empty"
  else if line.length > maxIrcLineBytes || containsLineBreak line then
    reject "IRC line is oversized or contains a line break"
  else parseSections line

/-- `parse_irc_message`: the message, or the text left in `*error` when it
returns nothing. An exception of the body ends in its `catch` branches. -/
def parseIrcMessage (line : Bytes) : Except String IrcMessage :=
  match parseBody line with
  | .ok message => .ok message
  | .error (.rejected text) => .error text
  | .error (.fault .outOfRange) => .error "IRC parse error: basic_string_view::substr"
  | .error (.fault _) => .error "Unknown IRC parse error"

def encodeIrcLine (line : Bytes) : Except String Bytes :=
  if line.isEmpty || containsLineBreak line then
    .error "Outgoing IRC line is empty or contains CR/LF"
  else if line.length > maxOutgoingPayloadBytes then .error "Outgoing IRC line exceeds 510 bytes"
  else .ok (line ++ crlf)

def makePrivmsg (channel text : Bytes) : Except String Bytes :=
  if channel.isEmpty || text.isEmpty || containsLineBreak channel || containsLineBreak text then
    .error "PRIVMSG channel and text must be non-empty and contain no CR/LF"
  else
    let normalizedChannel := if channel.head? = some hashSign then channel else hashSign :: channel
    encodeIrcLine (bytes "PRIVMSG " ++ normalizedChannel ++ bytes " :" ++ text)

theorem encodeIrcLine_eq_ok {line : Bytes} (nonempty : line ≠ []) (noCr : cr ∉ line) (noLf : lf ∉ line)
    (short : line.length ≤ maxOutgoingPayloadBytes) : encodeIrcLine line = .ok (line ++ crlf) := by
  have clean := containsLineBreak_eq_false.mpr ⟨noCr, noLf⟩
  simp [encodeIrcLine, nonempty, clean, Nat.not_lt.mpr short]

theorem encodeIrcLine_ok_iff {line data : Bytes} :
    encodeIrcLine line = .ok data ↔ line ≠ [] ∧ cr ∉ line ∧ lf ∉ line ∧
      line.length ≤ maxOutgoingPayloadBytes ∧ data = line ++ crlf := by
  constructor
  · intro encoded
    unfold encodeIrcLine at encoded
    split at encoded
    · simp at encoded
    · rename_i clean
      split at encoded
      · simp at encoded
      · rename_i short
        simp only [Bool.or_eq_true, List.isEmpty_iff, not_or, Bool.not_eq_true] at clean
        obtain ⟨noCr, noLf⟩ := containsLineBreak_eq_false.mp clean.2
        exact ⟨clean.1, noCr, noLf, Nat.le_of_not_lt short, (Except.ok.inj encoded).symm⟩
  · rintro ⟨nonempty, noCr, noLf, short, rfl⟩
    exact encodeIrcLine_eq_ok nonempty noCr noLf short

end TwitchBot
