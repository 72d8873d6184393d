import TwitchBot.Config

/-! Translation of `load_env_file` of `config.cpp`. -/

namespace TwitchBot

open StringView

abbrev doubleQuote : UInt8 := 34
abbrev singleQuote : UInt8 := 39

def exportPrefix : Bytes := bytes "export "

/-- `if (!line.empty() && line.back() == '\r') line.pop_back()`. -/
def popCarriageReturn (line : Bytes) : Bytes := if line.getLast? = some cr then line.dropLast else line

def isWrappedIn (quote : UInt8) (entry : Bytes) : Prop :=
  entry.head? = some quote ∧ entry.getLast? = some quote

instance (quote : UInt8) (entry : Bytes) : Decidable (isWrappedIn quote entry) :=
  inferInstanceAs (Decidable (_ ∧ _))

/-- One pair of matching quotes is taken away. -/
def stripQuotes (entry : Bytes) : Bytes :=
  if 2 ≤ entry.length ∧ (isWrappedIn doubleQuote entry ∨ isWrappedIn singleQuote entry) then
    (entry.drop 1).take (entry.length - 2)
  else entry

/-- The body of the loop, up to the assignment: `none` is its `continue`. -/
def readEnvLine (lineNumber : Nat) (line : Bytes) : Except String (Option (Bytes × Bytes)) :=
  let value := trim (popCarriageReturn line)
  if value.isEmpty ∨ value.head? = some hashSign then .ok none
  else
    let value := if exportPrefix.isPrefixOf value then trim (value.drop exportPrefix.length) else value
    match find value equalsSign 0 with
    | none => .error ("Invalid .env entry at line " ++ toString lineNumber)
    | some equals =>
      if equals = 0 then .error ("Invalid .env entry at line " ++ toString lineNumber)
      else .ok (some (trim (value.take equals), stripQuotes (trim (value.drop (equals + 1)))))

/-- The loop over the lines of the file. -/
def readEnvLines : List Bytes → Nat → Environment → Except String Environment
  | [], _, environment => .ok environment
  | line :: lines, lineNumber, environment => do
    match ← readEnvLine (lineNumber + 1) line with
    | none => readEnvLines lines (lineNumber + 1) environment
    | some (key, entry) => readEnvLines lines (lineNumber + 1) (environment.insert key entry)

/-- A file that cannot be opened is `none`. -/
def loadEnvFile : Option Bytes → Except String Environment
  | none => .ok ∅
  | some content => readEnvLines (getlineItems lf content) 0 ∅

end TwitchBot
