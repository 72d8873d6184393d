import Mathlib.Data.Rat.Floor
import TwitchBot.Bytes

/-!
The part of `nlohmann::json` that the configuration uses. The value type and
its accessors follow the library's documentation; the parser itself is a
parameter of whatever reads a document.
-/

namespace TwitchBot

/-- A parsed document. Integer literals are held in 64 bits, signed if they are
negative; the members of an object have distinct keys. -/
inductive Json
  | null
  | boolean (value : Bool)
  | numberInteger (value : Int)
  | numberUnsigned (value : Nat)
  | numberFloat (value : Rat)
  | string (value : Bytes)
  | array (items : List Json)
  | object (members : List (Bytes × Json))

/-- `nlohmann::json::parse`: a document, or the text of the exception. -/
abbrev JsonParser := Bytes → Except String Json

namespace Json

def typeName : Json → String
  | null => "null"
  | boolean _ => "boolean"
  | numberInteger _ | numberUnsigned _ | numberFloat _ => "number"
  | string _ => "string"
  | array _ => "array"
  | object _ => "object"

def isObject : Json → Bool
  | object _ => true
  | _ => false

def isNull : Json → Bool
  | null => true
  | _ => false

/-- `find(key)` of an object; no other value has members. -/
def find? (json : Json) (key : String) : Option Json :=
  match json with
  | object members => (members.find? (fun member => decide (member.1 = bytes key))).map Prod.snd
  | _ => none

def contains (json : Json) (key : String) : Bool := (json.find? key).isSome

/-- `at(key)` of an object. -/
def at_ (json : Json) (key : String) : Except String Json :=
  match json.find? key with
  | some value => .ok value
  | none => .error ("[json.exception.out_of_range.403] key '" ++ key ++ "' not found")

def typeError {α : Type} (expected : String) (json : Json) : Except String α :=
  .error ("[json.exception.type_error.302] type must be " ++ expected ++ ", but is " ++ json.typeName)

/-- `get<std::string>()`. -/
def getString : Json → Except String Bytes
  | string value => .ok value
  | json => typeError "string" json

/-- `get<bool>()`. -/
def getBool : Json → Except String Bool
  | boolean value => .ok value
  | json => typeError "boolean" json

/-- `static_cast<int>` of a 64-bit integer: modulo 2^32. -/
def castInt (value : Int) : Int := value.bmod (2 ^ 32)

/-- `static_cast<int>` of a double: its integer part. Outside the range of
`int` the language leaves the result open; the usual hardware yields the
least integer. -/
def castFloat (value : Rat) : Int :=
  let whole := if 0 ≤ value then value.floor else value.ceil
  if -(2 ^ 31) ≤ whole ∧ whole < 2 ^ 31 then whole else -(2 ^ 31)

/-- `get<int>()`: every number and every boolean converts. -/
def getInt : Json → Except String Int
  | boolean value => .ok (if value then 1 else 0)
  | numberInteger value => .ok (castInt value)
  | numberUnsigned value => .ok (castInt value)
  | numberFloat value => .ok (castFloat value)
  | json => typeError "number" json

/-- `value(key, default_value)` of an object, at one of the types above. -/
def value {α : Type} (get : Json → Except String α) (json : Json) (key : String) (default_ : α) :
    Except String α :=
  match json.find? key with
  | some found => get found
  | none => .ok default_

end Json

end TwitchBot
