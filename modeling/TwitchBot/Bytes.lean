import Mathlib.Data.List.DropRight
import Mathlib.Data.List.Infix

/-!
Byte strings and the C-locale character classes the program relies on.
`char` is a byte, `std::string` a list of bytes of any content.
-/

namespace TwitchBot

abbrev Bytes := List UInt8

/-- The bytes of an ASCII literal of the source. -/
def bytes (literal : String) : Bytes := literal.toList.map Char.toUInt8

abbrev space : UInt8 := 32
abbrev cr : UInt8 := 13
abbrev lf : UInt8 := 10
abbrev colon : UInt8 := 58
abbrev semicolon : UInt8 := 59
abbrev equalsSign : UInt8 := 61
abbrev atSign : UInt8 := 64
abbrev backslash : UInt8 := 92
abbrev hashSign : UInt8 := 35
abbrev minus : UInt8 := 45
abbrev underscore : UInt8 := 95
abbrev comma : UInt8 := 44
abbrev bang : UInt8 := 33

/-- `"\r\n"`. -/
def crlf : Bytes := [cr, lf]

/-- `std::isspace` in the C locale: tab, line feed, vertical tab, form feed,
carriage return and space. -/
def isSpace (c : UInt8) : Bool := (9 ≤ c && c ≤ 13) || c == space

def isUpper (c : UInt8) : Bool := 65 ≤ c && c ≤ 90

def isLower (c : UInt8) : Bool := 97 ≤ c && c ≤ 122

def isDigit (c : UInt8) : Bool := 48 ≤ c && c ≤ 57

/-- `std::isalnum`. -/
def isAlnum (c : UInt8) : Bool := isUpper c || isLower c || isDigit c

/-- `std::toupper`. -/
def toUpper (c : UInt8) : UInt8 := if isLower c then c - 32 else c

/-- `std::tolower`. -/
def toLower (c : UInt8) : UInt8 := if isUpper c then c + 32 else c

/-- `contains_line_break` of `irc.cpp`, also the test of `reject_line_breaks`. -/
def containsLineBreak (value : Bytes) : Bool := value.contains cr || value.contains lf

/-- `trim` of `config.cpp`. -/
def trim (value : Bytes) : Bytes := (value.dropWhile isSpace).rdropWhile isSpace

/-- `std::string::find` of another string, as the test `!= npos`. -/
def containsText (text needle : Bytes) : Bool := decide (needle <:+: text)

/-- The tokens that `stream >> token` reads one after the other. -/
def words (text : Bytes) : List Bytes := (text.splitOnP isSpace).filter (fun word => !word.isEmpty)

/-- The items that `std::getline(stream, item, delimiter)` reads one after the
other: a delimiter at the very end of the stream starts no further item. -/
def getlineItems (delimiter : UInt8) (text : Bytes) : List Bytes :=
  let items := text.splitOn delimiter
  if items.getLast? = some [] then items.dropLast else items

theorem containsLineBreak_eq_false {value : Bytes} :
    containsLineBreak value = false ↔ cr ∉ value ∧ lf ∉ value := by
  simp [containsLineBreak]

theorem containsLineBreak_append {left right : Bytes} :
    containsLineBreak (left ++ right) = (containsLineBreak left || containsLineBreak right) := by
  rw [Bool.eq_iff_iff]
  simp only [containsLineBreak, Bool.or_eq_true, List.contains_iff_mem, List.mem_append]
  tauto

/-- A property of single bytes is settled by its 256 cases. -/
theorem forall_byte {p : UInt8 → Prop} (cases : ∀ n : Fin 256, p (UInt8.ofFin n)) (c : UInt8) : p c := by
  have same : UInt8.ofFin c.toFin = c := by simp
  exact same ▸ cases c.toFin

theorem isAlnum_toUpper (c : UInt8) : isAlnum (toUpper c) = isAlnum c :=
  forall_byte (p := fun c => isAlnum (toUpper c) = isAlnum c) (by decide +kernel) c

/-- Letters and digits are none of the separators of the wire format. -/
theorem isAlnum_ne {c d : UInt8} (alnum : isAlnum c = true) (other : isAlnum d = false) : c ≠ d := by
  rintro rfl
  rw [alnum] at other
  exact Bool.noConfusion other

end TwitchBot
