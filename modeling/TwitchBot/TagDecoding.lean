import TwitchBot.Irc

namespace TwitchBot

/-- The escapes of IRCv3 tag values: the byte behind the backslash and the
byte it stands for. -/
def tagEscapes : List (UInt8 × UInt8) :=
  [(colon, semicolon), ('s'.toUInt8, space), ('r'.toUInt8, cr), ('n'.toUInt8, lf), (backslash, backslash)]

/-- IRCv3 reading of a tag value from left to right. The parameter `final`
is what a lone backslash at the very end stands for; by IRCv3, nothing. -/
inductive TagReading (final : Bytes) : Bytes → Bytes → Prop
  | done : TagReading final [] []
  | dangling : TagReading final [backslash] final
  | escape {c d : UInt8} {rest value : Bytes} : (c, d) ∈ tagEscapes → TagReading final rest value →
      TagReading final (backslash :: c :: rest) (d :: value)
  | unknown {c : UInt8} {rest value : Bytes} : c ∉ tagEscapes.map Prod.fst → TagReading final rest value →
      TagReading final (backslash :: c :: rest) (c :: value)
  | plain {c : UInt8} {rest value : Bytes} : c ≠ backslash → TagReading final rest value →
      TagReading final (c :: rest) (c :: value)

/-- How IRCv3 writes a byte into a tag value. -/
def escapedByte (c : UInt8) : Bytes :=
  match tagEscapes.find? (fun escape => decide (escape.2 = c)) with
  | some escape => [backslash, escape.1]
  | none => [c]

def escapeIrcTag (value : Bytes) : Bytes := value.flatMap escapedByte

theorem unescapedByte_escape {c d : UInt8} (escape : (c, d) ∈ tagEscapes) : unescapedByte c = d := by
  have each : tagEscapes.all (fun e => unescapedByte e.1 == e.2) = true := by decide
  exact beq_iff_eq.mp (List.all_eq_true.mp each (c, d) escape)

theorem unescapedByte_unknown {c : UInt8} (unknown : c ∉ tagEscapes.map Prod.fst) : unescapedByte c = c := by
  simp only [tagEscapes, List.map_cons, List.map_nil, List.mem_cons, List.not_mem_nil, or_false, not_or] at unknown
  obtain ⟨notColon, notS, notR, notN, notBackslash⟩ := unknown
  simp only [unescapedByte, notColon, notS, notR, notN, notBackslash, if_false]

theorem unescapeLoop_escape (c : UInt8) (rest : Bytes) :
    unescapeLoop false (backslash :: c :: rest) = unescapedByte c :: unescapeLoop false rest := by
  simp [unescapeLoop]

theorem unescapeLoop_plain {c : UInt8} (plain : c ≠ backslash) (rest : Bytes) :
    unescapeLoop false (c :: rest) = c :: unescapeLoop false rest := by
  simp [unescapeLoop, plain]

/-- The loop keeps a dangling backslash and reads everything else as IRCv3 does. -/
theorem unescapeLoop_reading : ∀ value : Bytes, TagReading [backslash] value (unescapeLoop false value)
  | [] => .done
  | [c] => by
    by_cases same : c = backslash
    · subst same
      exact .dangling
    · rw [unescapeLoop_plain same]
      exact .plain same .done
  | c :: d :: rest => by
    by_cases same : c = backslash
    · subst same
      rw [unescapeLoop_escape]
      by_cases known : d ∈ tagEscapes.map Prod.fst
      · obtain ⟨e, member, rfl⟩ := List.mem_map.mp known
        rw [unescapedByte_escape member]
        exact .escape member (unescapeLoop_reading rest)
      · rw [unescapedByte_unknown known]
        exact .unknown known (unescapeLoop_reading rest)
    · rw [unescapeLoop_plain same]
      exact .plain same (unescapeLoop_reading (d :: rest))

/-- A value has one reading only, the one the loop computes. -/
theorem TagReading.eq_unescapeLoop {value decoded : Bytes} (reading : TagReading [backslash] value decoded) :
    decoded = unescapeLoop false value := by
  induction reading with
  | done => rfl
  | dangling => rfl
  | escape known _ ih => rw [unescapeLoop_escape, unescapedByte_escape known, ih]
  | unknown unknown _ ih => rw [unescapeLoop_escape, unescapedByte_unknown unknown, ih]
  | plain plain _ ih => rw [unescapeLoop_plain plain, ih]

theorem TagReading.escapedByte {final rest value : Bytes} (reading : TagReading final rest value) (c : UInt8) :
    TagReading final (TwitchBot.escapedByte c ++ rest) (c :: value) := by
  unfold TwitchBot.escapedByte
  split
  · rename_i escape found
    have same : escape.2 = c := by simpa using List.find?_some found
    subst same
    exact .escape (List.mem_of_find?_eq_some found) reading
  · rename_i missing
    have all := List.find?_eq_none.mp missing
    have plain : c ≠ backslash := by
      rintro rfl
      exact all (backslash, backslash) (by decide) (by decide)
    exact .plain plain reading

/-- What IRCv3 escapes is read back, whatever a dangling backslash stands for. -/
theorem escapeIrcTag_reading (final value : Bytes) : TagReading final (escapeIrcTag value) value := by
  induction value with
  | nil => exact .done
  | cons c value ih =>
    simp only [escapeIrcTag, List.flatMap_cons] at ih ⊢
    exact ih.escapedByte c

/-- The decoder reads every tag value as IRCv3 does, a dangling backslash
apart, which it keeps; so it undoes the escaping of every value. -/
theorem unescapeIrcTag_exact :
    (∀ value decoded, unescapeIrcTag value = decoded ↔ TagReading [backslash] value decoded) ∧
      ∀ value, unescapeIrcTag (escapeIrcTag value) = value := by
  have exact (value decoded : Bytes) : unescapeIrcTag value = decoded ↔ TagReading [backslash] value decoded := by
    constructor
    · rintro rfl
      exact unescapeLoop_reading value
    · intro reading
      exact reading.eq_unescapeLoop.symm
  exact ⟨exact, fun value => (exact _ _).mpr (escapeIrcTag_reading _ value)⟩

/-- The decoder writes a backslash where IRCv3 reads nothing. -/
theorem unescapeIrcTag_dangling :
    ¬ ((∀ value decoded, unescapeIrcTag value = decoded ↔ TagReading [] value decoded) ∧
      ∀ value, unescapeIrcTag (escapeIrcTag value) = value) := by
  intro standard
  have empty : unescapeIrcTag [backslash] = [] := (standard.1 [backslash] []).mpr .dangling
  exact absurd empty (by decide)

end TwitchBot
