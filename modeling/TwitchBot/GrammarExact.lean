import TwitchBot.GrammarParameters

namespace TwitchBot

open ExceptRun StringView MessageSyntax

theorem tagsPart_cons (tag : Tag) (others : List Tag) (rest : Bytes) :
    tagsPart (tag :: others) ++ rest = atSign :: (tagsText (tag :: others) ++ space :: rest) := by
  simp [tagsPart]

theorem parseTags_absent {rest : Bytes} (nonempty : rest ≠ []) (head : rest.head? ≠ some atSign) :
    parseTags rest = .ok (∅, 0) := by
  obtain ⟨c, rest, rfl⟩ := List.exists_cons_of_ne_nil nonempty
  have other : c ≠ atSign := by simpa using head
  have char := charAt_cut (ρ := String) [] c rest
  simp only [List.nil_append, List.length_nil] at char
  simp [parseTags, char, other]

/-- The tag section between `@` and the first space goes to the tag loop. -/
theorem parseTags_section {tagSection : Bytes} (free : space ∉ tagSection) (rest : Bytes) :
    parseTags (atSign :: (tagSection ++ space :: rest)) =
      (tagLoop tagSection (tagSection.length + 1) 0 ∅ >>= fun tags => .ok (tags, tagSection.length + 2)) := by
  have char := charAt_cut (ρ := String) [] atSign (tagSection ++ space :: rest)
  have noSpace : space ∉ atSign :: tagSection :=
      List.not_mem_cons_of_ne_of_not_mem (by decide) free
  have stop := find_cut_zero rest noSpace
  have part := substr_cut (ρ := String) [atSign] tagSection (space :: rest)
  have count := distance_add (ρ := String) 1 tagSection.length
  simp only [List.nil_append, List.length_nil, List.cons_append, List.length_cons,
    Nat.zero_add] at char stop part
  simp only [parseTags, char, ok_bind, if_true, stop, Nat.add_comm tagSection.length 1, count, part]
  simp only [Nat.add_comm 1 tagSection.length, pure_eq_ok]

theorem parseTags_tagsPart (tags : List Tag) {rest : Bytes} (nonempty : rest ≠ [])
    (head : tags = [] → rest.head? ≠ some atSign) :
    parseTags (tagsPart tags ++ rest) = .ok (tagMap tags, (tagsPart tags).length) := by
  cases tags with
  | nil =>
    rw [show tagsPart [] ++ rest = rest from rfl, parseTags_absent nonempty (head rfl)]
    rfl
  | cons tag others =>
    have bound := tagsText_length (tag :: others)
    simp only [List.length_cons] at bound
    have read := tagLoop_tagsText tag others [] ((tagsText (tag :: others)).length + 1) ∅ (by omega)
    simp only [List.nil_append, List.length_nil] at read
    rw [tagsPart_cons, parseTags_section (tagsText_noSpace _), read]
    simp [tagMap, tagsPart]

/-- A non-empty line has a tag part of the grammar or is rejected for its tags. -/
theorem parseTags_cases {line : Bytes} (nonempty : line ≠ []) :
    (∃ tags rest, line = tagsPart tags ++ rest ∧
        parseTags line = .ok (tagMap tags, (tagsPart tags).length)) ∨
      ∃ text, parseTags line = reject text := by
  by_cases head : line.head? = some atSign
  · obtain ⟨_, line, rfl⟩ := List.exists_cons_of_ne_nil nonempty
    cases Option.some.inj (by simpa using head)
    rcases cut_cases space line with free | ⟨tagSection, rest, rfl, free⟩
    · right
      have noSpace : space ∉ atSign :: line :=
      List.not_mem_cons_of_ne_of_not_mem (by decide) free
      have char := charAt_cut (ρ := String) [] atSign line
      simp only [List.nil_append, List.length_nil] at char
      refine ⟨"IRC tag section has no command", ?_⟩
      simp only [parseTags, char, ok_bind, if_true, find_none_zero noSpace]
    · rw [parseTags_section free]
      rcases tagLoop_cases (tagSection.length + 1) [] tagSection ∅ free (by omega) with
        ⟨read, some, rfl, result⟩ | ⟨text, failed⟩
      · left
        obtain ⟨tag, others, rfl⟩ := List.exists_cons_of_ne_nil some
        simp only [List.nil_append, List.length_nil] at result
        refine ⟨tag :: others, rest, (tagsPart_cons _ _ _).symm, ?_⟩
        rw [result]
        simp [tagMap, tagsPart]
      · right
        simp only [List.nil_append, List.length_nil] at failed
        exact ⟨text, by rw [failed]; rfl⟩
  · left
    exact ⟨[], line, rfl, by rw [parseTags_absent nonempty head]; rfl⟩

theorem parsePrefix_prefixPart (before : Bytes) (sourcePrefix : Option Bytes) (rest : Bytes)
    (form : ∀ p ∈ sourcePrefix, p ≠ [] ∧ space ∉ p)
    (head : sourcePrefix = none → rest.head? ≠ some colon) :
    parsePrefix (before ++ (prefixPart sourcePrefix ++ rest)) before.length =
      .ok (sourcePrefix.getD [], (before ++ prefixPart sourcePrefix).length) := by
  cases sourcePrefix with
  | none =>
    cases rest with
    | nil => simp [prefixPart, parsePrefix]
    | cons c rest =>
      have other : c ≠ colon := by simpa using head rfl
      simp [prefixPart, parsePrefix, other]
  | some p =>
    obtain ⟨nonempty, free⟩ := form p rfl
    have positive := List.length_pos_iff.mpr nonempty
    have char := charAt_cut (ρ := String) before colon (p ++ space :: rest)
    have noSpace : space ∉ colon :: p := List.not_mem_cons_of_ne_of_not_mem (by decide) free
    have stop := find_cut before rest noSpace
    have part := substr_cut (ρ := String) (before ++ [colon]) p (space :: rest)
    have count := distance_add (ρ := String) (before.length + 1) p.length
    simp only [List.append_assoc, List.cons_append, List.nil_append, List.length_append,
      List.length_cons, List.length_nil, Nat.zero_add] at part stop
    have shift : before.length + (p.length + 1) = before.length + 1 + p.length := by omega
    simp only [prefixPart, List.append_assoc, List.cons_append, List.nil_append, parsePrefix]
    rw [if_pos (by simp)]
    simp only [char, ok_bind, if_true, stop]
    rw [if_neg (by omega)]
    simp only [shift, count, ok_bind, part, pure_eq_ok, Option.getD_some, List.length_append,
      List.length_cons, List.length_nil]
    congr 2
    omega

/-- At any cursor there is a prefix part of the grammar or the line is rejected. -/
theorem parsePrefix_cases (before rest : Bytes) :
    (∃ sourcePrefix rest', rest = prefixPart sourcePrefix ++ rest' ∧
        (∀ p ∈ sourcePrefix, p ≠ [] ∧ space ∉ p) ∧
        parsePrefix (before ++ rest) before.length =
          .ok (sourcePrefix.getD [], (before ++ prefixPart sourcePrefix).length)) ∨
      ∃ text, parsePrefix (before ++ rest) before.length = reject text := by
  by_cases head : rest.head? = some colon
  · obtain ⟨tail, rfl⟩ : ∃ tail, rest = colon :: tail := by
      cases rest with
      | nil => simp at head
      | cons c tail => exact ⟨tail, by rw [Option.some.inj (by simpa using head : some c = some colon)]⟩
    have char := charAt_cut (ρ := String) before colon tail
    have within : before.length < (before ++ colon :: tail).length := by simp
    rcases cut_cases space tail with free | ⟨p, rest, rfl, free⟩
    · right
      have noSpace : space ∉ colon :: tail := List.not_mem_cons_of_ne_of_not_mem (by decide) free
      have stop := find_none before noSpace
      refine ⟨"IRC prefix has no command", ?_⟩
      simp only [parsePrefix, if_pos within, char, ok_bind, if_true, stop]
    · by_cases empty : p = []
      · right
        subst empty
        have noSpace : space ∉ [colon] := by decide
        have stop := find_cut before rest noSpace
        simp only [List.cons_append, List.nil_append, List.length_cons, List.length_nil,
          Nat.zero_add] at stop char within ⊢
        refine ⟨"IRC prefix has no command", ?_⟩
        simp only [parsePrefix, if_pos within, char, ok_bind, if_true, stop]
      · left
        have form : ∀ q ∈ some p, q ≠ [] ∧ space ∉ q := by
          intro q member
          cases member
          exact ⟨empty, free⟩
        refine ⟨some p, rest, by simp [prefixPart], form, ?_⟩
        have read := parsePrefix_prefixPart before (some p) rest form (by simp)
        simpa [prefixPart] using read
  · left
    refine ⟨none, rest, rfl, by simp, ?_⟩
    exact parsePrefix_prefixPart before none rest (by simp) (fun _ => head)

/-- The command view is the text up to the next space or the end of the line. -/
theorem parseCommand_view (before : Bytes) {command : Bytes} (free : space ∉ command)
    (paramsText : Option Bytes) :
    parseCommand (before ++ (command ++ paramsPart paramsText)) before.length =
      if command.isEmpty then reject "IRC command is empty"
      else if (command.map toUpper).all isAlnum then
        .ok (command.map toUpper, paramsText.map (fun _ => before.length + command.length))
      else reject "IRC command contains invalid characters" := by
  cases paramsText with
  | none =>
    have stop := find_none before free
    have view := substr_rest (ρ := String) before command
    simp only [paramsPart, List.append_nil, parseCommand, stop, distance_none, ok_bind, view]
    rfl
  | some text =>
    have stop := find_cut before text free
    have view := substr_cut (ρ := String) before command (space :: text)
    simp only [paramsPart, parseCommand, stop, distance_add, ok_bind, view]
    rfl

theorem all_toUpper (command : Bytes) :
    (command.map toUpper).all isAlnum = true ↔ ∀ c ∈ command, isAlnum c = true := by
  simp [isAlnum_toUpper]

theorem space_free_of_alnum {command : Bytes} (alnum : ∀ c ∈ command, isAlnum c = true) :
    space ∉ command := by
  intro member
  exact absurd (alnum space member) (by decide)

theorem parseCommand_cases (before rest : Bytes) :
    (∃ command paramsText, rest = command ++ paramsPart paramsText ∧ command ≠ [] ∧
        (∀ c ∈ command, isAlnum c = true) ∧
        parseCommand (before ++ rest) before.length =
          .ok (command.map toUpper, paramsText.map (fun _ => before.length + command.length))) ∨
      ∃ text, parseCommand (before ++ rest) before.length = reject text := by
  obtain ⟨command, paramsText, rfl, free⟩ :
      ∃ command paramsText, rest = command ++ paramsPart paramsText ∧ space ∉ command := by
    rcases cut_cases space rest with free | ⟨command, text, rfl, free⟩
    · exact ⟨rest, none, by simp [paramsPart], free⟩
    · exact ⟨command, some text, rfl, free⟩
  have view := parseCommand_view before free paramsText
  by_cases empty : command = []
  · right
    subst empty
    exact ⟨_, view⟩
  by_cases alnum : (command.map toUpper).all isAlnum = true
  · left
    refine ⟨command, paramsText, rfl, empty, (all_toUpper command).mp alnum, ?_⟩
    rw [view, if_neg (by simpa using empty), if_pos alnum]
  · right
    refine ⟨"IRC command contains invalid characters", ?_⟩
    rw [view, if_neg (by simpa using empty), if_neg alnum]

end TwitchBot
