import TwitchBot.EnvFile
import TwitchBot.Library.LastWins
import TwitchBot.Trim

namespace TwitchBot

open StringView ExceptRun LastWins

/-- Whitespace within a line. -/
def Gap (text : Bytes) : Prop := Blank text ∧ lf ∉ text

/-- The keys that a `.env` line can carry. -/
structure EnvKey (key : Bytes) : Prop where
  nonempty : key ≠ []
  noEquals : equalsSign ∉ key
  unbroken : lf ∉ key
  edges : PlainEdges key
  notComment : key.head? ≠ some hashSign
  notExport : key ≠ bytes "export"
  notExported : ¬ exportPrefix <+: key

/-- `[ "export " ]`, with any further whitespace. -/
inductive ExportPart : Bytes → Prop
  | absent : ExportPart []
  | present {gap : Bytes} : Gap gap → ExportPart (exportPrefix ++ gap)

/-- A value in one pair of matching quotes. -/
inductive Quoted (value : Bytes) : Bytes → Prop
  | double : Quoted value (doubleQuote :: (value ++ [doubleQuote]))
  | single : Quoted value (singleQuote :: (value ++ [singleQuote]))

/-- `key = quoted`, without what may stand around it. -/
inductive Assignment (key value : Bytes) : Bytes → Prop
  | intro {before after quoted : Bytes} : EnvKey key → lf ∉ value → Gap before → Gap after → Quoted value quoted →
      Assignment key value (key ++ (before ++ equalsSign :: (after ++ quoted)))

/-- The lines of a `.env` file, with the pair that a line assigns. -/
inductive EnvLine : Bytes → Option (Bytes × Bytes) → Prop
  | blank {text : Bytes} : Gap text → EnvLine text none
  | comment {lead rest : Bytes} : Gap lead → lf ∉ rest → EnvLine (lead ++ hashSign :: rest) none
  | entry {lead exported text trail key value : Bytes} : Gap lead → ExportPart exported →
      Assignment key value text → Gap trail → EnvLine (lead ++ ((exported ++ text) ++ trail)) (some (key, value))

inductive LineEnd : Bytes → Prop
  | lf : LineEnd [lf]
  | crlf : LineEnd crlf

/-- The files whose lines assign the given pairs; the last line may lack its end. -/
inductive EnvFile : Bytes → List (Bytes × Bytes) → Prop
  | done : EnvFile [] []
  | last {text : Bytes} {entry : Option (Bytes × Bytes)} : EnvLine text entry → EnvFile text entry.toList
  | line {text ending rest : Bytes} {entry : Option (Bytes × Bytes)} {pairs : List (Bytes × Bytes)} :
      EnvLine text entry → LineEnd ending → EnvFile rest pairs →
      EnvFile (text ++ (ending ++ rest)) (entry.toList ++ pairs)

theorem trim_popCarriageReturn (line : Bytes) : trim (popCarriageReturn line) = trim line := by
  unfold popCarriageReturn
  split
  · rename_i last
    have whole := List.dropLast_append_getLast? cr last
    conv_rhs => rw [← whole, trim_trail (.singleton (by decide))]
  · rfl

/-- A line counts only up to the whitespace around it. -/
theorem readEnvLine_congr {lineNumber : Nat} {left right : Bytes} (same : trim left = trim right) :
    readEnvLine lineNumber left = readEnvLine lineNumber right := by
  simp only [readEnvLine, trim_popCarriageReturn, same]

theorem Quoted.edges {value quoted : Bytes} (wrapped : Quoted value quoted) : PlainEdges quoted ∧ quoted ≠ [] := by
  have doubleEdges : PlainEdges [doubleQuote] := .singleton (by decide)
  have singleEdges : PlainEdges [singleQuote] := .singleton (by decide)
  cases wrapped with
  | double => exact ⟨doubleEdges.append (by simp) doubleEdges (by simp), by simp⟩
  | single => exact ⟨singleEdges.append (by simp) singleEdges (by simp), by simp⟩

theorem Quoted.stripped {value quoted : Bytes} (wrapped : Quoted value quoted) : stripQuotes quoted = value := by
  have last : ∀ quote : UInt8, (quote :: (value ++ [quote])).getLast? = some quote := by
    intro quote
    rw [← List.cons_append, List.getLast?_concat]
  cases wrapped with
  | double => simp [stripQuotes, isWrappedIn, last]
  | single => simp [stripQuotes, isWrappedIn, last]

theorem EnvKey.head {key : Bytes} (proper : EnvKey key) :
    ∃ c rest, key = c :: rest ∧ isSpace c = false ∧ c ≠ hashSign := by
  obtain ⟨c, rest, rfl⟩ := List.exists_cons_of_ne_nil proper.nonempty
  exact ⟨c, rest, rfl, proper.edges.1 c rfl, fun same => proper.notComment (congrArg some same)⟩

/-- No key together with the whitespace after it reads as the prefix. -/
theorem EnvKey.not_exported {key before : Bytes} (proper : EnvKey key) (blank : Blank before) :
    ¬ exportPrefix <+: key ++ before := by
  intro exported
  rcases List.prefix_or_prefix_of_prefix exported (List.prefix_append key before) with inKey | ⟨more, whole⟩
  · exact proper.notExported inKey
  · have moreBlank : Blank more := by
      obtain ⟨rest, split⟩ := exported
      rw [← whole, List.append_assoc, List.append_cancel_left_eq] at split
      exact fun c member => blank c (split ▸ List.mem_append_left rest member)
    have same : trim exportPrefix = key := by
      rw [← whole, trim_trail moreBlank, trim_eq_self proper.edges]
    exact proper.notExport (same.symm.trans (by decide))

theorem blank_noEquals {text : Bytes} (blank : Blank text) : equalsSign ∉ text := by
  intro member
  exact absurd (blank equalsSign member) (by decide)

/-- A prefix without a byte lies before the first occurrence of that byte. -/
theorem prefix_before {start front rest : Bytes} {c : UInt8} (free : c ∉ start)
    (begins : start <+: front ++ c :: rest) : start <+: front := by
  rcases List.prefix_or_prefix_of_prefix begins (List.prefix_append front (c :: rest)) with inFront | ⟨more, whole⟩
  · exact inFront
  · obtain ⟨tail, split⟩ := begins
    rw [← whole, List.append_assoc, List.append_cancel_left_eq] at split
    cases more with
    | nil => rw [← whole, List.append_nil]
    | cons d more =>
      rw [List.cons_append] at split
      cases (List.cons.inj split).1
      exact absurd (whole ▸ List.mem_append_right front (List.mem_cons_self ..)) free

namespace Assignment

variable {key value text : Bytes}

theorem edges (assigned : Assignment key value text) : PlainEdges text := by
  cases assigned with
  | @intro before after quoted proper _ _ _ wrapped =>
    have whole : PlainEdges (key ++ (before ++ equalsSign :: after) ++ quoted) :=
      proper.edges.append proper.nonempty wrapped.edges.1 wrapped.edges.2
    simpa using whole

theorem nonempty (assigned : Assignment key value text) : text ≠ [] := by
  cases assigned with
  | intro proper => simp [proper.nonempty]

/-- A line that assigns starts neither with whitespace nor as a comment. -/
theorem head (assigned : Assignment key value text) {exported : Bytes} (part : ExportPart exported) :
    ∃ c rest, exported ++ text = c :: rest ∧ isSpace c = false ∧ c ≠ hashSign := by
  cases part with
  | absent =>
    cases assigned with
    | intro proper =>
      obtain ⟨c, rest, rfl, plain⟩ := proper.head
      exact ⟨c, _, rfl, plain⟩
  | @present gap _ => exact ⟨'e'.toUInt8, bytes "xport " ++ gap ++ text, rfl, by decide, by decide⟩

theorem behind_edges (assigned : Assignment key value text) {exported : Bytes} (part : ExportPart exported) :
    PlainEdges (exported ++ text) := by
  obtain ⟨c, rest, split, plain, _⟩ := assigned.head part
  constructor
  · rw [split]
    intro d found
    cases found
    exact plain
  · rw [List.getLast?_append_of_ne_nil _ assigned.nonempty]
    exact assigned.edges.2

theorem not_exported (assigned : Assignment key value text) : ¬ exportPrefix <+: text := by
  cases assigned with
  | @intro before after quoted proper _ beforeGap _ _ =>
    intro exported
    rw [← List.append_assoc] at exported
    exact proper.not_exported beforeGap.1 (prefix_before (by decide) exported)

theorem unbroken (assigned : Assignment key value text) : lf ∉ text := by
  cases assigned with
  | @intro before after quoted proper free beforeGap afterGap wrapped =>
    have inQuoted : lf ∉ quoted := by
      cases wrapped with
      | double => simp [free, (by decide : lf ≠ doubleQuote)]
      | single => simp [free, (by decide : lf ≠ singleQuote)]
    simp [proper.unbroken, beforeGap.2, afterGap.2, inQuoted, (by decide : lf ≠ equalsSign)]

/-- The first `=` cuts an assignment into its key and its quoted value. -/
theorem cut (assigned : Assignment key value text) :
    ∃ equals, find text equalsSign 0 = some equals ∧ equals ≠ 0 ∧ trim (text.take equals) = key ∧
      stripQuotes (trim (text.drop (equals + 1))) = value := by
  cases assigned with
  | @intro before after quoted proper _ beforeGap afterGap wrapped =>
    have free : equalsSign ∉ key ++ before := by
      rw [List.mem_append]
      exact not_or.mpr ⟨proper.noEquals, blank_noEquals beforeGap.1⟩
    rw [← List.append_assoc]
    refine ⟨(key ++ before).length, find_cut_zero (after ++ quoted) free, ?_, ?_, ?_⟩
    · simp [proper.nonempty]
    · rw [List.take_left, trim_trail beforeGap.1, trim_eq_self proper.edges]
    · have rest : ((key ++ before) ++ equalsSign :: (after ++ quoted)).drop ((key ++ before).length + 1) =
          after ++ quoted := by
        rw [List.drop_length_add_append, List.drop_one, List.tail_cons]
      have trimmed : trim (after ++ (quoted ++ [])) = quoted :=
        trim_padded afterGap.1 wrapped.edges.1 .nil
      rw [rest, ← List.append_nil quoted, trimmed, wrapped.stripped]

/-- Behind the prefix, or without it, an assignment is read as its pair. -/
theorem read (assigned : Assignment key value text) {exported : Bytes} (part : ExportPart exported)
    (lineNumber : Nat) : readEnvLine lineNumber (exported ++ text) = .ok (some (key, value)) := by
  obtain ⟨equals, found, positive, atKey, atValue⟩ := assigned.cut
  have trimmed : trim (exported ++ text) = exported ++ text := trim_eq_self (assigned.behind_edges part)
  have proper : ¬ ((exported ++ text).isEmpty = true ∨ (exported ++ text).head? = some hashSign) := by
    obtain ⟨c, rest, split, _, notHash⟩ := assigned.head part
    simp [split, notHash]
  have remaining : (if exportPrefix.isPrefixOf (exported ++ text) then
      trim ((exported ++ text).drop exportPrefix.length) else exported ++ text) = text := by
    cases part with
    | absent =>
      have begins : ¬ exportPrefix.isPrefixOf text = true := by
        rw [List.isPrefixOf_iff_prefix]
        exact assigned.not_exported
      rw [List.nil_append, if_neg begins]
    | @present gap blank =>
      have begins : exportPrefix.isPrefixOf (exportPrefix ++ gap ++ text) = true := by
        rw [List.isPrefixOf_iff_prefix, List.append_assoc]
        exact List.prefix_append ..
      have padded : trim (gap ++ (text ++ [])) = text := trim_padded blank.1 assigned.edges .nil
      rw [if_pos begins, List.append_assoc, List.drop_left]
      simpa using padded
  simp only [readEnvLine, trim_popCarriageReturn, trimmed, if_neg proper, remaining, found, if_neg positive,
    atKey, atValue]

end Assignment

/-- A line is read as the pair it assigns, and whitespace at its end does not matter. -/
theorem EnvLine.read {text ending : Bytes} {entry : Option (Bytes × Bytes)} (line : EnvLine text entry)
    (blankEnding : Blank ending) (lineNumber : Nat) : readEnvLine lineNumber (text ++ ending) = .ok entry := by
  rw [readEnvLine_congr (trim_trail blankEnding)]
  cases line with
  | blank gap => simp [readEnvLine, trim_popCarriageReturn, trim_blank gap.1]
  | comment gap _ => simp [readEnvLine, trim_popCarriageReturn, trim_lead gap.1 (by decide : isSpace hashSign = false)]
  | entry leadGap part assigned trailGap =>
    have trimmed := trim_padded leadGap.1 (assigned.behind_edges part) trailGap.1
    rw [readEnvLine_congr (trimmed.trans (trim_eq_self (assigned.behind_edges part)).symm), assigned.read part]

theorem EnvLine.unbroken {text : Bytes} {entry : Option (Bytes × Bytes)} (line : EnvLine text entry) : lf ∉ text := by
  cases line with
  | blank gap => exact gap.2
  | comment gap free => simp [gap.2, free, (by decide : lf ≠ hashSign)]
  | entry leadGap part assigned trailGap =>
    have inPart : ∀ {exported : Bytes}, ExportPart exported → lf ∉ exported := by
      rintro _ (_ | gap)
      · simp
      · rw [List.mem_append]
        exact not_or.mpr ⟨by decide, gap.2⟩
    simp only [List.mem_append, not_or]
    exact ⟨leadGap.2, ⟨inPart part, assigned.unbroken⟩, trailGap.2⟩

theorem getlineItems_line {text : Bytes} (free : lf ∉ text) (rest : Bytes) :
    getlineItems lf (text ++ lf :: rest) = text :: getlineItems lf rest := by
  have nonempty : rest.splitOn lf ≠ [] := List.splitOn_ne_nil lf rest
  have last : (text :: rest.splitOn lf).getLast? = (rest.splitOn lf).getLast? := by
    rw [← List.singleton_append, List.getLast?_append_of_ne_nil _ nonempty]
  simp only [getlineItems, List.splitOn_append_cons_self_of_not_mem free, last]
  split
  · rw [List.dropLast_cons_of_ne_nil nonempty]
  · rfl

theorem getlineItems_last {text : Bytes} (free : lf ∉ text) :
    getlineItems lf text = if text = [] then [] else [text] := by
  simp [getlineItems, List.splitOn_eq_singleton free]

theorem LineEnd.split {ending : Bytes} (ends : LineEnd ending) :
    ∃ front, ending = front ++ [TwitchBot.lf] ∧ Blank front ∧ TwitchBot.lf ∉ front := by
  cases ends with
  | lf => exact ⟨[], rfl, .nil, by simp⟩
  | crlf => exact ⟨[cr], rfl, .singleton (by decide), by decide⟩

/-- Line by line, a file yields the pairs that it was written from. -/
theorem EnvFile.entries {content : Bytes} {pairs : List (Bytes × Bytes)} (file : EnvFile content pairs) :
    ∃ entries : List (Option (Bytes × Bytes)), entries.flatMap Option.toList = pairs ∧
      List.Forall₂ (fun line entry => ∀ lineNumber, readEnvLine lineNumber line = .ok entry)
        (getlineItems lf content) entries := by
  induction file with
  | done => exact ⟨[], rfl, .nil⟩
  | @last text entry line =>
    have reads : ∀ lineNumber, readEnvLine lineNumber (text ++ []) = .ok entry := line.read .nil
    rw [List.append_nil] at reads
    rw [getlineItems_last line.unbroken]
    by_cases empty : text = []
    · subst empty
      cases Except.ok.inj (reads 0)
      exact ⟨[], rfl, .nil⟩
    · rw [if_neg empty]
      exact ⟨[entry], by simp, .cons reads .nil⟩
  | @line text ending rest entry pairs line ends _ ih =>
    obtain ⟨entries, flat, each⟩ := ih
    obtain ⟨front, rfl, blank, free⟩ := ends.split
    have unbroken : lf ∉ text ++ front := by
      rw [List.mem_append]
      exact not_or.mpr ⟨line.unbroken, free⟩
    have whole : text ++ (front ++ [lf] ++ rest) = (text ++ front) ++ lf :: rest := by simp
    refine ⟨entry :: entries, by rw [List.flatMap_cons, flat], ?_⟩
    rw [whole, getlineItems_line unbroken]
    exact .cons (line.read blank) each

/-- The loop assigns the pairs of the lines that it reads. -/
theorem readEnvLines_exact {lines : List Bytes} {entries : List (Option (Bytes × Bytes))}
    (each : List.Forall₂ (fun line entry => ∀ lineNumber, readEnvLine lineNumber line = .ok entry) lines entries)
    (lineNumber : Nat) (environment : Environment) :
    readEnvLines lines lineNumber environment = .ok (assignAll (entries.flatMap Option.toList) environment) := by
  induction each generalizing lineNumber environment with
  | nil => rfl
  | @cons line entry lines entries reads _ ih =>
    rw [readEnvLines, reads, ok_bind]
    cases entry with
    | none => exact ih ..
    | some pair =>
      rw [List.flatMap_cons, Option.toList_some, List.singleton_append, assignAll_cons]
      exact ih ..

/-- Every list of pairs with such keys and values can be written. -/
theorem EnvFile.writable {pairs : List (Bytes × Bytes)} (each : ∀ pair ∈ pairs, EnvKey pair.1 ∧ lf ∉ pair.2) :
    ∃ content, EnvFile content pairs := by
  induction pairs with
  | nil => exact ⟨[], .done⟩
  | cons pair pairs ih =>
    obtain ⟨rest, file⟩ := ih (fun other member => each other (List.mem_cons_of_mem _ member))
    obtain ⟨proper, unbroken⟩ := each pair (List.mem_cons_self ..)
    have noGap : Gap [] := ⟨.nil, by simp⟩
    exact ⟨_, .line (.entry noGap .absent (.intro proper unbroken noGap noGap .double) noGap) .lf file⟩

/-- A file written from pairs loads, and every key has the value of its last pair. -/
theorem loadEnvFile_exact {content : Bytes} {pairs : List (Bytes × Bytes)} (file : EnvFile content pairs) :
    ∃ environment, loadEnvFile (some content) = .ok environment ∧
      ∀ key, environment.lookup key = lastValue pairs key := by
  obtain ⟨entries, rfl, each⟩ := file.entries
  exact ⟨assignAll (entries.flatMap Option.toList) ∅, readEnvLines_exact each 0 ∅, assignAll_empty_lookup _⟩

/-- A file with a comment, the prefix, padding, both kinds of quotes and both kinds of line ends. -/
theorem loadEnvFile_exact_quoted :
    ∃ environment, loadEnvFile (some (bytes "# token\r\n\texport  A = \"a=#b \" \r\n\nA='\"'")) = .ok environment ∧
      ∀ key, environment.lookup key = lastValue [(bytes "A", bytes "a=#b "), (bytes "A", bytes "\"")] key := by
  have edges : PlainEdges [65] := .singleton (by decide)
  have proper : EnvKey (bytes "A") :=
    ⟨by decide, by decide, by decide, edges, by decide, by decide, by decide⟩
  have padding : Gap [space] := ⟨.singleton (by decide), by decide⟩
  have noPadding : Gap [] := ⟨.nil, by decide⟩
  have tab : Gap [9] := ⟨.singleton (by decide), by decide⟩
  have noBreak : lf ∉ bytes " token" := by decide
  have double : Assignment (bytes "A") (bytes "a=#b ") _ := .intro proper (by decide) padding padding .double
  have single : Assignment (bytes "A") (bytes "\"") _ := .intro proper (by decide) noPadding noPadding .single
  have comment : EnvLine (bytes "# token") none := .comment noPadding noBreak
  have exported := EnvLine.entry tab (.present padding) double padding
  have bare := EnvLine.entry noPadding .absent single noPadding
  have file := EnvFile.line comment .crlf (.line exported .crlf (.line (.blank noPadding) .lf (.last bare)))
  exact loadEnvFile_exact file

end TwitchBot
