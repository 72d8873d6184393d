import TwitchBot.GrammarExact

namespace TwitchBot

open ExceptRun StringView MessageSyntax

/-- What a command starts with is none of the characters the cursor tests for. -/
theorem command_head {command : Bytes} (nonempty : command ≠ []) (alnum : ∀ c ∈ command, isAlnum c = true)
    (rest : Bytes) : ∃ c, (command ++ rest).head? = some c ∧ c ≠ space ∧ c ≠ colon ∧ c ≠ atSign := by
  obtain ⟨c, tail, rfl⟩ := List.exists_cons_of_ne_nil nonempty
  have first := alnum c (by simp)
  exact ⟨c, rfl, isAlnum_ne first (by decide), isAlnum_ne first (by decide), isAlnum_ne first (by decide)⟩

theorem tail_head {p : Option Bytes} {gap : Nat} {command : Bytes} (rest : Bytes)
    (nonempty : command ≠ []) (alnum : ∀ c ∈ command, isAlnum c = true) (normal : p = none → gap = 0) :
    ∃ c, (prefixPart p ++ (List.replicate gap space ++ (command ++ rest))).head? = some c ∧
      c ≠ space ∧ c ≠ atSign ∧ (p = none → c ≠ colon) := by
  cases p with
  | none =>
    obtain ⟨c, head, notSpace, notColon, notAt⟩ := command_head nonempty alnum rest
    rw [normal rfl]
    exact ⟨c, head, notSpace, notAt, fun _ => notColon⟩
  | some p => exact ⟨colon, rfl, by decide, by decide, by simp⟩

/-- The walk up to the parameters. Without a prefix the two runs of spaces are
one, which the parser reads as the first. -/
theorem parseSections_front {tags : List Tag} {lead gap : Nat} {p paramsText : Option Bytes} {command : Bytes}
    {line : Bytes} (shape : line = tagsPart tags ++ (List.replicate lead space ++ (prefixPart p ++
      (List.replicate gap space ++ (command ++ paramsPart paramsText)))))
    (form : ∀ q ∈ p, q ≠ [] ∧ space ∉ q) (nonempty : command ≠ [])
    (alnum : ∀ c ∈ command, isAlnum c = true) (normal : p = none → gap = 0) :
    parseSections line = match paramsText with
      | none => .ok ⟨tagMap tags, p.getD [], command.map toUpper, []⟩
      | some _ => (parameterLoop line (line.length + 1) (tagsPart tags ++ (List.replicate lead space ++
          (prefixPart p ++ (List.replicate gap space ++ (command ++ [space]))))).length []) >>=
          fun parameters => .ok ⟨tagMap tags, p.getD [], command.map toUpper, parameters⟩ := by
  obtain ⟨c, head, notSpace, notAt, notColon⟩ :=
    tail_head (paramsPart paramsText) nonempty alnum normal
  obtain ⟨d, commandHead, dSpace, _, _⟩ := command_head nonempty alnum (paramsPart paramsText)
  have free := space_free_of_alnum alnum
  have restNonempty : List.replicate lead space ++ (prefixPart p ++
      (List.replicate gap space ++ (command ++ paramsPart paramsText))) ≠ [] := by simp [nonempty]
  have restHead : (List.replicate lead space ++ (prefixPart p ++
      (List.replicate gap space ++ (command ++ paramsPart paramsText)))).head? ≠ some atSign := by
    cases lead with
    | zero =>
      rw [List.replicate_zero, List.nil_append, head]
      simpa using notAt
    | succ lead => simp [List.replicate_succ, space, atSign]
  have prefixHead : p = none →
      (List.replicate gap space ++ (command ++ paramsPart paramsText)).head? ≠ some colon := by
    rintro rfl
    rw [show List.replicate gap space ++ (command ++ paramsPart paramsText) =
      prefixPart none ++ (List.replicate gap space ++ (command ++ paramsPart paramsText)) from rfl, head]
    simpa using notColon rfl
  have readTags := parseTags_tagsPart tags restNonempty (fun _ => restHead)
  have skipLead := skipSpaces_line (tagsPart tags) _ lead (by rw [head]; simpa using notSpace)
  have readPrefix := parsePrefix_prefixPart (tagsPart tags ++ List.replicate lead space) p _ form prefixHead
  have skipGap := skipSpaces_line (tagsPart tags ++ List.replicate lead space ++ prefixPart p) _ gap
    (by rw [commandHead]; simpa using dSpace)
  have readCommand := parseCommand_view
    (tagsPart tags ++ List.replicate lead space ++ prefixPart p ++ List.replicate gap space) free paramsText
  rw [if_neg (by simpa using nonempty), if_pos ((all_toUpper command).mpr alnum)] at readCommand
  simp only [List.append_assoc] at readPrefix skipGap readCommand
  rw [← shape] at readTags skipLead readPrefix skipGap readCommand
  unfold parseSections
  simp only [readTags, ok_bind, skipLead, readPrefix, skipGap, readCommand]
  cases paramsText with
  | none => rfl
  | some text =>
    have position : (tagsPart tags ++ (List.replicate lead space ++ (prefixPart p ++
        List.replicate gap space))).length + command.length + 1 =
        (tagsPart tags ++ (List.replicate lead space ++ (prefixPart p ++
          (List.replicate gap space ++ (command ++ [space]))))).length := by
      simp only [List.length_append, List.length_singleton]
      omega
    simp only [Option.map_some, position, pure_eq_ok]

/-- The parameter loop as the walk calls it, behind the command of its line. -/
theorem parameterLoop_line (front : Bytes) {text : Bytes} {middles trailing : List Bytes}
    (params : Params text middles trailing) :
    parameterLoop (front ++ space :: text) ((front ++ space :: text).length + 1) (front ++ [space]).length [] =
      if middles.length ≤ 32 then .ok (middles ++ trailing)
      else reject "IRC message has too many parameters" := by
  have fuel : text.length < (front ++ space :: text).length + 1 := by
    simp only [List.length_append, List.length_cons]
    omega
  have shape : front ++ space :: text = front ++ [space] ++ text := by simp
  split
  · rename_i bound
    have loop := parameterLoop_params params (front ++ [space]) _ [] fuel (by simpa using bound)
    rw [← shape] at loop
    exact loop
  · rename_i beyond
    have loop := parameterLoop_overflow params (front ++ [space]) _ [] fuel (by simp) (by simpa using beyond)
    rw [← shape] at loop
    exact loop

/-- The whole walk on a line of the grammar, were it not for the bound on its
middle parameters. -/
theorem parseSections_parts {tags : List Tag} {lead gap : Nat} {p paramsText : Option Bytes} {command : Bytes}
    {middles trailing : List Bytes} {line : Bytes}
    (shape : line = tagsPart tags ++ (List.replicate lead space ++ (prefixPart p ++
      (List.replicate gap space ++ (command ++ paramsPart paramsText)))))
    (form : ∀ q ∈ p, q ≠ [] ∧ space ∉ q) (nonempty : command ≠ [])
    (alnum : ∀ c ∈ command, isAlnum c = true) (normal : p = none → gap = 0)
    (params : ParamsForm middles trailing paramsText) :
    parseSections line =
      if middles.length ≤ 32 then
        .ok ⟨tagMap tags, p.getD [], command.map toUpper, middles ++ trailing⟩
      else reject "IRC message has too many parameters" := by
  rw [parseSections_front shape form nonempty alnum normal]
  cases paramsText with
  | none => simp [params.1, params.2]
  | some text =>
    have loop := parameterLoop_line (tagsPart tags ++ (List.replicate lead space ++ (prefixPart p ++
      (List.replicate gap space ++ command)))) params
    simp only [List.append_assoc] at loop
    rw [show space :: text = paramsPart (some text) from rfl, ← shape] at loop
    simp only [loop]
    split
    · rfl
    · rfl

/-- Without a prefix the two runs of spaces of a line are one run. -/
theorem text_normal (m : MessageSyntax) : ∃ lead gap, (m.sourcePrefix = none → gap = 0) ∧
    m.text = tagsPart m.tags ++ (List.replicate lead space ++ (prefixPart m.sourcePrefix ++
      (List.replicate gap space ++ (m.command ++ paramsPart m.paramsText)))) := by
  cases atPrefix : m.sourcePrefix with
  | none =>
    refine ⟨m.lead + m.gap, 0, fun _ => rfl, ?_⟩
    simp only [MessageSyntax.text, atPrefix, prefixPart, List.nil_append, List.replicate_zero]
    rw [List.replicate_add, List.append_assoc]
  | some p => exact ⟨m.lead, m.gap, by simp, by simp [MessageSyntax.text, atPrefix]⟩

theorem parseBody_within {line : Bytes} (nonempty : line ≠ []) (short : line.length ≤ maxIrcLineBytes)
    (unbroken : containsLineBreak line = false) : parseBody line = parseSections line := by
  unfold parseBody
  rw [if_neg (by simpa using nonempty), if_neg (by simp [unbroken, Nat.not_lt.mpr short])]

/-- Completeness: every line of the grammar is read as the message it denotes. -/
theorem parseSections_text (m : MessageSyntax) : parseSections m.text = .ok m.message := by
  obtain ⟨lead, gap, normal, shape⟩ := text_normal m
  rw [parseSections_parts shape m.prefix_form m.command_nonempty m.command_alnum normal m.params_form,
    if_pos m.middles_bound]
  rfl

/-- Soundness, and that the cursor never leaves the line: every line is read
as a line of the grammar or rejected with a text of the parser's own. -/
theorem parseSections_cases {line : Bytes} (nonempty : line ≠ []) :
    (∃ m : MessageSyntax, line = m.text) ∨ ∃ text, parseSections line = reject text := by
  rcases parseTags_cases nonempty with ⟨tags, afterTags, rfl, readTags⟩ | ⟨text, failed⟩
  swap
  · exact Or.inr ⟨text, by simp only [parseSections, failed, reject, error_bind]⟩
  obtain ⟨lead, afterLead, rfl, leadHead⟩ := spaces_decomposition afterTags
  have skipLead := skipSpaces_line (tagsPart tags) _ lead leadHead
  rcases parsePrefix_cases (tagsPart tags ++ List.replicate lead space) afterLead with
    ⟨p, afterPrefix, rfl, form, readPrefix⟩ | ⟨text, failed⟩
  swap
  · simp only [List.append_assoc] at failed
    exact Or.inr ⟨text, by simp only [parseSections, readTags, skipLead, failed, reject, ok_bind, error_bind]⟩
  obtain ⟨gap, afterGap, rfl, gapHead⟩ := spaces_decomposition afterPrefix
  have skipGap := skipSpaces_line (tagsPart tags ++ List.replicate lead space ++ prefixPart p) _
    gap gapHead
  rcases parseCommand_cases (tagsPart tags ++ List.replicate lead space ++ prefixPart p ++
    List.replicate gap space) afterGap with
    ⟨command, paramsText, rfl, someCommand, alnum, readCommand⟩ | ⟨text, failed⟩
  swap
  · simp only [List.append_assoc] at failed readPrefix skipGap
    exact Or.inr ⟨text, by simp only [parseSections, readTags, skipLead, readPrefix, skipGap, failed,
      reject, ok_bind, error_bind]⟩
  cases paramsText with
  | none =>
    exact Or.inl ⟨⟨tags, lead, p, gap, command, none, [], [], form, someCommand, alnum,
      ⟨rfl, rfl⟩, by simp⟩, rfl⟩
  | some text =>
    have loop := parameterLoop_cases ((tagsPart tags ++ (List.replicate lead space ++ (prefixPart p ++
      (List.replicate gap space ++ (command ++ paramsPart (some text)))))).length + 1)
      (tagsPart tags ++ List.replicate lead space ++ prefixPart p ++ List.replicate gap space ++
        command ++ [space]) text [] (by simp [paramsPart]; omega) (by simp)
    rcases loop with ⟨middles, trailing, params, bound, _⟩ | ⟨text', failed⟩
    · exact Or.inl ⟨⟨tags, lead, p, gap, command, some text, middles, trailing, form, someCommand, alnum,
        params, by simpa using bound⟩, rfl⟩
    · right
      have position : (tagsPart tags ++ (List.replicate lead space ++ (prefixPart p ++
          List.replicate gap space))).length + command.length + 1 =
          (tagsPart tags ++ (List.replicate lead space ++ (prefixPart p ++
            (List.replicate gap space ++ (command ++ [space]))))).length := by
        simp only [List.length_append, List.length_singleton]
        omega
      simp only [List.append_assoc, List.singleton_append] at failed readPrefix skipGap readCommand
      rw [show space :: text = paramsPart (some text) from rfl] at failed
      exact ⟨text', by simp only [parseSections, readTags, skipLead, readPrefix, skipGap, readCommand,
        Option.map_some, position, failed, reject, ok_bind, error_bind]⟩

/-- Every line is a line of the grammar within the limits, read as what it
denotes, or is rejected; in no case does the cursor leave the line. -/
theorem parseBody_cases (line : Bytes) :
    (∃ m : MessageSyntax, line = m.text ∧ line ≠ [] ∧ line.length ≤ maxIrcLineBytes ∧
        containsLineBreak line = false ∧ parseBody line = .ok m.message) ∨
      ∃ text, parseBody line = reject text := by
  by_cases empty : line = []
  · exact Or.inr ⟨"IRC line is empty", by simp [parseBody, empty]⟩
  by_cases broken : line.length > maxIrcLineBytes ∨ containsLineBreak line = true
  · refine Or.inr ⟨"IRC line is oversized or contains a line break", ?_⟩
    unfold parseBody
    rw [if_neg (by simpa using empty), if_pos (by simpa using broken)]
  simp only [not_or, gt_iff_lt, Nat.not_lt, Bool.not_eq_true] at broken
  obtain ⟨short, unbroken⟩ := broken
  rw [parseBody_within empty short unbroken]
  rcases parseSections_cases empty with ⟨m, rfl⟩ | failed
  · exact Or.inl ⟨m, rfl, empty, short, unbroken, parseSections_text m⟩
  · exact Or.inr failed

theorem parseIrcMessage_ok_iff {line : Bytes} {message : IrcMessage} :
    parseIrcMessage line = .ok message ↔ parseBody line = .ok message := by
  unfold parseIrcMessage
  constructor
  · intro parsed
    split at parsed
    · rename_i same
      rw [same, Except.ok.inj parsed]
    all_goals cases parsed
  · intro parsed
    rw [parsed]

/-- What a line within the limits denotes, read off its concrete syntax: in
the tag map the last occurrence of a key decides, with its value decoded. -/
def Denotes (line : Bytes) (message : IrcMessage) : Prop :=
  ∃ m : MessageSyntax, line = m.text ∧
    message.sourcePrefix = m.sourcePrefix.getD [] ∧
    message.command = m.command.map toUpper ∧
    message.parameters = m.middles ++ m.trailing ∧
    ∀ key, message.tags.lookup key =
      ((m.tags.filter (fun tag => decide (tag.key = key))).getLast?).map
        (fun tag => unescapeIrcTag tag.rawValue)

theorem denotes_iff {line : Bytes} {message : IrcMessage} :
    Denotes line message ↔ ∃ m : MessageSyntax, line = m.text ∧ message = m.message := by
  constructor
  · rintro ⟨m, text, sourcePrefix, command, parameters, tags⟩
    refine ⟨m, text, ?_⟩
    have sameTags : message.tags = tagMap m.tags :=
      Finmap.ext_lookup (fun key => (tags key).trans (tagMap_lookup m.tags key).symm)
    cases message
    simp only at sourcePrefix command parameters sameTags
    simp only [MessageSyntax.message, sourcePrefix, command, parameters, sameTags]
  · rintro ⟨m, text, rfl⟩
    exact ⟨m, text, rfl, rfl, rfl, tagMap_lookup m.tags⟩

/-- A line of the grammar within the limits is read as what it denotes. -/
theorem parseIrcMessage_text (m : MessageSyntax) (short : m.text.length ≤ maxIrcLineBytes)
    (noCr : cr ∉ m.text) (noLf : lf ∉ m.text) : parseIrcMessage m.text = .ok m.message := by
  have nonempty : m.text ≠ [] := by simp [MessageSyntax.text, m.command_nonempty]
  rw [parseIrcMessage_ok_iff, parseBody_within nonempty short (containsLineBreak_eq_false.mpr ⟨noCr, noLf⟩)]
  exact parseSections_text m

theorem parseIrcMessage_sound {line : Bytes} {message : IrcMessage}
    (parsed : parseIrcMessage line = .ok message) :
    line ≠ [] ∧ line.length ≤ maxIrcLineBytes ∧ cr ∉ line ∧ lf ∉ line ∧
      ∃ m : MessageSyntax, line = m.text ∧ message = m.message := by
  rw [parseIrcMessage_ok_iff] at parsed
  rcases parseBody_cases line with ⟨m, text, nonempty, short, unbroken, result⟩ | ⟨text, rejected⟩
  · obtain ⟨noCr, noLf⟩ := containsLineBreak_eq_false.mp unbroken
    rw [result] at parsed
    exact ⟨nonempty, short, noCr, noLf, m, text, (Except.ok.inj parsed).symm⟩
  · rw [rejected] at parsed
    cases parsed

/-- The parser accepts exactly its grammar within the two limits, and returns
exactly the message denoted. -/
theorem parseIrcMessage_exact (line : Bytes) (message : IrcMessage) :
    parseIrcMessage line = .ok message ↔
      1 ≤ line.length ∧ line.length ≤ maxIrcLineBytes ∧ cr ∉ line ∧ lf ∉ line ∧ Denotes line message := by
  rw [denotes_iff]
  constructor
  · intro parsed
    obtain ⟨nonempty, rest⟩ := parseIrcMessage_sound parsed
    exact ⟨List.length_pos_iff.mpr nonempty, rest⟩
  · rintro ⟨_, short, noCr, noLf, m, rfl, rfl⟩
    exact parseIrcMessage_text m short noCr noLf

end TwitchBot
