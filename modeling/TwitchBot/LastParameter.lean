import TwitchBot.ParserExact

namespace TwitchBot

open MessageSyntax

/-- A line behind which one more parameter can be written: it is accepted, ends
with a space and has `count` parameters, all of them middle ones. -/
structure OpenLine (line : Bytes) (count : Nat) : Prop where
  accepted : ∃ message, parseIrcMessage line = .ok message
  ends : line.getLast? = some space
  middles : ∃ m : MessageSyntax, line = m.text ∧ m.trailing = [] ∧ m.middles.length = count

/-- With the last parameter `word`, the line is read alike with and without the
colon before it, or rejected both times. -/
def ColonIrrelevant (line word : Bytes) : Prop :=
  (∃ message, parseIrcMessage line = .ok message ∧
    parseIrcMessage (line ++ word) = .ok { message with parameters := message.parameters ++ [word] } ∧
    parseIrcMessage (line ++ colon :: word) = .ok { message with parameters := message.parameters ++ [word] }) ∨
  (∃ text, parseIrcMessage (line ++ word) = .error text) ∧
    ∃ text, parseIrcMessage (line ++ colon :: word) = .error text

theorem getLast?_append_free {c : UInt8} {before word : Bytes} (nonempty : word ≠ []) (free : c ∉ word) :
    (before ++ word).getLast? ≠ some c := by
  intro last
  rw [List.getLast?_append_of_ne_nil before nonempty] at last
  exact free (List.mem_of_getLast? last)

/-- Parameters that end with a space can be followed by another one, in both spellings. -/
theorem Params.append {text word : Bytes} {middles trailing : List Bytes} (params : Params text middles trailing)
    (open_ : trailing = []) (ends : (space :: text).getLast? = some space) (form : Middle word) :
    Params (text ++ word) (middles ++ [word]) [] ∧ Params (text ++ colon :: word) middles [word] := by
  induction params with
  | blank n => exact ⟨.last n form, .trailing n word⟩
  | trailing n text => cases open_
  | @last n last lastForm =>
    have shape : space :: (List.replicate n space ++ last) = (space :: List.replicate n space) ++ last := rfl
    rw [shape] at ends
    exact absurd ends (getLast?_append_free lastForm.1 lastForm.2.1)
  | @middle n first rest middles trailing firstForm params ih =>
    have shape : space :: (List.replicate n space ++ (first ++ space :: rest)) =
        (space :: List.replicate n space ++ first) ++ space :: rest := by simp
    rw [shape, List.getLast?_append_of_ne_nil _ (by simp)] at ends
    obtain ⟨plain, colon⟩ := ih open_ ends
    simp only [List.append_assoc, List.cons_append] at *
    exact ⟨.middle n firstForm plain, .middle n firstForm colon⟩

/-- A line that ends with a space has a text behind its command. -/
theorem paramsText_of_space {m : MessageSyntax} (ends : m.text.getLast? = some space) :
    ∃ text, m.paramsText = some text ∧ (space :: text).getLast? = some space := by
  have free := space_free_of_alnum m.command_alnum
  simp only [MessageSyntax.text, ← List.append_assoc] at ends
  cases atParams : m.paramsText with
  | none =>
    rw [atParams, paramsPart, List.append_nil] at ends
    exact absurd ends (getLast?_append_free m.command_nonempty free)
  | some text =>
    rw [atParams, paramsPart, List.getLast?_append_of_ne_nil _ (by simp)] at ends
    exact ⟨text, rfl, ends⟩

/-- The front of a line with another text behind its command is accepted as long
as its middle parameters are within the limit. -/
theorem parse_extended {m : MessageSyntax} {text more : Bytes} {middles trailing : List Bytes}
    (atParams : m.paramsText = some text) (params : Params (text ++ more) middles trailing)
    (short : (m.text ++ more).length ≤ maxIrcLineBytes) (noCr : cr ∉ m.text ++ more) (noLf : lf ∉ m.text ++ more) :
    parseIrcMessage (m.text ++ more) =
      if middles.length ≤ 32 then .ok { m.message with parameters := middles ++ trailing }
      else .error "IRC message has too many parameters" := by
  obtain ⟨lead, gap, normal, shape⟩ := text_normal m
  have nonempty : m.text ++ more ≠ [] := by simp [MessageSyntax.text, m.command_nonempty]
  have longer : m.text ++ more = tagsPart m.tags ++ (List.replicate lead space ++ (prefixPart m.sourcePrefix ++
      (List.replicate gap space ++ (m.command ++ paramsPart (some (text ++ more)))))) := by
    rw [shape, atParams]
    simp only [paramsPart, List.append_assoc, List.cons_append]
  have read := parseSections_parts longer m.prefix_form m.command_nonempty m.command_alnum normal params
  rw [← parseBody_within nonempty short (containsLineBreak_eq_false.mpr ⟨noCr, noLf⟩)] at read
  unfold parseIrcMessage
  rw [read]
  by_cases within : middles.length ≤ 32
  · rw [if_pos within, if_pos within]
    rfl
  · rw [if_neg within, if_neg within]
    rfl

/-- The two spellings of a last parameter: without the colon it counts against
the limit, with the colon it does not. -/
theorem OpenLine.parse {line word : Bytes} {count : Nat} (openLine : OpenLine line count) (form : Middle word)
    (noCr : cr ∉ word) (noLf : lf ∉ word) (short : line.length + 1 + word.length ≤ maxIrcLineBytes) :
    ∃ message, parseIrcMessage line = .ok message ∧
      parseIrcMessage (line ++ word) =
        (if count + 1 ≤ 32 then .ok { message with parameters := message.parameters ++ [word] }
          else .error "IRC message has too many parameters") ∧
      parseIrcMessage (line ++ colon :: word) = .ok { message with parameters := message.parameters ++ [word] } := by
  obtain ⟨m, rfl, noTrailing, rfl⟩ := openLine.middles
  obtain ⟨message, accepted⟩ := openLine.accepted
  obtain ⟨_, shortLine, lineCr, lineLf, _⟩ := parseIrcMessage_sound accepted
  obtain ⟨text, atParams, ends⟩ := paramsText_of_space openLine.ends
  have params : Params text m.middles m.trailing := by
    have form := m.params_form
    rw [atParams] at form
    exact form
  obtain ⟨plain, colon⟩ := params.append noTrailing ends form
  have plainRead := parse_extended atParams plain
    (by rw [List.length_append]; omega)
    (by simp only [List.mem_append, not_or]; exact ⟨lineCr, noCr⟩)
    (by simp only [List.mem_append, not_or]; exact ⟨lineLf, noLf⟩)
  have colonRead := parse_extended atParams colon
    (by rw [List.length_append, List.length_cons]; omega)
    (by simp only [List.mem_append, List.mem_cons, not_or]; exact ⟨lineCr, by decide, noCr⟩)
    (by simp only [List.mem_append, List.mem_cons, not_or]; exact ⟨lineLf, by decide, noLf⟩)
  have parameters : m.message.parameters = m.middles := by
    simp [MessageSyntax.message, noTrailing]
  refine ⟨m.message, parseIrcMessage_text m shortLine lineCr lineLf, ?_, ?_⟩
  · rw [plainRead, parameters, List.length_append, List.length_singleton, List.append_nil]
  · rw [colonRead, parameters, if_pos m.middles_bound]

theorem OpenLine.colon_decides {line word : Bytes} {count : Nat} (openLine : OpenLine line count)
    (form : Middle word) (noCr : cr ∉ word) (noLf : lf ∉ word)
    (short : line.length + 1 + word.length ≤ maxIrcLineBytes) (full : 32 ≤ count) :
    ¬ ColonIrrelevant line word := by
  intro irrelevant
  obtain ⟨_, _, plain, colon⟩ := openLine.parse form noCr noLf short
  rw [if_neg (by omega)] at plain
  rcases irrelevant with ⟨_, _, accepted, _⟩ | ⟨_, _, rejected⟩
  · rw [plain] at accepted
    cases accepted
  · rw [colon] at rejected
    cases rejected

/-- Words behind each of which one space stands. -/
theorem params_words (words : List Bytes) (middles : ∀ word ∈ words, Middle word) :
    Params (words.flatMap (fun word => word ++ [space])) words [] := by
  induction words with
  | nil => exact .blank 0
  | cons word words ih =>
    have rest := ih (fun other member => middles other (List.mem_cons_of_mem _ member))
    simpa using Params.middle 0 (middles word (List.mem_cons_self ..)) rest

/-- A `PING` with `count` parameters and a space behind each. -/
def crowdedLine (count : Nat) : Bytes :=
  bytes "PING" ++ space :: (List.replicate count (bytes "a")).flatMap (fun word => word ++ [space])

theorem crowdedLine_length (count : Nat) : (crowdedLine count).length = 5 + 2 * count := by
  have four : (bytes "PING").length = 4 ∧ (bytes "a").length = 1 := by decide
  simp [crowdedLine, four]
  omega

theorem crowdedLine_free {c : UInt8} (other : c ∉ bytes "PING a") (count : Nat) : c ∉ crowdedLine count := by
  have letters : c ∉ bytes "PING" ∧ c ≠ space ∧ c ∉ bytes "a" := by
    refine ⟨fun member => other ?_, ?_, fun member => other ?_⟩
    · exact List.mem_append_left (bytes " a") member
    · rintro rfl
      exact other (by decide)
    · exact List.mem_append_right (bytes "PING ") member
  simp [crowdedLine, letters]

theorem crowdedLine_last (count : Nat) : (crowdedLine count).getLast? = some space := by
  cases count with
  | zero => decide
  | succ count =>
    have shape : crowdedLine (count + 1) = bytes "PING" ++ space ::
        (List.replicate count (bytes "a")).flatMap (fun word => word ++ [space]) ++ bytes "a" ++ [space] := by
      simp [crowdedLine, List.replicate_succ']
    rw [shape, List.getLast?_concat]

theorem crowdedLine_open {count : Nat} (few : count ≤ 32) : OpenLine (crowdedLine count) count := by
  have word : Middle (bytes "a") := by
    unfold Middle
    decide
  have params := params_words (List.replicate count (bytes "a"))
    (fun _ member => List.eq_of_mem_replicate member ▸ word)
  have alnum : (bytes "PING").all isAlnum = true := by decide
  let m : MessageSyntax := ⟨[], 0, none, 0, bytes "PING", some _, _, [], by simp, by decide,
    List.all_eq_true.mp alnum, params, by simpa using few⟩
  have same : crowdedLine count = m.text := rfl
  have short : m.text.length ≤ maxIrcLineBytes := by
    rw [← same, crowdedLine_length, maxIrcLineBytes]
    omega
  have accepted := parseIrcMessage_text m short (same ▸ crowdedLine_free (by decide) count)
    (same ▸ crowdedLine_free (by decide) count)
  exact ⟨⟨m.message, same ▸ accepted⟩, crowdedLine_last count, m, same, rfl, List.length_replicate ..⟩

/-- The colon before a last parameter that does not need it is irrelevant
exactly behind fewer than 32 parameters. -/
theorem colonIrrelevant_iff {line word : Bytes} {count : Nat} (openLine : OpenLine line count)
    (form : Middle word) (noCr : cr ∉ word) (noLf : lf ∉ word)
    (short : line.length + 1 + word.length ≤ maxIrcLineBytes) :
    ColonIrrelevant line word ↔ count < 32 := by
  constructor
  · intro irrelevant
    by_contra full
    exact openLine.colon_decides form noCr noLf short (by omega) irrelevant
  · intro few
    obtain ⟨message, accepted, plain, colon⟩ := openLine.parse form noCr noLf short
    rw [if_pos (by omega)] at plain
    exact Or.inl ⟨message, accepted, plain, colon⟩

theorem middle_letter : Middle (bytes "b") := by
  unfold Middle
  decide

theorem colonIrrelevant_crowded :
    (ColonIrrelevant (crowdedLine 31) (bytes "b") ↔ 31 < 32) ∧
      (ColonIrrelevant (crowdedLine 32) (bytes "b") ↔ 32 < 32) :=
  ⟨colonIrrelevant_iff (crowdedLine_open (by decide)) middle_letter (by decide) (by decide) (by decide),
    colonIrrelevant_iff (crowdedLine_open (by decide)) middle_letter (by decide) (by decide) (by decide)⟩

/-- Behind 32 parameters a last one is accepted with the colon and rejected without. -/
theorem colon_relevant : ¬ ∀ (line word : Bytes) (count : Nat), OpenLine line count → Middle word → cr ∉ word →
    lf ∉ word → line.length + 1 + word.length ≤ maxIrcLineBytes → ColonIrrelevant line word := by
  intro irrelevant
  have full := crowdedLine_open (le_refl 32)
  exact full.colon_decides middle_letter (by decide) (by decide) (by decide) (le_refl 32)
    (irrelevant _ _ 32 full middle_letter (by decide) (by decide) (by decide))

end TwitchBot
