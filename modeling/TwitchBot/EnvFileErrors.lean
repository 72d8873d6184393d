import TwitchBot.EnvFileExact

namespace TwitchBot

open StringView ExceptRun

theorem rdropWhile_split (text : Bytes) : ∃ trail, Blank trail ∧ text = text.rdropWhile isSpace ++ trail := by
  refine ⟨(text.reverse.takeWhile isSpace).reverse, fun c member => ?_, ?_⟩
  · exact List.mem_takeWhile_imp (List.mem_reverse.mp member)
  · rw [List.rdropWhile, ← List.reverse_append, List.takeWhile_append_dropWhile, List.reverse_reverse]

/-- A text is what is left of it after trimming, between two gaps. -/
theorem trim_split (text : Bytes) : ∃ lead trail, Blank lead ∧ Blank trail ∧ text = lead ++ (trim text ++ trail) := by
  obtain ⟨trail, blank, rest⟩ := rdropWhile_split (text.dropWhile isSpace)
  refine ⟨text.takeWhile isSpace, trail, fun c => List.mem_takeWhile_imp, blank, ?_⟩
  rw [trim, ← rest, List.takeWhile_append_dropWhile]

/-- The first `=` of a line splits it in one way. -/
theorem equals_split {before before' after after' : Bytes}
    (same : before ++ equalsSign :: after = before' ++ equalsSign :: after')
    (free : equalsSign ∉ before) (free' : equalsSign ∉ before') : before = before' := by
  have length : some before.length = some before'.length := by
    rw [← find_cut_zero after free, same, find_cut_zero after' free']
  exact (List.append_inj same (Option.some.inj length)).1

/-- What a line assigns, without the prefix. -/
def entryText (line : Bytes) : Bytes :=
  if exportPrefix.isPrefixOf (trim line) then trim ((trim line).drop exportPrefix.length) else trim line

/-- A start of a line without a key: whitespace, with or without the prefix in it. -/
inductive NoKey : Bytes → Prop
  | blank {start : Bytes} : Blank start → NoKey start
  | exported {lead gap : Bytes} : Blank lead → Blank gap → NoKey (lead ++ (exportPrefix ++ gap))

/-- A line that is no comment, and in which no key comes before the first `=`. -/
structure Keyless (line : Bytes) : Prop where
  nonempty : trim line ≠ []
  notComment : (trim line).head? ≠ some hashSign
  noKey : ∀ before after, line = before ++ equalsSign :: after → equalsSign ∉ before → NoKey before

/-- The start of a line up to what it assigns, and the rest. -/
theorem entryText_split (line : Bytes) :
    ∃ start trail, NoKey start ∧ Blank trail ∧ line = start ++ (entryText line ++ trail) := by
  obtain ⟨lead, trail, blankLead, blankTrail, whole⟩ := trim_split line
  unfold entryText
  split
  · rename_i exported
    obtain ⟨rest, exported⟩ := List.isPrefixOf_iff_prefix.mp exported
    rw [← exported, List.drop_left]
    obtain ⟨gap, trail', blankGap, blankTrail', inner⟩ := trim_split rest
    refine ⟨lead ++ (exportPrefix ++ gap), trail' ++ trail, .exported blankLead blankGap, ?_, ?_⟩
    · exact fun c member => (List.mem_append.mp member).elim (blankTrail' c) (blankTrail c)
    · calc line = lead ++ (exportPrefix ++ rest ++ trail) := by rw [exported]; exact whole
        _ = lead ++ (exportPrefix ++ (gap ++ (trim rest ++ trail')) ++ trail) := by rw [← inner]
        _ = _ := by simp only [List.append_assoc]
  · exact ⟨lead, trail, .blank blankLead, blankTrail, whole⟩

theorem NoKey.noEquals {start : Bytes} (noKey : NoKey start) : equalsSign ∉ start := by
  cases noKey with
  | blank blank => exact blank_noEquals blank
  | exported blankLead blankGap =>
    simp only [List.mem_append, not_or]
    exact ⟨blank_noEquals blankLead, by decide, blank_noEquals blankGap⟩

/-- Text from some `=` on, without the whitespace at its end. -/
theorem equals_core (after : Bytes) : ∃ core trail, Blank trail ∧ PlainEdges (equalsSign :: core) ∧
    equalsSign :: after = (equalsSign :: core) ++ trail := by
  obtain ⟨trail, blank, whole⟩ := rdropWhile_split after
  refine ⟨after.rdropWhile isSpace, trail, blank, ⟨?_, ?_⟩, ?_⟩
  · rintro c ⟨⟩
    rfl
  · intro c last
    by_cases nonempty : after.rdropWhile isSpace = []
    · rw [nonempty] at last
      cases last
      rfl
    · rw [List.getLast?_cons, List.getLast?_eq_some_getLast nonempty] at last
      cases last
      simpa using List.rdropWhile_last_not isSpace after nonempty
  · rw [List.cons_append, ← whole]

/-- A line whose start is without a key assigns text that starts with `=`. -/
theorem NoKey.entryText {start : Bytes} (noKey : NoKey start) (after : Bytes) :
    (entryText (start ++ equalsSign :: after)).head? = some equalsSign := by
  obtain ⟨core, trail, blankTrail, edges, whole⟩ := equals_core after
  rw [whole, TwitchBot.entryText]
  cases noKey with
  | blank blank =>
    rw [trim_padded blank edges blankTrail]
    rfl
  | @exported lead gap blankLead blankGap =>
    have inner : PlainEdges (exportPrefix ++ gap ++ equalsSign :: core) := by
      have export_ : PlainEdges (bytes "export") := .of_mem (by decide +kernel)
      have spaced : PlainEdges (bytes "export" ++ (space :: gap) ++ equalsSign :: core) :=
        export_.append (by decide) edges (by simp)
      exact spaced
    have outer : lead ++ (exportPrefix ++ gap) ++ (equalsSign :: core ++ trail) =
        lead ++ (exportPrefix ++ gap ++ equalsSign :: core ++ trail) := by simp
    have begins : exportPrefix.isPrefixOf (exportPrefix ++ gap ++ equalsSign :: core) = true := by
      rw [List.isPrefixOf_iff_prefix, List.append_assoc]
      exact List.prefix_append ..
    have padded : trim (gap ++ (equalsSign :: core ++ [])) = equalsSign :: core := trim_padded blankGap edges .nil
    rw [List.append_nil] at padded
    rw [outer, trim_padded blankLead inner blankTrail, if_pos begins, List.append_assoc, List.drop_left, padded]
    rfl

theorem keyless_iff {line : Bytes} (nonempty : trim line ≠ []) (notComment : (trim line).head? ≠ some hashSign) :
    Keyless line ↔ equalsSign ∉ entryText line ∨ (entryText line).head? = some equalsSign := by
  obtain ⟨start, trail, noKey, blankTrail, whole⟩ := entryText_split line
  constructor
  · intro keyless
    by_cases member : equalsSign ∈ line
    · obtain ⟨before, after, split, free⟩ := List.eq_append_cons_of_mem member
      have starts := keyless.noKey before after split free
      rw [split]
      exact Or.inr (starts.entryText after)
    · refine Or.inl (fun inside => member ?_)
      rw [whole]
      exact List.mem_append_right _ (List.mem_append_left _ inside)
  · intro lacks
    refine ⟨nonempty, notComment, fun before after split free => ?_⟩
    rcases lacks with none | first
    · have absent : equalsSign ∉ line := by
        rw [whole]
        simp only [List.mem_append, not_or]
        exact ⟨noKey.noEquals, none, blank_noEquals blankTrail⟩
      exact absurd (split ▸ List.mem_append_right before List.mem_cons_self) absent
    · obtain ⟨rest, text⟩ := List.head?_eq_some_iff.mp first
      rw [text, List.cons_append] at whole
      rw [equals_split (split.symm.trans whole) free noKey.noEquals]
      exact noKey

/-- The text of the error about a line. -/
def invalidEntry (lineNumber : Nat) : String := "Invalid .env entry at line " ++ toString lineNumber

theorem readEnvLine_keyless {line : Bytes} (keyless : Keyless line) (lineNumber : Nat) :
    readEnvLine lineNumber line = .error (invalidEntry lineNumber) := by
  have proper : ¬((trim line).isEmpty = true ∨ (trim line).head? = some hashSign) := by
    simp [keyless.nonempty, keyless.notComment]
  unfold readEnvLine
  rw [trim_popCarriageReturn]
  dsimp only
  rw [if_neg proper, ← entryText]
  rcases (keyless_iff keyless.nonempty keyless.notComment).mp keyless with none | first
  · rw [find_none_zero none]
    rfl
  · obtain ⟨rest, text⟩ := List.head?_eq_some_iff.mp first
    have atStart : find ([] ++ equalsSign :: rest) equalsSign 0 = some 0 := find_cut_zero rest (by simp)
    rw [text, ← List.nil_append (equalsSign :: rest), atStart]
    rfl

theorem readEnvLine_keyed {line : Bytes} (keyed : ¬Keyless line) (lineNumber : Nat) :
    ∃ entry, readEnvLine lineNumber line = .ok entry := by
  unfold readEnvLine
  rw [trim_popCarriageReturn]
  dsimp only
  split
  · exact ⟨none, rfl⟩
  · rename_i proper
    simp only [not_or, List.isEmpty_iff] at proper
    rw [keyless_iff proper.1 proper.2, not_or, not_not] at keyed
    obtain ⟨before, after, split, free⟩ := List.eq_append_cons_of_mem keyed.1
    have someBefore : before.length ≠ 0 := by
      intro none
      rw [split, List.length_eq_zero_iff.mp none] at keyed
      exact keyed.2 rfl
    rw [← entryText, split, find_cut_zero after free]
    dsimp only
    rw [if_neg someBefore]
    exact ⟨_, rfl⟩

/-- The loop stops at the first line without a key. -/
theorem readEnvLines_keyless {before after : List Bytes} {line : Bytes} (keyed : ∀ earlier ∈ before, ¬Keyless earlier)
    (keyless : Keyless line) (lineNumber : Nat) (environment : Environment) :
    readEnvLines (before ++ line :: after) lineNumber environment =
      .error (invalidEntry (lineNumber + before.length + 1)) := by
  induction before generalizing lineNumber environment with
  | nil =>
    rw [List.nil_append, readEnvLines, readEnvLine_keyless keyless]
    rfl
  | cons first before ih =>
    obtain ⟨entry, read⟩ := readEnvLine_keyed (keyed first List.mem_cons_self) (lineNumber + 1)
    have rest := ih (fun earlier member => keyed earlier (List.mem_cons_of_mem _ member)) (lineNumber + 1)
    have shift : lineNumber + 1 + before.length + 1 = lineNumber + (first :: before).length + 1 := by
      rw [List.length_cons]
      omega
    rw [shift] at rest
    rw [List.cons_append, readEnvLines, read, ok_bind]
    cases entry with
    | none => exact rest environment
    | some pair => exact rest _

theorem readEnvLines_keyed {lines : List Bytes} (keyed : ∀ line ∈ lines, ¬Keyless line) (lineNumber : Nat)
    (environment : Environment) : ∃ result, readEnvLines lines lineNumber environment = .ok result := by
  induction lines generalizing lineNumber environment with
  | nil => exact ⟨environment, rfl⟩
  | cons line lines ih =>
    obtain ⟨entry, read⟩ := readEnvLine_keyed (keyed line List.mem_cons_self) (lineNumber + 1)
    have rest := ih (fun later member => keyed later (List.mem_cons_of_mem _ member)) (lineNumber + 1)
    rw [readEnvLines, read, ok_bind]
    cases entry with
    | none => exact rest environment
    | some pair => exact rest _

theorem first_keyless (lines : List Bytes) : (∀ line ∈ lines, ¬Keyless line) ∨
    ∃ before line after, lines = before ++ line :: after ∧ (∀ earlier ∈ before, ¬Keyless earlier) ∧ Keyless line := by
  induction lines with
  | nil => exact Or.inl (by simp)
  | cons first lines ih =>
    by_cases keyless : Keyless first
    · exact Or.inr ⟨[], first, lines, rfl, by simp, keyless⟩
    · rcases ih with all | ⟨before, line, after, rfl, keyed, last⟩
      · exact Or.inl (by simpa [keyless] using all)
      · exact Or.inr ⟨first :: before, line, after, rfl, by simpa [keyless] using keyed, last⟩

/-- A `.env` file is rejected just when one of its lines lacks a key, and the
error gives the number of the first such line. -/
theorem loadEnvFile_rejects (content : Bytes) (what : String) :
    loadEnvFile (some content) = .error what ↔
      ∃ before line after, getlineItems lf content = before ++ line :: after ∧
        (∀ earlier ∈ before, ¬Keyless earlier) ∧ Keyless line ∧ what = invalidEntry (before.length + 1) := by
  have stops {before after : List Bytes} {line : Bytes} (lines : getlineItems lf content = before ++ line :: after)
      (keyed : ∀ earlier ∈ before, ¬Keyless earlier) (keyless : Keyless line) :
      loadEnvFile (some content) = .error (invalidEntry (before.length + 1)) := by
    rw [loadEnvFile, lines, readEnvLines_keyless keyed keyless, Nat.zero_add]
  constructor
  · intro rejected
    rcases first_keyless (getlineItems lf content) with keyed | ⟨before, line, after, lines, keyed, keyless⟩
    · obtain ⟨result, loaded⟩ := readEnvLines_keyed keyed 0 ∅
      rw [loadEnvFile, loaded] at rejected
      cases rejected
    · rw [stops lines keyed keyless] at rejected
      exact ⟨before, line, after, lines, keyed, keyless, (Except.error.inj rejected).symm⟩
  · rintro ⟨before, line, after, lines, keyed, keyless, rfl⟩
    exact stops lines keyed keyless

end TwitchBot
