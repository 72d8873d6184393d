import TwitchBot.MessageGrammar

namespace TwitchBot

open ExceptRun StringView

/-- Every text is a run of spaces and a rest that starts with something else. -/
theorem spaces_decomposition (text : Bytes) :
    ∃ n rest, text = List.replicate n space ++ rest ∧ rest.head? ≠ some space := by
  induction text with
  | nil => exact ⟨0, [], rfl, by simp⟩
  | cons c text ih =>
    by_cases same : c = space
    · obtain ⟨n, rest, equal, head⟩ := ih
      exact ⟨n + 1, rest, by simp [same, equal, List.replicate_succ], head⟩
    · exact ⟨0, c :: text, rfl, by simpa using same⟩

theorem skipSpaces_stop {before rest : Bytes} (head : rest.head? ≠ some space) (fuel : Nat) :
    skipSpaces (before ++ rest) (fuel + 1) before.length = .ok before.length := by
  cases rest with
  | nil => simp [skipSpaces]
  | cons c rest =>
    have different : c ≠ space := by simpa using head
    simp [skipSpaces, different]

/-- The cursor passes exactly the run of spaces it stands at. -/
theorem skipSpaces_run {rest : Bytes} (head : rest.head? ≠ some space) (n : Nat) :
    ∀ (before : Bytes) (fuel : Nat), n < fuel →
      skipSpaces (before ++ (List.replicate n space ++ rest)) fuel before.length =
        .ok (before.length + n) := by
  induction n with
  | zero =>
    intro before fuel bound
    obtain ⟨fuel, rfl⟩ := Nat.exists_eq_succ_of_ne_zero (by omega : fuel ≠ 0)
    simpa using skipSpaces_stop head fuel
  | succ n ih =>
    intro before fuel bound
    obtain ⟨fuel, rfl⟩ := Nat.exists_eq_succ_of_ne_zero (by omega : fuel ≠ 0)
    have next := ih (before ++ [space]) fuel (by omega)
    simp only [List.append_assoc, List.singleton_append, List.length_append,
      List.length_singleton] at next
    simp only [List.replicate_succ, List.cons_append, skipSpaces, List.length_append,
      List.length_cons, charAt_cut, ok_bind, if_true]
    rw [if_pos (by omega), next]
    congr 1
    omega

/-- The skip as the parser makes it, with the whole line as its bound. -/
theorem skipSpaces_line (before rest : Bytes) (n : Nat) (head : rest.head? ≠ some space) :
    skipSpaces (before ++ (List.replicate n space ++ rest))
      ((before ++ (List.replicate n space ++ rest)).length + 1) before.length =
        .ok (before ++ List.replicate n space).length := by
  rw [skipSpaces_run head n before _ (by simp; omega)]
  simp

theorem parseTag_text (tag : Tag) : parseTag tag.text = .ok (tag.key, tag.rawValue) := by
  have nonempty := tag.key_nonempty
  cases atValue : tag.value with
  | none =>
    have key := substr_rest (ρ := String) [] tag.key
    simp only [List.nil_append, List.length_nil] at key
    simp [parseTag, Tag.text, Tag.rawValue, atValue, tag.key_plain.1, key, nonempty]
  | some value =>
    have key := substr_cut (ρ := String) [] tag.key (equalsSign :: value)
    have rest := substr_rest (ρ := String) (tag.key ++ [equalsSign]) value
    simp only [List.nil_append, List.length_nil] at key
    simp only [List.append_assoc, List.singleton_append, List.length_append,
      List.length_singleton] at rest
    simp [parseTag, Tag.text, Tag.rawValue, atValue, tag.key_plain.1, key, nonempty, rest]

/-- A raw tag without separators is a tag of the grammar or has an empty key. -/
theorem parseTag_cases {rawTag : Bytes} (noSemicolon : semicolon ∉ rawTag) (noSpace : space ∉ rawTag) :
    (∃ tag : Tag, rawTag = tag.text) ∨ parseTag rawTag = reject "IRC tag key is empty" := by
  rcases cut_cases equalsSign rawTag with free | ⟨key, value, rfl, free⟩
  · by_cases empty : rawTag = []
    · right
      subst empty
      decide
    · exact Or.inl ⟨⟨rawTag, none, empty, ⟨free, noSemicolon, noSpace⟩, by simp⟩, by simp [Tag.text]⟩
  · by_cases empty : key = []
    · right
      subst empty
      have found := find_cut_zero value free
      have key := substr_cut (ρ := String) [] [] (equalsSign :: value)
      simp only [List.nil_append, List.length_nil] at key found
      simp [parseTag, found, key]
    · left
      simp only [List.mem_append, List.mem_cons, not_or] at noSemicolon noSpace
      refine ⟨⟨key, some value, empty, ⟨free, noSemicolon.1, noSpace.1⟩, ?_⟩, by simp [Tag.text]⟩
      intro v member
      cases member
      exact ⟨noSemicolon.2.2, noSpace.2.2⟩

/-- One round of the tag loop that ends at a `;`. -/
theorem tagLoop_next (before : Bytes) (tag : Tag) (rest : Bytes) (fuel : Nat) (tags : StringMap) :
    tagLoop (before ++ (tag.text ++ semicolon :: rest)) (fuel + 1) before.length tags =
      tagLoop (before ++ (tag.text ++ semicolon :: rest)) fuel
        (before ++ tag.text ++ [semicolon]).length (addTag tags tag) := by
  have found := find_cut before rest tag.text_plain.1
  have raw := substr_cut (ρ := String) before tag.text (semicolon :: rest)
  have within : before.length ≤ (before ++ (tag.text ++ semicolon :: rest)).length := by simp
  rw [tagLoop, if_pos within]
  simp only [found, distance_add, ok_bind, raw, parseTag_text, addTag, List.length_append,
    List.length_singleton]

/-- The last round of the tag loop. -/
theorem tagLoop_last (before : Bytes) (tag : Tag) (fuel : Nat) (tags : StringMap) :
    tagLoop (before ++ tag.text) (fuel + 1) before.length tags = .ok (addTag tags tag) := by
  have found := find_none before tag.text_plain.1
  have raw := substr_rest (ρ := String) before tag.text
  have within : before.length ≤ (before ++ tag.text).length := by simp
  simp only [tagLoop, if_pos within, found, distance_none, ok_bind, raw, parseTag_text, addTag,
    pure_eq_ok]

/-- The loop reads back any list of tags. -/
theorem tagLoop_tagsText (tag : Tag) (rest : List Tag) : ∀ (before : Bytes) (fuel : Nat) (tags : StringMap),
    rest.length < fuel → tagLoop (before ++ tagsText (tag :: rest)) fuel before.length tags =
      .ok ((tag :: rest).foldl addTag tags) := by
  induction rest generalizing tag with
  | nil =>
    intro before fuel tags bound
    obtain ⟨fuel, rfl⟩ := Nat.exists_eq_succ_of_ne_zero (by omega : fuel ≠ 0)
    simpa [tagsText] using tagLoop_last before tag fuel tags
  | cons next rest ih =>
    intro before fuel tags bound
    simp only [List.length_cons] at bound
    obtain ⟨fuel, rfl⟩ := Nat.exists_eq_succ_of_ne_zero (by omega : fuel ≠ 0)
    have step := ih next (before ++ tag.text ++ [semicolon]) fuel (addTag tags tag) (by omega)
    rw [tagsText_cons, tagLoop_next]
    simpa only [List.append_assoc, List.singleton_append, List.foldl_cons] using step

/-- On any section the loop reads a list of tags or rejects. -/
theorem tagLoop_cases (fuel : Nat) : ∀ (before rest : Bytes) (tags : StringMap),
    space ∉ rest → rest.length < fuel →
      (∃ read, read ≠ [] ∧ rest = tagsText read ∧
        tagLoop (before ++ rest) fuel before.length tags = .ok (read.foldl addTag tags)) ∨
      ∃ text, tagLoop (before ++ rest) fuel before.length tags = reject text := by
  induction fuel with
  | zero => intro _ rest _ _ bound; omega
  | succ fuel ih =>
    intro before rest tags noSpace bound
    have within : before.length ≤ (before ++ rest).length := by simp
    rcases cut_cases semicolon rest with free | ⟨raw, rest, rfl, free⟩
    · rcases parseTag_cases free noSpace with ⟨tag, rfl⟩ | empty
      · exact Or.inl ⟨[tag], by simp, rfl, tagLoop_last before tag fuel tags⟩
      · refine Or.inr ⟨"IRC tag key is empty", ?_⟩
        simp only [tagLoop, if_pos within, find_none _ free, distance_none, ok_bind, substr_rest, empty]
        rfl
    · simp only [List.mem_append, List.mem_cons, not_or] at noSpace
      simp only [List.length_append, List.length_cons] at bound
      rcases parseTag_cases free noSpace.1 with ⟨tag, rfl⟩ | empty
      · have step := ih (before ++ tag.text ++ [semicolon]) rest (addTag tags tag) noSpace.2.2 (by omega)
        simp only [List.append_assoc, List.singleton_append] at step
        rw [tagLoop_next]
        simp only [List.append_assoc]
        rcases step with ⟨read, nonempty, rfl, result⟩ | failed
        · left
          obtain ⟨next, others, rfl⟩ := List.exists_cons_of_ne_nil nonempty
          exact ⟨tag :: next :: others, by simp, by rw [tagsText_cons], result⟩
        · exact Or.inr failed
      · refine Or.inr ⟨"IRC tag key is empty", ?_⟩
        simp only [tagLoop, if_pos within, find_cut _ _ free, distance_add, ok_bind, substr_cut, empty]
        rfl

end TwitchBot
