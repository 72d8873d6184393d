import TwitchBot.Library.CursorLoop
import TwitchBot.ParserExact

namespace TwitchBot

open ExceptRun StringView

/-- One round of a space-skipping loop; the state is the position of the cursor. -/
def skipRound (line : Bytes) : Round String Nat := fun position _ =>
  if position < line.length then do
    let c ← charAt line position
    if c = space then pure (position + 1, some (position + 1)) else pure (position, none)
  else pure (position, none)

/-- One round of the tag loop, at `tag_start`. -/
def tagRound (tagSection : Bytes) : Round String StringMap := fun tagStart tags =>
  if tagStart ≤ tagSection.length then do
    let separator := find tagSection semicolon tagStart
    let (key, rawValue) ← parseTag (← substr tagSection tagStart (← distance tagStart separator))
    pure (tags.insert key (unescapeIrcTag rawValue), separator.map (· + 1))
  else pure (tags, none)

/-- One round of the parameter loop. -/
def parameterRound (line : Bytes) : Round String (List Bytes) := fun position parameters =>
  if position < line.length then do
    let position ← skipSpaces line (line.length + 1) position
    if position ≥ line.length then pure (parameters, none)
    else if (← charAt line position) = colon then
      pure (parameters ++ [← substr line (position + 1) none], none)
    else do
      let stop := find line space position
      let parameters := parameters ++ [← substr line position (← distance position stop)]
      if parameters.length > 32 then reject "IRC message has too many parameters"
      else pure (parameters, stop.map (· + 1))
  else pure (parameters, none)

theorem skipSpaces_iterate (line : Bytes) (fuel : Nat) : ∀ position,
    skipSpaces line fuel position = iterate (skipRound line) fuel position position := by
  induction fuel with
  | zero => intro _; rfl
  | succ fuel ih =>
    intro position
    simp only [skipSpaces, iterate, skipRound]
    split
    · cases charAt (ρ := String) line position with
      | error failure => rfl
      | ok c =>
        simp only [ok_bind]
        split
        · exact ih (position + 1)
        · rfl
    · rfl

theorem tagLoop_iterate (tagSection : Bytes) (fuel : Nat) : ∀ tagStart tags,
    tagLoop tagSection fuel tagStart tags = iterate (tagRound tagSection) fuel tagStart tags := by
  induction fuel with
  | zero => intro _ _; rfl
  | succ fuel ih =>
    intro tagStart tags
    simp only [tagLoop, iterate, tagRound]
    split
    · simp only [bind_assoc]
      congr 1
      funext count
      congr 1
      funext rawTag
      congr 1
      funext tag
      cases find tagSection semicolon tagStart with
      | none => rfl
      | some separator => exact ih (separator + 1) _
    · rfl

theorem parameterLoop_iterate (line : Bytes) (fuel : Nat) : ∀ position parameters,
    parameterLoop line fuel position parameters = iterate (parameterRound line) fuel position parameters := by
  induction fuel with
  | zero => intro _ _; rfl
  | succ fuel ih =>
    intro position parameters
    simp only [parameterLoop, iterate, parameterRound]
    split
    · cases skipSpaces line (line.length + 1) position with
      | error failure => rfl
      | ok position =>
        simp only [ok_bind]
        split
        · rfl
        · cases charAt (ρ := String) line position with
          | error failure => rfl
          | ok c =>
            simp only [ok_bind]
            split
            · simp only [bind_assoc]
              rfl
            · simp only [bind_assoc]
              congr 1
              funext count
              congr 1
              funext word
              split
              · rfl
              · cases find line space position with
                | none => rfl
                | some stop => exact ih (stop + 1) _
    · rfl

theorem skipRound_advances (line : Bytes) : Advances (skipRound line) line.length := by
  intro position state state' next ran
  simp only [skipRound] at ran
  split at ran
  · rename_i below
    obtain ⟨c, _, ran⟩ := bind_eq_ok.mp ran
    split at ran
    · cases Except.ok.inj ran
      omega
    · cases Except.ok.inj ran
  · cases Except.ok.inj ran

theorem skipRound_safe (line : Bytes) (position state : Nat) : Safe (skipRound line position state) := by
  simp only [skipRound]
  split
  · rename_i below
    refine (charAt_safe below).bind ?_
    intro c _
    split
    · exact Safe.ok _
    · exact Safe.ok _
  · exact Safe.ok _

/-- The skip is safe from every position within the line. -/
theorem skipSpaces_safe {line : Bytes} {position : Nat} (within : position ≤ line.length) :
    Safe (skipSpaces line (line.length + 1) position) := by
  rw [skipSpaces_iterate]
  exact iterate_safe (skipRound_advances line) (fun position _ state => skipRound_safe line position state)
    (line.length + 1) position position within (by omega)

theorem skipSpaces_ge (line : Bytes) (fuel : Nat) : ∀ {position stop : Nat},
    skipSpaces line fuel position = .ok stop → position ≤ stop := by
  induction fuel with
  | zero => intro _ _ ran; cases ran
  | succ fuel ih =>
    intro position stop ran
    simp only [skipSpaces] at ran
    split at ran
    · obtain ⟨c, _, ran⟩ := bind_eq_ok.mp ran
      split at ran
      · exact (Nat.le_succ position).trans (ih ran)
      · exact (Except.ok.inj ran).le
    · exact (Except.ok.inj ran).le

theorem tagRound_advances (tagSection : Bytes) : Advances (tagRound tagSection) tagSection.length := by
  intro tagStart tags tags' next ran
  simp only [tagRound] at ran
  split at ran
  · obtain ⟨count, _, ran⟩ := bind_eq_ok.mp ran
    obtain ⟨rawTag, _, ran⟩ := bind_eq_ok.mp ran
    obtain ⟨tag, _, ran⟩ := bind_eq_ok.mp ran
    have atNext := congrArg Prod.snd (Except.ok.inj ran)
    obtain ⟨separator, found, rfl⟩ := Option.map_eq_some_iff.mp atNext
    have bounds := find_bounds found
    omega
  · cases Except.ok.inj ran

theorem parseTag_safe (rawTag : Bytes) : Safe (parseTag rawTag) := by
  refine (substr_safe (Nat.zero_le _) _).bind ?_
  intro key _
  split
  · exact Safe.rejected _
  · split
    · exact Safe.ok _
    · rename_i equals found
      have bounds := find_bounds found
      refine (substr_safe (by omega) _).bind ?_
      intro value _
      exact Safe.ok _

theorem tagRound_safe (tagSection : Bytes) (tagStart : Nat) (tags : StringMap) :
    Safe (tagRound tagSection tagStart tags) := by
  simp only [tagRound]
  split
  · rename_i within
    refine (distance_safe (fun stop found => (find_bounds found).1)).bind ?_
    intro count _
    refine (substr_safe within count).bind ?_
    intro rawTag _
    refine (parseTag_safe rawTag).bind ?_
    intro tag _
    exact Safe.ok _
  · exact Safe.ok _

theorem parameterRound_advances (line : Bytes) : Advances (parameterRound line) line.length := by
  intro position parameters parameters' next ran
  simp only [parameterRound] at ran
  split at ran
  · obtain ⟨start, skipped, ran⟩ := bind_eq_ok.mp ran
    have forward := skipSpaces_ge line _ skipped
    split at ran
    · cases Except.ok.inj ran
    · obtain ⟨c, _, ran⟩ := bind_eq_ok.mp ran
      split at ran
      · obtain ⟨text, _, ran⟩ := bind_eq_ok.mp ran
        cases Except.ok.inj ran
      · obtain ⟨count, _, ran⟩ := bind_eq_ok.mp ran
        obtain ⟨word, _, ran⟩ := bind_eq_ok.mp ran
        split at ran
        · cases ran
        · have atNext := congrArg Prod.snd (Except.ok.inj ran)
          obtain ⟨stop, found, rfl⟩ := Option.map_eq_some_iff.mp atNext
          have bounds := find_bounds found
          omega
  · cases Except.ok.inj ran

theorem parameterRound_safe (line : Bytes) (position : Nat) (parameters : List Bytes) :
    Safe (parameterRound line position parameters) := by
  simp only [parameterRound]
  split
  · rename_i below
    refine (skipSpaces_safe (by omega)).bind ?_
    intro start _
    split
    · exact Safe.ok _
    · rename_i below'
      refine (charAt_safe (by omega)).bind ?_
      intro c _
      split
      · refine (substr_safe (by omega) _).bind ?_
        intro text _
        exact Safe.ok _
      · refine (distance_safe (fun stop found => (find_bounds found).1)).bind ?_
        intro count _
        refine (substr_safe (by omega) _).bind ?_
        intro word _
        split
        · exact Safe.rejected _
        · exact Safe.ok _
  · exact Safe.ok _

/-- The parser keeps to its line: it never reads outside it, so that it never
comes to its `catch` branches, and its loops repeat rounds that move the cursor
forward, so that they end from every position. -/
structure KeepsToLine (line : Bytes) : Prop where
  body : Safe (parseBody line)
  uncaught : ∀ text, parseIrcMessage line = .error text → parseBody line = reject text
  skipRounds : ∀ fuel position, skipSpaces line fuel position = iterate (skipRound line) fuel position position
  skipAdvances : Advances (skipRound line) line.length
  skipEnds : ∀ position ≤ line.length, Safe (skipSpaces line (line.length + 1) position)
  tagRounds : ∀ tagSection fuel tagStart tags,
    tagLoop tagSection fuel tagStart tags = iterate (tagRound tagSection) fuel tagStart tags
  tagAdvances : ∀ tagSection, Advances (tagRound tagSection) tagSection.length
  tagEnds : ∀ (tagSection : Bytes), ∀ tagStart ≤ tagSection.length, ∀ tags,
    Safe (tagLoop tagSection (tagSection.length + 1) tagStart tags)
  parameterRounds : ∀ fuel position parameters,
    parameterLoop line fuel position parameters = iterate (parameterRound line) fuel position parameters
  parameterAdvances : Advances (parameterRound line) line.length
  parameterEnds : ∀ position ≤ line.length, ∀ parameters,
    Safe (parameterLoop line (line.length + 1) position parameters)

theorem tagLoop_safe (tagSection : Bytes) {tagStart : Nat} (within : tagStart ≤ tagSection.length)
    (tags : StringMap) : Safe (tagLoop tagSection (tagSection.length + 1) tagStart tags) := by
  rw [tagLoop_iterate]
  exact iterate_safe (tagRound_advances tagSection)
    (fun tagStart _ tags => tagRound_safe tagSection tagStart tags) _ tagStart tags within (by omega)

theorem parameterLoop_safe {line : Bytes} {position : Nat} (within : position ≤ line.length)
    (parameters : List Bytes) : Safe (parameterLoop line (line.length + 1) position parameters) := by
  rw [parameterLoop_iterate]
  exact iterate_safe (parameterRound_advances line)
    (fun position _ parameters => parameterRound_safe line position parameters) _ position parameters within (by omega)

theorem parseBody_safe (line : Bytes) : Safe (parseBody line) := by
  rcases parseBody_cases line with ⟨m, _, _, _, _, accepted⟩ | ⟨text, rejected⟩
  · rw [accepted]
    exact Safe.ok _
  · rw [rejected]
    exact Safe.rejected _

theorem parseIrcMessage_uncaught {line : Bytes} {text : String} (error : parseIrcMessage line = .error text) :
    parseBody line = reject text := by
  have safe := parseBody_safe line
  unfold parseIrcMessage at error
  split at error
  · cases error
  · rename_i rejected
    rw [rejected]
    cases error
    rfl
  · rename_i fault
    exact absurd fault (safe _)
  · rename_i fault
    exact absurd fault (safe _)

theorem parser_keepsToLine (line : Bytes) : KeepsToLine line where
  body := parseBody_safe line
  uncaught := fun _ error => parseIrcMessage_uncaught error
  skipRounds := skipSpaces_iterate line
  skipAdvances := skipRound_advances line
  skipEnds := fun _ within => skipSpaces_safe within
  tagRounds := tagLoop_iterate
  tagAdvances := tagRound_advances
  tagEnds := fun tagSection _ within tags => tagLoop_safe tagSection within tags
  parameterRounds := parameterLoop_iterate line
  parameterAdvances := parameterRound_advances line
  parameterEnds := fun _ within parameters => parameterLoop_safe within parameters

end TwitchBot
