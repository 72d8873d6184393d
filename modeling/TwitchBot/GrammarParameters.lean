import TwitchBot.GrammarSections

namespace TwitchBot

open ExceptRun StringView

theorem parameterLoop_blank (before : Bytes) (n fuel : Nat) (parameters : List Bytes) :
    parameterLoop (before ++ List.replicate n space) (fuel + 1) before.length parameters =
      .ok parameters := by
  rw [parameterLoop]
  split
  · have skip := skipSpaces_line before [] n (by simp)
    rw [List.append_nil] at skip
    simp only [skip, ok_bind, ge_iff_le, le_refl, if_true, pure_eq_ok]
  · rfl

/-- A nonempty text behind the spaces lets the loop start another round. -/
theorem length_lt_line (before : Bytes) (n : Nat) {text : Bytes} (nonempty : text ≠ []) :
    before.length < (before ++ (List.replicate n space ++ text)).length := by
  have positive := List.length_pos_iff.mpr nonempty
  simp only [List.length_append]
  omega

theorem parameterLoop_trailing (before : Bytes) (n : Nat) (text : Bytes) (fuel : Nat)
    (parameters : List Bytes) :
    parameterLoop (before ++ (List.replicate n space ++ colon :: text)) (fuel + 1) before.length
      parameters = .ok (parameters ++ [text]) := by
  have skip := skipSpaces_line before (colon :: text) n (by simp [colon, space])
  have char := charAt_cut (ρ := String) (before ++ List.replicate n space) colon text
  have rest := substr_rest (ρ := String) (before ++ List.replicate n space ++ [colon]) text
  simp only [List.append_assoc, List.singleton_append, List.length_append,
    List.length_singleton] at char rest skip
  rw [parameterLoop, if_pos (length_lt_line before n (List.cons_ne_nil colon text))]
  simp only [List.length_append, skip, ok_bind]
  rw [if_neg (by simp)]
  simp only [char, ok_bind, if_true, ← Nat.add_assoc] at rest ⊢
  simp only [rest, ok_bind, pure_eq_ok]

/-- The rounds that read a middle parameter, at the end of the line and before
a space. Both make the test of the parameter count. -/
theorem parameterLoop_last (before : Bytes) (n : Nat) {word : Bytes} (form : Middle word) (fuel : Nat)
    (parameters : List Bytes) :
    parameterLoop (before ++ (List.replicate n space ++ word)) (fuel + 1) before.length parameters =
      if parameters.length + 1 > 32 then reject "IRC message has too many parameters"
      else .ok (parameters ++ [word]) := by
  obtain ⟨nonempty, noSpace, head⟩ := form
  obtain ⟨c, rest, rfl⟩ := List.exists_cons_of_ne_nil nonempty
  have other : c ≠ space := by rintro rfl; simp at noSpace
  have middle : c ≠ colon := by simpa using head
  have skip := skipSpaces_line before (c :: rest) n (by simpa using other)
  have char := charAt_cut (ρ := String) (before ++ List.replicate n space) c rest
  have stop := find_none (before ++ List.replicate n space) noSpace
  have word := substr_rest (ρ := String) (before ++ List.replicate n space) (c :: rest)
  simp only [List.append_assoc, List.length_append] at char skip stop word
  rw [parameterLoop, if_pos (length_lt_line before n (List.cons_ne_nil c rest))]
  simp only [List.length_append, skip, ok_bind]
  rw [if_neg (by simp)]
  simp only [char, ok_bind, if_neg middle, stop, distance_none, word, List.length_singleton, pure_eq_ok]

theorem parameterLoop_middle (before : Bytes) (n : Nat) {word : Bytes} (form : Middle word) (rest : Bytes)
    (fuel : Nat) (parameters : List Bytes) :
    parameterLoop (before ++ (List.replicate n space ++ (word ++ space :: rest))) (fuel + 1)
      before.length parameters =
      if parameters.length + 1 > 32 then reject "IRC message has too many parameters"
      else parameterLoop (before ++ List.replicate n space ++ word ++ [space] ++ rest) fuel
        (before ++ List.replicate n space ++ word ++ [space]).length (parameters ++ [word]) := by
  obtain ⟨nonempty, noSpace, head⟩ := form
  obtain ⟨c, tail, rfl⟩ := List.exists_cons_of_ne_nil nonempty
  have other : c ≠ space := by rintro rfl; simp at noSpace
  have middle : c ≠ colon := by simpa using head
  have skip := skipSpaces_line before (c :: tail ++ space :: rest) n
    (by simpa using other)
  have char := charAt_cut (ρ := String) (before ++ List.replicate n space) c (tail ++ space :: rest)
  have stop := find_cut (before ++ List.replicate n space) rest noSpace
  have word := substr_cut (ρ := String) (before ++ List.replicate n space) (c :: tail) (space :: rest)
  simp only [List.append_assoc, List.length_append, List.cons_append] at char skip stop word
  rw [parameterLoop, if_pos (length_lt_line before n (by simp))]
  simp only [List.length_append, List.cons_append, skip, ok_bind]
  rw [if_neg (by simp)]
  simp only [char, ok_bind, if_neg middle, stop, distance_add, word,
    List.length_singleton, List.append_assoc, List.cons_append, List.nil_append]

/-- The loop reads back any parameters of the grammar. -/
theorem parameterLoop_params {text : Bytes} {middles trailing : List Bytes}
    (params : Params text middles trailing) : ∀ (before : Bytes) (fuel : Nat) (parameters : List Bytes),
    text.length < fuel → parameters.length + middles.length ≤ 32 →
      parameterLoop (before ++ text) fuel before.length parameters =
        .ok (parameters ++ (middles ++ trailing)) := by
  induction params with
  | blank n =>
    intro before fuel parameters bound _
    obtain ⟨fuel, rfl⟩ := Nat.exists_eq_succ_of_ne_zero (by omega : fuel ≠ 0)
    simpa using parameterLoop_blank before n fuel parameters
  | trailing n text =>
    intro before fuel parameters bound _
    obtain ⟨fuel, rfl⟩ := Nat.exists_eq_succ_of_ne_zero (by omega : fuel ≠ 0)
    simpa using parameterLoop_trailing before n text fuel parameters
  | last n form =>
    intro before fuel parameters bound count
    obtain ⟨fuel, rfl⟩ := Nat.exists_eq_succ_of_ne_zero (by omega : fuel ≠ 0)
    rw [parameterLoop_last before n form, if_neg (by simpa using count)]
    simp
  | @middle n word rest middles trailing form params ih =>
    intro before fuel parameters bound count
    obtain ⟨fuel, rfl⟩ := Nat.exists_eq_succ_of_ne_zero (by omega : fuel ≠ 0)
    simp only [List.length_append, List.length_cons] at bound count
    have next := ih (before ++ List.replicate n space ++ word ++ [space]) fuel (parameters ++ [word])
      (by omega) (by simp; omega)
    rw [parameterLoop_middle before n form, if_neg (by omega), next]
    simp

/-- One middle parameter too many is rejected, whatever follows it. -/
theorem parameterLoop_overflow {text : Bytes} {middles trailing : List Bytes}
    (params : Params text middles trailing) : ∀ (before : Bytes) (fuel : Nat) (parameters : List Bytes),
    text.length < fuel → parameters.length ≤ 32 → 32 < parameters.length + middles.length →
      parameterLoop (before ++ text) fuel before.length parameters =
        reject "IRC message has too many parameters" := by
  induction params with
  | blank n =>
    intro before fuel parameters _ small beyond
    rw [List.length_nil] at beyond
    omega
  | trailing n text =>
    intro before fuel parameters _ small beyond
    rw [List.length_nil] at beyond
    omega
  | last n form =>
    intro before fuel parameters bound _ beyond
    obtain ⟨fuel, rfl⟩ := Nat.exists_eq_succ_of_ne_zero (by omega : fuel ≠ 0)
    rw [parameterLoop_last before n form, if_pos (by simpa using beyond)]
  | @middle n word rest middles trailing form params ih =>
    intro before fuel parameters bound small beyond
    obtain ⟨fuel, rfl⟩ := Nat.exists_eq_succ_of_ne_zero (by omega : fuel ≠ 0)
    simp only [List.length_append, List.length_cons] at bound beyond
    rw [parameterLoop_middle before n form]
    split
    · rfl
    · exact ih (before ++ List.replicate n space ++ word ++ [space]) fuel (parameters ++ [word])
        (by omega) (by simp; omega) (by simp; omega)

/-- On any text the loop reads parameters of the grammar or rejects. -/
theorem parameterLoop_cases (fuel : Nat) : ∀ (before rest : Bytes) (parameters : List Bytes),
    rest.length < fuel → parameters.length ≤ 32 →
      (∃ middles trailing, Params rest middles trailing ∧ parameters.length + middles.length ≤ 32 ∧
        parameterLoop (before ++ rest) fuel before.length parameters =
          .ok (parameters ++ (middles ++ trailing))) ∨
      ∃ text, parameterLoop (before ++ rest) fuel before.length parameters = reject text := by
  induction fuel with
  | zero => intro _ _ _ bound; omega
  | succ fuel ih =>
    intro before rest parameters bound count
    obtain ⟨n, rest, rfl, head⟩ := spaces_decomposition rest
    simp only [List.length_append, List.length_replicate] at bound
    cases rest with
    | nil =>
      refine Or.inl ⟨[], [], by simpa using Params.blank n, by simpa using count, ?_⟩
      simpa using parameterLoop_blank before n fuel parameters
    | cons c rest =>
      by_cases isColon : c = colon
      · subst isColon
        exact Or.inl ⟨[], [rest], .trailing n rest, by simpa using count,
          parameterLoop_trailing before n rest fuel parameters⟩
      rcases cut_cases space (c :: rest) with free | ⟨word, rest', cut, free⟩
      · have form : Middle (c :: rest) := ⟨by simp, free, by simpa using isColon⟩
        rw [parameterLoop_last before n form]
        split
        · exact Or.inr ⟨_, rfl⟩
        · exact Or.inl ⟨[c :: rest], [], .last n form, by simp only [List.length_singleton]; omega, by simp⟩
      · have form : Middle word := by
          cases word with
          | nil => exact absurd (List.cons.inj cut).1 (by simpa using head)
          | cons x xs => exact ⟨by simp, free, by simpa [← (List.cons.inj cut).1] using isColon⟩
        simp only [cut, List.length_append, List.length_cons] at bound
        rw [cut, parameterLoop_middle before n form]
        split
        · exact Or.inr ⟨_, rfl⟩
        · rename_i few
          have next := ih (before ++ List.replicate n space ++ word ++ [space]) rest' (parameters ++ [word])
            (by omega) (by simp; omega)
          rcases next with ⟨middles, trailing, params, bounded, result⟩ | failed
          · simp only [List.length_append, List.length_singleton] at bounded
            refine Or.inl ⟨word :: middles, trailing, .middle n form params, ?_, ?_⟩
            · simp only [List.length_cons]
              omega
            · simpa only [List.append_assoc, List.singleton_append, List.cons_append, List.nil_append] using result
          · exact Or.inr failed

end TwitchBot
