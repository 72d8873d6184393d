import Mathlib.Data.List.Basic

/-!
Framing of a stream by a two-symbol delimiter. `frames` is what a stream means;
`findPair` is the search a program makes for the next delimiter.
-/

namespace Framing

variable {α : Type*} [DecidableEq α]

/-- The position of the first `a` that is followed by `b`. -/
def findPair (a b : α) : List α → Option Nat
  | [] => none
  | [_] => none
  | x :: y :: rest =>
    if x = a ∧ y = b then some 0 else (findPair a b (y :: rest)).map (· + 1)

/-- A symbol in front of a framed stream belongs to its first frame. -/
def consFrame (x : α) : List (List α) × List α → List (List α) × List α
  | ([], tail) => ([], x :: tail)
  | (frame :: frames, tail) => ((x :: frame) :: frames, tail)

/-- The completed frames of a stream and the unfinished rest behind them. -/
def frames (a b : α) : List α → List (List α) × List α
  | [] => ([], [])
  | [x] => ([], [x])
  | x :: y :: rest =>
    if x = a ∧ y = b then ([] :: (frames a b rest).1, (frames a b rest).2)
    else consFrame x (frames a b (y :: rest))

variable {a b : α}

theorem findPair_lt {s : List α} {d : Nat} (found : findPair a b s = some d) : d + 2 ≤ s.length := by
  induction s using findPair.induct a b generalizing d with
  | case1 => simp [findPair] at found
  | case2 => simp [findPair] at found
  | case3 x y rest delimiter =>
    rw [findPair, if_pos delimiter] at found
    cases Option.some.inj found
    simp
  | case4 x y rest other ih =>
    rw [findPair, if_neg other] at found
    obtain ⟨e, inner, rfl⟩ := Option.map_eq_some_iff.mp found
    have bound := ih inner
    simp only [List.length_cons] at bound ⊢
    omega

/-- Without a delimiter the whole stream is the unfinished rest. -/
theorem frames_of_findPair_none {s : List α} (absent : findPair a b s = none) : frames a b s = ([], s) := by
  induction s using findPair.induct a b with
  | case1 => rfl
  | case2 => rfl
  | case3 x y rest delimiter => simp [findPair, delimiter] at absent
  | case4 x y rest other ih =>
    rw [findPair, if_neg other] at absent
    rw [frames, if_neg other, ih (by simpa using absent)]
    rfl

/-- Taking the first frame off a stream and framing what follows. -/
theorem frames_of_findPair_some {s : List α} {d : Nat} (found : findPair a b s = some d) :
    frames a b s = (s.take d :: (frames a b (s.drop (d + 2))).1, (frames a b (s.drop (d + 2))).2) := by
  induction s using findPair.induct a b generalizing d with
  | case1 => simp [findPair] at found
  | case2 => simp [findPair] at found
  | case3 x y rest delimiter =>
    rw [findPair, if_pos delimiter] at found
    cases Option.some.inj found
    rw [frames, if_pos delimiter]
    rfl
  | case4 x y rest other ih =>
    rw [findPair, if_neg other] at found
    obtain ⟨e, inner, rfl⟩ := Option.map_eq_some_iff.mp found
    rw [frames, if_neg other, ih inner]
    rfl

theorem frames_tail_findPair (s : List α) : findPair a b (frames a b s).2 = none := by
  induction s using frames.induct a b with
  | case1 => rfl
  | case2 => rfl
  | case3 x y rest delimiter ih =>
    rw [frames, if_pos delimiter]
    exact ih
  | case4 x y rest other ih =>
    rw [frames, if_neg other]
    cases inner : findPair a b (y :: rest) with
    | none =>
      rw [frames_of_findPair_none inner]
      simp [consFrame, findPair, other, inner]
    | some d =>
      rw [frames_of_findPair_some inner] at ih ⊢
      exact ih

/-- Framing is incremental: what is complete stays, and only the unfinished
rest is framed again together with what arrives. -/
theorem frames_append (s t : List α) :
    frames a b (s ++ t) =
      ((frames a b s).1 ++ (frames a b ((frames a b s).2 ++ t)).1,
        (frames a b ((frames a b s).2 ++ t)).2) := by
  induction s using frames.induct a b with
  | case1 => simp [frames]
  | case2 => simp [frames]
  | case3 x y rest delimiter ih =>
    simp only [List.cons_append]
    rw [frames, if_pos delimiter, ih, frames, if_pos delimiter]
    rfl
  | case4 x y rest other ih =>
    simp only [List.cons_append] at ih ⊢
    cases inner : findPair a b (y :: rest) with
    | none =>
      rw [frames, if_neg other, frames, if_neg other, frames_of_findPair_none inner]
      simp [consFrame, frames, other]
    | some d =>
      rw [frames_of_findPair_some inner] at ih
      rw [frames, if_neg other, ih, frames, if_neg other, frames_of_findPair_some inner]
      rfl

theorem frames_tail_idem (s : List α) : frames a b (frames a b s).2 = ([], (frames a b s).2) :=
  frames_of_findPair_none (frames_tail_findPair s)

/-- The frames with their delimiters, and the rest, are the stream. -/
theorem frames_flatten (s : List α) :
    ((frames a b s).1.map (· ++ [a, b])).flatten ++ (frames a b s).2 = s := by
  induction s using frames.induct a b with
  | case1 => rfl
  | case2 => rfl
  | case3 x y rest delimiter ih =>
    obtain ⟨rfl, rfl⟩ := delimiter
    rw [frames, if_pos ⟨rfl, rfl⟩]
    simpa using ih
  | case4 x y rest other ih =>
    rw [frames, if_neg other]
    cases result : frames a b (y :: rest) with
    | mk done tail =>
      rw [result] at ih
      cases done with
      | nil => simpa [consFrame] using ih
      | cons frame done => simpa [consFrame] using ih

/-- A delimiter found where a prefix holds none uses the prefix's last symbol
or lies behind it. -/
theorem findPair_append_bound {s t : List α} {d : Nat} (absent : findPair a b s = none)
    (found : findPair a b (s ++ t) = some d) : s.length ≤ d + 1 := by
  induction s using findPair.induct a b generalizing d with
  | case1 => simp
  | case2 => simp
  | case3 x y rest delimiter => simp [findPair, delimiter] at absent
  | case4 x y rest other ih =>
    rw [findPair, if_neg other] at absent
    simp only [List.cons_append] at found ih
    rw [findPair, if_neg other] at found
    obtain ⟨e, inner, rfl⟩ := Option.map_eq_some_iff.mp found
    have bound := ih (by simpa using absent) inner
    simp only [List.length_cons] at bound ⊢
    omega

theorem findPair_of_notMem {s : List α} (free : b ∉ s) : findPair a b s = none := by
  induction s using findPair.induct a b with
  | case1 => rfl
  | case2 => rfl
  | case3 x y rest delimiter => simp [delimiter.2] at free
  | case4 x y rest other ih =>
    rw [findPair, if_neg other, ih (fun member => free (List.mem_cons_of_mem _ member))]
    rfl

theorem findPair_cut {s : List α} (free : b ∉ s) (rest : List α) :
    findPair a b (s ++ a :: b :: rest) = some s.length := by
  induction s with
  | nil => simp [findPair]
  | cons x s ih =>
    have inner := ih (fun member => free (List.mem_cons_of_mem _ member))
    cases s with
    | nil =>
      by_cases delimiter : a = b
      · subst delimiter
        have other : x ≠ a := by rintro rfl; simp at free
        simp [findPair, other]
      · simp [findPair, delimiter]
    | cons y s =>
      have other : ¬(x = a ∧ y = b) := by
        rintro ⟨_, rfl⟩
        simp at free
      simp only [List.cons_append] at inner ⊢
      rw [findPair, if_neg other, inner]
      rfl

theorem findPair_spec {s : List α} {d : Nat} (found : findPair a b s = some d) :
    s = s.take d ++ a :: b :: s.drop (d + 2) := by
  induction s using findPair.induct a b generalizing d with
  | case1 => simp [findPair] at found
  | case2 => simp [findPair] at found
  | case3 x y rest delimiter =>
    rw [findPair, if_pos delimiter] at found
    cases Option.some.inj found
    obtain ⟨rfl, rfl⟩ := delimiter
    rfl
  | case4 x y rest other ih =>
    rw [findPair, if_neg other] at found
    obtain ⟨e, inner, rfl⟩ := Option.map_eq_some_iff.mp found
    have equal := ih inner
    exact congrArg (List.cons x) equal

/-- The pair found first stands right behind a stretch whose own end, with the
first symbol of the pair, holds none. -/
theorem findPair_behind {s : List α} (absent : findPair a b (s ++ [a]) = none) (rest : List α) :
    findPair a b (s ++ a :: b :: rest) = some s.length := by
  induction s with
  | nil => simp [findPair]
  | cons x s ih =>
    cases s with
    | nil =>
      simp only [List.cons_append, List.nil_append, findPair] at absent ih ⊢
      split at absent
      · cases absent
      · rename_i other
        simp [other]
    | cons y s =>
      simp only [List.cons_append] at absent ih ⊢
      rw [findPair] at absent
      split at absent
      · cases absent
      · rename_i other
        have inner := ih (by simpa using absent)
        rw [findPair, if_neg other, inner]
        rfl

/-- Nothing in front of the first pair holds one. -/
theorem findPair_take {s : List α} {d : Nat} (found : findPair a b s = some d) :
    findPair a b (s.take d) = none := by
  induction s using findPair.induct a b generalizing d with
  | case1 => simp [findPair] at found
  | case2 => simp [findPair] at found
  | case3 x y rest delimiter =>
    rw [findPair, if_pos delimiter] at found
    cases Option.some.inj found
    rfl
  | case4 x y rest other ih =>
    rw [findPair, if_neg other] at found
    obtain ⟨e, inner, rfl⟩ := Option.map_eq_some_iff.mp found
    have before := ih inner
    cases e with
    | zero => rfl
    | succ e =>
      simp only [List.take_succ_cons] at before ⊢
      rw [findPair, if_neg other, before]
      rfl

theorem findPair_eq_none_iff {s : List α} : findPair a b s = none ↔ ¬[a, b] <:+: s := by
  induction s using findPair.induct a b with
  | case1 => simp [findPair]
  | case2 x =>
    have short : ¬[a, b] <:+: [x] := by
      intro inside
      have bound := inside.length_le
      simp at bound
    simp [findPair, short]
  | case3 x y rest delimiter =>
    obtain ⟨rfl, rfl⟩ := delimiter
    have inside : [x, y] <:+: x :: y :: rest := ⟨[], rest, rfl⟩
    simp [findPair, inside]
  | case4 x y rest other ih =>
    have front : ¬[a, b] <+: x :: y :: rest := by
      rintro ⟨tail, equal⟩
      simp only [List.cons_append, List.cons.injEq] at equal
      exact other ⟨equal.1.symm, equal.2.1.symm⟩
    rw [findPair, if_neg other, Option.map_eq_none_iff, ih]
    exact (not_congr (List.infix_cons_iff.trans (or_iff_right front))).symm

/-- No frame holds the delimiter. -/
theorem frames_findPair {s frame : List α} (framed : frame ∈ (frames a b s).1) :
    findPair a b frame = none := by
  induction s using frames.induct a b with
  | case1 => simp [frames] at framed
  | case2 => simp [frames] at framed
  | case3 x y rest delimiter ih =>
    rw [frames, if_pos delimiter] at framed
    rcases List.mem_cons.mp framed with rfl | later
    · rfl
    · exact ih later
  | case4 x y rest other ih =>
    cases inner : findPair a b (y :: rest) with
    | none =>
      have absent : findPair a b (x :: y :: rest) = none := by rw [findPair, if_neg other, inner]; rfl
      simp [frames_of_findPair_none absent] at framed
    | some d =>
      have found : findPair a b (x :: y :: rest) = some (d + 1) := by
        rw [findPair, if_neg other, inner]
        rfl
      rw [frames_of_findPair_some found] at framed
      rcases List.mem_cons.mp framed with rfl | later
      · exact findPair_take found
      · refine ih ?_
        rw [frames_of_findPair_some inner]
        exact List.mem_cons_of_mem _ later

/-- Lines free of the second symbol are the frames of their own joined text. -/
theorem frames_join {lines : List (List α)} (free : ∀ line ∈ lines, b ∉ line) :
    frames a b (lines.map (· ++ [a, b])).flatten = (lines, []) := by
  induction lines with
  | nil => rfl
  | cons line lines ih =>
    obtain ⟨head, tail⟩ := List.forall_mem_cons.mp free
    have cut := findPair_cut (a := a) head (lines.map (· ++ [a, b])).flatten
    have split : ((line :: lines).map (· ++ [a, b])).flatten =
        line ++ a :: b :: (lines.map (· ++ [a, b])).flatten := by simp
    have behind : (line ++ a :: b :: (lines.map (· ++ [a, b])).flatten).drop (line.length + 2) =
        (lines.map (· ++ [a, b])).flatten := by simp [List.drop_append]
    rw [split, frames_of_findPair_some cut, behind, ih tail, List.take_left]

end Framing
