import TwitchBot.Bytes

namespace TwitchBot

/-- A text that neither starts nor ends with whitespace. -/
def PlainEdges (value : Bytes) : Prop :=
  (∀ c ∈ value.head?, isSpace c = false) ∧ ∀ c ∈ value.getLast?, isSpace c = false

def Blank (text : Bytes) : Prop := ∀ c ∈ text, isSpace c = true

theorem Blank.nil : Blank [] := by simp [Blank]

theorem Blank.singleton {c : UInt8} (blank : isSpace c = true) : Blank [c] := by simpa [Blank] using blank

theorem dropWhile_lead {lead rest : Bytes} (blank : Blank lead) (head : ∀ c ∈ rest.head?, isSpace c = false) :
    (lead ++ rest).dropWhile isSpace = rest := by
  rw [List.dropWhile_append_of_pos blank]
  cases rest with
  | nil => rfl
  | cons c rest => rw [List.dropWhile_cons_of_neg (by simp [head c rfl])]

theorem rdropWhile_trail {front trail : Bytes} (blank : Blank trail) (last : ∀ c ∈ front.getLast?, isSpace c = false) :
    (front ++ trail).rdropWhile isSpace = front := by
  have blankReverse : Blank trail.reverse := fun c member => blank c (List.mem_reverse.mp member)
  have headReverse : ∀ c ∈ front.reverse.head?, isSpace c = false := by
    rw [List.head?_reverse]
    exact last
  rw [List.rdropWhile, List.reverse_append, dropWhile_lead blankReverse headReverse, List.reverse_reverse]

/-- Trimming takes away the whitespace around a text, and nothing of the text. -/
theorem trim_padded {lead core trail : Bytes} (leadBlank : Blank lead) (edges : PlainEdges core)
    (trailBlank : Blank trail) : trim (lead ++ (core ++ trail)) = core := by
  unfold trim
  cases core with
  | nil =>
    rw [List.nil_append, List.dropWhile_eq_nil_iff.mpr]
    · rfl
    · intro c member
      rcases List.mem_append.mp member with inLead | inTrail
      · exact leadBlank c inLead
      · exact trailBlank c inTrail
  | cons c core =>
    have head : ∀ d ∈ (c :: core ++ trail).head?, isSpace d = false := edges.1
    rw [dropWhile_lead leadBlank head, rdropWhile_trail trailBlank edges.2]

theorem trim_eq_self {value : Bytes} (edges : PlainEdges value) : trim value = value := by
  have padded : trim ([] ++ (value ++ [])) = value := trim_padded .nil edges .nil
  simpa using padded

theorem trim_trail {text trail : Bytes} (blank : Blank trail) : trim (text ++ trail) = trim text := by
  have dropTrail : ∀ front : Bytes, (front ++ trail).rdropWhile isSpace = front.rdropWhile isSpace := by
    intro front
    have blankReverse : ∀ c ∈ trail.reverse, isSpace c = true := fun c member => blank c (List.mem_reverse.mp member)
    rw [List.rdropWhile, List.reverse_append, List.dropWhile_append_of_pos blankReverse, ← List.rdropWhile]
  unfold trim
  rw [List.dropWhile_append]
  split
  · rename_i empty
    rw [List.isEmpty_iff.mp empty, List.dropWhile_eq_nil_iff.mpr blank]
  · rw [dropTrail]

theorem trim_blank {text : Bytes} (blank : Blank text) : trim text = [] := by
  have trimmed : trim ([] ++ text) = trim [] := trim_trail blank
  exact trimmed.trans rfl

/-- The first byte that is not whitespace stays the first. -/
theorem trim_lead {lead rest : Bytes} {c : UInt8} (blank : Blank lead) (plain : isSpace c = false) :
    (trim (lead ++ c :: rest)).head? = some c := by
  have head : ∀ d ∈ (c :: rest).head?, isSpace d = false := by
    intro d found
    cases found
    exact plain
  rw [trim, dropWhile_lead blank head]
  obtain ⟨trail, split⟩ : (c :: rest).rdropWhile isSpace <+: c :: rest := List.rdropWhile_prefix ..
  have nonempty : (c :: rest).rdropWhile isSpace ≠ [] := by
    intro empty
    have spaces := List.rdropWhile_eq_nil_iff.mp empty c (List.mem_cons_self ..)
    rw [plain] at spaces
    cases spaces
  rw [← List.head?_append_of_ne_nil _ nonempty, split, List.head?_cons]

theorem PlainEdges.of_mem {value : Bytes} (plain : ∀ c ∈ value, isSpace c = false) : PlainEdges value :=
  ⟨fun c head => plain c (List.mem_of_mem_head? head), fun c last => plain c (List.mem_of_getLast? last)⟩

theorem PlainEdges.singleton {c : UInt8} (plain : isSpace c = false) : PlainEdges [c] :=
  .of_mem (by simpa using plain)

/-- The edges of a text are plain if it starts and ends with plain ones. -/
theorem PlainEdges.append {left middle right : Bytes} (leftEdges : PlainEdges left) (leftNonempty : left ≠ [])
    (rightEdges : PlainEdges right) (rightNonempty : right ≠ []) : PlainEdges (left ++ middle ++ right) := by
  constructor
  · rw [List.append_assoc, List.head?_append_of_ne_nil _ leftNonempty]
    exact leftEdges.1
  · rw [List.getLast?_append_of_ne_nil _ rightNonempty]
    exact rightEdges.2

end TwitchBot
