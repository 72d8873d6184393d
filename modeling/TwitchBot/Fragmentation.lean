import TwitchBot.StreamAssembler

namespace TwitchBot

open Framing IrcStreamAssembler

/-- The bytes one `async_read_some` into the read buffer can deliver. -/
def readBufferBytes : Nat := 4096

theorem fits_append (s t : Bytes) :
    Fits (s ++ t) ↔ (∀ line ∈ (frames cr lf s).1, line.length ≤ maxIrcLineBytes) ∧
      Fits ((frames cr lf s).2 ++ t) := by
  simp only [Fits, frames_append s t, List.mem_append, or_imp, forall_and, and_assoc]

theorem Fits.tail {s : Bytes} (fits : Fits s) : (frames cr lf s).2.length ≤ maxIrcLineBytes := fits.2

/-- Pushing a chunk on the rest of a fitting stream leaves room in the buffer. -/
theorem room_of_fits {s chunk : Bytes} (fits : Fits s) (small : chunk.length ≤ readBufferBytes) :
    (frames cr lf s).2.length + chunk.length ≤ maxIrcBufferBytes := by
  have tail := fits.tail
  simp only [maxIrcLineBytes, readBufferBytes, maxIrcBufferBytes] at *
  omega

/-- The stream fits at every boundary of the chunks if it does behind the first
chunk and from there on. -/
theorem boundaries_cons {s chunk : Bytes} {chunks : List Bytes} (fits : Fits s) :
    (∀ before, before <+: chunk :: chunks → Fits (s ++ before.flatten)) ↔
      Fits (s ++ chunk) ∧ ∀ before, before <+: chunks → Fits (s ++ chunk ++ before.flatten) := by
  simp only [List.prefix_cons_iff]
  constructor
  · intro all
    exact ⟨by simpa using all [chunk] (Or.inr ⟨[], by simp⟩),
      fun before within => by simpa using all (chunk :: before) (Or.inr ⟨before, rfl, within⟩)⟩
  · rintro ⟨_, rest⟩ before (rfl | ⟨before, rfl, within⟩)
    · simpa using fits
    · simpa using rest before within

/-- After a fitting stream, a run of small chunks succeeds exactly when the
stream up to each chunk boundary fits, and then returns the remaining frames. -/
theorem pushAll_spec (chunks : List Bytes) : ∀ s : Bytes, Fits s →
    (∀ chunk ∈ chunks, chunk.length ≤ readBufferBytes) →
      ((∀ before, before <+: chunks → Fits (s ++ before.flatten)) →
        pushAll ⟨(frames cr lf s).2⟩ chunks =
          .ok ((frames cr lf ((frames cr lf s).2 ++ chunks.flatten)).1,
            ⟨(frames cr lf ((frames cr lf s).2 ++ chunks.flatten)).2⟩)) ∧
      (¬(∀ before, before <+: chunks → Fits (s ++ before.flatten)) →
        ∃ what, pushAll ⟨(frames cr lf s).2⟩ chunks = .error what) := by
  induction chunks with
  | nil =>
    intro s fits _
    constructor
    · intro _
      simp [pushAll, frames_tail_idem]
    · intro oversized
      exact absurd (by simpa using fits) oversized
  | cons chunk chunks ih =>
    intro s fits small
    obtain ⟨smallChunk, smallRest⟩ := List.forall_mem_cons.mp small
    have room := room_of_fits fits smallChunk
    have first : Fits (s ++ chunk) ↔ Fits ((frames cr lf s).2 ++ chunk) := by
      rw [fits_append]
      exact and_iff_right fits.1
    by_cases fitsChunk : Fits (s ++ chunk)
    · have pushed := push_fits ⟨(frames cr lf s).2⟩ room (first.mp fitsChunk)
      have tail : (frames cr lf ((frames cr lf s).2 ++ chunk)).2 = (frames cr lf (s ++ chunk)).2 := by
        rw [frames_append s chunk]
      rw [tail] at pushed
      obtain ⟨succeeds, throws⟩ := ih (s ++ chunk) fitsChunk smallRest
      rw [boundaries_cons fits]
      constructor
      · rintro ⟨_, rest⟩
        have whole := frames_append (a := cr) (b := lf) ((frames cr lf s).2 ++ chunk) chunks.flatten
        rw [tail] at whole
        simp only [pushAll, pushed, succeeds rest, List.flatten_cons, ← List.append_assoc, whole]
      · intro oversized
        obtain ⟨what, thrown⟩ := throws (fun rest => oversized ⟨fitsChunk, rest⟩)
        exact ⟨what, by simp only [pushAll, pushed, thrown]⟩
    · have thrown := push_throws ⟨(frames cr lf s).2⟩ room (fun fits => fitsChunk (first.mpr fits))
      rw [boundaries_cons fits]
      constructor
      · rintro ⟨fits, _⟩
        exact absurd fits fitsChunk
      · intro _
        refine ⟨"IRC line exceeded its maximum size", ?_⟩
        rw [pushAll]
        split
        · rename_i what _ pushed
          rw [pushed] at thrown
          cases thrown
          rfl
        · rename_i lines _ pushed
          rw [pushed] at thrown
          cases thrown

/-- A stream that ends between the CR and the LF of a line of exactly the
maximum size, if an LF comes next. -/
def EndsInFullLine (stream : Bytes) : Prop :=
  ∃ line, (frames cr lf stream).2 = line ++ [cr] ∧ line.length = maxIrcLineBytes

/-- Some chunk boundary falls between the CR and the LF that end a line of
exactly the maximum size. -/
def CutsFullLine (chunks : List Bytes) : Prop :=
  ∃ before after, chunks = before ++ after ∧ EndsInFullLine before.flatten ∧ after.flatten.head? = some lf

theorem EndsInFullLine.not_fits {s : Bytes} (ends : EndsInFullLine s) : ¬Fits s := by
  obtain ⟨line, tail, length⟩ := ends
  intro fits
  have bound := fits.tail
  simp only [tail, List.length_append, List.length_singleton, length] at bound
  omega

/-- A prefix of a fitting stream fails to fit only between the CR and the LF
of a full line: there the undelivered LF makes the CR count as content. -/
theorem endsInFullLine_of_not_fits {s t : Bytes} (whole : Fits (s ++ t)) (oversized : ¬Fits s) :
    EndsInFullLine s ∧ t.head? = some lf := by
  obtain ⟨lines, rest⟩ := (fits_append s t).mp whole
  have long : maxIrcLineBytes < (frames cr lf s).2.length := by
    by_contra short
    exact oversized ⟨lines, by omega⟩
  have absent := frames_tail_findPair (a := cr) (b := lf) s
  cases found : findPair cr lf ((frames cr lf s).2 ++ t) with
  | none =>
    have bound := (fits_of_findPair_none found).mp rest
    simp only [List.length_append] at bound
    omega
  | some d =>
    have bound := ((fits_of_findPair_some found).mp rest).1
    have reach := findPair_append_bound absent found
    have long' : (frames cr lf s).2.length = d + 1 := by omega
    have limit : d = maxIrcLineBytes := by omega
    have spec := findPair_spec found
    have within : d + 2 ≤ ((frames cr lf s).2 ++ t).length := findPair_lt found
    have taken : (((frames cr lf s).2 ++ t).take d).length = d := by
      simp only [List.length_take]
      omega
    have split : (frames cr lf s).2 ++ t =
        (((frames cr lf s).2 ++ t).take d ++ [cr]) ++ lf :: ((frames cr lf s).2 ++ t).drop (d + 2) := by
      simpa using spec
    obtain ⟨front, back⟩ := List.append_inj split (by
      rw [long', List.length_append, taken, List.length_singleton])
    exact ⟨⟨_, front, taken.trans limit⟩, by rw [back]; rfl⟩

/-- The chunks of a run on a fresh assembler, and whether one of them throws. -/
def Throws (chunks : List Bytes) : Prop := ∃ what, IrcStreamAssembler.empty.pushAll chunks = .error what

/-- The two runs behave alike: both throw or neither does, and when neither
throws the lines and the buffered bytes are the same. -/
def SameOutcome (chunks chunks' : List Bytes) : Prop :=
  (Throws chunks ↔ Throws chunks') ∧
    ∀ lines lines' assembler assembler',
      IrcStreamAssembler.empty.pushAll chunks = .ok (lines, assembler) →
      IrcStreamAssembler.empty.pushAll chunks' = .ok (lines', assembler') →
        lines = lines' ∧ assembler.buffer = assembler'.buffer

theorem fits_nil : Fits [] := by simp [Fits, frames]

theorem boundaries_fit_iff {chunks : List Bytes} :
    (∀ before, before <+: chunks → Fits before.flatten) ↔ Fits chunks.flatten ∧ ¬CutsFullLine chunks := by
  constructor
  · intro all
    refine ⟨all chunks List.prefix_rfl, ?_⟩
    rintro ⟨before, after, rfl, ends, _⟩
    exact ends.not_fits (all before (List.prefix_append before after))
  · rintro ⟨whole, uncut⟩ before ⟨after, rfl⟩
    by_contra oversized
    rw [List.flatten_append] at whole
    obtain ⟨ends, next⟩ := endsInFullLine_of_not_fits whole oversized
    exact uncut ⟨before, after, rfl, ends, next⟩

theorem pushAll_ok {chunks : List Bytes} (small : ∀ chunk ∈ chunks, chunk.length ≤ readBufferBytes)
    (whole : Fits chunks.flatten) (uncut : ¬CutsFullLine chunks) :
    IrcStreamAssembler.empty.pushAll chunks =
      .ok ((frames cr lf chunks.flatten).1, ⟨(frames cr lf chunks.flatten).2⟩) := by
  have spec := (pushAll_spec chunks [] fits_nil small).1
  simp only [List.nil_append, frames] at spec
  exact spec (boundaries_fit_iff.mpr ⟨whole, uncut⟩)

/-- A run of small chunks throws exactly on an oversized stream and on a
chunk boundary inside the delimiter of a full line. -/
theorem throws_iff {chunks : List Bytes} (small : ∀ chunk ∈ chunks, chunk.length ≤ readBufferBytes) :
    Throws chunks ↔ ¬Fits chunks.flatten ∨ CutsFullLine chunks := by
  constructor
  · rintro ⟨what, thrown⟩
    by_contra fine
    simp only [not_or, not_not] at fine
    rw [pushAll_ok small fine.1 fine.2] at thrown
    cases thrown
  · intro cause
    have spec := (pushAll_spec chunks [] fits_nil small).2
    simp only [List.nil_append, frames] at spec
    refine spec (fun all => ?_)
    obtain ⟨whole, uncut⟩ := boundaries_fit_iff.mp all
    exact cause.elim (fun oversized => oversized whole) uncut

/-- Two ways to cut one stream into chunks agree exactly when the stream is
oversized anyway or both or neither of them cut a full line inside its delimiter. -/
theorem fragmentation_iff {chunks chunks' : List Bytes}
    (small : ∀ chunk ∈ chunks, chunk.length ≤ readBufferBytes)
    (small' : ∀ chunk ∈ chunks', chunk.length ≤ readBufferBytes)
    (same : chunks.flatten = chunks'.flatten) :
    SameOutcome chunks chunks' ↔
      ¬Fits chunks.flatten ∨ (CutsFullLine chunks ↔ CutsFullLine chunks') := by
  rw [SameOutcome, throws_iff small, throws_iff small', ← same]
  constructor
  · rintro ⟨alike, _⟩
    tauto
  · intro alike
    refine ⟨by tauto, ?_⟩
    intro lines lines' assembler assembler' run run'
    have calm : ¬Throws chunks := by rintro ⟨what, thrown⟩; rw [run] at thrown; cases thrown
    have calm' : ¬Throws chunks' := by rintro ⟨what, thrown⟩; rw [run'] at thrown; cases thrown
    rw [throws_iff small, not_or, not_not] at calm
    rw [throws_iff small', not_or, not_not] at calm'
    rw [pushAll_ok small calm.1 calm.2] at run
    rw [pushAll_ok small' calm'.1 calm'.2, ← same] at run'
    cases run
    cases run'
    exact ⟨rfl, rfl⟩

theorem fragmentation_iff_split_delimiter :
    SameOutcome [bytes "a" ++ [cr], [lf]] [bytes "a" ++ [cr, lf]] ↔
      ¬Fits [bytes "a" ++ [cr], [lf]].flatten ∨
        (CutsFullLine [bytes "a" ++ [cr], [lf]] ↔ CutsFullLine [bytes "a" ++ [cr, lf]]) :=
  fragmentation_iff (by decide) (by decide) (by decide)

/-- A line in two reads of equal size, with its delimiter in further reads. -/
def lineReads (half : Nat) (delimiter : List Bytes) : List Bytes :=
  [List.replicate half 120, List.replicate half 120] ++ delimiter

theorem lineReads_small {half : Nat} {delimiter : List Bytes} (small : half ≤ readBufferBytes)
    (smallDelimiter : ∀ chunk ∈ delimiter, chunk.length ≤ readBufferBytes) :
    ∀ chunk ∈ lineReads half delimiter, chunk.length ≤ readBufferBytes := by
  simpa [lineReads, small] using smallDelimiter

theorem lineReads_flatten (half : Nat) (delimiter : List Bytes) :
    (lineReads half delimiter).flatten = List.replicate (half + half) 120 ++ delimiter.flatten := by
  simp only [lineReads, List.cons_append, List.nil_append, List.flatten_cons]
  rw [← List.append_assoc, List.replicate_append_replicate]

theorem lineReads_cut_throws {half : Nat} (full : half + half = maxIrcLineBytes)
    (small : half ≤ readBufferBytes) : Throws (lineReads half [[cr], [lf]]) := by
  refine (throws_iff (lineReads_small small (by decide))).mpr (Or.inr ?_)
  refine ⟨lineReads half [[cr]], [[lf]], by simp [lineReads], ?_, rfl⟩
  have absent : findPair cr lf (lineReads half [[cr]]).flatten = none :=
    findPair_of_notMem (by simp [lineReads_flatten, lf, cr])
  refine ⟨List.replicate (half + half) 120, ?_, by simp [full]⟩
  rw [frames_of_findPair_none absent, lineReads_flatten]
  rfl

theorem lineReads_whole_calm {half : Nat} (full : half + half = maxIrcLineBytes)
    (small : half ≤ readBufferBytes) : ¬Throws (lineReads half [[cr, lf]]) := by
  rw [throws_iff (lineReads_small small (by decide))]
  rintro (oversized | ⟨before, after, split, _, head⟩)
  · have found := findPair_cut (a := cr) (b := lf) (s := List.replicate (half + half) 120) (by simp [lf]) []
    rw [lineReads_flatten, show [[cr, lf]].flatten = [cr, lf] from rfl, fits_of_findPair_some found] at oversized
    have rest : (List.replicate (half + half) 120 ++ [cr, lf]).drop
        ((List.replicate (half + half) (120 : UInt8)).length + 2) = [] := by simp
    exact oversized ⟨by simp [full], by rw [rest]; exact fits_nil⟩
  · have suffix : after <:+ lineReads half [[cr, lf]] := ⟨before, split.symm⟩
    have positive : half ≠ 0 := by
      rintro rfl
      cases full
    obtain ⟨half, rfl⟩ := Nat.exists_eq_succ_of_ne_zero positive
    simp only [lineReads, List.cons_append, List.nil_append, List.suffix_cons_iff,
      List.suffix_nil] at suffix
    rcases suffix with rfl | rfl | rfl | rfl
    all_goals simp [cr, lf, List.replicate_succ] at head

/-- The line of exactly 8192 bytes arrives when its CR and LF come in one
read, and ends the connection when they come in two. -/
theorem fragmentation_fails :
    (∀ chunk ∈ lineReads 4096 [[cr], [lf]], chunk.length ≤ readBufferBytes) ∧
      (∀ chunk ∈ lineReads 4096 [[cr, lf]], chunk.length ≤ readBufferBytes) ∧
      (lineReads 4096 [[cr], [lf]]).flatten = (lineReads 4096 [[cr, lf]]).flatten ∧
      ¬SameOutcome (lineReads 4096 [[cr], [lf]]) (lineReads 4096 [[cr, lf]]) := by
  refine ⟨lineReads_small le_rfl (by decide), lineReads_small le_rfl (by decide), ?_, ?_⟩
  · rw [lineReads_flatten, lineReads_flatten]
    rfl
  · intro alike
    exact lineReads_whole_calm rfl le_rfl (alike.1.mp (lineReads_cut_throws rfl le_rfl))

end TwitchBot
