import TwitchBot.Fragmentation

namespace TwitchBot

open Framing IrcStreamAssembler

theorem crlf_infix_iff {s : Bytes} : crlf <:+: s ↔ findPair cr lf s ≠ none := by
  rw [Ne, findPair_eq_none_iff, not_not]
  rfl

theorem bytes_of_frames (s : Bytes) :
    ((frames cr lf s).1.map (· ++ crlf)).flatten ++ (frames cr lf s).2 = s :=
  frames_flatten s

namespace IrcStreamAssembler

/-- A push that does not throw has framed the buffer together with the chunk. -/
theorem push_framed {assembler next : IrcStreamAssembler} {chunk : Bytes} {lines : List Bytes}
    (pushed : assembler.push chunk = (.ok lines, next)) :
    Fits (assembler.buffer ++ chunk) ∧ frames cr lf (assembler.buffer ++ chunk) = (lines, next.buffer) := by
  by_cases room : assembler.buffer.length + chunk.length ≤ maxIrcBufferBytes
  · by_cases fits : Fits (assembler.buffer ++ chunk)
    · rw [push_fits assembler room fits] at pushed
      cases pushed
      exact ⟨fits, rfl⟩
    · have thrown := push_throws assembler room fits
      rw [pushed] at thrown
      cases thrown
  · rw [push, if_pos (Nat.lt_of_not_le room)] at pushed
    cases pushed

/-- The buffer check passes for what fits beside the assembler's own bytes. -/
theorem push_room {assembler : IrcStreamAssembler} {chunk : Bytes}
    (room : assembler.buffer.length + chunk.length ≤ maxIrcBufferBytes) :
    (assembler.push chunk).1 ≠ .error "IRC receive buffer exceeded its maximum size" := by
  by_cases fits : Fits (assembler.buffer ++ chunk)
  · rw [push_fits assembler room fits]
    nofun
  · rw [push_throws assembler room fits]
    decide

end IrcStreamAssembler

/-- A run of pushes of any size that does not throw has framed the buffer
together with all its chunks. -/
theorem pushAll_framed {assembler next : IrcStreamAssembler} {chunks lines : List Bytes}
    (quiet : findPair cr lf assembler.buffer = none) (short : assembler.buffer.length ≤ maxIrcLineBytes)
    (run : assembler.pushAll chunks = .ok (lines, next)) :
    Fits (assembler.buffer ++ chunks.flatten) ∧
      frames cr lf (assembler.buffer ++ chunks.flatten) = (lines, next.buffer) := by
  induction chunks generalizing assembler lines with
  | nil =>
    cases run
    rw [List.flatten_nil, List.append_nil, fits_of_findPair_none quiet]
    exact ⟨short, frames_of_findPair_none quiet⟩
  | cons chunk chunks ih =>
    rw [pushAll] at run
    split at run
    · cases run
    · rename_i first middle pushed
      split at run
      · cases run
      · rename_i later last rest
        cases run
        obtain ⟨fits, framed⟩ := push_framed pushed
        have quiet' := frames_tail_findPair (a := cr) (b := lf) (assembler.buffer ++ chunk)
        have short' := fits.tail
        rw [framed] at quiet' short'
        obtain ⟨fitsRest, framedRest⟩ := ih quiet' short' rest
        rw [List.flatten_cons, ← List.append_assoc]
        constructor
        · rw [fits_append, framed]
          exact ⟨by simpa only [framed] using fits.1, fitsRest⟩
        · rw [frames_append, framed, framedRest]

/-- What a run of pushes on a fresh assembler has returned and kept accounts
for every byte of its chunks and stays within the limits. -/
structure Conserves (chunks lines : List Bytes) (assembler : IrcStreamAssembler) : Prop where
  whole : (lines.map (· ++ crlf)).flatten ++ assembler.buffer = chunks.flatten
  line_free : ∀ line ∈ lines, ¬crlf <:+: line
  buffer_free : ¬crlf <:+: assembler.buffer
  line_short : ∀ line ∈ lines, line.length ≤ maxIrcLineBytes
  buffer_short : assembler.bufferedBytes ≤ maxIrcLineBytes

theorem conserves_of_framed {chunks lines : List Bytes} {assembler : IrcStreamAssembler}
    (fits : Fits chunks.flatten) (framed : frames cr lf chunks.flatten = (lines, assembler.buffer)) :
    Conserves chunks lines assembler := by
  have whole := bytes_of_frames chunks.flatten
  have quiet := frames_tail_findPair (a := cr) (b := lf) chunks.flatten
  rw [framed] at whole quiet
  rw [Fits, framed] at fits
  refine ⟨whole, ?_, ?_, fits.1, fits.2⟩
  · intro line member
    have free : findPair cr lf line = none := frames_findPair (by rw [framed]; exact member)
    rw [crlf_infix_iff, free]
    simp
  · rw [crlf_infix_iff, quiet]
    simp

theorem pushAll_prefix {assembler next : IrcStreamAssembler} {before after lines : List Bytes}
    (run : assembler.pushAll (before ++ after) = .ok (lines, next)) :
    ∃ first middle, assembler.pushAll before = .ok (first, middle) := by
  induction before generalizing assembler lines with
  | nil => exact ⟨[], assembler, rfl⟩
  | cons chunk before ih =>
    rw [List.cons_append, pushAll] at run
    split at run
    · cases run
    · rename_i pushed _ pushes
      split at run
      · cases run
      · rename_i later last rest
        cases run
        obtain ⟨first, middle, ran⟩ := ih rest
        exact ⟨pushed ++ first, middle, by simp only [pushAll, pushes, ran]⟩

/-- Whatever the chunks, a run that does not throw conserves the stream after
each of its calls, and leaves room for any further chunk of up to 57344 bytes. -/
theorem stream_conserved {chunks lines : List Bytes} {assembler : IrcStreamAssembler}
    (run : IrcStreamAssembler.empty.pushAll chunks = .ok (lines, assembler)) :
    Conserves chunks lines assembler ∧
      ∀ before, before <+: chunks → ∃ first middle,
        IrcStreamAssembler.empty.pushAll before = .ok (first, middle) ∧ Conserves before first middle ∧
          ∀ chunk, chunk.length ≤ 57344 →
            (middle.push chunk).1 ≠ .error "IRC receive buffer exceeded its maximum size" := by
  have conserves : ∀ {chunks lines assembler},
      IrcStreamAssembler.empty.pushAll chunks = .ok (lines, assembler) → Conserves chunks lines assembler := by
    intro chunks lines assembler ran
    obtain ⟨fits, framed⟩ := pushAll_framed (by rfl) (by decide) ran
    exact conserves_of_framed fits framed
  refine ⟨conserves run, ?_⟩
  rintro before ⟨after, rfl⟩
  obtain ⟨first, middle, ran⟩ := pushAll_prefix run
  have kept := conserves ran
  refine ⟨first, middle, ran, kept, ?_⟩
  intro chunk small
  have short : middle.buffer.length ≤ 8192 := kept.buffer_short
  refine push_room ?_
  calc middle.buffer.length + chunk.length ≤ 8192 + 57344 := by omega
    _ = maxIrcBufferBytes := rfl

theorem stream_conserved_cut :
    Conserves [bytes "a" ++ [cr], [lf] ++ bytes "b" ++ [lf]] [bytes "a"] ⟨bytes "b" ++ [lf]⟩ := by
  have first : IrcStreamAssembler.empty.push (bytes "a" ++ [cr]) = (.ok [], ⟨bytes "a" ++ [cr]⟩) :=
    push_fits IrcStreamAssembler.empty (by decide) (by decide)
  have second : IrcStreamAssembler.push ⟨bytes "a" ++ [cr]⟩ ([lf] ++ bytes "b" ++ [lf]) =
      (.ok [bytes "a"], ⟨bytes "b" ++ [lf]⟩) :=
    push_fits ⟨bytes "a" ++ [cr]⟩ (by decide) (by decide)
  have run : IrcStreamAssembler.empty.pushAll [bytes "a" ++ [cr], [lf] ++ bytes "b" ++ [lf]] =
      .ok ([bytes "a"], ⟨bytes "b" ++ [lf]⟩) := by
    simp only [pushAll, first, second, List.nil_append, List.append_nil]
  exact (stream_conserved run).1

/-- A full line whose delimiter was cut by a chunk boundary is one of the
frames of the whole stream. -/
theorem EndsInFullLine.framed {s t : Bytes} (ends : EndsInFullLine s) (next : t.head? = some lf) :
    ∃ line ∈ (frames cr lf (s ++ t)).1, line.length = maxIrcLineBytes := by
  obtain ⟨line, tail, full⟩ := ends
  have quiet := frames_tail_findPair (a := cr) (b := lf) s
  rw [tail] at quiet
  cases t with
  | nil => cases next
  | cons c t =>
    cases Option.some.inj next
    have found := findPair_behind quiet t
    refine ⟨line, ?_, full⟩
    rw [frames_append, tail, List.append_assoc]
    simp only [List.singleton_append]
    rw [frames_of_findPair_some found, List.take_left]
    exact List.mem_append_right _ List.mem_cons_self

/-- The encodings of accepted payloads, joined, have the payloads as frames. -/
theorem frames_of_encodings {payloads encodings : List Bytes}
    (encoded : List.Forall₂ (fun payload data => encodeIrcLine payload = .ok data) payloads encodings) :
    frames cr lf encodings.flatten = (payloads, []) ∧
      ∀ payload ∈ payloads, payload.length ≤ maxOutgoingPayloadBytes := by
  have parts : encodings = payloads.map (· ++ [cr, lf]) ∧
      ∀ payload ∈ payloads, lf ∉ payload ∧ payload.length ≤ maxOutgoingPayloadBytes := by
    induction encoded with
    | nil => simp
    | cons accepted _ ih =>
      obtain ⟨_, _, noLf, short, rfl⟩ := encodeIrcLine_ok_iff.mp accepted
      obtain ⟨rfl, rest⟩ := ih
      exact ⟨rfl, List.forall_mem_cons.mpr ⟨⟨noLf, short⟩, rest⟩⟩
  obtain ⟨rfl, each⟩ := parts
  exact ⟨frames_join (fun payload member => (each payload member).1),
    fun payload member => (each payload member).2⟩

/-- What the encoder accepts comes back from the assembler, however the
stream is cut into reads. -/
theorem encode_push_round_trip {payloads encodings chunks : List Bytes}
    (encoded : List.Forall₂ (fun payload data => encodeIrcLine payload = .ok data) payloads encodings)
    (small : ∀ chunk ∈ chunks, chunk.length ≤ 4096) (partition : chunks.flatten = encodings.flatten) :
    IrcStreamAssembler.empty.pushAll chunks = .ok (payloads, IrcStreamAssembler.empty) := by
  obtain ⟨framed, short⟩ := frames_of_encodings encoded
  rw [← partition] at framed
  have limit : ∀ payload ∈ payloads, payload.length < maxIrcLineBytes := by
    intro payload member
    exact Nat.lt_of_le_of_lt (short payload member) (by decide)
  have whole : Fits chunks.flatten := by
    rw [Fits, framed]
    exact ⟨fun payload member => (limit payload member).le, Nat.zero_le _⟩
  have uncut : ¬CutsFullLine chunks := by
    rintro ⟨before, after, rfl, ends, next⟩
    obtain ⟨line, member, full⟩ := ends.framed next
    rw [← List.flatten_append, framed] at member
    have bound := limit line member
    omega
  rw [pushAll_ok small whole uncut, framed]
  rfl

theorem encode_push_round_trip_cut :
    IrcStreamAssembler.empty.pushAll [bytes "PONG a" ++ [cr], [lf] ++ bytes "N", bytes "ICK b" ++ crlf] =
      .ok ([bytes "PONG a", bytes "NICK b"], IrcStreamAssembler.empty) :=
  encode_push_round_trip (.cons rfl (.cons rfl .nil)) (by decide) (by decide)

end TwitchBot
