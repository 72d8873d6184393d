import TwitchBot.Irc
import TwitchBot.Library.Framing

namespace TwitchBot

open Framing

structure IrcStreamAssembler where
  buffer : Bytes
  deriving DecidableEq

namespace IrcStreamAssembler

def empty : IrcStreamAssembler := ⟨[]⟩

/-- The loop of `push`: returns the lines, or throws, and leaves what it has
not erased in the buffer. -/
def drain (buffer : Bytes) (lines : List Bytes) : Except String (List Bytes) × Bytes :=
  match _found : findPair cr lf buffer with
  | none =>
    if buffer.length > maxIrcLineBytes then (.error "IRC line exceeded its maximum size", buffer)
    else (.ok lines, buffer)
  | some delimiter =>
    if delimiter > maxIrcLineBytes then (.error "IRC line exceeded its maximum size", buffer)
    else drain (buffer.drop (delimiter + 2)) (lines ++ [buffer.take delimiter])
  termination_by buffer.length
  decreasing_by
    have bound := findPair_lt _found
    simp only [List.length_drop]
    omega

def push (assembler : IrcStreamAssembler) (chunk : Bytes) :
    Except String (List Bytes) × IrcStreamAssembler :=
  if assembler.buffer.length + chunk.length > maxIrcBufferBytes then
    (.error "IRC receive buffer exceeded its maximum size", assembler)
  else
    let (result, buffer) := drain (assembler.buffer ++ chunk) []
    (result, ⟨buffer⟩)

def reset (_ : IrcStreamAssembler) : IrcStreamAssembler := empty

def bufferedBytes (assembler : IrcStreamAssembler) : Nat := assembler.buffer.length

/-- Pushes chunks one by one until one of them throws; returns all lines and
the assembler behind the last chunk. -/
def pushAll (assembler : IrcStreamAssembler) :
    List Bytes → Except String (List Bytes × IrcStreamAssembler)
  | [] => .ok ([], assembler)
  | chunk :: chunks =>
    match assembler.push chunk with
    | (.error what, _) => .error what
    | (.ok lines, assembler) =>
      match assembler.pushAll chunks with
      | .error what => .error what
      | .ok (rest, assembler) => .ok (lines ++ rest, assembler)

end IrcStreamAssembler

/-- A stream whose lines and unfinished rest respect the line limit. -/
def Fits (stream : Bytes) : Prop :=
  (∀ line ∈ (frames cr lf stream).1, line.length ≤ maxIrcLineBytes) ∧
    (frames cr lf stream).2.length ≤ maxIrcLineBytes

instance (stream : Bytes) : Decidable (Fits stream) := inferInstanceAs (Decidable (_ ∧ _))

theorem fits_of_findPair_none {buffer : Bytes} (absent : findPair cr lf buffer = none) :
    Fits buffer ↔ buffer.length ≤ maxIrcLineBytes := by
  simp [Fits, frames_of_findPair_none absent]

theorem fits_of_findPair_some {buffer : Bytes} {d : Nat} (found : findPair cr lf buffer = some d) :
    Fits buffer ↔ d ≤ maxIrcLineBytes ∧ Fits (buffer.drop (d + 2)) := by
  have bound := findPair_lt found
  have length : (buffer.take d).length = d := by simp only [List.length_take]; omega
  simp only [Fits, frames_of_findPair_some found, List.forall_mem_cons, length, and_assoc]

namespace IrcStreamAssembler

/-- The loop returns the frames of a buffer that fits. -/
theorem drain_fits (buffer : Bytes) (lines : List Bytes) (fits : Fits buffer) :
    drain buffer lines = (.ok (lines ++ (frames cr lf buffer).1), (frames cr lf buffer).2) := by
  induction buffer, lines using drain.induct with
  | case1 buffer lines absent oversized =>
    rw [fits_of_findPair_none absent] at fits
    omega
  | case2 buffer lines absent short =>
    rw [drain]
    split
    · rw [if_neg short, frames_of_findPair_none absent, List.append_nil]
    · rename_i found
      rw [absent] at found
      cases found
  | case3 buffer lines d found oversized =>
    rw [fits_of_findPair_some found] at fits
    omega
  | case4 buffer lines d found short ih =>
    rw [fits_of_findPair_some found] at fits
    rw [drain]
    split
    · rename_i absent
      rw [found] at absent
      cases absent
    · rename_i e again
      cases Option.some.inj (found.symm.trans again)
      rw [if_neg short, ih fits.2, frames_of_findPair_some found]
      simp

/-- The loop throws on a buffer that does not fit. -/
theorem drain_throws (buffer : Bytes) (lines : List Bytes) (oversized : ¬Fits buffer) :
    (drain buffer lines).1 = .error "IRC line exceeded its maximum size" := by
  induction buffer, lines using drain.induct with
  | case1 buffer lines absent long =>
    rw [drain]
    split
    · rw [if_pos long]
    · rename_i found
      rw [absent] at found
      cases found
  | case2 buffer lines absent short =>
    rw [fits_of_findPair_none absent] at oversized
    omega
  | case3 buffer lines d found long =>
    rw [drain]
    split
    · rename_i absent
      rw [found] at absent
      cases absent
    · rename_i e again
      cases Option.some.inj (found.symm.trans again)
      rw [if_pos long]
  | case4 buffer lines d found short ih =>
    rw [fits_of_findPair_some found] at oversized
    rw [drain]
    split
    · rename_i absent
      rw [found] at absent
      cases absent
    · rename_i e again
      cases Option.some.inj (found.symm.trans again)
      rw [if_neg short]
      exact ih (fun fits => oversized ⟨by omega, fits⟩)

/-- A push within the buffer limit frames the buffer together with the chunk,
and throws if a line or the rest is too long. -/
theorem push_fits (assembler : IrcStreamAssembler) {chunk : Bytes}
    (room : assembler.buffer.length + chunk.length ≤ maxIrcBufferBytes)
    (fits : Fits (assembler.buffer ++ chunk)) :
    assembler.push chunk = (.ok (frames cr lf (assembler.buffer ++ chunk)).1,
      ⟨(frames cr lf (assembler.buffer ++ chunk)).2⟩) := by
  rw [push, if_neg (Nat.not_lt.mpr room), drain_fits _ _ fits]
  simp

theorem push_throws (assembler : IrcStreamAssembler) {chunk : Bytes}
    (room : assembler.buffer.length + chunk.length ≤ maxIrcBufferBytes)
    (oversized : ¬Fits (assembler.buffer ++ chunk)) :
    (assembler.push chunk).1 = .error "IRC line exceeded its maximum size" := by
  rw [push, if_neg (Nat.not_lt.mpr room)]
  exact drain_throws _ _ oversized

end IrcStreamAssembler

end TwitchBot
