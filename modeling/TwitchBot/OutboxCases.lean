import TwitchBot.Outbox

namespace TwitchBot

open Outbox

/-- A limiter behind queries made at one time. -/
inductive Queried (now : Time) (limiter : RateLimiter) : RateLimiter → Prop
  | refl : Queried now limiter limiter
  | query {pruned : RateLimiter} (kind : OutboundKind) (channel : Bytes) :
    Queried now limiter pruned → Queried now limiter (pruned.nextAllowed kind channel now).2

theorem Queried.allowedAt {now : Time} {limiter pruned : RateLimiter} (queried : Queried now limiter pruned)
    (kind : OutboundKind) (channel : Bytes) :
    pruned.allowedAt kind channel now = limiter.allowedAt kind channel now := by
  induction queried with
  | refl => rfl
  | query _ _ _ ih => rw [RateLimiter.nextAllowed_allowedAt, ih]

/-- The time from which a message may be written. -/
def eligibleTime (limiter : RateLimiter) (now : Time) (message : OutboundMessage) : Time :=
  max message.due (limiter.allowedAt message.kind message.channel now)

/-- A message is due and the limiter permits it. -/
def Eligible (limiter : RateLimiter) (message : OutboundMessage) (now : Time) : Prop :=
  message.due ≤ now ∧ limiter.allowedAt message.kind message.channel now ≤ now

theorem eligibleTime_le_iff {limiter : RateLimiter} {message : OutboundMessage} {now : Time} :
    eligibleTime limiter now message ≤ now ↔ Eligible limiter message now := max_le_iff

/-- Queries leave the eligibility of a message at their time. -/
theorem Queried.eligible_iff {now : Time} {limiter pruned : RateLimiter} (queried : Queried now limiter pruned)
    (message : OutboundMessage) : Eligible pruned message now ↔ eligibleTime limiter now message ≤ now := by
  rw [eligibleTime_le_iff, Eligible, queried.allowedAt, Eligible]

/-- A message is not eligible before its time. -/
theorem eligibleTime_le {limiter : RateLimiter} {message : OutboundMessage} {next : Time}
    (eligible : Eligible limiter message next) (now : Time) :
    eligibleTime limiter now message ≤ max now next :=
  max_le (eligible.1.trans (le_max_right _ _)) (RateLimiter.allowedAt_le eligible.2 now)

/-- What the loop of `schedule_write` has found among the messages it has seen. -/
structure Selects (limiter : RateLimiter) (now : Time) (messages : List OutboundMessage)
    (selected : Selection) : Prop where
  at_index : messages[selected.index]? = some selected.message
  time : selected.time = eligibleTime limiter now selected.message
  least : ∀ message ∈ messages, selected.time ≤ eligibleTime limiter now message
  first : ∀ message ∈ messages, selected.time = eligibleTime limiter now message →
    selected.message.sequence ≤ message.sequence

namespace Outbox

theorem writeTime_eq {now : Time} {limiter pruned : RateLimiter} (queried : Queried now limiter pruned)
    (message : OutboundMessage) :
    (writeTime pruned message now).1 = eligibleTime limiter now message := by
  rw [eligibleTime, ← queried.allowedAt]
  rfl

theorem writeTime_queried {now : Time} {limiter pruned : RateLimiter} (queried : Queried now limiter pruned)
    (message : OutboundMessage) : Queried now limiter (writeTime pruned message now).2 :=
  queried.query message.kind message.channel

theorem selectLoop_selects {now : Time} {limiter pruned : RateLimiter} {seen : List OutboundMessage}
    {selected : Selection} (queried : Queried now limiter pruned) (selects : Selects limiter now seen selected)
    (rest : List OutboundMessage) :
    Selects limiter now (seen ++ rest) (selectLoop now pruned selected seen.length rest).1 ∧
      Queried now limiter (selectLoop now pruned selected seen.length rest).2 := by
  induction rest generalizing seen pruned selected with
  | nil => simpa [selectLoop] using ⟨selects, queried⟩
  | cons message rest ih =>
    have step : Selects limiter now (seen ++ [message])
        (if selected.isBeaten message (writeTime pruned message now).1
          then ⟨seen.length, message, (writeTime pruned message now).1⟩ else selected) := by
      split
      · rename_i beaten
        simp only [Selection.isBeaten, Bool.or_eq_true, Bool.and_eq_true, decide_eq_true_eq] at beaten
        have lower : (writeTime pruned message now).1 ≤ selected.time :=
          beaten.elim (fun less => less.le) (fun tie => tie.1.le)
        refine ⟨by simp, writeTime_eq queried message, ?_, ?_⟩
        · intro other member
          rcases List.mem_append.mp member with old | new
          · exact lower.trans (selects.least other old)
          · rw [List.mem_singleton.mp new, writeTime_eq queried]
        · intro other member same
          rcases List.mem_append.mp member with old | new
          · have least := selects.least other old
            rcases beaten with less | ⟨_, smaller⟩
            · exact absurd (same.ge.trans_lt less) (not_lt.mpr least)
            · exact smaller.le.trans (selects.first other old (le_antisymm least (same.ge.trans lower)))
          · rw [List.mem_singleton.mp new]
      · rename_i unbeaten
        obtain ⟨bound, _⟩ := List.getElem?_eq_some_iff.mp selects.at_index
        simp only [Selection.isBeaten, Bool.or_eq_true, Bool.and_eq_true, decide_eq_true_eq, not_or, not_and,
          not_lt] at unbeaten
        refine ⟨by rw [List.getElem?_append_left bound]; exact selects.at_index, selects.time, ?_, ?_⟩
        · intro other member
          rcases List.mem_append.mp member with old | new
          · exact selects.least other old
          · rw [List.mem_singleton.mp new, ← writeTime_eq queried]
            exact unbeaten.1
        · intro other member same
          rcases List.mem_append.mp member with old | new
          · exact selects.first other old same
          · rw [List.mem_singleton.mp new] at same ⊢
            exact unbeaten.2 ((writeTime_eq queried message).trans same.symm)
    have result := ih (writeTime_queried queried message) step
    rw [List.append_assoc, List.length_append] at result
    exact result

/-- The loop selects the first message of the queue among those with the least time. -/
theorem select_selects (limiter : RateLimiter) (first : OutboundMessage) (rest : List OutboundMessage)
    (now : Time) : Selects limiter now (first :: rest) (select limiter first rest now).1 ∧
      Queried now limiter (select limiter first rest now).2 := by
  have selects : Selects limiter now [first] ⟨0, first, (writeTime limiter first now).1⟩ := by
    refine ⟨rfl, writeTime_eq Queried.refl first, ?_, ?_⟩
    · intro message member
      rw [List.mem_singleton.mp member]
      exact (writeTime_eq Queried.refl first).le
    · intro message member _
      rw [List.mem_singleton.mp member]
  exact selectLoop_selects (writeTime_queried Queried.refl first) selects rest

/-- Everything `schedule_write` can do. -/
theorem scheduleWrite_cases (outbox : Outbox) :
    (outbox.scheduleWrite = outbox ∧
        (outbox.closed = true ∨ outbox.writeInProgress = true ∨ outbox.outbound = [])) ∨
      (outbox.closed = false ∧ outbox.writeInProgress = false ∧
        ∃ selected limiter, Selects outbox.limiter outbox.now outbox.outbound selected ∧
          Queried outbox.now outbox.limiter limiter ∧
          ((outbox.now < selected.time ∧
              outbox.scheduleWrite = { outbox.tick with limiter := limiter }.armWriteTimer selected.time) ∨
            (selected.time ≤ outbox.now ∧
              outbox.scheduleWrite = { outbox.tick with limiter := limiter }.startWrite selected outbox.now))) := by
  unfold scheduleWrite
  split
  · rename_i busy
    simp only [Bool.or_eq_true] at busy
    exact Or.inl ⟨rfl, by tauto⟩
  · rename_i idle
    simp only [Bool.or_eq_true, not_or, Bool.not_eq_true] at idle
    split
    · rename_i empty
      exact Or.inl ⟨rfl, Or.inr (Or.inr empty)⟩
    · rename_i first rest queue
      obtain ⟨selects, queried⟩ := select_selects outbox.limiter first rest outbox.now
      rw [← queue] at selects
      refine Or.inr ⟨idle.1, idle.2, _, _, selects, queried, ?_⟩
      by_cases later : (select outbox.limiter first rest outbox.now).1.time > outbox.now
      · exact Or.inl ⟨later, if_pos later⟩
      · exact Or.inr ⟨not_lt.mp later, if_neg later⟩

theorem finish_of_closed {outbox : Outbox} (closed : outbox.closed = true) (reason : SessionEndReason)
    (message : Bytes) : outbox.finish reason message = outbox := if_pos closed

theorem scheduleWrite_of_closed {outbox : Outbox} (closed : outbox.closed = true) :
    outbox.scheduleWrite = outbox := by
  simp [scheduleWrite, closed]

theorem enqueue_of_closed {outbox : Outbox} (closed : outbox.closed = true) (message : OutboundMessage) :
    outbox.enqueue message = outbox := if_pos closed

/-- The outbox once the completed write of its message is recorded. -/
def recorded (outbox : Outbox) (message : OutboundMessage) : Outbox :=
  { outbox.tick with
    limiter := outbox.limiter.record message.kind message.channel outbox.now
    currentWrite := none
    writeInProgress := false }.emit (.wrote message outbox.now)

theorem onWritten_of_current {outbox : Outbox} {message : OutboundMessage}
    (current : outbox.currentWrite = some message) : outbox.onWritten = (outbox.recorded message).scheduleWrite := by
  rw [onWritten, current]
  rfl

/-- Everything `enqueue` can do. -/
theorem enqueue_cases (outbox : Outbox) (message : OutboundMessage) :
    (outbox.closed = true ∧ outbox.enqueue message = outbox) ∨
      (outbox.closed = false ∧ maxOutboundQueue ≤ outbox.outbound.length ∧ message.kind = .chat ∧
        outbox.enqueue message = outbox.emit (.dropped message outbox.outbound.length)) ∨
      (outbox.closed = false ∧ maxOutboundQueue ≤ outbox.outbound.length ∧ message.kind ≠ .chat ∧
        outbox.enqueue message = outbox.finish .networkError (bytes "Outbound queue exhausted")) ∨
      (outbox.closed = false ∧ outbox.outbound.length < maxOutboundQueue ∧
        outbox.enqueue message =
          ({ outbox with outbound := outbox.outbound ++ [message] }.emit (.accepted message)).scheduleWrite) := by
  unfold enqueue
  split
  · rename_i closed
    exact Or.inl ⟨closed, rfl⟩
  · rename_i isOpen
    rw [Bool.not_eq_true] at isOpen
    split
    · rename_i full
      split
      · rename_i chat
        exact Or.inr (Or.inl ⟨isOpen, full, chat, rfl⟩)
      · rename_i other
        exact Or.inr (Or.inr (Or.inl ⟨isOpen, full, other, rfl⟩))
    · rename_i room
      exact Or.inr (Or.inr (Or.inr ⟨isOpen, not_le.mp room, rfl⟩))

/-- An outbox that a message leaves open has accepted the message or reports it as dropped. -/
theorem enqueue_of_open {outbox : Outbox} {message : OutboundMessage} (isOpen : outbox.closed = false)
    (stillOpen : (outbox.enqueue message).closed = false) :
    outbox.enqueue message =
        ({ outbox with outbound := outbox.outbound ++ [message] }.emit (.accepted message)).scheduleWrite ∨
      outbox.enqueue message = outbox.emit (.dropped message outbox.outbound.length) := by
  rcases enqueue_cases outbox message with ⟨closed, _⟩ | ⟨_, _, _, dropped⟩ | ⟨_, _, _, ended⟩ |
    ⟨_, _, accepted⟩
  · rw [isOpen] at closed
    cases closed
  · exact Or.inr dropped
  · rw [ended, finish, isOpen] at stillOpen
    cases stillOpen
  · exact Or.inl accepted

end Outbox

end TwitchBot
