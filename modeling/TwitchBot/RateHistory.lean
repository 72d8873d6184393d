import TwitchBot.OutboxCases

namespace TwitchBot

open SlidingWindow

/-- Successful writes with the times of their completion. -/
abbrev History := List (OutboundMessage × Time)

def Effect.sent : Effect → Option (OutboundMessage × Time)
  | .wrote message sentAt => some (message, sentAt)
  | _ => none

def sentWrites (trace : List Effect) : History := trace.filterMap Effect.sent

/-- The completion times of the writes of one kind. -/
def kindTimes (kind : OutboundKind) (history : History) : List Time :=
  (history.filter (fun write => write.1.kind = kind)).map (·.2)

/-- The completion times of the chat writes on one channel. -/
def channelTimes (channel : Bytes) (history : History) : List Time :=
  (history.filter (fun write => write.1.kind = .chat ∧ write.1.channel = channel)).map (·.2)

theorem sentWrites_append (earlier later : List Effect) :
    sentWrites (earlier ++ later) = sentWrites earlier ++ sentWrites later := List.filterMap_append

theorem kindTimes_concat (kind : OutboundKind) (history : History) (message : OutboundMessage) (time : Time) :
    kindTimes kind (history ++ [(message, time)]) =
      kindTimes kind history ++ if message.kind = kind then [time] else [] := by
  by_cases same : message.kind = kind <;> simp [kindTimes, same]

theorem channelTimes_concat (channel : Bytes) (history : History) (message : OutboundMessage) (time : Time) :
    channelTimes channel (history ++ [(message, time)]) =
      channelTimes channel history ++
        if message.kind = .chat ∧ message.channel = channel then [time] else [] := by
  by_cases same : message.kind = .chat ∧ message.channel = channel
  · simp [channelTimes, same]
  · rw [if_neg same]
    simp only [channelTimes, List.filter_append, List.map_append, List.append_cancel_left_eq]
    simpa using same

/-- The limiter knows what matters of a history that keeps the limits. -/
structure Limits (history : History) (limiter : RateLimiter) (now : Time) : Prop where
  chat : Tracks maxWindowMessages chatWindow (kindTimes .chat history) limiter.globalChat now
  join : Tracks maxWindowMessages joinWindow (kindTimes .join history) limiter.joins now
  channelLast : ∀ channel, limiter.channelChat.lookup channel = (channelTimes channel history).getLast?
  channelApart : ∀ channel, (channelTimes channel history).Pairwise (fun a b => a + channelInterval ≤ b)

/-- The limiter permits the message. -/
def Permitted (limiter : RateLimiter) (message : OutboundMessage) (now : Time) : Prop :=
  limiter.allowedAt message.kind message.channel now ≤ now

theorem Permitted.later {limiter : RateLimiter} {message : OutboundMessage} {now next : Time}
    (permitted : Permitted limiter message now) (le : now ≤ next) : Permitted limiter message next :=
  RateLimiter.allowedAt_later permitted le

theorem Permitted.queried {limiter pruned : RateLimiter} {message : OutboundMessage} {now : Time}
    (permitted : Permitted limiter message now) (queried : Queried now limiter pruned) :
    Permitted pruned message now := by
  rw [Permitted, queried.allowedAt]
  exact permitted

namespace Limits

variable {history : History} {limiter : RateLimiter} {now : Time}

theorem nil (now : Time) : Limits [] {} now :=
  ⟨Tracks.nil _ _ _, Tracks.nil _ _ _, fun _ => rfl, fun _ => .nil⟩

theorem later (limits : Limits history limiter now) {next : Time} (le : now ≤ next) :
    Limits history limiter next :=
  ⟨limits.chat.later le, limits.join.later le, limits.channelLast, limits.channelApart⟩

theorem queried (limits : Limits history limiter now) {pruned : RateLimiter}
    (queried : Queried now limiter pruned) : Limits history pruned now := by
  induction queried with
  | refl => exact limits
  | query kind channel _ ih =>
    cases kind with
    | system => exact ih
    | join => exact ⟨ih.chat, ih.join.prune, ih.channelLast, ih.channelApart⟩
    | chat => exact ⟨ih.chat.prune, ih.join, ih.channelLast, ih.channelApart⟩

/-- A permitted chat message keeps its distance from the last on its channel. -/
theorem channel_push (limits : Limits history limiter now) {message : OutboundMessage}
    (isChat : message.kind = .chat) (permitted : Permitted limiter message now) (channel : Bytes) :
    (channelTimes channel (history ++ [(message, now)])).Pairwise (fun a b => a + channelInterval ≤ b) := by
  rw [channelTimes_concat]
  by_cases same : message.channel = channel
  · rw [if_pos ⟨isChat, same⟩, List.pairwise_append]
    refine ⟨limits.channelApart channel, List.pairwise_singleton _ _, ?_⟩
    intro early member next isNow
    rw [List.mem_singleton.mp isNow]
    obtain ⟨times, last, split⟩ := List.eq_nil_or_concat (channelTimes channel history) |>.resolve_left
      (List.ne_nil_of_mem member)
    have known : limiter.channelChat.lookup message.channel = some last := by
      rw [same, limits.channelLast, split]
      simp
    have apart := limits.channelApart channel
    rw [Permitted, isChat, RateLimiter.allowedAt_chat] at permitted
    have lastApart := (RateLimiter.channelFree_le.mp permitted).2 last known
    rw [split, List.concat_eq_append] at member apart
    rcases List.mem_append.mp member with older | newest
    · have order := (List.pairwise_append.mp apart).2.2 early older last List.mem_cons_self
      have positive : 0 ≤ channelInterval := by decide
      calc early + channelInterval ≤ last := order
        _ ≤ last + channelInterval := le_add_of_nonneg_right positive
        _ ≤ now := lastApart
    · rw [List.mem_singleton.mp newest]
      exact lastApart
  · rw [if_neg (fun other => same other.2), List.append_nil]
    exact limits.channelApart channel

/-- Recording a permitted write keeps the limits. -/
theorem record (limits : Limits history limiter now) {message : OutboundMessage}
    (permitted : Permitted limiter message now) :
    Limits (history ++ [(message, now)]) (limiter.record message.kind message.channel now) now := by
  cases kind : message.kind with
  | system =>
    refine ⟨?_, ?_, ?_, ?_⟩
    · simpa [kindTimes_concat, RateLimiter.record, kind] using limits.chat
    · simpa [kindTimes_concat, RateLimiter.record, kind] using limits.join
    · simpa [channelTimes_concat, RateLimiter.record, kind] using limits.channelLast
    · simpa [channelTimes_concat, RateLimiter.record, kind] using limits.channelApart
  | join =>
    have room : (prune limiter.joins (now - joinWindow)).length < maxWindowMessages := by
      rw [Permitted, kind] at permitted
      exact (nextFree_prune_le_iff (by decide) joinWindow limiter.joins now).mp permitted
    refine ⟨?_, ?_, ?_, ?_⟩
    · simpa [kindTimes_concat, RateLimiter.record, kind] using limits.chat
    · simpa [kindTimes_concat, RateLimiter.record, kind] using limits.join.push room
    · simpa [channelTimes_concat, RateLimiter.record, kind] using limits.channelLast
    · simpa [channelTimes_concat, RateLimiter.record, kind] using limits.channelApart
  | chat =>
    have room : (prune limiter.globalChat (now - chatWindow)).length < maxWindowMessages := by
      rw [Permitted, kind, RateLimiter.allowedAt_chat] at permitted
      exact (nextFree_prune_le_iff (by decide) chatWindow limiter.globalChat now).mp
        (RateLimiter.channelFree_le.mp permitted).1
    refine ⟨?_, ?_, ?_, limits.channel_push kind permitted⟩
    · simpa [kindTimes_concat, RateLimiter.record, kind] using limits.chat.push room
    · simpa [kindTimes_concat, RateLimiter.record, kind] using limits.join
    · intro channel
      rw [channelTimes_concat]
      by_cases same : message.channel = channel
      · simp [RateLimiter.record, kind, same]
      · simpa [RateLimiter.record, kind, same, Finmap.lookup_insert_of_ne _ (Ne.symm same)] using
          limits.channelLast channel

end Limits

end TwitchBot
