import TwitchBot.RateLimiter
import Mathlib.Order.Bounds.Basic

namespace TwitchBot

open SlidingWindow

/-- A call of `record`. -/
structure Charge where
  kind : OutboundKind
  channel : Bytes
  sentAt : Time
  deriving DecidableEq

inductive LimiterCall
  | query (kind : OutboundKind) (channel : Bytes) (now : Time)
  | record (charge : Charge)

def LimiterCall.charge : LimiterCall → Option Charge
  | .query _ _ _ => none
  | .record charge => some charge

def LimiterCall.queriedAt : LimiterCall → Option Time
  | .query _ _ now => some now
  | .record _ => none

namespace RateLimiter

def call (limiter : RateLimiter) : LimiterCall → RateLimiter
  | .query kind channel now => (limiter.nextAllowed kind channel now).2
  | .record charge => limiter.record charge.kind charge.channel charge.sentAt

/-- The limiter behind a sequence of calls. -/
def after (limiter : RateLimiter) (calls : List LimiterCall) : RateLimiter := calls.foldl call limiter

end RateLimiter

/-- The recorded history. -/
def charges (calls : List LimiterCall) : List Charge := calls.filterMap LimiterCall.charge

def queryTimes (calls : List LimiterCall) : List Time := calls.filterMap LimiterCall.queriedAt

/-- The times recorded for one kind. -/
def chargedAt (kind : OutboundKind) (history : List Charge) : List Time :=
  (history.filter (fun charge => charge.kind = kind)).map (·.sentAt)

/-- The times recorded for the chat messages of one channel. -/
def chattedAt (channel : Bytes) (history : List Charge) : List Time :=
  (history.filter (fun charge => charge.kind = .chat ∧ charge.channel = channel)).map (·.sentAt)

/-- What the limits say about a message at a time, read off the history alone. -/
def PermittedAt (history : List Charge) (kind : OutboundKind) (channel : Bytes) (time : Time) : Prop :=
  match kind with
  | .system => True
  | .join => recent joinWindow (chargedAt .join history) time < maxWindowMessages
  | .chat => recent chatWindow (chargedAt .chat history) time < maxWindowMessages ∧
      recent channelInterval (chattedAt channel history) time = 0

instance (history : List Charge) : ∀ kind channel time, Decidable (PermittedAt history kind channel time)
  | .system, _, _ => isTrue trivial
  | .join, _, _ => inferInstanceAs (Decidable (_ < _))
  | .chat, _, _ => inferInstanceAs (Decidable (_ ∧ _))

/-- A time from which a query may be made: no earlier query and no record was later. -/
def Reached (calls : List LimiterCall) (now : Time) : Prop :=
  (∀ time ∈ queryTimes calls, time ≤ now) ∧ ∀ charge ∈ charges calls, charge.sentAt ≤ now

instance (calls : List LimiterCall) (now : Time) : Decidable (Reached calls now) :=
  inferInstanceAs (Decidable (_ ∧ _))

/-- The calls of callers that keep the limits, in any interleaving: no query is
made for a time before an earlier query or record, no charge is recorded
before an earlier one, and each was permitted by the history it met. -/
inductive Orderly : List LimiterCall → Prop
  | nil : Orderly []
  | query {calls : List LimiterCall} (kind : OutboundKind) (channel : Bytes) {now : Time} :
    Orderly calls → Reached calls now → Orderly (calls ++ [.query kind channel now])
  | record {calls : List LimiterCall} {charge : Charge} :
    Orderly calls → (∀ other ∈ charges calls, other.sentAt ≤ charge.sentAt) →
      PermittedAt (charges calls) charge.kind charge.channel charge.sentAt → Orderly (calls ++ [.record charge])

theorem charges_concat (calls : List LimiterCall) (call : LimiterCall) :
    charges (calls ++ [call]) = charges calls ++ call.charge.toList := by
  rw [charges, List.filterMap_append]
  cases call <;> rfl

theorem queryTimes_concat (calls : List LimiterCall) (call : LimiterCall) :
    queryTimes (calls ++ [call]) = queryTimes calls ++ call.queriedAt.toList := by
  rw [queryTimes, List.filterMap_append]
  cases call <;> rfl

theorem chargedAt_concat (kind : OutboundKind) (history : List Charge) (charge : Charge) :
    chargedAt kind (history ++ [charge]) =
      chargedAt kind history ++ if charge.kind = kind then [charge.sentAt] else [] := by
  by_cases same : charge.kind = kind <;> simp [chargedAt, same]

theorem chattedAt_concat (channel : Bytes) (history : List Charge) (charge : Charge) :
    chattedAt channel (history ++ [charge]) = chattedAt channel history ++
      if charge.kind = .chat ∧ charge.channel = channel then [charge.sentAt] else [] := by
  by_cases same : charge.kind = .chat ∧ charge.channel = channel
  · simp [chattedAt, same]
  · rw [if_neg same]
    simp only [chattedAt, List.filter_append, List.map_append, List.append_cancel_left_eq]
    simpa using same

theorem mem_chargedAt {kind : OutboundKind} {history : List Charge} {time : Time}
    (member : time ∈ chargedAt kind history) : ∃ charge ∈ history, charge.sentAt = time := by
  obtain ⟨charge, inside, same⟩ := List.mem_map.mp member
  exact ⟨charge, List.mem_of_mem_filter inside, same⟩

theorem mem_chattedAt {channel : Bytes} {history : List Charge} {time : Time}
    (member : time ∈ chattedAt channel history) : ∃ charge ∈ history, charge.sentAt = time := by
  obtain ⟨charge, inside, same⟩ := List.mem_map.mp member
  exact ⟨charge, List.mem_of_mem_filter inside, same⟩

/-- The limiter still holds all of the history that can matter from `now` on. -/
structure Remembers (history : List Charge) (limiter : RateLimiter) (now : Time) : Prop where
  chat : Tracks maxWindowMessages chatWindow (chargedAt .chat history) limiter.globalChat now
  join : Tracks maxWindowMessages joinWindow (chargedAt .join history) limiter.joins now
  channelLast : ∀ channel, limiter.channelChat.lookup channel = (chattedAt channel history).getLast?
  sorted : history.Pairwise (fun a b => a.sentAt ≤ b.sentAt)
  past : ∀ charge ∈ history, charge.sentAt ≤ now

namespace Remembers

variable {history : List Charge} {limiter : RateLimiter} {now : Time}

theorem nil (now : Time) : Remembers [] {} now :=
  ⟨Tracks.nil _ _ _, Tracks.nil _ _ _, fun _ => rfl, .nil, fun _ member => by cases member⟩

theorem later (remembers : Remembers history limiter now) {next : Time} (le : now ≤ next) :
    Remembers history limiter next :=
  ⟨remembers.chat.later le, remembers.join.later le, remembers.channelLast, remembers.sorted,
    fun charge member => (remembers.past charge member).trans le⟩

/-- A query drops nothing that can matter from its own time on. -/
theorem query (remembers : Remembers history limiter now) (kind : OutboundKind) (channel : Bytes) :
    Remembers history (limiter.nextAllowed kind channel now).2 now := by
  cases kind with
  | system => exact remembers
  | join =>
    exact ⟨remembers.chat, remembers.join.prune, remembers.channelLast, remembers.sorted, remembers.past⟩
  | chat =>
    exact ⟨remembers.chat.prune, remembers.join, remembers.channelLast, remembers.sorted, remembers.past⟩

/-- A permitted charge is remembered. -/
theorem record (remembers : Remembers history limiter now) {charge : Charge}
    (order : ∀ other ∈ history, other.sentAt ≤ charge.sentAt)
    (permitted : PermittedAt history charge.kind charge.channel charge.sentAt) {next : Time}
    (le : now ≤ next) (reached : charge.sentAt ≤ next) :
    Remembers (history ++ [charge]) (limiter.record charge.kind charge.channel charge.sentAt) next := by
  have kept := remembers.later le
  have sorted : (history ++ [charge]).Pairwise (fun a b => a.sentAt ≤ b.sentAt) := by
    simpa [List.pairwise_append] using ⟨remembers.sorted, order⟩
  have past : ∀ other ∈ history ++ [charge], other.sentAt ≤ next := by
    intro other member
    rcases List.mem_append.mp member with old | new
    · exact kept.past other old
    · exact List.mem_singleton.mp new ▸ reached
  have charged (kind : OutboundKind) : ∀ time ∈ chargedAt kind history, time ≤ charge.sentAt := by
    intro time member
    obtain ⟨other, inside, rfl⟩ := mem_chargedAt member
    exact order other inside
  cases kind : charge.kind with
  | system =>
    refine ⟨?_, ?_, ?_, sorted, past⟩
    · simpa [chargedAt_concat, RateLimiter.record, kind] using kept.chat
    · simpa [chargedAt_concat, RateLimiter.record, kind] using kept.join
    · simpa [chattedAt_concat, RateLimiter.record, kind] using kept.channelLast
  | join =>
    rw [kind] at permitted
    have pushed := remembers.join.record (charged .join) permitted le reached
    refine ⟨?_, ?_, ?_, sorted, past⟩
    · simpa [chargedAt_concat, RateLimiter.record, kind] using kept.chat
    · simpa [chargedAt_concat, RateLimiter.record, kind] using pushed
    · simpa [chattedAt_concat, RateLimiter.record, kind] using kept.channelLast
  | chat =>
    rw [kind] at permitted
    have pushed := remembers.chat.record (charged .chat) permitted.1 le reached
    refine ⟨?_, ?_, ?_, sorted, past⟩
    · simpa [chargedAt_concat, RateLimiter.record, kind] using pushed
    · simpa [chargedAt_concat, RateLimiter.record, kind] using kept.join
    · intro channel
      rw [chattedAt_concat]
      by_cases same : charge.channel = channel
      · simp [RateLimiter.record, kind, same]
      · simpa [RateLimiter.record, kind, same, Finmap.lookup_insert_of_ne _ (Ne.symm same)] using
          kept.channelLast channel

/-- The channel is free exactly from one interval after its last chat on. -/
theorem channel_free_iff (remembers : Remembers history limiter now) (channel : Bytes) {time : Time}
    (le : now ≤ time) :
    recent channelInterval (chattedAt channel history) time = 0 ↔
      ∀ sent, limiter.channelChat.lookup channel = some sent → sent + channelInterval ≤ time := by
  have past : ∀ sent ∈ chattedAt channel history, sent ≤ time := by
    intro sent member
    obtain ⟨charge, inside, rfl⟩ := mem_chattedAt member
    exact (remembers.past charge inside).trans le
  have ordered : (chattedAt channel history).Pairwise (· ≤ ·) :=
    List.pairwise_map.mpr (remembers.sorted.filter _)
  rw [recent_of_past past, List.countP_eq_zero, remembers.channelLast channel]
  simp only [decide_eq_true_eq, not_lt]
  rcases List.eq_nil_or_concat (chattedAt channel history) with none | ⟨times, last, split⟩
  · simp [none]
  · rw [split, List.concat_eq_append] at ordered ⊢
    have lastLatest := (List.pairwise_append.mp ordered).2.2
    simp only [List.getLast?_append, List.getLast?_singleton, Option.some_or, Option.some.injEq]
    constructor
    · rintro out sent rfl
      exact le_sub_iff_add_le.mp (out last (List.mem_append_right _ List.mem_cons_self))
    · intro out sent member
      refine le_sub_iff_add_le.mpr ?_
      rcases List.mem_append.mp member with older | newest
      · have order := lastLatest sent older last List.mem_cons_self
        exact (add_le_add_left order channelInterval).trans (out last rfl)
      · exact out sent (List.mem_singleton.mp newest).symm

/-- From now on the history permits a message exactly from the answer on. -/
theorem permitted_iff (remembers : Remembers history limiter now) (kind : OutboundKind) (channel : Bytes)
    {time : Time} (le : now ≤ time) :
    PermittedAt history kind channel time ↔ (limiter.nextAllowed kind channel now).1 ≤ time := by
  cases kind with
  | system => exact iff_of_true trivial le
  | join => exact remembers.join.recent_lt_iff (by decide) le
  | chat =>
    rw [PermittedAt, remembers.channel_free_iff channel le, remembers.chat.recent_lt_iff (by decide) le]
    exact RateLimiter.channelFree_le.symm

end Remembers

theorem RateLimiter.after_concat (limiter : RateLimiter) (calls : List LimiterCall) (call : LimiterCall) :
    limiter.after (calls ++ [call]) = (limiter.after calls).call call := by
  simp [RateLimiter.after]

/-- Behind orderly calls the limiter remembers all that matters from any time
on that no call was later than. -/
theorem Orderly.remembers {calls : List LimiterCall} (orderly : Orderly calls) {bound : Time}
    (reached : Reached calls bound) : Remembers (charges calls) (RateLimiter.after {} calls) bound := by
  induction orderly generalizing bound with
  | nil => exact Remembers.nil bound
  | @query calls kind channel now previous order ih =>
    obtain ⟨queried, _⟩ := reached
    rw [queryTimes_concat] at queried
    rw [RateLimiter.after_concat, charges_concat]
    show Remembers (charges calls ++ []) _ bound
    rw [List.append_nil]
    exact ((ih order).query kind channel).later (queried now (List.mem_append_right _ List.mem_cons_self))
  | @record calls charge previous order permitted ih =>
    obtain ⟨queried, charged⟩ := reached
    rw [queryTimes_concat] at queried
    rw [charges_concat] at charged
    have earlier := ih ⟨fun time member => queried time (List.mem_append_left _ member),
      fun other member => charged other (List.mem_append_left _ member)⟩
    rw [RateLimiter.after_concat, charges_concat]
    exact earlier.record order permitted le_rfl (charged charge (List.mem_append_right _ List.mem_cons_self))

theorem Orderly.least {calls : List LimiterCall} (orderly : Orderly calls) (kind : OutboundKind)
    (channel : Bytes) {now : Time} (reached : Reached calls now) :
    IsLeast {time | now ≤ time ∧ PermittedAt (charges calls) kind channel time}
      ((RateLimiter.after {} calls).nextAllowed kind channel now).1 := by
  have remembers := orderly.remembers reached
  have notEarly := RateLimiter.le_nextAllowed (RateLimiter.after {} calls) kind channel now
  constructor
  · exact ⟨notEarly, (remembers.permitted_iff kind channel notEarly).mpr le_rfl⟩
  · rintro time ⟨le, permitted⟩
    exact (remembers.permitted_iff kind channel le).mp permitted

/-- `next_allowed` is exact: whatever orderly calls came before, it answers with
the least time from `now` on at which the recorded history permits the message,
and with the same time after any other calls that recorded the same history. -/
theorem next_allowed_exact {calls : List LimiterCall} (orderly : Orderly calls) (kind : OutboundKind)
    (channel : Bytes) {now : Time} (reached : Reached calls now) :
    IsLeast {time | now ≤ time ∧ PermittedAt (charges calls) kind channel time}
        ((RateLimiter.after {} calls).nextAllowed kind channel now).1 ∧
      ∀ others, Orderly others → Reached others now → charges others = charges calls →
        ((RateLimiter.after {} others).nextAllowed kind channel now).1 =
          ((RateLimiter.after {} calls).nextAllowed kind channel now).1 := by
  have least := orderly.least kind channel reached
  refine ⟨least, ?_⟩
  intro others orderlyOthers reachedOthers same
  have leastOthers := orderlyOthers.least kind channel reachedOthers
  rw [same] at leastOthers
  exact leastOthers.unique least

/-- A chat message, a query in between, and a second message on its channel. -/
def chatCalls : List LimiterCall :=
  [.record ⟨.chat, bytes "one", 0⟩, .query .chat (bytes "one") (seconds 1), .record ⟨.chat, bytes "one", seconds 1⟩]

theorem chatCalls_orderly : Orderly chatCalls := by
  have first : Orderly [.record ⟨.chat, bytes "one", 0⟩] := Orderly.record .nil (by simp [charges]) (by decide)
  have second := first.query .chat (bytes "one") (show Reached _ (seconds 1) by decide)
  exact second.record (by decide) (by decide)

theorem next_allowed_exact_chat :
    IsLeast {time | seconds 1 ≤ time ∧ PermittedAt (charges chatCalls) .chat (bytes "one") time} (seconds 2) :=
  (next_allowed_exact chatCalls_orderly .chat (bytes "one") (by decide)).1

end TwitchBot
