import TwitchBot.Library.ExceptRun
import TwitchBot.Automation

namespace TwitchBot

open ExceptRun

namespace AutomationEngine

theorem coolingDown_eq_false {lastSent : Option Time} {cooldown : Seconds} {now : Time} :
    coolingDown lastSent cooldown now = false ↔ ∀ last ∈ lastSent, seconds cooldown ≤ now - last := by
  cases lastSent <;> simp [coolingDown]

/-- What is far enough from the last of some ordered items is far enough from all of them. -/
theorem apart_of_last {α : Type*} {time : α → Time} {items : List α}
    (ordered : items.Pairwise (fun earlier later => time earlier ≤ time later)) {gap now : Time}
    (apart : ∀ last ∈ items.getLast?, gap ≤ now - time last) : ∀ item ∈ items, gap ≤ now - time item := by
  intro item member
  obtain ⟨last, atLast⟩ := Option.isSome_iff_exists.mp (List.getLast?_isSome.mpr (List.ne_nil_of_mem member))
  obtain ⟨front, rfl⟩ := List.getLast?_eq_some_iff.mp atLast
  have before : time item ≤ time last := by
    rw [List.mem_append, List.mem_singleton] at member
    rcases member with old | rfl
    · exact (List.pairwise_append.mp ordered).2.2 item old last (List.mem_singleton_self last)
    · exact le_refl _
  exact (apart last atLast).trans (sub_le_sub_left before now)

theorem messageAt_eq_ok {messages : List Bytes} {index : Nat} {message : Bytes} :
    messageAt messages index = .ok message ↔ messages[index]? = some message := by
  unfold messageAt
  cases messages[index]? <;> simp

/-- What the rotation can return: the next text of one of its two lists, with
the index of that list advanced. -/
inductive Rotates (engine : AutomationEngine) (event response : Bytes) : AutomationEngine → Prop
  | subscription : isSubscription event = true →
      engine.settings.hype.subscriptionMessages[engine.subscriptionIndex]? = some response →
      Rotates engine event response
        { engine with
          subscriptionIndex := (engine.subscriptionIndex + 1) % engine.settings.hype.subscriptionMessages.length }
  | gift : isSubscription event = false → isGift event = true →
      engine.settings.hype.giftMessages[engine.giftIndex]? = some response →
      Rotates engine event response
        { engine with giftIndex := (engine.giftIndex + 1) % engine.settings.hype.giftMessages.length }

theorem rotate_cases {engine next : AutomationEngine} {event response : Bytes}
    (run : engine.rotate event = .ok (some (response, next))) : Rotates engine event response next := by
  simp only [rotate] at run
  split at run
  · rename_i subscription
    obtain ⟨found, read, run⟩ := bind_eq_ok.mp run
    cases Except.ok.inj run
    exact .subscription subscription (messageAt_eq_ok.mp read)
  · rename_i notSubscription
    split at run
    · rename_i gift
      obtain ⟨found, read, run⟩ := bind_eq_ok.mp run
      cases Except.ok.inj run
      exact .gift (by simpa using notSubscription) gift (messageAt_eq_ok.mp read)
    · cases Except.ok.inj run

/-- The rotation throws only where an index has left its list. -/
theorem rotate_error {engine : AutomationEngine} {event : Bytes} {what : String}
    (run : engine.rotate event = .error what) :
    engine.settings.hype.subscriptionMessages[engine.subscriptionIndex]? = none ∨
      engine.settings.hype.giftMessages[engine.giftIndex]? = none := by
  simp only [rotate, messageAt] at run
  split at run
  · left
    cases found : engine.settings.hype.subscriptionMessages[engine.subscriptionIndex]? with
    | none => rfl
    | some message => rw [found] at run; cases run
  · split at run
    · right
      cases found : engine.settings.hype.giftMessages[engine.giftIndex]? with
      | none => rfl
      | some message => rw [found] at run; cases run
    · cases run

/-- A subscription event that passes every test and is answered. -/
structure Answers (engine : AutomationEngine) (message : IrcMessage) (now : Time) (channel event response : Bytes)
    (next : AutomationEngine) : Prop where
  enabled : engine.settings.hype.enabled = true
  foundChannel : channelFromMessage message = some channel
  foundEvent : message.tags.lookup (bytes "msg-id") = some event
  ownChannel : channel = engine.settings.hype.channel
  cooled : coolingDown engine.hypeLastSent engine.settings.hype.cooldown now = false
  rotates : Rotates engine event response next

/-- What `handle_usernotice` can do: nothing, throw in the rotation, or answer. -/
theorem handleUsernotice_cases (engine : AutomationEngine) (message : IrcMessage) (now : Time) :
    engine.handleUsernotice message now = (.ok [], engine) ∨
      (∃ event what, engine.settings.hype.enabled = true ∧ engine.rotate event = .error what ∧
        engine.handleUsernotice message now = (.error what, engine)) ∨
      ∃ channel event response next, Answers engine message now channel event response next ∧
        engine.handleUsernotice message now =
          (.ok [⟨channel, response, now + seconds engine.settings.hype.delay⟩],
            { next with hypeLastSent := some now }) := by
  unfold handleUsernotice
  simp only
  split
  · exact Or.inl rfl
  · rename_i active
    simp only [Bool.or_eq_true, Bool.not_eq_true', not_or, Bool.not_eq_false] at active
    split
    · rename_i channel event foundChannel foundEvent
      split
      · exact Or.inl rfl
      · rename_i free
        simp only [Bool.or_eq_true, decide_eq_true_eq, not_or, not_not, Bool.not_eq_true] at free
        cases rotated : engine.rotate event with
        | error what => exact Or.inr (Or.inl ⟨event, what, active.1, rotated, rfl⟩)
        | ok answer =>
          cases answer with
          | none => exact Or.inl rfl
          | some pair =>
            obtain ⟨response, next⟩ := pair
            exact Or.inr (Or.inr ⟨channel, event, response, next,
              ⟨active.1, foundChannel, foundEvent, free.1, free.2, rotate_cases rotated⟩, rfl⟩)
    · exact Or.inl rfl

end AutomationEngine

end TwitchBot
