import TwitchBot.Library.Transducer
import TwitchBot.AutomationCases

namespace TwitchBot

open Transducer

/-- A message and the time it is handled at. -/
abbrev TimedMessage := IrcMessage × Time

/-- The channel of a chat message that a rule is about, whatever the clock says. -/
def MessageRule.trigger (rule : MessageRule) (message : IrcMessage) : Option Bytes :=
  if message.command = bytes "PRIVMSG" ∧ 2 ≤ message.parameters.length then
    match senderFromPrefix message.sourcePrefix, channelFromMessage message with
    | some sender, some channel =>
      if AutomationEngine.matchesRule rule sender channel (message.parameters.getLast?.getD []) then some channel
      else none
    | _, _ => none
  else none

/-- A rule on its own: it answers the messages it is about, unless it still
cools down, and remembers when it last did. -/
def MessageRule.step (rule : MessageRule) (lastSent : Option Time) (call : TimedMessage) :
    List ScheduledChatMessage × Option Time :=
  match rule.trigger call.1 with
  | none => ([], lastSent)
  | some channel =>
    if AutomationEngine.coolingDown lastSent rule.cooldown call.2 then ([], lastSent)
    else ([⟨channel, rule.response, call.2 + seconds rule.delay⟩], some call.2)

namespace AutomationEngine

/-- A call of `handle` as a step: what it returns, nothing if it throws. -/
def step (engine : AutomationEngine) (call : TimedMessage) : List ScheduledChatMessage × AutomationEngine :=
  ((engine.handle call.1 call.2).1.toOption.getD [], (engine.handle call.1 call.2).2)

/-- The rule loop is the rules side by side. -/
theorem ruleLoop_eq {message : IrcMessage} (chat : message.command = bytes "PRIVMSG" ∧ 2 ≤ message.parameters.length)
    {sender channel : Bytes} (foundSender : senderFromPrefix message.sourcePrefix = some sender)
    (foundChannel : channelFromMessage message = some channel) (now : Time) (rules : List MessageRule)
    (lastSent : MessageRule → Option Time) :
    ruleLoop sender channel (message.parameters.getLast?.getD []) now rules (rules.map lastSent) =
      stepAll MessageRule.step rules (rules.map lastSent) (message, now) := by
  rw [stepAll_map]
  induction rules with
  | nil => rfl
  | cons rule rules ih =>
    have trigger : rule.trigger message =
        if matchesRule rule sender channel (message.parameters.getLast?.getD []) then some channel else none := by
      simp only [MessageRule.trigger, if_pos chat, foundSender, foundChannel]
    simp only [List.map_cons, List.flatMap_cons, ruleLoop, ih, MessageRule.step, trigger]
    by_cases about : matchesRule rule sender channel (message.parameters.getLast?.getD []) = true
    · by_cases cooling : coolingDown (lastSent rule) rule.cooldown now = true
      · simp [about, cooling]
      · simp [about, cooling]
    · simp [about]

theorem trigger_none_of_command {rule : MessageRule} {message : IrcMessage}
    (other : ¬ (message.command = bytes "PRIVMSG" ∧ 2 ≤ message.parameters.length)) : rule.trigger message = none := by
  rw [MessageRule.trigger, if_neg other]

/-- Rules that a message is not about stay as they are. -/
theorem stepAll_quiet {call : TimedMessage} {rules : List MessageRule}
    (quiet : ∀ rule ∈ rules, rule.trigger call.1 = none) (lastSent : MessageRule → Option Time) :
    stepAll MessageRule.step rules (rules.map lastSent) call = ([], rules.map lastSent) := by
  have each (rule : MessageRule) (member : rule ∈ rules) :
      rule.step (lastSent rule) call = ([], lastSent rule) := by
    rw [MessageRule.step, quiet rule member]
  rw [stepAll_map]
  refine Prod.ext ?_ ?_
  · simpa using fun rule member => congrArg Prod.fst (each rule member)
  · exact List.map_congr_left (fun rule member => congrArg Prod.snd (each rule member))

theorem handleUsernotice_rules (engine : AutomationEngine) (message : IrcMessage) (now : Time) :
    (engine.handleUsernotice message now).2.settings = engine.settings ∧
      (engine.handleUsernotice message now).2.ruleLastSent = engine.ruleLastSent := by
  rcases handleUsernotice_cases engine message now with quiet | ⟨_, _, _, _, thrown⟩ | ⟨_, _, _, _, answers, said⟩
  · rw [quiet]
    exact ⟨rfl, rfl⟩
  · rw [thrown]
    exact ⟨rfl, rfl⟩
  · rw [said]
    cases answers.rotates <;> exact ⟨rfl, rfl⟩

/-- What a call does to the rules: each makes its own step. -/
theorem step_rules {engine : AutomationEngine} {lastSent : MessageRule → Option Time}
    (times : engine.ruleLastSent = engine.settings.messageRules.map lastSent) (call : TimedMessage) :
    (engine.step call).2.settings = engine.settings ∧
      (engine.step call).2.ruleLastSent =
        (stepAll MessageRule.step engine.settings.messageRules engine.ruleLastSent call).2 ∧
      (call.1.command = bytes "PRIVMSG" → (engine.handle call.1 call.2).1 =
        .ok (stepAll MessageRule.step engine.settings.messageRules engine.ruleLastSent call).1) := by
  obtain ⟨message, now⟩ := call
  simp only [step, handle]
  by_cases chat : message.command = bytes "PRIVMSG"
  · simp only [if_pos chat, handlePrivmsg]
    split
    · rename_i short
      have other : ¬ (message.command = bytes "PRIVMSG" ∧ 2 ≤ message.parameters.length) :=
        fun about => absurd about.2 (Nat.not_le.mpr short)
      rw [times, stepAll_quiet (fun _ _ => trigger_none_of_command other)]
      exact ⟨rfl, rfl, fun _ => rfl⟩
    · rename_i enough
      split
      · rename_i sender channel foundSender foundChannel
        rw [times, ruleLoop_eq ⟨chat, by omega⟩ foundSender foundChannel]
        exact ⟨rfl, rfl, fun _ => rfl⟩
      · rename_i unfound
        have quiet (rule : MessageRule) : rule.trigger message = none := by
          rw [MessageRule.trigger, if_pos ⟨chat, by omega⟩]
          split
          · rename_i sender channel foundSender foundChannel
            exact absurd foundChannel (unfound sender channel foundSender)
          · rfl
        rw [times, stepAll_quiet (fun rule _ => quiet rule)]
        exact ⟨rfl, rfl, fun _ => rfl⟩
  · simp only [if_neg chat]
    rw [times, stepAll_quiet (fun _ _ => trigger_none_of_command (fun about => chat about.1)), ← times]
    split
    · obtain ⟨settings, rules⟩ := handleUsernotice_rules engine message now
      exact ⟨settings, rules, fun command => absurd command chat⟩
    · exact ⟨rfl, rfl, fun command => absurd command chat⟩

/-- Behind any messages, every rule of the engine is where it would be alone. -/
theorem after_rules (settings : BotSettings) (calls : List TimedMessage) :
    (Transducer.after step (new settings) calls).settings = settings ∧
      (Transducer.after step (new settings) calls).ruleLastSent =
        settings.messageRules.map (fun rule => Transducer.after rule.step none calls) := by
  induction calls using List.reverseRecOn with
  | nil => exact ⟨rfl, (List.map_const' ..).symm⟩
  | append_singleton calls call ih =>
    obtain ⟨same, times⟩ := ih
    obtain ⟨kept, rules, _⟩ := step_rules (by rw [times, same]) call
    rw [after_concat, kept, rules, times, same, ← after_stepAll _ _ (fun _ => none),
      ← after_stepAll _ _ (fun _ => none), after_concat]
    exact ⟨rfl, rfl⟩

end AutomationEngine

end TwitchBot
