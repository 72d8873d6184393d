import TwitchBot.RuleAutomata

namespace TwitchBot

open Transducer AutomationEngine

/-- What a message must be like for a rule to answer it, the cooldown apart;
`channel` is where the answer goes. -/
structure MessageRule.Triggers (rule : MessageRule) (message : IrcMessage) (channel : Bytes) : Prop where
  command : message.command = bytes "PRIVMSG"
  parameters : 2 ≤ message.parameters.length
  enabled : rule.enabled = true
  sender : ∃ nick rest, message.sourcePrefix = nick ++ bang :: rest ∧ bang ∉ nick ∧
    normalizeLogin nick = .ok rule.sender
  target : ∃ first, message.parameters.head? = some first ∧ normalizeChannel first = .ok channel
  channel : ∀ configured ∈ rule.channel, configured = channel
  text : ∃ last, message.parameters.getLast? = some last ∧ rule.contains <:+: last

theorem senderFromPrefix_eq_some {sourcePrefix sender : Bytes} : senderFromPrefix sourcePrefix = some sender ↔
    ∃ nick rest, sourcePrefix = nick ++ bang :: rest ∧ bang ∉ nick ∧ normalizeLogin nick = .ok sender := by
  have found {nick rest : Bytes} (free : bang ∉ nick) :
      senderFromPrefix (nick ++ bang :: rest) = (normalizeLogin nick).toOption := by
    have cut := StringView.find_cut_zero rest free
    rw [senderFromPrefix, cut]
    cases nick with
    | nil => rfl
    | cons c nick => simp
  have normalized {nick : Bytes} : (normalizeLogin nick).toOption = some sender ↔ normalizeLogin nick = .ok sender := by
    cases normalizeLogin nick <;> simp [Except.toOption]
  constructor
  · intro some
    rcases StringView.cut_cases bang sourcePrefix with missing | ⟨nick, rest, rfl, free⟩
    · rw [senderFromPrefix, StringView.find_none_zero missing] at some
      cases some
    · rw [found free] at some
      exact ⟨nick, rest, rfl, free, normalized.mp some⟩
  · rintro ⟨nick, rest, rfl, free, login⟩
    rw [found free]
    exact normalized.mpr login

theorem channelFromMessage_eq_some {message : IrcMessage} {channel : Bytes} :
    channelFromMessage message = some channel ↔
      ∃ first, message.parameters.head? = some first ∧ normalizeChannel first = .ok channel := by
  unfold channelFromMessage
  cases message.parameters with
  | nil => simp
  | cons first rest =>
    cases normalized : normalizeChannel first <;> simp [normalized, Except.toOption]

theorem MessageRule.trigger_eq_some {rule : MessageRule} {message : IrcMessage} {channel : Bytes} :
    rule.trigger message = some channel ↔ rule.Triggers message channel := by
  unfold MessageRule.trigger
  constructor
  · intro triggered
    split at triggered
    swap
    · cases triggered
    rename_i about
    split at triggered
    swap
    · cases triggered
    rename_i sender found foundSender foundChannel
    split at triggered
    swap
    · cases triggered
    rename_i conditions
    cases Option.some.inj triggered
    simp only [matchesRule, Bool.and_eq_true, decide_eq_true_eq, containsText] at conditions
    obtain ⟨⟨⟨enabled, rfl⟩, own⟩, text⟩ := conditions
    have nonempty : message.parameters ≠ [] := List.length_pos_iff.mp (by omega)
    have last := List.getLast?_eq_getLast_of_ne_nil nonempty
    rw [last, Option.getD_some] at text
    exact ⟨about.1, about.2, enabled, senderFromPrefix_eq_some.mp foundSender,
      channelFromMessage_eq_some.mp foundChannel, own, _, last, text⟩
  · intro triggers
    obtain ⟨last, atLast, text⟩ := triggers.text
    have conditions : matchesRule rule rule.sender channel (message.parameters.getLast?.getD []) = true := by
      simp only [matchesRule, Bool.and_eq_true, decide_eq_true_eq, containsText]
      exact ⟨⟨⟨triggers.enabled, trivial⟩, triggers.channel⟩, by rw [atLast]; exact text⟩
    rw [if_pos ⟨triggers.command, triggers.parameters⟩, senderFromPrefix_eq_some.mpr triggers.sender,
      channelFromMessage_eq_some.mpr triggers.target]
    simp only [if_pos conditions]

/-- The settings of an engine that has one rule only. -/
def onlyRule (rule : MessageRule) : BotSettings where
  messageRules := [rule]

/-- The engine of a single rule behind some messages. -/
def alone (rule : MessageRule) (calls : List TimedMessage) : AutomationEngine :=
  Transducer.after AutomationEngine.step (new (onlyRule rule)) calls

/-- The times at which the engine of a single rule said something. -/
def emissions (rule : MessageRule) (calls : List TimedMessage) : List Time :=
  ((trace AutomationEngine.step (new (onlyRule rule)) calls).filter (fun entry => !entry.2.isEmpty)).map
    (fun entry => entry.1.2)

theorem onlyRule_quiet {engine : AutomationEngine} {rule : MessageRule} (same : engine.settings = onlyRule rule)
    {call : TimedMessage} (other : call.1.command ≠ bytes "PRIVMSG") : (engine.step call).1 = [] := by
  simp only [AutomationEngine.step, handle, if_neg other]
  split
  · simp [handleUsernotice, same, onlyRule, Except.toOption]
  · rfl

theorem alone_rules (rule : MessageRule) (calls : List TimedMessage) :
    (alone rule calls).settings = onlyRule rule ∧
      (alone rule calls).ruleLastSent = [rule].map (fun rule => Transducer.after rule.step none calls) :=
  after_rules (onlyRule rule) calls

/-- A single rule in an engine says what the rule says on its own. -/
theorem alone_step (rule : MessageRule) (calls : List TimedMessage) (call : TimedMessage) :
    ((alone rule calls).step call).1 = (rule.step (Transducer.after rule.step none calls) call).1 := by
  obtain ⟨settings, times⟩ := alone_rules rule calls
  by_cases chat : call.1.command = bytes "PRIVMSG"
  · obtain ⟨_, _, said⟩ := step_rules (by rw [times, settings, onlyRule]) call
    rw [AutomationEngine.step, said chat, settings, times, onlyRule, stepAll_map]
    simp [Except.toOption]
  · rw [onlyRule_quiet settings chat, MessageRule.step,
      trigger_none_of_command (fun about => chat about.1)]

/-- A rule says nothing and stays as it is, or it answers and remembers when. -/
theorem MessageRule.step_cases (rule : MessageRule) (lastSent : Option Time) (call : TimedMessage) :
    (rule.step lastSent call = ([], lastSent) ∧
        ∀ channel, rule.trigger call.1 = some channel → coolingDown lastSent rule.cooldown call.2 = true) ∨
      ∃ channel, rule.trigger call.1 = some channel ∧ coolingDown lastSent rule.cooldown call.2 = false ∧
        rule.step lastSent call = ([⟨channel, rule.response, call.2 + seconds rule.delay⟩], some call.2) := by
  unfold MessageRule.step
  cases rule.trigger call.1 with
  | none => simp
  | some channel =>
    by_cases cooling : coolingDown lastSent rule.cooldown call.2 = true
    · simp [cooling]
    · simp [cooling]

theorem emissions_concat (rule : MessageRule) (calls : List TimedMessage) (call : TimedMessage) :
    emissions rule (calls ++ [call]) =
      emissions rule calls ++ if ((alone rule calls).step call).1.isEmpty then [] else [call.2] := by
  simp only [emissions, trace_concat, List.filter_append, List.map_append]
  rw [alone]
  cases ((Transducer.after AutomationEngine.step (new (onlyRule rule)) calls).step call).1 with
  | nil => rfl
  | cons _ _ => rfl

/-- The rule remembers its last emission. -/
theorem lastSent_eq (rule : MessageRule) (calls : List TimedMessage) :
    Transducer.after rule.step none calls = (emissions rule calls).getLast? := by
  induction calls using List.reverseRecOn with
  | nil => rfl
  | append_singleton calls call ih =>
    rw [after_concat, emissions_concat, alone_step]
    rcases rule.step_cases (Transducer.after rule.step none calls) call with ⟨quiet, _⟩ | ⟨channel, _, _, loud⟩
    · rw [quiet, ih]
      simp
    · rw [loud]
      simp

theorem emissions_sublist (rule : MessageRule) (calls : List TimedMessage) :
    (emissions rule calls).Sublist (calls.map Prod.snd) := by
  have inputs := trace_inputs AutomationEngine.step (new (onlyRule rule)) calls
  have times : (trace AutomationEngine.step (new (onlyRule rule)) calls).map (fun entry => entry.1.2) =
      calls.map Prod.snd := by
    rw [← congrArg (List.map Prod.snd) inputs, List.map_map]
    rfl
  rw [← times]
  exact List.filter_sublist.map _

/-- Two emissions of one rule are at least its cooldown apart. -/
theorem emissions_spaced (rule : MessageRule) (calls : List TimedMessage) :
    (calls.map Prod.snd).Pairwise (· ≤ ·) →
      (emissions rule calls).Pairwise (fun earlier later => seconds rule.cooldown ≤ later - earlier) := by
  induction calls using List.reverseRecOn with
  | nil => intro _; exact .nil
  | append_singleton calls call ih =>
    intro ordered
    have before : (calls.map Prod.snd).Pairwise (· ≤ ·) := by
      rw [List.map_append, List.pairwise_append] at ordered
      exact ordered.1
    rw [emissions_concat, alone_step]
    rcases rule.step_cases (Transducer.after rule.step none calls) call with ⟨quiet, _⟩ | ⟨channel, _, cooled, loud⟩
    · rw [quiet]
      simpa using ih before
    · rw [loud]
      refine List.pairwise_append.mpr ⟨ih before, List.pairwise_singleton _ _, ?_⟩
      intro time member later atLater
      cases List.mem_singleton.mp atLater
      rw [lastSent_eq, coolingDown_eq_false] at cooled
      exact apart_of_last (before.sublist (emissions_sublist rule calls)) cooled time member

/-- What a rule alone answers to a message behind others. -/
structure MessageRule.Answers (rule : MessageRule) (calls : List TimedMessage) (message : IrcMessage) (now : Time)
    (output : List ScheduledChatMessage) : Prop where
  atMostOne : output.length ≤ 1
  emits_iff : ∀ chat, chat ∈ output ↔ ∃ channel, rule.Triggers message channel ∧
    (∀ last ∈ (emissions rule calls).getLast?, seconds rule.cooldown ≤ now - last) ∧
    chat = ⟨channel, rule.response, now + seconds rule.delay⟩

theorem alone_answers (rule : MessageRule) (calls : List TimedMessage) (message : IrcMessage) (now : Time) :
    rule.Answers calls message now ((alone rule calls).step (message, now)).1 := by
  rw [alone_step]
  rcases rule.step_cases (Transducer.after rule.step none calls) (message, now) with
    ⟨quiet, cooling⟩ | ⟨channel, triggered, cooled, loud⟩
  · rw [quiet]
    refine ⟨by simp, fun chat => ⟨by simp, ?_⟩⟩
    rintro ⟨channel, triggers, free, _⟩
    have busy := cooling channel (MessageRule.trigger_eq_some.mpr triggers)
    rw [lastSent_eq, coolingDown_eq_false.mpr free] at busy
    cases busy
  · rw [loud]
    rw [lastSent_eq, coolingDown_eq_false] at cooled
    refine ⟨by simp, fun chat => ⟨?_, ?_⟩⟩
    · intro member
      exact ⟨channel, MessageRule.trigger_eq_some.mp triggered, cooled, List.mem_singleton.mp member⟩
    · rintro ⟨other, triggers, _, rfl⟩
      have same := triggered.symm.trans (MessageRule.trigger_eq_some.mpr triggers)
      cases Option.some.inj same
      exact List.mem_singleton_self _

/-- The engine of some settings behind some messages. -/
def engineAfter (settings : BotSettings) (calls : List TimedMessage) : AutomationEngine :=
  Transducer.after AutomationEngine.step (new settings) calls

/-- A rule that says nothing keeps the time it remembers, whatever the others do. -/
theorem lastSent_unchanged {settings : BotSettings} {calls : List TimedMessage} {call : TimedMessage}
    {index : Nat} {rule : MessageRule} (atIndex : settings.messageRules[index]? = some rule)
    (quiet : ((alone rule calls).step call).1 = []) :
    ((engineAfter settings calls).step call).2.ruleLastSent[index]? =
      (engineAfter settings calls).ruleLastSent[index]? := by
  have next := (after_rules settings (calls ++ [call])).2
  have now := (after_rules settings calls).2
  rw [after_concat] at next
  rw [engineAfter, next, now, List.getElem?_map, List.getElem?_map, atIndex, Option.map_some, Option.map_some,
    lastSent_eq, lastSent_eq, emissions_concat, quiet]
  simp

/-- The rules of an engine are independent: it answers a chat message with what
the engines of the single rules would answer behind the same messages, in the
order of the rules; each answers exactly when it is triggered and has cooled
down, so its emissions are at least the cooldown apart, and messages it does
not answer leave alone when it may answer next. -/
theorem rules_independent {settings : BotSettings} {calls : List TimedMessage} {message : IrcMessage} {now : Time}
    (ordered : ((calls ++ [(message, now)]).map Prod.snd).Pairwise (· ≤ ·)) :
    (message.command = bytes "PRIVMSG" → 2 ≤ message.parameters.length →
      ((engineAfter settings calls).handle message now).1 =
        .ok (settings.messageRules.flatMap (fun rule => ((alone rule calls).step (message, now)).1))) ∧
    ∀ rule ∈ settings.messageRules,
      rule.Answers calls message now ((alone rule calls).step (message, now)).1 ∧
      (emissions rule (calls ++ [(message, now)])).Pairwise
        (fun earlier later => seconds rule.cooldown ≤ later - earlier) ∧
      (((alone rule calls).step (message, now)).1 = [] →
        emissions rule (calls ++ [(message, now)]) = emissions rule calls ∧
        ∀ index : Nat, settings.messageRules[index]? = some rule →
          ((engineAfter settings calls).handle message now).2.ruleLastSent[index]? =
            (engineAfter settings calls).ruleLastSent[index]?) := by
  refine ⟨fun chat _ => ?_, fun rule _ => ⟨alone_answers rule calls message now, emissions_spaced rule _ ordered, ?_⟩⟩
  · obtain ⟨same, times⟩ := after_rules settings calls
    obtain ⟨_, _, said⟩ := step_rules (by rw [times, same]) (message, now)
    rw [engineAfter, said chat, same, times, stepAll_map]
    simp only [alone_step]
  · intro quiet
    refine ⟨?_, ?_⟩
    · rw [emissions_concat, quiet]
      simp
    · intro index atIndex
      exact lastSent_unchanged atIndex quiet

/-- Two rules about one viewer, the second with a cooldown. -/
def greetingRule (cooldown : Seconds) : MessageRule where
  enabled := true
  sender := bytes "viewer"
  contains := bytes "hi"
  response := bytes "hello"
  cooldown := cooldown

def greetingMessage : IrcMessage :=
  ⟨∅, bytes "viewer!viewer@example", bytes "PRIVMSG", [bytes "#channel", bytes "hi there"]⟩

theorem rules_independent_greeting :
    ((engineAfter { messageRules := [greetingRule 0, greetingRule 5] } [(greetingMessage, 0)]).handle
        greetingMessage (seconds 3)).1 =
      .ok ([greetingRule 0, greetingRule 5].flatMap
        (fun rule => ((alone rule [(greetingMessage, 0)]).step (greetingMessage, seconds 3)).1)) :=
  (rules_independent (by decide)).1 (by decide) (by decide)

end TwitchBot
