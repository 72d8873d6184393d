import TwitchBot.RuleIndependence
import TwitchBot.SettingsDocument
import TwitchBot.WireLanguage

namespace TwitchBot

open Outbox

namespace AutomationEngine

/-- Why something is said to a message that was heard at some time: the message
triggers a rule, or it tells of an event that `hype` answers. What is said is due
when the delay of the rule, or of `hype`, has passed since then. -/
inductive Cause (settings : BotSettings) : TimedMessage → ScheduledChatMessage → Prop
  | rule {rule : MessageRule} {message : IrcMessage} {channel : Bytes} (now : Time)
      (configured : rule ∈ settings.messageRules) (triggers : rule.Triggers message channel) :
      Cause settings (message, now) ⟨channel, rule.response, now + seconds rule.delay⟩
  | hype {message : IrcMessage} {event text : Bytes} (now : Time) (notice : message.command = bytes "USERNOTICE")
      (enabled : settings.hype.enabled = true) (target : channelFromMessage message = some settings.hype.channel)
      (told : message.tags.lookup (bytes "msg-id") = some event)
      (turn : isSubscription event = true ∧ text ∈ settings.hype.subscriptionMessages ∨
        isGift event = true ∧ text ∈ settings.hype.giftMessages) :
      Cause settings (message, now) ⟨settings.hype.channel, text, now + seconds settings.hype.delay⟩

theorem le_add_seconds (now : Time) {delay : Seconds} (nonnegative : 0 ≤ delay) : now ≤ now + seconds delay := by
  have scaled : 0 ≤ seconds delay := Int.mul_nonneg nonnegative (by decide)
  exact Int.le_add_of_nonneg_right scaled

/-- With admissible settings no answer is due before the message it answers. -/
theorem Cause.due {settings : BotSettings} (admissible : settings.Admissible) {call : TimedMessage}
    {chat : ScheduledChatMessage} (cause : Cause settings call chat) : call.2 ≤ chat.due := by
  cases cause with
  | rule now configured triggers => exact le_add_seconds now (admissible.messageRules _ configured).delay.1
  | hype now notice enabled target told turn => exact le_add_seconds now admissible.hype.delay.1

theorem ruleLoop_replies {sender channel text : Bytes} {now : Time} {rules : List MessageRule}
    {times : List (Option Time)} : ∀ chat ∈ (ruleLoop sender channel text now rules times).1,
      ∃ rule ∈ rules, matchesRule rule sender channel text = true ∧
        chat = ⟨channel, rule.response, now + seconds rule.delay⟩ := by
  induction rules generalizing times with
  | nil => simp [ruleLoop]
  | cons rule rules ih =>
    cases times with
    | nil => simp [ruleLoop]
    | cons lastSent times =>
      have later : ∀ chat ∈ (ruleLoop sender channel text now rules times).1, ∃ other ∈ rule :: rules,
          matchesRule other sender channel text = true ∧
            chat = ⟨channel, other.response, now + seconds other.delay⟩ := by
        intro chat member
        obtain ⟨other, configured, replies⟩ := ih chat member
        exact ⟨other, List.mem_cons_of_mem _ configured, replies⟩
      intro chat member
      simp only [ruleLoop] at member
      split at member
      · exact later chat member
      · rename_i about
        rcases List.mem_cons.mp member with rfl | old
        · simp only [Bool.or_eq_true, Bool.not_eq_true', not_or, Bool.not_eq_false] at about
          exact ⟨rule, List.mem_cons_self, about.1, rfl⟩
        · exact later chat old

theorem handlePrivmsg_causes (engine : AutomationEngine) {message : IrcMessage}
    (chat : message.command = bytes "PRIVMSG") (now : Time) :
    ∀ reply ∈ (engine.handlePrivmsg message now).1, Cause engine.settings (message, now) reply := by
  intro reply member
  simp only [handlePrivmsg] at member
  split at member
  · cases member
  · rename_i enough
    split at member
    · rename_i sender channel foundSender foundChannel
      obtain ⟨rule, configured, about, rfl⟩ := ruleLoop_replies reply member
      refine .rule now configured (MessageRule.trigger_eq_some.mp ?_)
      rw [MessageRule.trigger, if_pos ⟨chat, by omega⟩, foundSender, foundChannel]
      exact if_pos about
    · cases member

theorem handleUsernotice_causes (engine : AutomationEngine) {message : IrcMessage}
    (notice : message.command = bytes "USERNOTICE") (now : Time) :
    ∀ reply ∈ (engine.handleUsernotice message now).1.toOption.getD [],
      Cause engine.settings (message, now) reply := by
  intro reply member
  rcases handleUsernotice_cases engine message now with quiet | ⟨_, _, _, _, thrown⟩ |
    ⟨channel, event, response, next, answers, said⟩
  · rw [quiet] at member
    cases member
  · rw [thrown] at member
    cases member
  · rw [said] at member
    cases List.mem_singleton.mp (show reply ∈ [_] from member)
    have target := answers.foundChannel
    rw [answers.ownChannel] at target ⊢
    refine .hype now notice answers.enabled target answers.foundEvent ?_
    cases answers.rotates with
    | subscription subscription found => exact Or.inl ⟨subscription, List.mem_of_getElem? found⟩
    | gift _ gift found => exact Or.inr ⟨gift, List.mem_of_getElem? found⟩

/-- Whatever is said has its cause. -/
theorem step_causes (engine : AutomationEngine) (call : TimedMessage) :
    ∀ reply ∈ (engine.step call).1, Cause engine.settings call reply := by
  obtain ⟨message, now⟩ := call
  intro reply member
  simp only [step, handle] at member
  split at member
  · rename_i chat
    exact handlePrivmsg_causes engine chat now reply member
  · split at member
    · rename_i notice
      exact handleUsernotice_causes engine notice now reply member
    · cases member

theorem trace_causes {settings : BotSettings} (valid : settings.Valid) (heard : List TimedMessage) :
    ∀ entry ∈ Transducer.trace AutomationEngine.step (.new settings) heard,
      ∀ reply ∈ entry.2, Cause settings entry.1 reply := by
  refine Transducer.trace_keeps (Sound settings) (Cause settings) (fun engine call sound => ?_) (new_sound valid) heard
  have causes := step_causes engine call
  rw [sound.same] at causes
  exact ⟨causes, (handle_sound sound call.1 call.2).2⟩

end AutomationEngine

/-- Accepted messages are among those that were offered. -/
theorem accepted_offers (trace : List Effect) :
    ((acceptedMessages trace).filterMap OutboundMessage.offer).Sublist (offers trace) := by
  induction trace with
  | nil => exact .slnil
  | cons effect trace ih =>
    have accepted : acceptedMessages (effect :: trace) = effect.acceptedMessage.toList ++ acceptedMessages trace := by
      cases message : effect.acceptedMessage <;> simp [acceptedMessages, message]
    have offered : offers (effect :: trace) = effect.offer.toList ++ offers trace := by
      cases offer : effect.offer <;> simp [offers, offer]
    rw [accepted, offered, List.filterMap_append]
    refine List.Sublist.append ?_ ih
    cases effect with
    | accepted message =>
      cases offer : message.offer <;> simp [Effect.acceptedMessage, Effect.offer, offer]
    | _ => exact List.nil_sublist _

/-- What was offered as chat is the line of something that was said. -/
theorem said_reply {engine : AutomationEngine} {heard : List TimedMessage} {data channel : Bytes} {due : Time}
    (member : (data, channel, due) ∈ said engine heard) :
    ∃ entry ∈ Transducer.trace AutomationEngine.step engine heard, ∃ reply ∈ entry.2,
      makePrivmsg reply.channel reply.text = .ok data ∧ reply.due = due := by
  obtain ⟨entry, answered, reply, inside, same⟩ := said_member member
  obtain ⟨line, made, same⟩ := Option.map_eq_some_iff.mp same
  obtain ⟨rfl, _, sameDue⟩ : line = data ∧ reply.channel = channel ∧ reply.due = due := by simpa using same
  refine ⟨entry, answered, reply, inside, ?_, sameDue⟩
  cases answer : makePrivmsg reply.channel reply.text with
  | ok line =>
    rw [answer] at made
    exact congrArg Except.ok (Option.some.inj made)
  | error what =>
    rw [answer] at made
    cases made

namespace Conversant

variable {config : RuntimeConfig} {past : List (Session × SessionEvent)} {session : Session}

/-- No message is written that was not accepted, and none more often than it was accepted. -/
theorem started_subperm (conversant : Conversant config past session) :
    (startedMessages session.trace).Subperm (acceptedMessages session.trace) := by
  have conserved := conversant.inOrder.accounted.conserved
  rw [conversant.inOrder.started]
  rw [List.append_assoc] at conserved
  exact List.perm_append_comm.subperm.trans ((List.sublist_append_right _ _).subperm.trans conserved.symm.subperm)

/-- Each saying of the automation is written at most once. -/
theorem started_said (conversant : Conversant config past session) {stream : Bytes} {heard : List TimedMessage}
    (listens : Listens config stream heard session) :
    ((startedMessages session.trace).filterMap OutboundMessage.offer).Subperm (said (.new config.bot) heard) := by
  obtain ⟨started, perm, sublist⟩ := conversant.started_subperm
  rw [← listens.offered]
  exact ⟨_, perm.filterMap _, (sublist.filterMap _).trans (accepted_offers session.trace)⟩

end Conversant

/-- Every chat message on the wire has its cause: it is what the automation said
to a message in the stream that the session received, each saying is written at
most once, and none is written before the delay of its rule, or of `hype`, has
passed since the message was heard. A message is heard during the event that
completes its line, and both times are readings of the clock. -/
theorem chats_answer {parseJson : JsonParser} {environment : Environment} {botJson : Bytes}
    {config : RuntimeConfig} (accepted : parseRuntimeConfig parseJson environment botJson = .ok config)
    (sniConfigured : Bool) {clock : Nat → Time} (monotone : MonotoneClock clock) (random : Nat → Fin 501)
    {events : List ClientEvent} (own : OwnEvents events) {place : Nat} {session : Session}
    (found : ((Client.start { config, sniConfigured, clock, random }).after events).sessions[place]? = some session) :
    let past := (Client.start { config, sniConfigured, clock, random }).sessionHistory place events
    ∃ heard, HeardIn config past heard ∧
      heard.map Prod.fst <+: admitted (opened config) (messagesIn (bytesReceived past)) ∧
      (heard.map Prod.snd).Pairwise (· ≤ ·) ∧
      ((startedMessages session.trace).filterMap OutboundMessage.offer).Subperm (said (.new config.bot) heard) ∧
      ∀ message now limiter, .writing message now limiter ∈ session.trace → message.kind = .chat →
        TracedIn past (.writing message now limiter) ∧
          ∃ entry ∈ Transducer.trace AutomationEngine.step (.new config.bot) heard, ∃ chat ∈ entry.2,
            AutomationEngine.Cause config.bot entry.1 chat ∧
              makePrivmsg chat.channel chat.text = .ok message.wireData ∧ entry.1.2 ≤ chat.due ∧ chat.due ≤ now := by
  intro past
  have valid := parseRuntimeConfig_ok accepted
  have admissible := parseBotSettings_admissible (parseRuntimeConfig_read accepted).bot
  have conversant : Conversant config past session := client_conversant valid sniConfigured monotone random own found
  obtain ⟨heard, heardIn, receives⟩ := conversant.receives
  have listens := receives.listens
  have offered := conversant.started_said listens
  refine ⟨heard, heardIn, listens.inside, listens.ordered, offered, fun message now limiter writing chat => ⟨?_, ?_⟩⟩
  · rcases conversant.traced _ writing with start | traced
    · cases start
    · exact traced
  · have started : message ∈ startedMessages session.trace := List.mem_filterMap.mpr ⟨_, writing, rfl⟩
    have offer : (message.wireData, message.channel, message.due) ∈ said (.new config.bot) heard :=
      offered.subset (List.mem_filterMap.mpr ⟨message, started, if_pos chat⟩)
    obtain ⟨entry, answered, reply, inside, made, due⟩ := said_reply offer
    have cause := AutomationEngine.trace_causes valid.bot heard entry answered reply inside
    have eligible := (conversant.timely.eligible message now limiter writing).1
    exact ⟨entry, answered, reply, inside, cause, made, cause.due admissible, due.trans_le eligible⟩

/-- The first session of a client logs in and hears a message that the rule
answers; the timer expires and the answer is written. -/
def answeringEvents : List ClientEvent :=
  firstEvents (loginEvents ++ loginWrites ++
    [.complete 0 (.success questionLine), .deliver 0, .complete 0 (.success []), .deliver 0])

def answeringClient : Client := (chattyClient (fun n => seconds n)).after answeringEvents

/-- A chat message that is written at some time. -/
def Effect.writesChatAt (time : Time) : Effect → Bool
  | .writing message now _ => message.kind = .chat && now = time
  | _ => false

theorem own_answeringEvents : OwnEvents answeringEvents := by
  simp [OwnEvents, answeringEvents, firstEvents, loginEvents, loginWrites, SessionEvent.ofFirst]

/-- An answer is written 20 seconds behind the start of the clock. -/
theorem chats_answer_rule :
    ∃ session heard, answeringClient.sessions[0]? = some session ∧
      HeardIn chattyConfig ((chattyClient (fun n => seconds n)).sessionHistory 0 answeringEvents) heard ∧
      ∃ message limiter, .writing message (seconds 20) limiter ∈ session.trace ∧
        TracedIn ((chattyClient (fun n => seconds n)).sessionHistory 0 answeringEvents)
          (.writing message (seconds 20) limiter) ∧
        ∃ entry ∈ Transducer.trace AutomationEngine.step (.new chattyConfig.bot) heard, ∃ chat ∈ entry.2,
          AutomationEngine.Cause chattyConfig.bot entry.1 chat ∧
            makePrivmsg chat.channel chat.text = .ok message.wireData ∧ entry.1.2 ≤ chat.due ∧
            chat.due ≤ seconds 20 := by
  have written : answeringClient.sessions[0]?.any
      (fun session => session.trace.any (Effect.writesChatAt (seconds 20))) := by
    decide +kernel
  cases found : answeringClient.sessions[0]? with
  | none => simp [found] at written
  | some session =>
    rw [found, Option.any_some] at written
    obtain ⟨effect, traced, writes⟩ := List.any_eq_true.mp written
    obtain ⟨heard, heardIn, _, _, _, causes⟩ :=
      chats_answer chattyConfig_accepted true secondsClock (fun _ => Fin.last 500) own_answeringEvents found
    cases effect with
    | writing message now limiter =>
      obtain ⟨chat, rfl⟩ : message.kind = .chat ∧ now = seconds 20 := by simpa [Effect.writesChatAt] using writes
      obtain ⟨timed, answer⟩ := causes message _ limiter traced chat
      exact ⟨session, heard, rfl, heardIn, message, limiter, traced, timed, answer⟩
    | _ => cases writes

end TwitchBot
