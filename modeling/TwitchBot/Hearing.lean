import TwitchBot.Fragmentation
import TwitchBot.Library.ClockReadings
import TwitchBot.Offers
import TwitchBot.Pacing
import TwitchBot.Requests
import TwitchBot.SessionEnds
import TwitchBot.SessionProtocolRuns

namespace TwitchBot

open Outbox SessionProtocol

/-- A clock that never goes back. -/
def MonotoneClock (clock : Nat → Time) : Prop := ∀ n, clock n ≤ clock (n + 1)

theorem MonotoneClock.elapsed {clock next : Nat → Time} (monotone : MonotoneClock clock)
    (elapsed : Elapsed clock next) : MonotoneClock next := by
  obtain ⟨readings, same⟩ := elapsed
  intro n
  rw [same, same, Nat.add_right_comm]
  exact monotone _

theorem MonotoneClock.le {clock next : Nat → Time} (monotone : MonotoneClock clock) (elapsed : Elapsed clock next) :
    clock 0 ≤ next 0 := (Readings.none elapsed).le (monotone_nat_of_le_succ monotone)

/-- The messages that leave the protocol object ready. Only these reach the automation. -/
def admitted (protocol : SessionProtocol) : List IrcMessage → List IrcMessage
  | [] => []
  | message :: messages =>
    if (protocol.handle message).2.ready then message :: admitted (protocol.handle message).2 messages
    else admitted (protocol.handle message).2 messages

theorem admitted_append (protocol : SessionProtocol) (earlier later : List IrcMessage) :
    admitted protocol (earlier ++ later) =
      admitted protocol earlier ++ admitted (protocol.after (earlier.map .handle)) later := by
  induction earlier generalizing protocol with
  | nil => rfl
  | cons message earlier ih =>
    simp only [List.cons_append, admitted, ih]
    split <;> rfl

/-- What an automation says to messages, as it is offered to the queue. -/
def said (automation : AutomationEngine) (heard : List TimedMessage) : List Offer :=
  (Transducer.trace AutomationEngine.step automation heard).flatMap
    (fun entry => entry.2.filterMap ScheduledChatMessage.offer)

theorem said_append (automation : AutomationEngine) (earlier later : List TimedMessage) :
    said automation (earlier ++ later) =
      said automation earlier ++ said (Transducer.after AutomationEngine.step automation earlier) later := by
  simp only [said, Transducer.trace_append, List.flatMap_append]

/-- What became of requests: a prefix of them was followed, and all of them if the
session went on. Behind its end a session may still report that it is ready. -/
def Heeded (expected : List Output) (went : Prop) (earlier later : List Output) : Prop :=
  ∃ taken late, later = earlier ++ taken ++ List.replicate late .ready ∧ taken <+: expected ∧
    (went → taken = expected ∧ late = 0)

namespace Heeded

variable {expected rest first second third : List Output} {went goes : Prop}

theorem none : Heeded [] went first first := ⟨[], 0, by simp, List.prefix_refl _, fun _ => ⟨rfl, rfl⟩⟩

theorem mono (heeded : Heeded expected went first second) (implies : goes → went) :
    Heeded expected goes first second := by
  obtain ⟨taken, late, same, inside, whole⟩ := heeded
  exact ⟨taken, late, same, inside, whole ∘ implies⟩

theorem trans (left : Heeded expected went first second) (goesOn : went) (right : Heeded rest goes second third) :
    Heeded (expected ++ rest) goes first third := by
  obtain ⟨_, _, rfl, _, whole⟩ := left
  obtain ⟨rfl, rfl⟩ := whole goesOn
  obtain ⟨taken, late, rfl, inside, whole'⟩ := right
  refine ⟨_ ++ taken, late, by simp, (List.prefix_append_right_inj _).mpr inside, fun goes => ?_⟩
  rw [(whole' goes).1, (whole' goes).2]
  exact ⟨rfl, rfl⟩

/-- Notifications that come after the end. -/
theorem lag (heeded : Heeded expected went first second) (late : Nat) (ends : ¬goes) :
    Heeded expected goes first (second ++ List.replicate late .ready) := by
  obtain ⟨taken, early, rfl, inside, _⟩ := heeded
  refine ⟨taken, early + late, ?_, inside, fun goes => absurd goes ends⟩
  rw [List.append_assoc _ (List.replicate early _), List.replicate_append_replicate]

/-- Further requests to a session that did not go on. -/
theorem widen (heeded : Heeded expected went first second) (ends : ¬goes) :
    Heeded (expected ++ rest) goes first second := by
  obtain ⟨taken, late, same, inside, _⟩ := heeded
  exact ⟨taken, late, same, inside.trans (List.prefix_append _ _), fun goes => absurd goes ends⟩

end Heeded

/-- The requests of the protocol object in answer to messages. -/
def requestsTo (protocol : SessionProtocol) (messages : List IrcMessage) : List Output :=
  requested (protocol.actions (messages.map .handle))

theorem requestsTo_append (protocol : SessionProtocol) (earlier later : List IrcMessage) :
    requestsTo protocol (earlier ++ later) =
      requestsTo protocol earlier ++ requestsTo (protocol.after (earlier.map .handle)) later := by
  rw [requestsTo, List.map_append, actions_concat, requested, List.filterMap_append]
  rfl

/-- What an open session makes of messages: it does what the protocol object
requests, the automation hears those that are admitted, each at a reading of the
clock, and what it says is offered to the queue. If something throws or closes
the session, the rest is neither followed nor heard. -/
structure Hears (messages : List IrcMessage) (heard : List TimedMessage) (went : Prop) (session next : Session) :
    Prop where
  times : Readings session.clock next.clock (heard.map Prod.snd)
  offered : offers next.trace = offers session.trace ++ said session.automation heard
  inside : heard.map Prod.fst <+: admitted session.protocol messages
  assembler : next.assembler = session.assembler
  followed : Heeded (requestsTo session.protocol messages) (went ∧ next.closed = false) (outputs session.trace)
    (outputs next.trace)
  whole : went → next.closed = false → heard.map Prod.fst = admitted session.protocol messages ∧
    next.protocol = session.protocol.after (messages.map .handle) ∧
    next.automation = Transducer.after AutomationEngine.step session.automation heard

namespace Hears

variable {earlier later : List IrcMessage} {went : Prop} {first second third : Session}

/-- Nothing is heard of messages that are not handled to their end. -/
theorem cut {messages : List IrcMessage} {session next : Session} (elapsed : Elapsed session.clock next.clock)
    (silent : offers next.trace = offers session.trace)
    (assembler : next.assembler = session.assembler)
    (followed : Heeded (requestsTo session.protocol messages) (went ∧ next.closed = false) (outputs session.trace)
      (outputs next.trace)) (ends : went → next.closed = true) :
    Hears messages [] went session next := by
  refine ⟨.none elapsed, silent.trans (List.append_nil _).symm, List.nil_prefix, assembler, followed, ?_⟩
  intro goes isOpen
  rw [ends goes] at isOpen
  cases isOpen

theorem trans {heard heard' : List TimedMessage} (left : Hears earlier heard True first second)
    (isOpen : second.closed = false) (right : Hears later heard' went second third) :
    Hears (earlier ++ later) (heard ++ heard') went first third := by
  obtain ⟨all, protocol, automation⟩ := left.whole trivial isOpen
  refine ⟨?_, ?_, ?_, right.assembler.trans left.assembler, ?_, ?_⟩
  · rw [List.map_append]
    exact left.times.append right.times
  · rw [right.offered, left.offered, said_append, automation, List.append_assoc]
  · rw [List.map_append, admitted_append, all, ← protocol]
    exact (List.prefix_append_right_inj _).mpr right.inside
  · rw [requestsTo_append, ← protocol]
    exact left.followed.trans ⟨trivial, isOpen⟩ right.followed
  · intro goes stillOpen
    obtain ⟨rest, protocol', automation'⟩ := right.whole goes stillOpen
    refine ⟨?_, ?_, ?_⟩
    · rw [List.map_append, admitted_append, all, rest, ← protocol]
    · rw [protocol', protocol, List.map_append, SessionProtocol.after_concat]
    · rw [automation', automation, Transducer.after_append]

/-- The messages behind those that ended the loop. -/
theorem widen {heard : List TimedMessage} {goes : Prop} (hears : Hears earlier heard went first second)
    (ends : goes → second.closed = true) : Hears (earlier ++ later) heard goes first second := by
  refine ⟨hears.times, hears.offered, ?_, hears.assembler, ?_, fun goes isOpen => ?_⟩
  · rw [admitted_append]
    exact hears.inside.trans (List.prefix_append _ _)
  · rw [requestsTo_append]
    refine hears.followed.widen ?_
    rintro ⟨goes, isOpen⟩
    rw [ends goes] at isOpen
    cases isOpen
  · rw [ends goes] at isOpen
    cases isOpen

/-- What was heard before the session was finished. -/
theorem finish {messages : List IrcMessage} {heard : List TimedMessage} (hears : Hears messages heard went first second)
    (reason : SessionEndReason) (message : Bytes) : Hears messages heard True first (second.finish reason message) := by
  have clock : (second.finish reason message).clock = second.clock := finish_clock _ _ _
  have closed : (second.finish reason message).closed = true := finish_closed _ _ _
  have same : outputs (second.finish reason message).trace = outputs second.trace :=
    (finish_silences second.toOutbox reason message).outputs
  refine ⟨clock ▸ hears.times, (finish_offers _ _ _).trans hears.offered, hears.inside, hears.assembler, ?_,
    fun _ isOpen => ?_⟩
  · rw [same]
    refine hears.followed.mono ?_
    rintro ⟨_, isOpen⟩
    rw [closed] at isOpen
    cases isOpen
  · rw [closed] at isOpen
    cases isOpen

end Hears

namespace Session

/-- The loop over the actions returns early exactly from a session that it closed. -/
theorem applyUntilClosed_closed (session : Session) {next : Session} {actions : List ProtocolAction} {early : Bool}
    (isOpen : session.closed = false) (applied : session.applyUntilClosed actions = (early, next)) :
    next.closed = early := by
  induction actions generalizing session with
  | nil =>
    cases applied
    exact isOpen
  | cons action actions ih =>
    simp only [applyUntilClosed] at applied
    split at applied
    · rename_i closed
      cases applied
      exact closed
    · rename_i stillOpen
      exact ih _ (by simpa using stillOpen) applied

/-- The session once its automation was asked about a message. -/
def asked (session : Session) (message : IrcMessage) : Session :=
  { session.onOutbox (·.tick) with automation := (session.automation.handle message session.now).2 }

theorem respond_cases (session : Session) (message : IrcMessage) :
    (session.protocol.ready = false ∧ session.respond message = (.ok (), session)) ∨
      (session.protocol.ready = true ∧ ∃ what, (session.automation.handle message session.now).1 = .error what ∧
        session.respond message = (.error what, session.asked message)) ∨
      (session.protocol.ready = true ∧ ∃ chats, (session.automation.handle message session.now).1 = .ok chats ∧
        session.respond message = (.ok (), chats.foldl enqueueChat (session.asked message))) := by
  unfold respond
  cases session.protocol.ready with
  | false => exact Or.inl ⟨rfl, rfl⟩
  | true =>
    right
    cases answered : (session.automation.handle message session.now).1 with
    | error what => exact Or.inl ⟨rfl, what, rfl, by simp [answered, asked]⟩
    | ok chats => exact Or.inr ⟨rfl, chats, rfl, by simp [answered, asked]⟩

/-- The automation answers an admitted message, and nothing else. -/
theorem respond_hears {session : Session} (isOpen : session.closed = false) (message : IrcMessage) :
    ∃ heard, Readings session.clock (session.respond message).2.clock (heard.map Prod.snd) ∧
      offers (session.respond message).2.trace = offers session.trace ++ said session.automation heard ∧
      heard.map Prod.fst <+: (if session.protocol.ready then [message] else []) ∧
      (session.respond message).2.assembler = session.assembler ∧
      ((∃ value, (session.respond message).1 = .ok value) →
        heard.map Prod.fst = (if session.protocol.ready then [message] else []) ∧
          (session.respond message).2.automation =
            Transducer.after AutomationEngine.step session.automation heard) := by
  rcases respond_cases session message with ⟨ready, same⟩ | ⟨ready, what, _, same⟩ | ⟨ready, chats, answered, same⟩
  all_goals rw [same, ready]
  · exact ⟨[], .refl _, (List.append_nil _).symm, List.nil_prefix, rfl, fun _ => ⟨rfl, rfl⟩⟩
  · refine ⟨[], .none (tick_elapsed session.toOutbox), (List.append_nil _).symm, List.nil_prefix, rfl, ?_⟩
    rintro ⟨value, thrown⟩
    cases thrown
  · obtain ⟨offered, _, automation, assembler⟩ := enqueueChats_offers (session.asked message) isOpen chats
    have later := (enqueueChats_acts (session.asked message) chats).moves.elapsed
    refine ⟨[(message, session.now)], (Readings.tick session.clock).append (.none later), ?_, List.prefix_refl _,
      assembler, fun _ => ⟨rfl, automation⟩⟩
    rw [offered]
    simp [said, Transducer.trace, AutomationEngine.step, answered, Except.toOption, asked, onOutbox, Outbox.tick]

theorem handleMessage_hears {session : Session} (isOpen : session.closed = false) (message : IrcMessage) :
    ∃ heard, Hears [message] heard (∃ value, (session.handleMessage message).1 = .ok value) session
      (session.handleMessage message).2 := by
  have protocol := session.handleMessage_protocol message
  have followed : Heeded (requestsTo session.protocol [message]) ((session.handleMessage message).2.closed = false)
      (outputs session.trace) (outputs (session.handleMessage message).2.trace) :=
    (session.handleMessage_relays message).follows.followed
  unfold handleMessage at protocol followed ⊢
  dsimp only at protocol followed ⊢
  cases answered : (session.protocol.handle message).1 with
  | error what =>
    simp only [answered] at followed
    refine ⟨[], .cut (.refl _) rfl rfl (followed.mono And.right) ?_⟩
    rintro ⟨value, thrown⟩
    cases thrown
  | ok actions =>
    simp only [answered] at protocol followed ⊢
    have silent := applyUntilClosed_offers { session with protocol := (session.protocol.handle message).2 }
      (fun action member => call_notChat (show (session.protocol.call (.handle message)).1 = _ from answered) member)
    have members := applyUntilClosed_members { session with protocol := (session.protocol.handle message).2 } actions
    have stays := applyUntilClosed_protocol { session with protocol := (session.protocol.handle message).2 } actions
    have early := (applyUntilClosed_acts { session with protocol := (session.protocol.handle message).2 }
      actions).moves.elapsed
    cases applied : applyUntilClosed { session with protocol := (session.protocol.handle message).2 } actions with
    | mk isOver next =>
      have closes := applyUntilClosed_closed { session with protocol := (session.protocol.handle message).2 } isOpen
        applied
      rw [applied] at silent members stays early protocol followed
      cases isOver with
      | true => exact ⟨[], .cut early silent members.2 (followed.mono And.right) (fun _ => closes)⟩
      | false =>
        obtain ⟨heard, times, offered, inside, assembler, whole⟩ := respond_hears closes message
        have one : admitted session.protocol [message] = if next.protocol.ready then [message] else [] := by
          rw [show next.protocol = _ from stays]
          rfl
        refine ⟨heard, (Readings.none early).append times, ?_, one ▸ inside, assembler.trans members.2,
          followed.mono And.right, ?_⟩
        · rw [offered, silent, members.1]
        · intro goes _
          obtain ⟨all, automation⟩ := whole goes
          exact ⟨all.trans one.symm, protocol, by rw [automation, members.1]⟩

theorem handleLine_hears {session : Session} (isOpen : session.closed = false) (line : Bytes) :
    ∃ heard, Hears (parseIrcMessage line).toOption.toList heard (∃ value, (session.handleLine line).1 = .ok value)
      session (session.handleLine line).2 := by
  unfold handleLine
  cases parseIrcMessage line with
  | error what =>
    exact ⟨[], .refl _, (List.append_nil _).symm, List.nil_prefix, rfl, .none, fun _ _ => ⟨rfl, rfl, rfl⟩⟩
  | ok message => exact handleMessage_hears isOpen message

theorem handleLines_hears {session : Session} (isOpen : session.closed = false) (lines : List Bytes) :
    ∃ heard, Hears (lines.filterMap (fun line => (parseIrcMessage line).toOption)) heard
      (∃ value, (session.handleLines lines).1 = .ok value) session (session.handleLines lines).2 := by
  induction lines generalizing session with
  | nil =>
    exact ⟨[], .refl _, (List.append_nil _).symm, List.nil_prefix, rfl, .none, fun _ _ => ⟨rfl, rfl, rfl⟩⟩
  | cons line lines ih =>
    have split : (line :: lines).filterMap (fun line => (parseIrcMessage line).toOption) =
        (parseIrcMessage line).toOption.toList ++ lines.filterMap (fun line => (parseIrcMessage line).toOption) := by
      cases parsed : parseIrcMessage line <;> simp [parsed, Except.toOption]
    obtain ⟨heard, first⟩ := handleLine_hears isOpen line
    rw [split]
    unfold handleLines
    split
    · rename_i what next result
      rw [result] at first
      refine ⟨heard, first.widen ?_⟩
      rintro ⟨value, thrown⟩
      cases thrown
    · rename_i value next result
      rw [result] at first
      have went : Hears (parseIrcMessage line).toOption.toList heard True session next :=
        ⟨first.times, first.offered, first.inside, first.assembler,
          first.followed.mono (fun goes => ⟨⟨_, rfl⟩, goes.2⟩), fun _ => first.whole ⟨_, rfl⟩⟩
      split
      · rename_i closed
        exact ⟨heard, went.widen (fun _ => closed)⟩
      · rename_i stillOpen
        obtain ⟨heard', rest⟩ := ih (by simpa using stillOpen)
        exact ⟨heard ++ heard', went.trans (by simpa using stillOpen) rest⟩

end Session

end TwitchBot
