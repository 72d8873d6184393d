import TwitchBot.ClientSessions
import TwitchBot.Reception
import TwitchBot.Wakeup
import TwitchBot.WriteOrder

namespace TwitchBot

open Outbox

namespace Timely

variable {outbox : Outbox}

theorem finish (timely : Timely outbox.trace) (reason : SessionEndReason) (message : Bytes) :
    Timely (outbox.finish reason message).trace := by
  unfold Outbox.finish
  split
  · exact timely
  · exact timely.concat (.ended reason message) rfl

/-- Writes are started in time whoever else uses the limiter. -/
theorem move {next : Outbox} (move : Move outbox next) (timely : Timely outbox.trace) : Timely next.trace := by
  cases move with
  | tick => exact timely
  | enqueue message =>
    rcases enqueue_cases outbox message with ⟨_, same⟩ | ⟨_, _, _, dropped⟩ | ⟨_, _, _, ended⟩ | ⟨_, _, accepted⟩
    · rwa [same]
    · rw [dropped]
      exact timely.concat (.dropped message _) rfl
    · rw [ended]
      exact timely.finish _ _
    · rw [accepted]
      exact (Awake.scheduleWrite (timely.concat (.accepted message) rfl)).timely
  | finish reason message => exact timely.finish reason message
  | launch operation aside =>
    simp only [Operation.isOutgoing, Bool.or_eq_false_iff] at aside
    exact timely.concat (.started operation) (by simp [Effect.startsNothing, aside.1])
  | cancel selected aside => exact timely
  | emit effect aside => exact timely.concat effect (by cases effect <;> first | rfl | cases aside)
  | complete index operation outcome found possible => exact timely
  | pass io index operation outcome taken aside => exact timely
  | timer io index deadline outcome taken =>
    cases outcome with
    | failure what => exact timely
    | success data => exact (@Awake.scheduleWrite { outbox with io := io } timely).timely
  | write io index data outcome taken =>
    cases outcome with
    | failure what => exact @Timely.finish { outbox with io := io } timely _ _
    | success _ =>
      simp only [Outbox.onWrite, Outbox.onWritten]
      split
      · exact timely.concat .undefinedBehaviour rfl
      · exact (Awake.scheduleWrite (timely.concat (.wrote _ _) rfl)).timely

end Timely

/-- The bytes that the handlers of the reads of a session were given. -/
def bytesReceived (history : List (Session × SessionEvent)) : Bytes :=
  history.flatMap (fun met => met.2.bytesRead met.1)

/-- The stream that the session at a place of a client receives in the course of some events. -/
def Client.received (client : Client) (place : Nat) (events : List ClientEvent) : Bytes :=
  bytesReceived (client.sessionHistory place events)

/-- What the automation of a session has heard in the course of its history: each
message at a reading that the clock gave during the event whose bytes complete
the line of the message. -/
inductive HeardIn (config : RuntimeConfig) : List (Session × SessionEvent) → List TimedMessage → Prop
  | start : HeardIn config [] []
  | event {past : List (Session × SessionEvent)} {heard later : List TimedMessage} {session : Session}
      {event : SessionEvent} (before : HeardIn config past heard)
      (inside : (heard ++ later).map Prod.fst <+:
        admitted (opened config) (messagesIn (bytesReceived (past ++ [(session, event)]))))
      (now : HeardNow config (bytesReceived past) heard later session (session.step event)) :
      HeardIn config (past ++ [(session, event)]) (heard ++ later)

/-- An effect of an event in the history of a session; a write at a reading that
the clock gave during this event. -/
def TracedIn (past : List (Session × SessionEvent)) (effect : Effect) : Prop :=
  ∃ met ∈ past, effect ∈ met.1.newEffects met.2 ∧
    Readings met.1.clock (met.1.step met.2).clock effect.writeTime.toList

theorem TracedIn.concat {past : List (Session × SessionEvent)} {effect : Effect} (traced : TracedIn past effect)
    (met : Session × SessionEvent) : TracedIn (past ++ [met]) effect := by
  obtain ⟨earlier, member, traced⟩ := traced
  exact ⟨earlier, List.mem_append_left _ member, traced⟩

theorem tracedIn_now (past : List (Session × SessionEvent)) (session : Session) (event : SessionEvent)
    {effect : Effect} (new : effect ∈ session.newEffects event) : TracedIn (past ++ [(session, event)]) effect := by
  have single : effect.writeTime.toList.Sublist (writeTimes (session.newEffects event)) := by
    cases written : effect.writeTime with
    | none => exact List.nil_sublist _
    | some time => exact List.singleton_sublist.mpr (List.mem_filterMap.mpr ⟨effect, new, written⟩)
  exact ⟨(session, event), List.mem_concat_self, new, (session.step_grows event).times.sublist single⟩

/-- What holds of a session of a client with this configuration, once it has a
history: it has understood the stream that it received, and writes what its
queue accepted in order and in time. -/
structure Conversant (config : RuntimeConfig) (past : List (Session × SessionEvent)) (session : Session) : Prop where
  receives : ∃ heard, HeardIn config past heard ∧ Receives config (bytesReceived past) heard session
  inOrder : InOrder session.nextSequence session.toOutbox
  timely : Timely session.trace
  traced : ∀ effect ∈ session.trace, effect = .started .resolve ∨ TracedIn past effect

namespace Conversant

variable {config : RuntimeConfig} {past : List (Session × SessionEvent)} {session : Session}

theorem listens (conversant : Conversant config past session) :
    ∃ heard, Listens config (bytesReceived past) heard session := by
  obtain ⟨heard, _, receives⟩ := conversant.receives
  exact ⟨heard, receives.listens⟩

theorem start (config : RuntimeConfig) (limiter : RateLimiter) {clock : Nat → Time} (monotone : MonotoneClock clock)
    (sniConfigured : Bool) : Conversant config [] (Session.new config limiter clock sniConfigured).start :=
  ⟨⟨[], .start, .start limiter monotone sniConfigured⟩, Session.inOrder_start config limiter sniConfigured monotone,
    (awake_start config limiter clock sniConfigured).timely, fun _ member => Or.inl (List.mem_singleton.mp member)⟩

/-- Another session may have used the limiter and the clock. -/
theorem plug (conversant : Conversant config past session) (limiter : RateLimiter) {clock : Nat → Time}
    (elapsed : Elapsed session.clock clock) :
    Conversant config past { session with limiter := limiter, clock := clock } := by
  obtain ⟨⟨heard, heardIn, ⟨⟨connection, realizes⟩, monotone, fit, listens⟩⟩, inOrder, timely, traced⟩ := conversant
  refine ⟨⟨heard, heardIn, ⟨connection, realizes.plug limiter clock⟩, monotone.elapsed elapsed, fit, ?_⟩,
    inOrder.of_eq rfl rfl rfl elapsed (inOrder.accounted.aside limiter clock session.closed), timely, traced⟩
  exact listens.aside monotone elapsed ⟨rfl, rfl, Iff.rfl, id, rfl, rfl, rfl⟩

theorem step (valid : config.Valid) (conversant : Conversant config past session) {event : SessionEvent}
    (own : ∀ message, event ≠ .enqueue message) :
    Conversant config (past ++ [(session, event)]) (session.step event) := by
  obtain ⟨⟨heard, heardIn, receives⟩, inOrder, timely, traced⟩ := conversant
  obtain ⟨later, receives, now⟩ := receives.step valid own
  have received : bytesReceived (past ++ [(session, event)]) = bytesReceived past ++ event.bytesRead session := by
    rw [bytesReceived, List.flatMap_append, List.flatMap_singleton]
    rfl
  refine ⟨⟨heard ++ later, heardIn.event (received ▸ receives.listens.inside) now, received ▸ receives⟩,
    Session.step_inOrder inOrder own, (session.step_moves event).keeps (fun _ _ => Timely.move) timely, ?_⟩
  intro effect member
  rw [(session.step_grows event).trace, List.mem_append] at member
  rcases member with old | new
  · exact (traced effect old).imp_right (·.concat _)
  · exact Or.inr (tracedIn_now past session event new)

end Conversant

/-- Every session of every run of a client converses. -/
theorem client_conversant {config : RuntimeConfig} (valid : config.Valid) (sniConfigured : Bool) {clock : Nat → Time}
    (monotone : MonotoneClock clock) (random : Nat → Fin 501) {events : List ClientEvent} (own : OwnEvents events)
    {place : Nat} {session : Session}
    (found : ((Client.start { config, sniConfigured, clock, random }).after events).sessions[place]? = some session) :
    Conversant config ((Client.start { config, sniConfigured, clock, random }).sessionHistory place events)
      session := by
  have kept : Client.KeptBySession (Conversant config) config sniConfigured clock :=
    ⟨fun limiter later elapsed => .start config limiter (monotone.elapsed elapsed) sniConfigured,
      fun past session limiter later elapsed conversant => conversant.plug limiter elapsed,
      fun past session event notEnqueue conversant => conversant.step valid notEnqueue⟩
  have start : Client.EverySession (Conversant config) config sniConfigured clock (fun _ => [])
      (Client.start { config, sniConfigured, clock, random }) := by
    refine ⟨⟨rfl, rfl⟩, ⟨1, fun _ => rfl⟩, fun _ _ => rfl, fun other current none => ?_⟩
    cases none
  exact ((start.after kept own).holds place session found).2

end TwitchBot
