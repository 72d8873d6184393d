import TwitchBot.ClientSessions
import TwitchBot.HandlerRules
import TwitchBot.QueueFrames
import TwitchBot.Replies
import TwitchBot.Requests

namespace TwitchBot

open Outbox SessionProtocol

/-- The protocol object of a session went through calls from its start with
this configuration. -/
def Session.Configured (config : RuntimeConfig) (session : Session) : Prop :=
  ∃ calls, session.protocol = SessionProtocol.after { config } calls

theorem Session.Configured.step {config : RuntimeConfig} {session : Session} (configured : session.Configured config)
    (event : SessionEvent) : (session.step event).Configured config := by
  obtain ⟨earlier, same⟩ := configured
  obtain ⟨later, leads⟩ := session.step_leads event
  refine ⟨earlier ++ later, ?_⟩
  rw [leads, same, SessionProtocol.after, SessionProtocol.after, SessionProtocol.after, List.foldl_append]

theorem Session.Configured.config_eq {config : RuntimeConfig} {session : Session}
    (configured : session.Configured config) : session.protocol.config = config := by
  obtain ⟨calls, same⟩ := configured
  rw [same]
  exact (TwitchBot.gated_after config calls).config

/-- The effects of a handler that an exception leaves, or that does what has no
defined meaning. -/
def Effect.escapes : Effect → Bool
  | .uncaught _ => true
  | .undefinedBehaviour => true
  | _ => false

/-- No exception has left a handler of the session. -/
def Caught (outbox : Outbox) : Prop := ∀ what, .uncaught what ∉ outbox.trace

namespace Caught

variable {outbox next : Outbox}

theorem of_eq (caught : Caught outbox) (same : next.trace = outbox.trace) : Caught next := by
  rw [Caught, same]
  exact caught

theorem emit (caught : Caught outbox) {effect : Effect} (regular : ∀ what, effect ≠ .uncaught what) :
    Caught (outbox.emit effect) := by
  intro what member
  rcases List.mem_append.mp member with earlier | last
  · exact caught what earlier
  · exact regular what (List.mem_singleton.mp last).symm

theorem launch (caught : Caught outbox) (operation : Operation) : Caught (outbox.launch operation) := by
  have emitted : Caught (outbox.emit (.started operation)) := caught.emit nofun
  exact emitted.of_eq rfl

theorem finish (caught : Caught outbox) (reason : SessionEndReason) (message : Bytes) :
    Caught (outbox.finish reason message) := by
  unfold Outbox.finish
  split
  · exact caught
  · have ended : Caught (outbox.emit (.ended reason message)) := caught.emit nofun
    exact ended.of_eq rfl

theorem schedules (caught : Caught outbox) (schedules : Schedules outbox next) : Caught next := by
  obtain ⟨effects, grown, scheduling⟩ := schedules
  intro what member
  rw [grown] at member
  rcases List.mem_append.mp member with earlier | later
  · exact caught what earlier
  · cases scheduling _ later

theorem enqueue (caught : Caught outbox) (message : OutboundMessage) : Caught (outbox.enqueue message) := by
  rcases enqueue_cases outbox message with ⟨_, same⟩ | ⟨_, _, _, dropped⟩ | ⟨_, _, _, ended⟩ | ⟨_, _, accepted⟩
  · rwa [same]
  · rw [dropped]
    exact caught.emit nofun
  · rw [ended]
    exact caught.finish _ _
  · rw [accepted]
    have pushed : Caught ({ outbox with outbound := outbox.outbound ++ [message] }.emit (.accepted message)) :=
      emit (caught.of_eq rfl) nofun
    exact pushed.schedules (scheduleWrite_schedules _)

theorem onWrite (caught : Caught outbox) (outcome : Outcome) : Caught (outbox.onWrite outcome) := by
  cases outcome with
  | failure what => exact caught.finish _ _
  | success data => exact caught.schedules (onWritten_schedules outbox)

theorem kept : KeptByHandlers Caught where
  tick _ caught := caught.of_eq rfl
  enqueue _ message caught := caught.enqueue message
  finish _ reason message _ caught := caught.finish reason message
  cancel _ caught := caught.of_eq rfl
  ready _ caught := caught.emit nofun
  launch _ operation caught := caught.launch operation
  onWriteTimer _ outcome caught := caught.schedules (onWriteTimer_schedules _ outcome)
  onWrite _ outcome caught := caught.onWrite outcome

variable {session : Session}

/-- With a valid configuration `begin` does not throw, so the login throws nothing. -/
theorem dispatch {config : RuntimeConfig} (valid : config.Valid) (same : session.protocol.config = config)
    (caught : Caught session.toOutbox) (operation : Operation) (outcome : Outcome) :
    Caught (session.dispatch operation outcome).toOutbox := by
  refine kept.dispatch session (fun what thrown => ?_) operation outcome caught
  rw [begin_greets valid same] at thrown
  split at thrown <;> cases thrown

theorem step {config : RuntimeConfig} (valid : config.Valid) (same : session.protocol.config = config)
    (caught : Caught session.toOutbox) (event : SessionEvent) : Caught (session.step event).toOutbox := by
  cases event with
  | complete index outcome =>
    rcases Session.complete_cases session index outcome with unchanged | ⟨_, _, _, completed⟩
    · rwa [Session.step, unchanged]
    · rw [Session.step, completed]
      exact caught.of_eq rfl
  | deliver index =>
    rw [Session.step, Session.deliver]
    split
    · exact caught
    · rename_i operation outcome io _
      exact @dispatch { session with io := io } config valid same (caught.of_eq rfl) operation outcome
  | enqueue message => exact caught.enqueue message
  | stop => exact caught.finish _ _

end Caught

/-- What holds of a session of a client with this configuration: its bookkeeping
is sound, and no exception has left one of its handlers. -/
structure Contained (config : RuntimeConfig) (session : Session) : Prop where
  configured : session.Configured config
  accounted : Accounted session.toOutbox
  caught : Caught session.toOutbox

namespace Contained

variable {config : RuntimeConfig} {session : Session}

theorem harmless (contained : Contained config session) : ∀ effect ∈ session.trace, effect.escapes = false := by
  intro effect member
  cases effect with
  | uncaught what => exact absurd member (contained.caught what)
  | undefinedBehaviour => cases contained.accounted.lawful _ member
  | _ => rfl

theorem plug (contained : Contained config session) (limiter : RateLimiter) (clock : Nat → Time) :
    Contained config { session with limiter := limiter, clock := clock } :=
  ⟨contained.configured, contained.accounted.aside limiter clock session.closed, contained.caught.of_eq rfl⟩

theorem step (valid : config.Valid) (contained : Contained config session) (event : SessionEvent) :
    Contained config (session.step event) :=
  ⟨contained.configured.step event, (session.step_moves event).keeps (fun _ _ => Accounted.move) contained.accounted,
    contained.caught.step valid contained.configured.config_eq event⟩

theorem new (config : RuntimeConfig) (limiter : RateLimiter) (clock : Nat → Time) (sniConfigured : Bool) :
    Contained config (Session.new config limiter clock sniConfigured) :=
  ⟨⟨[], rfl⟩, accounted_new config limiter clock sniConfigured, nofun⟩

theorem start (contained : Contained config session) : Contained config session.start :=
  ⟨contained.configured, contained.accounted.launch rfl, contained.caught.launch .resolve⟩

end Contained

namespace Client

/-- Every session of the client is contained, and so is what the client has seen
of them. -/
structure Contains (config : RuntimeConfig) (client : Client) : Prop where
  settings : client.config = config
  sessions : ∀ session ∈ client.sessions, Contained config session
  effects : ∀ effect ∈ client.effects, effect.escapes = false

variable {config : RuntimeConfig} {client : Client}

theorem Contains.start (config : RuntimeConfig) (sniConfigured : Bool) (clock : Nat → Time) (random : Nat → Fin 501) :
    Contains config (Client.start { config, sniConfigured, clock, random }) := by
  refine ⟨rfl, ?_, ?_⟩
  · rintro session ⟨⟩
  · rintro effect ⟨⟩

theorem Contains.of_same {next : Client} (contains : client.Contains config) (settings : next.config = client.config)
    (sessions : next.sessions = client.sessions) (trace : next.trace = client.trace) : next.Contains config := by
  refine ⟨settings.trans contains.settings, ?_, ?_⟩
  · rw [sessions]
    exact contains.sessions
  · rw [Client.effects, trace]
    exact contains.effects

theorem Contains.runSession (contains : client.Contains config) (index : Nat) {act : Session → Session}
    (acts : ∀ session, Contained config session → Contained config (act session)) :
    (client.runSession index act).Contains config := by
  have settings := (client.runSession_settings index act).1
  cases found : client.sessions[index]? with
  | none =>
    rw [Client.runSession, found]
    exact contains
  | some session =>
    have kept := acts _ ((contains.sessions session (List.mem_of_getElem? found)).plug client.limiter client.clock)
    have becomes := (client.runSession_becomes found act).sessions
    refine ⟨settings.trans contains.settings, ?_, ?_⟩
    · intro other member
      rw [becomes] at member
      rcases List.mem_or_eq_of_mem_set member with earlier | rfl
      · exact contains.sessions other earlier
      · exact kept
    · intro effect member
      rw [Client.effects, Client.runSession, found, (reacts_undisturbed _ _).trace] at member
      simp only [List.map_append, List.mem_append, List.map_map, Function.comp_def, List.map_id'] at member
      rcases member with earlier | new
      · exact contains.effects effect earlier
      · exact kept.harmless effect (List.mem_of_mem_drop new)

theorem contains_kept (valid : config.Valid) : KeptByEvents (Contains config) where
  turn _ _ _ _ contains := contains.of_same rfl rfl rfl
  act _ index event contains := contains.runSession index (fun _ contained => contained.step valid event)
  create client contains := by
    refine ⟨contains.settings, fun session member => ?_, contains.effects⟩
    rcases List.mem_append.mp member with earlier | last
    · exact contains.sessions session earlier
    · rw [List.mem_singleton.mp last, contains.settings]
      exact .new _ _ _ _
  start _ index contains := contains.runSession index (fun _ contained => contained.start)

end Client

/-- No exception leaves a handler, and none does what has no defined meaning: the
event loop of a client with an accepted configuration goes on through whatever
happens to it. -/
theorem exceptions_contained {parseJson : JsonParser} {environment : Environment} {botJson : Bytes}
    {config : RuntimeConfig} (accepted : parseRuntimeConfig parseJson environment botJson = .ok config)
    (sniConfigured : Bool) (clock : Nat → Time) (random : Nat → Fin 501) (events : List ClientEvent) :
    ∀ effect ∈ ((Client.start { config, sniConfigured, clock, random }).after events).effects,
      effect.escapes = false := by
  have starts := Client.Contains.start config sniConfigured clock random
  exact ((Client.contains_kept (parseRuntimeConfig_ok accepted)).after starts events).effects

end TwitchBot
