import TwitchBot.ClientSessions
import TwitchBot.ConnectionRuns
import TwitchBot.QueueFrames

namespace TwitchBot

open Outbox Relation

/-- The end of a session that was asked to stop. -/
def Effect.isStopped : Effect → Bool
  | .ended .stopped _ => true
  | _ => false

/-- How often a session was asked to stop. -/
def Outbox.stops (outbox : Outbox) : Nat := outbox.trace.countP Effect.isStopped

namespace Outbox

theorem emit_stops (outbox : Outbox) (effect : Effect) (other : effect.isStopped = false) :
    (outbox.emit effect).stops = outbox.stops := by
  rw [stops, emit, List.countP_append, List.countP_singleton, other]
  rfl

theorem finish_stops (outbox : Outbox) {reason : SessionEndReason} (message : Bytes) (other : reason ≠ .stopped) :
    (outbox.finish reason message).stops = outbox.stops := by
  unfold finish
  split
  · rfl
  · refine emit_stops _ _ ?_
    cases reason with
    | stopped => exact absurd rfl other
    | _ => rfl

theorem stopped_overlooks (effect : Effect) (scheduling : effect.isScheduling = true) : effect.isStopped = false := by
  cases effect with
  | ended reason message => cases scheduling
  | _ => rfl

theorem enqueue_stops (outbox : Outbox) (message : OutboundMessage) :
    (outbox.enqueue message).stops = outbox.stops := by
  rcases enqueue_cases outbox message with ⟨_, same⟩ | ⟨_, _, _, dropped⟩ | ⟨_, _, _, ended⟩ | ⟨_, _, accepted⟩
  · rw [same]
  · rw [dropped]
    exact emit_stops outbox _ rfl
  · rw [ended]
    exact finish_stops outbox _ nofun
  · rw [accepted]
    refine ((scheduleWrite_schedules _).countP stopped_overlooks).trans ?_
    exact emit_stops { outbox with outbound := outbox.outbound ++ [message] } (.accepted message) rfl

theorem onWrite_stops (outbox : Outbox) (outcome : Outcome) : (outbox.onWrite outcome).stops = outbox.stops := by
  cases outcome with
  | failure what => exact finish_stops outbox _ nofun
  | success data => exact (onWritten_schedules outbox).countP stopped_overlooks

theorem onWriteTimer_stops (outbox : Outbox) (outcome : Outcome) :
    (outbox.onWriteTimer outcome).stops = outbox.stops :=
  (onWriteTimer_schedules outbox outcome).countP stopped_overlooks

theorem stops_kept (count : Nat) : KeptByHandlers (fun outbox => outbox.stops = count) where
  tick _ same := same
  enqueue outbox message same := (enqueue_stops outbox message).trans same
  finish outbox _ message other same := (finish_stops outbox message other).trans same
  cancel _ same := same
  ready outbox same := (emit_stops outbox .ready rfl).trans same
  launch outbox operation same :=
    (emit_stops { outbox with io := outbox.io.start operation } (.started operation) rfl).trans same
  onWriteTimer outbox outcome same := (onWriteTimer_stops outbox outcome).trans same
  onWrite outbox outcome same := (onWrite_stops outbox outcome).trans same

end Outbox

namespace Session

/-- A session ends itself for other reasons. -/
theorem step_stops (session : Session) {event : SessionEvent} (other : event ≠ .stop) :
    (session.step event).stops = session.stops := by
  cases event with
  | complete index outcome =>
    rcases session.complete_cases index outcome with same | ⟨_, _, _, completed⟩
    · rw [step, same]
    · rw [step, completed]
      rfl
  | deliver index =>
    simp only [step, deliver]
    split
    · rfl
    · rename_i operation outcome io _
      exact (stops_kept session.stops).dispatch { session with io := io }
        (fun what _ => emit_stops { session with io := io }.toOutbox (.uncaught what) rfl) operation outcome rfl
  | enqueue message => exact enqueue_stops session.toOutbox message
  | stop => exact absurd rfl other

end Session

/-- What the client is for: it keeps a connection, and waits before it makes
another one, until it is stopped or a session fails for good. -/
inductive Supervision
  | waiting
  | serving (stage : Stage)
  | stopped
  | failed

inductive Supervision.Step : Supervision → Supervision → Prop
  | connects : Step .waiting (.serving .resolving)
  | advances (stage next : Stage) : Connection.Step ⟨stage, false⟩ ⟨next, false⟩ → Step (.serving stage) (.serving next)
  | retries (stage : Stage) : Step (.serving stage) .waiting
  | fails (stage : Stage) : Step (.serving stage) .failed
  | stops : Step .waiting .stopped
  | stopsServing (stage : Stage) : Step (.serving stage) .stopped

/-- The connection of the live session is open along its way to an open one. -/
theorem Supervision.advances_run {stage next : Stage}
    (run : ReflTransGen Connection.Step ⟨stage, false⟩ ⟨next, false⟩) :
    ReflTransGen Supervision.Step (.serving stage) (.serving next) := by
  generalize first : (⟨stage, false⟩ : Connection) = start at run
  induction run using ReflTransGen.head_induction_on generalizing stage with
  | refl =>
    cases first
    exact .refl
  | head step rest ih =>
    subst first
    rename_i middle
    obtain ⟨later, isOver⟩ := middle
    cases isOver with
    | true =>
      have stays {connection : Connection} (isOver : connection.isOver = true)
          (run : ReflTransGen Connection.Step connection ⟨next, false⟩) : False := by
        induction run using ReflTransGen.head_induction_on with
        | refl => cases isOver
        | head step _ ih =>
          refine ih ?_
          cases step <;> simp_all
      exact (stays rfl rest).elim
    | false => exact (ReflTransGen.single (.advances stage later step)).trans (ih rfl)

namespace Client

/-- The live session of a client, at its stage. -/
structure Serves (config : RuntimeConfig) (client : Client) (stage : Stage) (index : Nat) (session : Session) :
    Prop where
  isLive : client.session = some index
  found : client.sessions[index]? = some session
  realizes : Realizes config session ⟨stage, false⟩

/-- A running client that has no live session has one connection pending. One
that does not run was stopped, unless a session of it has met a fatal end. -/
def Supervises (config : RuntimeConfig) (client : Client) : Supervision → Prop
  | .waiting => client.stopping = false ∧ client.session = none ∧ client.pendingConnections = 1
  | .serving stage => client.stopping = false ∧ client.pendingConnections = 0 ∧
    ∃ index session, client.Serves config stage index session
  | .stopped => client.stopping = true ∧ ¬Fatal client.effects
  | .failed => client.stopping = true ∧ Fatal client.effects

variable {config : RuntimeConfig} {stopCalled : Prop} {client : Client} {supervision : Supervision}

/-- A session that acts without ending leaves the rest of the client alone. -/
theorem supervises_quiet (supervises : client.Supervises config supervision) {index : Nat} {session next : Session}
    (found : client.sessions[index]? = some session) {effects : List Effect}
    (noEnd : ∀ effect ∈ effects, effect.isEnded = false) (closed : session.closed = true) :
    (effects.foldl react (client.acted index next effects)).Supervises config supervision := by
  have fatal_iff : Fatal (Client.effects (client.acted index next effects)) ↔ Fatal client.effects := by
    rw [effects_acted, fatal_append, or_iff_left (not_fatal_of_quiet noEnd)]
  rw [reacts_quiet noEnd]
  cases supervision with
  | waiting => exact supervises
  | stopped => exact ⟨supervises.1, fatal_iff.not.mpr supervises.2⟩
  | failed => exact ⟨supervises.1, fatal_iff.mpr supervises.2⟩
  | serving stage =>
    obtain ⟨running, nonePending, live, serving, serves⟩ := supervises
    refine ⟨running, nonePending, live, serving, serves.isLive, ?_, serves.realizes⟩
    have distinct : live ≠ index := by
      rintro rfl
      have same := Option.some.inj (found.symm.trans serves.found)
      rw [same, serves.realizes.closed] at closed
      cases closed
    exact (acted_other distinct next effects).trans serves.found

/-- The live session of a supervised client. -/
theorem supervises_live (lifecycle : Lifecycle stopCalled client) (supervises : client.Supervises config supervision)
    {index : Nat} {session : Session} (found : client.sessions[index]? = some session)
    (isOpen : session.closed = false) :
    ∃ stage, supervision = .serving stage ∧ client.Serves config stage index session := by
  have isLive := (lifecycle.live index session found).mp isOpen
  cases supervision with
  | waiting =>
    rw [supervises.2.1] at isLive
    cases isLive
  | stopped | failed =>
    rw [lifecycle.idle supervises.1] at isLive
    cases isLive
  | serving stage =>
    obtain ⟨_, _, live, serving, serves⟩ := supervises
    obtain rfl := Option.some.inj (serves.isLive.symm.trans isLive)
    obtain rfl := Option.some.inj (serves.found.symm.trans found)
    exact ⟨stage, rfl, serves⟩

/-- The live session ends, and the client waits for the next connection or halts. -/
theorem supervises_end (lifecycle : Lifecycle stopCalled client) {next : Client} (kept : Lifecycle stopCalled next)
    {before after : List Effect} {reason : SessionEndReason} {message : Bytes} (running : client.stopping = false)
    (advances : Advances client next (before ++ .ended reason message :: after))
    (beforeQuiet : ∀ effect ∈ before, effect.isEnded = false)
    (afterQuiet : ∀ effect ∈ after, effect.isEnded = false) (other : reason ≠ .stopped) (stage : Stage) :
    ∃ later, ReflTransGen Supervision.Step (.serving stage) later ∧ next.Supervises config later := by
  have fatal_iff : Fatal next.effects ↔ Fatal client.effects ∨ Effect.isFatal (.ended reason message) = true := by
    have split : Fatal (.ended reason message :: after) ↔
        Effect.isFatal (.ended reason message) = true ∨ Fatal after := by simp [Fatal]
    rw [advances.effects, fatal_append, fatal_append, split, or_iff_right (not_fatal_of_quiet beforeQuiet),
      or_iff_left (not_fatal_of_quiet afterQuiet)]
  have calm : ¬(stopCalled ∨ Fatal client.effects) := by
    rw [← lifecycle.stopping_iff, running]
    exact Bool.noConfusion
  have retries (again : reason = .networkError ∨ reason = .reconnectRequested)
      (notFatal : Effect.isFatal (.ended reason message) = false) :
      ∃ later, ReflTransGen Supervision.Step (.serving stage) later ∧ next.Supervises config later := by
    obtain ⟨_, _, _, _, pending, _⟩ := advances.reconnects before reason message after rfl again
    refine ⟨.waiting, .single (.retries stage), ?_, ?_, pending⟩
    · by_contra stopping
      have halted := kept.stopping_iff.mp (by simpa using stopping)
      rw [fatal_iff, notFatal] at halted
      exact calm (by simpa using halted)
    · by_contra isLive
      have none := kept.timer_live isLive
      omega
  cases reason with
  | networkError => exact retries (Or.inl rfl) rfl
  | reconnectRequested => exact retries (Or.inr rfl) rfl
  | fatal =>
    have met : Fatal next.effects := fatal_iff.mpr (Or.inr rfl)
    exact ⟨.failed, .single (.fails stage), kept.stopping_iff.mpr (Or.inr met), met⟩
  | stopped => exact absurd rfl other

/-- An event of a session is some steps of the supervision. -/
theorem supervises_runSession (valid : config.Valid) (lifecycle : Lifecycle stopCalled client)
    (supervises : client.Supervises config supervision) (index : Nat) (own : SessionEvent) (notStop : own ≠ .stop)
    (notEnqueue : ∀ message, own ≠ .enqueue message) :
    ∃ later, ReflTransGen Supervision.Step supervision later ∧
      (client.runSession index (·.step own)).Supervises config later := by
  cases found : client.sessions[index]? with
  | none =>
    rw [runSession, found]
    exact ⟨supervision, .refl, supervises⟩
  | some session =>
    have moved := (client.plugged session).step_moves own
    obtain ⟨effects, trace, count⟩ := moved.continues
    have run : client.runSession index (·.step own) = _ := runSession_eq found trace
    obtain ⟨kept, new, advances⟩ := lifecycle.runSession index (fun session => session.step_moves own)
    rw [show (client.plugged session).closed = session.closed from rfl] at count
    rcases closing_cases count with ⟨none, same⟩ | ⟨single, wasOpen, closed⟩
    · have noEnd : ∀ effect ∈ effects, effect.isEnded = false := by
        simpa using List.countP_eq_zero.mp none
      rw [run]
      cases isOpen : session.closed with
      | true => exact ⟨supervision, .refl, supervises_quiet supervises found noEnd isOpen⟩
      | false =>
        obtain ⟨stage, rfl, serves⟩ := supervises_live lifecycle supervises found isOpen
        obtain ⟨⟨later, isOver⟩, moves, realizes⟩ := connection_forward valid _ _ own
          (serves.realizes.plug client.limiter client.clock) notEnqueue
        rw [isOpen] at same
        obtain rfl : isOver = false := realizes.closed.symm.trans same
        refine ⟨.serving later, Supervision.advances_run moves, ?_⟩
        rw [reacts_quiet noEnd]
        exact ⟨supervises.1, supervises.2.1, index, _, serves.isLive, acted_self found _ effects, realizes⟩
    · obtain ⟨stage, rfl, serves⟩ := supervises_live lifecycle supervises found wasOpen
      have grown : (client.runSession index (·.step own)).effects = client.effects ++ effects := by
        rw [run, Client.effects, (reacts_undisturbed _ _).trace]
        exact client.effects_acted index _ effects
      obtain rfl := List.append_cancel_left (advances.effects.symm.trans grown)
      obtain ⟨before, reason, message, after, rfl, beforeQuiet, afterQuiet⟩ := split_at_end single
      have other : reason ≠ .stopped := by
        rintro rfl
        have stops := (client.plugged session).step_stops notStop
        rw [Outbox.stops, Outbox.stops, trace, List.countP_append] at stops
        have positive : 0 < (before ++ .ended .stopped message :: after).countP Effect.isStopped :=
          List.countP_pos_iff.mpr ⟨_, List.mem_append_right _ List.mem_cons_self, rfl⟩
        have same : (client.plugged session).trace = session.trace := rfl
        rw [same] at stops
        omega
      exact supervises_end lifecycle kept (lifecycle.running_of_open found wasOpen).1 advances beforeQuiet afterQuiet
        other stage

/-- The client with one more session, before that has started. -/
def created (client : Client) : Client :=
  { client with
    sessions := client.sessions ++ [Session.new client.config client.limiter client.clock client.sniConfigured]
    session := some client.sessions.length }

theorem connect_eq (client : Client) :
    client.connect = client.created.acted client.sessions.length
      (Session.new client.config client.limiter client.clock client.sniConfigured).start [.started .resolve] := by
  have found : client.created.sessions[client.sessions.length]? =
      some (Session.new client.config client.limiter client.clock client.sniConfigured) :=
    List.getElem?_concat_length
  have trace : (Session.start (client.created.plugged
      (Session.new client.config client.limiter client.clock client.sniConfigured))).trace =
      (Session.new client.config client.limiter client.clock client.sniConfigured).trace ++ [.started .resolve] := rfl
  exact runSession_eq found trace

/-- Only the connections that the timer holds pending matter. -/
theorem supervises_timer (supervises : client.Supervises config supervision) {timer : IoContext Time Outcome}
    (same : client.stopping = false → timer.live Outcome.IsSuccess = client.pendingConnections) :
    Supervises config { client with reconnectTimer := timer } supervision := by
  cases supervision with
  | stopped => exact supervises
  | failed => exact supervises
  | waiting => exact ⟨supervises.1, supervises.2.1, (same supervises.1).trans supervises.2.2⟩
  | serving stage =>
    obtain ⟨running, nonePending, index, session, serves⟩ := supervises
    exact ⟨running, (same running).trans nonePending, index, session, serves.isLive, serves.found, serves.realizes⟩

/-- The handler of the reconnect timer makes the next connection. -/
theorem supervises_timerHandler (settings : client.config = config)
    (supervises : client.Supervises config supervision) (index : Nat) :
    ∃ later, ReflTransGen Supervision.Step supervision later ∧
      (client.timerHandler index).Supervises config later := by
  rcases client.timerHandler_cases index with same | ⟨timer, ⟨taken, _, kept⟩ | ⟨connected, running, pending⟩⟩
  · rw [same]
    exact ⟨supervision, .refl, supervises⟩
  · rw [taken]
    exact ⟨supervision, .refl, supervises_timer supervises kept⟩
  · rw [connected]
    cases supervision with
    | stopped | failed =>
      rw [supervises.1] at running
      cases running
    | serving stage =>
      rw [supervises.2.1] at pending
      omega
    | waiting =>
      rw [supervises.2.2] at pending
      rw [connect_eq]
      refine ⟨.serving .resolving, .single .connects, running, Nat.succ_injective pending.symm, _, _, rfl,
        acted_self List.getElem?_concat_length _ _, ?_⟩
      rw [settings]
      exact realizes_start config _ _ _

/-- A client that is stopped meets no fatal end on that account. -/
theorem fatal_stop (client : Client) : Fatal client.stop.effects ↔ Fatal client.effects := by
  rcases client.stop_cases with ⟨_, same⟩ | ⟨_, ⟨_, idle⟩ | ⟨index, _, stopped⟩⟩
  · rw [same]
  · rw [idle]
    rfl
  · have halting : (cancelTimer { client with stopping := true }).effects = client.effects := rfl
    rw [stopped]
    show Fatal (runSession _ index Session.stop).effects ↔ _
    cases found : (cancelTimer { client with stopping := true }).sessions[index]? with
    | none =>
      rw [runSession, found]
      rfl
    | some session =>
      have ended : ∃ effects, ((plugged (cancelTimer { client with stopping := true }) session).stop).trace =
          session.trace ++ effects ∧ ¬Fatal effects := by
        simp only [Session.stop, Session.finish, Session.onOutbox, Outbox.finish]
        split
        · exact ⟨[], (List.append_nil _).symm, by simp [Fatal]⟩
        · exact ⟨[.ended .stopped (bytes "Stopped")], rfl, by simp [Fatal, Effect.isFatal]⟩
      obtain ⟨effects, trace, calm⟩ := ended
      rw [runSession_eq found trace, Client.effects, (reacts_undisturbed _ _).trace]
      show Fatal (Client.effects (acted _ index _ effects)) ↔ _
      rw [effects_acted, fatal_append, or_iff_left calm, halting]

/-- A client that does not run meets no fatal end any more. -/
theorem fatal_of_stopping (lifecycle : Lifecycle stopCalled client) (stopping : client.stopping = true)
    (event : ClientEvent) : Fatal (client.step event).effects ↔ Fatal client.effects := by
  have advances := lifecycle.advances event
  have calm : ¬Fatal (client.newEffects event) := by
    rintro ⟨effect, member, fatal⟩
    have ends : effect.isEnded = true := by
      by_contra noEnd
      rw [(Effect.quiet_of_not_ended (by simpa using noEnd)).2] at fatal
      cases fatal
    have running := advances.running ⟨effect, member, ends⟩
    rw [stopping] at running
    cases running
  rw [advances.effects, fatal_append, or_iff_left calm]

/-- Nothing takes up a client again that does not run. -/
theorem supervises_stopping (lifecycle : Lifecycle stopCalled client) (stopping : client.stopping = true)
    (supervises : client.Supervises config supervision) (event : ClientEvent) :
    (client.step event).Supervises config supervision := by
  have stays := step_stopping lifecycle stopping event
  have fatal_iff := fatal_of_stopping lifecycle stopping event
  cases supervision with
  | stopped => exact ⟨stays, fatal_iff.not.mpr supervises.2⟩
  | failed => exact ⟨stays, fatal_iff.mpr supervises.2⟩
  | waiting | serving stage =>
    rw [supervises.1] at stopping
    cases stopping

/-- A client that runs is stopped. -/
theorem supervises_stop (lifecycle : Lifecycle stopCalled client) (running : client.stopping = false)
    (supervises : client.Supervises config supervision) :
    ReflTransGen Supervision.Step supervision .stopped ∧ client.stop.Supervises config .stopped := by
  have calm : ¬Fatal client.effects := by
    intro fatal
    rw [lifecycle.stopping_iff.mpr (Or.inr fatal)] at running
    cases running
  refine ⟨?_, lifecycle.stop.1.stopping_iff.mpr (Or.inl trivial), client.fatal_stop.not.mpr calm⟩
  cases supervision with
  | waiting => exact .single .stops
  | serving stage => exact .single (.stopsServing stage)
  | stopped => exact .refl
  | failed => exact absurd supervises.2 calm

end Client

/-- Every event of a running program is some steps of the supervision. -/
theorem supervision_forward {config : RuntimeConfig} (valid : config.Valid) :
    Simulation.Forward Client.step (fun event => ∀ session message, event ≠ .enqueue session message)
      Supervision.Step (fun client supervision => (∃ stopCalled, Lifecycle stopCalled client) ∧
        client.config = config ∧ client.Supervises config supervision) := by
  rintro client supervision event ⟨⟨stopCalled, lifecycle⟩, settings, supervises⟩ own
  have kept := (lifecycle.step event).1
  have settings' := (client.step_settings event).1.trans settings
  by_cases stopping : client.stopping = true
  · exact ⟨supervision, .refl, ⟨_, kept⟩, settings', Client.supervises_stopping lifecycle stopping supervises event⟩
  have goes {next : Client} (same : client.step event = next)
      (later : ∃ later, ReflTransGen Supervision.Step supervision later ∧ next.Supervises config later) :
      ∃ later, ReflTransGen Supervision.Step supervision later ∧
        (∃ stopCalled, Lifecycle stopCalled (client.step event)) ∧ (client.step event).config = config ∧
        (client.step event).Supervises config later := by
    obtain ⟨later, moves, supervises⟩ := later
    exact ⟨later, moves, ⟨_, kept⟩, settings', same ▸ supervises⟩
  have running : client.ioStopped = false := by
    by_contra halted
    exact stopping (lifecycle.io_stopped (by simpa using halted))
  cases event with
  | complete session index outcome =>
    refine goes (by rw [Client.step, running]; rfl) (Client.supervises_runSession valid lifecycle supervises session
      (.complete index outcome) nofun nofun)
  | deliver session index =>
    refine goes (by rw [Client.step, running]; rfl) (Client.supervises_runSession valid lifecycle supervises session
      (.deliver index) nofun nofun)
  | enqueue session message => exact absurd rfl (own session message)
  | timerExpires index =>
    have same : (client.timerExpires index).Supervises config supervision := by
      rcases client.timerExpires_cases index with same | expired
      · rwa [same]
      · rw [expired]
        exact Client.supervises_timer supervises (fun _ => IoContext.live_complete _ _ ⟨[], rfl⟩)
    exact goes (by rw [Client.step, running]; rfl) ⟨supervision, .refl, same⟩
  | timerHandler index =>
    exact goes (by rw [Client.step, running]; rfl) (Client.supervises_timerHandler settings supervises index)
  | stop =>
    have same : client.step .stop = client.stop := by
      rw [Client.step, running]
      rfl
    exact goes same ⟨.stopped, Client.supervises_stop lifecycle (by simpa using stopping) supervises⟩

/-- Every run of a client with an accepted configuration is a run of its
supervision. Until it is stopped or meets a fatal end, and only until then, the
client has a live session that waits for the operation of its stage, or exactly
one connection pending; it never waits for nothing. -/
theorem client_refines_supervision {parseJson : JsonParser} {environment : Environment} {botJson : Bytes}
    {config : RuntimeConfig} (accepted : parseRuntimeConfig parseJson environment botJson = .ok config)
    (sniConfigured : Bool) (clock : Nat → Time) (random : Nat → Fin 501) {events : List ClientEvent}
    (own : OwnEvents events) :
    let client := (Client.start { config, sniConfigured, clock, random }).after events
    ∃ supervision, ReflTransGen Supervision.Step .waiting supervision ∧ client.Supervises config supervision ∧
      (client.stopping = true ↔ .stop ∈ events ∨ Fatal client.effects) := by
  intro client
  have begins := Lifecycle.begins config sniConfigured clock random
  have holds : (∃ stopCalled, Lifecycle stopCalled (Client.start { config, sniConfigured, clock, random })) ∧
      (Client.start { config, sniConfigured, clock, random }).config = config ∧
        (Client.start { config, sniConfigured, clock, random }).Supervises config .waiting :=
    ⟨⟨_, begins⟩, rfl, rfl, rfl, rfl⟩
  obtain ⟨supervision, moves, _, _, supervises⟩ := (supervision_forward (parseRuntimeConfig_ok accepted)).run holds
    (fun event member session message same => own session message (same ▸ member))
  have lifecycle : Lifecycle (.stop ∈ events) client := (begins.after events).of_iff (or_iff_right id)
  exact ⟨supervision, moves, supervises, lifecycle.stopping_iff⟩

/-- A client that has made its first connection and has resolved the host name. -/
def connectingClient : Client :=
  (Client.start { config := validConfig, clock := fun n => n, random := fun _ => Fin.last 500 }).after
    [.timerExpires 0, .timerHandler 0, .complete 0 0 (.success []), .deliver 0 0]

/-- It runs, and its session waits for the connection. -/
theorem client_refines_supervision_connecting :
    ReflTransGen Supervision.Step .waiting (.serving .connecting) ∧
      connectingClient.Supervises validConfig (.serving .connecting) ∧ connectingClient.stopping = false := by
  have running : connectingClient.stopping = false := by decide +kernel
  have refines := client_refines_supervision validConfig_accepted true (fun n => n) (fun _ => Fin.last 500)
    (show OwnEvents [.timerExpires 0, .timerHandler 0, .complete 0 0 (.success []), .deliver 0 0] by simp [OwnEvents])
  rw [← connectingClient] at refines
  obtain ⟨supervision, moves, supervises, _⟩ := refines
  cases supervision with
  | waiting => exact absurd supervises.2.1 (by decide +kernel)
  | stopped | failed =>
    rw [supervises.1] at running
    cases running
  | serving stage =>
    obtain ⟨_, nonePending, index, session, isLive, found, realizes⟩ := supervises
    have stages : stagesOf session.trace = [.resolve, .connect] := by
      have only : connectingClient.sessions.map (fun session => stagesOf session.trace) = [[.resolve, .connect]] := by
        decide +kernel
      have member := List.mem_map_of_mem (List.mem_of_getElem? found) (f := fun session => stagesOf session.trace)
      rw [only] at member
      exact List.mem_singleton.mp member
    rw [realizes.stages] at stages
    cases stage with
    | connecting => exact ⟨moves, ⟨running, nonePending, index, session, isLive, found, realizes⟩, running⟩
    | _ => simp [Stage.started] at stages

end TwitchBot
