import TwitchBot.LifecycleEnds

namespace TwitchBot

open Outbox

namespace Lifecycle

variable {stopCalled : Prop} {client : Client}

/-- A session acts, and the client goes on as it should. -/
theorem runSession (lifecycle : Lifecycle stopCalled client) (index : Nat) {act : Session → Session}
    (moves : ∀ session, Moves session.toOutbox (act session).toOutbox) :
    Lifecycle stopCalled (client.runSession index act) ∧
      ∃ new, Advances client (client.runSession index act) new := by
  cases found : client.sessions[index]? with
  | none =>
    rw [Client.runSession, found]
    exact ⟨lifecycle, Advances.silent rfl⟩
  | some session =>
    have moved := moves (client.plugged session)
    obtain ⟨effects, trace, count⟩ := moved.continues
    have run := Client.runSession_eq found trace
    have kept := (Client.reacts_undisturbed
      (client.acted index (act (client.plugged session)) effects) effects).trace
    rw [← run] at kept
    have grown : (client.runSession index act).effects = client.effects ++ effects := by
      rw [Client.effects, kept]
      exact client.effects_acted index _ effects
    rw [show (client.plugged session).closed = session.closed from rfl] at count
    have cases := closing_cases count
    rcases cases with ⟨none, same⟩ | ⟨single, wasOpen, closed⟩
    · have noEnd : ∀ effect ∈ effects, effect.isEnded = false := by
        simpa using List.countP_eq_zero.mp none
      refine ⟨?_, effects, .quiet grown noEnd⟩
      rw [run]
      exact lifecycle.quiet found noEnd same
    · obtain ⟨before, reason, message, after, rfl, beforeQuiet, afterQuiet⟩ := split_at_end single
      obtain ⟨running, nonePending⟩ := lifecycle.running_of_open found wasOpen
      have ending : Ending stopCalled client index (act (client.plugged session)) before reason message after :=
        ⟨lifecycle, running, nonePending, moved.elapsed, lifecycle.none_open found wasOpen closed, beforeQuiet,
          afterQuiet⟩
      have result := ending.reacts
      rw [← run] at result
      rw [result] at grown ⊢
      have reconnects : (reason = .networkError ∨ reason = .reconnectRequested) →
          client.Reconnects (Ending.left client index _ before reason message after)
            (endsSinceReady (client.effects ++ before)) := fun calls => (ending.reconnect calls).2
      refine ⟨?_, _, grown, fun _ => running, ?_⟩
      · cases reason with
        | networkError => exact (ending.reconnect (Or.inl rfl)).1
        | reconnectRequested => exact (ending.reconnect (Or.inr rfl)).1
        | fatal => exact ending.fatal
        | stopped => exact ending.stopped
      · intro before' reason' message' after' split calls
        obtain ⟨rfl, rfl⟩ := end_unique split beforeQuiet afterQuiet
        exact reconnects calls

/-- A connection that was pending becomes the live session. -/
theorem connect (lifecycle : Lifecycle stopCalled client) (running : client.stopping = false)
    {timer : IoContext Time Outcome} (taken : client.pendingConnections = timer.live Outcome.IsSuccess + 1) :
    Lifecycle stopCalled (Client.connect { client with reconnectTimer := timer }) ∧
      ∃ new, Advances client (Client.connect { client with reconnectTimer := timer }) new := by
  have single := lifecycle.timer_single
  have nonePending : timer.live Outcome.IsSuccess = 0 := by omega
  have noneLive : client.session = none := by
    by_contra isLive
    have none := lifecycle.timer_live isLive
    omega
  have created : Lifecycle stopCalled { client with
      reconnectTimer := timer
      sessions := client.sessions ++
        [Session.new client.config client.limiter client.clock client.sniConfigured]
      session := some client.sessions.length } := by
    refine ⟨?_, ?_, fun _ => nonePending, nonePending.le.trans (Nat.zero_le 1), lifecycle.attempts, ?_,
      lifecycle.stopping_iff, lifecycle.io_stopped, lifecycle.exit_iff⟩
    · intro index session found
      rcases Nat.lt_trichotomy index client.sessions.length with inside | last | outside
      · rw [List.getElem?_append_left inside] at found
        have old := lifecycle.live index session found
        rw [noneLive] at old
        rw [old]
        simp [Nat.ne_of_gt inside]
      · subst last
        rw [List.getElem?_concat_length] at found
        cases Option.some.inj found
        exact iff_of_true rfl rfl
      · rw [List.getElem?_eq_none (by simp; omega)] at found
        cases found
    · intro stopping
      rw [running] at stopping
      cases stopping
    · intro _
      have count := lifecycle.counted running
      show (client.sessions ++ [_]).length + timer.live Outcome.IsSuccess =
        1 + client.effects.countP Effect.isReconnect
      rw [List.length_append, List.length_singleton]
      omega
  have moves (session : Session) : Moves session.toOutbox session.start.toOutbox :=
    (Session.launch_acts session rfl).moves
  obtain ⟨kept, new, advances⟩ := created.runSession client.sessions.length moves
  exact ⟨kept, new, advances.effects, advances.running, advances.reconnects⟩

/-- The handler of the reconnect timer creates a session, unless it was aborted
or the client is stopping. -/
theorem timerHandler (lifecycle : Lifecycle stopCalled client) (index : Nat) :
    Lifecycle stopCalled (client.timerHandler index) ∧ ∃ new, Advances client (client.timerHandler index) new := by
  rcases client.timerHandler_cases index with same | ⟨timer, ⟨taken, fewer, kept⟩ | ⟨connected, running, pending⟩⟩
  · rw [same]
    exact ⟨lifecycle, Advances.silent rfl⟩
  · rw [taken]
    exact ⟨lifecycle.of_timer fewer kept, Advances.silent rfl⟩
  · rw [connected]
    exact lifecycle.connect running pending

/-- An expiring timer leaves its connection pending. -/
theorem timerExpires (lifecycle : Lifecycle stopCalled client) (index : Nat) :
    Lifecycle stopCalled (client.timerExpires index) ∧ ∃ new, Advances client (client.timerExpires index) new := by
  rcases client.timerExpires_cases index with same | expired
  · rw [same]
    exact ⟨lifecycle, Advances.silent rfl⟩
  · have pending := IoContext.live_complete client.reconnectTimer index
      (show Outcome.IsSuccess (.success []) from ⟨[], rfl⟩)
    rw [expired]
    exact ⟨lifecycle.of_timer pending.le (fun _ => pending), Advances.silent rfl⟩

/-- A client that was stopped keeps nothing alive. -/
theorem of_stopped {next : Client} (stopping : next.stopping = true) (none : next.session = none)
    (closed : ∀ (index : Nat) (session : Session), next.sessions[index]? = some session → session.closed = true)
    (single : next.pendingConnections ≤ 1) (exit_iff : next.exitCode = 1 ↔ Fatal next.effects) :
    Lifecycle True next := by
  have halted : ¬next.stopping = false := by simp [stopping]
  refine ⟨?_, fun _ => none, fun isLive => absurd none isLive, single, fun running => absurd running halted,
    fun running => absurd running halted, iff_of_true stopping (Or.inl trivial), fun _ => stopping, exit_iff⟩
  intro index session found
  rw [closed index session found, none]
  simp

/-- A client that was told to stop, before its session is. -/
def halting (client : Client) : Client := Client.cancelTimer { client with stopping := true }

/-- The live session of a client that is stopped ends. -/
theorem stop_live (lifecycle : Lifecycle stopCalled client) (running : client.stopping = false) {index : Nat}
    (isLive : client.session = some index)
    (stopped : client.stop = { (halting client).runSession index Session.stop with session := none }) :
    Lifecycle True client.stop ∧ ∃ new, Advances client client.stop new := by
  have aborted : (halting client).pendingConnections ≤ 1 :=
    (IoContext.live_cancel_le Client.aborted_not_success).trans lifecycle.timer_single
  rw [stopped]
  cases found : (halting client).sessions[index]? with
  | none =>
    rw [Client.runSession, found]
    refine ⟨of_stopped rfl rfl ?_ aborted lifecycle.exit_iff,
      Advances.silent rfl⟩
    intro other second atOther
    by_contra isOpen
    have same := (lifecycle.live other second atOther).mp (by simpa using isOpen)
    rw [isLive] at same
    cases Option.some.inj same
    rw [found] at atOther
    cases atOther
  | some session =>
    have isOpen : session.closed = false := (lifecycle.live index session found).mpr isLive
    have ends : (Session.stop ((halting client).plugged session)).trace =
        session.trace ++ [.ended .stopped (bytes "Stopped")] ∧
        (Session.stop ((halting client).plugged session)).closed = true := by
      simp only [Session.stop, Session.finish, Session.onOutbox, Outbox.finish, Client.plugged, isOpen]
      exact ⟨rfl, rfl⟩
    rw [Client.runSession_eq found ends.1]
    have effects : Client.effects ((halting client).acted index
        (Session.stop ((halting client).plugged session)) [.ended .stopped (bytes "Stopped")]) =
        client.effects ++ [.ended .stopped (bytes "Stopped")] := by
      simp [Client.effects, Client.acted, halting, Client.cancelTimer]
    have handled : { (List.foldl Client.react ((halting client).acted index
          (Session.stop ((halting client).plugged session)) [.ended .stopped (bytes "Stopped")])
          [.ended .stopped (bytes "Stopped")]) with session := none } =
        { (halting client).acted index (Session.stop ((halting client).plugged session))
          [.ended .stopped (bytes "Stopped")] with session := none } := by
      simp [Client.react, Client.handleSessionEnd]
    rw [handled]
    refine ⟨of_stopped rfl rfl (lifecycle.none_open found isOpen ends.2) aborted ?_,
      _, effects, fun _ => running, ?_⟩
    · show client.exitCode = 1 ↔ Fatal (Client.effects ((halting client).acted index
        (Session.stop ((halting client).plugged session)) [.ended .stopped (bytes "Stopped")]))
      rw [effects, fatal_append, or_iff_left (by simp [Fatal, Effect.isFatal])]
      exact lifecycle.exit_iff
    · intro before reason message after split calls
      have same := (end_unique split (fun _ none => absurd none List.not_mem_nil)
        (fun _ none => absurd none List.not_mem_nil)).2
      subst same
      rcases calls with other | other
      all_goals cases other

/-- `stop` leaves nothing alive, whenever it is called. -/
theorem stop (lifecycle : Lifecycle stopCalled client) :
    Lifecycle True client.stop ∧ ∃ new, Advances client client.stop new := by
  rcases client.stop_cases with ⟨stopping, same⟩ | ⟨running, ⟨noneLive, idle⟩ | ⟨index, isLive, stopped⟩⟩
  · rw [same]
    refine ⟨⟨lifecycle.live, lifecycle.idle, lifecycle.timer_live, lifecycle.timer_single, lifecycle.attempts,
      lifecycle.counted, iff_of_true stopping (Or.inl trivial), lifecycle.io_stopped, lifecycle.exit_iff⟩,
      Advances.silent rfl⟩
  · rw [idle]
    refine ⟨of_stopped rfl noneLive ?_
      ((IoContext.live_cancel_le Client.aborted_not_success).trans lifecycle.timer_single) lifecycle.exit_iff,
      Advances.silent rfl⟩
    intro index session found
    by_contra isOpen
    have live := (lifecycle.live index session found).mp (by simpa using isOpen)
    rw [noneLive] at live
    cases live
  · exact lifecycle.stop_live running isLive stopped

/-- Only whether `stop` was called matters. -/
theorem of_iff {called : Prop} (lifecycle : Lifecycle stopCalled client) (same : stopCalled ↔ called) :
    Lifecycle called client := by
  rwa [← propext same]

/-- A client that has stopped anyway does not notice a call of `stop`. -/
theorem of_ioStopped {called : Prop} (lifecycle : Lifecycle stopCalled client) (halted : client.ioStopped = true)
    (weaker : stopCalled → called) : Lifecycle called client := by
  have stopping := lifecycle.io_stopped halted
  exact ⟨lifecycle.live, lifecycle.idle, lifecycle.timer_live, lifecycle.timer_single, lifecycle.attempts,
    lifecycle.counted, iff_of_true stopping ((lifecycle.stopping_iff.mp stopping).imp weaker id),
    lifecycle.io_stopped, lifecycle.exit_iff⟩

/-- The invariant holds across every event. -/
theorem step (lifecycle : Lifecycle stopCalled client) (event : ClientEvent) :
    Lifecycle (stopCalled ∨ event = .stop) (client.step event) ∧
      ∃ new, Advances client (client.step event) new := by
  have other {next : Client} (notStop : event ≠ .stop)
      (result : Lifecycle stopCalled next ∧ ∃ new, Advances client next new) :
      Lifecycle (stopCalled ∨ event = .stop) next ∧ ∃ new, Advances client next new :=
    ⟨result.1.of_iff (or_iff_left notStop).symm, result.2⟩
  unfold Client.step
  split
  · rename_i halted
    exact ⟨lifecycle.of_ioStopped halted Or.inl, Advances.silent rfl⟩
  · cases event with
    | complete session index outcome =>
      exact other ClientEvent.noConfusion
        (lifecycle.runSession session (fun session => session.complete_moves index outcome))
    | deliver session index =>
      exact other ClientEvent.noConfusion
        (lifecycle.runSession session (fun session => session.deliver_moves index))
    | enqueue session message =>
      exact other ClientEvent.noConfusion
        (lifecycle.runSession session (fun session => session.step_moves (.enqueue message)))
    | timerExpires index =>
      exact other ClientEvent.noConfusion (lifecycle.timerExpires index)
    | timerHandler index => exact other ClientEvent.noConfusion (lifecycle.timerHandler index)
    | stop =>
      obtain ⟨stopped, advances⟩ := lifecycle.stop
      exact ⟨stopped.of_iff (iff_of_true trivial (Or.inr rfl)), advances⟩

theorem begins (config : RuntimeConfig) (sniConfigured : Bool) (clock : Nat → Time) (random : Nat → Fin 501) :
    Lifecycle False (Client.start { config, sniConfigured, clock, random }) := by
  refine ⟨?_, fun _ => rfl, fun isLive => absurd rfl isLive, le_rfl, fun _ => rfl, fun _ => rfl, ?_,
    fun halted => Bool.noConfusion halted, ?_⟩
  · intro index session none
    cases none
  · exact iff_of_false Bool.noConfusion (by rintro (called | ⟨effect, none, _⟩); exacts [called, by cases none])
  · exact iff_of_false (fun exit => by cases exit) (by rintro ⟨effect, none, _⟩; cases none)

/-- The invariant holds along every run. -/
theorem after (lifecycle : Lifecycle stopCalled client) (events : List ClientEvent) :
    Lifecycle (stopCalled ∨ .stop ∈ events) (client.after events) := by
  induction events using List.reverseRecOn with
  | nil => exact lifecycle.of_iff (or_iff_left List.not_mem_nil).symm
  | append_singleton events event ih =>
    rw [Client.after_concat]
    refine (ih.step event).1.of_iff ?_
    rw [List.mem_append, List.mem_singleton, or_assoc, eq_comm]

end Lifecycle

namespace Client

/-- What the sessions of a client do during an event. -/
def newEffects (client : Client) (event : ClientEvent) : List Effect :=
  (client.step event).effects.drop client.effects.length

/-- In the course of the events a session ends with a fatal error before `stop`
is called. -/
def FatalBeforeStop (client : Client) (events : List ClientEvent) : Prop :=
  ∃ earlier event later, events = earlier ++ event :: later ∧ .stop ∉ earlier ∧
    Fatal ((client.after earlier).newEffects event)

end Client

/-- What an event adds are its new effects. -/
theorem Lifecycle.advances {stopCalled : Prop} {client : Client} (lifecycle : Lifecycle stopCalled client)
    (event : ClientEvent) : Advances client (client.step event) (client.newEffects event) := by
  obtain ⟨new, advances⟩ := (lifecycle.step event).2
  have same : client.newEffects event = new := by
    rw [Client.newEffects, advances.effects]
    exact List.drop_left
  rwa [same]

theorem Client.runSession_length (client : Client) (index : Nat) (act : Session → Session) :
    (client.runSession index act).sessions.length = client.sessions.length := by
  unfold Client.runSession
  split
  · rfl
  · dsimp only
    rw [(Client.reacts_undisturbed _ _).sessions, List.length_set]

/-- A client that is stopping creates no session. -/
theorem Client.step_length {client : Client} (stopping : client.stopping = true) (event : ClientEvent) :
    (client.step event).sessions.length = client.sessions.length := by
  unfold Client.step
  split
  · rfl
  · cases event with
    | complete session index outcome => exact client.runSession_length session _
    | deliver session index => exact client.runSession_length session _
    | enqueue session message => exact client.runSession_length session _
    | timerExpires index =>
      show (client.timerExpires index).sessions.length = _
      rcases client.timerExpires_cases index with same | expired
      · rw [same]
      · rw [expired]
    | timerHandler index =>
      show (client.timerHandler index).sessions.length = _
      unfold Client.timerHandler
      split
      · rfl
      · rename_i deadline outcome timer taken
        cases outcome with
        | failure what => rfl
        | success data => simp only [Client.onReconnectTimer, stopping, if_true]
    | stop => simp only [Client.stop, stopping, if_true]

/-- Once it has stopped or has met a fatal end, a client creates no session. -/
theorem Lifecycle.length_after {stopCalled : Prop} {client : Client} (lifecycle : Lifecycle stopCalled client)
    (halted : stopCalled ∨ Fatal client.effects) (later : List ClientEvent) :
    (client.after later).sessions.length = client.sessions.length := by
  induction later generalizing stopCalled client with
  | nil => rfl
  | cons event later ih =>
    have grown := (lifecycle.advances event).effects
    have next : (stopCalled ∨ event = .stop) ∨ Fatal (client.step event).effects := by
      rw [grown, fatal_append]
      exact halted.imp Or.inl Or.inl
    exact (ih (lifecycle.step event).1 next).trans (Client.step_length (lifecycle.stopping_iff.mpr halted) event)

/-- A fatal end before `stop` is all that makes the effects of a run fatal. -/
theorem fatal_iff_before_stop {client : Client} (lifecycle : Lifecycle False client) (calm : ¬Fatal client.effects)
    (events : List ClientEvent) : Fatal (client.after events).effects ↔ client.FatalBeforeStop events := by
  induction events using List.reverseRecOn with
  | nil =>
    refine iff_of_false calm ?_
    rintro ⟨earlier, event, later, split, _⟩
    simp at split
  | append_singleton events event ih =>
    have reached := lifecycle.after events
    have advances := reached.advances event
    rw [Client.after_concat, advances.effects, fatal_append, ih]
    constructor
    · rintro (⟨earlier, first, later, rfl, notStop, fatal⟩ | fatal)
      · exact ⟨earlier, first, later ++ [event], by simp, notStop, fatal⟩
      · obtain ⟨effect, member, isFatal⟩ := fatal
        have ends : effect.isEnded = true := by
          by_contra noEnd
          rw [(Effect.quiet_of_not_ended (by simpa using noEnd)).2] at isFatal
          cases isFatal
        have running := advances.running ⟨effect, member, ends⟩
        have notStop : .stop ∉ events := by
          intro called
          rw [reached.stopping_iff.mpr (Or.inl (Or.inr called))] at running
          cases running
        exact ⟨events, event, [], rfl, notStop, effect, member, isFatal⟩
    · rintro ⟨earlier, first, later, split, notStop, fatal⟩
      rcases List.eq_nil_or_concat later with rfl | ⟨later, last, rfl⟩
      · obtain ⟨rfl, rest⟩ := List.append_inj' split rfl
        cases rest
        exact Or.inr fatal
      · rw [List.concat_eq_append, ← List.cons_append, ← List.append_assoc] at split
        obtain ⟨rfl, _⟩ := List.append_inj' split rfl
        exact Or.inl ⟨earlier, first, later, rfl, notStop, fatal⟩

/-- Along every run of a client from its start, at most one session is open, and
never while a connection is pending. Until `stop` is called or a session ends
with a fatal error, every other end schedules one connection, with a delay that
doubles with the ends since the last ready notification up to 64 seconds.
Afterwards no session is created. The exit code tells whether a fatal end came
before `stop`. -/
theorem lifecycle_and_backoff (config : RuntimeConfig) (sniConfigured : Bool) (clock : Nat → Time)
    (random : Nat → Fin 501) (events : List ClientEvent) :
    let start := Client.start { config, sniConfigured, clock, random }
    let client := start.after events
    (∀ (i j : Nat) (s t : Session), client.sessions[i]? = some s → client.sessions[j]? = some t →
        s.closed = false → t.closed = false → i = j) ∧
      (∀ session ∈ client.sessions, session.closed = false → client.pendingConnections = 0) ∧
      (.stop ∉ events → ¬Fatal client.effects →
        client.sessions.length + client.pendingConnections = 1 + client.effects.countP Effect.isReconnect ∧
          ∀ event before reason message after,
            client.newEffects event = before ++ .ended reason message :: after →
            reason = .networkError ∨ reason = .reconnectRequested →
              client.Reconnects (client.step event) (endsSinceReady (client.effects ++ before))) ∧
      (.stop ∈ events ∨ Fatal client.effects → ∀ later,
        (client.after later).sessions.length = client.sessions.length) ∧
      (client.exitCode = 1 ↔ start.FatalBeforeStop events) := by
  intro start client
  have begins : Lifecycle False start := .begins config sniConfigured clock random
  have calm : ¬Fatal start.effects := by
    rintro ⟨effect, none, _⟩
    cases none
  have lifecycle : Lifecycle (.stop ∈ events) client := (begins.after events).of_iff (or_iff_right id)
  refine ⟨fun i j s t first second isOpen isOpen' => lifecycle.unique first second isOpen isOpen', ?_, ?_,
    fun halted later => lifecycle.length_after halted later,
    lifecycle.exit_iff.trans (fatal_iff_before_stop begins calm events)⟩
  · intro session member isOpen
    obtain ⟨index, found⟩ := List.getElem?_of_mem member
    exact (lifecycle.running_of_open found isOpen).2
  · intro notStop notFatal
    have running : client.stopping = false := by
      by_contra stopping
      rcases lifecycle.stopping_iff.mp (by simpa using stopping) with called | fatal
      · exact notStop called
      · exact notFatal fatal
    refine ⟨lifecycle.counted running, fun event before reason message after split calls => ?_⟩
    exact (lifecycle.advances event).reconnects before reason message after split calls

end TwitchBot
