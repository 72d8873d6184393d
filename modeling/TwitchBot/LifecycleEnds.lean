import TwitchBot.RateSafety
import TwitchBot.SessionEnds

namespace TwitchBot

open Outbox

/-- The ends of a session after which the client connects again. -/
def Effect.isReconnect : Effect → Bool
  | .ended .networkError _ => true
  | .ended .reconnectRequested _ => true
  | _ => false

def Effect.isFatal : Effect → Bool
  | .ended .fatal _ => true
  | _ => false

def Effect.isReady : Effect → Bool
  | .ready => true
  | _ => false

/-- Counts the ends since the last ready notification. Each is followed by a wait
of a second at least, so `reconnect_attempt_` does not leave its range. -/
def Effect.countEnd (ends : Nat) (effect : Effect) : Nat :=
  if effect.isReady then 0 else if effect.isReconnect then ends + 1 else ends

def endsSinceReady (effects : List Effect) : Nat := effects.foldl Effect.countEnd 0

theorem endsSinceReady_append (earlier later : List Effect) :
    endsSinceReady (earlier ++ later) = later.foldl Effect.countEnd (endsSinceReady earlier) :=
  List.foldl_append

/-- Some session has ended with a fatal error. -/
def Fatal (effects : List Effect) : Prop := ∃ effect ∈ effects, effect.isFatal = true

theorem fatal_append {earlier later : List Effect} : Fatal (earlier ++ later) ↔ Fatal earlier ∨ Fatal later := by
  simp [Fatal, or_and_right, exists_or]

theorem Effect.quiet_of_not_ended {effect : Effect} (noEnd : effect.isEnded = false) :
    effect.isReconnect = false ∧ effect.isFatal = false := by
  cases effect with
  | ended reason message => cases noEnd
  | _ => exact ⟨rfl, rfl⟩

theorem not_fatal_of_quiet {effects : List Effect} (noEnd : ∀ effect ∈ effects, effect.isEnded = false) :
    ¬Fatal effects := by
  rintro ⟨effect, member, fatal⟩
  rw [(Effect.quiet_of_not_ended (noEnd effect member)).2] at fatal
  cases fatal

theorem reconnects_of_quiet {effects : List Effect} (noEnd : ∀ effect ∈ effects, effect.isEnded = false) :
    effects.countP Effect.isReconnect = 0 := by
  refine List.countP_eq_zero.mpr (fun effect member => ?_)
  simp [(Effect.quiet_of_not_ended (noEnd effect member)).1]

namespace Client

/-- Everything the sessions of a client have done. -/
def effects (client : Client) : List Effect := client.trace.map Prod.snd

theorem effects_acted (client : Client) (index : Nat) (next : Session) (effects : List Effect) :
    Client.effects (client.acted index next effects) = client.effects ++ effects := by
  simp [Client.effects, Client.acted, Function.comp_def]

/-- Between ends of sessions the client's handlers only reset its attempts. -/
theorem reacts_quiet {effects : List Effect} (noEnd : ∀ effect ∈ effects, effect.isEnded = false)
    (client : Client) : effects.foldl react client =
      { client with reconnectAttempt := effects.foldl Effect.countEnd client.reconnectAttempt } := by
  induction effects generalizing client with
  | nil => rfl
  | cons effect effects ih =>
    obtain ⟨first, rest⟩ := List.forall_mem_cons.mp noEnd
    rw [List.foldl_cons, ih rest, List.foldl_cons]
    cases effect with
    | ended reason message => cases first
    | _ => rfl

/-- The timer holds one wait, for the connection that follows the given number
of ends; it was set at the last reading of the clock. -/
def Reconnects (client next : Client) (ends : Nat) : Prop :=
  ∃ reading delay, (∀ n, next.clock n = client.clock (n + (reading + 1))) ∧
    next.reconnectTimer.outstanding = [client.clock reading + delay] ∧
    next.pendingConnections = 1 ∧ seconds (2 ^ min ends 6) ≤ delay ∧
    delay ≤ seconds (2 ^ min ends 6) + milliseconds 500

end Client

/-- What holds of a client between handlers, whether `stop` was called or not. -/
structure Lifecycle (stopCalled : Prop) (client : Client) : Prop where
  live : ∀ (index : Nat) (session : Session), client.sessions[index]? = some session →
    (session.closed = false ↔ client.session = some index)
  idle : client.stopping = true → client.session = none
  timer_live : client.session ≠ none → client.pendingConnections = 0
  timer_single : client.pendingConnections ≤ 1
  attempts : client.stopping = false → client.reconnectAttempt = endsSinceReady client.effects
  counted : client.stopping = false →
    client.sessions.length + client.pendingConnections = 1 + client.effects.countP Effect.isReconnect
  stopping_iff : client.stopping = true ↔ stopCalled ∨ Fatal client.effects
  io_stopped : client.ioStopped = true → client.stopping = true
  exit_iff : client.exitCode = 1 ↔ Fatal client.effects

/-- What one event adds to a run. -/
structure Advances (client next : Client) (new : List Effect) : Prop where
  effects : next.effects = client.effects ++ new
  running : (∃ effect ∈ new, effect.isEnded = true) → client.stopping = false
  reconnects : ∀ before reason message after, new = before ++ .ended reason message :: after →
    reason = .networkError ∨ reason = .reconnectRequested →
      client.Reconnects next (endsSinceReady (client.effects ++ before))

theorem Advances.quiet {client next : Client} {new : List Effect} (effects : next.effects = client.effects ++ new)
    (noEnd : ∀ effect ∈ new, effect.isEnded = false) : Advances client next new := by
  refine ⟨effects, ?_, ?_⟩
  · rintro ⟨effect, member, isEnd⟩
    rw [noEnd effect member] at isEnd
    cases isEnd
  · rintro before reason message after rfl
    have isEnd := noEnd (.ended reason message) (List.mem_append_right _ List.mem_cons_self)
    cases isEnd

theorem Advances.silent {client next : Client} (same : next.trace = client.trace) :
    ∃ new, Advances client next new :=
  ⟨[], .quiet (by rw [Client.effects, same, List.append_nil, Client.effects])
    (fun _ none => absurd none List.not_mem_nil)⟩

namespace Lifecycle

variable {stopCalled : Prop} {client : Client}

/-- The client's own handlers that connect nothing and end nothing. -/
theorem of_timer (lifecycle : Lifecycle stopCalled client) {timer : IoContext Time Outcome}
    (fewer : timer.live Outcome.IsSuccess ≤ client.pendingConnections)
    (kept : client.stopping = false → timer.live Outcome.IsSuccess = client.pendingConnections) :
    Lifecycle stopCalled { client with reconnectTimer := timer } := by
  refine ⟨lifecycle.live, lifecycle.idle, ?_, fewer.trans lifecycle.timer_single, lifecycle.attempts, ?_,
    lifecycle.stopping_iff, lifecycle.io_stopped, lifecycle.exit_iff⟩
  · intro isLive
    exact Nat.le_zero.mp (fewer.trans (lifecycle.timer_live isLive).le)
  · intro running
    have count := lifecycle.counted running
    rw [← kept running] at count
    exact count

/-- No more than one session is open. -/
theorem unique (lifecycle : Lifecycle stopCalled client) {i j : Nat} {s t : Session}
    (foundFirst : client.sessions[i]? = some s) (foundSecond : client.sessions[j]? = some t)
    (isOpen : s.closed = false) (isOpen' : t.closed = false) : i = j := by
  have first := (lifecycle.live i s foundFirst).mp isOpen
  have second := (lifecycle.live j t foundSecond).mp isOpen'
  exact Option.some.inj (first.symm.trans second)

/-- A session acts without ending. -/
theorem quiet (lifecycle : Lifecycle stopCalled client) {index : Nat} {session next : Session}
    {effects : List Effect} (found : client.sessions[index]? = some session)
    (noEnd : ∀ effect ∈ effects, effect.isEnded = false) (closed : next.closed = session.closed) :
    Lifecycle stopCalled (effects.foldl Client.react (client.acted index next effects)) := by
  rw [Client.reacts_quiet noEnd]
  have trace := client.effects_acted index next effects
  have notFatal := not_fatal_of_quiet noEnd
  have fatal_iff : Fatal (client.effects ++ effects) ↔ Fatal client.effects := by
    rw [fatal_append]
    exact or_iff_left notFatal
  refine ⟨?_, lifecycle.idle, lifecycle.timer_live, lifecycle.timer_single, ?_, ?_, ?_,
    lifecycle.io_stopped, ?_⟩
  · intro other second atOther
    rcases Client.acted_cases found atOther with ⟨rfl, rfl⟩ | ⟨_, before⟩
    · rw [closed]
      exact lifecycle.live other session found
    · exact lifecycle.live other second before
  · intro running
    show effects.foldl Effect.countEnd client.reconnectAttempt =
      endsSinceReady (Client.effects (client.acted index next effects))
    rw [trace, lifecycle.attempts running, endsSinceReady_append]
  · intro running
    show (client.sessions.set index next).length + client.pendingConnections =
      1 + (Client.effects (client.acted index next effects)).countP Effect.isReconnect
    rw [trace, List.countP_append, reconnects_of_quiet noEnd, List.length_set]
    exact lifecycle.counted running
  · show client.stopping = true ↔ stopCalled ∨ Fatal (Client.effects (client.acted index next effects))
    rw [trace, fatal_iff]
    exact lifecycle.stopping_iff
  · show client.exitCode = 1 ↔ Fatal (Client.effects (client.acted index next effects))
    rw [trace, fatal_iff]
    exact lifecycle.exit_iff

/-- A session that ends was the live one, and leaves no other open. -/
theorem none_open (lifecycle : Lifecycle stopCalled client) {index : Nat} {session next : Session}
    (found : client.sessions[index]? = some session) (isOpen : session.closed = false)
    (closed : next.closed = true) :
    ∀ (other : Nat) (second : Session), (client.sessions.set index next)[other]? = some second →
      second.closed = true := by
  intro other second atOther
  rcases Client.acted_cases found atOther with ⟨rfl, rfl⟩ | ⟨distinct, before⟩
  · exact closed
  · by_contra stillOpen
    exact distinct (lifecycle.unique before found (by simpa using stillOpen) isOpen)

/-- While a session is live the client runs, and no connection is pending. -/
theorem running_of_open (lifecycle : Lifecycle stopCalled client) {index : Nat} {session : Session}
    (found : client.sessions[index]? = some session) (isOpen : session.closed = false) :
    client.stopping = false ∧ client.pendingConnections = 0 := by
  have isLive := (lifecycle.live index session found).mp isOpen
  constructor
  · by_contra stopping
    rw [lifecycle.idle (by simpa using stopping)] at isLive
    cases isLive
  · exact lifecycle.timer_live (by simp [isLive])

end Lifecycle

/-- How a live session of a running client ends: its last effects, and the
client that handles them. -/
structure Ending (stopCalled : Prop) (client : Client) (index : Nat) (next : Session) (before : List Effect)
    (reason : SessionEndReason) (message : Bytes) (after : List Effect) : Prop where
  lifecycle : Lifecycle stopCalled client
  running : client.stopping = false
  nonePending : client.pendingConnections = 0
  elapsed : Elapsed client.clock next.clock
  allClosed : ∀ (other : Nat) (second : Session), (client.sessions.set index next)[other]? = some second →
    second.closed = true
  beforeQuiet : ∀ effect ∈ before, effect.isEnded = false
  afterQuiet : ∀ effect ∈ after, effect.isEnded = false

namespace Ending

variable {stopCalled : Prop} {client : Client} {index : Nat} {next : Session} {before after : List Effect}
  {reason : SessionEndReason} {message : Bytes}

/-- The client that the end handler meets. -/
def met (client : Client) (index : Nat) (next : Session) (before : List Effect) (reason : SessionEndReason)
    (message : Bytes) (after : List Effect) : Client :=
  { client.acted index next (before ++ .ended reason message :: after) with
    reconnectAttempt := before.foldl Effect.countEnd client.reconnectAttempt }

/-- The client behind the end. -/
def left (client : Client) (index : Nat) (next : Session) (before : List Effect) (reason : SessionEndReason)
    (message : Bytes) (after : List Effect) : Client :=
  let handled := (met client index next before reason message after).handleSessionEnd reason
  { handled with reconnectAttempt := after.foldl Effect.countEnd handled.reconnectAttempt }

theorem reacts (ending : Ending stopCalled client index next before reason message after) :
    (before ++ .ended reason message :: after).foldl Client.react
        (client.acted index next (before ++ .ended reason message :: after)) =
      left client index next before reason message after := by
  rw [List.foldl_append, List.foldl_cons, Client.reacts_quiet ending.beforeQuiet,
    Client.reacts_quiet ending.afterQuiet]
  rfl

theorem met_effects (client : Client) (index : Nat) (next : Session) (before : List Effect)
    (reason : SessionEndReason) (message : Bytes) (after : List Effect) :
    (met client index next before reason message after).effects =
      client.effects ++ (before ++ .ended reason message :: after) :=
  client.effects_acted index next _

theorem reconnect_count (ending : Ending stopCalled client index next before reason message after) :
    (client.effects ++ (before ++ .ended reason message :: after)).countP Effect.isReconnect =
      client.effects.countP Effect.isReconnect + if Effect.isReconnect (.ended reason message) then 1 else 0 := by
  rw [List.countP_append, List.countP_append, List.countP_cons, reconnects_of_quiet ending.beforeQuiet,
    reconnects_of_quiet ending.afterQuiet]
  simp only [Nat.zero_add]

theorem fatal_iff (ending : Ending stopCalled client index next before reason message after) :
    Fatal (client.effects ++ (before ++ .ended reason message :: after)) ↔
      Fatal client.effects ∨ Effect.isFatal (.ended reason message) = true := by
  have split : Fatal (.ended reason message :: after) ↔
      Effect.isFatal (.ended reason message) = true ∨ Fatal after := by simp [Fatal]
  rw [fatal_append, fatal_append, split, or_iff_right (not_fatal_of_quiet ending.beforeQuiet),
    or_iff_left (not_fatal_of_quiet ending.afterQuiet)]

theorem attempts (ending : Ending stopCalled client index next before reason message after) :
    (met client index next before reason message after).reconnectAttempt =
      endsSinceReady (client.effects ++ before) := by
  show before.foldl Effect.countEnd client.reconnectAttempt = _
  rw [ending.lifecycle.attempts ending.running, endsSinceReady_append]

theorem not_fatal (ending : Ending stopCalled client index next before reason message after) :
    ¬stopCalled ∧ ¬Fatal client.effects := by
  rw [← not_or, ← ending.lifecycle.stopping_iff, ending.running]
  exact Bool.noConfusion

/-- A fatal end stops the client with exit code 1. -/
theorem fatal (ending : Ending stopCalled client index next before .fatal message after) :
    Lifecycle stopCalled (left client index next before .fatal message after) := by
  have effects := met_effects client index next before .fatal message after
  have handled : (met client index next before .fatal message after).handleSessionEnd .fatal =
      Client.cancelTimer { met client index next before .fatal message after with
        session := none
        exitCode := 1
        stopping := true
        ioStopped := true } := by
    have running : (met client index next before .fatal message after).stopping = false := ending.running
    simp [Client.handleSessionEnd, running]
  have timer : (left client index next before .fatal message after).pendingConnections ≤
      client.pendingConnections := by
    rw [left, handled]
    exact IoContext.live_cancel_le Client.aborted_not_success
  have isFatal : Fatal (left client index next before .fatal message after).effects := by
    rw [left, handled]
    show Fatal (met client index next before .fatal message after).effects
    rw [effects, ending.fatal_iff]
    exact Or.inr rfl
  have none : (left client index next before .fatal message after).session = none := by
    rw [left, handled]
    rfl
  have stopped : (left client index next before .fatal message after).stopping = true := by
    rw [left, handled]
    rfl
  refine ⟨?_, fun _ => none, fun isLive => absurd none isLive, timer.trans ending.lifecycle.timer_single, ?_, ?_,
    iff_of_true stopped (Or.inr isFatal), fun _ => stopped, iff_of_true ?_ isFatal⟩
  · intro other second atOther
    have closed := ending.allClosed other second (by rw [left, handled] at atOther; exact atOther)
    rw [none, closed]
    simp
  · intro running
    rw [stopped] at running
    cases running
  · intro running
    rw [stopped] at running
    cases running
  · rw [left, handled]
    rfl

/-- The client goes on after an end that is not fatal: with the next connection
pending, if the end calls for one. -/
theorem of_running (ending : Ending stopCalled client index next before reason message after)
    (notFatal : Effect.isFatal (.ended reason message) = false) (random : Nat → Fin 501) (clock : Nat → Time)
    (timer : IoContext Time Outcome)
    (handled : (met client index next before reason message after).handleSessionEnd reason =
      { met client index next before reason message after with
        session := none
        reconnectAttempt := Effect.countEnd
          (met client index next before reason message after).reconnectAttempt (.ended reason message)
        random := random
        clock := clock
        reconnectTimer := timer })
    (pending : timer.live Outcome.IsSuccess = if Effect.isReconnect (.ended reason message) then 1 else 0) :
    Lifecycle stopCalled (left client index next before reason message after) := by
  have effects := met_effects client index next before reason message after
  have single : timer.live Outcome.IsSuccess ≤ 1 := by
    rw [pending]
    split <;> omega
  obtain ⟨notCalled, wasNotFatal⟩ := ending.not_fatal
  have stillNotFatal : ¬Fatal (met client index next before reason message after).effects := by
    rw [effects, ending.fatal_iff, notFatal]
    simpa using wasNotFatal
  rw [left, handled]
  refine ⟨?_, fun _ => rfl, fun isLive => absurd rfl isLive, single, ?_, ?_, ?_, ?_, ?_⟩
  · intro other second atOther
    rw [ending.allClosed other second atOther]
    simp
  · intro _
    show after.foldl Effect.countEnd (Effect.countEnd
        (met client index next before reason message after).reconnectAttempt (.ended reason message)) =
      endsSinceReady (met client index next before reason message after).effects
    rw [effects, ending.attempts, ← List.append_assoc, endsSinceReady_append (client.effects ++ before),
      List.foldl_cons]
  · intro _
    have count := ending.lifecycle.counted ending.running
    rw [ending.nonePending] at count
    show (client.sessions.set index next).length + timer.live Outcome.IsSuccess =
      1 + (met client index next before reason message after).effects.countP Effect.isReconnect
    rw [effects, ending.reconnect_count, List.length_set, pending]
    omega
  · show client.stopping = true ↔ stopCalled ∨ Fatal (met client index next before reason message after).effects
    rw [ending.running]
    simp [notCalled, stillNotFatal]
  · exact ending.lifecycle.io_stopped
  · exact iff_of_false (fun exit => wasNotFatal (ending.lifecycle.exit_iff.mp exit)) stillNotFatal

/-- An end that the client asked for calls for no connection. -/
theorem stopped (ending : Ending stopCalled client index next before .stopped message after) :
    Lifecycle stopCalled (left client index next before .stopped message after) := by
  refine ending.of_running rfl client.random next.clock client.reconnectTimer ?_ ending.nonePending
  simp only [Client.handleSessionEnd, or_true, if_true]
  rfl

/-- The wait that a running client starts for its next connection. -/
def connectionTimer (client : Client) (next : Session) (attempts : Nat) : IoContext Time Outcome :=
  (client.reconnectTimer.cancel (fun _ => true) operationAborted).start
    (next.clock 0 + (seconds (2 ^ min attempts 6) + milliseconds (client.random 0).val))

/-- Any other end of a running client calls for one connection, after a delay
that its attempts so far determine up to the jitter. -/
theorem reconnect (ending : Ending stopCalled client index next before reason message after)
    (reconnects : reason = .networkError ∨ reason = .reconnectRequested) :
    Lifecycle stopCalled (left client index next before reason message after) ∧
      client.Reconnects (left client index next before reason message after)
        (endsSinceReady (client.effects ++ before)) := by
  have kinds : reason ≠ .stopped ∧ reason ≠ .fatal ∧ Effect.isReconnect (.ended reason message) = true ∧
      Effect.isFatal (.ended reason message) = false := by
    rcases reconnects with rfl | rfl
    all_goals exact ⟨by decide, by decide, rfl, rfl⟩
  obtain ⟨notStopped, notFatal, isReconnect, calm⟩ := kinds
  have running : (met client index next before reason message after).stopping = false := ending.running
  have handled : (met client index next before reason message after).handleSessionEnd reason =
      { met client index next before reason message after with
        session := none
        reconnectAttempt := Effect.countEnd
          (met client index next before reason message after).reconnectAttempt (.ended reason message)
        random := fun n => client.random (n + 1)
        clock := fun n => next.clock (n + 1)
        reconnectTimer := connectionTimer client next
          (met client index next before reason message after).reconnectAttempt } := by
    simp only [Client.handleSessionEnd, running, notStopped, notFatal, Bool.false_eq_true, or_self, if_false,
      Client.scheduleConnection, Effect.countEnd, isReconnect, if_true]
    rfl
  obtain ⟨noneOutstanding, noneQueued⟩ := Nat.add_eq_zero_iff.mp ending.nonePending
  have pending (attempts : Nat) : (connectionTimer client next attempts).live Outcome.IsSuccess = 1 := by
    rw [connectionTimer, IoContext.live_restart Client.aborted_not_success, noneQueued]
  refine ⟨ending.of_running calm _ _ _ handled ?_, ?_⟩
  · rw [pending, if_pos isReconnect]
  · obtain ⟨reading, elapsed⟩ := ending.elapsed
    have atReading : next.clock 0 = client.clock reading := by rw [elapsed, Nat.zero_add]
    have jitter : (client.random 0).val ≤ 500 := Nat.le_of_lt_succ (client.random 0).isLt
    refine ⟨reading, seconds (2 ^ min (endsSinceReady (client.effects ++ before)) 6) +
      milliseconds (client.random 0).val, fun n => ?_, ?_, ?_, ?_, ?_⟩
    · rw [left, handled, Nat.add_comm reading, ← Nat.add_assoc]
      exact elapsed (n + 1)
    · rw [left, handled, ← atReading, ← ending.attempts]
      simp [connectionTimer, IoContext.start, IoContext.cancel]
    · rw [left, handled]
      exact pending _
    · have positive : 0 ≤ milliseconds (client.random 0).val := by
        show (0 : Int) ≤ (client.random 0).val * 1000000
        omega
      exact le_add_of_nonneg_right positive
    · have bound : milliseconds (client.random 0).val ≤ milliseconds 500 := by
        show ((client.random 0).val : Int) * 1000000 ≤ 500 * 1000000
        omega
      exact Int.add_le_add_left bound _

end Ending

end TwitchBot
