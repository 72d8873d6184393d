import TwitchBot.ClientSessions
import TwitchBot.ClosedSession
import TwitchBot.HandlerRules
import TwitchBot.Library.PendingWork

namespace TwitchBot

open Outbox

/-- The most handlers that can run on account of an operation of a closed
session: its own, and those of what its handler still starts. -/
def Operation.weight : Operation → Nat
  | .resolve => 4
  | .connect => 3
  | .handshake => 2
  | _ => 1

theorem Operation.weight_bounds (operation : Operation) : 1 ≤ operation.weight ∧ operation.weight ≤ 4 := by
  cases operation <;> simp [weight]

/-- A closed outbox with a bound on the handlers it can still run. -/
structure WoundDown (bound : Nat) (outbox : Outbox) : Prop where
  closed : outbox.closed = true
  load : outbox.io.load Operation.weight ≤ bound

namespace WoundDown

variable {bound : Nat} {outbox : Outbox}

theorem of_same {next : Outbox} (wound : WoundDown bound outbox) (closed : next.closed = outbox.closed)
    (io : next.io = outbox.io) : WoundDown bound next :=
  ⟨closed.trans wound.closed, io ▸ wound.load⟩

theorem finish (wound : WoundDown bound outbox) (reason : SessionEndReason) (message : Bytes) :
    WoundDown bound (outbox.finish reason message) := by
  rwa [Outbox.finish_of_closed wound.closed]

theorem cancel (wound : WoundDown bound outbox) (selected : Operation → Bool) :
    WoundDown bound (outbox.cancel selected) :=
  ⟨wound.closed, (IoContext.load_of_perm (IoContext.pending_cancel _ _ _)).trans_le wound.load⟩

theorem launch (wound : WoundDown bound outbox) (operation : Operation) :
    WoundDown (operation.weight + bound) (outbox.launch operation) :=
  ⟨wound.closed, (IoContext.load_start _ _ _).trans_le (Nat.add_le_add_left wound.load _)⟩

theorem widen {wider : Nat} (wound : WoundDown bound outbox) (wide : bound ≤ wider) : WoundDown wider outbox :=
  ⟨wound.closed, wound.load.trans wide⟩

theorem keptByLines (bound : Nat) : KeptByLines (WoundDown bound) where
  tick _ wound := wound.of_same rfl rfl
  enqueue _ message wound := by rwa [enqueue_of_closed wound.closed message]
  finish _ reason message _ wound := wound.finish reason message
  cancel _ wound := wound.cancel _
  ready _ wound := wound.of_same rfl rfl

theorem onWriteTimer (wound : WoundDown bound outbox) (outcome : Outcome) :
    WoundDown bound (outbox.onWriteTimer outcome) := by
  rwa [Session.onWriteTimer_of_closed wound.closed]

theorem onWrite (wound : WoundDown bound outbox) (outcome : Outcome) : WoundDown bound (outbox.onWrite outcome) := by
  cases outcome with
  | failure what => exact wound.finish _ _
  | success data =>
    cases current : outbox.currentWrite with
    | none =>
      rw [Outbox.onWrite, onWritten, current]
      exact wound.of_same rfl rfl
    | some message =>
      have recorded : WoundDown bound (outbox.recorded message) := wound.of_same rfl rfl
      rw [Outbox.onWrite, onWritten_of_current current, scheduleWrite_of_closed recorded.closed]
      exact recorded

/-- The timeout of the login is all that a late handshake starts. -/
theorem login {session : Session} (wound : WoundDown bound session.toOutbox) :
    WoundDown (1 + bound) session.login.toOutbox := by
  unfold Session.login
  dsimp only
  split
  · rename_i what _
    have thrown : WoundDown bound (session.toOutbox.emit (.uncaught what)) := wound.of_same rfl rfl
    exact thrown.widen (Nat.le_add_left _ _)
  · rename_i actions _
    have applied := (keptByLines bound).applyActions
      { session with protocol := session.protocol.begin.2 } actions wound
    have timed : WoundDown (1 + bound) (Session.startAuthTimeout _).toOutbox :=
      ((applied.of_same rfl rfl : WoundDown bound (Outbox.tick _)).cancel Operation.isAuthWait).launch (.authWait _)
    rw [Session.read_of_closed _ timed.closed]
    exact timed

theorem onRead {session : Session} (wound : WoundDown bound session.toOutbox) (outcome : Outcome) :
    WoundDown bound (session.onRead outcome).toOutbox := by
  refine (keptByLines bound).onRead (fun session wound => ?_) session outcome wound
  rwa [Session.read_of_closed session wound.closed]

/-- The handler of an operation spends its weight. -/
theorem dispatch (session : Session) (wound : WoundDown bound session.toOutbox) (operation : Operation)
    (outcome : Outcome) : WoundDown (operation.weight - 1 + bound) (session.dispatch operation outcome).toOutbox := by
  have idle {next : Outbox} (kept : WoundDown bound next) : WoundDown (operation.weight - 1 + bound) next :=
    kept.widen (Nat.le_add_left _ _)
  cases operation with
  | resolve =>
    cases outcome with
    | failure what => exact idle (wound.finish _ _)
    | success data => exact wound.launch .connect
  | connect =>
    cases outcome with
    | failure what => exact idle (wound.finish _ _)
    | success data =>
      simp only [Session.dispatch, Session.onConnect, Session.handshake]
      split
      · exact wound.launch .handshake
      · exact idle (wound.finish _ _)
  | handshake =>
    cases outcome with
    | failure what => exact idle (wound.finish _ _)
    | success data => exact wound.login
  | authWait deadline =>
    refine idle ?_
    simp only [Session.dispatch, Session.onAuthTimer]
    split
    · exact wound
    · split
      · exact wound
      · exact wound.finish _ _
  | read => exact idle (wound.onRead outcome)
  | writeWait deadline => exact idle (wound.onWriteTimer outcome)
  | write data => exact idle (wound.onWrite outcome)

end WoundDown

/-- The handlers that a session can still run once it is closed. -/
def Session.load (session : Session) : Nat := session.io.load Operation.weight

/-- A handler runs if its completion is there. -/
def SessionEvent.runsHandler (session : Session) : SessionEvent → Bool
  | .deliver index => (session.io.take index).isSome
  | _ => false

/-- An event that runs a handler of a closed session takes from its load, and
no event adds to it. -/
theorem Session.step_load (session : Session) (closed : session.closed = true) (event : SessionEvent) :
    (event.runsHandler session).toNat + (session.step event).load ≤ session.load := by
  have idle {next : Session} (load : next.load = session.load) (none : event.runsHandler session = false) :
      (event.runsHandler session).toNat + next.load ≤ session.load := by
    rw [none, load]
    exact (Nat.zero_add _).le
  cases event with
  | complete index outcome =>
    refine idle ?_ rfl
    rcases session.complete_cases index outcome with same | ⟨_, _, _, completed⟩
    · rw [step, same]
    · rw [step, completed]
      exact IoContext.load_of_perm (IoContext.pending_complete _ _ _)
  | enqueue message =>
    refine idle ?_ rfl
    rw [step, onOutbox, enqueue_of_closed closed]
  | stop =>
    refine idle ?_ rfl
    rw [step, stop, finish_of_closed closed]
  | deliver index =>
    cases found : session.io.take index with
    | none =>
      refine idle ?_ (by simp [SessionEvent.runsHandler, found])
      simp only [step, deliver, found]
    | some taken =>
      obtain ⟨⟨operation, outcome⟩, io⟩ := taken
      have wound : WoundDown (io.load Operation.weight) { session with io := io }.toOutbox := ⟨closed, le_rfl⟩
      have spent := (wound.dispatch { session with io := io } operation outcome).load
      have whole : session.io.load Operation.weight = operation.weight + io.load Operation.weight :=
        IoContext.load_take found _
      have positive := operation.weight_bounds.1
      simp only [SessionEvent.runsHandler, step, deliver, found, Option.isSome_some, Bool.toNat_true, load] at spent ⊢
      omega

namespace Client

/-- The operations whose handlers have not run, of all sessions and of the
reconnect timer. -/
def pendingHandlers (client : Client) : Nat :=
  (client.sessions.map (fun session => session.io.pending.length)).sum + client.reconnectTimer.pending.length

/-- The handlers that a stopping client can still run. -/
def load (client : Client) : Nat :=
  (client.sessions.map Session.load).sum + client.reconnectTimer.pending.length

/-- Whether an event runs a handler. -/
def runsHandler (client : Client) (event : ClientEvent) : Bool :=
  !client.ioStopped &&
    match event with
    | .deliver session index => (client.sessions[session]?.bind (fun session => session.io.take index)).isSome
    | .timerHandler index => (client.reconnectTimer.take index).isSome
    | _ => false

/-- The number of handlers that a run of events runs. -/
def handlersRun : Client → List ClientEvent → Nat
  | _, [] => 0
  | client, event :: events => (client.runsHandler event).toNat + (client.step event).handlersRun events

/-- One session of many has changed. -/
theorem sum_map_set {sessions : List Session} {index : Nat} {old : Session} (measure : Session → Nat)
    (found : sessions[index]? = some old) (new : Session) :
    ((sessions.set index new).map measure).sum + measure old = (sessions.map measure).sum + measure new := by
  obtain ⟨bound, rfl⟩ := List.getElem?_eq_some_iff.mp found
  have before := ((List.getElem_cons_eraseIdx_perm bound).map measure).sum_eq
  have after := ((List.set_perm_cons_eraseIdx bound new).map measure).sum_eq
  rw [List.map_cons, List.sum_cons] at before after
  omega

variable {stopCalled : Prop} {client : Client}

/-- An event of a session of a stopping client. -/
theorem runSession_load (lifecycle : Lifecycle stopCalled client) (stopping : client.stopping = true)
    (index : Nat) (own : SessionEvent) :
    ((client.sessions[index]?.map (fun session => own.runsHandler session)).getD false).toNat +
      (client.runSession index (·.step own)).load ≤ client.load := by
  cases found : client.sessions[index]? with
  | none =>
    rw [runSession, found]
    exact (Nat.zero_add _).le
  | some session =>
    have closed := closed_of_stopping lifecycle stopping found
    have moved := (client.plugged session).step_moves own
    obtain ⟨effects, trace, count⟩ := moved.continues
    have noEnd : ¬EndsSession effects := by
      rw [show (client.plugged session).closed = true from closed,
        moved.continues.closed_of_closed closed] at count
      rintro ⟨effect, member, ends⟩
      have positive := List.countP_pos_iff.mpr ⟨effect, member, ends⟩
      rw [Bool.toNat_true] at count
      omega
    have sessions := (runSession_becomes client found (·.step own)).sessions
    have timer : (client.runSession index (·.step own)).reconnectTimer = client.reconnectTimer := by
      rw [runSession_eq found trace, reacts_timer noEnd]
      rfl
    have spent := Session.step_load (client.plugged session) closed own
    have changed := sum_map_set Session.load found ((client.plugged session).step own)
    have same : (client.plugged session).load = session.load := rfl
    have runs : own.runsHandler (client.plugged session) = own.runsHandler session := by cases own <;> rfl
    rw [same, runs] at spent
    simp only [load, sessions, timer, Option.map_some, Option.getD_some]
    omega

/-- Every handler that runs takes from the load of a stopping client, and
nothing adds to it. -/
theorem step_load (lifecycle : Lifecycle stopCalled client) (stopping : client.stopping = true)
    (event : ClientEvent) : (client.runsHandler event).toNat + (client.step event).load ≤ client.load := by
  unfold step runsHandler
  cases halted : client.ioStopped with
  | true => exact (Nat.zero_add _).le
  | false =>
    simp only [Bool.not_false, Bool.true_and, Bool.false_eq_true, if_false]
    cases event with
    | complete session index outcome =>
      have spent := runSession_load lifecycle stopping session (.complete index outcome)
      exact (Nat.zero_add _).trans_le ((Nat.le_add_left _ _).trans spent)
    | enqueue session message =>
      have spent := runSession_load lifecycle stopping session (.enqueue message)
      exact (Nat.zero_add _).trans_le ((Nat.le_add_left _ _).trans spent)
    | deliver session index =>
      have spent := runSession_load lifecycle stopping session (.deliver index)
      simp only [Session.step] at spent
      cases found : client.sessions[session]? with
      | none => simpa [found] using spent
      | some _ => simpa [found, SessionEvent.runsHandler] using spent
    | timerExpires index =>
      rcases client.timerExpires_cases index with same | expired
      · simp only [same]
        exact (Nat.zero_add _).le
      · have perm := (IoContext.pending_complete client.reconnectTimer index (Outcome.success [])).length_eq
        simp only [expired, load, perm]
        exact (Nat.zero_add _).le
    | timerHandler index =>
      cases taken : client.reconnectTimer.take index with
      | none =>
        simp only [timerHandler, taken]
        exact (Nat.zero_add _).le
      | some completion =>
        obtain ⟨⟨deadline, outcome⟩, timer⟩ := completion
        have perm := (IoContext.pending_take taken).length_eq
        have handled : ({ client with reconnectTimer := timer } : Client).onReconnectTimer outcome =
            { client with reconnectTimer := timer } := by
          cases outcome with
          | failure what => rfl
          | success data => simp only [onReconnectTimer, stopping, if_true]
        rw [List.length_cons] at perm
        simp only [timerHandler, taken, handled, load, Option.isSome_some, Bool.toNat_true]
        omega
    | stop =>
      simp only [stop, stopping, if_true]
      exact (Nat.zero_add _).le

theorem after_load (lifecycle : Lifecycle stopCalled client) (stopping : client.stopping = true)
    (events : List ClientEvent) : client.handlersRun events + (client.after events).load ≤ client.load := by
  induction events generalizing stopCalled client with
  | nil => exact (Nat.zero_add _).le
  | cons event events ih =>
    have spent := step_load lifecycle stopping event
    have rest := ih (lifecycle.step event).1 (step_stopping lifecycle stopping event)
    show (client.runsHandler event).toNat + (client.step event).handlersRun events +
      ((client.step event).after events).load ≤ client.load
    omega

/-- The load counts every operation, and none more than four times. -/
theorem load_bounds (client : Client) :
    client.pendingHandlers ≤ client.load ∧ client.load ≤ 4 * client.pendingHandlers := by
  have each (session : Session) : session.io.pending.length ≤ session.load ∧
      session.load ≤ 4 * session.io.pending.length := by
    unfold Session.load IoContext.load
    induction session.io.pending with
    | nil => simp
    | cons operation operations ih =>
      have bounds := operation.weight_bounds
      simp only [List.map_cons, List.sum_cons, List.length_cons]
      omega
  unfold pendingHandlers load
  induction client.sessions with
  | nil =>
    simp only [List.map_nil, List.sum_nil]
    omega
  | cons session sessions ih =>
    have bounds := each session
    simp only [List.map_cons, List.sum_cons]
    omega

end Client

/-- Once `stop` was called or a session has ended with a fatal error, a client
winds down in every order of its handlers: each operation that is pending then
accounts for at most four handler runs, and once these have run, nothing is
pending that the execution context could wait for. -/
theorem shutdown_drains (config : RuntimeConfig) (sniConfigured : Bool) (clock : Nat → Time)
    (random : Nat → Fin 501) (before events : List ClientEvent) :
    let client := (Client.start { config, sniConfigured, clock, random }).after before
    .stop ∈ before ∨ Fatal client.effects →
      client.handlersRun events + (client.after events).pendingHandlers ≤ 4 * client.pendingHandlers := by
  intro client halted
  have lifecycle := (Lifecycle.begins config sniConfigured clock random).after before
  have stopping : client.stopping = true := lifecycle.stopping_iff.mpr (halted.imp_left Or.inr)
  have spent : client.handlersRun events + (client.after events).load ≤ client.load :=
    Client.after_load lifecycle stopping events
  have least := (client.after events).load_bounds.1
  have most := client.load_bounds.2
  omega

/-- The host name is resolved, and `stop` is called before the handler runs. -/
def stopEvents : List ClientEvent := [.timerExpires 0, .timerHandler 0, .complete 0 0 (.success []), .stop]

def stoppedClient : Client :=
  (Client.start { config := validConfig, clock := fun n => seconds (30 * n), random := fun _ => Fin.last 500 }).after
    stopEvents

/-- The connection is made all the same, and the timeout of its login expires. -/
def lateEvents : List ClientEvent :=
  [.deliver 0 0, .complete 0 0 (.success []), .deliver 0 0, .complete 0 0 (.success []), .deliver 0 0,
    .complete 0 0 (.success []), .deliver 0 0]

/-- The pending operation accounts for four handlers, and none is left. -/
theorem shutdown_drains_connecting :
    stoppedClient.handlersRun lateEvents + (stoppedClient.after lateEvents).pendingHandlers ≤
        4 * stoppedClient.pendingHandlers ∧
      stoppedClient.pendingHandlers = 1 ∧ stoppedClient.handlersRun lateEvents = 4 := by
  have drains := shutdown_drains validConfig true (fun n => seconds (30 * n)) (fun _ => Fin.last 500) stopEvents lateEvents
    (Or.inl (by simp [stopEvents]))
  exact ⟨drains, by decide +kernel, by decide +kernel⟩

end TwitchBot
