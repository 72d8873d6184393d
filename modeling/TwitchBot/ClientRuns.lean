import TwitchBot.Client
import TwitchBot.Pacing

namespace TwitchBot

open Outbox

namespace Client

/-- Reconnect timer waits whose handler can still create a session. -/
def pendingConnections (client : Client) : Nat := client.reconnectTimer.live Outcome.IsSuccess

theorem aborted_not_success : ¬operationAborted.IsSuccess := by
  rintro ⟨data, same⟩
  cases same

/-- What the client's handlers leave alone: all but its own members, and a
clock that has at most been read. -/
structure Undisturbed (client next : Client) : Prop where
  sessions : next.sessions = client.sessions
  limiter : next.limiter = client.limiter
  trace : next.trace = client.trace
  clock : ∃ readings, ∀ n, next.clock n = client.clock (n + readings)

theorem Undisturbed.refl (client : Client) : Undisturbed client client := ⟨rfl, rfl, rfl, 0, fun _ => rfl⟩

theorem Undisturbed.trans {first second third : Client} (left : Undisturbed first second)
    (right : Undisturbed second third) : Undisturbed first third :=
  ⟨right.sessions.trans left.sessions, right.limiter.trans left.limiter, right.trace.trans left.trace,
    Elapsed.trans left.clock right.clock⟩

theorem scheduleConnection_undisturbed (client : Client) (delay : Time) :
    Undisturbed client (client.scheduleConnection delay) := by
  unfold scheduleConnection
  split
  · exact .refl client
  · exact ⟨rfl, rfl, rfl, 1, fun _ => rfl⟩

theorem handleSessionEnd_undisturbed (client : Client) (reason : SessionEndReason) :
    Undisturbed client (client.handleSessionEnd reason) := by
  unfold handleSessionEnd
  dsimp only
  split
  · exact ⟨rfl, rfl, rfl, 0, fun _ => rfl⟩
  · split
    · exact ⟨rfl, rfl, rfl, 0, fun _ => rfl⟩
    · refine .trans ?_ (scheduleConnection_undisturbed _ _)
      exact ⟨rfl, rfl, rfl, 0, fun _ => rfl⟩

theorem react_undisturbed (client : Client) (effect : Effect) : Undisturbed client (client.react effect) := by
  cases effect with
  | ended reason message => exact handleSessionEnd_undisturbed client reason
  | ready => exact ⟨rfl, rfl, rfl, 0, fun _ => rfl⟩
  | _ => exact .refl client

theorem reacts_undisturbed (client : Client) (effects : List Effect) :
    Undisturbed client (effects.foldl react client) := by
  induction effects generalizing client with
  | nil => exact .refl client
  | cons effect effects ih => exact (react_undisturbed client effect).trans (ih _)

/-- Without an end of a session the reconnect timer stays as it is. -/
theorem reacts_timer {client : Client} {effects : List Effect} (noEnd : ¬EndsSession effects) :
    (effects.foldl react client).reconnectTimer = client.reconnectTimer := by
  induction effects generalizing client with
  | nil => rfl
  | cons effect effects ih =>
    have later : ¬EndsSession effects := by
      rintro ⟨other, member, ends⟩
      exact noEnd ⟨other, List.mem_cons_of_mem _ member, ends⟩
    rw [List.foldl_cons, ih later]
    cases effect with
    | ended reason message => exact absurd ⟨_, List.mem_cons_self, rfl⟩ noEnd
    | _ => rfl

/-- Scheduling a connection replaces every wait that has not completed. -/
theorem scheduleConnection_timer (client : Client)
    (noneQueued : client.reconnectTimer.queued Outcome.IsSuccess = 0) (single : client.pendingConnections ≤ 1)
    (delay : Time) :
    (client.scheduleConnection delay).reconnectTimer.queued Outcome.IsSuccess = 0 ∧
      (client.scheduleConnection delay).pendingConnections ≤ 1 := by
  unfold scheduleConnection
  split
  · exact ⟨noneQueued, single⟩
  · have queued := IoContext.queued_cancel client.reconnectTimer (fun _ => true) aborted_not_success
    refine ⟨queued.trans noneQueued, ?_⟩
    rw [pendingConnections]
    dsimp only [cancelTimer, tick]
    rw [IoContext.live_restart aborted_not_success, noneQueued]

theorem react_timer {client : Client} (noneQueued : client.reconnectTimer.queued Outcome.IsSuccess = 0)
    (single : client.pendingConnections ≤ 1) (effect : Effect) :
    (client.react effect).reconnectTimer.queued Outcome.IsSuccess = 0 ∧
      (client.react effect).pendingConnections ≤ 1 := by
  cases effect with
  | ended reason message =>
    simp only [react, handleSessionEnd]
    split
    · exact ⟨noneQueued, single⟩
    · split
      · exact ⟨(IoContext.queued_cancel _ _ aborted_not_success).trans noneQueued,
          (IoContext.live_cancel_le aborted_not_success).trans single⟩
      · exact scheduleConnection_timer { client with
          session := none
          reconnectAttempt := client.reconnectAttempt + 1
          random := fun n => client.random (n + 1) } noneQueued single _
  | _ => exact ⟨noneQueued, single⟩

theorem reacts_pending (client : Client) (nonePending : client.pendingConnections = 0) (effects : List Effect) :
    (effects.foldl react client).pendingConnections ≤ 1 := by
  have start : client.reconnectTimer.queued Outcome.IsSuccess = 0 ∧ client.pendingConnections ≤ 1 :=
    ⟨(Nat.add_eq_zero_iff.mp nonePending).2, by omega⟩
  clear nonePending
  induction effects generalizing client with
  | nil => exact start.2
  | cons effect effects ih => exact ih _ (react_timer start.1 start.2 effect)

/-- An expiring timer moves a wait to the handlers and keeps its connection pending. -/
theorem timerExpires_cases (client : Client) (index : Nat) : client.timerExpires index = client ∨
    client.timerExpires index =
      { client with reconnectTimer := client.reconnectTimer.complete index (.success []) } := by
  unfold timerExpires
  split
  · exact Or.inl rfl
  · split
    · exact Or.inr rfl
    · exact Or.inl rfl

/-- The handler of the reconnect timer takes a wait. One that has expired creates
a session, unless the client is stopping. -/
theorem timerHandler_cases (client : Client) (index : Nat) : client.timerHandler index = client ∨
    ∃ timer, (client.timerHandler index = { client with reconnectTimer := timer } ∧
        timer.live Outcome.IsSuccess ≤ client.pendingConnections ∧
        (client.stopping = false → timer.live Outcome.IsSuccess = client.pendingConnections)) ∨
      (client.timerHandler index = Client.connect { client with reconnectTimer := timer } ∧
        client.stopping = false ∧ client.pendingConnections = timer.live Outcome.IsSuccess + 1) := by
  unfold timerHandler
  split
  · exact Or.inl rfl
  · rename_i deadline outcome timer taken
    have pending : client.pendingConnections =
        timer.live Outcome.IsSuccess + if outcome.IsSuccess then 1 else 0 := IoContext.live_take taken
    refine Or.inr ⟨timer, ?_⟩
    cases outcome with
    | failure what =>
      rw [if_neg (by rintro ⟨data, other⟩; cases other), Nat.add_zero] at pending
      exact Or.inl ⟨rfl, pending.ge, fun _ => pending.symm⟩
    | success data =>
      rw [if_pos ⟨data, rfl⟩] at pending
      simp only [onReconnectTimer]
      split
      · rename_i stopping
        refine Or.inl ⟨rfl, by omega, fun running => absurd stopping ?_⟩
        simp [running]
      · rename_i running
        exact Or.inr ⟨rfl, by simpa using running, pending⟩

/-- A running client that is stopped cancels its timer and stops its live session. -/
theorem stop_cases (client : Client) : (client.stopping = true ∧ client.stop = client) ∨
    (client.stopping = false ∧
      ((client.session = none ∧ client.stop = Client.cancelTimer { client with stopping := true }) ∨
        ∃ index, client.session = some index ∧ client.stop =
          { (Client.cancelTimer { client with stopping := true }).runSession index Session.stop with
            session := none })) := by
  cases stopping : client.stopping with
  | true => exact Or.inl ⟨rfl, if_pos stopping⟩
  | false =>
    refine Or.inr ⟨rfl, ?_⟩
    cases isLive : client.session with
    | none => exact Or.inl ⟨rfl, by simp [stop, stopping, cancelTimer, isLive]⟩
    | some index => exact Or.inr ⟨index, rfl, by simp [stop, stopping, cancelTimer, isLive]⟩

/-- What relates each session to the newer ones holds with one more session if
it relates all to that. -/
theorem newer_concat {related : Session → Session → Prop} {sessions : List Session} {fresh : Session}
    (pairs : ∀ (older newer : Nat) (old new : Session), older < newer → sessions[older]? = some old →
      sessions[newer]? = some new → related old new) (last : ∀ old, related old fresh) :
    ∀ (older newer : Nat) (old new : Session), older < newer → (sessions ++ [fresh])[older]? = some old →
      (sessions ++ [fresh])[newer]? = some new → related old new := by
  intro older newer old new order foundOld foundNew
  rcases Nat.lt_or_ge newer sessions.length with inside | outside
  · rw [List.getElem?_append_left inside] at foundNew
    rw [List.getElem?_append_left (order.trans inside)] at foundOld
    exact pairs older newer old new order foundOld foundNew
  · rw [List.getElem?_append_right outside] at foundNew
    rw [List.mem_singleton.mp (List.mem_of_getElem? foundNew)]
    exact last old

end Client

end TwitchBot
