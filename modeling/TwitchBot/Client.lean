import TwitchBot.Session

/-!
Translation of `TwitchIrcClient::Impl` in `twitch_irc_client.cpp`. Handlers keep
a session alive, so every session ever created can still move.
-/

namespace TwitchBot

def milliseconds (count : Int) : Time := count * 1000000

structure Client where
  config : RuntimeConfig
  sniConfigured : Bool := true
  limiter : RateLimiter := {}
  clock : Nat → Time
  /-- The draws of the jitter distribution. -/
  random : Nat → Fin 501
  /-- Every session created so far. -/
  sessions : List Session := []
  /-- The place of `session_` among them. -/
  session : Option Nat := none
  reconnectTimer : IoContext Time Outcome := {}
  reconnectAttempt : Nat := 0
  exitCode : Nat := 0
  stopping : Bool := false
  /-- `io_.stop()` was called, after which no handler runs. -/
  ioStopped : Bool := false
  /-- What the sessions did, with the places of the sessions. -/
  trace : List (Nat × Effect) := []

namespace Client

def now (client : Client) : Time := client.clock 0

def tick (client : Client) : Client := { client with clock := fun n => client.clock (n + 1) }

def cancelTimer (client : Client) : Client :=
  { client with reconnectTimer := client.reconnectTimer.cancel (fun _ => true) operationAborted }

/-- `schedule_connection`: `expires_after` reads the clock and aborts the waits
of the timer that have not completed yet. -/
def scheduleConnection (client : Client) (delay : Time) : Client :=
  if client.stopping then client
  else
    let waiting := client.tick.cancelTimer
    { waiting with reconnectTimer := waiting.reconnectTimer.start (client.now + delay) }

def start (client : Client) : Client := client.scheduleConnection (milliseconds 0)

def handleSessionEnd (client : Client) (reason : SessionEndReason) : Client :=
  let client := { client with session := none }
  if client.stopping ∨ reason = .stopped then client
  else if reason = .fatal then
    { client with exitCode := 1, stopping := true, ioStopped := true }.cancelTimer
  else
    { client with
        reconnectAttempt := client.reconnectAttempt + 1
        random := fun n => client.random (n + 1) }.scheduleConnection
      (seconds (2 ^ min client.reconnectAttempt 6) + milliseconds (client.random 0).val)

/-- The end handler and the ready handler that `connect` gives to a session. -/
def react (client : Client) : Effect → Client
  | .ended reason _ => client.handleSessionEnd reason
  | .ready => { client with reconnectAttempt := 0 }
  | _ => client

/-- Lets the session at a place act. It shares the limiter and the clock; its
handlers into the client run when it calls them, and nothing that it does
afterwards depends on what they change. -/
def runSession (client : Client) (index : Nat) (act : Session → Session) : Client :=
  match client.sessions[index]? with
  | none => client
  | some session =>
    let next := act { session with limiter := client.limiter, clock := client.clock }
    let effects := next.trace.drop session.trace.length
    effects.foldl react
      { client with
        sessions := client.sessions.set index next
        limiter := next.limiter
        clock := next.clock
        trace := client.trace ++ effects.map (fun effect => (index, effect)) }

def connect (client : Client) : Client :=
  let index := client.sessions.length
  let session := Session.new client.config client.limiter client.clock client.sniConfigured
  { client with sessions := client.sessions ++ [session], session := some index }.runSession index
    Session.start

def stop (client : Client) : Client :=
  if client.stopping then client
  else
    let client := { client with stopping := true }.cancelTimer
    match client.session with
    | none => client
    | some index => { client.runSession index Session.stop with session := none }

/-- The handler of the reconnect timer. -/
def onReconnectTimer (client : Client) : Outcome → Client
  | .failure _ => client
  | .success _ => if client.stopping then client else client.connect

end Client

/-- What can happen to a client from outside: an operation of a session
completes, a handler of a session runs, some caller of a session enqueues a
message, the reconnect timer expires, its handler runs, or `stop` is called. -/
inductive ClientEvent
  | complete (session index : Nat) (outcome : Outcome)
  | deliver (session index : Nat)
  | enqueue (session : Nat) (message : OutboundMessage)
  | timerExpires (index : Nat)
  | timerHandler (index : Nat)
  | stop

namespace Client

def timerExpires (client : Client) (index : Nat) : Client :=
  match client.reconnectTimer.outstanding[index]? with
  | none => client
  | some deadline =>
    if deadline ≤ client.now then
      { client with reconnectTimer := client.reconnectTimer.complete index (.success []) }
    else client

def timerHandler (client : Client) (index : Nat) : Client :=
  match client.reconnectTimer.take index with
  | none => client
  | some ((_, outcome), reconnectTimer) =>
    { client with reconnectTimer := reconnectTimer }.onReconnectTimer outcome

def step (client : Client) (event : ClientEvent) : Client :=
  if client.ioStopped then client
  else match event with
    | .complete session index outcome => client.runSession session (·.complete index outcome)
    | .deliver session index => client.runSession session (·.deliver index)
    | .enqueue session message => client.runSession session (·.step (.enqueue message))
    | .timerExpires index => client.timerExpires index
    | .timerHandler index => client.timerHandler index
    | .stop => client.stop

/-- The client behind a sequence of events. -/
def after (client : Client) (events : List ClientEvent) : Client := events.foldl step client

end Client

end TwitchBot
