import TwitchBot.Automation
import TwitchBot.Outbox
import TwitchBot.SessionProtocol
import TwitchBot.StreamAssembler

/-!
Translation of the class `Session` in `twitch_irc_client.cpp`. Every member
function is a function of the session; a handler also takes the outcome of its
operation. The timeouts of the TCP stream show as failures of its operations.
-/

namespace TwitchBot

structure Session extends Outbox where
  config : RuntimeConfig
  /-- Whether OpenSSL accepts the server name. -/
  sniConfigured : Bool := true
  protocol : SessionProtocol
  automation : AutomationEngine
  assembler : IrcStreamAssembler := .empty
  nextSequence : Nat := 0

namespace Session

def new (config : RuntimeConfig) (limiter : RateLimiter) (clock : Nat → Time) (sniConfigured : Bool) : Session where
  config := config
  sniConfigured := sniConfigured
  protocol := { config }
  automation := .new config.bot
  limiter := limiter
  clock := clock

/-- Applies a function of the members around the queue. -/
def onOutbox (session : Session) (act : Outbox → Outbox) : Session :=
  { session with toOutbox := act session.toOutbox }

def start (session : Session) : Session := session.onOutbox (·.launch .resolve)

def finish (session : Session) (reason : SessionEndReason) (message : Bytes) : Session :=
  session.onOutbox (·.finish reason message)

def fail (session : Session) (message : String) : Session := session.finish .networkError (bytes message)

def stop (session : Session) : Session := session.finish .stopped (bytes "Stopped")

def connect (session : Session) : Session := session.onOutbox (·.launch .connect)

def handshake (session : Session) : Session :=
  if session.sniConfigured then session.onOutbox (·.launch .handshake)
  else session.fail "Could not configure TLS SNI"

/-- `enqueue({data, kind, channel, due, next_sequence_++})`. -/
def enqueueNext (session : Session) (data : Bytes) (kind : OutboundKind) (channel : Bytes) (due : Time) : Session :=
  { session with nextSequence := session.nextSequence + 1 }.onOutbox
    (·.enqueue ⟨data, kind, channel, due, session.nextSequence⟩)

def applyAction (session : Session) (action : ProtocolAction) : Session :=
  match action.kind with
  | .send =>
    (session.onOutbox (·.tick)).enqueueNext action.data action.outboundKind action.channel session.now
  | .ready => (session.onOutbox (·.cancel Operation.isAuthWait)).onOutbox (·.emit .ready)
  | .reconnect => session.finish .reconnectRequested action.data
  | .fatal => session.finish .fatal action.data

def startAuthTimeout (session : Session) : Session :=
  ((session.onOutbox (·.tick)).onOutbox (·.cancel Operation.isAuthWait)).onOutbox
    (·.launch (.authWait (session.now + seconds 20)))

def read (session : Session) : Session :=
  if session.closed then session else session.onOutbox (·.launch .read)

/-- The loop over the actions in `handle_line`, which returns once one of them
has closed the session. -/
def applyUntilClosed (session : Session) : List ProtocolAction → Bool × Session
  | [] => (false, session)
  | action :: actions =>
    let session := session.applyAction action
    if session.closed then (true, session) else session.applyUntilClosed actions

/-- One round of the loop over the automated messages. -/
def enqueueChat (session : Session) (chat : ScheduledChatMessage) : Session :=
  match makePrivmsg chat.channel chat.text with
  | .error _ => session
  | .ok data => session.enqueueNext data .chat chat.channel chat.due

/-- The end of `handle_line`, for a message whose actions were applied. -/
def respond (session : Session) (message : IrcMessage) : Except String Unit × Session :=
  if !session.protocol.ready then (.ok (), session)
  else
    let (answer, automation) := session.automation.handle message session.now
    let session := { session.onOutbox (·.tick) with automation := automation }
    match answer with
    | .error what => (.error what, session)
    | .ok chats => (.ok (), chats.foldl enqueueChat session)

def handleMessage (session : Session) (message : IrcMessage) : Except String Unit × Session :=
  let (answer, protocol) := session.protocol.handle message
  let session := { session with protocol := protocol }
  match answer with
  | .error what => (.error what, session)
  | .ok actions =>
    match session.applyUntilClosed actions with
    | (true, session) => (.ok (), session)
    | (false, session) => session.respond message

def handleLine (session : Session) (line : Bytes) : Except String Unit × Session :=
  match parseIrcMessage line with
  | .error _ => (.ok (), session)
  | .ok message => session.handleMessage message

/-- The loop over the lines in the read handler; the flag says that it returned
because the session was closed. -/
def handleLines (session : Session) : List Bytes → Except String Bool × Session
  | [] => (.ok false, session)
  | line :: lines =>
    match session.handleLine line with
    | (.error what, session) => (.error what, session)
    | (.ok (), session) => if session.closed then (.ok true, session) else session.handleLines lines

/-- The `try` block of the read handler. -/
def receive (session : Session) (data : Bytes) : Except String Bool × Session :=
  let (pushed, assembler) := session.assembler.push data
  let session := { session with assembler := assembler }
  match pushed with
  | .error what => (.error what, session)
  | .ok lines => session.handleLines lines

def onResolve (session : Session) : Outcome → Session
  | .failure what => session.fail ("DNS resolution failed: " ++ what)
  | .success _ => session.connect

def onConnect (session : Session) : Outcome → Session
  | .failure what => session.fail ("TCP connection failed: " ++ what)
  | .success _ => session.handshake

/-- The calls of the handshake handler; an exception of `begin` leaves it. -/
def login (session : Session) : Session :=
  let (answer, protocol) := session.protocol.begin
  let session := { session with protocol := protocol }
  match answer with
  | .error what => session.onOutbox (·.emit (.uncaught what))
  | .ok actions => (actions.foldl applyAction session).startAuthTimeout.read

def onHandshake (session : Session) : Outcome → Session
  | .failure what => session.fail ("TLS handshake failed: " ++ what)
  | .success _ => session.login

def onAuthTimer (session : Session) : Outcome → Session
  | .failure _ => session
  | .success _ =>
    if session.protocol.ready then session
    else session.finish .fatal (bytes "Timed out waiting for Twitch authentication")

def onRead (session : Session) : Outcome → Session
  | .failure what => session.fail ("IRC read failed: " ++ what)
  | .success data =>
    match session.receive data with
    | (.error what, session) => session.fail what
    | (.ok true, session) => session
    | (.ok false, session) => session.read

/-- Runs the handler of an operation. -/
def dispatch (session : Session) (operation : Operation) (outcome : Outcome) : Session :=
  match operation with
  | .resolve => session.onResolve outcome
  | .connect => session.onConnect outcome
  | .handshake => session.onHandshake outcome
  | .authWait _ => session.onAuthTimer outcome
  | .read => session.onRead outcome
  | .writeWait _ => session.onOutbox (·.onWriteTimer outcome)
  | .write _ => session.onOutbox (·.onWrite outcome)

end Session

/-- How an operation can complete unless it is aborted: a timer at its expiry,
a read with what fits its buffer, any other operation in any way. -/
def Operation.completesWith (operation : Operation) (now : Time) (outcome : Outcome) : Bool :=
  match operation, outcome with
  | .authWait deadline, .success _ => deadline ≤ now
  | .authWait _, .failure _ => false
  | .writeWait deadline, .success _ => deadline ≤ now
  | .writeWait _, .failure _ => false
  | .read, .success data => data.length ≤ 4096
  | _, _ => true

/-- What can happen to a session from outside: one of its operations completes,
one of its handlers runs, some caller enqueues a message, or it is stopped. -/
inductive SessionEvent
  | complete (index : Nat) (outcome : Outcome)
  | deliver (index : Nat)
  | enqueue (message : OutboundMessage)
  | stop

namespace Session

def complete (session : Session) (index : Nat) (outcome : Outcome) : Session :=
  match session.io.outstanding[index]? with
  | none => session
  | some operation =>
    if operation.completesWith session.now outcome then
      { session with io := session.io.complete index outcome }
    else session

def deliver (session : Session) (index : Nat) : Session :=
  match session.io.take index with
  | none => session
  | some ((operation, outcome), io) => { session with io := io }.dispatch operation outcome

def step (session : Session) : SessionEvent → Session
  | .complete index outcome => session.complete index outcome
  | .deliver index => session.deliver index
  | .enqueue message => session.onOutbox (·.enqueue message)
  | .stop => session.stop

/-- The session behind a sequence of events. -/
def after (session : Session) (events : List SessionEvent) : Session := events.foldl step session

end Session

end TwitchBot
