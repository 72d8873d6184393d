import TwitchBot.RateLimiter
import TwitchBot.Library.IoContext

/-!
Translation of the members of `Session` in `twitch_irc_client.cpp` that queue
and write outgoing messages, and of `finish`.
-/

namespace TwitchBot

inductive SessionEndReason
  | networkError
  | reconnectRequested
  | fatal
  | stopped
  deriving DecidableEq, Repr

/-- The asynchronous operations a session starts. A wait carries the expiry of
its timer and a write the bytes of its buffer. -/
inductive Operation
  | resolve
  | connect
  | handshake
  | authWait (deadline : Time)
  | read
  | writeWait (deadline : Time)
  | write (data : Bytes)
  deriving DecidableEq

/-- What a handler is called with: the bytes read, or the message of the error. -/
inductive Outcome
  | success (data : Bytes)
  | failure (what : String)
  deriving DecidableEq

def Outcome.IsSuccess (outcome : Outcome) : Prop := ∃ data, outcome = .success data

instance : DecidablePred Outcome.IsSuccess
  | .success data => isTrue ⟨data, rfl⟩
  | .failure _ => isFalse nofun

def operationAborted : Outcome := .failure "Operation canceled"

/-- What a session does that can be seen from outside. A dropped message comes
with the length of the queue it met. -/
inductive Effect
  | started (operation : Operation)
  | accepted (message : OutboundMessage)
  | dropped (message : OutboundMessage) (queued : Nat)
  | writing (message : OutboundMessage) (now : Time) (limiter : RateLimiter)
  | wrote (message : OutboundMessage) (sentAt : Time)
  | ready
  | ended (reason : SessionEndReason) (message : Bytes)
  | uncaught (what : String)
  | undefinedBehaviour

def maxOutboundQueue : Nat := 1000

namespace Operation

def isWriteWait : Operation → Bool
  | .writeWait _ => true
  | _ => false

def isAuthWait : Operation → Bool
  | .authWait _ => true
  | _ => false

def isWrite : Operation → Bool
  | .write _ => true
  | _ => false

end Operation

/-- The members of a session around its queue, with the rate limiter it refers
to, the clock readings still to come and what it has done so far. -/
structure Outbox where
  outbound : List OutboundMessage := []
  currentWrite : Option OutboundMessage := none
  writeInProgress : Bool := false
  closed : Bool := false
  limiter : RateLimiter := {}
  clock : Nat → Time
  io : IoContext Operation Outcome := {}
  trace : List Effect := []

/-- A candidate of the loop in `schedule_write`. -/
structure Selection where
  index : Nat
  message : OutboundMessage
  time : Time

/-- `allowed < selected_time || (allowed == selected_time && sequence < selected->sequence)`. -/
def Selection.isBeaten (selected : Selection) (message : OutboundMessage) (allowed : Time) : Bool :=
  decide (allowed < selected.time) ||
    (decide (allowed = selected.time) && decide (message.sequence < selected.message.sequence))

namespace Outbox

/-- `steady_clock::now()`, the next reading of the clock. -/
def now (outbox : Outbox) : Time := outbox.clock 0

/-- The outbox behind a reading of the clock. -/
def tick (outbox : Outbox) : Outbox := { outbox with clock := fun n => outbox.clock (n + 1) }

def emit (outbox : Outbox) (effect : Effect) : Outbox := { outbox with trace := outbox.trace ++ [effect] }

def launch (outbox : Outbox) (operation : Operation) : Outbox :=
  { outbox with io := outbox.io.start operation, trace := outbox.trace ++ [.started operation] }

def cancel (outbox : Outbox) (selected : Operation → Bool) : Outbox :=
  { outbox with io := outbox.io.cancel selected operationAborted }

/-- `finish` cancels the resolver and both timers and closes the socket, so it
aborts every operation that is still outstanding. -/
def finish (outbox : Outbox) (reason : SessionEndReason) (message : Bytes) : Outbox :=
  if outbox.closed then outbox
  else ({ outbox with closed := true }.cancel (fun _ => true)).emit (.ended reason message)

/-- `std::max(due, limiter_.next_allowed(kind, channel, now))`. -/
def writeTime (limiter : RateLimiter) (message : OutboundMessage) (now : Time) : Time × RateLimiter :=
  let (allowed, limiter) := limiter.nextAllowed message.kind message.channel now
  (max message.due allowed, limiter)

def selectLoop (now : Time) (limiter : RateLimiter) (selected : Selection) (index : Nat) :
    List OutboundMessage → Selection × RateLimiter
  | [] => (selected, limiter)
  | message :: rest =>
    let (allowed, limiter) := writeTime limiter message now
    selectLoop now limiter (if selected.isBeaten message allowed then ⟨index, message, allowed⟩ else selected)
      (index + 1) rest

/-- The message to write next, with its time. -/
def select (limiter : RateLimiter) (first : OutboundMessage) (rest : List OutboundMessage) (now : Time) :
    Selection × RateLimiter :=
  let (allowed, limiter) := writeTime limiter first now
  selectLoop now limiter ⟨0, first, allowed⟩ 1 rest

/-- `expires_at` aborts the waits of the timer that have not completed yet. -/
def armWriteTimer (outbox : Outbox) (deadline : Time) : Outbox :=
  (outbox.cancel Operation.isWriteWait).launch (.writeWait deadline)

def startWrite (outbox : Outbox) (selected : Selection) (now : Time) : Outbox :=
  ({ outbox with
      currentWrite := some selected.message
      outbound := outbox.outbound.eraseIdx selected.index
      writeInProgress := true }.emit (.writing selected.message now outbox.limiter)).launch
    (.write selected.message.wireData)

def scheduleWrite (outbox : Outbox) : Outbox :=
  if outbox.closed || outbox.writeInProgress then outbox
  else match outbox.outbound with
    | [] => outbox
    | first :: rest =>
      let (selected, limiter) := select outbox.limiter first rest outbox.now
      if selected.time > outbox.now then { outbox.tick with limiter := limiter }.armWriteTimer selected.time
      else { outbox.tick with limiter := limiter }.startWrite selected outbox.now

def enqueue (outbox : Outbox) (message : OutboundMessage) : Outbox :=
  if outbox.closed then outbox
  else if outbox.outbound.length ≥ maxOutboundQueue then
    if message.kind = .chat then outbox.emit (.dropped message outbox.outbound.length)
    else outbox.finish .networkError (bytes "Outbound queue exhausted")
  else
    ({ outbox with outbound := outbox.outbound ++ [message] }.emit (.accepted message)).scheduleWrite

/-- The write handler for a success, which dereferences `current_write_`. -/
def onWritten (outbox : Outbox) : Outbox :=
  match outbox.currentWrite with
  | none => outbox.emit .undefinedBehaviour
  | some message =>
    ({ outbox.tick with
        limiter := outbox.limiter.record message.kind message.channel outbox.now
        currentWrite := none
        writeInProgress := false }.emit (.wrote message outbox.now)).scheduleWrite

def onWrite (outbox : Outbox) : Outcome → Outbox
  | .failure what => outbox.finish .networkError (bytes ("IRC write failed: " ++ what))
  | .success _ => outbox.onWritten

def onWriteTimer (outbox : Outbox) : Outcome → Outbox
  | .failure _ => outbox
  | .success _ => outbox.scheduleWrite

end Outbox

end TwitchBot
