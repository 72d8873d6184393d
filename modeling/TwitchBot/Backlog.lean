import TwitchBot.ClosedSession
import TwitchBot.ProtocolDrivers
import TwitchBot.Wakeup

namespace TwitchBot

open Framing Outbox

/-- Queueing a message leaves the session open and brings the message into the
queue or into the write in progress. -/
def Carried (outbox : Outbox) (message : OutboundMessage) : Prop :=
  (outbox.enqueue message).closed = false ∧
    (message ∈ (outbox.enqueue message).outbound ∨ (outbox.enqueue message).currentWrite = some message)

/-- `schedule_write` keeps every queued message, or writes it. -/
theorem Outbox.scheduleWrite_keeps {outbox : Outbox} {message : OutboundMessage}
    (queued : message ∈ outbox.outbound) :
    outbox.scheduleWrite.closed = outbox.closed ∧
      (message ∈ outbox.scheduleWrite.outbound ∨ outbox.scheduleWrite.currentWrite = some message) := by
  rcases scheduleWrite_cases outbox with ⟨same, _⟩ |
    ⟨_, _, selected, limiter, selects, _, ⟨_, armed⟩ | ⟨_, started⟩⟩
  · rw [same]
    exact ⟨rfl, Or.inl queued⟩
  · rw [armed]
    exact ⟨rfl, Or.inl queued⟩
  · rw [started]
    refine ⟨rfl, ?_⟩
    obtain ⟨bound, same⟩ := List.getElem?_eq_some_iff.mp selects.at_index
    have moved := (List.getElem_cons_eraseIdx_perm bound).mem_iff.mpr queued
    rcases List.mem_cons.mp moved with first | rest
    · exact Or.inr (congrArg some (same.symm.trans first.symm))
    · exact Or.inl rest

/-- An open session carries a system message exactly if its queue has room,
whatever the queue is full of. -/
theorem Outbox.carried_iff {outbox : Outbox} (isOpen : outbox.closed = false) {message : OutboundMessage}
    (isSystem : message.kind = .system) :
    Carried outbox message ↔ outbox.outbound.length < maxOutboundQueue := by
  unfold Carried
  rcases enqueue_cases outbox message with ⟨closed, _⟩ | ⟨_, _, chat, _⟩ | ⟨_, full, _, ended⟩ |
    ⟨_, room, accepted⟩
  · rw [isOpen] at closed
    cases closed
  · rw [isSystem] at chat
    cases chat
  · have closed : (outbox.enqueue message).closed = true := by
      rw [ended, finish, isOpen]
      rfl
    exact iff_of_false (by simp [closed]) (Nat.not_lt.mpr full)
  · refine iff_of_true ?_ room
    rw [accepted]
    have queued : message ∈ ({ outbox with
        outbound := outbox.outbound ++ [message] }.emit (.accepted message)).outbound :=
      List.mem_append_right _ List.mem_cons_self
    obtain ⟨kept, carried⟩ := scheduleWrite_keeps queued
    exact ⟨kept.trans isOpen, carried⟩

/-- In every state that a session can reach and in which it is open, a system
message is queued or written, and the session stays open, if and only if fewer
than 1000 messages of any kind are queued. -/
theorem backlog_iff (config : RuntimeConfig) (limiter : RateLimiter) (clock : Nat → Time)
    (sniConfigured : Bool) (events : List SessionEvent)
    (isOpen : ((Session.new config limiter clock sniConfigured).start.after events).closed = false)
    {message : OutboundMessage} (isSystem : message.kind = .system) :
    Carried ((Session.new config limiter clock sniConfigured).start.after events).toOutbox message ↔
      ((Session.new config limiter clock sniConfigured).start.after events).outbound.length < 1000 :=
  carried_iff isOpen isSystem

/-- The answer to a keepalive. -/
def pongMessage : OutboundMessage := ⟨bytes "PONG :tmi" ++ crlf, .system, [], 0, 0⟩

/-- A rule that answers `x` from the user `a` one hour later. -/
def floodRule : MessageRule where
  enabled := true
  sender := bytes "a"
  contains := bytes "x"
  response := bytes "y"
  delay := 3600

def floodConfig : RuntimeConfig := { validConfig with bot := { messageRules := [floodRule] } }

def floodDocument : Bytes :=
  bytes "\x7b\"messageRules\":[\x7b\"enabled\":true,\"sender\":\"a\",\"contains\":\"x\"," ++
    bytes "\"response\":\"y\",\"delaySeconds\":3600\x7d]\x7d"

/-- A parser that knows that document. -/
def parseFloodDocument : JsonParser := fun text =>
  if text = floodDocument then
    .ok (.object [(bytes "messageRules", .array [.object [(bytes "enabled", .boolean true),
      (bytes "sender", .string (bytes "a")), (bytes "contains", .string (bytes "x")),
      (bytes "response", .string (bytes "y")), (bytes "delaySeconds", .numberUnsigned 3600)]])])
  else .error "unexpected input"

theorem floodConfig_accepted :
    parseRuntimeConfig parseFloodDocument validEnvironment floodDocument = .ok floodConfig := by
  decide +kernel

def floodLine : Bytes := bytes ":a!a PRIVMSG #one :x"

/-- One chat message that the rule answers. -/
def floodRound : List SessionEvent := [.complete 1 (.success (floodLine ++ crlf)), .deliver 0]

def floodMessage : IrcMessage := ⟨∅, bytes "a!a", bytes "PRIVMSG", [bytes "#one", bytes "x"]⟩

def floodChat : ScheduledChatMessage := ⟨bytes "one", bytes "y", seconds 3600⟩

/-- The engine once the rule has answered. -/
def floodEngine : AutomationEngine := ⟨floodConfig.bot, [some 0], none, 0, 0⟩

def passData : Bytes := bytes "PASS oauth:unit_test_token_value" ++ crlf

def chatData : Bytes := bytes "PRIVMSG #one :y" ++ crlf

/-- A ready session whose login line is still being written, with answers of the
rule queued behind the other lines of the login and the JOINs. -/
structure Flooded (io : IoContext Operation Outcome) (session : Session) (chats : Nat) : Prop where
  isOpen : session.closed = false
  busy : session.writeInProgress = true
  isReady : session.protocol.state = .ready
  engine : session.automation = floodEngine
  assembler : session.assembler = .empty
  clock : session.clock = fun _ => 0
  io : session.io = io
  queued : session.outbound.length = chats + 4
  others : session.outbound.countP (fun message => message.kind ≠ .chat) = 4

/-- The login line is being written and the next read is outstanding. -/
def readingIo : IoContext Operation Outcome := ⟨[.write passData, .read], []⟩

/-- The session behind the login and one answered message. -/
def loggedInSession : Session :=
  (Session.new floodConfig {} (fun _ => 0) true).start.after (loginEvents ++ floodRound)

/-- A clock that stands still is not changed by reading it. -/
theorem Session.after_clock {session : Session} {time : Time} (events : List SessionEvent)
    (still : session.clock = fun _ => time) : (session.after events).clock = fun _ => time := by
  obtain ⟨readings, same⟩ := (Session.after_moves session events).elapsed
  funext n
  rw [same, still]

theorem flooded_loggedInSession : Flooded readingIo loggedInSession 1 := by
  have clock : loggedInSession.clock = fun _ => 0 := by
    unfold loggedInSession
    exact Session.after_clock _ rfl
  have fields : loggedInSession.closed = false ∧ loggedInSession.writeInProgress = true ∧
      loggedInSession.protocol.state = .ready ∧ loggedInSession.automation = floodEngine ∧
      loggedInSession.assembler = .empty ∧
      loggedInSession.io.outstanding = [.write passData, .read] ∧ loggedInSession.io.completed = [] ∧
      loggedInSession.outbound.length = 5 ∧
      loggedInSession.outbound.countP (fun message => message.kind ≠ .chat) = 4 := by
    decide +kernel
  obtain ⟨isOpen, busy, isReady, engine, assembler, outstanding, completed, queued, others⟩ := fields
  have io : loggedInSession.io = readingIo := by
    rw [readingIo, ← outstanding, ← completed]
  exact ⟨isOpen, busy, isReady, engine, assembler, clock, io, queued, others⟩

theorem floodLine_parsed : parseIrcMessage floodLine = .ok floodMessage := by decide +kernel

theorem floodLine_pushed : IrcStreamAssembler.empty.push (floodLine ++ crlf) = (.ok [floodLine], .empty) :=
  IrcStreamAssembler.push_fits IrcStreamAssembler.empty (by decide) (by decide)

theorem floodEngine_handle : floodEngine.handle floodMessage 0 = (.ok [floodChat], floodEngine) := by
  decide +kernel

theorem floodChat_encoded : makePrivmsg floodChat.channel floodChat.text = .ok chatData := by decide +kernel

namespace Flooded

variable {io : IoContext Operation Outcome} {session : Session} {chats : Nat}

/-- A further answer is queued behind the write in progress. -/
theorem enqueueChat (flooded : Flooded io session chats) (room : chats + 4 < maxOutboundQueue) :
    Flooded io ({ session.onOutbox (·.tick) with automation := floodEngine }.enqueueChat floodChat)
      (chats + 1) := by
  have space : ¬maxOutboundQueue ≤ session.outbound.length := by
    rw [flooded.queued]
    omega
  have still : (fun n => session.clock (n + 1)) = fun _ => 0 := by rw [flooded.clock]
  simp only [Session.enqueueChat, floodChat_encoded, Session.enqueueNext, Session.onOutbox, Outbox.enqueue,
    Outbox.tick, Outbox.emit, Outbox.scheduleWrite, flooded.isOpen, flooded.busy, ge_iff_le, if_neg space,
    Bool.false_eq_true, if_false, Bool.false_or, if_true]
  refine ⟨rfl, rfl, flooded.isReady, rfl, flooded.assembler, still, flooded.io, ?_, ?_⟩
  · rw [List.length_append, flooded.queued]
    rfl
  · simpa using flooded.others

/-- The handler of the line queues one more answer. -/
theorem handleLine (flooded : Flooded io session chats) (room : chats + 4 < maxOutboundQueue) :
    ∃ next, session.handleLine floodLine = (.ok (), next) ∧ Flooded io next (chats + 1) := by
  have now : session.now = 0 := by rw [Outbox.now, flooded.clock]
  have quiet : session.protocol.handle floodMessage = (.ok [], session.protocol) :=
    SessionProtocol.handle_of_ready flooded.isReady (by decide)
  have isReady : session.protocol.ready = true := by
    rw [SessionProtocol.ready, flooded.isReady]
    rfl
  have answered : session.automation.handle floodMessage session.now = (.ok [floodChat], floodEngine) := by
    rw [now, flooded.engine, floodEngine_handle]
  refine ⟨_, ?_, flooded.enqueueChat room⟩
  rw [Session.handleLine, floodLine_parsed]
  simp only [Session.handleMessage, quiet, Session.applyUntilClosed, Session.respond, isReady, answered,
    Bool.not_true, Bool.false_eq_true, if_false, List.foldl_cons, List.foldl_nil]

/-- The read handler takes the line and starts the next read. -/
theorem onRead (flooded : Flooded io session chats) (room : chats + 4 < maxOutboundQueue) :
    Flooded (io.start .read) (session.onRead (.success (floodLine ++ crlf))) (chats + 1) := by
  have pushed : session.assembler.push (floodLine ++ crlf) = (.ok [floodLine], session.assembler) := by
    rw [flooded.assembler, floodLine_pushed]
  obtain ⟨next, handled, kept⟩ := flooded.handleLine room
  have received : session.receive (floodLine ++ crlf) = (.ok false, next) := by
    simp only [Session.receive, pushed, Session.handleLines, handled, kept.isOpen, Bool.false_eq_true, if_false]
  have read : session.onRead (.success (floodLine ++ crlf)) = next.onOutbox (·.launch .read) := by
    simp only [Session.onRead, received, Session.read, kept.isOpen, Bool.false_eq_true, if_false]
  have started : (next.onOutbox (·.launch .read)).io = io.start .read := by
    rw [← kept.io]
    rfl
  rw [read]
  exact ⟨kept.isOpen, kept.busy, kept.isReady, kept.engine, kept.assembler, kept.clock, started, kept.queued,
    kept.others⟩

/-- One more message of the user reaches the session. -/
theorem round (flooded : Flooded readingIo session chats) (room : chats + 4 < maxOutboundQueue) :
    Flooded readingIo (session.after floodRound) (chats + 1) := by
  have small : (floodLine ++ crlf).length ≤ 4096 := by decide
  have arrived : session.after floodRound =
      ({ session with io := ⟨[.write passData], []⟩ } : Session).onRead (.success (floodLine ++ crlf)) := by
    simp only [Session.after, floodRound, List.foldl_cons, List.foldl_nil, Session.step, Session.complete,
      Session.deliver, flooded.io, readingIo, List.getElem?_cons_succ, List.getElem?_cons_zero,
      Operation.completesWith, small, decide_true, if_true, IoContext.complete, IoContext.take]
    rfl
  have taken : Flooded ⟨[.write passData], []⟩ { session with io := ⟨[.write passData], []⟩ } chats :=
    ⟨flooded.isOpen, flooded.busy, flooded.isReady, flooded.engine, flooded.assembler, flooded.clock, rfl,
      flooded.queued, flooded.others⟩
  rw [arrived]
  exact taken.onRead room

/-- The answers pile up until the queue is full. -/
theorem rounds (flooded : Flooded readingIo session chats) (count : Nat)
    (room : chats + count + 4 ≤ maxOutboundQueue) :
    Flooded readingIo (session.after (List.replicate count floodRound).flatten) (chats + count) := by
  induction count with
  | zero => exact flooded
  | succ count ih =>
    have step := (ih (by omega)).round (by omega)
    rw [List.replicate_succ', List.flatten_append, Session.after_append, ← Nat.add_assoc]
    simpa using step

end Flooded

/-- The login, one message that the rule answers, and more of them. -/
def floodEvents (more : Nat) : List SessionEvent :=
  loginEvents ++ floodRound ++ (List.replicate more floodRound).flatten

/-- The session behind these events. -/
def floodedSession (more : Nat) : Session :=
  (Session.new floodConfig {} (fun _ => 0) true).start.after (floodEvents more)

theorem flooded_floodedSession (more : Nat) (room : more + 5 ≤ maxOutboundQueue) :
    Flooded readingIo (floodedSession more) (more + 1) := by
  have flooded := flooded_loggedInSession.rounds more (by omega)
  rwa [loggedInSession, ← Session.after_append, ← floodEvents, ← floodedSession, Nat.add_comm 1] at flooded

/-- The last place of the queue is free for the answer to a `PING`; with one more
chat message in the queue there is none. -/
theorem backlog_iff_flooded :
    Carried (floodedSession 994).toOutbox pongMessage ∧ ¬Carried (floodedSession 995).toOutbox pongMessage := by
  have room := flooded_floodedSession 994 (by decide)
  have full := flooded_floodedSession 995 (by decide)
  have carried := @backlog_iff floodConfig {} (fun _ => 0) true (floodEvents 994)
  have lost := @backlog_iff floodConfig {} (fun _ => 0) true (floodEvents 995)
  rw [← floodedSession] at carried lost
  rw [@carried room.isOpen pongMessage rfl, @lost full.isOpen pongMessage rfl, room.queued, full.queued]
  decide

/-- With 996 chat messages among the 1000 in the queue, the answer to a `PING`
ends the session. -/
theorem backlog_fails :
    ¬∀ (config : RuntimeConfig) (limiter : RateLimiter) (clock : Nat → Time) (sniConfigured : Bool)
      (events : List SessionEvent) (message : OutboundMessage),
      (∃ parseJson environment botJson, parseRuntimeConfig parseJson environment botJson = .ok config) →
      ((Session.new config limiter clock sniConfigured).start.after events).closed = false →
      ((Session.new config limiter clock sniConfigured).start.after events).outbound.countP
          (fun message => message.kind ≠ .chat) < 1000 →
      message.kind = .system →
        Carried ((Session.new config limiter clock sniConfigured).start.after events).toOutbox message := by
  intro carried
  have flooded := flooded_floodedSession 995 (by decide)
  have result := carried floodConfig {} (fun _ => 0) true (floodEvents 995) pongMessage ⟨_, _, _, floodConfig_accepted⟩
  rw [← floodedSession, carried_iff flooded.isOpen rfl, flooded.queued] at result
  exact absurd (result flooded.isOpen (by rw [flooded.others]; decide) rfl) (by decide)

end TwitchBot
