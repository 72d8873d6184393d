import TwitchBot.SessionMoves

namespace TwitchBot

open Outbox

/-- What the session keeps of its outbox while it handles lines: whatever its
calls into the queue, its own ends and its ready notifications keep. -/
structure KeptByLines (property : Outbox → Prop) : Prop where
  tick : ∀ outbox : Outbox, property outbox → property outbox.tick
  enqueue : ∀ (outbox : Outbox) (message : OutboundMessage), property outbox → property (outbox.enqueue message)
  finish : ∀ (outbox : Outbox) (reason : SessionEndReason) (message : Bytes),
    reason ≠ .stopped → property outbox → property (outbox.finish reason message)
  cancel : ∀ outbox : Outbox, property outbox → property (outbox.cancel Operation.isAuthWait)
  ready : ∀ outbox : Outbox, property outbox → property (outbox.emit .ready)

namespace KeptByLines

variable {property : Outbox → Prop}

theorem applyAction (kept : KeptByLines property) (session : Session) (action : ProtocolAction)
    (holds : property session.toOutbox) : property (session.applyAction action).toOutbox := by
  unfold Session.applyAction
  split
  · exact kept.enqueue _ _ (kept.tick _ holds)
  · exact kept.ready _ (kept.cancel _ holds)
  · exact kept.finish _ _ _ nofun holds
  · exact kept.finish _ _ _ nofun holds

theorem applyActions (kept : KeptByLines property) (session : Session) (actions : List ProtocolAction)
    (holds : property session.toOutbox) : property (actions.foldl Session.applyAction session).toOutbox := by
  induction actions generalizing session with
  | nil => exact holds
  | cons action actions ih => exact ih _ (kept.applyAction session action holds)

theorem applyUntilClosed (kept : KeptByLines property) (session : Session) (actions : List ProtocolAction)
    (holds : property session.toOutbox) : property (session.applyUntilClosed actions).2.toOutbox := by
  induction actions generalizing session with
  | nil => exact holds
  | cons action actions ih =>
    simp only [Session.applyUntilClosed]
    split
    · exact kept.applyAction session action holds
    · exact ih _ (kept.applyAction session action holds)

theorem enqueueChats (kept : KeptByLines property) (session : Session) (chats : List ScheduledChatMessage)
    (holds : property session.toOutbox) : property (chats.foldl Session.enqueueChat session).toOutbox := by
  induction chats generalizing session with
  | nil => exact holds
  | cons chat chats ih =>
    refine ih _ ?_
    unfold Session.enqueueChat
    split
    · exact holds
    · exact kept.enqueue _ _ holds

theorem respond (kept : KeptByLines property) (session : Session) (message : IrcMessage)
    (holds : property session.toOutbox) : property (session.respond message).2.toOutbox := by
  unfold Session.respond
  split
  · exact holds
  · dsimp only
    split
    · exact kept.tick _ holds
    · exact kept.enqueueChats _ _ (kept.tick _ holds)

theorem handleMessage (kept : KeptByLines property) (session : Session) (message : IrcMessage)
    (holds : property session.toOutbox) : property (session.handleMessage message).2.toOutbox := by
  unfold Session.handleMessage
  dsimp only
  split
  · exact holds
  · rename_i actions _
    have applied := kept.applyUntilClosed { session with protocol := (session.protocol.handle message).2 } actions holds
    split
    · rename_i result
      rw [result] at applied
      exact applied
    · rename_i result
      rw [result] at applied
      exact kept.respond _ message applied

theorem handleLine (kept : KeptByLines property) (session : Session) (line : Bytes)
    (holds : property session.toOutbox) : property (session.handleLine line).2.toOutbox := by
  unfold Session.handleLine
  split
  · exact holds
  · exact kept.handleMessage session _ holds

theorem handleLines (kept : KeptByLines property) (session : Session) (lines : List Bytes)
    (holds : property session.toOutbox) : property (session.handleLines lines).2.toOutbox := by
  induction lines generalizing session with
  | nil => exact holds
  | cons line lines ih =>
    have first := kept.handleLine session line holds
    unfold Session.handleLines
    split
    · rename_i result
      rw [result] at first
      exact first
    · rename_i result
      rw [result] at first
      split
      · exact first
      · exact ih _ first

theorem receive (kept : KeptByLines property) (session : Session) (data : Bytes)
    (holds : property session.toOutbox) : property (session.receive data).2.toOutbox := by
  unfold Session.receive
  dsimp only
  split
  · exact holds
  · exact kept.handleLines { session with assembler := (session.assembler.push data).2 } _ holds

theorem onRead (kept : KeptByLines property)
    (read : ∀ session : Session, property session.toOutbox → property session.read.toOutbox) (session : Session)
    (outcome : Outcome) (holds : property session.toOutbox) : property (session.onRead outcome).toOutbox := by
  cases outcome with
  | failure what => exact kept.finish _ _ _ nofun holds
  | success data =>
    have received := kept.receive session data holds
    simp only [Session.onRead]
    split
    · rename_i result
      rw [result] at received
      exact kept.finish _ _ _ nofun received
    · rename_i result
      rw [result] at received
      exact received
    · rename_i result
      rw [result] at received
      exact read _ received

end KeptByLines

/-- What every handler of the session keeps: its calls outside the lines keep it too. -/
structure KeptByHandlers (property : Outbox → Prop) : Prop extends KeptByLines property where
  launch : ∀ (outbox : Outbox) (operation : Operation), property outbox → property (outbox.launch operation)
  onWriteTimer : ∀ (outbox : Outbox) (outcome : Outcome), property outbox → property (outbox.onWriteTimer outcome)
  onWrite : ∀ (outbox : Outbox) (outcome : Outcome), property outbox → property (outbox.onWrite outcome)

namespace KeptByHandlers

variable {property : Outbox → Prop}

theorem read (kept : KeptByHandlers property) (session : Session) (holds : property session.toOutbox) :
    property session.read.toOutbox := by
  unfold Session.read
  split
  · exact holds
  · exact kept.launch _ .read holds

/-- The login, where what it throws is given. -/
theorem login (kept : KeptByHandlers property) (session : Session)
    (thrown : ∀ what, session.protocol.begin.1 = .error what → property (session.toOutbox.emit (.uncaught what)))
    (holds : property session.toOutbox) : property session.login.toOutbox := by
  unfold Session.login
  dsimp only
  split
  · rename_i what answered
    exact thrown what answered
  · rename_i actions _
    have applied := kept.applyActions { session with protocol := session.protocol.begin.2 } actions holds
    have timed : property (Session.startAuthTimeout _).toOutbox :=
      kept.launch _ (.authWait _) (kept.cancel _ (kept.tick _ applied))
    exact kept.read _ timed

theorem dispatch (kept : KeptByHandlers property) (session : Session)
    (thrown : ∀ what, session.protocol.begin.1 = .error what → property (session.toOutbox.emit (.uncaught what)))
    (operation : Operation) (outcome : Outcome) (holds : property session.toOutbox) :
    property (session.dispatch operation outcome).toOutbox := by
  cases operation with
  | resolve =>
    cases outcome with
    | failure what => exact kept.finish _ _ _ nofun holds
    | success data => exact kept.launch _ .connect holds
  | connect =>
    cases outcome with
    | failure what => exact kept.finish _ _ _ nofun holds
    | success data =>
      simp only [Session.dispatch, Session.onConnect, Session.handshake]
      split
      · exact kept.launch _ .handshake holds
      · exact kept.finish _ _ _ nofun holds
  | handshake =>
    cases outcome with
    | failure what => exact kept.finish _ _ _ nofun holds
    | success data => exact kept.login session thrown holds
  | authWait deadline =>
    simp only [Session.dispatch, Session.onAuthTimer]
    split
    · exact holds
    · split
      · exact holds
      · exact kept.finish _ _ _ nofun holds
  | read => exact kept.onRead kept.read session outcome holds
  | writeWait deadline => exact kept.onWriteTimer _ outcome holds
  | write data => exact kept.onWrite _ outcome holds

end KeptByHandlers

end TwitchBot
