import TwitchBot.ReadyGating
import TwitchBot.SessionMoves

namespace TwitchBot

open SessionProtocol

namespace SessionProtocol

theorem after_concat (protocol : SessionProtocol) (earlier later : List ProtocolCall) :
    protocol.after (earlier ++ later) = (protocol.after earlier).after later := by
  simp [after]

end SessionProtocol

namespace Session

@[simp] theorem onOutbox_protocol (session : Session) (act : Outbox → Outbox) :
    (session.onOutbox act).protocol = session.protocol := rfl

@[simp] theorem applyAction_protocol (session : Session) (action : ProtocolAction) :
    (session.applyAction action).protocol = session.protocol := by
  unfold applyAction
  split <;> rfl

@[simp] theorem applyActions_protocol (session : Session) (actions : List ProtocolAction) :
    (actions.foldl applyAction session).protocol = session.protocol := by
  induction actions generalizing session with
  | nil => rfl
  | cons action actions ih => rw [List.foldl_cons, ih, applyAction_protocol]

@[simp] theorem applyUntilClosed_protocol (session : Session) (actions : List ProtocolAction) :
    (session.applyUntilClosed actions).2.protocol = session.protocol := by
  induction actions generalizing session with
  | nil => rfl
  | cons action actions ih =>
    simp only [applyUntilClosed]
    split
    · exact applyAction_protocol session action
    · rw [ih, applyAction_protocol]

@[simp] theorem enqueueChats_protocol (session : Session) (chats : List ScheduledChatMessage) :
    (chats.foldl enqueueChat session).protocol = session.protocol := by
  induction chats generalizing session with
  | nil => rfl
  | cons chat chats ih =>
    rw [List.foldl_cons, ih]
    unfold enqueueChat
    split <;> rfl

@[simp] theorem respond_protocol (session : Session) (message : IrcMessage) :
    (session.respond message).2.protocol = session.protocol := by
  unfold respond
  split
  · rfl
  · dsimp only
    split
    · rfl
    · simp

theorem handleMessage_protocol (session : Session) (message : IrcMessage) :
    (session.handleMessage message).2.protocol = (session.protocol.handle message).2 := by
  unfold handleMessage
  dsimp only
  split
  · rfl
  · rename_i actions _
    have applied := applyUntilClosed_protocol { session with protocol := (session.protocol.handle message).2 } actions
    split
    · rename_i result
      rw [result] at applied
      exact applied
    · rename_i result
      rw [result] at applied
      rw [respond_protocol]
      exact applied

theorem read_protocol (session : Session) : session.read.protocol = session.protocol := by
  unfold read
  split <;> rfl

theorem handshake_protocol (session : Session) : session.handshake.protocol = session.protocol := by
  unfold handshake
  split <;> rfl

theorem onAuthTimer_protocol (session : Session) (outcome : Outcome) :
    (session.onAuthTimer outcome).protocol = session.protocol := by
  unfold onAuthTimer
  split
  · rfl
  · split <;> rfl

end Session

end TwitchBot
