import TwitchBot.HandlerRules
import TwitchBot.QueueFrames
import TwitchBot.ReadyGating
import TwitchBot.RuleAutomata

namespace TwitchBot

open Outbox SessionProtocol

/-- A chat message as the queue is offered it: its line, its channel and the
time from which it is due. -/
abbrev Offer := Bytes × Bytes × Time

def OutboundMessage.offer (message : OutboundMessage) : Option Offer :=
  if message.kind = .chat then some (message.wireData, message.channel, message.due) else none

/-- The queue accepts what it is offered, or drops it. -/
def Effect.offer : Effect → Option Offer
  | .accepted message => message.offer
  | .dropped message _ => message.offer
  | _ => none

/-- The chat messages that the queue was offered, in order. -/
def offers (trace : List Effect) : List Offer := trace.filterMap Effect.offer

theorem offers_concat (trace : List Effect) (effect : Effect) :
    offers (trace ++ [effect]) = offers trace ++ effect.offer.toList := filterMap_concat _ _ _

theorem Effect.offer_overlooks (effect : Effect) (scheduling : effect.isScheduling = true) : effect.offer = none := by
  cases effect with
  | accepted message => cases scheduling
  | dropped message queued => cases scheduling
  | _ => rfl

/-- What the automation says becomes an offer, unless it makes no valid line. -/
def ScheduledChatMessage.offer (chat : ScheduledChatMessage) : Option Offer :=
  (makePrivmsg chat.channel chat.text).toOption.map (fun data => (data, chat.channel, chat.due))

namespace Outbox

theorem emit_offers (outbox : Outbox) (effect : Effect) (silent : effect.offer = none) :
    offers (outbox.emit effect).trace = offers outbox.trace := by
  rw [emit, offers_concat, silent, Option.toList_none, List.append_nil]

theorem finish_offers (outbox : Outbox) (reason : SessionEndReason) (message : Bytes) :
    offers (outbox.finish reason message).trace = offers outbox.trace := by
  unfold finish
  split
  · rfl
  · exact emit_offers ({ outbox with closed := true }.cancel (fun _ => true)) (.ended reason message) rfl

theorem scheduleWrite_closed (outbox : Outbox) : outbox.scheduleWrite.closed = outbox.closed := by
  rcases scheduleWrite_cases outbox with ⟨same, _⟩ | ⟨_, _, selected, limiter, _, _, ⟨_, armed⟩ | ⟨_, started⟩⟩
  · rw [same]
  · rw [armed]
    rfl
  · rw [started]
    rfl

/-- An open queue is offered every chat message, and stays open. -/
theorem enqueue_chat (outbox : Outbox) (message : OutboundMessage) (isOpen : outbox.closed = false)
    (chat : message.kind = .chat) :
    offers (outbox.enqueue message).trace = offers outbox.trace ++ message.offer.toList ∧
      (outbox.enqueue message).closed = false := by
  rcases enqueue_cases outbox message with ⟨closed, _⟩ | ⟨_, _, _, dropped⟩ | ⟨_, _, other, _⟩ | ⟨_, _, accepted⟩
  · rw [isOpen] at closed
    cases closed
  · rw [dropped]
    exact ⟨offers_concat _ _, isOpen⟩
  · exact absurd chat other
  · rw [accepted]
    refine ⟨((scheduleWrite_schedules _).filterMap Effect.offer_overlooks).trans (offers_concat _ _), ?_⟩
    rw [scheduleWrite_closed]
    exact isOpen

/-- Other messages are no offers. -/
theorem enqueue_other (outbox : Outbox) {message : OutboundMessage} (other : message.kind ≠ .chat) :
    offers (outbox.enqueue message).trace = offers outbox.trace := by
  have none : message.offer = none := if_neg other
  rcases enqueue_cases outbox message with ⟨_, same⟩ | ⟨_, _, chat, _⟩ | ⟨_, _, _, ended⟩ | ⟨_, _, accepted⟩
  · rw [same]
  · exact absurd chat other
  · rw [ended, finish_offers]
  · rw [accepted]
    refine ((scheduleWrite_schedules _).filterMap Effect.offer_overlooks).trans ?_
    exact emit_offers { outbox with outbound := outbox.outbound ++ [message] } _ none

end Outbox

/-- The protocol object never asks for chat. -/
theorem call_notChat {protocol : SessionProtocol} {call : ProtocolCall} {returned : List ProtocolAction}
    (answered : (protocol.call call).1 = .ok returned) {action : ProtocolAction} (member : action ∈ returned)
    (isSend : action.kind = .send) : action.outboundKind ≠ .chat := by
  rcases call_cases protocol call with system | ⟨last, ends, ended, _⟩ | ⟨ready, _⟩
  · rw [answered] at system
    rw [(system action member).2]
    decide
  · rw [answered] at ended
    cases ended
    rw [List.mem_singleton.mp member] at isSend
    rw [isSend] at ends
    rcases ends with other | other
    all_goals cases other
  · rw [answered] at ready
    obtain ⟨joins, run, rest⟩ := ExceptRun.bind_eq_ok.mp ready.symm
    cases Except.ok.inj rest
    rcases List.mem_cons.mp member with rfl | join
    · cases isSend
    · obtain ⟨channel, _, sent⟩ := ExceptRun.mapM_eq_ok run action join
      obtain ⟨data, rfl⟩ := sendAction_ok sent
      exact OutboundKind.noConfusion

namespace Session

theorem applyAction_offers (session : Session) {action : ProtocolAction}
    (notChat : action.kind = .send → action.outboundKind ≠ .chat) :
    offers (session.applyAction action).trace = offers session.trace := by
  unfold applyAction
  split
  · rename_i isSend
    exact enqueue_other session.toOutbox.tick (notChat isSend)
  · exact emit_offers (session.toOutbox.cancel Operation.isAuthWait) _ rfl
  · exact finish_offers session.toOutbox _ _
  · exact finish_offers session.toOutbox _ _

theorem applyActions_offers (session : Session) {actions : List ProtocolAction}
    (notChat : ∀ action ∈ actions, action.kind = .send → action.outboundKind ≠ .chat) :
    offers (actions.foldl applyAction session).trace = offers session.trace := by
  induction actions generalizing session with
  | nil => rfl
  | cons action actions ih =>
    obtain ⟨first, rest⟩ := List.forall_mem_cons.mp notChat
    rw [List.foldl_cons, ih _ rest, applyAction_offers session first]

theorem applyUntilClosed_offers (session : Session) {actions : List ProtocolAction}
    (notChat : ∀ action ∈ actions, action.kind = .send → action.outboundKind ≠ .chat) :
    offers (session.applyUntilClosed actions).2.trace = offers session.trace := by
  induction actions generalizing session with
  | nil => rfl
  | cons action actions ih =>
    obtain ⟨first, rest⟩ := List.forall_mem_cons.mp notChat
    simp only [applyUntilClosed]
    split
    · exact applyAction_offers session first
    · rw [ih _ rest, applyAction_offers session first]

theorem applyAction_members (session : Session) (action : ProtocolAction) :
    (session.applyAction action).automation = session.automation ∧
      (session.applyAction action).assembler = session.assembler := by
  unfold applyAction
  split <;> exact ⟨rfl, rfl⟩

theorem applyActions_members (session : Session) (actions : List ProtocolAction) :
    (actions.foldl applyAction session).automation = session.automation ∧
      (actions.foldl applyAction session).assembler = session.assembler := by
  induction actions generalizing session with
  | nil => exact ⟨rfl, rfl⟩
  | cons action actions ih =>
    obtain ⟨automation, assembler⟩ := session.applyAction_members action
    exact ⟨(ih _).1.trans automation, (ih _).2.trans assembler⟩

theorem applyUntilClosed_members (session : Session) (actions : List ProtocolAction) :
    (session.applyUntilClosed actions).2.automation = session.automation ∧
      (session.applyUntilClosed actions).2.assembler = session.assembler := by
  induction actions generalizing session with
  | nil => exact ⟨rfl, rfl⟩
  | cons action actions ih =>
    obtain ⟨automation, assembler⟩ := session.applyAction_members action
    simp only [applyUntilClosed]
    split
    · exact ⟨automation, assembler⟩
    · exact ⟨(ih _).1.trans automation, (ih _).2.trans assembler⟩

/-- An open session offers what the automation said to its queue, and stays open. -/
theorem enqueueChats_offers (session : Session) (isOpen : session.closed = false) (chats : List ScheduledChatMessage) :
    offers (chats.foldl enqueueChat session).trace =
        offers session.trace ++ chats.filterMap ScheduledChatMessage.offer ∧
      (chats.foldl enqueueChat session).closed = false ∧
      (chats.foldl enqueueChat session).automation = session.automation ∧
      (chats.foldl enqueueChat session).assembler = session.assembler := by
  induction chats generalizing session with
  | nil => exact ⟨(List.append_nil _).symm, isOpen, rfl, rfl⟩
  | cons chat chats ih =>
    have first : offers (session.enqueueChat chat).trace = offers session.trace ++ chat.offer.toList ∧
        (session.enqueueChat chat).closed = false ∧
        (session.enqueueChat chat).automation = session.automation ∧
        (session.enqueueChat chat).assembler = session.assembler := by
      unfold enqueueChat ScheduledChatMessage.offer
      cases made : makePrivmsg chat.channel chat.text with
      | error what => exact ⟨(List.append_nil _).symm, isOpen, rfl, rfl⟩
      | ok data =>
        have pushed := enqueue_chat session.toOutbox ⟨data, .chat, chat.channel, chat.due, session.nextSequence⟩
          isOpen rfl
        exact ⟨pushed.1, pushed.2, rfl, rfl⟩
    obtain ⟨offered, stillOpen, automation, assembler⟩ := first
    obtain ⟨offered', stillOpen', automation', assembler'⟩ := ih _ stillOpen
    refine ⟨?_, stillOpen', automation'.trans automation, assembler'.trans assembler⟩
    rw [List.foldl_cons, offered', offered, List.append_assoc]
    cases offer : chat.offer with
    | none => simp [offer]
    | some value => simp [offer]

end Session

end TwitchBot
