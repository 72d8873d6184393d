import TwitchBot.Library.IoRelabelling
import TwitchBot.Session

/-!
The queue does not look at the lines it carries: after a change of their bytes
it does the same with the changed lines.
-/

namespace TwitchBot

variable (rename : Bytes → Bytes)

def OutboundMessage.relabel (message : OutboundMessage) : OutboundMessage :=
  { message with wireData := rename message.wireData }

def Operation.relabel : Operation → Operation
  | .write data => .write (rename data)
  | operation => operation

def Effect.relabel : Effect → Effect
  | .started operation => .started (operation.relabel rename)
  | .accepted message => .accepted (message.relabel rename)
  | .dropped message queued => .dropped (message.relabel rename) queued
  | .writing message now limiter => .writing (message.relabel rename) now limiter
  | .wrote message sentAt => .wrote (message.relabel rename) sentAt
  | effect => effect

def Outbox.relabel (outbox : Outbox) : Outbox :=
  { outbox with
    outbound := outbox.outbound.map (OutboundMessage.relabel rename)
    currentWrite := outbox.currentWrite.map (OutboundMessage.relabel rename)
    io := outbox.io.relabel (Operation.relabel rename)
    trace := outbox.trace.map (Effect.relabel rename) }

def Selection.relabel (selected : Selection) : Selection :=
  { selected with message := selected.message.relabel rename }

@[simp] theorem Operation.relabel_isWriteWait (operation : Operation) :
    (operation.relabel rename).isWriteWait = operation.isWriteWait := by
  cases operation <;> rfl

@[simp] theorem Operation.relabel_isAuthWait (operation : Operation) :
    (operation.relabel rename).isAuthWait = operation.isAuthWait := by
  cases operation <;> rfl

@[simp] theorem Operation.relabel_completesWith (operation : Operation) (now : Time) (outcome : Outcome) :
    (operation.relabel rename).completesWith now outcome = operation.completesWith now outcome := by
  cases operation <;> rfl

namespace Outbox

variable (outbox : Outbox)

@[simp] theorem relabel_emit (effect : Effect) :
    (outbox.emit effect).relabel rename = (outbox.relabel rename).emit (effect.relabel rename) := by
  simp [relabel, emit]

@[simp] theorem relabel_launch (operation : Operation) :
    (outbox.launch operation).relabel rename = (outbox.relabel rename).launch (operation.relabel rename) := by
  simp [relabel, launch, Effect.relabel]

theorem relabel_cancel {selected : Operation → Bool}
    (same : ∀ operation : Operation, selected (operation.relabel rename) = selected operation) :
    (outbox.cancel selected).relabel rename = (outbox.relabel rename).cancel selected := by
  simp [relabel, cancel, IoContext.relabel_cancel _ _ same]

@[simp] theorem relabel_finish (reason : SessionEndReason) (message : Bytes) :
    (outbox.finish reason message).relabel rename = (outbox.relabel rename).finish reason message := by
  unfold finish
  split
  · rename_i closed
    rw [if_pos (show (outbox.relabel rename).closed = true from closed)]
  · rename_i isOpen
    rw [if_neg (show ¬(outbox.relabel rename).closed = true from isOpen), relabel_emit,
      relabel_cancel rename _ (fun _ => rfl)]
    rfl

theorem isBeaten_relabel (selected : Selection) (message : OutboundMessage) (allowed : Time) :
    (selected.relabel rename).isBeaten (message.relabel rename) allowed = selected.isBeaten message allowed := rfl

theorem writeTime_relabel (limiter : RateLimiter) (message : OutboundMessage) (now : Time) :
    writeTime limiter (message.relabel rename) now = writeTime limiter message now := rfl

theorem selectLoop_relabel (now : Time) (limiter : RateLimiter) (selected : Selection) (index : Nat)
    (rest : List OutboundMessage) :
    selectLoop now limiter (selected.relabel rename) index (rest.map (OutboundMessage.relabel rename)) =
      ((selectLoop now limiter selected index rest).1.relabel rename,
        (selectLoop now limiter selected index rest).2) := by
  induction rest generalizing limiter selected index with
  | nil => rfl
  | cons message rest ih =>
    simp only [List.map_cons, selectLoop, writeTime_relabel, isBeaten_relabel, ← ih,
      apply_ite (Selection.relabel rename)]
    rfl

theorem select_relabel (limiter : RateLimiter) (first : OutboundMessage) (rest : List OutboundMessage) (now : Time) :
    select limiter (first.relabel rename) (rest.map (OutboundMessage.relabel rename)) now =
      ((select limiter first rest now).1.relabel rename, (select limiter first rest now).2) :=
  selectLoop_relabel rename now _ ⟨0, first, (writeTime limiter first now).1⟩ 1 rest

theorem scheduleWrite_empty {outbox : Outbox} (queue : outbox.outbound = []) : outbox.scheduleWrite = outbox := by
  rw [scheduleWrite, queue]
  split <;> rfl

/-- What `schedule_write` does with a queue, as one equation. -/
theorem scheduleWrite_idle {outbox : Outbox} (idle : (outbox.closed || outbox.writeInProgress) = false)
    {first : OutboundMessage} {rest : List OutboundMessage} (queue : outbox.outbound = first :: rest) :
    outbox.scheduleWrite =
      let selected := select outbox.limiter first rest outbox.now
      if selected.1.time > outbox.now then { outbox.tick with limiter := selected.2 }.armWriteTimer selected.1.time
      else { outbox.tick with limiter := selected.2 }.startWrite selected.1 outbox.now := by
  rw [scheduleWrite, if_neg (by simp [idle]), queue]

theorem relabel_armWriteTimer (deadline : Time) :
    (outbox.armWriteTimer deadline).relabel rename = (outbox.relabel rename).armWriteTimer deadline := by
  rw [armWriteTimer, relabel_launch,
    relabel_cancel rename outbox (fun operation => operation.relabel_isWriteWait rename)]
  rfl

theorem relabel_startWrite (selected : Selection) (now : Time) :
    (outbox.startWrite selected now).relabel rename =
      (outbox.relabel rename).startWrite (selected.relabel rename) now := by
  rw [startWrite, relabel_launch, relabel_emit]
  simp only [startWrite, relabel, List.eraseIdx_map]
  rfl

@[simp] theorem relabel_scheduleWrite :
    outbox.scheduleWrite.relabel rename = (outbox.relabel rename).scheduleWrite := by
  cases idle : outbox.closed || outbox.writeInProgress with
  | true =>
    rw [scheduleWrite, if_pos idle, scheduleWrite]
    exact (if_pos idle).symm
  | false =>
    cases queue : outbox.outbound with
    | nil =>
      have empty : (outbox.relabel rename).outbound = [] := by rw [relabel, queue, List.map_nil]
      rw [scheduleWrite_empty queue, scheduleWrite_empty empty]
    | cons first rest =>
      have queued : (outbox.relabel rename).outbound =
          first.relabel rename :: rest.map (OutboundMessage.relabel rename) := by
        rw [relabel, queue, List.map_cons]
      have stillIdle : ((outbox.relabel rename).closed || (outbox.relabel rename).writeInProgress) = false := idle
      rw [scheduleWrite_idle idle queue, scheduleWrite_idle stillIdle queued]
      dsimp only
      rw [show (outbox.relabel rename).limiter = outbox.limiter from rfl,
        show (outbox.relabel rename).now = outbox.now from rfl, select_relabel]
      split
      · rename_i later
        exact (relabel_armWriteTimer rename _ _).trans (if_pos later).symm
      · rename_i now
        exact (relabel_startWrite rename _ _ _).trans (if_neg now).symm

@[simp] theorem relabel_enqueue (message : OutboundMessage) :
    (outbox.enqueue message).relabel rename = (outbox.relabel rename).enqueue (message.relabel rename) := by
  have length : (outbox.relabel rename).outbound.length = outbox.outbound.length := List.length_map _
  unfold enqueue
  rw [show (outbox.relabel rename).closed = outbox.closed from rfl, length,
    show (message.relabel rename).kind = message.kind from rfl]
  split
  · rfl
  · split
    · split
      · rw [relabel_emit]
        rfl
      · exact relabel_finish rename outbox _ _
    · rw [relabel_scheduleWrite, relabel_emit]
      simp only [relabel, List.map_append]
      rfl

@[simp] theorem relabel_onWritten : outbox.onWritten.relabel rename = (outbox.relabel rename).onWritten := by
  cases current : outbox.currentWrite with
  | none =>
    have noMessage : (outbox.relabel rename).currentWrite = none := by rw [relabel, current, Option.map_none]
    rw [onWritten, current, onWritten, noMessage]
    exact relabel_emit rename outbox .undefinedBehaviour
  | some message =>
    have writing : (outbox.relabel rename).currentWrite = some (message.relabel rename) := by
      rw [relabel, current, Option.map_some]
    rw [onWritten, current, onWritten, writing]
    dsimp only
    rw [relabel_scheduleWrite, relabel_emit]
    rfl

@[simp] theorem relabel_onWrite (outcome : Outcome) :
    (outbox.onWrite outcome).relabel rename = (outbox.relabel rename).onWrite outcome := by
  cases outcome with
  | failure what => exact relabel_finish rename outbox _ _
  | success data => exact relabel_onWritten rename outbox

@[simp] theorem relabel_onWriteTimer (outcome : Outcome) :
    (outbox.onWriteTimer outcome).relabel rename = (outbox.relabel rename).onWriteTimer outcome := by
  cases outcome with
  | failure what => rfl
  | success data => exact relabel_scheduleWrite rename outbox

end Outbox

end TwitchBot
