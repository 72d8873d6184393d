import TwitchBot.Wakeup
import TwitchBot.WireLanguage

namespace TwitchBot

open Outbox SlidingWindow

/-- Nothing that a limiter remembers is later than some time. -/
structure RateLimiter.Past (limiter : RateLimiter) (now : Time) : Prop where
  chats : ∀ sent ∈ limiter.globalChat, sent ≤ now
  joins : ∀ sent ∈ limiter.joins, sent ≤ now
  channels : ∀ channel sent, limiter.channelChat.lookup channel = some sent → sent ≤ now

namespace RateLimiter.Past

variable {limiter : RateLimiter} {now next : Time}

theorem empty (now : Time) : ({} : RateLimiter).Past now := ⟨nofun, nofun, nofun⟩

theorem later (past : limiter.Past now) (le : now ≤ next) : limiter.Past next :=
  ⟨fun sent member => (past.chats sent member).trans le, fun sent member => (past.joins sent member).trans le,
    fun channel sent found => (past.channels channel sent found).trans le⟩

theorem mem_of_prune {entries : List Time} {cutoff sent : Time} (member : sent ∈ prune entries cutoff) :
    sent ∈ entries := by
  obtain ⟨gone, split, _⟩ := prune_split entries cutoff
  rw [split]
  exact List.mem_append_right gone member

theorem nextAllowed (past : limiter.Past now) (kind : OutboundKind) (channel : Bytes) (at_ : Time) :
    (limiter.nextAllowed kind channel at_).2.Past now := by
  cases kind with
  | system => exact past
  | join => exact ⟨past.chats, fun sent member => past.joins sent (mem_of_prune member), past.channels⟩
  | chat => exact ⟨fun sent member => past.chats sent (mem_of_prune member), past.joins, past.channels⟩

theorem queried {pruned : RateLimiter} {at_ : Time} (past : limiter.Past now) (queried : Queried at_ limiter pruned) :
    pruned.Past now := by
  induction queried with
  | refl => exact past
  | query kind channel _ ih => exact ih.nextAllowed kind channel at_

theorem record (past : limiter.Past now) (kind : OutboundKind) (channel : Bytes) :
    (limiter.record kind channel now).Past now := by
  have pushed {entries : List Time} (earlier : ∀ sent ∈ entries, sent ≤ now) :
      ∀ sent ∈ entries ++ [now], sent ≤ now := by
    intro sent member
    rcases List.mem_append.mp member with old | new
    · exact earlier sent old
    · exact (List.mem_singleton.mp new).le
  cases kind with
  | system => exact past
  | join => exact ⟨past.chats, pushed past.joins, past.channels⟩
  | chat =>
    refine ⟨pushed past.chats, past.joins, fun other sent found => ?_⟩
    by_cases same : other = channel
    · subst same
      rw [RateLimiter.record, Finmap.lookup_insert] at found
      exact (Option.some.inj found).ge
    · rw [RateLimiter.record, Finmap.lookup_insert_of_ne _ same] at found
      exact past.channels other sent found

theorem nextFree_le_window {entries : List Time} (earlier : ∀ sent ∈ entries, sent ≤ now) (limit : Nat) {window : Time}
    (positive : 0 ≤ window) : nextFree limit window entries now ≤ now + window := by
  have wait : now ≤ now + window := le_add_of_nonneg_right positive
  unfold nextFree
  split
  · exact wait
  · split
    · exact wait
    · exact Int.add_le_add_right (earlier _ List.mem_cons_self) window

/-- A limiter that remembers the past alone permits everything within the longest window. -/
theorem allowedAt_le (past : limiter.Past now) (kind : OutboundKind) (channel : Bytes) :
    limiter.allowedAt kind channel now ≤ now + chatWindow := by
  have windows : (0 : Int) ≤ chatWindow ∧ (0 : Int) ≤ joinWindow ∧ joinWindow ≤ chatWindow ∧
      channelInterval ≤ chatWindow := by decide
  cases kind with
  | system => exact le_add_of_nonneg_right windows.1
  | join =>
    have within : now + joinWindow ≤ now + chatWindow := Int.add_le_add_left windows.2.2.1 now
    rw [allowedAt_join]
    refine le_trans (nextFree_le_window ?_ _ windows.2.1) within
    exact fun sent member => past.joins sent (mem_of_prune member)
  | chat =>
    rw [allowedAt_chat, channelFree_le]
    refine ⟨nextFree_le_window (fun sent member => past.chats sent (mem_of_prune member)) _ windows.1, ?_⟩
    intro sent found
    exact Int.add_le_add (past.channels channel sent found) windows.2.2.2

end RateLimiter.Past

/-- A session that has something to write and no write in progress looks at its
queue again within a window from when any of the messages is due. -/
def Punctual (now : Time) (outbox : Outbox) : Prop :=
  outbox.closed = false → outbox.outbound ≠ [] → outbox.writeInProgress = false →
    ∃ deadline, WriteTimerPending outbox deadline ∧
      ∀ message ∈ outbox.outbound, deadline ≤ max message.due now + chatWindow

theorem Punctual.later {outbox : Outbox} {now next : Time} (punctual : Punctual now outbox) (le : now ≤ next) :
    Punctual next outbox := by
  intro isOpen queue idle
  obtain ⟨deadline, pending, early⟩ := punctual isOpen queue idle
  refine ⟨deadline, pending, fun message member => (early message member).trans ?_⟩
  exact Int.add_le_add_right (max_le_max_left _ le) chatWindow

/-- What holds of an outbox with a clock that never goes back. -/
structure Prompt (outbox : Outbox) : Prop where
  monotone : MonotoneClock outbox.clock
  past : outbox.limiter.Past outbox.now
  punctual : Punctual outbox.now outbox

/-- `schedule_write` restores punctuality whatever held of the timer before. -/
theorem Prompt.scheduleWrite {outbox : Outbox} (monotone : MonotoneClock outbox.clock)
    (past : outbox.limiter.Past outbox.now) : Prompt outbox.scheduleWrite := by
  have ticks : outbox.now ≤ outbox.tick.now := monotone 0
  rcases scheduleWrite_cases outbox with ⟨same, quiet⟩ |
    ⟨_, _, selected, limiter, selects, queried, ⟨later, armed⟩ | ⟨now, started⟩⟩
  · rw [same]
    refine ⟨monotone, past, fun isOpen queue idle => ?_⟩
    rcases quiet with closed | busy | empty
    · simp [isOpen] at closed
    · simp [idle] at busy
    · exact absurd empty queue
  · rw [armed]
    refine ⟨fun n => monotone (n + 1), (past.queried queried).later ticks, fun _ _ _ =>
      ⟨selected.time, IoContext.alive_start.mpr (Or.inr rfl), fun message member => ?_⟩⟩
    refine (selects.least message member).trans (max_le ?_ ?_)
    · exact (le_max_left _ _).trans (le_add_of_nonneg_right (by decide))
    · refine (past.allowedAt_le message.kind message.channel).trans (Int.add_le_add_right ?_ chatWindow)
      exact ticks.trans (le_max_right message.due outbox.tick.now)
  · rw [started]
    refine ⟨fun n => monotone (n + 1), (past.queried queried).later ticks, fun _ _ idle => ?_⟩
    cases idle

namespace Prompt

variable {outbox : Outbox}

/-- Changes of the operations that keep the waits of the write timer alive. -/
theorem of_io (prompt : Prompt outbox) (io : IoContext Operation Outcome)
    (alive : ∀ deadline, WriteTimerPending outbox deadline → io.Alive Outcome.IsSuccess (.writeWait deadline)) :
    Prompt { outbox with io := io } := by
  refine ⟨prompt.monotone, prompt.past, fun isOpen queue idle => ?_⟩
  obtain ⟨deadline, pending, early⟩ := prompt.punctual isOpen queue idle
  exact ⟨deadline, alive deadline pending, early⟩

theorem emit (prompt : Prompt outbox) (effect : Effect) : Prompt (outbox.emit effect) :=
  ⟨prompt.monotone, prompt.past, prompt.punctual⟩

theorem finish (prompt : Prompt outbox) (reason : SessionEndReason) (message : Bytes) :
    Prompt (outbox.finish reason message) := by
  unfold Outbox.finish
  split
  · exact prompt
  · exact ⟨prompt.monotone, prompt.past, nofun⟩

theorem enqueue (prompt : Prompt outbox) (message : OutboundMessage) : Prompt (outbox.enqueue message) := by
  rcases enqueue_cases outbox message with ⟨_, same⟩ | ⟨_, _, _, dropped⟩ | ⟨_, _, _, ended⟩ |
    ⟨_, _, accepted⟩
  · rwa [same]
  · rw [dropped]
    exact prompt.emit _
  · rw [ended]
    exact prompt.finish _ _
  · rw [accepted]
    exact scheduleWrite prompt.monotone prompt.past

theorem onWritten (prompt : Prompt outbox) : Prompt outbox.onWritten := by
  unfold Outbox.onWritten
  split
  · exact prompt.emit _
  · exact scheduleWrite (fun n => prompt.monotone (n + 1))
      ((prompt.past.record _ _).later (prompt.monotone 0))

/-- Every move keeps the guarantee. -/
theorem move {next : Outbox} (move : Move outbox next) (prompt : Prompt outbox) : Prompt next := by
  cases move with
  | tick =>
    exact ⟨fun n => prompt.monotone (n + 1), prompt.past.later (prompt.monotone 0),
      prompt.punctual.later (prompt.monotone 0)⟩
  | enqueue message => exact prompt.enqueue message
  | finish reason message => exact prompt.finish reason message
  | launch operation aside =>
    exact (prompt.of_io (outbox.io.start operation)
      (fun deadline pending => IoContext.alive_start.mpr (Or.inl pending))).emit (.started operation)
  | cancel selected aside =>
    exact prompt.of_io _ (fun deadline pending => IoContext.alive_cancel_of_not_selected (aside _ rfl) pending)
  | emit effect aside => exact prompt.emit effect
  | complete index operation outcome found possible =>
    refine prompt.of_io _ (fun deadline pending => IoContext.alive_complete ?_ pending)
    intro other found' same
    cases Option.some.inj (found.symm.trans found')
    subst same
    cases outcome with
    | success data => exact ⟨data, rfl⟩
    | failure what => cases possible
  | pass io index operation outcome taken aside =>
    refine prompt.of_io _ (fun deadline pending => IoContext.alive_take taken (Or.inr ?_) pending)
    rintro rfl
    cases aside
  | timer io index deadline outcome taken =>
    cases outcome with
    | failure what =>
      refine prompt.of_io _ (fun other pending => IoContext.alive_take taken (Or.inl ?_) pending)
      rintro ⟨data, same⟩
      cases same
    | success data => exact @scheduleWrite { outbox with io := io } prompt.monotone prompt.past
  | write io index data outcome taken =>
    have passed : Prompt { outbox with io := io } :=
      prompt.of_io _ (fun deadline pending => IoContext.alive_take taken (Or.inr (by simp)) pending)
    cases outcome with
    | failure what => exact passed.finish _ _
    | success _ => exact passed.onWritten

end Prompt

namespace Client

/-- Every session of the client is punctual, and the clock and the limiter that
they share are as they should be. -/
structure Prompt (client : Client) : Prop where
  monotone : MonotoneClock client.clock
  past : client.limiter.Past client.now
  punctual : ∀ session ∈ client.sessions, Punctual client.now session.toOutbox

variable {client : Client}

theorem Prompt.of_same {next : Client} (prompt : client.Prompt) (sessions : next.sessions = client.sessions)
    (limiter : next.limiter = client.limiter) (elapsed : Elapsed client.clock next.clock) : next.Prompt := by
  have le : client.now ≤ next.now := prompt.monotone.le elapsed
  refine ⟨prompt.monotone.elapsed elapsed, limiter ▸ prompt.past.later le, fun session member => ?_⟩
  rw [sessions] at member
  exact (prompt.punctual session member).later le

theorem Prompt.runSession (prompt : client.Prompt) (index : Nat) {act : Session → Session}
    (moves : ∀ session, Moves session.toOutbox (act session).toOutbox) : (client.runSession index act).Prompt := by
  cases found : client.sessions[index]? with
  | none =>
    rw [Client.runSession, found]
    exact prompt
  | some session =>
    have plugged : TwitchBot.Prompt (client.plugged session).toOutbox :=
      ⟨prompt.monotone, prompt.past, prompt.punctual session (List.mem_of_getElem? found)⟩
    have moved := (moves (client.plugged session)).keeps (fun _ _ => TwitchBot.Prompt.move) plugged
    have le : client.now ≤ (act (client.plugged session)).now :=
      prompt.monotone.le (moves (client.plugged session)).elapsed
    have acted : Prompt (client.acted index (act (client.plugged session))
        ((act (client.plugged session)).trace.drop session.trace.length)) := by
      refine ⟨moved.monotone, moved.past, fun other member => ?_⟩
      rcases List.mem_or_eq_of_mem_set member with earlier | rfl
      · exact (prompt.punctual other earlier).later le
      · exact moved.punctual
    have undisturbed := reacts_undisturbed
      (client.acted index (act (client.plugged session))
        ((act (client.plugged session)).trace.drop session.trace.length))
      ((act (client.plugged session)).trace.drop session.trace.length)
    rw [Client.runSession, found]
    exact acted.of_same undisturbed.sessions undisturbed.limiter undisturbed.clock

theorem prompt_kept : KeptByEvents Prompt where
  turn _ _ _ _ prompt := prompt.of_same rfl rfl (.refl _)
  act _ index event prompt := prompt.runSession index (fun session => session.step_moves event)
  create client prompt := by
    refine ⟨prompt.monotone, prompt.past, fun session member => ?_⟩
    rcases List.mem_append.mp member with earlier | last
    · exact prompt.punctual session earlier
    · rw [List.mem_singleton.mp last]
      exact fun _ queue => absurd rfl queue
  start _ index prompt := prompt.runSession index (fun session => (session.launch_acts rfl).moves)

end Client

/-- No wait is longer than the longest window of the limiter: whatever the
sessions before it have sent, an open session with queued messages and no write
in progress has a pending wait that ends at most 30 seconds after any of these
messages is due, or after now if it is due already. -/
theorem waits_bounded (config : RuntimeConfig) (sniConfigured : Bool) {clock : Nat → Time}
    (monotone : MonotoneClock clock) (random : Nat → Fin 501) (events : List ClientEvent) :
    let client := (Client.start { config, sniConfigured, clock, random }).after events
    ∀ session ∈ client.sessions, session.closed = false → session.outbound ≠ [] → session.writeInProgress = false →
      ∃ deadline, WriteTimerPending session.toOutbox deadline ∧
        ∀ message ∈ session.outbound, deadline ≤ max message.due client.now + seconds 30 := by
  intro client
  have start : Client.Prompt (Client.start { config, sniConfigured, clock, random }) := by
    refine ⟨fun n => monotone (n + 1), .empty _, ?_⟩
    rintro session ⟨⟩
  exact (Client.prompt_kept.after start events).punctual

/-- A clock that stands still for 22 readings and then goes on to three seconds. -/
def lateClock (n : Nat) : Time := if n < 22 then 0 else seconds 3

theorem lateClock_monotone : MonotoneClock lateClock := by
  intro n
  unfold lateClock
  split
  · split
    · exact le_rfl
    · decide
  · rename_i late
    rw [if_neg (by omega)]

/-- The first session of a client logs in, hears two messages that the rule
answers, and writes the first answer when its timer expires. -/
def limitedClient : Client :=
  (chattyClient lateClock).after (firstEvents (loginEvents ++ loginWrites ++
    [.complete 0 (.success questionLine), .deliver 0, .complete 1 (.success questionLine), .deliver 0, .deliver 0,
      .complete 0 (.success []), .deliver 0, .complete 1 (.success []), .deliver 0]))

/-- The second answer is due, and waits for the limit of one message a second to its channel. -/
theorem waits_bounded_limited :
    ∃ session, limitedClient.sessions[0]? = some session ∧ session.outbound.map (·.due) = [seconds 2] ∧
      session.now = seconds 3 ∧ ∃ deadline, WriteTimerPending session.toOutbox deadline ∧
        ∀ message ∈ session.outbound, deadline ≤ max message.due limitedClient.now + seconds 30 := by
  have waits : limitedClient.sessions[0]?.any (fun session => !session.closed && !session.writeInProgress &&
      session.outbound.map (·.due) = [seconds 2] && session.now = seconds 3) := by
    decide +kernel
  cases found : limitedClient.sessions[0]? with
  | none => simp [found] at waits
  | some session =>
    rw [found] at waits
    obtain ⟨⟨⟨isOpen, idle⟩, queue⟩, now⟩ : ((session.closed = false ∧ session.writeInProgress = false) ∧
        session.outbound.map (·.due) = [seconds 2]) ∧ session.now = seconds 3 := by simpa using waits
    have nonempty : session.outbound ≠ [] := by
      intro empty
      rw [empty] at queue
      cases queue
    exact ⟨session, rfl, queue, now, waits_bounded chattyConfig true lateClock_monotone (fun _ => Fin.last 500) _
      session (List.mem_of_getElem? found) isOpen nonempty idle⟩

end TwitchBot
