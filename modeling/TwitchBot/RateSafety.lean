import TwitchBot.ClientRuns
import TwitchBot.ConfigValid

namespace TwitchBot

open Outbox

/-- All successful writes of a client, in the order of their completion. -/
def Client.history (client : Client) : History := sentWrites (client.trace.map Prod.snd)

/-- Once a session has started a write, no older session has one in flight. -/
def Client.Handover (client : Client) : Prop :=
  ∀ (older newer : Nat) (old new : Session), older < newer → client.sessions[older]? = some old →
    client.sessions[newer]? = some new → StartsWrite new.trace → ¬WriteInFlight old.toOutbox

/-- What holds of a client between handlers. -/
structure Sound (client : Client) : Prop where
  monotone : ∀ n, client.clock n ≤ client.clock (n + 1)
  limits : Limits client.history client.limiter client.now
  accounted : ∀ session ∈ client.sessions, Accounted session.toOutbox
  permit : ∀ session ∈ client.sessions, WriteInFlight session.toOutbox →
    ∀ message, session.currentWrite = some message → Permitted client.limiter message client.now
  last_open : ∀ (index : Nat) (session : Session), client.sessions[index]? = some session →
    session.closed = false → index + 1 = client.sessions.length
  timer_open : ∀ session ∈ client.sessions, session.closed = false → client.pendingConnections = 0
  timer_single : client.pendingConnections ≤ 1

/-- A write in flight was started. -/
theorem Accounted.started {outbox : Outbox} (accounted : Accounted outbox) (inFlight : WriteInFlight outbox) :
    StartsWrite outbox.trace := by
  have busy : outbox.writeInProgress = true := by
    by_contra idle
    exact accounted.idle (by simpa using idle) inFlight
  obtain ⟨message, current⟩ := accounted.current_of_busy busy
  have member : message.wireData ∈ startedWrites outbox.trace := by
    rw [accounted.handed, current]
    simp
  obtain ⟨effect, inTrace, isWrite⟩ := List.mem_filterMap.mp member
  refine ⟨effect, inTrace, ?_⟩
  unfold Effect.writeData at isWrite
  split at isWrite
  · rfl
  · cases isWrite

theorem clock_shift {clock : Nat → Time} (monotone : ∀ n, clock n ≤ clock (n + 1)) (readings : Nat) :
    clock 0 ≤ clock readings := by
  induction readings with
  | zero => exact le_rfl
  | succ n ih => exact ih.trans (monotone n)

namespace Sound

variable {client : Client}

/-- The client's own handlers keep the invariant if they respect the timer. -/
theorem undisturbed (sound : Sound client) {next : Client} (undisturbed : client.Undisturbed next)
    (timer_open : ∀ session ∈ client.sessions, session.closed = false → next.pendingConnections = 0)
    (timer_single : next.pendingConnections ≤ 1) : Sound next := by
  obtain ⟨sessions, limiter, trace, readings, clock⟩ := undisturbed
  have le : client.now ≤ next.now := by
    rw [Client.now, Client.now, clock, Nat.zero_add]
    exact clock_shift sound.monotone readings
  refine ⟨fun n => ?_, ?_, ?_, ?_, ?_, ?_, timer_single⟩
  · rw [clock, clock, Nat.add_right_comm]
    exact sound.monotone (n + readings)
  · rw [Client.history, trace, limiter]
    exact sound.limits.later le
  · rw [sessions]
    exact sound.accounted
  · rw [sessions, limiter]
    exact fun session member inFlight message current =>
      (sound.permit session member inFlight message current).later le
  · rw [sessions]
    exact sound.last_open
  · rw [sessions]
    exact timer_open

/-- A change of the reconnect timer that adds no connection. -/
theorem timer (sound : Sound client) {next : Client} (undisturbed : client.Undisturbed next)
    (fewer : next.pendingConnections ≤ client.pendingConnections) : Sound next :=
  sound.undisturbed undisturbed
    (fun session member isOpen => Nat.le_zero.mp (fewer.trans (sound.timer_open session member isOpen).le))
    (fewer.trans sound.timer_single)

end Sound

/-- A message that a session other than the one at a place has in flight. -/
def InFlightElsewhere (client : Client) (index : Nat) (message : OutboundMessage) : Prop :=
  ∃ other session, other ≠ index ∧ client.sessions[other]? = some session ∧
    WriteInFlight session.toOutbox ∧ session.currentWrite = some message

/-- With the handover respected, two sessions never have writes in flight. -/
theorem Client.Handover.alone {client : Client} (handover : client.Handover) (sound : Sound client)
    {index other : Nat} {session second : Session} (distinct : other ≠ index)
    (found : client.sessions[index]? = some session) (foundOther : client.sessions[other]? = some second)
    (inFlight : WriteInFlight second.toOutbox) : ¬WriteInFlight session.toOutbox := by
  intro both
  have started {place : Nat} {flying : Session} (at_place : client.sessions[place]? = some flying)
      (flies : WriteInFlight flying.toOutbox) : StartsWrite flying.trace :=
    (sound.accounted flying (List.mem_of_getElem? at_place)).started flies
  rcases Nat.lt_or_gt_of_ne distinct with older | newer
  · exact handover other index second session older foundOther found (started found both) inFlight
  · exact handover index other session second newer found foundOther (started foundOther inFlight) both

/-- The session at a place as it begins an event: with the client's limiter and clock. -/
def Client.plugged (client : Client) (session : Session) : Session :=
  { session with limiter := client.limiter, clock := client.clock }

theorem Sound.paced_start {client : Client} (sound : Sound client) (handover : client.Handover) {index : Nat}
    {session : Session} (found : client.sessions[index]? = some session) :
    Accounted (client.plugged session).toOutbox ∧
      Paced client.history (InFlightElsewhere client index) (client.plugged session).toOutbox []
        (client.plugged session).toOutbox := by
  have member := List.mem_of_getElem? found
  refine ⟨(sound.accounted session member).aside client.limiter client.clock session.closed, ?_⟩
  refine ⟨(List.append_nil _).symm, sound.monotone, ?_, sound.permit session member, ?_, ?_, ?_⟩
  · have none : client.history ++ sentWrites [] = client.history := List.append_nil _
    rw [none]
    exact sound.limits
  · rintro _ message ⟨other, second, distinct, foundOther, inFlight, current⟩
    have grounded : ¬WriteInFlight session.toOutbox := handover.alone sound distinct found foundOther inFlight
    exact ⟨grounded,
      sound.permit second (List.mem_of_getElem? foundOther) inFlight message current⟩
  · exact fun closed => ⟨closed, by simp [StartsWrite], by simp [EndsSession]⟩
  · rintro ⟨effect, none, _⟩
    cases none

/-- The client right after a session acted, before its own handlers ran. -/
def Client.acted (client : Client) (index : Nat) (next : Session) (effects : List Effect) : Client :=
  { client with
    sessions := client.sessions.set index next
    limiter := next.limiter
    clock := next.clock
    trace := client.trace ++ effects.map (fun effect => (index, effect)) }

theorem Client.acted_self {client : Client} {index : Nat} {session : Session}
    (found : client.sessions[index]? = some session) (next : Session) (effects : List Effect) :
    (client.acted index next effects).sessions[index]? = some next := by
  obtain ⟨bound, _⟩ := List.getElem?_eq_some_iff.mp found
  exact List.getElem?_set_self bound

theorem Client.acted_other {client : Client} {index other : Nat} (distinct : other ≠ index) (next : Session)
    (effects : List Effect) : (client.acted index next effects).sessions[other]? = client.sessions[other]? :=
  List.getElem?_set_ne distinct.symm

/-- Behind an act there are the session that acted and the others as they were. -/
theorem Client.acted_cases {client : Client} {index other : Nat} {session next second : Session}
    (found : client.sessions[index]? = some session)
    (atOther : (client.sessions.set index next)[other]? = some second) :
    (other = index ∧ second = next) ∨ (other ≠ index ∧ client.sessions[other]? = some second) := by
  by_cases same : other = index
  · subst same
    obtain ⟨bound, _⟩ := List.getElem?_eq_some_iff.mp found
    rw [List.getElem?_set_self bound] at atOther
    exact Or.inl ⟨rfl, (Option.some.inj atOther).symm⟩
  · rw [List.getElem?_set_ne (Ne.symm same)] at atOther
    exact Or.inr ⟨same, atOther⟩

/-- A session acts: its effects are what it adds to its trace. -/
theorem Client.runSession_eq {client : Client} {index : Nat} {session : Session} {act : Session → Session}
    {effects : List Effect} (found : client.sessions[index]? = some session)
    (trace : (act (client.plugged session)).trace = session.trace ++ effects) :
    client.runSession index act =
      effects.foldl Client.react (client.acted index (act (client.plugged session)) effects) := by
  have new : (act (client.plugged session)).trace.drop session.trace.length = effects := by
    rw [trace]
    exact List.drop_left
  rw [Client.runSession, found, ← new]
  rfl

/-- What the acting session leaves, for the client and the other sessions. -/
theorem Sound.acted {client : Client} (sound : Sound client) {index : Nat} {session next : Session}
    {effects : List Effect} (found : client.sessions[index]? = some session)
    (accounted : Accounted next.toOutbox)
    (paced : Paced client.history (InFlightElsewhere client index) (client.plugged session).toOutbox effects
      next.toOutbox)
    (respected : (client.acted index next effects).Handover) : Sound (client.acted index next effects) := by
  have foundNext := Client.acted_self found next effects
  have wasOpen (isOpen : next.closed = false) : session.closed = false := paced.start_open (Or.inl isOpen)
  refine ⟨paced.monotone, ?_, ?_, ?_, ?_, ?_, sound.timer_single⟩
  · have history : (client.acted index next effects).history = client.history ++ sentWrites effects := by
      simp [Client.history, Client.acted, sentWrites_append, Function.comp_def]
    rw [history]
    exact paced.limits
  · intro other member
    rcases List.mem_or_eq_of_mem_set member with old | rfl
    · exact sound.accounted other old
    · exact accounted
  · intro second member inFlight message current
    obtain ⟨other, at_other⟩ := List.getElem?_of_mem member
    rcases Client.acted_cases found at_other with ⟨rfl, rfl⟩ | ⟨distinct, before⟩
    · exact paced.permit inFlight message current
    · refine (paced.foreign ?_ message ⟨other, second, distinct, before, inFlight, current⟩).2
      -- Only the newest session is open, so a write it starts would break the handover.
      intro starts
      have sessionOpen : session.closed = false := paced.start_open (Or.inr (Or.inl starts))
      have atEnd := sound.last_open index session found sessionOpen
      obtain ⟨inside, _⟩ := List.getElem?_eq_some_iff.mp before
      obtain ⟨effect, isNew, isWriting⟩ := starts
      refine respected other index second next (by omega) at_other foundNext ⟨effect, ?_, isWriting⟩ inFlight
      rw [paced.trace]
      exact List.mem_append_right _ isNew
  · intro other second at_other isOpen
    rw [Client.acted, List.length_set]
    rcases Client.acted_cases found at_other with ⟨rfl, rfl⟩ | ⟨_, before⟩
    · exact sound.last_open other session found (wasOpen isOpen)
    · exact sound.last_open other second before isOpen
  · intro second member isOpen
    rcases List.mem_or_eq_of_mem_set member with old | rfl
    · exact sound.timer_open second old isOpen
    · exact sound.timer_open session (List.mem_of_getElem? found) (wasOpen isOpen)

/-- After a session has ended in an event, no session is open. -/
theorem Sound.none_open {client : Client} (sound : Sound client) {index : Nat} {session next : Session}
    {effects : List Effect} (found : client.sessions[index]? = some session)
    (paced : Paced client.history (InFlightElsewhere client index) (client.plugged session).toOutbox effects
      next.toOutbox) (ends : EndsSession effects) :
    session.closed = false ∧ ∀ second ∈ (client.acted index next effects).sessions, second.closed = true := by
  have sessionOpen : session.closed = false := paced.start_open (Or.inr (Or.inr ends))
  refine ⟨sessionOpen, fun second member => ?_⟩
  obtain ⟨other, at_other⟩ := List.getElem?_of_mem member
  rcases Client.acted_cases found at_other with ⟨rfl, rfl⟩ | ⟨distinct, before⟩
  · exact paced.ended ends
  · by_contra isOpen
    have second_end := sound.last_open other second before (by simpa using isOpen)
    have session_end := sound.last_open index session found sessionOpen
    omega

/-- A client stays sound when one of its sessions acts. -/
theorem Sound.runSession {client : Client} (sound : Sound client) (handover : client.Handover) {index : Nat}
    {act : Session → Session} (moves : ∀ session, Moves session.toOutbox (act session).toOutbox)
    (respected : (client.runSession index act).Handover) : Sound (client.runSession index act) := by
  cases found : client.sessions[index]? with
  | none =>
    rw [Client.runSession, found]
    exact sound
  | some session =>
    obtain ⟨accounted, paced⟩ := sound.paced_start handover found
    obtain ⟨accounted, effects, paced⟩ := paced.moves (moves (client.plugged session)) accounted
    have run := Client.runSession_eq found paced.trace
    have undisturbed := Client.reacts_undisturbed
      (client.acted index (act (client.plugged session)) effects) effects
    rw [← run] at undisturbed
    have acted := sound.acted found accounted paced (by
      intro older newer old new order foundOld foundNew
      rw [← undisturbed.sessions] at foundOld foundNew
      exact respected older newer old new order foundOld foundNew)
    by_cases ends : EndsSession effects
    · obtain ⟨sessionOpen, closed⟩ := sound.none_open found paced ends
      refine acted.undisturbed undisturbed (fun second member isOpen => ?_) ?_
      · rw [closed second member] at isOpen
        cases isOpen
      · rw [run]
        exact Client.reacts_pending (client.acted index _ effects)
          (sound.timer_open session (List.mem_of_getElem? found) sessionOpen) effects
    · refine acted.timer undisturbed (le_of_eq ?_)
      rw [run, Client.pendingConnections, Client.pendingConnections, Client.reacts_timer ends]

theorem Client.Handover.of_sessions {client next : Client} (handover : client.Handover)
    (same : next.sessions = client.sessions) : next.Handover := by
  intro older newer old new order foundOld foundNew
  rw [same] at foundOld foundNew
  exact handover older newer old new order foundOld foundNew

/-- A new session has done nothing yet. -/
theorem Client.Handover.concat {client : Client} (handover : client.Handover) {fresh : Session}
    (empty : fresh.trace = []) {index : Option Nat} :
    Client.Handover { client with sessions := client.sessions ++ [fresh], session := index } := by
  refine newer_concat handover (fun old starts => ?_)
  obtain ⟨effect, member, _⟩ := starts
  rw [empty] at member
  cases member

/-- A new session is created when none is open and no other is on its way. -/
theorem Sound.connect {client : Client} (sound : Sound client) (handover : client.Handover)
    (closed : ∀ session ∈ client.sessions, session.closed = true) (none : client.pendingConnections = 0)
    (respected : client.connect.Handover) : Sound client.connect := by
  have created : Sound { client with
      sessions := client.sessions ++
        [Session.new client.config client.limiter client.clock client.sniConfigured]
      session := some client.sessions.length } := by
    refine ⟨sound.monotone, sound.limits, ?_, ?_, ?_, fun _ _ _ => none, sound.timer_single⟩
    · intro session member
      rcases List.mem_append.mp member with old | new
      · exact sound.accounted session old
      · rw [List.mem_singleton.mp new]
        exact accounted_new _ _ _ _
    · intro session member inFlight
      rcases List.mem_append.mp member with old | new
      · exact sound.permit session old inFlight
      · rw [List.mem_singleton.mp new] at inFlight
        exact absurd inFlight ((accounted_new _ _ _ _).idle rfl)
    · intro index session found isOpen
      rw [List.length_append, List.length_singleton]
      rcases Nat.lt_or_ge index client.sessions.length with inside | outside
      · rw [List.getElem?_append_left inside] at found
        rw [closed session (List.mem_of_getElem? found)] at isOpen
        cases isOpen
      · obtain ⟨bound, _⟩ := List.getElem?_eq_some_iff.mp found
        rw [List.length_append, List.length_singleton] at bound
        omega
  exact created.runSession (handover.concat rfl) (fun session => (Session.launch_acts session rfl).moves) respected

theorem Sound.timerHandler {client : Client} (sound : Sound client) (handover : client.Handover) (index : Nat)
    (respected : (client.timerHandler index).Handover) : Sound (client.timerHandler index) := by
  have taking {timer : IoContext Time Outcome} (fewer : timer.live Outcome.IsSuccess ≤ client.pendingConnections) :
      Sound { client with reconnectTimer := timer } := sound.timer ⟨rfl, rfl, rfl, 0, fun _ => rfl⟩ fewer
  rcases client.timerHandler_cases index with same | ⟨timer, ⟨taken, fewer, _⟩ | ⟨connected, _, pending⟩⟩
  · rwa [same]
  · rw [taken]
    exact taking fewer
  · have single := sound.timer_single
    rw [pending] at single
    rw [connected] at respected ⊢
    refine (taking (by omega)).connect (handover.of_sessions rfl) ?_ (Nat.le_zero.mp (Nat.succ_le_succ_iff.mp single))
      respected
    intro session member
    by_contra isOpen
    have noPending := sound.timer_open session member (by simpa using isOpen)
    rw [pending] at noPending
    cases noPending

theorem Sound.stop {client : Client} (sound : Sound client) (handover : client.Handover)
    (respected : client.stop.Handover) : Sound client.stop := by
  have undisturbed : client.Undisturbed (Client.cancelTimer { client with stopping := true }) :=
    ⟨rfl, rfl, rfl, 0, fun _ => rfl⟩
  have halted := sound.timer undisturbed (IoContext.live_cancel_le Client.aborted_not_success)
  rcases client.stop_cases with ⟨_, same⟩ | ⟨_, ⟨_, idle⟩ | ⟨index, _, stopped⟩⟩
  · rwa [same]
  · rwa [idle]
  · rw [stopped] at respected ⊢
    have moves (session : Session) : Moves session.toOutbox session.stop.toOutbox :=
      (Session.finish_acts session _ _).moves
    have ran := halted.runSession (handover.of_sessions rfl) moves (respected.of_sessions rfl)
    exact ran.timer ⟨rfl, rfl, rfl, 0, fun _ => rfl⟩ le_rfl

/-- Every event keeps a client sound while the handover is respected. -/
theorem Sound.step {client : Client} (sound : Sound client) (handover : client.Handover) (event : ClientEvent)
    (respected : (client.step event).Handover) : Sound (client.step event) := by
  unfold Client.step at respected ⊢
  split
  · exact sound
  · rename_i running
    rw [if_neg running] at respected
    cases event with
    | complete place index outcome =>
      exact sound.runSession handover (fun session => Session.complete_moves session index outcome) respected
    | deliver place index =>
      exact sound.runSession handover (fun session => Session.deliver_moves session index) respected
    | enqueue place message =>
      exact sound.runSession handover (fun session => Session.step_moves session (.enqueue message)) respected
    | timerExpires index =>
      show Sound (client.timerExpires index)
      rcases client.timerExpires_cases index with same | expired
      · rwa [same]
      · rw [expired]
        exact sound.timer ⟨rfl, rfl, rfl, 0, fun _ => rfl⟩ IoContext.live_complete_le
    | timerHandler index => exact sound.timerHandler handover index respected
    | stop => exact sound.stop handover respected

theorem sound_start (config : RuntimeConfig) (sniConfigured : Bool) (clock : Nat → Time)
    (random : Nat → Fin 501) (monotone : ∀ n, clock n ≤ clock (n + 1)) :
    Sound (Client.start { config, sniConfigured, clock, random }) := by
  refine ⟨fun n => monotone (n + 1), Limits.nil _, ?_, ?_, ?_, ?_, le_rfl⟩
  all_goals simp [Client.start, Client.scheduleConnection, Client.cancelTimer, Client.tick]

theorem Client.after_concat (client : Client) (events : List ClientEvent) (event : ClientEvent) :
    client.after (events ++ [event]) = (client.after events).step event := by
  simp [Client.after]

theorem sound_after {client : Client} (sound : Sound client) (events : List ClientEvent)
    (handover : ∀ earlier ∈ events.inits, (client.after earlier).Handover) : Sound (client.after events) := by
  induction events using List.reverseRecOn with
  | nil => exact sound
  | append_singleton events event ih =>
    have before (earlier : List ClientEvent) (member : earlier ∈ events.inits) :
        (client.after earlier).Handover :=
      handover earlier ((List.mem_inits _ _).mpr (((List.mem_inits _ _).mp member).trans (List.prefix_append _ _)))
    have respected := handover (events ++ [event]) ((List.mem_inits _ _).mpr (List.prefix_refl _))
    rw [Client.after_concat] at respected ⊢
    exact (ih before).step (before events ((List.mem_inits _ _).mpr (List.prefix_refl _))) event respected

/-- The rate limits hold over every run of a client in which a write in flight
completes before a newer session starts its first: any 21 successive chat writes
take at least 30 seconds, any two on one channel are a second apart, and any 21
successive JOIN writes take at least 10 seconds. -/
theorem rate_safety (config : RuntimeConfig) (sniConfigured : Bool) (clock : Nat → Time)
    (random : Nat → Fin 501) (monotone : ∀ n, clock n ≤ clock (n + 1)) (events : List ClientEvent)
    (handover : ∀ earlier ∈ events.inits,
      ((Client.start { config, sniConfigured, clock, random }).after earlier).Handover) :
    let history := ((Client.start { config, sniConfigured, clock, random }).after events).history
    ((kindTimes .chat history).Pairwise (· ≤ ·) ∧
        ∀ i r s, (kindTimes .chat history)[i]? = some r → (kindTimes .chat history)[i + 20]? = some s →
          r + seconds 30 ≤ s) ∧
      (∀ channel, (channelTimes channel history).Pairwise (fun r s => r + seconds 1 ≤ s)) ∧
      (kindTimes .join history).Pairwise (· ≤ ·) ∧
        ∀ i r s, (kindTimes .join history)[i]? = some r → (kindTimes .join history)[i + 20]? = some s →
          r + seconds 10 ≤ s := by
  intro history
  have limits := (sound_after (sound_start config sniConfigured clock random monotone) events handover).limits
  exact ⟨⟨limits.chat.sorted, limits.chat.spaced⟩, limits.channelApart, limits.join.sorted, limits.join.spaced⟩

/-- A session with a newer one is not the last of its client. -/
theorem Client.mem_dropLast {client : Client} {older newer : Nat} {old new : Session} (order : older < newer)
    (foundOld : client.sessions[older]? = some old) (foundNew : client.sessions[newer]? = some new) :
    old ∈ client.sessions.dropLast := by
  obtain ⟨bound, _⟩ := List.getElem?_eq_some_iff.mp foundNew
  refine List.mem_of_getElem? (i := older) ?_
  rw [List.getElem?_dropLast, if_pos (by omega)]
  exact foundOld

/-- The handover is respected when no session but the newest has a write pending. -/
theorem Client.handover_of_quiet {client : Client}
    (quiet : ∀ session ∈ client.sessions.dropLast, session.io.count Operation.isWrite = 0) : client.Handover :=
  fun _ _ old _ order foundOld foundNew _ =>
    not_inFlight_of_count (quiet old (Client.mem_dropLast order foundOld foundNew))

/-- A session writes and ends with a network error, and its replacement writes
to the same channel. -/
def replacementRun : List ClientEvent :=
  [.timerExpires 0, .timerHandler 0,
    .enqueue 0 ⟨bytes "PRIVMSG #one :one\r\n", .chat, bytes "one", 0, 0⟩,
    .complete 0 1 (.success []), .deliver 0 0, .complete 0 0 (.failure "Host not found"), .deliver 0 0,
    .timerExpires 0, .timerHandler 0,
    .enqueue 1 ⟨bytes "PRIVMSG #one :two\r\n", .chat, bytes "one", 0, 0⟩,
    .complete 1 1 (.success []), .deliver 1 0]

/-- A client whose clock advances by ten seconds with every reading. -/
def steadyClient : Client :=
  Client.start { config := validConfig, clock := fun n => n * seconds 10, random := fun _ => 0 }

/-- Only the newest session of the run ever has a write pending. -/
theorem replacementRun_quiet : ∀ earlier ∈ replacementRun.inits,
    ∀ session ∈ (steadyClient.after earlier).sessions.dropLast, session.io.count Operation.isWrite = 0 := by
  decide

theorem steadyClient_handover : ∀ earlier ∈ replacementRun.inits, (steadyClient.after earlier).Handover :=
  fun earlier member => Client.handover_of_quiet (replacementRun_quiet earlier member)

theorem rate_safety_replacement :
    (channelTimes (bytes "one") (steadyClient.after replacementRun).history).length = 2 ∧
      (channelTimes (bytes "one") (steadyClient.after replacementRun).history).Pairwise
        (fun r s => r + seconds 1 ≤ s) :=
  ⟨by decide, (rate_safety validConfig true (fun n => n * seconds 10) (fun _ => 0)
    (fun n => by simp [seconds]) replacementRun steadyClient_handover).2.1 (bytes "one")⟩

end TwitchBot
