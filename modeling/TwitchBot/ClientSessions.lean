import TwitchBot.Lifecycle

namespace TwitchBot

open Outbox

/-- No caller but the session itself enqueues a message. -/
def OwnEvents (events : List ClientEvent) : Prop := ∀ session message, .enqueue session message ∉ events

namespace Client

theorem react_settings (client : Client) (effect : Effect) :
    (client.react effect).config = client.config ∧
      (client.react effect).sniConfigured = client.sniConfigured := by
  cases effect with
  | ended reason message =>
    simp only [react, handleSessionEnd, scheduleConnection, cancelTimer, tick]
    repeat' split
    all_goals exact ⟨rfl, rfl⟩
  | _ => exact ⟨rfl, rfl⟩

theorem reacts_settings (client : Client) (effects : List Effect) :
    (effects.foldl react client).config = client.config ∧
      (effects.foldl react client).sniConfigured = client.sniConfigured := by
  induction effects generalizing client with
  | nil => exact ⟨rfl, rfl⟩
  | cons effect effects ih =>
    obtain ⟨config, sni⟩ := ih (client.react effect)
    exact ⟨config.trans (client.react_settings effect).1, sni.trans (client.react_settings effect).2⟩

theorem runSession_settings (client : Client) (index : Nat) (act : Session → Session) :
    (client.runSession index act).config = client.config ∧
      (client.runSession index act).sniConfigured = client.sniConfigured := by
  unfold runSession
  split
  · exact ⟨rfl, rfl⟩
  · exact reacts_settings _ _

/-- What the sessions of a client have become, and the clock since. -/
structure Becomes (next : Client) (sessions : List Session) (clock : Nat → Time) : Prop where
  sessions : next.sessions = sessions
  elapsed : Elapsed clock next.clock

theorem runSession_becomes (client : Client) {index : Nat} {session : Session}
    (found : client.sessions[index]? = some session) (act : Session → Session) :
    Becomes (client.runSession index act) (client.sessions.set index (act (client.plugged session)))
      (act (client.plugged session)).clock := by
  simp only [runSession, found]
  have kept := reacts_undisturbed
    { client with
      sessions := client.sessions.set index (act (client.plugged session))
      limiter := (act (client.plugged session)).limiter
      clock := (act (client.plugged session)).clock
      trace := client.trace ++ ((act (client.plugged session)).trace.drop session.trace.length).map
        (fun effect => (index, effect)) } ((act (client.plugged session)).trace.drop session.trace.length)
  exact ⟨kept.sessions, kept.clock⟩

/-- A session that is given an event, at its place. -/
def meets (client : Client) (place : Nat) (own : SessionEvent) : Option (Nat × Session × SessionEvent) :=
  client.sessions[place]?.map (fun session => (place, session, own))

/-- The session that an event reaches, and what the event is to this session. -/
def reaches (client : Client) (event : ClientEvent) : Option (Nat × Session × SessionEvent) :=
  if client.ioStopped then none
  else match event with
    | .complete place index outcome => client.meets place (.complete index outcome)
    | .deliver place index => client.meets place (.deliver index)
    | .enqueue place message => client.meets place (.enqueue message)
    | .timerExpires _ => none
    | .timerHandler _ => none
    | .stop => if client.stopping then none else client.session.bind (client.meets · .stop)

/-- What an event adds to the history of the session at a place. -/
def occurs (client : Client) (event : ClientEvent) (place : Nat) : List (Session × SessionEvent) :=
  match client.reaches event with
  | none => []
  | some (reached, session, own) => if reached = place then [(client.plugged session, own)] else []

/-- The events of the session at a place, each with the session that it met. -/
def sessionHistory (client : Client) (place : Nat) : List ClientEvent → List (Session × SessionEvent)
  | [] => []
  | event :: events => client.occurs event place ++ (client.step event).sessionHistory place events

/-- Everything that one event can do to the sessions: one event of the session
that it reaches, or else nothing, or one more of them. -/
inductive SessionsStep (client next : Client) : Option (Nat × Session × SessionEvent) → Prop
  | met {place : Nat} {session : Session} {own : SessionEvent} (found : client.sessions[place]? = some session)
      (becomes : Becomes next (client.sessions.set place ((client.plugged session).step own))
        ((client.plugged session).step own).clock) : SessionsStep client next (some (place, session, own))
  | idle (becomes : Becomes next client.sessions client.clock) : SessionsStep client next none
  | created (becomes : Becomes next
      (client.sessions ++ [(Session.new client.config client.limiter client.clock client.sniConfigured).start])
      client.clock) : SessionsStep client next none

namespace SessionsStep

variable {client next : Client}

theorem of_undisturbed (undisturbed : client.Undisturbed next) : SessionsStep client next none :=
  .idle ⟨undisturbed.sessions, undisturbed.clock⟩

/-- A session that does something, after its client has at most changed its timer. -/
theorem driven (undisturbed : client.Undisturbed next) (place : Nat) (own : SessionEvent)
    (plugged : ∀ session, next.plugged session = client.plugged session) :
    SessionsStep client (next.runSession place (·.step own)) (client.meets place own) := by
  rw [meets]
  cases found : client.sessions[place]? with
  | none =>
    rw [runSession, undisturbed.sessions, found]
    exact .of_undisturbed undisturbed
  | some session =>
    have becomes := runSession_becomes next (undisturbed.sessions ▸ found) (·.step own)
    rw [undisturbed.sessions, plugged] at becomes
    exact .met found becomes

/-- The client lets go of its session. -/
theorem detached {reached : Option (Nat × Session × SessionEvent)} (steps : SessionsStep client next reached) :
    SessionsStep client { next with session := none } reached := by
  cases steps with
  | met found becomes => exact .met found ⟨becomes.sessions, becomes.elapsed⟩
  | idle becomes => exact .idle ⟨becomes.sessions, becomes.elapsed⟩
  | created becomes => exact .created ⟨becomes.sessions, becomes.elapsed⟩

theorem connect (client : Client) (timer : IoContext Time Outcome) :
    SessionsStep client { client with reconnectTimer := timer }.connect none := by
  have becomes := runSession_becomes { client with
      reconnectTimer := timer
      sessions := client.sessions ++ [Session.new client.config client.limiter client.clock client.sniConfigured]
      session := some client.sessions.length } List.getElem?_concat_length Session.start
  refine .created ⟨becomes.sessions.trans ?_, becomes.elapsed⟩
  simp only [List.set_append_right _ _ (Nat.le_refl _), Nat.sub_self, List.set_cons_zero]
  rfl

end SessionsStep

theorem step_sessions (client : Client) (event : ClientEvent) :
    SessionsStep client (client.step event) (client.reaches event) := by
  unfold step reaches
  split
  · exact .of_undisturbed (.refl client)
  · cases event with
    | complete place index outcome => exact .driven (.refl client) place (.complete index outcome) (fun _ => rfl)
    | deliver place index => exact .driven (.refl client) place (.deliver index) (fun _ => rfl)
    | enqueue place message => exact .driven (.refl client) place (.enqueue message) (fun _ => rfl)
    | timerExpires index =>
      dsimp only
      rcases client.timerExpires_cases index with same | expired
      · rw [same]
        exact .of_undisturbed (.refl client)
      · rw [expired]
        exact .of_undisturbed ⟨rfl, rfl, rfl, 0, fun _ => rfl⟩
    | timerHandler index =>
      dsimp only
      rcases client.timerHandler_cases index with same | ⟨timer, ⟨taken, _⟩ | ⟨connected, _⟩⟩
      · rw [same]
        exact .of_undisturbed (.refl client)
      · rw [taken]
        exact .of_undisturbed ⟨rfl, rfl, rfl, 0, fun _ => rfl⟩
      · rw [connected]
        exact .connect client timer
    | stop =>
      dsimp only
      rcases client.stop_cases with ⟨stopping, same⟩ | ⟨running, ⟨noneLive, idles⟩ | ⟨place, isLive, stopped⟩⟩
      · rw [same, if_pos stopping]
        exact .of_undisturbed (.refl client)
      · rw [idles, noneLive]
        simp only [running]
        exact .of_undisturbed ⟨rfl, rfl, rfl, 0, fun _ => rfl⟩
      · have met : client.session.bind (client.meets · .stop) = client.meets place .stop := by
          rw [isLive]
          rfl
        rw [stopped, if_neg (by simp [running]), met]
        have halting : client.Undisturbed (cancelTimer { client with stopping := true }) :=
          ⟨rfl, rfl, rfl, 0, fun _ => rfl⟩
        exact (SessionsStep.driven halting place .stop (fun _ => rfl)).detached

/-- Without enqueues from outside no session meets one. -/
theorem reaches_own {client : Client} {event : ClientEvent} (own : ∀ session message, event ≠ .enqueue session message)
    {place : Nat} {session : Session} {met : SessionEvent}
    (reached : client.reaches event = some (place, session, met)) : ∀ message, met ≠ .enqueue message := by
  rintro message rfl
  unfold reaches at reached
  split at reached
  · cases reached
  · cases event with
    | enqueue place message => exact absurd rfl (own place message)
    | timerExpires index => cases reached
    | timerHandler index => cases reached
    | stop => simp [meets, Option.bind_eq_some_iff] at reached
    | complete place index outcome => simp [meets] at reached
    | deliver place index => simp [meets] at reached

/-- What a client keeps along every run: what its own moves, the events of its
sessions, and a session that is created and then started keep. -/
structure KeptByEvents (property : Client → Prop) : Prop where
  turn : ∀ (client : Client) (timer : IoContext Time Outcome) (stopping : Bool) (live : Option Nat), property client →
    property { client with reconnectTimer := timer, stopping := stopping, session := live }
  act : ∀ (client : Client) (index : Nat) (event : SessionEvent), property client →
    property (client.runSession index (·.step event))
  create : ∀ client : Client, property client → property { client with
    sessions := client.sessions ++ [Session.new client.config client.limiter client.clock client.sniConfigured] }
  start : ∀ (client : Client) (index : Nat), property client → property (client.runSession index Session.start)

namespace KeptByEvents

variable {property : Client → Prop}

theorem step (kept : KeptByEvents property) {client : Client} (holds : property client) (event : ClientEvent) :
    property (client.step event) := by
  unfold Client.step
  split
  · exact holds
  · cases event with
    | complete place index outcome => exact kept.act client place (.complete index outcome) holds
    | deliver place index => exact kept.act client place (.deliver index) holds
    | enqueue place message => exact kept.act client place (.enqueue message) holds
    | timerExpires index =>
      dsimp only
      rcases client.timerExpires_cases index with same | expired
      · rwa [same]
      · rw [expired]
        exact kept.turn client _ client.stopping client.session holds
    | timerHandler index =>
      dsimp only
      rcases client.timerHandler_cases index with same | ⟨timer, ⟨taken, _⟩ | ⟨connected, _⟩⟩
      · rwa [same]
      · rw [taken]
        exact kept.turn client timer client.stopping client.session holds
      · rw [connected]
        have created := kept.create _ (kept.turn client timer client.stopping (some client.sessions.length) holds)
        exact kept.start _ client.sessions.length created
    | stop =>
      dsimp only
      rcases client.stop_cases with ⟨_, same⟩ | ⟨_, ⟨_, idles⟩ | ⟨place, _, stopped⟩⟩
      · rwa [same]
      · rw [idles]
        exact kept.turn client _ true client.session holds
      · rw [stopped]
        have halted := kept.act _ place .stop (kept.turn client
          (client.reconnectTimer.cancel (fun _ => true) operationAborted) true client.session holds)
        exact kept.turn _ _ _ none halted

theorem after (kept : KeptByEvents property) {client : Client} (holds : property client) (events : List ClientEvent) :
    property (client.after events) := by
  induction events generalizing client with
  | nil => exact holds
  | cons event events ih => exact ih (kept.step holds event)

end KeptByEvents

theorem step_settings (client : Client) (event : ClientEvent) :
    (client.step event).config = client.config ∧ (client.step event).sniConfigured = client.sniConfigured := by
  have kept : KeptByEvents (fun next => next.config = client.config ∧ next.sniConfigured = client.sniConfigured) := by
    refine ⟨fun _ _ _ _ same => same, fun other index event same => ?_, fun _ same => same, fun other index same => ?_⟩
    · have settings := other.runSession_settings index (·.step event)
      exact ⟨settings.1.trans same.1, settings.2.trans same.2⟩
    · have settings := other.runSession_settings index Session.start
      exact ⟨settings.1.trans same.1, settings.2.trans same.2⟩
  exact kept.step ⟨rfl, rfl⟩ event

/-- A property of sessions and of what has happened to them that holds of a
session that starts, that each event of the session keeps, and that does not
depend on its limiter and clock. -/
structure KeptBySession (property : List (Session × SessionEvent) → Session → Prop) (config : RuntimeConfig)
    (sniConfigured : Bool) (clock : Nat → Time) : Prop where
  start : ∀ limiter later, Elapsed clock later → property [] (Session.new config limiter later sniConfigured).start
  plug : ∀ past session limiter later, Elapsed session.clock later → property past session →
    property past { session with limiter := limiter, clock := later }
  step : ∀ past session event, (∀ message, event ≠ .enqueue message) → property past session →
    property (past ++ [(session, event)]) (session.step event)

/-- The property holds of every session of a client, with its past. -/
structure EverySession (property : List (Session × SessionEvent) → Session → Prop) (config : RuntimeConfig)
    (sniConfigured : Bool) (clock : Nat → Time) (past : Nat → List (Session × SessionEvent)) (client : Client) :
    Prop where
  settings : client.config = config ∧ client.sniConfigured = sniConfigured
  passed : Elapsed clock client.clock
  fresh : ∀ place, client.sessions.length ≤ place → past place = []
  holds : ∀ (place : Nat) (session : Session), client.sessions[place]? = some session →
    Elapsed session.clock client.clock ∧ property (past place) session

namespace EverySession

variable {property : List (Session × SessionEvent) → Session → Prop} {config : RuntimeConfig} {sniConfigured : Bool}
  {clock : Nat → Time} {past : Nat → List (Session × SessionEvent)} {client : Client}

theorem met (kept : KeptBySession property config sniConfigured clock)
    (every : EverySession property config sniConfigured clock past client) {next : Client}
    (settings : next.config = client.config ∧ next.sniConfigured = client.sniConfigured) {place : Nat}
    {session : Session} {own : SessionEvent} (notEnqueue : ∀ message, own ≠ .enqueue message)
    (found : client.sessions[place]? = some session)
    (becomes : Becomes next (client.sessions.set place ((client.plugged session).step own))
      ((client.plugged session).step own).clock) :
    EverySession property config sniConfigured clock
      (fun other => past other ++ if place = other then [(client.plugged session, own)] else []) next := by
  have moved : Elapsed client.clock ((client.plugged session).step own).clock :=
    ((client.plugged session).step_moves own).elapsed
  have inside := (List.getElem?_eq_some_iff.mp found).1
  refine ⟨⟨settings.1.trans every.settings.1, settings.2.trans every.settings.2⟩,
    every.passed.trans (moved.trans becomes.elapsed), fun other outside => ?_, fun other current at_ => ?_⟩
  · rw [becomes.sessions, List.length_set] at outside
    have apart : place ≠ other := by omega
    rw [every.fresh other outside, if_neg apart]
    rfl
  · rw [becomes.sessions, List.getElem?_set] at at_
    by_cases same : place = other
    · rw [if_pos same, if_pos inside] at at_
      cases Option.some.inj at_
      obtain ⟨elapsed, holds⟩ := every.holds place session found
      rw [if_pos same, ← same]
      exact ⟨becomes.elapsed, kept.step _ _ own notEnqueue
        (kept.plug _ session client.limiter client.clock elapsed holds)⟩
    · rw [if_neg same] at at_
      obtain ⟨elapsed, holds⟩ := every.holds other current at_
      rw [if_neg same, List.append_nil]
      exact ⟨(elapsed.trans moved).trans becomes.elapsed, holds⟩

theorem idle (every : EverySession property config sniConfigured clock past client) {next : Client}
    (settings : next.config = client.config ∧ next.sniConfigured = client.sniConfigured)
    (becomes : Becomes next client.sessions client.clock) :
    EverySession property config sniConfigured clock past next := by
  refine ⟨⟨settings.1.trans every.settings.1, settings.2.trans every.settings.2⟩,
    every.passed.trans becomes.elapsed, ?_, fun other current found => ?_⟩
  · rw [becomes.sessions]
    exact every.fresh
  · rw [becomes.sessions] at found
    obtain ⟨elapsed, holds⟩ := every.holds other current found
    exact ⟨elapsed.trans becomes.elapsed, holds⟩

theorem created (kept : KeptBySession property config sniConfigured clock)
    (every : EverySession property config sniConfigured clock past client) {next : Client}
    (settings : next.config = client.config ∧ next.sniConfigured = client.sniConfigured)
    (becomes : Becomes next
      (client.sessions ++ [(Session.new client.config client.limiter client.clock client.sniConfigured).start])
      client.clock) : EverySession property config sniConfigured clock past next := by
  refine ⟨⟨settings.1.trans every.settings.1, settings.2.trans every.settings.2⟩,
    every.passed.trans becomes.elapsed, fun other outside => ?_, fun other current found => ?_⟩
  · rw [becomes.sessions, List.length_append] at outside
    exact every.fresh other (by omega)
  · rw [becomes.sessions] at found
    rcases Nat.lt_or_ge other client.sessions.length with older | newer
    · rw [List.getElem?_append_left older] at found
      obtain ⟨elapsed, holds⟩ := every.holds other current found
      exact ⟨elapsed.trans becomes.elapsed, holds⟩
    · rw [List.getElem?_append_right newer] at found
      obtain rfl := List.mem_singleton.mp (List.mem_of_getElem? found)
      rw [every.fresh other newer, every.settings.1, every.settings.2]
      exact ⟨becomes.elapsed, kept.start client.limiter client.clock every.passed⟩

theorem step (kept : KeptBySession property config sniConfigured clock)
    (every : EverySession property config sniConfigured clock past client) {event : ClientEvent}
    (own : ∀ session message, event ≠ .enqueue session message) :
    EverySession property config sniConfigured clock (fun place => past place ++ client.occurs event place)
      (client.step event) := by
  have settings := client.step_settings event
  have steps := client.step_sessions event
  cases reached : client.reaches event with
  | none =>
    have nothing : (fun place => past place ++ client.occurs event place) = past := by
      funext place
      rw [occurs, reached, List.append_nil]
    rw [reached] at steps
    rw [nothing]
    cases steps with
    | idle becomes => exact every.idle settings becomes
    | created becomes => exact every.created kept settings becomes
  | some met =>
    obtain ⟨place, session, met⟩ := met
    simp only [occurs, reached]
    rw [reached] at steps
    cases steps with
    | met found becomes => exact every.met kept settings (reaches_own own reached) found becomes

theorem after (kept : KeptBySession property config sniConfigured clock)
    (every : EverySession property config sniConfigured clock past client) {events : List ClientEvent}
    (own : OwnEvents events) : EverySession property config sniConfigured clock
      (fun place => past place ++ client.sessionHistory place events) (client.after events) := by
  induction events generalizing client past with
  | nil =>
    simp only [sessionHistory, List.append_nil]
    exact every
  | cons event events ih =>
    have notEnqueue : ∀ session message, event ≠ .enqueue session message := by
      rintro session message rfl
      exact own session message List.mem_cons_self
    have first := every.step kept notEnqueue
    have rest := ih first (fun session message member => own session message (List.mem_cons_of_mem _ member))
    simp only [sessionHistory, ← List.append_assoc]
    exact rest

end EverySession

/-- A client that is stopping has no open session. -/
theorem closed_of_stopping {stopCalled : Prop} {client : Client} (lifecycle : Lifecycle stopCalled client)
    (stopping : client.stopping = true) {place : Nat} {session : Session}
    (found : client.sessions[place]? = some session) : session.closed = true := by
  by_contra isOpen
  have running := (lifecycle.running_of_open found (by simpa using isOpen)).1
  rw [stopping] at running
  cases running

/-- A client that is stopping goes on to be. -/
theorem step_stopping {stopCalled : Prop} {client : Client} (lifecycle : Lifecycle stopCalled client)
    (stopping : client.stopping = true) (event : ClientEvent) : (client.step event).stopping = true := by
  obtain ⟨next, advances⟩ := lifecycle.step event
  refine next.stopping_iff.mpr ?_
  rw [(lifecycle.advances event).effects, fatal_append]
  exact (lifecycle.stopping_iff.mp stopping).imp Or.inl Or.inl

end Client

end TwitchBot
