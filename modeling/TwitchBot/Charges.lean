import TwitchBot.ClientSessions
import TwitchBot.WriteLedger
import TwitchBot.WriteTimes

namespace TwitchBot

open Outbox

namespace Client

/-- The event runs the handler of a chat or JOIN write with an error. -/
def failsRated (client : Client) : ClientEvent → Bool
  | .deliver place index => (client.sessions[place]?).any (·.failsRated (.deliver index))
  | _ => false

/-- Once a session has handed over a chat or JOIN message, the handler of every
such write of an older session has run. -/
def RatedHandover (client : Client) : Prop :=
  ∀ (older newer : Nat) (old new : Session), older < newer → client.sessions[older]? = some old →
    client.sessions[newer]? = some new → (∃ message, .handed message ∈ rateMarks new.trace) →
      old.owed.isSome = true → old.io.count Operation.isWrite = 0

end Client

/-- What holds of every session of a client: its books are kept, and a message
it owes is still on its way. -/
structure Booked (client : Client) : Prop where
  accounted : ∀ session ∈ client.sessions, Accounted session.toOutbox
  afoot : ∀ session ∈ client.sessions, Afoot session.toOutbox
  books : ∀ session ∈ client.sessions, charge none (rateMarks session.trace) = some session.owed

/-- At most one session owes a message. -/
theorem Booked.unique {client : Client} (booked : Booked client) (handover : client.RatedHandover) {i j : Nat}
    {s t : Session} (first : client.sessions[i]? = some s) (second : client.sessions[j]? = some t)
    (owes : s.owed.isSome = true) (owes' : t.owed.isSome = true) : i = j := by
  have handed {place : Nat} {session : Session} (found : client.sessions[place]? = some session)
      (owes : session.owed.isSome = true) : ∃ message, .handed message ∈ rateMarks session.trace := by
    obtain ⟨message, owed⟩ := Option.isSome_iff_exists.mp owes
    have books := booked.books session (List.mem_of_getElem? found)
    rw [owed] at books
    exact ⟨message, handed_of_charge books (by simp)⟩
  have afoot {place : Nat} {session : Session} (found : client.sessions[place]? = some session)
      (owes : session.owed.isSome = true) : 0 < session.io.count Operation.isWrite :=
    booked.afoot session (List.mem_of_getElem? found) owes
  rcases Nat.lt_trichotomy i j with older | same | newer
  · have handled := handover i j s t older first second (handed second owes') owes
    exact absurd handled (afoot first owes).ne'
  · exact same
  · have handled := handover j i t s newer second first (handed first owes) owes'
    exact absurd handled (afoot second owes').ne'

/-- The books are kept in every act of a session. -/
theorem Booked.acted {client : Client} (booked : Booked client) {index : Nat} {session next : Session}
    {effects : List Effect} (found : client.sessions[index]? = some session)
    (accounted : Accounted next.toOutbox)
    (settles : Settles (client.plugged session).toOutbox next.toOutbox effects) :
    Booked (client.acted index next effects) := by
  have member := List.mem_of_getElem? found
  refine ⟨?_, ?_, ?_⟩
  all_goals
    intro second inside
    rcases List.mem_or_eq_of_mem_set inside with old | rfl
  · exact booked.accounted second old
  · exact accounted
  · exact booked.afoot second old
  · exact settles.afoot (booked.afoot session member)
  · exact booked.books second old
  · have books := booked.books session member
    rw [settles.trace, rateMarks_append, charge_append, show (client.plugged session).trace = session.trace from rfl,
      books]
    exact settles.charged

/-- The marks of an act are charged behind those of the client. -/
theorem charge_acted {client : Client} {owed : Option OutboundMessage}
    (charged : charge none (rateMarks client.effects) = some owed) {index : Nat} {next : Session}
    {effects : List Effect} :
    charge none (rateMarks (Client.effects (client.acted index next effects))) = charge owed (rateMarks effects) := by
  rw [Client.effects_acted, rateMarks_append, charge_append, charged]
  rfl

/-- The books of the client are those of the one session that owes a message. -/
structure Ledger (client : Client) : Prop extends Booked client where
  owing : ∃ owed, charge none (rateMarks client.effects) = some owed ∧
    (∀ session ∈ client.sessions, session.owed = none ∨ session.owed = owed) ∧
    (owed.isSome = true → ∃ (index : Nat) (session : Session),
      client.sessions[index]? = some session ∧ session.owed = owed)

namespace Ledger

variable {client : Client} {index : Nat} {session next : Session} {effects : List Effect}

/-- Only the sessions and what they did count. -/
theorem of_same (ledger : Ledger client) {next : Client} (sessions : next.sessions = client.sessions)
    (trace : next.trace = client.trace) : Ledger next := by
  obtain ⟨⟨accounted, afoot, books⟩, owing⟩ := ledger
  rw [Client.effects, ← trace] at owing
  rw [← sessions] at accounted afoot books owing
  exact ⟨⟨accounted, afoot, books⟩, owing⟩

/-- The session that owed acts, or any session while nothing is owed: it alone may owe then. -/
theorem acted_holder (booked : Booked (client.acted index next effects))
    (found : client.sessions[index]? = some session)
    (settles : Settles (client.plugged session).toOutbox next.toOutbox effects)
    (charged : charge none (rateMarks client.effects) = some session.owed)
    (others : ∀ (other : Nat) (second : Session), other ≠ index → client.sessions[other]? = some second →
      second.owed = none) : Ledger (client.acted index next effects) := by
  refine ⟨booked, next.owed, ?_, ?_, fun _ => ⟨index, next, Client.acted_self found next effects, rfl⟩⟩
  · rw [charge_acted charged]
    exact settles.charged
  · intro second inside
    obtain ⟨other, atOther⟩ := List.getElem?_of_mem inside
    rcases Client.acted_cases found atOther with ⟨rfl, rfl⟩ | ⟨distinct, before⟩
    · exact Or.inr rfl
    · exact Or.inl (others other second distinct before)

/-- A session acts while another one owes: it neither hands over nor pays. -/
theorem acted_bystander (booked : Booked (client.acted index next effects))
    (respected : (client.acted index next effects).RatedHandover)
    (found : client.sessions[index]? = some session)
    (settles : Settles (client.plugged session).toOutbox next.toOutbox effects) (settled : session.owed = none)
    {other : Nat} {second : Session} (atOther : client.sessions[other]? = some second)
    (owes : second.owed.isSome = true) (charged : charge none (rateMarks client.effects) = some second.owed)
    (others : ∀ third ∈ client.sessions, third.owed = none ∨ third.owed = second.owed) :
    Ledger (client.acted index next effects) := by
  have distinct : other ≠ index := by
    rintro rfl
    cases Option.some.inj (atOther.symm.trans found)
    rw [settled] at owes
    cases owes
  have stays := (Client.acted_other distinct next effects).trans atOther
  have noneHanded (message : OutboundMessage) : .handed message ∉ rateMarks effects := by
    intro handed
    have some : next.owed.isSome = true := by rw [settles.handed message handed]; rfl
    exact distinct (booked.unique respected stays (Client.acted_self found next effects) owes some)
  have chargedHere : charge none (rateMarks effects) = some next.owed := settled ▸ settles.charged
  obtain ⟨noMarks, paid⟩ := charge_none chargedHere noneHanded
  refine ⟨booked, second.owed, ?_, ?_, fun _ => ⟨other, second, stays, rfl⟩⟩
  · rw [charge_acted charged, noMarks]
    rfl
  · intro third inside
    rcases List.mem_or_eq_of_mem_set inside with old | rfl
    · exact others third old
    · exact Or.inl paid

/-- A session acts and keeps its books. -/
theorem acted (ledger : Ledger client) (handover : client.RatedHandover)
    (found : client.sessions[index]? = some session) (accounted : Accounted next.toOutbox)
    (settles : Settles (client.plugged session).toOutbox next.toOutbox effects)
    (respected : (client.acted index next effects).RatedHandover) : Ledger (client.acted index next effects) := by
  have member := List.mem_of_getElem? found
  have booked := ledger.toBooked.acted found accounted settles
  obtain ⟨owed, charged, others, holder⟩ := ledger.owing
  by_cases mine : session.owed = owed
  · subst mine
    refine acted_holder booked found settles charged (fun other second distinct atOther => ?_)
    by_contra owes
    have isOwed := (others second (List.mem_of_getElem? atOther)).resolve_left owes
    have some : second.owed.isSome = true := Option.isSome_iff_ne_none.mpr owes
    exact distinct (ledger.unique handover atOther found some (isOwed ▸ some))
  · have settled : session.owed = none := (others session member).resolve_right mine
    have owes : owed.isSome = true := by
      rw [Option.isSome_iff_ne_none]
      rintro rfl
      exact mine settled
    obtain ⟨other, second, atOther, rfl⟩ := holder owes
    exact acted_bystander booked respected found settles settled atOther owes charged others

theorem runSession (ledger : Ledger client) (handover : client.RatedHandover) {index : Nat}
    {act : Session → Session}
    (keeps : ∀ session, client.sessions[index]? = some session → Accounted (client.plugged session).toOutbox →
      Accounted (act (client.plugged session)).toOutbox ∧
        ∃ effects, Settles (client.plugged session).toOutbox (act (client.plugged session)).toOutbox effects)
    (respected : (client.runSession index act).RatedHandover) : Ledger (client.runSession index act) := by
  cases found : client.sessions[index]? with
  | none =>
    rw [Client.runSession, found]
    exact ledger
  | some session =>
    have kept := ledger.accounted session (List.mem_of_getElem? found)
    obtain ⟨accounted, effects, settles⟩ := keeps session found (kept.aside client.limiter client.clock session.closed)
    have run := Client.runSession_eq found settles.trace
    have undisturbed := Client.reacts_undisturbed
      (client.acted index (act (client.plugged session)) effects) effects
    rw [← run] at undisturbed
    refine (ledger.acted handover found accounted settles ?_).of_same undisturbed.sessions undisturbed.trace
    intro older newer old new order foundOld foundNew
    rw [← undisturbed.sessions] at foundOld foundNew
    exact respected older newer old new order foundOld foundNew

/-- One of the sessions has an event. -/
theorem stepSession (ledger : Ledger client) (handover : client.RatedHandover) (index : Nat) (event : SessionEvent)
    (calm : ∀ session, client.sessions[index]? = some session → session.failsRated event = false)
    (respected : (client.runSession index (·.step event)).RatedHandover) :
    Ledger (client.runSession index (·.step event)) := by
  refine ledger.runSession handover (fun session found accounted => ⟨?_, ?_⟩) respected
  · exact (Session.step_moves (client.plugged session) event).keeps (fun _ _ => Accounted.move) accounted
  · exact Session.step_settles accounted (calm session found)

/-- A new session owes nothing. -/
theorem created (ledger : Ledger client) (index : Option Nat) : Ledger { client with
    sessions := client.sessions ++ [Session.new client.config client.limiter client.clock client.sniConfigured]
    session := index } := by
  have cases {session : Session} (member : session ∈ client.sessions ++
      [Session.new client.config client.limiter client.clock client.sniConfigured]) : session ∈ client.sessions ∨
      session = Session.new client.config client.limiter client.clock client.sniConfigured := by
    simpa using member
  refine ⟨⟨?_, ?_, ?_⟩, ?_⟩
  · intro session member
    rcases cases member with old | rfl
    · exact ledger.accounted session old
    · exact accounted_new _ _ _ _
  · intro session member
    rcases cases member with old | rfl
    · exact ledger.afoot session old
    · exact fun owes => Bool.noConfusion owes
  · intro session member
    rcases cases member with old | rfl
    · exact ledger.books session old
    · rfl
  · obtain ⟨owed, charged, others, holder⟩ := ledger.owing
    refine ⟨owed, charged, ?_, fun owes => ?_⟩
    · intro session member
      rcases cases member with old | rfl
      · exact others session old
      · exact Or.inl rfl
    · obtain ⟨place, session, found, holds⟩ := holder owes
      obtain ⟨bound, _⟩ := List.getElem?_eq_some_iff.mp found
      exact ⟨place, session, (List.getElem?_append_left bound).trans found, holds⟩

end Ledger

namespace Client

theorem RatedHandover.of_sessions {client next : Client} (handover : client.RatedHandover)
    (same : next.sessions = client.sessions) : next.RatedHandover := by
  intro older newer old new order foundOld foundNew
  rw [same] at foundOld foundNew
  exact handover older newer old new order foundOld foundNew

/-- A new session has handed over nothing. -/
theorem RatedHandover.concat {client : Client} (handover : client.RatedHandover) {fresh : Session}
    (empty : fresh.trace = []) {index : Option Nat} :
    RatedHandover { client with sessions := client.sessions ++ [fresh], session := index } := by
  refine newer_concat handover (fun old handed => ?_)
  obtain ⟨message, member⟩ := handed
  rw [empty] at member
  cases member

end Client

namespace Ledger

variable {client : Client}

theorem connect (ledger : Ledger client) (handover : client.RatedHandover)
    (respected : client.connect.RatedHandover) : Ledger client.connect := by
  have launched (session : Session) : Session.Acts session session.start := session.launch_acts rfl
  refine (ledger.created _).runSession (handover.concat rfl) (fun session _ accounted => ⟨?_, ?_⟩) respected
  · exact (launched _).moves.keeps (fun _ _ => Accounted.move) accounted
  · exact (launched _).sends.settles accounted.owed_none

theorem timerHandler (ledger : Ledger client) (handover : client.RatedHandover) (index : Nat)
    (respected : (client.timerHandler index).RatedHandover) : Ledger (client.timerHandler index) := by
  rcases client.timerHandler_cases index with same | ⟨timer, ⟨taken, _⟩ | ⟨connected, _⟩⟩
  · rwa [same]
  · rw [taken]
    exact ledger.of_same rfl rfl
  · have taking : Ledger { client with reconnectTimer := timer } := ledger.of_same rfl rfl
    rw [connected] at respected ⊢
    exact taking.connect (handover.of_sessions rfl) respected

theorem stop (ledger : Ledger client) (handover : client.RatedHandover)
    (respected : client.stop.RatedHandover) : Ledger client.stop := by
  have halted : Ledger (Client.cancelTimer { client with stopping := true }) := ledger.of_same rfl rfl
  rcases client.stop_cases with ⟨_, same⟩ | ⟨_, ⟨_, idle⟩ | ⟨index, _, stopped⟩⟩
  · rwa [same]
  · rwa [idle]
  · rw [stopped] at respected ⊢
    have ran : Ledger (Client.runSession (Client.cancelTimer { client with stopping := true }) index
        (·.step .stop)) :=
      halted.stepSession (handover.of_sessions rfl) index .stop (fun _ _ => rfl) (respected.of_sessions rfl)
    exact ran.of_same rfl rfl

/-- Every event keeps the books, unless it runs the handler of a failed write
of a chat or JOIN message. -/
theorem step (ledger : Ledger client) (handover : client.RatedHandover) (event : ClientEvent)
    (calm : client.failsRated event = false) (respected : (client.step event).RatedHandover) :
    Ledger (client.step event) := by
  unfold Client.step at respected ⊢
  split
  · exact ledger
  · rename_i running
    rw [if_neg running] at respected
    cases event with
    | complete place index outcome =>
      exact ledger.stepSession handover place (.complete index outcome) (fun _ _ => rfl) respected
    | deliver place index =>
      refine ledger.stepSession handover place (.deliver index) (fun session found => ?_) respected
      simpa [Client.failsRated, found] using calm
    | enqueue place message =>
      exact ledger.stepSession handover place (.enqueue message) (fun _ _ => rfl) respected
    | timerExpires index =>
      show Ledger (client.timerExpires index)
      rcases client.timerExpires_cases index with same | expired
      · rwa [same]
      · rw [expired]
        exact ledger.of_same rfl rfl
    | timerHandler index => exact ledger.timerHandler handover index respected
    | stop => exact ledger.stop handover respected

end Ledger

theorem ledger_start (config : RuntimeConfig) (sniConfigured : Bool) (clock : Nat → Time)
    (random : Nat → Fin 501) : Ledger (Client.start { config, sniConfigured, clock, random }) := by
  have noSession : (Client.start { config, sniConfigured, clock, random }).sessions = [] := rfl
  refine ⟨⟨?_, ?_, ?_⟩, none, rfl, ?_, fun owes => Bool.noConfusion owes⟩
  all_goals
    rw [noSession]
    exact fun session member => absurd member List.not_mem_nil

theorem ledger_after {client : Client} (ledger : Ledger client) (events : List ClientEvent)
    (calm : ∀ earlier event, earlier ++ [event] <+: events → (client.after earlier).failsRated event = false)
    (handover : ∀ earlier, earlier <+: events → (client.after earlier).RatedHandover) :
    Ledger (client.after events) := by
  induction events using List.reverseRecOn with
  | nil => exact ledger
  | append_singleton events event ih =>
    have shorter {earlier : List ClientEvent} (before : earlier <+: events) : earlier <+: events ++ [event] :=
      before.trans (List.prefix_append _ _)
    have reached := ih (fun earlier event before => calm earlier event (shorter before))
      (fun earlier before => handover earlier (shorter before))
    have respected := handover (events ++ [event]) (List.prefix_refl _)
    rw [Client.after_concat] at respected ⊢
    exact reached.step (handover events (List.prefix_append _ _)) event
      (calm events event (List.prefix_refl _)) respected

namespace Client

theorem runSession_metered (client : Client) (index : Nat) {act : Session → Session}
    (moves : ∀ session, Moves session.toOutbox (act session).toOutbox)
    (metered : Metered {} (sentWrites client.effects) client.limiter) :
    Metered {} (sentWrites (client.runSession index act).effects) (client.runSession index act).limiter := by
  cases found : client.sessions[index]? with
  | none =>
    rw [runSession, found]
    exact metered
  | some session =>
    obtain ⟨effects, grows⟩ := Grows.moves (moves (client.plugged session))
    have kept := reacts_undisturbed (client.acted index (act (client.plugged session)) effects) effects
    rw [runSession_eq found grows.trace, Client.effects, kept.trace, kept.limiter]
    show Metered {} (sentWrites (Client.effects (client.acted index (act (client.plugged session)) effects))) _
    rw [effects_acted, sentWrites_append]
    exact metered.append grows.metered

/-- The limiter that outlives the sessions has recorded their writes, and nothing else. -/
theorem metered_kept : KeptByEvents (fun client => Metered {} (sentWrites client.effects) client.limiter) where
  turn _ _ _ _ metered := metered
  act client index event metered := client.runSession_metered index (fun session => session.step_moves event) metered
  create _ metered := metered
  start client index metered :=
    client.runSession_metered index (fun session => (session.launch_acts rfl).moves) metered

end Client

/-- Over every run of a client, each chat or JOIN message that a session hands
over is recorded once before the next, as long as no handler of such a write
runs with an error, and those of an older session have run once a newer one has
started such a write. What is recorded is recorded in the limiter that the
sessions share: it started empty, and has met nothing but these records, in
their order and each at its time, and queries. -/
theorem every_write_charged (config : RuntimeConfig) (sniConfigured : Bool) (clock : Nat → Time)
    (random : Nat → Fin 501) (events : List ClientEvent)
    (calm : ∀ earlier event, earlier ++ [event] <+: events →
      ((Client.start { config, sniConfigured, clock, random }).after earlier).failsRated event = false)
    (handover : ∀ earlier, earlier <+: events →
      ((Client.start { config, sniConfigured, clock, random }).after earlier).RatedHandover) :
    let client := (Client.start { config, sniConfigured, clock, random }).after events
    EveryWriteCharged client.effects ∧ Metered {} (sentWrites client.effects) client.limiter := by
  intro client
  obtain ⟨owed, charged, _⟩ :=
    (ledger_after (ledger_start config sniConfigured clock random) events calm handover).owing
  have start : Metered {} (sentWrites (Client.start { config, sniConfigured, clock, random }).effects)
      (Client.start { config, sniConfigured, clock, random }).limiter := .refl
  exact ⟨everyWriteCharged_of_charge charged, Client.metered_kept.after start events⟩

theorem every_write_charged_replacement :
    (rateMarks (steadyClient.after replacementRun).effects).length = 4 ∧
      (sentWrites (steadyClient.after replacementRun).effects).length = 2 ∧
      EveryWriteCharged (steadyClient.after replacementRun).effects ∧
      Metered {} (sentWrites (steadyClient.after replacementRun).effects)
        (steadyClient.after replacementRun).limiter := by
  have calm : ∀ earlier ∈ replacementRun.inits, ∀ event ∈ replacementRun,
      (steadyClient.after earlier).failsRated event = false := by decide
  refine ⟨by decide, by decide,
    every_write_charged validConfig true (fun n => n * seconds 10) (fun _ => 0) replacementRun ?_ ?_⟩
  · intro earlier event before
    exact calm earlier ((List.mem_inits _ _).mpr ((List.prefix_append _ _).trans before)) event
      (before.subset (List.mem_append_right _ List.mem_cons_self))
  · intro earlier before older newer old new order foundOld foundNew _ _
    exact replacementRun_quiet earlier ((List.mem_inits _ _).mpr before) old
      (Client.mem_dropLast order foundOld foundNew)

/-- A session connects and logs in, up to the write of its first JOIN. -/
def joiningEvents (place : Nat) : List ClientEvent :=
  [.complete place 0 (.success []), .deliver place 0, .complete place 0 (.success []), .deliver place 0,
    .complete place 0 (.success []), .deliver place 0,
    .complete place 2 (.success (bytes ":tmi.twitch.tv 001 example_bot :Welcome" ++ crlf ++
      bytes ":tmi.twitch.tv CAP * ACK :twitch.tv/membership twitch.tv/tags twitch.tv/commands" ++ crlf)),
    .deliver place 0, .deliver place 0, .complete place 0 (.success []), .deliver place 0,
    .complete place 1 (.success []), .deliver place 0, .complete place 1 (.success []), .deliver place 0]

/-- The write of the first JOIN fails, and the next session writes it again. -/
def brokenPipeRun : List ClientEvent :=
  [.timerExpires 0, .timerHandler 0] ++ joiningEvents 0 ++
    [.complete 0 1 (.failure "Broken pipe"), .deliver 0 0, .timerExpires 0, .timerHandler 0] ++ joiningEvents 1

def firstJoin (due : Time) : OutboundMessage := ⟨bytes "JOIN #one" ++ crlf, .join, bytes "one", due, 3⟩

theorem brokenPipeRun_marks : rateMarks (steadyClient.after brokenPipeRun).effects =
    [.handed (firstJoin (seconds 60)), .handed (firstJoin (seconds 210))] := by
  decide +kernel

/-- A write that fails is not recorded before the next session writes. -/
theorem every_write_charged_fails :
    ¬∀ (config : RuntimeConfig) (sniConfigured : Bool) (clock : Nat → Time) (random : Nat → Fin 501)
      (events : List ClientEvent),
      (∃ parseJson environment botJson, parseRuntimeConfig parseJson environment botJson = .ok config) →
      (∀ n, clock n ≤ clock (n + 1)) →
        EveryWriteCharged ((Client.start { config, sniConfigured, clock, random }).after events).effects := by
  intro charged
  have result := charged validConfig true (fun n => n * seconds 10) (fun _ => 0) brokenPipeRun
    ⟨_, _, _, validConfig_accepted⟩ (fun n => by simp [seconds])
  have between := result [] _ [] _ [] brokenPipeRun_marks (fun _ none => absurd none List.not_mem_nil)
  cases between

end TwitchBot
