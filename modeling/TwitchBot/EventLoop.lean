import TwitchBot.Exceptions
import TwitchBot.Shutdown
import TwitchBot.Startup

/-!
Translation of the end of `main.cpp`: the event loop runs the handlers of the
client, and the wait of the signal set calls `stop` once.
-/

namespace TwitchBot

open ExceptRun

structure Program where
  client : Client
  /-- The handler of the signal set has not run. -/
  signalWait : Bool := true

/-- What the event loop can meet: a signal arrives and its handler runs, an
operation of a session completes, a handler of a session runs, the reconnect
timer expires, or its handler runs. -/
inductive LoopEvent
  | signal
  | complete (session index : Nat) (outcome : Outcome)
  | deliver (session index : Nat)
  | timerExpires (index : Nat)
  | timerHandler (index : Nat)

/-- What the client meets then. -/
def LoopEvent.met : LoopEvent → ClientEvent
  | .signal => .stop
  | .complete session index outcome => .complete session index outcome
  | .deliver session index => .deliver session index
  | .timerExpires index => .timerExpires index
  | .timerHandler index => .timerHandler index

namespace Program

def start (config : RuntimeConfig) (sniConfigured : Bool) (clock : Nat → Time)
    (random : Nat → Fin 501) : Program where
  client := Client.start { config, sniConfigured, clock, random }

/-- `io.run()` has thrown what left a handler. -/
def threw (program : Program) : Bool := program.client.effects.any Effect.escapes

/-- `io.run()` has returned: it was stopped, or nothing is left to wait for. -/
def returned (program : Program) : Bool :=
  program.client.ioStopped || (!program.signalWait && decide (program.client.pendingHandlers = 0))

/-- Nothing runs any more. -/
def isOver (program : Program) : Bool := program.threw || program.returned

def step (program : Program) (event : LoopEvent) : Program :=
  if program.isOver then program
  else match event with
    | .signal => if program.signalWait then ⟨program.client.step .stop, false⟩ else program
    | event => { program with client := program.client.step event.met }

/-- The program behind a sequence of events. -/
def after (program : Program) (events : List LoopEvent) : Program := events.foldl step program

/-- The exit code, once the loop is over. -/
def exitCode (program : Program) : Option Nat :=
  if program.threw then some 1 else if program.returned then some program.client.exitCode else none

end Program

namespace Client

/-- The exit code is 1 if the client has stopped the loop, and 0 otherwise. -/
def Agrees (client : Client) : Prop := client.exitCode = if client.ioStopped then 1 else 0

namespace Agrees

variable {client : Client}

theorem of_same {next : Client} (agrees : client.Agrees) (exit : next.exitCode = client.exitCode)
    (stopped : next.ioStopped = client.ioStopped) : next.Agrees := by
  rw [Agrees, exit, stopped]
  exact agrees

theorem scheduleConnection (agrees : client.Agrees) (delay : Time) : (client.scheduleConnection delay).Agrees := by
  unfold Client.scheduleConnection
  split
  · exact agrees
  · exact agrees

theorem react (agrees : client.Agrees) (effect : Effect) : (client.react effect).Agrees := by
  cases effect with
  | ended reason message =>
    simp only [Client.react, handleSessionEnd]
    split
    · exact agrees
    · split
      · exact rfl
      · refine scheduleConnection ?_ _
        exact agrees
  | _ => exact agrees

theorem reacts (agrees : client.Agrees) (effects : List Effect) : (effects.foldl Client.react client).Agrees := by
  induction effects generalizing client with
  | nil => exact agrees
  | cons effect effects ih => exact ih (agrees.react effect)

theorem runSession (agrees : client.Agrees) (index : Nat) (act : Session → Session) :
    (client.runSession index act).Agrees := by
  unfold Client.runSession
  split
  · exact agrees
  · refine reacts ?_ _
    exact agrees.of_same rfl rfl

theorem kept : KeptByEvents Agrees where
  turn _ _ _ _ agrees := agrees.of_same rfl rfl
  act _ index _ agrees := agrees.runSession index _
  create _ agrees := agrees.of_same rfl rfl
  start _ index agrees := agrees.runSession index _

theorem ioStopped_iff {stopCalled : Prop} (agrees : client.Agrees) (lifecycle : Lifecycle stopCalled client) :
    client.ioStopped = true ↔ Fatal client.effects := by
  rw [← lifecycle.exit_iff, agrees]
  split <;> simp_all

end Agrees

end Client

/-- A start that goes on to the event loop has read an accepted configuration. -/
theorem accepted_of_run {parseJson : JsonParser} {process : Process} {arguments : List Bytes} {config : RuntimeConfig}
    (started : main parseJson process arguments = .run config) :
    ∃ environment contents, parseRuntimeConfig parseJson environment contents = .ok config := by
  unfold main at started
  split at started
  · cases started
  · split at started
    · cases started
    · split at started
      · cases started
      · rename_i accepted
        split at started
        · cases started
        · cases started
          obtain ⟨_, _, accepted⟩ := bind_eq_ok.mp accepted
          obtain ⟨contents, _, accepted⟩ := bind_eq_ok.mp accepted
          cases result : parseRuntimeConfig parseJson _ contents with
          | error what =>
            rw [result] at accepted
            cases accepted
          | ok read =>
            rw [result] at accepted
            cases Except.ok.inj accepted
            exact ⟨_, contents, result⟩

namespace Program

/-- What holds of a program behind some events: its client has met events too,
and `stop` among them if the signal handler has run, as it does for the first
signal unless the loop is over. -/
structure Loops (first : Client) (events : List LoopEvent) (program : Program) : Prop where
  met : ∃ met : List ClientEvent, program.client = first.after met ∧ (program.signalWait = false ↔ .stop ∈ met)
  arrived : program.signalWait = false → .signal ∈ events
  handled : .signal ∈ events → program.signalWait = false ∨ program.isOver = true

namespace Loops

variable {first : Client} {events : List LoopEvent} {program : Program}

/-- The client meets an event other than a signal. -/
theorem other (loops : Loops first events program) (running : program.isOver = false) {event : LoopEvent}
    (noSignal : event ≠ .signal) :
    Loops first (events ++ [event]) { program with client := program.client.step event.met } := by
  obtain ⟨⟨met, same, stopped⟩, arrived, handled⟩ := loops
  have noStop : event.met ≠ .stop := by cases event <;> first | exact absurd rfl noSignal | simp [LoopEvent.met]
  refine ⟨⟨met ++ [event.met], ?_, ?_⟩, fun waited => List.mem_append_left _ (arrived waited), fun member => ?_⟩
  · rw [same, Client.after, Client.after, List.foldl_append, List.foldl_cons, List.foldl_nil]
  · rw [stopped]
    simp [Ne.symm noStop]
  · rcases List.mem_append.mp member with earlier | last
    · rcases handled earlier with waited | isOver
      · exact Or.inl waited
      · rw [running] at isOver
        cases isOver
    · exact absurd (List.mem_singleton.mp last).symm noSignal

theorem step (loops : Loops first events program) (event : LoopEvent) :
    Loops first (events ++ [event]) (program.step event) := by
  unfold Program.step
  split
  · rename_i isOver
    exact ⟨loops.met, fun waited => List.mem_append_left _ (loops.arrived waited), fun _ => Or.inr isOver⟩
  · rename_i running
    have running : program.isOver = false := by simpa using running
    cases event with
    | signal =>
      dsimp only
      split
      · obtain ⟨met, same, _⟩ := loops.met
        refine ⟨⟨met ++ [.stop], ?_, by simp⟩, fun _ => by simp, fun _ => Or.inl rfl⟩
        rw [same, Client.after, Client.after, List.foldl_append, List.foldl_cons, List.foldl_nil]
      · rename_i waited
        have waited : program.signalWait = false := by simpa using waited
        exact ⟨loops.met, fun _ => by simp, fun _ => Or.inl waited⟩
    | complete session index outcome => exact loops.other running (by simp)
    | deliver session index => exact loops.other running (by simp)
    | timerExpires index => exact loops.other running (by simp)
    | timerHandler index => exact loops.other running (by simp)

theorem after (first : Client) (events : List LoopEvent) :
    Loops first events (Program.after { client := first } events) := by
  induction events using List.reverseRecOn with
  | nil => exact ⟨⟨[], rfl, by simp [Program.after]⟩, nofun, nofun⟩
  | append_singleton events event ih =>
    rw [Program.after, List.foldl_append]
    exact ih.step event

end Loops

end Program

/-- How the program ends once it runs its event loop, whatever happens to it: no
exception ends it; it returns 1 just when a session has ended with a fatal error
before a signal, and 0 just when a signal has arrived before such an error and
all handlers have run. From the first signal on every session is closed. -/
theorem program_exit {parseJson : JsonParser} {process : Process} {arguments : List Bytes} {config : RuntimeConfig}
    (started : main parseJson process arguments = .run config) (sniConfigured : Bool) (clock : Nat → Time)
    (random : Nat → Fin 501) (events : List LoopEvent) :
    let program := (Program.start config sniConfigured clock random).after events
    program.threw = false ∧
      (program.exitCode = some 1 ↔ Fatal program.client.effects) ∧
      (program.exitCode = some 0 ↔
        ¬Fatal program.client.effects ∧ .signal ∈ events ∧ program.client.pendingHandlers = 0) ∧
      (∀ code, program.exitCode = some code → code = 0 ∨ code = 1) ∧
      (.signal ∈ events → ∀ session ∈ program.client.sessions, session.closed = true) := by
  intro program
  obtain ⟨environment, contents, accepted⟩ := accepted_of_run started
  have loops : Program.Loops (Client.start { config, sniConfigured, clock, random }) events program := .after _ events
  obtain ⟨⟨met, same, stop_iff⟩, arrived, handled⟩ := loops
  have lifecycle : Lifecycle (.stop ∈ met) program.client := by
    rw [same]
    exact ((Lifecycle.begins config sniConfigured clock random).after met).of_iff (or_iff_right id)
  have agrees : program.client.Agrees := by
    have start : (Client.start { config, sniConfigured, clock, random }).Agrees := rfl
    rw [same]
    exact Client.Agrees.kept.after start met
  have calm : program.threw = false := by
    have contained := exceptions_contained accepted sniConfigured clock random met
    rw [← same] at contained
    rw [Program.threw, List.any_eq_false]
    exact fun effect member => by simp [contained effect member]
  have fatal_iff := agrees.ioStopped_iff lifecycle
  have exit : program.exitCode = if program.returned then some program.client.exitCode else none := by
    rw [Program.exitCode, calm, if_neg Bool.false_ne_true]
  have signal_iff : program.client.ioStopped = false → (program.signalWait = false ↔ .signal ∈ events) := by
    refine fun running => ⟨arrived, fun member => ?_⟩
    rcases handled member with waited | isOver
    · exact waited
    · rw [Program.isOver, calm, Program.returned, running] at isOver
      simpa using (Bool.and_eq_true_iff.mp isOver).1
  have closed : program.client.stopping = true → ∀ session ∈ program.client.sessions, session.closed = true := by
    intro stopping session member
    obtain ⟨index, found⟩ := List.getElem?_of_mem member
    exact Client.closed_of_stopping lifecycle stopping found
  rw [exit, agrees, ← fatal_iff, Program.returned]
  cases stopped : program.client.ioStopped with
  | true =>
    refine ⟨calm, by simp, by simp, fun code same => ?_, fun _ => closed (lifecycle.io_stopped stopped)⟩
    exact Or.inr (Option.some.inj same).symm
  | false =>
    have waited := signal_iff stopped
    refine ⟨calm, ?_, ?_, fun code same => ?_, fun member => closed ?_⟩
    · simp
    · simp [waited]
    · refine Or.inl ?_
      by_contra other
      simp at same
      omega
    · exact lifecycle.stopping_iff.mpr (Or.inl (stop_iff.mp (waited.mpr member)))

/-- A signal before the first connection ends the program once the handler of
its timer has run. -/
theorem program_exit_signal :
    ((Program.start validConfig true (fun n => n) (fun _ => 0)).after [.signal, .timerHandler 0]).exitCode =
      some 0 := by
  have started : main parseEmptyObject exportingProcess [bytes "twitch-chatbot"] = .run validConfig := by decide +kernel
  refine (program_exit started true (fun n => n) (fun _ => 0) [.signal, .timerHandler 0]).2.2.1.mpr ⟨?_, ?_, ?_⟩
  · rintro ⟨effect, ⟨⟩, _⟩
  · exact List.mem_cons_self
  · rfl

end TwitchBot
