import TwitchBot.ConnectionStages

namespace TwitchBot

open Outbox Relation

/-- Some run of the connection leads to what the session is. -/
def Reaches (config : RuntimeConfig) (connection : Connection) (session : Session) : Prop :=
  ∃ reached, ReflTransGen Connection.Step connection reached ∧ Realizes config session reached

namespace Realizes

variable {config : RuntimeConfig} {session next : Session} {connection : Connection}

/-- The limiter and the clock do not count. -/
theorem plug (realizes : Realizes config session connection) (limiter : RateLimiter) (clock : Nat → Time) :
    Realizes config { session with limiter := limiter, clock := clock } connection :=
  ⟨realizes.closed, realizes.stages, realizes.pending, fun notOver => (realizes.untouched notOver).imp id
    (fun untouched => ⟨untouched.protocol, untouched.automation, untouched.assembler, untouched.outbound,
      untouched.idle, untouched.pending, untouched.trace⟩)⟩

/-- A session that is over stays where it has come. -/
theorem closes (realizes : Realizes config session connection) (closed : next.closed = true)
    (stages : stagesOf next.trace = stagesOf session.trace)
    (pending : next.stagesPending.Perm [connection.stage.operation] ∨ next.stagesPending = []) :
    Reaches config connection next := by
  obtain ⟨stage, isOver⟩ := connection
  have reached : Realizes config next ⟨stage, true⟩ :=
    ⟨closed, stages.trans realizes.stages, pending.imp List.perm_singleton.mp (fun none => ⟨rfl, none⟩),
      fun isOpen => absurd isOpen (by simp)⟩
  cases isOver with
  | true => exact ⟨_, .refl, reached⟩
  | false => exact ⟨_, .single (.closes stage), reached⟩

/-- Whatever leaves the connection alone either ends the session or leaves it where it is. -/
theorem steady (realizes : Realizes config session connection)
    (steady : Steady session.toOutbox next.toOutbox)
    (untouched : next.closed = false → connection.stage.IsListening ∨ Untouched config connection.stage next) :
    Reaches config connection next := by
  cases closed : next.closed with
  | true =>
    refine realizes.closes closed steady.stages ?_
    rcases realizes.pending with single | ⟨_, none⟩
    · exact Or.inl (single ▸ steady.pending)
    · exact Or.inr (List.Perm.eq_nil (none ▸ steady.pending))
  | false =>
    have isOpen : session.closed = false := by
      by_contra wasClosed
      rw [steady.closed (by simpa using wasClosed)] at closed
      cases closed
    have notOver : connection.isOver = false := realizes.closed.symm.trans isOpen
    refine ⟨connection, .refl, closed.trans notOver.symm, steady.stages.trans realizes.stages, ?_,
      fun _ => untouched closed⟩
    rcases realizes.pending with single | ⟨isOver, _⟩
    · exact Or.inl (List.perm_singleton.mp (single ▸ steady.pending))
    · rw [notOver] at isOver
      cases isOver

/-- The operation of a stage is pending only at its stage. -/
theorem taken (realizes : Realizes config session connection) {io : IoContext Operation Outcome} {index : Nat}
    {operation : Operation} {outcome : Outcome} (isStage : operation.isStage = true)
    (found : session.io.take index = some ((operation, outcome), io)) :
    operation = connection.stage.operation ∧ io.pending.filter Operation.isStage = [] := by
  have perm := (IoContext.pending_take found).filter Operation.isStage
  rw [List.filter_cons_of_pos isStage] at perm
  rcases realizes.pending with single | ⟨_, none⟩
  · rw [stagesPending] at single
    rw [single] at perm
    have same := List.singleton_perm.mp perm
    exact ⟨(List.cons.inj same).1.symm, (List.cons.inj same).2.symm⟩
  · rw [stagesPending] at none
    rw [none] at perm
    exact absurd perm (List.not_perm_nil_cons _ _)

/-- The handler of a stage ends the session. -/
theorem falls (realizes : Realizes config session connection) {io : IoContext Operation Outcome}
    (none : io.pending.filter Operation.isStage = [])
    (steady : Steady { session with io := io }.toOutbox next.toOutbox) (closed : next.closed = true) :
    Reaches config connection next :=
  realizes.closes closed steady.stages (Or.inr (List.Perm.eq_nil (none ▸ steady.pending)))

/-- The handler of a stage starts the operation of the next. -/
theorem launches {before : Session} (stage : Stage) (nonePending : before.stagesPending = [])
    (stages : stagesOf before.trace = connection.stage.started)
    (closed : before.closed = connection.isOver)
    (started : stage.started = connection.stage.started ++ [stage.operation])
    (step : Connection.Step connection ⟨stage, connection.isOver⟩)
    (untouched : connection.isOver = false →
      stage.IsListening ∨ Untouched config stage (before.onOutbox (·.launch stage.operation))) :
    Reaches config connection (before.onOutbox (·.launch stage.operation)) := by
  refine ⟨⟨stage, connection.isOver⟩, .single step, closed, ?_, Or.inl ?_, untouched⟩
  · have grown : stagesOf (before.onOutbox (·.launch stage.operation)).trace =
        stagesOf before.trace ++ (Effect.stage (.started stage.operation)).toList := stagesOf_concat _ _
    rw [grown, stages, started, Effect.stage, if_pos stage.isStage_operation, Option.toList_some]
  · have perm := (IoContext.pending_start before.io stage.operation).filter Operation.isStage
    rw [List.filter_cons_of_pos stage.isStage_operation] at perm
    rw [stagesPending] at nonePending
    rw [nonePending] at perm
    exact List.perm_singleton.mp perm

/-- The last call of a handler is that of `read`. -/
theorem reads (realizes : Realizes config session connection) {io : IoContext Operation Outcome}
    (none : io.pending.filter Operation.isStage = []) {before : Session}
    (steady : Steady { session with io := io }.toOutbox before.toOutbox) (reads : Nat)
    (started : (Stage.listening reads).started = connection.stage.started ++ [.read])
    (step : Connection.Step ⟨connection.stage, false⟩ ⟨.listening reads, false⟩) :
    Reaches config connection before.read := by
  cases closed : before.closed with
  | true =>
    rw [Session.read, if_pos closed]
    exact realizes.falls none steady closed
  | false =>
    have isOpen : session.closed = false := by
      by_contra wasClosed
      rw [steady.closed (by simpa using wasClosed)] at closed
      cases closed
    have notOver : connection.isOver = false := realizes.closed.symm.trans isOpen
    rw [Session.read, if_neg (by simp [closed])]
    refine launches (.listening reads) (List.Perm.eq_nil (none ▸ steady.pending))
      (steady.stages.trans realizes.stages) (closed.trans notOver.symm) started ?_ (fun _ => Or.inl ⟨reads, rfl⟩)
    obtain ⟨stage, isOver⟩ := connection
    cases notOver
    exact step

end Realizes

namespace Untouched

variable {config : RuntimeConfig} {session : Session} {stage : Stage}

/-- Nothing is pending but the operation of the stage. -/
theorem alone (untouched : Untouched config stage session) {io : IoContext Operation Outcome} {index : Nat}
    {operation : Operation} {outcome : Outcome} (found : session.io.take index = some ((operation, outcome), io)) :
    operation = stage.operation ∧ io.pending = [] := by
  have perm := IoContext.pending_take found
  rw [untouched.pending] at perm
  have same := List.singleton_perm.mp perm
  exact ⟨(List.cons.inj same).1.symm, (List.cons.inj same).2.symm⟩

/-- The next stage of a session that has done nothing else. -/
theorem launch (untouched : Untouched config stage session) {io : IoContext Operation Outcome} {index : Nat}
    {operation : Operation} {outcome : Outcome} (found : session.io.take index = some ((operation, outcome), io))
    (later : Stage) (started : later.started = stage.started ++ [later.operation]) :
    Untouched config later ({ session with io := io }.onOutbox (·.launch later.operation)) := by
  refine ⟨untouched.protocol, untouched.automation, untouched.assembler, untouched.outbound, untouched.idle, ?_, ?_⟩
  · have perm := IoContext.pending_start io later.operation
    rw [(untouched.alone found).2] at perm
    exact List.perm_singleton.mp perm
  · show session.trace ++ [.started later.operation] = later.started.map Effect.started
    rw [untouched.trace, started, List.map_append, List.map_singleton]

end Untouched

namespace Realizes

variable {config : RuntimeConfig} {session : Session} {connection : Connection}

/-- The handlers of the first three stages end the session or go on to the next stage. -/
theorem onResolve (realizes : Realizes config session connection) {io : IoContext Operation Outcome} {index : Nat}
    {outcome : Outcome} (found : session.io.take index = some ((.resolve, outcome), io)) :
    Reaches config connection (Session.onResolve { session with io := io } outcome) := by
  obtain ⟨same, none⟩ := realizes.taken rfl found
  cases outcome with
  | failure what => exact realizes.falls none (finish_steady _ _ _) (finish_closed _ _ _)
  | success data =>
    obtain ⟨stage, isOver⟩ := connection
    cases stage with
    | resolving =>
      refine launches .connecting none realizes.stages realizes.closed rfl (.resolved isOver) ?_
      intro notOver
      rcases realizes.untouched notOver with ⟨reads, listening⟩ | untouched
      · cases listening
      · exact Or.inr (untouched.launch found .connecting rfl)
    | _ => cases same

theorem onConnect (realizes : Realizes config session connection) {io : IoContext Operation Outcome} {index : Nat}
    {outcome : Outcome} (found : session.io.take index = some ((.connect, outcome), io)) :
    Reaches config connection (Session.onConnect { session with io := io } outcome) := by
  obtain ⟨same, none⟩ := realizes.taken rfl found
  cases outcome with
  | failure what => exact realizes.falls none (finish_steady _ _ _) (finish_closed _ _ _)
  | success data =>
    obtain ⟨stage, isOver⟩ := connection
    cases stage with
    | connecting =>
      simp only [Session.onConnect, Session.handshake]
      split
      · refine launches .handshaking none realizes.stages realizes.closed rfl (.connected isOver) ?_
        intro notOver
        rcases realizes.untouched notOver with ⟨reads, listening⟩ | untouched
        · cases listening
        · exact Or.inr (untouched.launch found .handshaking rfl)
      · exact realizes.falls none (finish_steady _ _ _) (finish_closed _ _ _)
    | _ => cases same

/-- The handler of the handshake logs in and starts to listen, unless the session is over. -/
theorem onHandshake (valid : config.Valid) (realizes : Realizes config session connection)
    {io : IoContext Operation Outcome} {index : Nat} {outcome : Outcome}
    (found : session.io.take index = some ((.handshake, outcome), io)) :
    Reaches config connection (Session.onHandshake { session with io := io } outcome) := by
  obtain ⟨same, none⟩ := realizes.taken rfl found
  cases outcome with
  | failure what => exact realizes.falls none (finish_steady _ _ _) (finish_closed _ _ _)
  | success data =>
    obtain ⟨stage, isOver⟩ := connection
    cases stage with
    | handshaking =>
      simp only [Session.onHandshake, Session.login]
      split
      · rename_i what thrown
        refine realizes.falls none (emit_steady _ rfl) ?_
        show session.closed = true
        by_contra isOpen
        have notOver : isOver = false := realizes.closed.symm.trans (by simpa using isOpen)
        rcases realizes.untouched notOver with ⟨reads, listening⟩ | untouched
        · cases listening
        · obtain ⟨returned, answered, _⟩ :=
              begin_spoken valid (show SessionProtocol.config { config } = config from rfl)
          have fresh : ({ session with io := io } : Session).protocol = { config } := untouched.protocol
          rw [fresh, answered] at thrown
          cases thrown
      · rename_i actions _
        have applied := (steady_keptByLines { session with io := io }.toOutbox).applyActions
          { session with io := io, protocol := session.protocol.begin.2 } actions (.refl _)
        exact realizes.reads none (applied.trans (Session.startAuthTimeout_steady _)) 0 rfl .secured
    | _ => cases same

/-- The handler of a read handles what was received and reads on. -/
theorem onRead (realizes : Realizes config session connection) {io : IoContext Operation Outcome} {index : Nat}
    {outcome : Outcome} (found : session.io.take index = some ((.read, outcome), io)) :
    Reaches config connection (Session.onRead { session with io := io } outcome) := by
  obtain ⟨same, none⟩ := realizes.taken rfl found
  cases outcome with
  | failure what => exact realizes.falls none (finish_steady _ _ _) (finish_closed _ _ _)
  | success data =>
    obtain ⟨stage, isOver⟩ := connection
    cases stage with
    | listening reads =>
      have received := (steady_keptByLines { session with io := io }.toOutbox).receive
        { session with io := io } data (.refl _)
      simp only [Session.onRead]
      split
      · rename_i result
        rw [result] at received
        exact realizes.falls none (received.trans (finish_steady _ _ _)) (finish_closed _ _ _)
      · rename_i result
        rw [result] at received
        exact realizes.falls none received (Session.closed_of_receive result)
      · rename_i result
        rw [result] at received
        refine realizes.reads none received (reads + 1) ?_ (.received reads)
        simp [Stage.started, List.replicate_succ']
    | _ => cases same

/-- A handler that is not of a stage may end the session, once it listens. -/
theorem aside (realizes : Realizes config session connection) {io : IoContext Operation Outcome} {index : Nat}
    {operation : Operation} {outcome : Outcome} (other : operation.isStage = false)
    (found : session.io.take index = some ((operation, outcome), io)) {next : Session}
    (steady : Steady { session with io := io }.toOutbox next.toOutbox) : Reaches config connection next := by
  have perm := (IoContext.pending_take found).filter Operation.isStage
  rw [List.filter_cons_of_neg (by simp [other])] at perm
  have passed : Steady session.toOutbox { session with io := io }.toOutbox := ⟨id, perm.symm, rfl⟩
  refine realizes.steady (passed.trans steady) (fun isOpen => ?_)
  have wasOpen : session.closed = false := by
    by_contra wasClosed
    rw [steady.closed (by simpa using wasClosed)] at isOpen
    cases isOpen
  refine (realizes.untouched (realizes.closed.symm.trans wasOpen)).imp id (fun untouched => ?_)
  have isStage := connection.stage.isStage_operation
  rw [← (untouched.alone found).1, other] at isStage
  cases isStage

theorem deliver (valid : config.Valid) (realizes : Realizes config session connection) (index : Nat) :
    Reaches config connection (session.deliver index) := by
  unfold Session.deliver
  split
  · exact ⟨connection, .refl, realizes⟩
  · rename_i operation outcome io found
    cases operation with
    | resolve => exact realizes.onResolve found
    | connect => exact realizes.onConnect found
    | handshake => exact realizes.onHandshake valid found
    | authWait deadline => exact realizes.aside rfl found (Session.onAuthTimer_steady { session with io := io } outcome)
    | read => exact realizes.onRead found
    | writeWait deadline => exact realizes.aside rfl found (onWriteTimer_steady _ outcome)
    | write data => exact realizes.aside rfl found (onWrite_steady _ outcome)

theorem complete (realizes : Realizes config session connection) (index : Nat) (outcome : Outcome) :
    Reaches config connection (session.complete index outcome) := by
  rcases session.complete_cases index outcome with same | ⟨_, _, _, completed⟩
  · rw [same]
    exact ⟨connection, .refl, realizes⟩
  · have perm := IoContext.pending_complete session.io index outcome
    have steady : Steady session.toOutbox { session.toOutbox with io := session.io.complete index outcome } :=
      ⟨id, perm.filter _, rfl⟩
    rw [completed]
    refine realizes.steady steady (fun isOpen => ?_)
    refine (realizes.untouched (realizes.closed.symm.trans isOpen)).imp id (fun untouched => ?_)
    exact ⟨untouched.protocol, untouched.automation, untouched.assembler, untouched.outbound, untouched.idle,
      List.perm_singleton.mp (untouched.pending ▸ perm), untouched.trace⟩

end Realizes

/-- Every event that the session's own code makes is some steps of its connection. -/
theorem connection_forward {config : RuntimeConfig} (valid : config.Valid) :
    Simulation.Forward Session.step (fun event => ∀ message, event ≠ .enqueue message) Connection.Step
      (Realizes config) := by
  intro session connection event realizes own
  cases event with
  | complete index outcome => exact realizes.complete index outcome
  | deliver index => exact realizes.deliver valid index
  | enqueue message => exact absurd rfl (own message)
  | stop =>
    refine realizes.steady (finish_steady _ _ _) (fun isOpen => ?_)
    rw [show (session.step .stop).closed = true from finish_closed _ _ _] at isOpen
    cases isOpen

/-- A new session resolves the host name. -/
theorem realizes_start (config : RuntimeConfig) (limiter : RateLimiter) (clock : Nat → Time) (sniConfigured : Bool) :
    Realizes config (Session.new config limiter clock sniConfigured).start ⟨.resolving, false⟩ :=
  ⟨rfl, rfl, Or.inl rfl, fun _ => Or.inr ⟨rfl, rfl, rfl, rfl, rfl, rfl, rfl⟩⟩

/-- Every run of a session with an accepted configuration is a run of its
connection: the stages are started in their order and each once, an open
session waits for exactly one of them, a closed one for at most one, and while it
is open nothing is queued or written before the handshake has succeeded. -/
theorem session_refines_connection {parseJson : JsonParser} {environment : Environment} {botJson : Bytes}
    {config : RuntimeConfig} (accepted : parseRuntimeConfig parseJson environment botJson = .ok config)
    (limiter : RateLimiter) (clock : Nat → Time) (sniConfigured : Bool) (events : List SessionEvent)
    (own : ∀ message, .enqueue message ∉ events) :
    ∃ connection, ReflTransGen Connection.Step ⟨.resolving, false⟩ connection ∧
      Realizes config ((Session.new config limiter clock sniConfigured).start.after events) connection := by
  refine (connection_forward (parseRuntimeConfig_ok accepted)).run
    (realizes_start config limiter clock sniConfigured) (fun event member message same => ?_)
  rw [same] at member
  exact own message member

/-- A session whose host name was resolved connects. -/
theorem session_refines_connection_resolved :
    ∃ connection, ReflTransGen Connection.Step ⟨.resolving, false⟩ connection ∧
      Realizes validConfig ((Session.new validConfig {} (fun n => n) true).start.after
        [.complete 0 (.success []), .deliver 0]) connection :=
  session_refines_connection validConfig_accepted {} (fun n => n) true _ (by simp)

end TwitchBot
