import TwitchBot.ClosedSession
import TwitchBot.ConnectionRuns
import TwitchBot.Hearing
import TwitchBot.Wakeup

namespace TwitchBot

open Framing IrcStreamAssembler Outbox SessionProtocol

/-- The protocol object of a session that has logged in. -/
def opened (config : RuntimeConfig) : SessionProtocol := (SessionProtocol.begin { config }).2

/-- The messages in the complete lines of a stream. -/
def messagesIn (stream : Bytes) : List IrcMessage :=
  (frames cr lf stream).1.filterMap (fun line => (parseIrcMessage line).toOption)

theorem messagesIn_append (stream data : Bytes) :
    messagesIn (stream ++ data) = messagesIn stream ++ messagesIn ((frames cr lf stream).2 ++ data) := by
  rw [messagesIn, frames_append, List.filterMap_append]
  rfl

/-- The requests of a protocol object that logs in and is then given messages. -/
def requestsOf (config : RuntimeConfig) (messages : List IrcMessage) : List Output :=
  requested (SessionProtocol.actions { config } (loginRun messages))

theorem requestsOf_append (config : RuntimeConfig) (earlier later : List IrcMessage) :
    requestsOf config (earlier ++ later) =
      requestsOf config earlier ++ requestsTo ((opened config).after (earlier.map .handle)) later := by
  have joined : loginRun (earlier ++ later) = loginRun earlier ++ later.map .handle := by simp [loginRun]
  rw [requestsOf, joined, actions_concat, requested, List.filterMap_append]
  rfl

/-- What the handler of a read is given. -/
def SessionEvent.bytesRead (session : Session) : SessionEvent → Bytes
  | .deliver index =>
    match session.io.take index with
    | some ((.read, .success data), _) => data
    | _ => []
  | _ => []

/-- The stream that a session receives in the course of some events. -/
def Session.stream (session : Session) : List SessionEvent → Bytes
  | [] => []
  | event :: events => event.bytesRead session ++ (session.step event).stream events

theorem Session.stream_concat (session : Session) (events : List SessionEvent) (event : SessionEvent) :
    session.stream (events ++ [event]) = session.stream events ++ event.bytesRead (session.after events) := by
  induction events generalizing session with
  | nil => exact List.append_nil _
  | cons first events ih =>
    rw [List.cons_append, stream, ih, stream, List.append_assoc]
    rfl

/-- A session that has understood a stream: its members are functions of the
stream and of the times at which the automation heard the admitted messages. -/
structure Converses (config : RuntimeConfig) (stream : Bytes) (heard : List TimedMessage) (session : Session) :
    Prop where
  fits : Fits stream
  assembler : session.assembler = ⟨(frames cr lf stream).2⟩
  protocol : session.protocol = (opened config).after ((messagesIn stream).map .handle)
  all : heard.map Prod.fst = admitted (opened config) (messagesIn stream)
  automation : session.automation = Transducer.after AutomationEngine.step (.new config.bot) heard

theorem Converses.of_io {config : RuntimeConfig} {stream : Bytes} {heard : List TimedMessage} {session : Session}
    (converses : Converses config stream heard session) (io : IoContext Operation Outcome) :
    Converses config stream heard { session with io := io } :=
  ⟨converses.fits, converses.assembler, converses.protocol, converses.all, converses.automation⟩

/-- What holds of a session that receives a stream. -/
structure Listens (config : RuntimeConfig) (stream : Bytes) (heard : List TimedMessage) (session : Session) :
    Prop where
  offered : offers session.trace = said (.new config.bot) heard
  ordered : (heard.map Prod.snd).Pairwise (· ≤ ·)
  past : ∀ time ∈ heard.map Prod.snd, time ≤ session.now
  inside : heard.map Prod.fst <+: admitted (opened config) (messagesIn stream)
  early : Operation.read ∉ stagesOf session.trace → stream = []
  followed : Heeded (requestsOf config (messagesIn stream))
    (session.closed = false ∧ Operation.read ∈ stagesOf session.trace) [] (outputs session.trace)
  whole : session.closed = false → Operation.read ∈ stagesOf session.trace → Converses config stream heard session

/-- Messages that the automation hears in the course of an event: each at a
reading that the clock gives then, and none unless it has heard all before. -/
structure HeardNow (config : RuntimeConfig) (stream : Bytes) (heard later : List TimedMessage)
    (session next : Session) : Prop where
  times : Readings session.clock next.clock (later.map Prod.snd)
  caughtUp : later ≠ [] → heard.map Prod.fst = admitted (opened config) (messagesIn stream)

theorem HeardNow.none {config : RuntimeConfig} {stream : Bytes} {heard : List TimedMessage} {session next : Session}
    (elapsed : Elapsed session.clock next.clock) : HeardNow config stream heard [] session next :=
  ⟨.none elapsed, fun some => absurd rfl some⟩

/-- What the conversation does not notice. -/
structure Aside (session next : Session) : Prop where
  offered : offers next.trace = offers session.trace
  followed : outputs next.trace = outputs session.trace
  stages : Operation.read ∈ stagesOf next.trace ↔ Operation.read ∈ stagesOf session.trace
  closed : session.closed = true → next.closed = true
  protocol : next.protocol = session.protocol
  automation : next.automation = session.automation
  assembler : next.assembler = session.assembler

namespace Aside

theorem of_outbox (session : Session) (act : Outbox → Outbox) (steady : Steady session.toOutbox (act session.toOutbox))
    (silent : Silences session.toOutbox (act session.toOutbox))
    (offered : offers (act session.toOutbox).trace = offers session.trace) : Aside session (session.onOutbox act) := by
  refine ⟨offered, silent.outputs, ?_, steady.closed, rfl, rfl, rfl⟩
  rw [show stagesOf (session.onOutbox act).trace = stagesOf session.trace from steady.stages]

theorem finish (session : Session) (reason : SessionEndReason) (message : Bytes) :
    Aside session (session.finish reason message) :=
  .of_outbox session (·.finish reason message) (finish_steady _ _ _) (finish_silences _ _ _) (finish_offers _ _ _)

theorem launch (session : Session) {operation : Operation} (other : operation ≠ .read) :
    Aside session (session.onOutbox (·.launch operation)) := by
  have silent : operation.isRead = false := by cases operation <;> simp_all [Operation.isRead]
  refine ⟨emit_offers { session.toOutbox with io := session.io.start operation } (.started operation) rfl,
    (launch_silences session.toOutbox silent).outputs, ?_, id, rfl, rfl, rfl⟩
  have grown : stagesOf (session.onOutbox (·.launch operation)).trace =
      stagesOf session.trace ++ (Effect.stage (.started operation)).toList := stagesOf_concat _ _
  rw [grown, List.mem_append, Effect.stage]
  split
  · simpa using fun same => absurd same.symm other
  · simp

/-- The handlers that are not of the handshake or of a read. -/
theorem dispatch (session : Session) {operation : Operation} (notHandshake : operation ≠ .handshake)
    (notRead : operation ≠ .read) (outcome : Outcome) : Aside session (session.dispatch operation outcome) := by
  cases operation with
  | resolve =>
    cases outcome with
    | failure what => exact finish session _ _
    | success data => exact launch session (by simp)
  | connect =>
    cases outcome with
    | failure what => exact finish session _ _
    | success data =>
      simp only [Session.dispatch, Session.onConnect, Session.handshake]
      split
      · exact launch session (by simp)
      · exact finish session _ _
  | handshake => exact absurd rfl notHandshake
  | authWait deadline =>
    simp only [Session.dispatch]
    cases outcome with
    | failure what => exact ⟨rfl, rfl, Iff.rfl, id, rfl, rfl, rfl⟩
    | success data =>
      simp only [Session.onAuthTimer]
      split
      · exact ⟨rfl, rfl, Iff.rfl, id, rfl, rfl, rfl⟩
      · exact finish session _ _
  | read => exact absurd rfl notRead
  | writeWait deadline =>
    exact .of_outbox session (·.onWriteTimer outcome) (onWriteTimer_steady _ _) (onWriteTimer_silences _ _)
      ((onWriteTimer_schedules _ outcome).filterMap Effect.offer_overlooks)
  | write data =>
    refine .of_outbox session (·.onWrite outcome) (onWrite_steady _ _) (onWrite_silences _ _) ?_
    cases outcome with
    | failure what => exact finish_offers _ _ _
    | success bytes => exact (onWritten_schedules _).filterMap Effect.offer_overlooks

end Aside

namespace Listens

variable {config : RuntimeConfig} {stream : Bytes} {heard : List TimedMessage} {session next : Session}

theorem aside (listens : Listens config stream heard session) (monotone : MonotoneClock session.clock)
    (elapsed : Elapsed session.clock next.clock) (quiet : Aside session next) : Listens config stream heard next := by
  have wasOpen (isOpen : next.closed = false) : session.closed = false := by
    by_contra wasClosed
    rw [quiet.closed (by simpa using wasClosed)] at isOpen
    cases isOpen
  refine ⟨quiet.offered.trans listens.offered, listens.ordered,
    fun time member => (listens.past time member).trans (monotone.le elapsed), listens.inside,
    fun none => listens.early (fun reads => none (quiet.stages.mpr reads)), ?_, fun isOpen reads => ?_⟩
  · rw [quiet.followed]
    exact listens.followed.mono (fun goes => ⟨wasOpen goes.1, quiet.stages.mp goes.2⟩)
  obtain ⟨fits, assembler, protocol, all, automation⟩ := listens.whole (wasOpen isOpen) (quiet.stages.mp reads)
  exact ⟨fits, quiet.assembler.trans assembler, quiet.protocol.trans protocol, all, quiet.automation.trans automation⟩

/-- An open session that reads has done exactly what was requested. -/
theorem answered (listens : Listens config stream heard session) (isOpen : session.closed = false)
    (reads : Operation.read ∈ stagesOf session.trace) :
    outputs session.trace = requestsOf config (messagesIn stream) := by
  obtain ⟨taken, late, same, _, whole⟩ := listens.followed
  obtain ⟨rfl, rfl⟩ := whole ⟨isOpen, reads⟩
  simpa using same

/-- What was followed of requests that are not notifications was requested. -/
theorem wasRequested (listens : Listens config stream heard session) {kind : OutboundKind} {data : Bytes}
    (output : .line kind data ∈ outputs session.trace) : .line kind data ∈ requestsOf config (messagesIn stream) := by
  obtain ⟨taken, late, same, inside, _⟩ := listens.followed
  rw [same] at output
  exact inside.subset (by simpa [List.mem_replicate] using output)

/-- More is received, and the session does not go on. -/
theorem cut (listens : Listens config stream heard session) (monotone : MonotoneClock session.clock)
    (elapsed : Elapsed session.clock next.clock) (offered : offers next.trace = offers session.trace) {late : Nat}
    (followed : outputs next.trace = outputs session.trace ++ List.replicate late .ready)
    (reads : Operation.read ∈ stagesOf next.trace) (closed : next.closed = true) (data : Bytes) :
    Listens config (stream ++ data) heard next := by
  refine ⟨offered.trans listens.offered, listens.ordered,
    fun time member => (listens.past time member).trans (monotone.le elapsed), ?_,
    fun none => absurd reads none, ?_, fun isOpen => ?_⟩
  · rw [messagesIn_append, admitted_append]
    exact listens.inside.trans (List.prefix_append _ _)
  · rw [messagesIn_append, requestsOf_append, followed]
    have lagging : Heeded (requestsOf config (messagesIn stream)) False [] (outputs session.trace ++ _) :=
      listens.followed.lag late id
    exact lagging.widen (by simp [closed])
  · rw [closed] at isOpen
    cases isOpen

/-- Whatever a closed session is given, its queue is offered nothing, and nothing
is requested of it but to report that the session is ready. -/
theorem closed_offers (given : List Offer) (done : List Output) :
    KeptByLines (fun outbox => outbox.closed = true ∧ offers outbox.trace = given ∧
      ∃ late, outputs outbox.trace = done ++ List.replicate late .ready) where
  tick _ holds := holds
  enqueue _ message holds := by rwa [enqueue_of_closed holds.1 message]
  finish _ reason message _ holds := by rwa [Outbox.finish_of_closed holds.1]
  cancel _ holds := holds
  ready outbox holds := by
    obtain ⟨closed, offered, late, followed⟩ := holds
    refine ⟨closed, (emit_offers outbox .ready rfl).trans offered, late + 1, ?_⟩
    rw [emit, outputs_concat, followed, List.append_assoc, List.replicate_succ']
    rfl

theorem read_offers (session : Session) :
    offers session.read.trace = offers session.trace ∧ outputs session.read.trace = outputs session.trace := by
  unfold Session.read
  split
  · exact ⟨rfl, rfl⟩
  · exact ⟨emit_offers { session.toOutbox with io := session.io.start .read } (.started .read) rfl,
      (emit_silences { session.toOutbox with io := session.io.start .read } rfl).outputs⟩

/-- A closed session reads nothing any more. -/
theorem onRead_closed (closed : session.closed = true) (outcome : Outcome) :
    (session.onRead outcome).closed = true ∧ offers (session.onRead outcome).trace = offers session.trace ∧
      ∃ late, outputs (session.onRead outcome).trace = outputs session.trace ++ List.replicate late .ready := by
  have unchanged : outputs session.trace = outputs session.trace ++ List.replicate 0 .ready := by simp
  cases outcome with
  | failure what =>
    rw [Session.onRead, Session.fail, Session.finish, Session.onOutbox, Outbox.finish_of_closed closed]
    exact ⟨closed, rfl, 0, unchanged⟩
  | success data =>
    have received := (closed_offers (offers session.trace) (outputs session.trace)).receive session data
      ⟨closed, rfl, 0, unchanged⟩
    simp only [Session.onRead]
    split
    · rename_i result
      rw [result] at received
      rwa [Session.fail, Session.finish, Session.onOutbox, Outbox.finish_of_closed received.1]
    · rename_i result
      rwa [result] at received
    · rename_i result
      rw [result] at received
      rwa [Session.read, if_pos received.1]

theorem login_ok {actions : List ProtocolAction} (answered : session.protocol.begin.1 = .ok actions) :
    session.login = (actions.foldl Session.applyAction
      { session with protocol := session.protocol.begin.2 }).startAuthTimeout.read := by
  unfold Session.login
  dsimp only
  rw [answered]

theorem read_members (session : Session) :
    session.read.automation = session.automation ∧ session.read.assembler = session.assembler := by
  unfold Session.read
  split <;> exact ⟨rfl, rfl⟩

theorem login_offers (session : Session) : offers session.login.trace = offers session.trace := by
  cases answered : session.protocol.begin.1 with
  | error what =>
    unfold Session.login
    dsimp only
    rw [answered]
    exact emit_offers session.toOutbox _ rfl
  | ok actions =>
    rw [login_ok answered, (read_offers _).1]
    refine (emit_offers _ _ rfl : offers (Outbox.launch _ (.authWait _)).trace = _).trans ?_
    exact Session.applyActions_offers _
      (fun action member => call_notChat (show (session.protocol.call .begin).1 = _ from answered) member)

/-- The login of a session that has done nothing else opens the conversation. -/
theorem login_converses (valid : config.Valid) (protocol : session.protocol = { config })
    (automation : session.automation = .new config.bot) (assembler : session.assembler = .empty) :
    Converses config [] [] session.login := by
  obtain ⟨actions, answered, _⟩ := begin_spoken valid (show SessionProtocol.config { config } = config from rfl)
  rw [← protocol] at answered
  have members := Session.applyActions_members { session with protocol := session.protocol.begin.2 } actions
  have started := Session.applyActions_protocol { session with protocol := session.protocol.begin.2 } actions
  rw [login_ok answered]
  obtain ⟨automation', assembler'⟩ := read_members
    (actions.foldl Session.applyAction { session with protocol := session.protocol.begin.2 }).startAuthTimeout
  refine ⟨fits_nil, ?_, ?_, rfl, ?_⟩
  · exact assembler'.trans (members.2.trans assembler)
  · rw [Session.read_protocol]
    exact started.trans (by rw [protocol]; rfl)
  · exact automation'.trans (members.1.trans automation)

theorem onHandshake (valid : config.Valid) {connection : Connection} (realizes : Realizes config session connection)
    (listens : Listens config stream heard session) (monotone : MonotoneClock session.clock)
    {io : IoContext Operation Outcome} {index : Nat} {outcome : Outcome}
    (found : session.io.take index = some ((.handshake, outcome), io))
    (elapsed : Elapsed session.clock (Session.onHandshake { session with io := io } outcome).clock) :
    Listens config stream heard (Session.onHandshake { session with io := io } outcome) := by
  obtain ⟨same, _⟩ := realizes.taken rfl found
  cases outcome with
  | failure what =>
    refine listens.aside monotone elapsed ?_
    have quiet := Aside.finish { session with io := io } .networkError (bytes ("TLS handshake failed: " ++ what))
    exact ⟨quiet.offered, quiet.followed, quiet.stages, quiet.closed, quiet.protocol, quiet.automation,
      quiet.assembler⟩
  | success data =>
    have notReading : Operation.read ∉ stagesOf session.trace := by
      rw [realizes.stages]
      cases stage : connection.stage <;> rw [stage] at same
      all_goals simp_all [Stage.operation, Stage.started]
    obtain rfl := listens.early notReading
    obtain rfl : heard = [] := by
      have none := listens.inside
      rw [show admitted (opened config) (messagesIn []) = [] from rfl] at none
      exact List.map_eq_nil_iff.mp (List.prefix_nil.mp none)
    have follows := (Session.login_relays { session with io := io }).follows
    have offered := (login_offers { session with io := io }).trans listens.offered
    rcases Bool.eq_false_or_eq_true session.closed with closed | isOpen
    · obtain ⟨stays, late, followed⟩ := follows.closed closed
      have isOver (isOpen : (Session.onHandshake { session with io := io } (.success data)).closed = false) :
          False := by
        cases isOpen.symm.trans stays
      refine ⟨offered, .nil, by simp, List.nil_prefix, fun _ => rfl, ?_, fun isOpen => (isOver isOpen).elim⟩
      rw [show outputs (Session.onHandshake { session with io := io } (.success data)).trace = _ from followed]
      exact listens.followed.lag late (fun goes => isOver goes.1)
    · rcases realizes.untouched (realizes.closed.symm.trans isOpen) with ⟨reads, listening⟩ | untouched
      · rw [listening] at same
        cases same
      · have silent : outputs session.trace = [] := by
          rw [untouched.trace, outputs, List.filterMap_map]
          exact List.filterMap_eq_nil_iff.mpr (fun _ _ => rfl)
        have greeting : requested (session.protocol.actions [.begin]) = requestsOf config (messagesIn []) := by
          rw [untouched.protocol]
          rfl
        have followed : Heeded (requested (session.protocol.actions [.begin])) _ (outputs session.trace)
            (outputs (Session.onHandshake { session with io := io } (.success data)).trace) := follows.followed
        rw [greeting, silent] at followed
        exact ⟨offered, .nil, by simp, List.nil_prefix, fun _ => rfl, followed.mono And.left,
          fun _ _ => login_converses valid untouched.protocol untouched.automation untouched.assembler⟩

/-- What an open session receives is pushed on its rest, and its lines are handled. -/
theorem receive_hears (converses : Converses config stream heard session) (isOpen : session.closed = false)
    {data : Bytes} (fit : data.length ≤ 4096) :
    (∃ what assembler, session.receive data = (.error what, { session with assembler := assembler })) ∨
      (Fits (stream ++ data) ∧ ∃ later, Hears (messagesIn ((frames cr lf stream).2 ++ data)) later
        (∃ value, (session.receive data).1 = .ok value)
        { session with assembler := ⟨(frames cr lf ((frames cr lf stream).2 ++ data)).2⟩ }
        (session.receive data).2) := by
  have room : session.assembler.buffer.length + data.length ≤ maxIrcBufferBytes := by
    rw [converses.assembler]
    exact room_of_fits converses.fits fit
  have fits_iff : Fits (stream ++ data) ↔ Fits (session.assembler.buffer ++ data) := by
    rw [fits_append, converses.assembler]
    exact and_iff_right converses.fits.1
  by_cases fits : Fits (stream ++ data)
  · have pushed := push_fits session.assembler room (fits_iff.mp fits)
    refine Or.inr ⟨fits, ?_⟩
    rw [converses.assembler] at pushed
    obtain ⟨later, hears⟩ := @Session.handleLines_hears
      { session with assembler := ⟨(frames cr lf ((frames cr lf stream).2 ++ data)).2⟩ } isOpen
      (frames cr lf ((frames cr lf stream).2 ++ data)).1
    refine ⟨later, ?_⟩
    rw [Session.receive, converses.assembler, pushed]
    exact hears
  · have thrown := push_throws session.assembler room (fun fine => fits (fits_iff.mpr fine))
    refine Or.inl ⟨"IRC line exceeded its maximum size", (session.assembler.push data).2, ?_⟩
    unfold Session.receive
    have both : session.assembler.push data =
        (.error "IRC line exceeded its maximum size", (session.assembler.push data).2) := Prod.ext thrown rfl
    rw [both]

/-- The conversation goes on with what an open session understands of its data. -/
theorem grows (listens : Listens config stream heard session) (converses : Converses config stream heard session)
    (isOpen : session.closed = false) (begun : Operation.read ∈ stagesOf session.trace)
    (monotone : MonotoneClock session.clock) {data : Bytes} {later : List TimedMessage} {went : Prop}
    (fits : Fits (stream ++ data))
    (hears : Hears (messagesIn ((frames cr lf stream).2 ++ data)) later went
      { session with assembler := ⟨(frames cr lf ((frames cr lf stream).2 ++ data)).2⟩ } next)
    (reads : Operation.read ∈ stagesOf next.trace) (goes : next.closed = false → went) :
    Listens config (stream ++ data) (heard ++ later) next := by
  have understood : admitted (opened config) (messagesIn (stream ++ data)) =
      heard.map Prod.fst ++ admitted session.protocol (messagesIn ((frames cr lf stream).2 ++ data)) := by
    rw [messagesIn_append, admitted_append, converses.all, converses.protocol]
  have clock : Monotone session.clock := monotone_nat_of_le_succ monotone
  refine ⟨?_, ?_, ?_, ?_, fun none => absurd reads none, ?_, fun isOpen _ => ?_⟩
  · rw [hears.offered, said_append, ← converses.automation]
    exact congrArg (· ++ _) listens.offered
  · rw [List.map_append]
    refine List.pairwise_append.mpr ⟨listens.ordered, hears.times.ordered clock, fun early member late member' => ?_⟩
    exact (listens.past early member).trans (hears.times.bounds clock member').1
  · intro time member
    rw [List.map_append] at member
    rcases List.mem_append.mp member with early | late
    · exact (listens.past time early).trans (hears.times.le clock)
    · exact (hears.times.bounds clock late).2
  · rw [List.map_append, understood]
    exact (List.prefix_append_right_inj _).mpr hears.inside
  · rw [messagesIn_append, requestsOf_append, ← converses.protocol]
    exact (listens.followed.trans ⟨isOpen, begun⟩ hears.followed).mono (fun goesOn => ⟨goes goesOn.1, goesOn.1⟩)
  · obtain ⟨all, protocol, automation⟩ := hears.whole (goes isOpen) isOpen
    refine ⟨fits, ?_, ?_, ?_, ?_⟩
    · have rest : (frames cr lf (stream ++ data)).2 = (frames cr lf ((frames cr lf stream).2 ++ data)).2 := by
        rw [frames_append stream data]
      rw [rest]
      exact hears.assembler
    · have joined : (messagesIn (stream ++ data)).map ProtocolCall.handle = (messagesIn stream).map .handle ++
          (messagesIn ((frames cr lf stream).2 ++ data)).map .handle := by
        rw [messagesIn_append, List.map_append]
      rw [protocol, joined, SessionProtocol.after_concat]
      exact congrArg (fun protocol => SessionProtocol.after protocol _) converses.protocol
    · rw [List.map_append, understood, all]
    · rw [automation, Transducer.after_append]
      exact congrArg (fun automation => Transducer.after AutomationEngine.step automation later) converses.automation

/-- What a handler does once the conversation is over. -/
theorem ended (listens : Listens config stream heard session) (monotone : MonotoneClock session.clock)
    (reason : SessionEndReason) (message : Bytes) : Listens config stream heard (session.finish reason message) := by
  have same : (session.finish reason message).clock = session.clock := finish_clock _ _ _
  refine listens.aside monotone ?_ (.finish session reason message)
  rw [same]
  exact .refl _

/-- A handler that reads on does nothing else. -/
theorem readsOn (listens : Listens config stream heard session) (reads : Operation.read ∈ stagesOf session.trace)
    (monotone : MonotoneClock session.clock) : Listens config stream heard session.read := by
  cases closed : session.closed with
  | true => rwa [Session.read, if_pos closed]
  | false =>
    have same : session.read = session.onOutbox (·.launch .read) := by simp [Session.read, closed]
    have grown : stagesOf session.read.trace = stagesOf session.trace ++ [.read] := by
      rw [same]
      exact stagesOf_concat session.trace (.started .read)
    refine listens.aside monotone (same ▸ .refl _) ⟨(read_offers session).1, (read_offers session).2, ?_,
      fun wasClosed => ?_, Session.read_protocol session, (read_members session).1, (read_members session).2⟩
    · rw [grown, List.mem_append]
      exact iff_of_true (Or.inl reads) reads
    · rw [closed] at wasClosed
      cases wasClosed

theorem onRead_reads (reads : Operation.read ∈ stagesOf session.trace) (data : Bytes) :
    Operation.read ∈ stagesOf (session.onRead (.success data)).trace := by
  have kept : Operation.read ∈ stagesOf (session.receive data).2.trace := by
    rwa [((steady_keptByLines session.toOutbox).receive session data (.refl _)).stages]
  simp only [Session.onRead]
  split
  · rename_i what next result
    rw [result] at kept
    exact ((finish_steady next.toOutbox .networkError (bytes what)).stages ▸ kept)
  · rename_i next result
    rwa [result] at kept
  · rename_i next result
    rw [result] at kept
    unfold Session.read
    split
    · exact kept
    · rw [show stagesOf (next.onOutbox (·.launch .read)).trace = _ from stagesOf_concat next.trace (.started .read)]
      exact List.mem_append_left _ kept

theorem onRead_clock (session : Session) (data : Bytes) :
    (session.onRead (.success data)).clock = (session.receive data).2.clock := by
  simp only [Session.onRead]
  split
  · rename_i result
    rw [result]
    exact finish_clock _ _ _
  · rename_i result
    rw [result]
  · rename_i next result
    rw [result]
    unfold Session.read
    split <;> rfl

/-- The handler of a read adds what it was given to the conversation. -/
theorem onRead (listens : Listens config stream heard session) (monotone : MonotoneClock session.clock)
    (reads : Operation.read ∈ stagesOf session.trace) {data : Bytes} (fit : data.length ≤ 4096) :
    ∃ later, Listens config (stream ++ data) (heard ++ later) (session.onRead (.success data)) ∧
      HeardNow config stream heard later session (session.onRead (.success data)) := by
  have elapsed := (session.onRead_acts (.success data)).moves.elapsed
  have readsOn := onRead_reads reads data
  cases closed : session.closed with
  | true =>
    obtain ⟨stays, offered, late, followed⟩ := onRead_closed closed (.success data)
    exact ⟨[], (List.append_nil heard).symm ▸ listens.cut monotone elapsed offered followed readsOn stays data,
      .none elapsed⟩
  | false =>
    have converses := listens.whole closed reads
    rcases receive_hears converses closed fit with ⟨what, assembler, thrown⟩ | ⟨fits, later, hears⟩
    · have offered : offers (session.onRead (.success data)).trace = offers session.trace := by
        rw [Session.onRead, thrown]
        exact finish_offers _ _ _
      have isOver : (session.onRead (.success data)).closed = true := by
        rw [Session.onRead, thrown]
        exact finish_closed _ _ _
      have followed : outputs (session.onRead (.success data)).trace =
          outputs session.trace ++ List.replicate 0 .ready := by
        rw [Session.onRead, thrown, List.replicate_zero, List.append_nil]
        exact (finish_silences _ _ _).outputs
      exact ⟨[], (List.append_nil heard).symm ▸ listens.cut monotone elapsed offered followed readsOn isOver data,
        .none elapsed⟩
    · have times : Readings session.clock (session.onRead (.success data)).clock (later.map Prod.snd) := by
        rw [onRead_clock]
        exact hears.times
      refine ⟨later, ?_, times, fun _ => converses.all⟩
      have kept : Operation.read ∈ stagesOf (session.receive data).2.trace := by
        rwa [((steady_keptByLines session.toOutbox).receive session data (.refl _)).stages]
      have passed := monotone.elapsed (session.receive_acts data).moves.elapsed
      cases result : session.receive data with
      | mk answer next =>
        rw [result] at hears kept passed
        cases answer with
        | error what =>
          rw [Session.onRead, result] at readsOn ⊢
          refine listens.grows converses closed reads monotone fits (hears.finish .networkError (bytes what)) readsOn ?_
          exact fun _ => trivial
        | ok isOver =>
          have grown := listens.grows converses closed reads monotone fits hears kept (fun _ => ⟨isOver, rfl⟩)
          rw [Session.onRead, result]
          cases isOver with
          | true => exact grown
          | false => exact grown.readsOn kept passed

/-- Where nothing is read, nothing is heard. -/
theorem unread (listens : Listens config stream heard next) (elapsed : Elapsed session.clock next.clock)
    {read : Bytes} (nothing : read = []) :
    ∃ later, Listens config (stream ++ read) (heard ++ later) next ∧ HeardNow config stream heard later session next :=
  ⟨[], by rwa [nothing, List.append_nil, List.append_nil], .none elapsed⟩

/-- Every handler adds to the conversation what it was given to read. -/
theorem deliver (valid : config.Valid) {connection : Connection} (realizes : Realizes config session connection)
    (listens : Listens config stream heard session) (monotone : MonotoneClock session.clock)
    (fit : ReadsFit session.io) (index : Nat) :
    ∃ later, Listens config (stream ++ (SessionEvent.deliver index).bytesRead session) (heard ++ later)
        (session.deliver index) ∧ HeardNow config stream heard later session (session.deliver index) := by
  have elapsed := (session.deliver_moves index).elapsed
  cases found : session.io.take index with
  | none =>
    have same : session.deliver index = session := by simp [Session.deliver, found]
    rw [same]
    exact listens.unread (.refl _) (by simp [SessionEvent.bytesRead, found])
  | some taken =>
    obtain ⟨⟨operation, outcome⟩, io⟩ := taken
    have same : session.deliver index = Session.dispatch { session with io := io } operation outcome := by
      simp [Session.deliver, found]
    rw [same] at elapsed ⊢
    have passed : Listens config stream heard { session with io := io } :=
      ⟨listens.offered, listens.ordered, listens.past, listens.inside, listens.early, listens.followed,
        fun isOpen reads => (listens.whole isOpen reads).of_io io⟩
    cases operation with
    | handshake =>
      refine unread ?_ elapsed (by simp [SessionEvent.bytesRead, found])
      exact listens.onHandshake valid realizes monotone found elapsed
    | read =>
      obtain ⟨stage, _⟩ := realizes.taken rfl found
      have reads : Operation.read ∈ stagesOf session.trace := by
        rw [realizes.stages]
        cases reached : connection.stage with
        | listening reads => simp [Stage.started]
        | _ =>
          rw [reached] at stage
          cases stage
      cases outcome with
      | failure what =>
        exact (passed.ended monotone .networkError _).unread elapsed (by simp [SessionEvent.bytesRead, found])
      | success data =>
        have read : (SessionEvent.deliver index).bytesRead session = data := by simp [SessionEvent.bytesRead, found]
        rw [read]
        have given := List.mem_of_getElem? (IoContext.completed_of_take found)
        obtain ⟨later, listens, now⟩ := passed.onRead monotone reads (fit data given)
        exact ⟨later, listens, now.times, now.caughtUp⟩
    | resolve | connect | authWait deadline | writeWait deadline | write data =>
      refine unread ?_ elapsed (by simp [SessionEvent.bytesRead, found])
      exact passed.aside monotone elapsed (Aside.dispatch { session with io := io } (by simp) (by simp) outcome)

/-- So does every event. -/
theorem step (valid : config.Valid) {connection : Connection} (realizes : Realizes config session connection)
    (listens : Listens config stream heard session) (monotone : MonotoneClock session.clock)
    (fit : ReadsFit session.io) {event : SessionEvent} (own : ∀ message, event ≠ .enqueue message) :
    ∃ later, Listens config (stream ++ event.bytesRead session) (heard ++ later) (session.step event) ∧
      HeardNow config stream heard later session (session.step event) := by
  have elapsed := (session.step_moves event).elapsed
  cases event with
  | complete index outcome =>
    refine unread (listens.aside monotone elapsed ?_) elapsed rfl
    rcases session.complete_cases index outcome with same | ⟨_, _, _, same⟩
    · rw [show session.step (.complete index outcome) = session from same]
      exact ⟨rfl, rfl, Iff.rfl, id, rfl, rfl, rfl⟩
    · rw [show session.step (.complete index outcome) = _ from same]
      exact ⟨rfl, rfl, Iff.rfl, id, rfl, rfl, rfl⟩
  | deliver index => exact listens.deliver valid realizes monotone fit index
  | enqueue message => exact absurd rfl (own message)
  | stop => exact (listens.ended monotone .stopped (bytes "Stopped")).unread elapsed rfl

end Listens

/-- What is kept along the run of a session that has received a stream. -/
structure Receives (config : RuntimeConfig) (stream : Bytes) (heard : List TimedMessage) (session : Session) :
    Prop where
  connected : ∃ connection, Realizes config session connection
  clock : MonotoneClock session.clock
  fit : ReadsFit session.io
  listens : Listens config stream heard session

namespace Receives

variable {config : RuntimeConfig} {stream : Bytes} {heard : List TimedMessage} {session : Session}

theorem start (limiter : RateLimiter) {clock : Nat → Time} (monotone : MonotoneClock clock) (sniConfigured : Bool) :
    Receives config [] [] (Session.new config limiter clock sniConfigured).start := by
  refine ⟨⟨_, realizes_start config limiter clock sniConfigured⟩, monotone, fun data member => ?_, ?_⟩
  · cases member
  · have notReading : Operation.read ∉ stagesOf (Session.new config limiter clock sniConfigured).start.trace := by
      intro reads
      cases List.mem_singleton.mp reads
    refine ⟨rfl, .nil, by simp, List.nil_prefix, fun _ => rfl, ⟨[], 0, rfl, List.nil_prefix, ?_⟩, ?_⟩
    · exact fun goes => absurd goes.2 notReading
    · exact fun _ reads => absurd reads notReading

theorem step (valid : config.Valid) (receives : Receives config stream heard session) {event : SessionEvent}
    (own : ∀ message, event ≠ .enqueue message) :
    ∃ later, Receives config (stream ++ event.bytesRead session) (heard ++ later) (session.step event) ∧
      HeardNow config stream heard later session (session.step event) := by
  obtain ⟨⟨connection, realizes⟩, monotone, fit, listens⟩ := receives
  have moves := session.step_moves event
  obtain ⟨next, _, realizesNext⟩ := connection_forward valid session connection event realizes own
  obtain ⟨later, listens, now⟩ := listens.step valid realizes monotone fit own
  exact ⟨later, ⟨⟨next, realizesNext⟩, monotone.elapsed moves.elapsed, fit.moves moves, listens⟩, now⟩

theorem after (valid : config.Valid) (receives : Receives config [] [] session) {events : List SessionEvent}
    (own : ∀ message, .enqueue message ∉ events) :
    ∃ heard, Receives config (session.stream events) heard (session.after events) := by
  induction events using List.reverseRecOn with
  | nil => exact ⟨[], receives⟩
  | append_singleton events event ih =>
    obtain ⟨heard, receives⟩ := ih fun message member => own message (List.mem_append_left _ member)
    have notEnqueue (message : OutboundMessage) : event ≠ .enqueue message := by
      rintro rfl
      exact own message (by simp)
    obtain ⟨later, receives, _⟩ := receives.step valid notEnqueue
    rw [Session.stream_concat, Session.after, Session.after, List.foldl_append]
    exact ⟨heard ++ later, receives⟩

/-- Two open sessions that have received the same stream differ only in the
times at which their automations heard the same messages. -/
theorem agree {heard' : List TimedMessage} {other : Session} (receives : Receives config stream heard session)
    (receives' : Receives config stream heard' other)
    (isOpen : session.closed = false) (isOpen' : other.closed = false)
    (reads : Operation.read ∈ stagesOf session.trace) (reads' : Operation.read ∈ stagesOf other.trace) :
    session.protocol = other.protocol ∧ session.assembler = other.assembler ∧
      outputs session.trace = outputs other.trace ∧
      ∃ heard heard' : List TimedMessage, heard.map Prod.fst = heard'.map Prod.fst ∧
        session.automation = Transducer.after AutomationEngine.step (.new config.bot) heard ∧
        other.automation = Transducer.after AutomationEngine.step (.new config.bot) heard' ∧
        offers session.trace = said (.new config.bot) heard ∧ offers other.trace = said (.new config.bot) heard' := by
  have converses := receives.listens.whole isOpen reads
  have converses' := receives'.listens.whole isOpen' reads'
  exact ⟨converses.protocol.trans converses'.protocol.symm, converses.assembler.trans converses'.assembler.symm,
    (receives.listens.answered isOpen reads).trans (receives'.listens.answered isOpen' reads').symm, heard, heard',
    converses.all.trans converses'.all.symm, converses.automation, converses'.automation, receives.listens.offered,
    receives'.listens.offered⟩

end Receives

/-- Every run of a session with an accepted configuration understands the stream
that it receives: while the session is open, its protocol object and the rest it
keeps are functions of the stream, it has done exactly what that protocol object
requests, the automation has heard exactly the messages of the stream that are
admitted, in their order and at times that do not decrease, and what was offered
to the queue as chat is what the automation says to them. A closed session has
followed and heard a prefix. -/
theorem session_hears_stream {parseJson : JsonParser} {environment : Environment} {botJson : Bytes}
    {config : RuntimeConfig} (accepted : parseRuntimeConfig parseJson environment botJson = .ok config)
    (limiter : RateLimiter) {clock : Nat → Time} (monotone : MonotoneClock clock) (sniConfigured : Bool)
    {events : List SessionEvent} (own : ∀ message, .enqueue message ∉ events) :
    ∃ heard, Listens config ((Session.new config limiter clock sniConfigured).start.stream events) heard
      ((Session.new config limiter clock sniConfigured).start.after events) := by
  have valid := parseRuntimeConfig_ok accepted
  obtain ⟨heard, receives⟩ := (Receives.start limiter monotone sniConfigured).after valid own
  exact ⟨heard, receives.listens⟩

theorem steadyClock : MonotoneClock (fun n => n) := fun n => Int.ofNat_le.mpr (Nat.le_succ n)

theorem secondsClock : MonotoneClock (fun n => seconds n) :=
  fun n => Int.mul_le_mul_of_nonneg_right (Int.ofNat_le.mpr (Nat.le_succ n)) (by decide)

/-- The events of a session that logs in and then reads some parts of a stream. -/
def reading (parts : List Bytes) : List SessionEvent :=
  loginEvents ++ parts.flatMap (fun part => [.complete 1 (.success part), .deliver 0])

/-- A line in one part. -/
def wholeReading : List SessionEvent := reading [questionLine]

/-- The same line in three parts, cut between its CR and LF. -/
def splitReading : List SessionEvent := reading [bytes ":a!a PRIVMSG ", bytes "#one :x\r", bytes "\n"]

theorem own_reading (parts : List Bytes) : ∀ message, .enqueue message ∉ reading parts := by
  simp [reading, loginEvents]

/-- The answer of the rule, at the time at which it is due. -/
def answerOffer (due : Time) : Offer := (bytes "PRIVMSG #one :y\r\n", bytes "one", due)

/-- A session that reads a line in parts hears the message, and answers it. -/
theorem session_hears_stream_split :
    (chattySession splitReading).closed = false ∧
      offers (chattySession splitReading).trace = [answerOffer (seconds 10)] ∧
      ∃ heard, Listens chattyConfig ((Session.new chattyConfig {} (fun n => seconds n) true).start.stream splitReading)
        heard (chattySession splitReading) :=
  ⟨by decide +kernel, by decide +kernel,
    session_hears_stream chattyConfig_accepted {} secondsClock true (own_reading _)⟩

/-- It does not matter how a stream is cut into reads, nor what else happens
between them: two runs that received the same stream, and whose sessions are
still open, have the same protocol object, keep the same rest, have enqueued the
same lines outside chat, and have answered the same messages by the same rules. -/
theorem reads_agree {parseJson : JsonParser} {environment : Environment} {botJson : Bytes}
    {config : RuntimeConfig} (accepted : parseRuntimeConfig parseJson environment botJson = .ok config)
    {limiter limiter' : RateLimiter} {clock clock' : Nat → Time} (monotone : MonotoneClock clock)
    (monotone' : MonotoneClock clock') {sniConfigured sniConfigured' : Bool} {events events' : List SessionEvent}
    (own : ∀ message, .enqueue message ∉ events) (own' : ∀ message, .enqueue message ∉ events')
    {session other : Session} (run : session = (Session.new config limiter clock sniConfigured).start.after events)
    (run' : other = (Session.new config limiter' clock' sniConfigured').start.after events')
    (same : (Session.new config limiter clock sniConfigured).start.stream events =
      (Session.new config limiter' clock' sniConfigured').start.stream events')
    (isOpen : session.closed = false) (isOpen' : other.closed = false)
    (reads : Operation.read ∈ stagesOf session.trace) (reads' : Operation.read ∈ stagesOf other.trace) :
    session.protocol = other.protocol ∧ session.assembler = other.assembler ∧
      outputs session.trace = outputs other.trace ∧
      ∃ heard heard' : List TimedMessage, heard.map Prod.fst = heard'.map Prod.fst ∧
        session.automation = Transducer.after AutomationEngine.step (.new config.bot) heard ∧
        other.automation = Transducer.after AutomationEngine.step (.new config.bot) heard' ∧
        offers session.trace = said (.new config.bot) heard ∧ offers other.trace = said (.new config.bot) heard' := by
  have valid := parseRuntimeConfig_ok accepted
  obtain ⟨_, receives⟩ := (Receives.start limiter monotone sniConfigured).after valid own
  obtain ⟨_, receives'⟩ := (Receives.start limiter' monotone' sniConfigured').after valid own'
  rw [← run, same] at receives
  rw [← run'] at receives'
  exact receives.agree receives' isOpen isOpen' reads reads'

/-- A line read in one part and the same line read in three: the rule answers it
in both runs. -/
theorem reads_agree_split :
    (chattySession wholeReading).protocol = (chattySession splitReading).protocol ∧
      (chattySession wholeReading).assembler = (chattySession splitReading).assembler ∧
      outputs (chattySession wholeReading).trace = outputs (chattySession splitReading).trace ∧
      (∃ heard heard' : List TimedMessage, heard.map Prod.fst = heard'.map Prod.fst ∧
        (chattySession wholeReading).automation =
          Transducer.after AutomationEngine.step (.new chattyConfig.bot) heard ∧
        (chattySession splitReading).automation =
          Transducer.after AutomationEngine.step (.new chattyConfig.bot) heard' ∧
        offers (chattySession wholeReading).trace = said (.new chattyConfig.bot) heard ∧
        offers (chattySession splitReading).trace = said (.new chattyConfig.bot) heard') ∧
      offers (chattySession wholeReading).trace = [answerOffer (seconds 10)] := by
  have agree := reads_agree chattyConfig_accepted secondsClock secondsClock (own_reading _) (own_reading _)
    (show chattySession wholeReading = _ from rfl) (show chattySession splitReading = _ from rfl)
    (by decide +kernel) (by decide +kernel) (by decide +kernel) (by decide +kernel) (by decide +kernel)
  exact ⟨agree.1, agree.2.1, agree.2.2.1, agree.2.2.2, by decide +kernel⟩

end TwitchBot
