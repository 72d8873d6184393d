import TwitchBot.SingleWriter

namespace TwitchBot

open Outbox

def Effect.startedMessage : Effect → Option OutboundMessage
  | .writing message _ _ => some message
  | _ => none

/-- The messages whose writes were started, in order. -/
def startedMessages (trace : List Effect) : List OutboundMessage := trace.filterMap Effect.startedMessage

theorem startedMessages_concat (trace : List Effect) (effect : Effect) :
    startedMessages (trace ++ [effect]) = startedMessages trace ++ effect.startedMessage.toList :=
  filterMap_concat _ _ _

/-- The first message, if accepted before the second, is also to be written before it. -/
def Outranks (first second : OutboundMessage) : Prop :=
  first.kind = second.kind ∧ (first.kind = .chat → first.channel = second.channel) ∧ first.due ≤ second.due

/-- No write is started before that of a message that was accepted earlier and outranks it. -/
def KeepsOrder (trace : List Effect) : Prop :=
  ∀ (i j : Nat) (first second : OutboundMessage), i < j → (acceptedMessages trace)[i]? = some first →
    (acceptedMessages trace)[j]? = some second → Outranks first second →
      ∀ b : Nat, (startedMessages trace)[b]? = some second →
        ∃ a, a < b ∧ (startedMessages trace)[a]? = some first

/-- A message whose write is started is eligible, and of all eligible messages
in the queue it is the one with the least sequence number. -/
def ChoosesFirst (trace : List Effect) : Prop :=
  ∀ before message now limiter after, trace = before ++ .writing message now limiter :: after →
    Eligible limiter message now ∧
      ∀ other ∈ acceptedMessages before, other ∉ startedMessages before → other ≠ message →
        Eligible limiter other now → message.sequence < other.sequence

theorem KeepsOrder.of_eq {trace next : List Effect} (order : KeepsOrder trace)
    (accepted : acceptedMessages next = acceptedMessages trace)
    (started : startedMessages next = startedMessages trace) : KeepsOrder next := by
  rw [KeepsOrder, accepted, started]
  exact order

theorem ChoosesFirst.concat {trace : List Effect} (choices : ChoosesFirst trace) {effect : Effect}
    (unstarted : effect.startedMessage = none) : ChoosesFirst (trace ++ [effect]) := by
  intro before message now limiter after split
  rcases List.eq_nil_or_concat after with rfl | ⟨init, last, rfl⟩
  · cases (List.append_inj' split rfl).2
    cases unstarted
  · rw [List.concat_eq_append, ← List.cons_append, ← List.append_assoc] at split
    exact choices before message now limiter init (List.append_inj' split rfl).1

/-- A write that is started now, where every eligible message of the queue has a larger number. -/
theorem ChoosesFirst.start {trace : List Effect} (choices : ChoosesFirst trace) {message : OutboundMessage}
    {now : Time} {limiter : RateLimiter} (eligible : Eligible limiter message now)
    (least : ∀ other ∈ acceptedMessages trace, other ∉ startedMessages trace → other ≠ message →
      Eligible limiter other now → message.sequence < other.sequence) :
    ChoosesFirst (trace ++ [.writing message now limiter]) := by
  intro before chosen time asked after split
  rcases List.eq_nil_or_concat after with rfl | ⟨init, last, rfl⟩
  · obtain ⟨rfl, same⟩ := List.append_inj' split rfl
    cases same
    exact ⟨eligible, least⟩
  · rw [List.concat_eq_append, ← List.cons_append, ← List.append_assoc] at split
    exact choices before chosen time asked init (List.append_inj' split rfl).1

/-- A message that is accepted now has no write yet. -/
theorem KeepsOrder.accept {trace : List Effect} (order : KeepsOrder trace) {message : OutboundMessage}
    (fresh : message ∉ startedMessages trace) : KeepsOrder (trace ++ [.accepted message]) := by
  have accepted : acceptedMessages (trace ++ [.accepted message]) = acceptedMessages trace ++ [message] :=
    acceptedMessages_concat _ _
  have started : startedMessages (trace ++ [.accepted message]) = startedMessages trace := by
    rw [startedMessages_concat]
    exact List.append_nil _
  intro i j first second before atFirst atSecond outranks b atStart
  rw [accepted] at atFirst atSecond
  rw [started] at atStart ⊢
  rcases Nat.lt_or_ge j (acceptedMessages trace).length with inside | outside
  · rw [List.getElem?_append_left inside] at atSecond
    rw [List.getElem?_append_left (before.trans inside)] at atFirst
    exact order i j first second before atFirst atSecond outranks b atStart
  · rw [List.getElem?_append_right outside] at atSecond
    cases List.mem_singleton.mp (List.mem_of_getElem? atSecond)
    exact absurd (List.mem_of_getElem? atStart) fresh

/-- A write that is started when all that outranks its message has been started. -/
theorem KeepsOrder.start {trace : List Effect} (order : KeepsOrder trace) {message : OutboundMessage} {now : Time}
    {limiter : RateLimiter}
    (outranking : ∀ (i j : Nat) (first : OutboundMessage), i < j → (acceptedMessages trace)[i]? = some first →
      (acceptedMessages trace)[j]? = some message → Outranks first message → first ∈ startedMessages trace) :
    KeepsOrder (trace ++ [.writing message now limiter]) := by
  have accepted : acceptedMessages (trace ++ [.writing message now limiter]) = acceptedMessages trace := by
    rw [acceptedMessages_concat]
    exact List.append_nil _
  have started : startedMessages (trace ++ [.writing message now limiter]) = startedMessages trace ++ [message] :=
    startedMessages_concat _ _
  intro i j first second before atFirst atSecond outranks b atStart
  rw [accepted] at atFirst atSecond
  rw [started] at atStart ⊢
  have found {a : Nat} (inside : (startedMessages trace)[a]? = some first) :
      (startedMessages trace ++ [message])[a]? = some first := by
    obtain ⟨bound, _⟩ := List.getElem?_eq_some_iff.mp inside
    rwa [List.getElem?_append_left bound]
  rcases Nat.lt_or_ge b (startedMessages trace).length with inside | outside
  · rw [List.getElem?_append_left inside] at atStart
    obtain ⟨a, earlier, atFirst'⟩ := order i j first second before atFirst atSecond outranks b atStart
    exact ⟨a, earlier, found atFirst'⟩
  · rw [List.getElem?_append_right outside] at atStart
    cases List.mem_singleton.mp (List.mem_of_getElem? atStart)
    obtain ⟨a, atFirst'⟩ := List.getElem?_of_mem (outranking i j first before atFirst atSecond outranks)
    obtain ⟨bound, _⟩ := List.getElem?_eq_some_iff.mp atFirst'
    exact ⟨a, bound.trans_le outside, found atFirst'⟩

/-- A message outside chat may be written whenever another of its kind may. -/
theorem eligibleTime_le_of_outranks {first second : OutboundMessage} (outranks : Outranks first second)
    (limiter : RateLimiter) (now : Time) : eligibleTime limiter now first ≤ eligibleTime limiter now second := by
  obtain ⟨kind, channel, due⟩ := outranks
  have allowed : limiter.allowedAt first.kind first.channel now = limiter.allowedAt second.kind second.channel now := by
    rw [← kind]
    cases isKind : first.kind with
    | chat => rw [channel isKind]
    | _ => rfl
  rw [eligibleTime, eligibleTime, allowed]
  exact max_le_max_right _ due

theorem le_eligibleTime (limiter : RateLimiter) (now : Time) (message : OutboundMessage) :
    now ≤ eligibleTime limiter now message :=
  (limiter.le_nextAllowed message.kind message.channel now).trans (le_max_right _ _)

/-- The queue of an outbox and its history: messages are numbered in the order
of acceptance, those outside chat have the time of acceptance as their due time,
and the writes so far respect both. -/
structure InOrder (bound : Nat) (outbox : Outbox) : Prop where
  monotone : ∀ n, outbox.clock n ≤ outbox.clock (n + 1)
  accounted : Accounted outbox
  increasing : (acceptedMessages outbox.trace).Pairwise (fun first second => first.sequence < second.sequence)
  numbered : ∀ message ∈ acceptedMessages outbox.trace, message.sequence < bound
  queue : outbox.outbound.Sublist (acceptedMessages outbox.trace)
  started : startedMessages outbox.trace = writtenMessages outbox.trace ++ outbox.currentWrite.toList
  dues : (acceptedMessages outbox.trace).Pairwise
    (fun first second => first.kind ≠ .chat → second.kind ≠ .chat → first.due ≤ second.due)
  due : ∀ message ∈ acceptedMessages outbox.trace, message.kind ≠ .chat → message.due ≤ outbox.now
  fifo : ∀ kind, kind ≠ .chat → (startedMessages outbox.trace).filter (·.kind = kind) ++
    outbox.outbound.filter (·.kind = kind) = (acceptedMessages outbox.trace).filter (·.kind = kind)
  order : KeepsOrder outbox.trace
  choices : ChoosesFirst outbox.trace

namespace InOrder

variable {bound : Nat} {outbox next : Outbox}

/-- Only the queue and its history count, and that the clock goes on. -/
theorem of_history (inOrder : InOrder bound outbox)
    (accepted : acceptedMessages next.trace = acceptedMessages outbox.trace)
    (unstarted : startedMessages next.trace = startedMessages outbox.trace)
    (outbound : next.outbound = outbox.outbound) (elapsed : Elapsed outbox.clock next.clock)
    (accounted : Accounted next)
    (started : startedMessages next.trace = writtenMessages next.trace ++ next.currentWrite.toList)
    (choices : ChoosesFirst next.trace) : InOrder bound next := by
  obtain ⟨monotone, _, increasing, numbered, queue, _, dues, due, fifo, order, _⟩ := inOrder
  obtain ⟨readings, same⟩ := elapsed
  have later : outbox.now ≤ next.now := by
    rw [Outbox.now, Outbox.now, same, Nat.zero_add]
    exact monotone_nat_of_le_succ monotone (Nat.zero_le readings)
  rw [← accepted] at increasing numbered queue dues due
  rw [← outbound] at queue
  refine ⟨fun n => ?_, accounted, increasing, numbered, queue, started, dues,
    fun message member notChat => (due message member notChat).trans later, ?_, order.of_eq accepted unstarted, choices⟩
  · rw [same, same, Nat.add_right_comm]
    exact monotone (n + readings)
  · rw [accepted, unstarted, outbound]
    exact fifo

theorem of_eq (inOrder : InOrder bound outbox) (trace : next.trace = outbox.trace)
    (outbound : next.outbound = outbox.outbound) (current : next.currentWrite = outbox.currentWrite)
    (elapsed : Elapsed outbox.clock next.clock) (accounted : Accounted next) : InOrder bound next := by
  refine inOrder.of_history (by rw [trace]) (by rw [trace]) outbound elapsed accounted ?_ ?_
  · rw [trace, current]
    exact inOrder.started
  · rw [trace]
    exact inOrder.choices

/-- An effect that neither accepts, starts nor completes anything. -/
theorem emit (inOrder : InOrder bound outbox) (effect : Effect) (uncounted : effect.isUncounted = true)
    (lawful : effect.isLawful = true) (unstarted : effect.startedMessage = none) :
    InOrder bound (outbox.emit effect) := by
  obtain ⟨notAccepted, notWritten, _⟩ := Effect.uncounted uncounted
  have accepted : acceptedMessages (outbox.emit effect).trace = acceptedMessages outbox.trace := by
    rw [Outbox.emit, acceptedMessages_concat, notAccepted, Option.toList_none, List.append_nil]
  have started : startedMessages (outbox.emit effect).trace = startedMessages outbox.trace := by
    rw [Outbox.emit, startedMessages_concat, unstarted, Option.toList_none, List.append_nil]
  have written : writtenMessages (outbox.emit effect).trace = writtenMessages outbox.trace := by
    rw [Outbox.emit, writtenMessages_concat, notWritten, Option.toList_none, List.append_nil]
  refine inOrder.of_history accepted started rfl (.refl _) (inOrder.accounted.emit effect uncounted lawful) ?_
    (inOrder.choices.concat unstarted)
  rw [started, written]
  exact inOrder.started

theorem of_io (inOrder : InOrder bound outbox) (io : IoContext Operation Outcome)
    (le : io.count Operation.isWrite ≤ outbox.io.count Operation.isWrite) :
    InOrder bound { outbox with io := io } :=
  inOrder.of_eq rfl rfl rfl (.refl _) (inOrder.accounted.of_io io le)

theorem tick (inOrder : InOrder bound outbox) (limiter : RateLimiter) :
    InOrder bound { outbox.tick with limiter := limiter } :=
  inOrder.of_eq rfl rfl rfl (tick_elapsed outbox) (inOrder.accounted.tick limiter)

theorem cancel (inOrder : InOrder bound outbox) (selected : Operation → Bool) :
    InOrder bound (outbox.cancel selected) :=
  inOrder.of_io _ (IoContext.count_cancel _ _ _ _).le

theorem launch (inOrder : InOrder bound outbox) {operation : Operation} (other : operation.isWrite = false) :
    InOrder bound (outbox.launch operation) := by
  refine (inOrder.of_io (outbox.io.start operation) ?_).emit (.started operation)
    (by simp [Effect.isUncounted, other]) rfl rfl
  simp [IoContext.count_start, other]

theorem finish (inOrder : InOrder bound outbox) (reason : SessionEndReason) (message : Bytes) :
    InOrder bound (outbox.finish reason message) := by
  unfold Outbox.finish
  split
  · exact inOrder
  · have closed : InOrder bound { outbox with closed := true } :=
      inOrder.of_eq rfl rfl rfl (.refl _) (inOrder.accounted.aside outbox.limiter outbox.clock true)
    exact (closed.cancel _).emit _ rfl rfl rfl

/-- What was accepted is in the queue or its write was started. -/
theorem places (inOrder : InOrder bound outbox) :
    (acceptedMessages outbox.trace).Perm (outbox.outbound ++ startedMessages outbox.trace) := by
  rw [inOrder.started]
  refine inOrder.accounted.conserved.trans ?_
  rw [List.append_assoc]
  exact List.perm_append_comm.append_left _

theorem eq_of_sequence (inOrder : InOrder bound outbox) {first second : OutboundMessage}
    (accepted : first ∈ acceptedMessages outbox.trace) (accepted' : second ∈ acceptedMessages outbox.trace)
    (same : first.sequence = second.sequence) : first = second := by
  have distinct : ((acceptedMessages outbox.trace).map OutboundMessage.sequence).Nodup :=
    List.pairwise_map.mpr (inOrder.increasing.imp ne_of_lt)
  exact List.inj_on_of_nodup_map distinct accepted accepted' same

/-- Nothing in the queue that was accepted before the selected message outranks it. -/
theorem not_overtaken {limiter : RateLimiter} {now : Time} {selected : Selection}
    (selects : Selects limiter now outbox.outbound selected) {first : OutboundMessage}
    (queued : first ∈ outbox.outbound) (earlier : first.sequence < selected.message.sequence) :
    ¬Outranks first selected.message := by
  intro outranks
  have upper := eligibleTime_le_of_outranks outranks limiter now
  rw [← selects.time] at upper
  have tie : selected.time = eligibleTime limiter now first := le_antisymm (selects.least first queued) upper
  exact absurd (selects.first first queued tie) (Nat.not_le.mpr earlier)

/-- Outside chat the selected message is the first of its kind in the queue. -/
theorem selected_first (inOrder : InOrder bound outbox) {limiter : RateLimiter} {now : Time} {selected : Selection}
    (selects : Selects limiter now outbox.outbound selected) {kind : OutboundKind} (notChat : kind ≠ .chat) :
    outbox.outbound.filter (·.kind = kind) = [selected.message].filter (·.kind = kind) ++
      (outbox.outbound.eraseIdx selected.index).filter (·.kind = kind) := by
  obtain ⟨inside, same⟩ := List.getElem?_eq_some_iff.mp selects.at_index
  have split : outbox.outbound = outbox.outbound.take selected.index ++
      selected.message :: outbox.outbound.drop (selected.index + 1) := by
    rw [← same, List.getElem_cons_drop, List.take_append_drop]
  by_cases isKind : selected.message.kind = kind
  · have none : (outbox.outbound.take selected.index).filter (·.kind = kind) = [] := by
      rw [List.filter_eq_nil_iff]
      intro first member firstKind
      have firstKind : first.kind = kind := by simpa using firstKind
      have before {related : OutboundMessage → OutboundMessage → Prop}
          (pairwise : (acceptedMessages outbox.trace).Pairwise related) : related first selected.message := by
        have queue := pairwise.sublist inOrder.queue
        rw [split, List.pairwise_append] at queue
        exact queue.2.2 first member selected.message List.mem_cons_self
      have due := before inOrder.dues (firstKind ▸ notChat) (isKind ▸ notChat)
      refine not_overtaken selects (List.mem_of_mem_take member) (before inOrder.increasing)
        ⟨firstKind.trans isKind.symm, fun chat => ?_, due⟩
      exact absurd (firstKind.symm.trans chat) notChat
    conv_lhs => rw [split, List.filter_append, none]
    simp [List.eraseIdx_eq_take_drop_succ, none, isKind]
  · conv_lhs => rw [split]
    simp [List.eraseIdx_eq_take_drop_succ, isKind]

theorem sequence_lt (inOrder : InOrder bound outbox) {i j : Nat} {first second : OutboundMessage} (before : i < j)
    (atFirst : (acceptedMessages outbox.trace)[i]? = some first)
    (atSecond : (acceptedMessages outbox.trace)[j]? = some second) : first.sequence < second.sequence := by
  obtain ⟨_, rfl⟩ := List.getElem?_eq_some_iff.mp atFirst
  obtain ⟨_, rfl⟩ := List.getElem?_eq_some_iff.mp atSecond
  exact List.pairwise_iff_getElem.mp inOrder.increasing _ _ _ _ before

theorem queued (inOrder : InOrder bound outbox) {message : OutboundMessage}
    (accepted : message ∈ acceptedMessages outbox.trace) (unstarted : message ∉ startedMessages outbox.trace) :
    message ∈ outbox.outbound :=
  (List.mem_append.mp (inOrder.places.mem_iff.mp accepted)).resolve_right unstarted

/-- The write of a selected message overtakes none that outranks it. -/
theorem start_order (inOrder : InOrder bound outbox) {limiter : RateLimiter} {now : Time} {selected : Selection}
    (selects : Selects limiter now outbox.outbound selected) (asked : RateLimiter) :
    KeepsOrder (outbox.trace ++ [.writing selected.message now asked]) := by
  refine inOrder.order.start (fun i j first before atFirst atSecond outranks => ?_)
  by_contra unstarted
  exact not_overtaken selects (inOrder.queued (List.mem_of_getElem? atFirst) unstarted)
    (inOrder.sequence_lt before atFirst atSecond) outranks

/-- The selected message, if it is eligible, is the first one that is. -/
theorem start_choices (inOrder : InOrder bound outbox) {limiter asked : RateLimiter} {now : Time}
    {selected : Selection} (selects : Selects limiter now outbox.outbound selected)
    (queried : Queried now limiter asked) (reached : selected.time ≤ now) :
    ChoosesFirst (outbox.trace ++ [.writing selected.message now asked]) := by
  have mine : selected.message ∈ outbox.outbound := List.mem_of_getElem? selects.at_index
  refine inOrder.choices.start ((queried.eligible_iff _).mpr (selects.time ▸ reached)) ?_
  intro other accepted unstarted different eligible
  have inQueue := inOrder.queued accepted unstarted
  have atNow : eligibleTime limiter now other = now :=
    le_antisymm ((queried.eligible_iff other).mp eligible) (le_eligibleTime limiter now other)
  have tie : selected.time = eligibleTime limiter now other := by
    rw [atNow]
    exact le_antisymm reached (selects.time ▸ le_eligibleTime limiter now selected.message)
  refine lt_of_le_of_ne (selects.first other inQueue tie) (fun same => different ?_)
  exact inOrder.eq_of_sequence accepted (inOrder.queue.subset mine) same.symm

theorem startWrite (inOrder : InOrder bound outbox) (idle : outbox.writeInProgress = false)
    {limiter : RateLimiter} {now : Time} {selected : Selection}
    (selects : Selects limiter now outbox.outbound selected) (queried : Queried now limiter outbox.limiter)
    (reached : selected.time ≤ now) : InOrder bound (outbox.startWrite selected now) := by
  have started : startedMessages outbox.trace = writtenMessages outbox.trace := by
    rw [inOrder.started, inOrder.accounted.current_of_idle idle, Option.toList_none, List.append_nil]
  have trace : (outbox.startWrite selected now).trace = outbox.trace ++
      [.writing selected.message now outbox.limiter] ++ [.started (.write selected.message.wireData)] := rfl
  have accepted' : acceptedMessages (outbox.startWrite selected now).trace = acceptedMessages outbox.trace := by
    rw [trace, acceptedMessages_concat, acceptedMessages_concat]
    simp [Effect.acceptedMessage]
  have started' : startedMessages (outbox.startWrite selected now).trace =
      startedMessages outbox.trace ++ [selected.message] := by
    rw [trace, startedMessages_concat, startedMessages_concat]
    simp [Effect.startedMessage]
  have written' : writtenMessages (outbox.startWrite selected now).trace = writtenMessages outbox.trace := by
    rw [trace, writtenMessages_concat, writtenMessages_concat]
    simp [Effect.writtenMessage]
  refine ⟨inOrder.monotone, inOrder.accounted.startWrite idle selects.at_index now, ?_, ?_, ?_, ?_, ?_, ?_, ?_,
    ?_, (inOrder.start_choices selects queried reached).concat rfl⟩
  · rw [accepted']
    exact inOrder.increasing
  · rw [accepted']
    exact inOrder.numbered
  · rw [accepted']
    exact (List.eraseIdx_sublist _ _).trans inOrder.queue
  · rw [started', written', started]
    rfl
  · rw [accepted']
    exact inOrder.dues
  · rw [accepted']
    exact inOrder.due
  · intro kind notChat
    rw [accepted', started', ← inOrder.fifo kind notChat, inOrder.selected_first selects notChat, List.filter_append,
      List.append_assoc]
    rfl
  · refine (inOrder.start_order selects outbox.limiter).of_eq ?_ ?_
    · rw [trace, acceptedMessages_concat]
      exact List.append_nil _
    · rw [trace, startedMessages_concat]
      exact List.append_nil _

theorem scheduleWrite (inOrder : InOrder bound outbox) : InOrder bound outbox.scheduleWrite := by
  rcases scheduleWrite_cases outbox with ⟨same, _⟩ |
    ⟨_, idle, selected, limiter, selects, queried, ⟨_, armed⟩ | ⟨reached, started⟩⟩
  · rwa [same]
  · rw [armed]
    exact ((inOrder.tick limiter).cancel _).launch rfl
  · rw [started]
    exact (inOrder.tick limiter).startWrite idle selects queried reached

/-- A number that no message got is skipped. -/
theorem skip (inOrder : InOrder bound outbox) : InOrder (bound + 1) outbox :=
  { inOrder with numbered := fun message member => (inOrder.numbered message member).trans (Nat.lt_succ_self bound) }

/-- A message with the next number enters the queue; outside chat it is due now. -/
theorem push (inOrder : InOrder bound outbox) (room : outbox.outbound.length < maxOutboundQueue)
    {message : OutboundMessage} (number : message.sequence = bound)
    (due : message.kind ≠ .chat → message.due ≤ outbox.now ∧
      ∀ earlier ∈ acceptedMessages outbox.trace, earlier.kind ≠ .chat → earlier.due ≤ message.due) :
    InOrder (bound + 1) ({ outbox with outbound := outbox.outbound ++ [message] }.emit (.accepted message)) := by
  have accepted : acceptedMessages (outbox.trace ++ [.accepted message]) =
      acceptedMessages outbox.trace ++ [message] := acceptedMessages_concat _ _
  have started : startedMessages (outbox.trace ++ [.accepted message]) = startedMessages outbox.trace := by
    rw [startedMessages_concat]
    exact List.append_nil _
  have written : writtenMessages (outbox.trace ++ [.accepted message]) = writtenMessages outbox.trace := by
    rw [writtenMessages_concat]
    exact List.append_nil _
  have cases {other : OutboundMessage} (member : other ∈ acceptedMessages (outbox.trace ++ [.accepted message])) :
      other ∈ acceptedMessages outbox.trace ∨ other = message := by
    simpa [accepted] using member
  have pairwise {related : OutboundMessage → OutboundMessage → Prop}
      (old : (acceptedMessages outbox.trace).Pairwise related)
      (new : ∀ earlier ∈ acceptedMessages outbox.trace, related earlier message) :
      (acceptedMessages (outbox.trace ++ [.accepted message])).Pairwise related := by
    rw [accepted, List.pairwise_append]
    refine ⟨old, List.pairwise_singleton _ _, fun earlier member later last => ?_⟩
    rw [List.mem_singleton.mp last]
    exact new earlier member
  refine ⟨inOrder.monotone, inOrder.accounted.push room message, ?_, ?_, ?_, ?_, ?_, ?_, ?_, ?_,
    inOrder.choices.concat rfl⟩
  · exact pairwise inOrder.increasing (fun earlier member => (inOrder.numbered earlier member).trans_eq number.symm)
  · intro other member
    rcases cases member with old | rfl
    · exact (inOrder.numbered other old).trans (Nat.lt_succ_self bound)
    · exact number.trans_lt (Nat.lt_succ_self bound)
  · show (outbox.outbound ++ [message]).Sublist (acceptedMessages (outbox.trace ++ [.accepted message]))
    rw [accepted]
    exact inOrder.queue.append_right [message]
  · show startedMessages (outbox.trace ++ [.accepted message]) = _
    rw [started]
    exact inOrder.started.trans (congrArg (· ++ outbox.currentWrite.toList) written.symm)
  · exact pairwise inOrder.dues (fun earlier member wasNotChat notChat => (due notChat).2 earlier member wasNotChat)
  · intro other member notChat
    rcases cases member with old | rfl
    · exact inOrder.due other old notChat
    · exact (due notChat).1
  · intro kind notChat
    show (startedMessages (outbox.trace ++ [.accepted message])).filter (·.kind = kind) ++
      (outbox.outbound ++ [message]).filter (·.kind = kind) =
      (acceptedMessages (outbox.trace ++ [.accepted message])).filter (·.kind = kind)
    rw [accepted, started, List.filter_append, List.filter_append, ← List.append_assoc, inOrder.fifo kind notChat]
  · refine inOrder.order.accept (fun wasStarted => ?_)
    have wasAccepted : message ∈ acceptedMessages outbox.trace :=
      inOrder.places.mem_iff.mpr (List.mem_append_right _ wasStarted)
    exact absurd number (inOrder.numbered message wasAccepted).ne

theorem enqueue (inOrder : InOrder bound outbox) {message : OutboundMessage} (number : message.sequence = bound)
    (due : message.kind ≠ .chat → message.due ≤ outbox.now ∧
      ∀ earlier ∈ acceptedMessages outbox.trace, earlier.kind ≠ .chat → earlier.due ≤ message.due) :
    InOrder (bound + 1) (outbox.enqueue message) := by
  rcases enqueue_cases outbox message with ⟨_, same⟩ | ⟨_, full, chat, dropped⟩ | ⟨_, _, _, ended⟩ | ⟨_, room, accepted⟩
  · rw [same]
    exact inOrder.skip
  · have atBound : outbox.outbound.length = maxOutboundQueue := le_antisymm inOrder.accounted.bound full
    rw [dropped]
    exact inOrder.skip.emit _ rfl (by simp [Effect.isLawful, chat, atBound]) rfl
  · rw [ended]
    exact inOrder.skip.finish _ _
  · rw [accepted]
    exact (inOrder.push room number due).scheduleWrite

/-- The handler of a successful write. -/
theorem onWritten (inOrder : InOrder bound outbox) (busy : outbox.writeInProgress = true)
    (noWrite : outbox.io.count Operation.isWrite = 0) : InOrder bound outbox.onWritten := by
  obtain ⟨message, current⟩ := inOrder.accounted.current_of_busy busy
  rw [onWritten_of_current current]
  have accepted : acceptedMessages (outbox.trace ++ [.wrote message outbox.now]) = acceptedMessages outbox.trace := by
    rw [acceptedMessages_concat]
    exact List.append_nil _
  have started : startedMessages (outbox.trace ++ [.wrote message outbox.now]) = startedMessages outbox.trace := by
    rw [startedMessages_concat]
    exact List.append_nil _
  have recorded : InOrder bound (outbox.recorded message) := by
    refine inOrder.of_history accepted started rfl (tick_elapsed outbox) (inOrder.accounted.recorded current noWrite)
      ?_ (inOrder.choices.concat rfl)
    show startedMessages (outbox.trace ++ [.wrote message outbox.now]) =
      writtenMessages (outbox.trace ++ [.wrote message outbox.now]) ++ []
    rw [started, writtenMessages_concat, inOrder.started, current, List.append_nil]
    rfl
  exact recorded.scheduleWrite

theorem onWrite (inOrder : InOrder bound outbox) {io : IoContext Operation Outcome} {index : Nat} {data : Bytes}
    {outcome : Outcome} (taken : outbox.io.take index = some ((.write data, outcome), io)) :
    InOrder bound ({ outbox with io := io }.onWrite outcome) := by
  obtain ⟨busy, noWrite⟩ := inOrder.accounted.busy_of_taken taken
  have passed : InOrder bound { outbox with io := io } := inOrder.of_io io (by rw [noWrite]; exact Nat.zero_le _)
  cases outcome with
  | failure what => exact passed.finish _ _
  | success bytes => exact passed.onWritten busy noWrite

end InOrder

namespace Session

theorem Act.inOrder {session next : Session} (act : Act session next)
    (inOrder : InOrder session.nextSequence session.toOutbox) : InOrder next.nextSequence next.toOutbox := by
  have ticked : InOrder session.nextSequence session.toOutbox.tick := inOrder.tick session.limiter
  cases act with
  | tick => exact ticked
  | send data kind channel =>
    have sent : InOrder (session.nextSequence + 1) (session.toOutbox.tick.enqueue
        ⟨data, kind, channel, session.now, session.nextSequence⟩) :=
      ticked.enqueue rfl (fun _ => ⟨inOrder.monotone 0, inOrder.due⟩)
    exact sent
  | chat data channel due => exact InOrder.enqueue inOrder rfl (fun notChat => absurd rfl notChat)
  | finish reason message => exact InOrder.finish inOrder reason message
  | launch operation aside =>
    simp only [Operation.isOutgoing, Bool.or_eq_false_iff] at aside
    exact InOrder.launch inOrder aside.1
  | cancel selected aside => exact InOrder.cancel inOrder selected
  | emit effect aside =>
    have quiet : effect.isUncounted = true ∧ effect.isLawful = true ∧ effect.startedMessage = none := by
      cases effect <;> first | exact ⟨rfl, rfl, rfl⟩ | cases aside
    exact InOrder.emit inOrder effect quiet.1 quiet.2.1 quiet.2.2
  | aside _ outbox sequence => rwa [outbox, sequence]

theorem Acts.inOrder {session next : Session} (acts : Acts session next)
    (inOrder : InOrder session.nextSequence session.toOutbox) : InOrder next.nextSequence next.toOutbox := by
  induction acts with
  | refl => exact inOrder
  | tail _ act ih => exact act.inOrder ih

/-- The events of a session keep the order, if no caller from outside numbers messages. -/
theorem step_inOrder {session : Session} (inOrder : InOrder session.nextSequence session.toOutbox)
    {event : SessionEvent} (own : ∀ message, event ≠ .enqueue message) :
    InOrder (session.step event).nextSequence (session.step event).toOutbox := by
  cases event with
  | complete index outcome =>
    rcases complete_cases session index outcome with same | ⟨_, _, _, completed⟩
    · rwa [step, same]
    · rw [step, completed]
      exact inOrder.of_io _ (IoContext.count_complete _ _ _ _).le
  | deliver index =>
    rcases deliver_cases session index with ⟨_, same⟩ | ⟨operation, outcome, io, taken, acted⟩
    · rwa [step, same]
    · have le : io.count Operation.isWrite ≤ session.io.count Operation.isWrite := by
        rw [IoContext.count_take taken]
        exact Nat.le_add_right _ _
      have passed := inOrder.of_io io le
      rcases acted with ⟨_, acts⟩ | ⟨deadline, rfl, waited⟩ | ⟨data, rfl, written⟩
      · exact acts.inOrder passed
      · rw [step, waited]
        cases outcome with
        | failure what => exact passed
        | success bytes => exact passed.scheduleWrite
      · rw [step, written]
        exact inOrder.onWrite taken
  | enqueue message => exact absurd rfl (own message)
  | stop => exact InOrder.finish inOrder _ _

theorem inOrder_start (config : RuntimeConfig) (limiter : RateLimiter) {clock : Nat → Time}
    (sniConfigured : Bool) (monotone : ∀ n, clock n ≤ clock (n + 1)) :
    InOrder 0 (Session.new config limiter clock sniConfigured).start.toOutbox := by
  have fresh : InOrder 0 (Session.new config limiter clock sniConfigured).toOutbox := by
    refine ⟨monotone, accounted_new config limiter clock sniConfigured, .nil, ?_, .slnil, rfl, .nil, ?_,
      fun _ _ => rfl, ?_, ?_⟩
    · exact fun message none => absurd none List.not_mem_nil
    · exact fun message none => absurd none List.not_mem_nil
    · intro i j first second _ none
      cases none
    · intro before message now limiter after split
      cases before <;> cases split
  exact fresh.launch rfl

/-- The order is kept along every run. -/
theorem inOrder_after (config : RuntimeConfig) (limiter : RateLimiter) {clock : Nat → Time}
    (sniConfigured : Bool) (monotone : ∀ n, clock n ≤ clock (n + 1)) (events : List SessionEvent)
    (own : ∀ message, .enqueue message ∉ events) :
    InOrder ((Session.new config limiter clock sniConfigured).start.after events).nextSequence
      ((Session.new config limiter clock sniConfigured).start.after events).toOutbox := by
  exact after_keeps (fun session => InOrder session.nextSequence session.toOutbox) own
    (fun session event other inOrder => step_inOrder inOrder other)
    (inOrder_start config limiter sniConfigured monotone)

end Session

end TwitchBot
