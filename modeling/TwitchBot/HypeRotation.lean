import TwitchBot.AutomationCases
import TwitchBot.SpokenConfig

namespace TwitchBot

open AutomationEngine

/-- A chat message sent on a subscription event. -/
structure HypeEmission where
  event : Bytes
  time : Time
  chat : ScheduledChatMessage

namespace AutomationEngine

/-- What a call of `handle` sends on a subscription event. -/
def emitted (engine : AutomationEngine) (message : IrcMessage) (now : Time) : List HypeEmission :=
  if message.command = bytes "USERNOTICE" then
    ((engine.handle message now).1.toOption.getD []).map
      (fun chat => ⟨(message.tags.lookup (bytes "msg-id")).getD [], now, chat⟩)
  else []

/-- The engine and what it has sent on subscription events since the last reset. -/
def hypeStep (state : AutomationEngine × List HypeEmission) : AutomationCall → AutomationEngine × List HypeEmission
  | .handle message now => (state.1.call (.handle message now), state.2 ++ state.1.emitted message now)
  | .resetSession => (state.1.call .resetSession, [])

def hypeRun (settings : BotSettings) (calls : List AutomationCall) : AutomationEngine × List HypeEmission :=
  calls.foldl hypeStep (new settings, [])

theorem hypeRun_engine (settings : BotSettings) (calls : List AutomationCall) :
    (hypeRun settings calls).1 = (new settings).after calls := by
  induction calls using List.reverseRecOn with
  | nil => rfl
  | append_singleton calls call ih =>
    simp only [hypeRun, AutomationEngine.after, List.foldl_concat] at ih ⊢
    rw [← ih]
    cases call <;> rfl

end AutomationEngine

/-- The times of the `handle` calls. -/
def handleTimes (calls : List AutomationCall) : List Time :=
  calls.filterMap (fun call => match call with
    | .handle _ now => some now
    | .resetSession => none)

/-- The emissions of one class of events have gone through its texts in turn,
and the index stands at the next one. -/
structure Rotation (emissions : List HypeEmission) (kind : Bytes → Bool) (texts : List Bytes) (index : Nat) : Prop where
  next : index = (emissions.filter (fun e => kind e.event)).length % texts.length
  turn : ∀ i e, (emissions.filter (fun e => kind e.event))[i]? = some e → texts[i % texts.length]? = some e.chat.text

namespace Rotation

variable {emissions : List HypeEmission} {kind : Bytes → Bool} {texts : List Bytes} {index : Nat}

theorem empty (kind : Bytes → Bool) (texts : List Bytes) : Rotation [] kind texts 0 :=
  ⟨(Nat.zero_mod _).symm, by simp⟩

theorem other (rotation : Rotation emissions kind texts index) {e : HypeEmission} (different : kind e.event = false) :
    Rotation (emissions ++ [e]) kind texts index := by
  have same : (emissions ++ [e]).filter (fun e => kind e.event) = emissions.filter (fun e => kind e.event) := by
    simp [different]
  exact ⟨by rw [same]; exact rotation.next, by rw [same]; exact rotation.turn⟩

theorem own (rotation : Rotation emissions kind texts index) {e : HypeEmission} (own : kind e.event = true)
    (text : texts[index]? = some e.chat.text) :
    Rotation (emissions ++ [e]) kind texts ((index + 1) % texts.length) := by
  have longer : (emissions ++ [e]).filter (fun e => kind e.event) =
      emissions.filter (fun e => kind e.event) ++ [e] := by
    simp [own]
  refine ⟨?_, ?_⟩
  · rw [longer, List.length_append, List.length_singleton, rotation.next, Nat.mod_add_mod]
  · intro i other found
    rw [longer] at found
    rcases Nat.lt_or_ge i (emissions.filter (fun e => kind e.event)).length with before | behind
    · rw [List.getElem?_append_left before] at found
      exact rotation.turn i other found
    · rw [List.getElem?_append_right behind, List.getElem?_singleton] at found
      split at found
      · rename_i offset
        cases Option.some.inj found
        have position : i = (emissions.filter (fun e => kind e.event)).length := by omega
        rw [position, ← rotation.next]
        exact text
      · cases found

end Rotation

/-- What is known of an engine and its emissions since the last reset. -/
structure HypeHistory (settings : BotSettings) (engine : AutomationEngine) (emissions : List HypeEmission) :
    Prop where
  same : engine.settings = settings
  subscriptions : Rotation emissions isSubscription settings.hype.subscriptionMessages engine.subscriptionIndex
  gifts : Rotation emissions isGift settings.hype.giftMessages engine.giftIndex
  classes : ∀ e ∈ emissions, isSubscription e.event = true ∨ isGift e.event = true
  lastSent : engine.hypeLastSent = emissions.getLast?.map (·.time)
  spaced : emissions.Pairwise (fun earlier later =>
    earlier.time ≤ later.time ∧ seconds settings.hype.cooldown ≤ later.time - earlier.time)

theorem isGift_of_isSubscription {event : Bytes} (subscription : isSubscription event = true) :
    isGift event = false := by
  simp only [isSubscription, Bool.or_eq_true, decide_eq_true_eq] at subscription
  rcases subscription with rfl | rfl <;> decide

namespace HypeHistory

variable {settings : BotSettings} {engine : AutomationEngine} {emissions : List HypeEmission}

theorem start (settings : BotSettings) : HypeHistory settings (new settings) [] :=
  ⟨rfl, .empty _ _, .empty _ _, by simp, rfl, .nil⟩

theorem reset (history : HypeHistory settings engine emissions) : HypeHistory settings engine.resetSession [] :=
  ⟨history.same, .empty _ _, .empty _ _, by simp, rfl, .nil⟩

/-- An emission after the cooldown keeps its distance from all earlier ones. -/
theorem spaced_concat (history : HypeHistory settings engine emissions) {e : HypeEmission}
    (cooled : coolingDown engine.hypeLastSent settings.hype.cooldown e.time = false)
    (later : ∀ earlier ∈ emissions, earlier.time ≤ e.time) :
    (emissions ++ [e]).Pairwise (fun earlier later =>
      earlier.time ≤ later.time ∧ seconds settings.hype.cooldown ≤ later.time - earlier.time) := by
  refine List.pairwise_append.mpr ⟨history.spaced, List.pairwise_singleton _ _, ?_⟩
  intro earlier member other atOther
  cases List.mem_singleton.mp atOther
  rw [history.lastSent, coolingDown_eq_false] at cooled
  have apart : ∀ last ∈ emissions.getLast?, seconds settings.hype.cooldown ≤ e.time - last.time :=
    fun last atLast => cooled last.time (Option.mem_map_of_mem _ atLast)
  exact ⟨later earlier member, apart_of_last (history.spaced.imp And.left) apart earlier member⟩

/-- Calls that send nothing on their own account of `hype` leave its history alone. -/
theorem quiet (history : HypeHistory settings engine emissions) {message : IrcMessage} {now : Time}
    {times : List (Option Time)} (kept : (engine.handle message now).2 = { engine with ruleLastSent := times })
    (silent : engine.emitted message now = []) :
    HypeHistory settings (engine.handle message now).2 (emissions ++ engine.emitted message now) := by
  rw [kept, silent, List.append_nil]
  exact ⟨history.same, history.subscriptions, history.gifts, history.classes, history.lastSent, history.spaced⟩

theorem answers (history : HypeHistory settings engine emissions) {message : IrcMessage} {e : HypeEmission}
    {channel : Bytes} {next : AutomationEngine}
    (answers : engine.Answers message e.time channel e.event e.chat.text next)
    (later : ∀ earlier ∈ emissions, earlier.time ≤ e.time) :
    HypeHistory settings { next with hypeLastSent := some e.time } (emissions ++ [e]) := by
  obtain ⟨_, _, _, _, cooled, rotates⟩ := answers
  have same := history.same
  subst same
  have spaced := history.spaced_concat cooled later
  have last : some e.time = (emissions ++ [e]).getLast?.map (·.time) := by
    rw [List.getLast?_concat]
    rfl
  have classes (kind : isSubscription e.event = true ∨ isGift e.event = true) :
      ∀ other ∈ emissions ++ [e], isSubscription other.event = true ∨ isGift other.event = true := by
    intro other member
    rcases List.mem_append.mp member with old | new
    · exact history.classes other old
    · cases List.mem_singleton.mp new
      exact kind
  cases rotates with
  | subscription subscription text =>
    exact ⟨rfl, history.subscriptions.own subscription text,
      history.gifts.other (isGift_of_isSubscription subscription), classes (Or.inl subscription), last, spaced⟩
  | gift other gift text =>
    exact ⟨rfl, history.subscriptions.other other, history.gifts.own gift text, classes (Or.inr gift), last, spaced⟩

end HypeHistory

theorem handlePrivmsg_hype (engine : AutomationEngine) (message : IrcMessage) (now : Time) :
    ∃ times, (engine.handlePrivmsg message now).2 = { engine with ruleLastSent := times } := by
  unfold handlePrivmsg
  split
  · exact ⟨engine.ruleLastSent, rfl⟩
  · split
    · exact ⟨_, rfl⟩
    · exact ⟨engine.ruleLastSent, rfl⟩

/-- What one `handle` adds to the history. -/
theorem HypeHistory.handle {settings : BotSettings} {engine : AutomationEngine} {emissions : List HypeEmission}
    (history : HypeHistory settings engine emissions) (message : IrcMessage) {now : Time}
    (later : ∀ earlier ∈ emissions, earlier.time ≤ now) :
    HypeHistory settings (engine.handle message now).2 (emissions ++ engine.emitted message now) := by
  by_cases notice : message.command = bytes "USERNOTICE"
  · have other : message.command ≠ bytes "PRIVMSG" := by
      rw [notice]
      decide
    have run : engine.handle message now = engine.handleUsernotice message now := by
      rw [AutomationEngine.handle, if_neg other, if_pos notice]
    rcases handleUsernotice_cases engine message now with nothing | ⟨_, _, _, _, thrown⟩ |
      ⟨channel, event, response, next, answers, said⟩
    · rw [← run] at nothing
      exact history.quiet (by rw [nothing]) (by simp [emitted, nothing, Except.toOption])
    · rw [← run] at thrown
      exact history.quiet (by rw [thrown]) (by simp [emitted, thrown, Except.toOption])
    · rw [← run] at said
      let e : HypeEmission := ⟨event, now, ⟨channel, response, now + seconds engine.settings.hype.delay⟩⟩
      have one : engine.emitted message now = [e] := by
        simp [emitted, notice, said, answers.foundEvent, Except.toOption, e]
      rw [said, one]
      exact history.answers (e := e) answers later
  · have silent : engine.emitted message now = [] := by rw [emitted, if_neg notice]
    by_cases chat : message.command = bytes "PRIVMSG"
    · obtain ⟨times, kept⟩ := handlePrivmsg_hype engine message now
      exact history.quiet (by rw [AutomationEngine.handle, if_pos chat]; exact kept) silent
    · exact history.quiet (by rw [AutomationEngine.handle, if_neg chat, if_neg notice]) silent

/-- Behind any calls, with a clock that does not run backwards. -/
theorem hypeRun_history (settings : BotSettings) (calls : List AutomationCall) :
    (handleTimes calls).Pairwise (· ≤ ·) →
      HypeHistory settings (hypeRun settings calls).1 (hypeRun settings calls).2 ∧
        ∀ e ∈ (hypeRun settings calls).2, e.time ∈ handleTimes calls := by
  induction calls using List.reverseRecOn with
  | nil => intro _; exact ⟨.start settings, by simp [hypeRun]⟩
  | append_singleton calls call ih =>
    intro ordered
    rw [handleTimes, List.filterMap_append, List.pairwise_append] at ordered
    obtain ⟨history, times⟩ := ih ordered.1
    have step : hypeRun settings (calls ++ [call]) = hypeStep (hypeRun settings calls) call := by
      simp [hypeRun]
    have longer : handleTimes (calls ++ [call]) = handleTimes calls ++ handleTimes [call] := by
      simp [handleTimes]
    rw [step, longer]
    cases call with
    | resetSession => exact ⟨history.reset, by simp [hypeStep]⟩
    | handle message now =>
      have later : ∀ earlier ∈ (hypeRun settings calls).2, earlier.time ≤ now := by
        intro earlier member
        exact ordered.2.2 earlier.time (times earlier member) now (by simp)
      refine ⟨history.handle message later, ?_⟩
      intro e member
      rcases List.mem_append.mp member with old | new
      · exact List.mem_append_left _ (times e old)
      · refine List.mem_append_right _ ?_
        rw [emitted] at new
        split at new
        · obtain ⟨chat, _, rfl⟩ := List.mem_map.mp new
          simp [handleTimes]
        · cases new

/-- The hype rotation is safe and fair: after any calls no index has left its
list and `handle` does not throw; the emissions since the last reset go through
the texts of their own class of events in turn, and any two of them are at
least the cooldown apart. -/
theorem hype_rotates {parseJson : JsonParser} {botJson : Bytes} {settings : BotSettings}
    (accepted : parseBotSettings parseJson botJson = .ok settings) {calls : List AutomationCall}
    (ordered : (handleTimes calls).Pairwise (· ≤ ·)) :
    ((hypeRun settings calls).1 = (new settings).after calls) ∧
    (settings.hype.enabled = true →
      (hypeRun settings calls).1.subscriptionIndex < settings.hype.subscriptionMessages.length ∧
      (hypeRun settings calls).1.giftIndex < settings.hype.giftMessages.length) ∧
    (∀ message now, ∃ output, ((hypeRun settings calls).1.handle message now).1 = .ok output) ∧
    (∀ e ∈ (hypeRun settings calls).2, isSubscription e.event = true ∨ isGift e.event = true) ∧
    (∀ i e, ((hypeRun settings calls).2.filter (fun e => isSubscription e.event))[i]? = some e →
      settings.hype.subscriptionMessages[i % settings.hype.subscriptionMessages.length]? = some e.chat.text) ∧
    (∀ i e, ((hypeRun settings calls).2.filter (fun e => isGift e.event))[i]? = some e →
      settings.hype.giftMessages[i % settings.hype.giftMessages.length]? = some e.chat.text) ∧
    (hypeRun settings calls).2.Pairwise
      (fun earlier later => seconds settings.hype.cooldown ≤ later.time - earlier.time) := by
  obtain ⟨history, _⟩ := hypeRun_history settings calls ordered
  have sound : Sound settings (hypeRun settings calls).1 := by
    rw [hypeRun_engine]
    exact after_sound (new_sound (parseBotSettings_ok accepted)) calls
  refine ⟨hypeRun_engine settings calls, fun enabled => ⟨sound.subscriptionIndex enabled, sound.giftIndex enabled⟩,
    ?_, history.classes, history.subscriptions.turn, history.gifts.turn, history.spaced.imp And.right⟩
  intro message now
  obtain ⟨output, run, _⟩ := (handle_sound sound message now).1
  exact ⟨output, run⟩

/-- A notice of an event on the channel of `hype`. -/
def hypeNotice (event : String) : IrcMessage :=
  ⟨Finmap.singleton (bytes "msg-id") (bytes event), [], bytes "USERNOTICE", [bytes "#one"]⟩

/-- Subscriptions and gifts in turn, and one notice within the cooldown. -/
def hypeCalls : List AutomationCall :=
  [.handle (hypeNotice "sub") 0, .handle (hypeNotice "subgift") (seconds 2),
    .handle (hypeNotice "sub") (seconds 3), .handle (hypeNotice "resub") (seconds 4),
    .handle (hypeNotice "submysterygift") (seconds 6), .handle (hypeNotice "sub") (seconds 8)]

theorem hype_rotates_classes :
    (hypeRun chattySettings hypeCalls).2.map (·.chat.text) =
      [bytes "s", bytes "g", bytes "t", bytes "h", bytes "s"] ∧
    ((hypeRun chattySettings hypeCalls).1.subscriptionIndex < 2 ∧
      (hypeRun chattySettings hypeCalls).1.giftIndex < 3) ∧
    (∀ i e, ((hypeRun chattySettings hypeCalls).2.filter (fun e => isGift e.event))[i]? = some e →
      [bytes "g", bytes "h", bytes "i"][i % 3]? = some e.chat.text) ∧
    (hypeRun chattySettings hypeCalls).2.Pairwise
      (fun earlier later => seconds 2 ≤ later.time - earlier.time) := by
  have ordered : (handleTimes hypeCalls).Pairwise (· ≤ ·) := by decide
  have rotates := hype_rotates chattySettings_accepted ordered
  exact ⟨by decide +kernel, rotates.2.1 rfl, rotates.2.2.2.2.2.1, rotates.2.2.2.2.2.2⟩

end TwitchBot
