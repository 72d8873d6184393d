import Mathlib.Algebra.Order.Group.Defs
import Mathlib.Data.List.TakeWhile

/-!
A limit of `limit` events in any window of a given width, enforced by a queue
of event times from which the front is dropped once it has left the window.
-/

namespace SlidingWindow

variable {α : Type*} [LinearOrder α]

def prune (entries : List α) (cutoff : α) : List α := entries.dropWhile (fun entry => entry ≤ cutoff)

theorem prune_cons (front : α) (rest : List α) (cutoff : α) :
    prune (front :: rest) cutoff = if front ≤ cutoff then prune rest cutoff else front :: rest := by
  by_cases out : front ≤ cutoff <;> simp [prune, out]

theorem prune_length_le (entries : List α) (cutoff : α) : (prune entries cutoff).length ≤ entries.length :=
  (List.dropWhile_sublist _).length_le

/-- Pruning splits off entries that are old enough. -/
theorem prune_split (entries : List α) (cutoff : α) :
    ∃ gone, entries = gone ++ prune entries cutoff ∧ ∀ entry ∈ gone, entry ≤ cutoff := by
  refine ⟨entries.takeWhile (fun entry => entry ≤ cutoff), (List.takeWhile_append_dropWhile).symm, ?_⟩
  intro entry member
  simpa using List.mem_takeWhile_imp member

/-- A later pruning makes an earlier one superfluous. -/
theorem prune_prune {early late : α} (le : early ≤ late) (entries : List α) :
    prune (prune entries early) late = prune entries late := by
  induction entries with
  | nil => rfl
  | cons front rest ih =>
    rw [prune_cons front rest early]
    split
    · rename_i out
      rw [ih, prune_cons, if_pos (out.trans le)]
    · rfl

theorem front_lt_of_prune {entries rest : List α} {front cutoff : α}
    (pruned : prune entries cutoff = front :: rest) : cutoff < front := by
  induction entries with
  | nil => cases pruned
  | cons first others ih =>
    rw [prune_cons] at pruned
    split at pruned
    · exact ih pruned
    · rename_i inside
      cases pruned
      exact lt_of_not_ge inside

variable [AddCommGroup α]

/-- An event and the one `limit` places later are at least a window apart. -/
def Spaced (limit : ℕ) (window : α) (times : List α) : Prop :=
  ∀ i a b, times[i]? = some a → times[i + limit]? = some b → a + window ≤ b

/-- The time from which pruned entries leave room for one more event. -/
def nextFree (limit : ℕ) (window : α) (entries : List α) (now : α) : α :=
  match entries with
  | [] => now
  | front :: _ => if entries.length < limit then now else front + window

/-- The entries are the end of a history whose other events left the window. -/
structure Tracks (limit : ℕ) (window : α) (history entries : List α) (now : α) : Prop where
  spaced : Spaced limit window history
  sorted : history.Pairwise (· ≤ ·)
  dropped : ∃ gone, history = gone ++ entries ∧ ∀ event ∈ gone, event + window ≤ now
  past : ∀ event ∈ history, event ≤ now

theorem Tracks.nil (limit : ℕ) (window now : α) : Tracks limit window [] [] now :=
  ⟨by simp [Spaced], .nil, ⟨[], rfl, by simp⟩, by simp⟩

theorem Tracks.later {limit : ℕ} {window now next : α} {history entries : List α}
    (tracks : Tracks limit window history entries now) (le : now ≤ next) :
    Tracks limit window history entries next := by
  obtain ⟨gone, split, old⟩ := tracks.dropped
  exact ⟨tracks.spaced, tracks.sorted, ⟨gone, split, fun event member => (old event member).trans le⟩,
    fun event member => (tracks.past event member).trans le⟩

/-- With room among the entries one more event keeps the history spaced: the
event `limit` places before it is not among the entries. -/
theorem Tracks.spaced_push {limit : ℕ} {window now : α} {history entries : List α}
    (tracks : Tracks limit window history entries now) (room : entries.length < limit) :
    Spaced limit window (history ++ [now]) := by
  obtain ⟨gone, split, old⟩ := tracks.dropped
  intro i a b first second
  rcases Nat.lt_trichotomy (i + limit) history.length with inside | last | outside
  · rw [List.getElem?_append_left inside] at second
    rw [List.getElem?_append_left (by omega)] at first
    exact tracks.spaced i a b first second
  · have same : b = now := by simpa [last] using second.symm
    have length : history.length = gone.length + entries.length := by rw [split, List.length_append]
    rw [List.getElem?_append_left (by omega), split, List.getElem?_append_left (by omega)] at first
    rw [same]
    exact old a (List.mem_of_getElem? first)
  · rw [List.getElem?_eq_none (by simp; omega)] at second
    cases second

omit [LinearOrder α] in
theorem nextFree_of_room {limit : ℕ} {window : α} {entries : List α} (room : entries.length < limit) (now : α) :
    nextFree limit window entries now = now := by
  cases entries with
  | nil => rfl
  | cons front rest => exact if_pos room

variable [IsOrderedAddMonoid α]

theorem Tracks.prune {limit : ℕ} {window now : α} {history entries : List α}
    (tracks : Tracks limit window history entries now) :
    Tracks limit window history (prune entries (now - window)) now := by
  obtain ⟨gone, rfl, old⟩ := tracks.dropped
  obtain ⟨more, split, out⟩ := prune_split entries (now - window)
  refine ⟨tracks.spaced, tracks.sorted, ⟨gone ++ more, ?_, ?_⟩, tracks.past⟩
  · rw [List.append_assoc, ← split]
  · intro event member
    rcases List.mem_append.mp member with early | late
    · exact old event early
    · exact le_sub_iff_add_le.mp (out event late)

/-- An event may be added when the entries still in the window leave room. -/
theorem Tracks.push {limit : ℕ} {window now : α} {history entries : List α}
    (tracks : Tracks limit window history entries now)
    (room : (SlidingWindow.prune entries (now - window)).length < limit) :
    Tracks limit window (history ++ [now]) (entries ++ [now]) now := by
  obtain ⟨gone, split, old⟩ := tracks.dropped
  refine ⟨tracks.prune.spaced_push room, ?_, ⟨gone, by rw [split, List.append_assoc], old⟩, ?_⟩
  · simpa [List.pairwise_append] using ⟨tracks.sorted, tracks.past⟩
  · intro event member
    rcases List.mem_append.mp member with early | late
    · exact tracks.past event early
    · exact (List.mem_singleton.mp late).le

/-- Pruned entries have room exactly when the next free time has come. -/
theorem nextFree_prune_le_iff {limit : ℕ} (positive : 0 < limit) (window : α) (entries : List α) (now : α) :
    nextFree limit window (prune entries (now - window)) now ≤ now ↔
      (prune entries (now - window)).length < limit := by
  constructor
  · intro free
    by_contra full
    cases pruned : prune entries (now - window) with
    | nil => simp [pruned, positive] at full
    | cons front rest =>
      rw [pruned] at free full
      rw [nextFree, if_neg full] at free
      exact absurd free (not_le.mpr (sub_lt_iff_lt_add.mp (front_lt_of_prune pruned)))
  · intro room
    exact (nextFree_of_room room now).le

theorem le_nextFree_prune (limit : ℕ) (window : α) (entries : List α) (now : α) :
    now ≤ nextFree limit window (prune entries (now - window)) now := by
  cases pruned : prune entries (now - window) with
  | nil => exact le_rfl
  | cons front rest =>
    rw [nextFree]
    split
    · exact le_rfl
    · exact (sub_lt_iff_lt_add.mp (front_lt_of_prune pruned)).le

/-- The next free time is not later than any time with room: the front has to
leave the window first. -/
theorem nextFree_le {limit : ℕ} (positive : 0 < limit) {window : α} {entries : List α} {now next : α}
    (free : nextFree limit window (prune entries (next - window)) next ≤ next) :
    nextFree limit window (prune entries (now - window)) now ≤ max now next := by
  rw [nextFree_prune_le_iff positive] at free
  by_cases room : (prune entries (now - window)).length < limit
  · rw [nextFree_of_room room]
    exact le_max_left _ _
  · have order : now - window ≤ next - window := by
      by_contra back
      rw [← prune_prune (not_le.mp back).le] at room
      exact room ((prune_length_le _ _).trans_lt free)
    rw [← prune_prune order] at free
    cases pruned : prune entries (now - window) with
    | nil => exact le_max_left _ _
    | cons front rest =>
      rw [pruned] at free room
      rw [prune_cons] at free
      split at free
      · rename_i out
        rw [nextFree, if_neg room]
        exact (le_sub_iff_add_le.mp out).trans (le_max_right _ _)
      · exact absurd free room

/-- How many events lie in the half-open window that ends at a time. -/
def recent (window : α) (history : List α) (time : α) : ℕ :=
  history.countP (fun event => decide (time - window < event ∧ event ≤ time))

omit [IsOrderedAddMonoid α] in
/-- Behind the last event the upper end of the window does not matter. -/
theorem recent_of_past {window time : α} {history : List α} (past : ∀ event ∈ history, event ≤ time) :
    recent window history time = history.countP (fun event => decide (time - window < event)) := by
  refine List.countP_congr (fun event member => ?_)
  simp [past event member]

/-- An event that finds room in its window is a window away from the event
`limit` places before it. -/
theorem Spaced.concat {limit : ℕ} {window time : α} {history : List α} (spaced : Spaced limit window history)
    (sorted : history.Pairwise (· ≤ ·)) (past : ∀ event ∈ history, event ≤ time)
    (room : recent window history time < limit) : Spaced limit window (history ++ [time]) := by
  intro i a b first second
  rcases Nat.lt_trichotomy (i + limit) history.length with inside | last | outside
  · rw [List.getElem?_append_left inside] at second
    rw [List.getElem?_append_left (by omega)] at first
    exact spaced i a b first second
  · have same : b = time := by simpa [last] using second.symm
    subst same
    rw [List.getElem?_append_left (by omega)] at first
    by_contra near
    rw [not_le, ← sub_lt_iff_lt_add] at near
    obtain ⟨bound, atFirst⟩ := List.getElem?_eq_some_iff.mp first
    have behind : history.drop i = a :: history.drop (i + 1) := by
      rw [List.drop_eq_getElem_cons bound, atFirst]
    have inside : ∀ event ∈ history.drop i, decide (b - window < event) = true := by
      intro event member
      have order : a ≤ event := by
        have ordered := sorted.drop (i := i)
        rw [behind] at member ordered
        rcases List.mem_cons.mp member with rfl | later
        · exact le_rfl
        · exact (List.pairwise_cons.mp ordered).1 event later
      exact decide_eq_true (near.trans_le order)
    have all := List.countP_eq_length.mpr inside
    have fewer : (history.drop i).countP (fun event => decide (b - window < event)) ≤
        history.countP (fun event => decide (b - window < event)) := (List.drop_sublist i history).countP_le
    rw [recent_of_past past] at room
    simp only [List.length_drop] at all
    omega
  · rw [List.getElem?_eq_none (by simp; omega)] at second
    cases second

/-- A recorded event that found room in its window, at a time not before the
other events. -/
theorem Tracks.record {limit : ℕ} {window now next time : α} {history entries : List α}
    (tracks : Tracks limit window history entries now) (past : ∀ event ∈ history, event ≤ time)
    (room : recent window history time < limit) (le : now ≤ next) (reached : time ≤ next) :
    Tracks limit window (history ++ [time]) (entries ++ [time]) next := by
  obtain ⟨gone, split, old⟩ := tracks.dropped
  refine ⟨tracks.spaced.concat tracks.sorted past room, ?_, ⟨gone, by rw [split, List.append_assoc], ?_⟩, ?_⟩
  · simpa [List.pairwise_append] using ⟨tracks.sorted, past⟩
  · exact fun event member => (old event member).trans le
  · intro event member
    rcases List.mem_append.mp member with early | late
    · exact (tracks.past event early).trans le
    · exact (List.mem_singleton.mp late).trans_le reached

/-- What was dropped is in no window that ends from now on. -/
theorem Tracks.recent_eq {limit : ℕ} {window now time : α} {history entries : List α}
    (tracks : Tracks limit window history entries now) (le : now ≤ time) :
    recent window history time = entries.countP (fun event => decide (time - window < event)) := by
  obtain ⟨gone, rfl, old⟩ := tracks.dropped
  have none : gone.countP (fun event => decide (time - window < event)) = 0 := by
    refine List.countP_eq_zero.mpr (fun event member => ?_)
    have out := (old event member).trans le
    simpa using le_sub_iff_add_le.mpr out
  rw [recent_of_past (fun event member => (tracks.past event member).trans le), List.countP_append, none,
    Nat.zero_add]

/-- Never more than `limit` entries are left in the window. -/
theorem Tracks.length_le {limit : ℕ} {window now : α} {history entries : List α}
    (tracks : Tracks limit window history entries now) :
    (SlidingWindow.prune entries (now - window)).length ≤ limit := by
  by_contra beyond
  have pruned := tracks.prune
  obtain ⟨gone, split, _⟩ := pruned.dropped
  cases kept : SlidingWindow.prune entries (now - window) with
  | nil => simp [kept] at beyond
  | cons front rest =>
    rw [kept, List.length_cons, not_le] at beyond
    rw [kept] at split
    have first : history[gone.length]? = some front := by simp [split]
    obtain ⟨event, found⟩ : ∃ event, history[gone.length + limit]? = some event := by
      rw [split, List.getElem?_append_right (Nat.le_add_right _ _), Nat.add_sub_cancel_left]
      exact ⟨_, List.getElem?_eq_getElem (by simpa using beyond)⟩
    have apart := tracks.spaced gone.length front event first found
    have reached := tracks.past event (List.mem_of_getElem? found)
    exact absurd (apart.trans reached) (not_le.mpr (sub_lt_iff_lt_add.mp (front_lt_of_prune kept)))

/-- From now on there is room exactly from the next free time on. -/
theorem Tracks.recent_lt_iff {limit : ℕ} (positive : 0 < limit) {window now time : α} {history entries : List α}
    (tracks : Tracks limit window history entries now) (le : now ≤ time) :
    recent window history time < limit ↔
      nextFree limit window (SlidingWindow.prune entries (now - window)) now ≤ time := by
  have bound := tracks.length_le
  have sorted := tracks.prune.sorted
  obtain ⟨gone, split, _⟩ := tracks.prune.dropped
  rw [tracks.prune.recent_eq le]
  by_cases room : (SlidingWindow.prune entries (now - window)).length < limit
  · rw [nextFree_of_room room]
    exact iff_of_true (List.countP_le_length.trans_lt room) le
  · have full : (SlidingWindow.prune entries (now - window)).length = limit := by omega
    cases kept : SlidingWindow.prune entries (now - window) with
    | nil =>
      rw [kept, List.length_nil] at full
      omega
    | cons front rest =>
      rw [kept] at full room split
      rw [split, List.pairwise_append, List.pairwise_cons] at sorted
      rw [nextFree, if_neg room, ← full, ← not_le, ← not_iff_not, not_not, not_le]
      constructor
      · intro all
        have inside := List.countP_eq_length.mp (le_antisymm List.countP_le_length all) front List.mem_cons_self
        exact sub_lt_iff_lt_add.mp (of_decide_eq_true inside)
      · intro early
        refine (List.countP_eq_length.mpr (fun event member => ?_)).ge
        have order : front ≤ event := by
          rcases List.mem_cons.mp member with rfl | later
          · exact le_rfl
          · exact sorted.2.1.1 event later
        exact decide_eq_true ((sub_lt_iff_lt_add.mpr early).trans_le order)

end SlidingWindow
