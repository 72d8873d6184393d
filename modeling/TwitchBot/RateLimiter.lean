import Mathlib.Algebra.Order.Group.Int
import Mathlib.Data.Finmap
import TwitchBot.Outbound
import TwitchBot.Library.SlidingWindow

/-! Translation of `rate_limiter.hpp` and `rate_limiter.cpp`. -/

namespace TwitchBot

open SlidingWindow

structure RateLimiter where
  globalChat : List Time := []
  joins : List Time := []
  channelChat : Finmap (fun _ : Bytes => Time) := ∅

def maxWindowMessages : Nat := 20
def chatWindow : Time := seconds 30
def joinWindow : Time := seconds 10
def channelInterval : Time := seconds 1

namespace RateLimiter

/-- The later of `allowed` and one second after the last chat of the channel. -/
def channelFree (limiter : RateLimiter) (channel : Bytes) (allowed : Time) : Time :=
  match limiter.channelChat.lookup channel with
  | none => allowed
  | some sent => max allowed (sent + channelInterval)

def nextAllowed (limiter : RateLimiter) (kind : OutboundKind) (channel : Bytes) (now : Time) :
    Time × RateLimiter :=
  match kind with
  | .system => (now, limiter)
  | .join =>
    let joins := prune limiter.joins (now - joinWindow)
    (nextFree maxWindowMessages joinWindow joins now, { limiter with joins := joins })
  | .chat =>
    let globalChat := prune limiter.globalChat (now - chatWindow)
    let limiter := { limiter with globalChat := globalChat }
    (limiter.channelFree channel (nextFree maxWindowMessages chatWindow globalChat now), limiter)

def record (limiter : RateLimiter) (kind : OutboundKind) (channel : Bytes) (sentAt : Time) : RateLimiter :=
  match kind with
  | .system => limiter
  | .join => { limiter with joins := limiter.joins ++ [sentAt] }
  | .chat =>
    { limiter with
      globalChat := limiter.globalChat ++ [sentAt]
      channelChat := limiter.channelChat.insert channel sentAt }

def reset (_ : RateLimiter) : RateLimiter := {}

/-- The answer of `next_allowed` without what it prunes. -/
def allowedAt (limiter : RateLimiter) (kind : OutboundKind) (channel : Bytes) (now : Time) : Time :=
  (limiter.nextAllowed kind channel now).1

theorem allowedAt_join (limiter : RateLimiter) (channel : Bytes) (now : Time) :
    limiter.allowedAt .join channel now =
      nextFree maxWindowMessages joinWindow (prune limiter.joins (now - joinWindow)) now := rfl

theorem allowedAt_chat (limiter : RateLimiter) (channel : Bytes) (now : Time) :
    limiter.allowedAt .chat channel now = limiter.channelFree channel
      (nextFree maxWindowMessages chatWindow (prune limiter.globalChat (now - chatWindow)) now) := rfl

/-- What one query prunes does not change the answer to another at the same time. -/
@[simp] theorem nextAllowed_allowedAt (limiter : RateLimiter) (kind other : OutboundKind)
    (channel otherChannel : Bytes) (now : Time) :
    (limiter.nextAllowed kind channel now).2.allowedAt other otherChannel now =
      limiter.allowedAt other otherChannel now := by
  cases kind with
  | system => rfl
  | join =>
    cases other with
    | join => simp only [allowedAt_join, nextAllowed, prune_prune le_rfl]
    | system => rfl
    | chat => rfl
  | chat =>
    cases other with
    | chat => simp only [allowedAt_chat, nextAllowed, prune_prune le_rfl, channelFree]
    | system => rfl
    | join => rfl

theorem channelFree_le {limiter : RateLimiter} {channel : Bytes} {allowed bound : Time} :
    limiter.channelFree channel allowed ≤ bound ↔
      allowed ≤ bound ∧ ∀ sent, limiter.channelChat.lookup channel = some sent →
        sent + channelInterval ≤ bound := by
  unfold channelFree
  split
  · rename_i unknown
    simp [unknown]
  · rename_i sent known
    simp [known]

/-- No answer is earlier than the time of the query. -/
theorem le_nextAllowed (limiter : RateLimiter) (kind : OutboundKind) (channel : Bytes) (now : Time) :
    now ≤ (limiter.nextAllowed kind channel now).1 := by
  cases kind with
  | system => exact le_rfl
  | join => exact le_nextFree_prune _ _ _ _
  | chat =>
    have window : now ≤ nextFree maxWindowMessages chatWindow
        (prune limiter.globalChat (now - chatWindow)) now := le_nextFree_prune _ _ _ _
    simp only [nextAllowed, channelFree]
    split
    · exact window
    · exact window.trans (le_max_left _ _)

/-- No answer is later than a time at which the limiter permits the message. -/
theorem allowedAt_le {limiter : RateLimiter} {kind : OutboundKind} {channel : Bytes} {next : Time}
    (allowed : limiter.allowedAt kind channel next ≤ next) (now : Time) :
    limiter.allowedAt kind channel now ≤ max now next := by
  cases kind with
  | system => exact le_max_left _ _
  | join => exact nextFree_le (by decide) allowed
  | chat =>
    rw [allowedAt_chat] at allowed ⊢
    obtain ⟨window, channelRoom⟩ := channelFree_le.mp allowed
    refine channelFree_le.mpr ⟨nextFree_le (by decide) window, fun sent known => ?_⟩
    exact (channelRoom sent known).trans (le_max_right _ _)

/-- What is permitted stays permitted. -/
theorem allowedAt_later {limiter : RateLimiter} {kind : OutboundKind} {channel : Bytes} {now next : Time}
    (allowed : limiter.allowedAt kind channel now ≤ now) (le : now ≤ next) :
    limiter.allowedAt kind channel next ≤ next :=
  (allowedAt_le allowed next).trans (max_le le_rfl le)

end RateLimiter

end TwitchBot
