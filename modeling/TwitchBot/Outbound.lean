import TwitchBot.Bytes

/-! Translation of `outbound.hpp`. -/

namespace TwitchBot

/-- `steady_clock::time_point`, in nanoseconds. -/
abbrev Time := Int

/-- `std::chrono::seconds(count)` as a duration of the clock. -/
def seconds (count : Int) : Time := count * 1000000000

inductive OutboundKind
  | system
  | join
  | chat
  deriving DecidableEq, Repr

structure OutboundMessage where
  wireData : Bytes
  kind : OutboundKind
  channel : Bytes
  due : Time
  sequence : Nat
  deriving DecidableEq

end TwitchBot
