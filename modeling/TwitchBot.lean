import TwitchBot.Library.ExceptRun
import TwitchBot.Library.StringView
import TwitchBot.Library.CursorLoop
import TwitchBot.Library.Transducer
import TwitchBot.Library.Framing
import TwitchBot.Library.LastWins
import TwitchBot.Library.SlidingWindow
import TwitchBot.Library.IoContext
import TwitchBot.Library.IoRelabelling
import TwitchBot.Library.PendingWork
import TwitchBot.Library.ClockReadings
import TwitchBot.Library.Simulation
import TwitchBot.Bytes
import TwitchBot.Trim
import TwitchBot.Irc
import TwitchBot.MessageGrammar
import TwitchBot.GrammarSections
import TwitchBot.GrammarParameters
import TwitchBot.GrammarExact
import TwitchBot.ParserExact
import TwitchBot.ParserBounds
import TwitchBot.TagDecoding
import TwitchBot.LastParameter
import TwitchBot.StreamAssembler
import TwitchBot.Fragmentation
import TwitchBot.StreamExact
import TwitchBot.Json
import TwitchBot.Config
import TwitchBot.ConfigValid
import TwitchBot.DurationRange
import TwitchBot.EnvFile
import TwitchBot.EnvFileExact
import TwitchBot.EnvFileErrors
import TwitchBot.Outbound
import TwitchBot.Automation
import TwitchBot.AutomationCases
import TwitchBot.RuleAutomata
import TwitchBot.RuleIndependence
import TwitchBot.SessionProtocol
import TwitchBot.SpokenLines
import TwitchBot.ConfigCanonical
import TwitchBot.PingPong
import TwitchBot.ProtocolRuns
import TwitchBot.ReadyGating
import TwitchBot.ReadyOnce
import TwitchBot.ProtocolDrivers
import TwitchBot.SpokenConfig
import TwitchBot.HypeRotation
import TwitchBot.RateLimiter
import TwitchBot.LimiterExact
import TwitchBot.Outbox
import TwitchBot.OutboxCases
import TwitchBot.Session
import TwitchBot.SessionMoves
import TwitchBot.SingleWriter
import TwitchBot.RateHistory
import TwitchBot.WriteTimes
import TwitchBot.Wakeup
import TwitchBot.SessionProtocolRuns
import TwitchBot.Requests
import TwitchBot.ClosedSession
import TwitchBot.Backlog
import TwitchBot.Client
import TwitchBot.Pacing
import TwitchBot.ClientRuns
import TwitchBot.RateSafety
import TwitchBot.SessionEnds
import TwitchBot.LifecycleEnds
import TwitchBot.Lifecycle
import TwitchBot.AuthTimeout
import TwitchBot.WriteLedger
import TwitchBot.Charges
import TwitchBot.WriteOrder
import TwitchBot.OutboundOrder
import TwitchBot.HandlerRules
import TwitchBot.QueueFrames
import TwitchBot.ConnectionStages
import TwitchBot.ConnectionRuns
import TwitchBot.ClientSessions
import TwitchBot.Shutdown
import TwitchBot.Supervision
import TwitchBot.Reception
import TwitchBot.Replies
import TwitchBot.WireLanguage
import TwitchBot.Dialogue
import TwitchBot.SettingsDocument
import TwitchBot.ChatCauses
import TwitchBot.Relabelling
import TwitchBot.Exceptions
import TwitchBot.TokenSecrecy
import TwitchBot.Main
import TwitchBot.Startup
import TwitchBot.EventLoop
import TwitchBot.Waits
