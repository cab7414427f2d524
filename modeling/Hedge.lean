import Hedge.Common.Bytes
import Hedge.Common.Machine
import Hedge.Common.Run
import Hedge.Common.Pool
import Hedge.Common.Ladder
import Hedge.Common.FifoMap
import Hedge.Common.Log
import Hedge.Common.Reader
import Hedge.Common.Decimal
import Hedge.Common.Calendar
import Hedge.Common.Recency
import Hedge.Common.Streaks
import Hedge.Common.Selection
import Hedge.Common.Retry
import Hedge.Common.Chase
import Hedge.Common.CostBasis
import Hedge.Common.ExactFloat
import Hedge.Common.Json
import Hedge.Common.JsonText
import Hedge.Common.Base64
import Hedge.Common.Layout
import Hedge.Common.Records
import Hedge.Common.FloatOps
import Hedge.Common.Subject
import Hedge.Common.Table
import Hedge.Common.Windowed
import Hedge.Core.Types
import Hedge.Core.RingWindow
import Hedge.Core.BoundedLog
import Hedge.Core.Market
import Hedge.Bus
import Hedge.Bus.HotStream
import Hedge.BrokerApi
import Hedge.MarketData.Ticks
import Hedge.MarketData.UpstoxFeed
import Hedge.MarketData.UpstoxOptions
import Hedge.MarketData.Adapter
import Hedge.MarketData.Breadth
import Hedge.MarketData.Delivery
import Hedge.MarketData.Interner
import Hedge.MarketData.Interning
import Hedge.Features.State
import Hedge.Features.Indicators
import Hedge.Features.Engine
import Hedge.Features.Sessions
import Hedge.Features.Sweeps
import Hedge.Features.History
import Hedge.Features.Integers
import Hedge.Features.Mirror
import Hedge.Features.DeltaWindow
import Hedge.Signals.Gating
import Hedge.Signals.Engine
import Hedge.Signals.Strategies
import Hedge.Warm.Cache
import Hedge.Warm.Rankings
import Hedge.Warm.Tables
import Hedge.Warm.Updater
import Hedge.Warm.Shadow
import Hedge.Warm.Staleness
import Hedge.Orderflow.RollingDelta
import Hedge.Orderflow.Buckets
import Hedge.Orderflow.Engine
import Hedge.Orderflow.BookOrder
import Hedge.Orderflow.Detector
import Hedge.Orderflow.Spoofing
import Hedge.Orderflow.Vanishing
import Hedge.Orderflow.Aggressors
import Hedge.Orderflow.Windows
import Hedge.Risk.Approval
import Hedge.Risk.State
import Hedge.Risk.Engine
import Hedge.Risk.Gates
import Hedge.Risk.Soundness
import Hedge.Risk.Runs
import Hedge.Risk.InFlight
import Hedge.Risk.Restarts
import Hedge.Risk.Service
import Hedge.Risk.Frequency
import Hedge.Risk.KillSwitch
import Hedge.Risk.Cooldowns
import Hedge.Exec.Error
import Hedge.Exec.Lifecycle
import Hedge.Exec.Fsm
import Hedge.Exec.Retry
import Hedge.Exec.Router
import Hedge.Exec.Evidence
import Hedge.Demo.Suppression
import Hedge.Demo.Chain
import Hedge.Demo.Coordinator
import Hedge.Demo.Runs
import Hedge.Demo.Trades
import Hedge.Exec.AdapterWindow
import Hedge.Exec.Engine
import Hedge.Exec.Submit
import Hedge.Exec.Failure
import Hedge.Exec.Tracking
import Hedge.Exec.Reporting
import Hedge.Exec.Authority
import Hedge.Exec.Failover
import Hedge.Exec.Threads
import Hedge.Exec.Interleaving
import Hedge.Exec.FillDeltas
import Hedge.Exec.Notional
import Hedge.Exec.Custody
import Hedge.Exec.Service
import Hedge.Exec.Polling
import Hedge.Positions.Pnl
import Hedge.Positions.Conservation
import Hedge.Positions.Engine
import Hedge.Positions.Aggregate
import Hedge.Positions.Concurrent
import Hedge.Positions.Service
import Hedge.Broker.Simulated
import Hedge.Broker.SimulatedBook
import Hedge.Broker.SimulatedOrders
import Hedge.Broker.AverageFill
import Hedge.Supervisor.Policy
import Hedge.Supervisor.Detector
import Hedge.Supervisor.State
import Hedge.Supervisor.Pipeline
import Hedge.Supervisor.Loop
import Hedge.Supervisor.Backoff
import Hedge.MarketData.UpstoxConnection
import Hedge.Supervisor.Restart
import Hedge.Supervisor.Store
import Hedge.Supervisor.Fallback
import Hedge.Gateway.Protocol
import Hedge.Gateway.Dispatcher
import Hedge.Gateway.Signals
import Hedge.Gateway.Join
import Hedge.Gateway.Shadow
import Hedge.Gateway.Events
import Hedge.Gateway.Routing
import Hedge.Gateway.DecoderShim
import Hedge.Gateway.Connections
import Hedge.Cockpit.Client
import Hedge.Cockpit.Session
import Hedge.Cockpit.Alerts
import Hedge.Cockpit.Reducers
import Hedge.Cockpit.Store
import Hedge.Cockpit.StoreRuns
import Hedge.Cockpit.FeedStatus
import Hedge.Pipeline.Fills
import Hedge.Pipeline.Identity
import Hedge.Pipeline.Controls
import Hedge.Pipeline.Orders
import Hedge.Pipeline.Signals
import Hedge.Pipeline.FeatureWire
import Hedge.Signals.Publishing
import Hedge.Pipeline.CorrelationIds
import Hedge.Pipeline.RankKeys
import Hedge.Pipeline.Volatility
import Hedge.Pipeline.SweepReversal
import Hedge.Pipeline.Compression
import Hedge.Pipeline.EntryBrackets
import Hedge.Replay.Record
import Hedge.Replay.Wire
import Hedge.Replay.Framing
import Hedge.Replay.Segments
import Hedge.Replay.Ledger
import Hedge.Replay.Store
import Hedge.Replay.RoundTrip
import Hedge.Replay.Player
import Hedge.Replay.Pacing
import Hedge.Replay.Recorder
import Hedge.Replay.Playback
import Hedge.Pipeline.Playback
import Hedge.Session.Controller
import Hedge.Session.Clocks
import Hedge.Session.Brackets
import Hedge.Session.Walk
import Hedge.Signals.WarMode
import Hedge.Ai.Governance
import Hedge.Ai.Correlations
import Hedge.Ai.ShadowMode
import Hedge.Ai.News
import Hedge.Ai.NewsRuns
import Hedge.Ai.PrevDay
import Hedge.Ai.PrevDayRuns
import Hedge.Ai.PrevDayQuery
import Hedge.Ai.Ollama
import Hedge.Ai.OllamaFallback
import Hedge.Obs.LogRing
import Hedge.Obs.LogShipping
import Hedge.Obs.LogConservation
import Hedge.Ai.Psychology
import Hedge.Ai.Regime
import Hedge.Ai.Priority
import Hedge.Ai.PriorityRuns
import Hedge.Binance.Risk
import Hedge.Binance.Execution
import Hedge.Binance.Flow
import Hedge.Binance.Limits
import Hedge.Cockpit.Subscribing
import Hedge.Cockpit.Sockets
import Hedge.Cockpit.Reconnect
