import Evosport.Lib.Dict
import Evosport.Lib.Run
import Evosport.Backtest.Book
import Evosport.Backtest.Venue
import Evosport.Backtest.Order
import Evosport.Backtest.Latency
import Evosport.Backtest.Matching
import Evosport.Backtest.Portfolio
import Evosport.Backtest.Ledger
import Evosport.Backtest.ExitPlan
import Evosport.Backtest.Engine
import Evosport.Backtest.Transitions
import Evosport.Backtest.Advance
import Evosport.Backtest.Lifecycle
import Evosport.Backtest.Causality
import Evosport.Backtest.Liquidity
import Evosport.Lib.Fallible
import Evosport.Backtest.Trace
import Evosport.Backtest.Attribution
import Evosport.Backtest.Oversell
import Evosport.Backtest.Coupling
import Evosport.Backtest.NoLookahead
import Evosport.Backtest.StaleBooks
import Evosport.Backtest.FastPath
import Evosport.Lib.Json
import Evosport.Lib.Sha256
import Evosport.Backtest.LimitPrice
import Evosport.Lib.JsonParse
import Evosport.Lib.LineLog
import Evosport.Orchestrator.Durability
import Evosport.Orchestrator.ExitExecutor
import Evosport.Orchestrator.LadderExposure
import Evosport.Data.ContentHash
import Evosport.Lib.Folder
import Evosport.Data.Freeze
import Evosport.Data.Publication
import Evosport.Jobs.JobRunner
import Evosport.Jobs.JobOrder
import Evosport.Jobs.JobSafety
import Evosport.Backtest.Settlement
import Evosport.Backtest.Arrivals
import Evosport.Backtest.Depth
import Evosport.Backtest.Priority
import Evosport.Backtest.Outstanding
import Evosport.Backtest.Budget
import Evosport.Backtest.Gate
import Evosport.Semantics.Football
import Evosport.Data.PinSafety
import Evosport.Semantics.SettlementValue
import Evosport.Data.AsOf
import Evosport.Data.Projection
import Evosport.Backtest.Progress
import Evosport.Jobs.Cancellation
import Evosport.Orchestrator.PlanCoverage
import Evosport.Execution.LegSubmit
import Evosport.Execution.PriceBounds
import Evosport.Execution.SingleOrder
import Evosport.Execution.DailySpend
import Evosport.Orchestrator.FastSafety
import Evosport.Orchestrator.RecordEvents
import Evosport.Orchestrator.OpenOrderCap
import Evosport.Persistence.CommitRetry
import Evosport.Orchestrator.LadderReprice
import Evosport.Lib.BinaryProgram
import Evosport.Optimization.ConstraintSolver
import Evosport.Data.Pruners
import Evosport.Lib.Shed
import Evosport.Data.PruneLoops
import Evosport.Data.PruneSafety
import Evosport.Data.Compactor
import Evosport.Data.CompactorSafety
import Evosport.Lib.Double
import Evosport.Lib.HeapMerge
import Evosport.Lib.IsoDate
import Evosport.Lib.Sha1
import Evosport.RecordedBus.Envelope
import Evosport.RecordedBus.Parquet
import Evosport.RecordedBus.Flushed
import Evosport.RecordedBus.Reading
import Evosport.RecordedBus.Bus
import Evosport.RecordedBus.ReplayExact
import Evosport.Orchestrator.HotExposure
import Evosport.Orchestrator.HotState
import Evosport.Backtest.FillOrKill
import Evosport.Backtest.Indexes
import Evosport.Backtest.QueueDecay
import Evosport.Backtest.QueueGate
import Evosport.Backtest.QueueRuns
import Evosport.Orchestrator.ExitFills
import Evosport.Backtest.Drawdown
import Evosport.Backtest.Resample
import Evosport.Backtest.TradeReturn
import Evosport.Backtest.Cpcv
import Evosport.Backtest.WalkForward
import Evosport.Data.Coverage
import Evosport.Experiments.Package
import Evosport.Experiments.PackageExact
import Evosport.Data.Merge
import Evosport.Orchestrator.IdempotencyKey
import Evosport.Orchestrator.GatePipeline
import Evosport.Orchestrator.LegAllocation
import Evosport.FillSimulator.CounterfactualReplay
import Evosport.Lib.Ladder
import Evosport.Optimization.Vwap
import Evosport.Utils.FifoPnl
import Evosport.Simulation.ExecutionSimulator
import Evosport.ExternalData.BookSink
import Evosport.ExternalData.SinkAccounts
import Evosport.Experiments.Runner
import Evosport.Experiments.Reuse
import Evosport.Experiments.ConcurrentRuns
import Evosport.RecordedBus.RingLedger
import Evosport.Data.CapPasses
import Evosport.Data.RetentionCaps
import Evosport.Optimization.BackendAgreement
import Evosport.Lib.Greedy
import Evosport.Optimization.IpOracle
import Evosport.Optimization.OracleFallback
import Evosport.Optimization.OracleMarkets
import Evosport.Optimization.TakerEstimate
import Evosport.Optimization.ParallelExecutor
import Evosport.Optimization.LegReports
import Evosport.Lib.TokenBucket
import Evosport.Utils.RateLimiter
import Evosport.Lib.FirstSeen
import Evosport.Orchestrator.SignalQueue
import Evosport.Orchestrator.WalletDelivery
import Evosport.Orchestrator.WalletReads
import Evosport.Orchestrator.WalletTakeBack
import Evosport.Execution.PriceChase
import Evosport.Lib.Expiring
import Evosport.Optimization.FrankWolfe
import Evosport.Orchestrator.PositionMarks
import Evosport.Orchestrator.SignalBridge
import Evosport.RecordedBus.TopicCatalog
import Evosport.RecordedBus.TopicStats
