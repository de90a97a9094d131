import AlphaMonitor.Exchange.Approvals
import AlphaMonitor.Exchange.FillPolls
import AlphaMonitor.Exchange.OrderAmounts
import AlphaMonitor.Exchange.OrderBuilder
import AlphaMonitor.Exchange.OrderIdRecovery
import AlphaMonitor.Feed.Connections
import AlphaMonitor.Feed.Drift
import AlphaMonitor.Feed.Freshness
import AlphaMonitor.Feed.FutureStamps
import AlphaMonitor.Feed.Health
import AlphaMonitor.Feed.LatestPrice
import AlphaMonitor.Feed.OrderbookEnvelope
import AlphaMonitor.Feed.PolymarketBooks
import AlphaMonitor.Feed.PriceChange
import AlphaMonitor.Feed.RateLimiter
import AlphaMonitor.Feed.Reconnect
import AlphaMonitor.Feed.RestBackoff
import AlphaMonitor.Feed.TokenRegistry
import AlphaMonitor.Feed.TopOfBook
import AlphaMonitor.Feed.Withdrawals
import AlphaMonitor.Lib.Chain
import AlphaMonitor.Lib.Csv
import AlphaMonitor.Lib.DedupWindow
import AlphaMonitor.Lib.Groups
import AlphaMonitor.Lib.LastWrite
import AlphaMonitor.Lib.LeastRecent
import AlphaMonitor.Lib.Pacing
import AlphaMonitor.Lib.Router
import AlphaMonitor.Lib.Run
import AlphaMonitor.Lib.Samples
import AlphaMonitor.Lib.SlidingWindow
import AlphaMonitor.Lib.Tally
import AlphaMonitor.Lib.TokenBucket
import AlphaMonitor.Lib.Utf8
import AlphaMonitor.Lib.Windows
import AlphaMonitor.Pair.Aggregator
import AlphaMonitor.Pair.Batches
import AlphaMonitor.Pair.Buckets
import AlphaMonitor.Pair.BuildBar
import AlphaMonitor.Pair.Confluence
import AlphaMonitor.Pair.Costs
import AlphaMonitor.Pair.FlushStale
import AlphaMonitor.Pair.Pending
import AlphaMonitor.Pair.ResponseDelay
import AlphaMonitor.Pair.ResponseSums
import AlphaMonitor.Pair.Rolling
import AlphaMonitor.Pair.RollingStats
import AlphaMonitor.Pair.TimeOrder
import AlphaMonitor.Shard.Dispatcher
import AlphaMonitor.Shard.Drops
import AlphaMonitor.Shard.FlowView
import AlphaMonitor.Shard.FlowWindows
import AlphaMonitor.Shard.Gaps
import AlphaMonitor.Shard.LookAhead
import AlphaMonitor.Shard.Sharding
import AlphaMonitor.Shard.Sync
import AlphaMonitor.Shock.Pairing
import AlphaMonitor.Store.Overrides
import AlphaMonitor.Store.Recovery
import AlphaMonitor.Store.Redelivery
import AlphaMonitor.Store.ShockIds
import AlphaMonitor.Store.ShockOrder
import AlphaMonitor.Store.Stats
import AlphaMonitor.Trade.Account
import AlphaMonitor.Trade.AlphaLog
import AlphaMonitor.Trade.Backoffs
import AlphaMonitor.Trade.CancelCharges
import AlphaMonitor.Trade.CancelDedup
import AlphaMonitor.Trade.CancelLimiter
import AlphaMonitor.Trade.CancelTargets
import AlphaMonitor.Trade.CancelVerify
import AlphaMonitor.Trade.Candidates
import AlphaMonitor.Trade.Chase
import AlphaMonitor.Trade.Engine
import AlphaMonitor.Trade.Entry
import AlphaMonitor.Trade.EntryCaps
import AlphaMonitor.Trade.EntryFills
import AlphaMonitor.Trade.EntryGate
import AlphaMonitor.Trade.EntryLadder
import AlphaMonitor.Trade.EntryPool
import AlphaMonitor.Trade.Executor
import AlphaMonitor.Trade.Exit
import AlphaMonitor.Trade.ExitFills
import AlphaMonitor.Trade.ExitOrders
import AlphaMonitor.Trade.ExitPrices
import AlphaMonitor.Trade.ExitTarget
import AlphaMonitor.Trade.Exposure
import AlphaMonitor.Trade.Fills
import AlphaMonitor.Trade.Handlers
import AlphaMonitor.Trade.MessageRouter
import AlphaMonitor.Trade.Moves
import AlphaMonitor.Trade.News
import AlphaMonitor.Trade.OrderErrors
import AlphaMonitor.Trade.OrderUpdates
import AlphaMonitor.Trade.Ranking
import AlphaMonitor.Trade.Refinement
import AlphaMonitor.Trade.Reprice
import AlphaMonitor.Trade.RequestSteps
import AlphaMonitor.Trade.Requests
import AlphaMonitor.Trade.Risk
import AlphaMonitor.Trade.RiskShards
import AlphaMonitor.Trade.Runs
import AlphaMonitor.Trade.SignalHistory
import AlphaMonitor.Trade.Signals
import AlphaMonitor.Trade.State
import AlphaMonitor.Trade.Strategy
import AlphaMonitor.Trade.WellFormed
