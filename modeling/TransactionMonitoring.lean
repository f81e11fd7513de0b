import TransactionMonitoring.Runs
import TransactionMonitoring.Faults
import TransactionMonitoring.Warehouse
import TransactionMonitoring.Visibility
import TransactionMonitoring.DeadLetter
import TransactionMonitoring.RetryBudget
import TransactionMonitoring.Feed
import TransactionMonitoring.Replacing
import TransactionMonitoring.Repurge
import TransactionMonitoring.Verdicts
import TransactionMonitoring.Reconnect
import TransactionMonitoring.FailureCounting
import TransactionMonitoring.Polling
import TransactionMonitoring.Publish
import TransactionMonitoring.Deferral
import TransactionMonitoring.Engine
import TransactionMonitoring.Rollback
import TransactionMonitoring.HashChain
import TransactionMonitoring.RollForward
import TransactionMonitoring.ChainSync
import TransactionMonitoring.Ingest
import TransactionMonitoring.CursorCount
import TransactionMonitoring.Lifecycle
import TransactionMonitoring.Backfill
import TransactionMonitoring.Mempool
import TransactionMonitoring.CollisionOutcomes
import TransactionMonitoring.Alerts
import TransactionMonitoring.AnomalyOverlay
import TransactionMonitoring.AnomalyStats
import TransactionMonitoring.RateLimit
import TransactionMonitoring.SlotTime
import TransactionMonitoring.Retraction
import TransactionMonitoring.VerdictLocality
import TransactionMonitoring.TopAlerts
import TransactionMonitoring.GroupedAlerts
import TransactionMonitoring.Baselines
import TransactionMonitoring.BaselineCache
import TransactionMonitoring.Admins
import TransactionMonitoring.Coverage
import TransactionMonitoring.Reports
import TransactionMonitoring.Reconciliation
import TransactionMonitoring.History
import TransactionMonitoring.KupoTriggers
import TransactionMonitoring.KupoHost
import TransactionMonitoring.Tokens
import TransactionMonitoring.Jobs
import TransactionMonitoring.Deletion
import TransactionMonitoring.JsonValue
import TransactionMonitoring.DatumStructure
import TransactionMonitoring.References
import TransactionMonitoring.ResolutionOrder
import TransactionMonitoring.JsonText
import TransactionMonitoring.FrameRecovery
import TransactionMonitoring.BlockHeader
import TransactionMonitoring.Sandwich
import TransactionMonitoring.SlidingWindow
import TransactionMonitoring.SubsetSums
import TransactionMonitoring.ClosingLeg
import TransactionMonitoring.Layers
import TransactionMonitoring.Cycles
import TransactionMonitoring.Csv
import TransactionMonitoring.Archive
import TransactionMonitoring.PendingIndex
import TransactionMonitoring.BackfillReport
import TransactionMonitoring.Bech32
import TransactionMonitoring.SetMaps
import TransactionMonitoring.Refang
import TransactionMonitoring.Rewriting
import TransactionMonitoring.LargestLeaf
import TransactionMonitoring.DatumTruncation
import TransactionMonitoring.DatumEscapes
import TransactionMonitoring.Rounding
import TransactionMonitoring.MultipleSat
import TransactionMonitoring.SlotCap
import TransactionMonitoring.HybridReads
import TransactionMonitoring.AnomalyPoller
import TransactionMonitoring.RefitFailure
import TransactionMonitoring.Dictionary
import TransactionMonitoring.DatumText
import TransactionMonitoring.FirstBest
import TransactionMonitoring.Anchors
import TransactionMonitoring.TokenNames
import TransactionMonitoring.FakeToken
import TransactionMonitoring.SiblingOutputs
import TransactionMonitoring.UtxoFeatures
import TransactionMonitoring.Circular
import TransactionMonitoring.HashOnlyDatums
import TransactionMonitoring.Leading
import TransactionMonitoring.KupoPoints
import TransactionMonitoring.BackfillJobs
import TransactionMonitoring.TiedPages
import TransactionMonitoring.ArchivePages
import TransactionMonitoring.Latency
import TransactionMonitoring.RawStore
import TransactionMonitoring.Scanning
import TransactionMonitoring.UrlExtraction
import TransactionMonitoring.MetadataText
import TransactionMonitoring.Phishing
import TransactionMonitoring.Checks
import TransactionMonitoring.NotificationConfig
import TransactionMonitoring.NotificationDocument
import TransactionMonitoring.NotificationDispatch
import TransactionMonitoring.NotificationWarnings
import TransactionMonitoring.NotificationGaps
import TransactionMonitoring.NotificationService
import TransactionMonitoring.Leader
import TransactionMonitoring.ClientIp
import TransactionMonitoring.Throttle
import TransactionMonitoring.Redaction
import TransactionMonitoring.DropOldest
import TransactionMonitoring.Subscribers
import TransactionMonitoring.Poisoning
import TransactionMonitoring.Suppression
import TransactionMonitoring.AverageRanks
import TransactionMonitoring.Ensemble
import TransactionMonitoring.Jaccard
import TransactionMonitoring.CoSpend
import TransactionMonitoring.Base64
import TransactionMonitoring.ModelBlob
import TransactionMonitoring.Sessions
import TransactionMonitoring.Migration
import TransactionMonitoring.WhiteSpace
