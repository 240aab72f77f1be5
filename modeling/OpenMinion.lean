import OpenMinion.SliceCache
import OpenMinion.ConcurrentRetention
import OpenMinion.ContinuationWinner
import OpenMinion.CronScopeExclusion
import OpenMinion.CronAttemptBounds
import OpenMinion.CronRunFencing
import OpenMinion.PolicyAuthorization
import OpenMinion.InMemoryControlPlaneStore
import OpenMinion.PairTokens
import OpenMinion.A2AJobStates
import OpenMinion.A2AJobRecovery
import OpenMinion.A2AMemoryStore
import OpenMinion.ContextPackCache
import OpenMinion.InputBoundaries
import OpenMinion.RejectedImports
import OpenMinion.FullTextIndex
import OpenMinion.CandidatePromotion
import OpenMinion.CaptureBundles
import OpenMinion.FailedMemoryWrites
import OpenMinion.SubmissionQueues
import OpenMinion.ArtifactFreshness
import OpenMinion.ConcurrentCollection
import OpenMinion.QueueDiscipline
import OpenMinion.CommerceRejections
import OpenMinion.OpaqueInputs
import OpenMinion.AllowedToolCalls
import OpenMinion.TaskStates
import OpenMinion.TaskMetadata
import OpenMinion.CheckpointChain
import OpenMinion.TelegramPolling
import OpenMinion.OperationStatuses
import OpenMinion.ToolEventKeys
import OpenMinion.DueJobSelection
import OpenMinion.StaggeredSchedules
import OpenMinion.CatchUpRuns
import OpenMinion.TaskProjections
import OpenMinion.BranchDiffs
import OpenMinion.IdempotentAppends
import OpenMinion.TaskPlanProjections
import OpenMinion.TodoRestarts
import OpenMinion.ExpiredConfirmations
import OpenMinion.IdempotencyScopes
import OpenMinion.HistoryBudgets
import OpenMinion.PurgedLinks
import OpenMinion.CompressionCaps
import OpenMinion.ConfidenceDecay
import OpenMinion.DecisionTraces
import OpenMinion.SummaryRounds
import OpenMinion.KeyedUpserts
import OpenMinion.CompressionInvariants
import OpenMinion.VisibilityNotes
import OpenMinion.RecentWindows
import OpenMinion.IdentityBudgets
import OpenMinion.AwareTimestamps
import OpenMinion.PromotionLimits
import OpenMinion.SessionKeyRings
import OpenMinion.FileAnchors
import OpenMinion.Redactions
import OpenMinion.EventLogs
import OpenMinion.InboxReplies
import OpenMinion.RateLimits
import OpenMinion.OmxRoundTrips
