import RfpPlatform.AccountRequests
import RfpPlatform.AuditTrail
import RfpPlatform.BackgroundAgreement
import RfpPlatform.BackgroundIngestion
import RfpPlatform.BackgroundRefinement
import RfpPlatform.BenchmarkMetrics
import RfpPlatform.BoundedMailbox
import RfpPlatform.Cancellation
import RfpPlatform.CanonicalText
import RfpPlatform.CheckRecords
import RfpPlatform.CircuitBreaker
import RfpPlatform.CleanupConsistency
import RfpPlatform.Collaborators
import RfpPlatform.Comparator
import RfpPlatform.CompletionEvents
import RfpPlatform.ConcurrentDrops
import RfpPlatform.ConfirmationGate
import RfpPlatform.Contradictions
import RfpPlatform.CorrectionLedger
import RfpPlatform.CriteriaMerge
import RfpPlatform.CriticRetry
import RfpPlatform.CriticVerdicts
import RfpPlatform.Critics
import RfpPlatform.CsvText
import RfpPlatform.Decision
import RfpPlatform.DecisionOrder
import RfpPlatform.DecisionPayload
import RfpPlatform.DivergenceFlag
import RfpPlatform.DropFolders
import RfpPlatform.EmbeddingBatches
import RfpPlatform.EmptyRanking
import RfpPlatform.ErasureCompleteness
import RfpPlatform.Evaluation
import RfpPlatform.EventStream
import RfpPlatform.ExceptRules
import RfpPlatform.Explanation
import RfpPlatform.ExplanationFlags
import RfpPlatform.Extraction
import RfpPlatform.ExtractionGrounding
import RfpPlatform.FactTables
import RfpPlatform.FactsReadySound
import RfpPlatform.FailClosed
import RfpPlatform.FairSemaphore
import RfpPlatform.FewShot
import RfpPlatform.FirstWins
import RfpPlatform.ForeignKeys
import RfpPlatform.GovernanceTables
import RfpPlatform.GroundingGate
import RfpPlatform.GroupTotals
import RfpPlatform.Identifiers
import RfpPlatform.Ingestion
import RfpPlatform.IngestionCritic
import RfpPlatform.Invitations
import RfpPlatform.JsonText
import RfpPlatform.KeyedLog
import RfpPlatform.KeyedTable
import RfpPlatform.LatestSubmission
import RfpPlatform.ListPrefixes
import RfpPlatform.LlmCache
import RfpPlatform.LogFanout
import RfpPlatform.MandatoryChecks
import RfpPlatform.MandatoryTable
import RfpPlatform.MergePriority
import RfpPlatform.MetricsMerge
import RfpPlatform.NameAgreement
import RfpPlatform.NarrativeGrounding
import RfpPlatform.NarrativeRounds
import RfpPlatform.NodeUpdates
import RfpPlatform.NodeWrites
import RfpPlatform.OnetimeTokens
import RfpPlatform.OrgPurge
import RfpPlatform.OrphanedJob
import RfpPlatform.PipelineGraph
import RfpPlatform.PipelineNodes
import RfpPlatform.PlanOrder
import RfpPlatform.Podium
import RfpPlatform.PooledConnections
import RfpPlatform.Prompts
import RfpPlatform.ProseFeedback
import RfpPlatform.ProviderRate
import RfpPlatform.PyText
import RfpPlatform.PyValue
import RfpPlatform.Quarantine
import RfpPlatform.RankStability
import RfpPlatform.Reducers
import RfpPlatform.RefinedSetup
import RfpPlatform.RegressionGates
import RfpPlatform.RejectionEvidence
import RfpPlatform.RejectionQuotes
import RfpPlatform.ReportPairing
import RfpPlatform.ReportSections
import RfpPlatform.RetentionPrecision
import RfpPlatform.Retrieval
import RfpPlatform.RetrievalMerge
import RfpPlatform.RetryContract
import RfpPlatform.RetryLosses
import RfpPlatform.RfpIsolation
import RfpPlatform.Rounding
import RfpPlatform.RunAccess
import RfpPlatform.RunCosts
import RfpPlatform.RunDeletion
import RfpPlatform.RunExport
import RfpPlatform.RunRequests
import RfpPlatform.RunRetention
import RfpPlatform.RunState
import RfpPlatform.RunTasks
import RfpPlatform.Schemas
import RfpPlatform.ScoreBounds
import RfpPlatform.ScoreDominance
import RfpPlatform.SelfConsistency
import RfpPlatform.SessionRevocation
import RfpPlatform.SettingsCache
import RfpPlatform.SettingsUpsert
import RfpPlatform.SetupAssembly
import RfpPlatform.SheetParser
import RfpPlatform.ShortCircuit
import RfpPlatform.SingleExecution
import RfpPlatform.SortedScan
import RfpPlatform.SpawnedTasks
import RfpPlatform.StatusTransitions
import RfpPlatform.StrandedSubmission
import RfpPlatform.SubmissionSteps
import RfpPlatform.Submissions
import RfpPlatform.SuperstepBound
import RfpPlatform.TenantUsers
import RfpPlatform.TerminalStatus
import RfpPlatform.TextTemplate
import RfpPlatform.TickDrain
import RfpPlatform.TransitionRuns
import RfpPlatform.UnassessedWeight
import RfpPlatform.UnusableSubmission
import RfpPlatform.VectorStore
import RfpPlatform.VendorBranches
import RfpPlatform.VendorConservation
import RfpPlatform.VendorFiles
import RfpPlatform.VendorIsolation
import RfpPlatform.VendorSlots
