import MLRunX.Text
import MLRunX.Runs
import MLRunX.Memberships
import MLRunX.KeyRotation
import MLRunX.KeyCreation
import MLRunX.Idempotency
import MLRunX.DiskSpool
import MLRunX.SpoolReplay
import MLRunX.MetricQuery
import MLRunX.DisabledUsers
import MLRunX.PersonalProjects
import MLRunX.RetrySafety
import MLRunX.Conditions
import MLRunX.RunFilter
import MLRunX.RunInit
import MLRunX.RunListing
import MLRunX.Paging
import MLRunX.StructuredEvents
import MLRunX.Processor
import MLRunX.QueuedIngest
import MLRunX.IngestPipeline
import MLRunX.ConsumerGroups
import MLRunX.ProcessorLoop
import MLRunX.Atomicity
import MLRunX.Mutators
import MLRunX.MutatorAtomicity
import MLRunX.FlushWorker
import MLRunX.RejectedBatches
import MLRunX.OfflineRuns
import MLRunX.ForgedRequests
import MLRunX.Batching
import MLRunX.WorkerLoop
import MLRunX.RunIdentity
import MLRunX.RunLogging
import MLRunX.FlushBoundaries
import MLRunX.IngestPaths
import MLRunX.RunCounters
import MLRunX.GrpcIngest
import MLRunX.RunLifecycle
import MLRunX.FinishRaces
import MLRunX.RunDeletion
import MLRunX.RunRetries
import MLRunX.KeyServer
import MLRunX.KeyRevocation
import MLRunX.KeyDurability
import MLRunX.Constraints
import MLRunX.ForeignKeys
import MLRunX.ProjectDeletion
import MLRunX.Interleaving
import MLRunX.UiSessions
import MLRunX.PlatformAdmins
import MLRunX.AuditLog
import MLRunX.ShareLinks
import MLRunX.ShareSafety
import MLRunX.ShareRevocation
import MLRunX.JsonText
import MLRunX.JsonMeaning
import MLRunX.Sanitizer
import MLRunX.EnvelopeReading
import MLRunX.SanitizerBypass
import MLRunX.BatchWire
import MLRunX.ScriptContent
import MLRunX.BatchNumbers
import MLRunX.StructuredLogging
import MLRunX.PayloadOrder
import MLRunX.PayloadFrames
import MLRunX.FilterGrammar
import MLRunX.EventPolling
import MLRunX.RunComparison
import MLRunX.ChartComparison
import MLRunX.Placeholders
import MLRunX.RunListSql
import MLRunX.RunPages
import MLRunX.EqualityFilters
import MLRunX.StoredRows
import MLRunX.TrackedBatches
import MLRunX.FilterSearch
import MLRunX.FilterPrinting
import MLRunX.Connectives
import MLRunX.SqlTokens
import MLRunX.FilterMeaning
import MLRunX.FilterComplements
import MLRunX.LikePatterns
import MLRunX.SubstringFilters
import MLRunX.CreatedAtFilters
import MLRunX.Displacement
import MLRunX.InitOrder
import MLRunX.Downsampling
import MLRunX.MetricOverflow
import MLRunX.AuthBackoff
import MLRunX.BatchDedup
import MLRunX.JsonBounds
import MLRunX.MessageCuts
import MLRunX.ReportedDrops
import MLRunX.DroppedItems
import MLRunX.SilentDrops
import MLRunX.CardinalityCaps
import MLRunX.HttpRateLimit
import MLRunX.Sieves
import MLRunX.TrackerLaws
import MLRunX.BatchFolding
import MLRunX.NameExcerpts
import MLRunX.CivilDates
import MLRunX.MessageLimit
import MLRunX.SpoolLimit
import MLRunX.KeyExpiry
import MLRunX.BitPrefixes
import MLRunX.TrustedProxies
import MLRunX.ClientIdentity
import MLRunX.NextPath
import MLRunX.CanonicalKeys
import MLRunX.CodeUnits
import MLRunX.JsObjects
import MLRunX.MetricObjectives
import MLRunX.Presets
import MLRunX.PresetReload
import MLRunX.AuditTrail
import MLRunX.AuditCompleteness
import MLRunX.AuditRefinement
import MLRunX.InterleavedInvariants
import MLRunX.KeyedTables
import MLRunX.MetricAliases
import MLRunX.AliasRuns
import MLRunX.RequestCredentials
import MLRunX.Restarts
import MLRunX.SchemaMigration
import MLRunX.SpoolFiles
import MLRunX.CompareClient
import MLRunX.CsvFiles
import MLRunX.AliasImport
import MLRunX.ShareLifetimes
import MLRunX.PastTime
import MLRunX.SharedViews
