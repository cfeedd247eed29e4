import RcaBackend.TransitionSystem
import RcaBackend.Timestamps
import RcaBackend.JobSystem
import RcaBackend.JobSteps
import RcaBackend.JobClaims
import RcaBackend.JobInvariants
import RcaBackend.RetryBound
import RcaBackend.PendingOwnership
import RcaBackend.CrashRecovery
import RcaBackend.TerminalStates
import RcaBackend.SingleOwnership
import RcaBackend.SpringDelivery
import RcaBackend.IngestAtomicity
import RcaBackend.JobStages
import RcaBackend.FileSafety
import RcaBackend.PyRuntime
import RcaBackend.Regex
import RcaBackend.Columns
import RcaBackend.JsonLoads
import RcaBackend.KeyedFold
import RcaBackend.SignalParsers
import RcaBackend.SignalSelector
import RcaBackend.Attempts
import RcaBackend.SelectionCapacity
import RcaBackend.ReferenceInterpreter
import RcaBackend.SelectionOrder
import RcaBackend.SelectionPriority
import RcaBackend.LogCompression
import RcaBackend.BaselineProfile
import RcaBackend.MetricCompression
import RcaBackend.TriggerSplit
import RcaBackend.MetricJudgement
import RcaBackend.ContractRows
import RcaBackend.RawNormalizer
import RcaBackend.MetricAgreement
import RcaBackend.BundleStore
import RcaBackend.ReportAssembly
import RcaBackend.PayloadEnvelope
import RcaBackend.PayloadImage
import RcaBackend.DecimalTexts
import RcaBackend.InputTruncation
import RcaBackend.LetterCase
import RcaBackend.RawReadability
import RcaBackend.Redelivery
import RcaBackend.SelectionEnumeration
import RcaBackend.ServiceLiveness
import RcaBackend.CalendarDates
import RcaBackend.CanonicalTimes
import RcaBackend.CompressionCounts
import RcaBackend.ExactReals
import RcaBackend.LevelAgreement
import RcaBackend.MetricOrder
import RcaBackend.ShownMessages
import RcaBackend.SpanAgreement
import RcaBackend.TriggerHighlights
import RcaBackend.AnalysisGraph
import RcaBackend.BundleFile
import RcaBackend.CountingSemaphore
import RcaBackend.LlmPermits
import RcaBackend.AgeThresholds
import RcaBackend.BundleIntegrity
import RcaBackend.GracefulStop
import RcaBackend.AnalysedJobs
import RcaBackend.PayloadTotality
import RcaBackend.StatusPolls
import RcaBackend.JobLives
import RcaBackend.LifeRuns
import RcaBackend.SweptFiles
