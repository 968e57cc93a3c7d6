import PredictionMarketMonitor.FallibleSteps
import PredictionMarketMonitor.ThreadedLog
import PredictionMarketMonitor.KeyedTable
import PredictionMarketMonitor.ExpiringKeys
import PredictionMarketMonitor.CanonicalJson
import PredictionMarketMonitor.PageReplay
import PredictionMarketMonitor.PageSealing
import PredictionMarketMonitor.StaleRecovery
import PredictionMarketMonitor.CommandLifecycle
import PredictionMarketMonitor.ControlPlane
import PredictionMarketMonitor.CompletionReplay
import PredictionMarketMonitor.AnalysisQueue
import PredictionMarketMonitor.AnalysisLeases
import PredictionMarketMonitor.PublicationOrder
import PredictionMarketMonitor.AttemptOutcomes
import PredictionMarketMonitor.PostArchive
import PredictionMarketMonitor.PostRevisions
import PredictionMarketMonitor.IdentityExchange
import PredictionMarketMonitor.DailyIndependence
import PredictionMarketMonitor.VerificationGrid
import PredictionMarketMonitor.StaleAgreement
import PredictionMarketMonitor.ResumePosition
import PredictionMarketMonitor.PostCap
import PredictionMarketMonitor.CodePoints
import PredictionMarketMonitor.JsonReader
import PredictionMarketMonitor.Receipts
import PredictionMarketMonitor.CadenceHistory
import PredictionMarketMonitor.DispatchOnce
import PredictionMarketMonitor.RankedChain
import PredictionMarketMonitor.ActivationChain
import PredictionMarketMonitor.CalendarText
import PredictionMarketMonitor.ReportInputs
import PredictionMarketMonitor.ReportManifest
import PredictionMarketMonitor.ReportFormula
import PredictionMarketMonitor.ReportJson
import PredictionMarketMonitor.SlotGrid
import PredictionMarketMonitor.CadenceEpochs
import PredictionMarketMonitor.RankingOrder
import PredictionMarketMonitor.ReportAccounting
import PredictionMarketMonitor.AssemblyAcceptance
import PredictionMarketMonitor.TrailingCorrections
import PredictionMarketMonitor.ManifoldPage
import PredictionMarketMonitor.DCInsideView
import PredictionMarketMonitor.DailyLeases
import PredictionMarketMonitor.LoginThrottle
import PredictionMarketMonitor.AdminSessions
import PredictionMarketMonitor.BindingApplication
import PredictionMarketMonitor.LikePatterns
import PredictionMarketMonitor.SearchFold
import PredictionMarketMonitor.CrashTriples
import PredictionMarketMonitor.Tilings
import PredictionMarketMonitor.CalendarMonths
import PredictionMarketMonitor.ProjectionWindows
import PredictionMarketMonitor.ManifestRoundTrip
import PredictionMarketMonitor.ReportIdentity
import PredictionMarketMonitor.ComposedTexts
import PredictionMarketMonitor.ChangeLogs
import PredictionMarketMonitor.ReportHistory
import PredictionMarketMonitor.HistoryTables
import PredictionMarketMonitor.HistoryAgreement
import PredictionMarketMonitor.RetentionStore
import PredictionMarketMonitor.RetentionRuns
import PredictionMarketMonitor.RetentionSafety
import PredictionMarketMonitor.ReportLinks
import PredictionMarketMonitor.ReportExpiry
