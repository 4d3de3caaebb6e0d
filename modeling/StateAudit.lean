import StateAudit.Main
import StateAudit.Proofs.StreamLines
import StateAudit.Proofs.StreamReadings
import StateAudit.Proofs.RecordVerdict
import StateAudit.Proofs.ReportRun
import StateAudit.Proofs.ReportAccounting
import StateAudit.Proofs.ReportTransitions
import StateAudit.Proofs.DictionaryEntries
import StateAudit.Proofs.VocabularyContents
import StateAudit.Proofs.MatrixMembership
import StateAudit.Proofs.MatrixRows
import StateAudit.Proofs.MatrixWriting
import StateAudit.Proofs.LogSplitting
import StateAudit.Proofs.FrequencyTallies
import StateAudit.Proofs.FrequencyRanking
import StateAudit.Proofs.AggregateRun
import StateAudit.Proofs.AggregateConservation
import StateAudit.Proofs.AnalysisRun
import StateAudit.Proofs.InterruptedStreams
import StateAudit.Proofs.LogAgreement
import StateAudit.Proofs.LogFolding
import StateAudit.Proofs.ObservationOrder
import StateAudit.Proofs.RecentWindow
import StateAudit.Proofs.SettingLimits
import StateAudit.Proofs.StreamEntries
import StateAudit.Proofs.TrackerHistory
import StateAudit.Proofs.MatrixLoading
import StateAudit.Proofs.JsonBlanks
import StateAudit.Proofs.RecordLayouts
import StateAudit.Proofs.LineEndings
import StateAudit.Proofs.DoubleRounding
import StateAudit.Proofs.ShortestDecimal
import StateAudit.Proofs.NumeralScaling
import StateAudit.Proofs.JsonReadings
import StateAudit.Proofs.NumeralText
import StateAudit.Proofs.JsonRoundTrip
import StateAudit.Proofs.RecordRoundTrip
import StateAudit.Proofs.TreePaths
import StateAudit.Proofs.PathSpelling
import StateAudit.Proofs.ReportPlaces
import StateAudit.Proofs.ExitCodes
import StateAudit.Proofs.ByteOrder
import StateAudit.Proofs.LatestEntries
import StateAudit.Proofs.OrderStatistics
import StateAudit.Proofs.RecentErrors
import StateAudit.Proofs.TableVocabulary
import StateAudit.Proofs.LegalLabels
import StateAudit.Proofs.DecidingKeys
import StateAudit.Proofs.LoggedIdentifiers
import StateAudit.Proofs.TornTables
import StateAudit.Proofs.GrowingMatrix
import StateAudit.Proofs.InputExpansion
import StateAudit.Proofs.NearestRanks
import StateAudit.Proofs.SuccessRates
import StateAudit.Proofs.MeasuredStatistics
import StateAudit.Proofs.ReportLayout
import StateAudit.Proofs.SeamlessIdentifiers
