import Steering.Binary64.Basic
import Steering.Binary64.Rounding
import Steering.Binary64.Shortest
import Steering.CommandLine
import Steering.Config.Basic
import Steering.Config.Document
import Steering.Config.Validate
import Steering.Dashboard.Files
import Steering.Dashboard.Page
import Steering.Dashboard.Routes
import Steering.Dashboard.Visit
import Steering.Engine.Basic
import Steering.Engine.Query
import Steering.Engine.Run
import Steering.Engine.Transports
import Steering.FileTree
import Steering.Http.Exchange
import Steering.Http.Form
import Steering.Http.Status
import Steering.Http.Wire
import Steering.Json.Cursor
import Steering.Json.Fault
import Steering.Json.Number
import Steering.Json.Record
import Steering.Json.Skip
import Steering.Json.Text
import Steering.Json.Value
import Steering.Log.Level
import Steering.Log.Record
import Steering.Log.Time
import Steering.Main
import Steering.Net.Address
import Steering.Net.Numeral
import Steering.Net.Prefix
import Steering.Net.Socket
import Steering.Net.Uri
import Steering.Network
import Steering.Program
import Steering.Proofs.AcceptedEntries
import Steering.Proofs.Accounting
import Steering.Proofs.AddressText
import Steering.Proofs.AnnotatedLookups
import Steering.Proofs.ArrivalLook
import Steering.Proofs.BodyFraming
import Steering.Proofs.CallEnd
import Steering.Proofs.CallOrigins
import Steering.Proofs.CaseFolding
import Steering.Proofs.ClientRegion
import Steering.Proofs.CommitLog
import Steering.Proofs.CommitOrigins
import Steering.Proofs.Construction
import Steering.Proofs.CourseRun
import Steering.Proofs.CourseStep
import Steering.Proofs.CrashLook
import Steering.Proofs.CycleClock
import Steering.Proofs.Cycles
import Steering.Proofs.DashboardLists
import Steering.Proofs.Delivery
import Steering.Proofs.DocumentGrammar
import Steering.Proofs.FailedFetch
import Steering.Proofs.FailedMeasurement
import Steering.Proofs.Failover
import Steering.Proofs.FirstViolation
import Steering.Proofs.Headway
import Steering.Proofs.LateLook
import Steering.Proofs.LatencyPages
import Steering.Proofs.LatencyPhase
import Steering.Proofs.LatencyViews
import Steering.Proofs.LogLevels
import Steering.Proofs.LongestPrefix
import Steering.Proofs.LoopDelivery
import Steering.Proofs.LoopLook
import Steering.Proofs.MagnitudeOrder
import Steering.Proofs.NearestDouble
import Steering.Proofs.NextDue
import Steering.Proofs.NumberDocument
import Steering.Proofs.NumberReading
import Steering.Proofs.NumberText
import Steering.Proofs.ObjectReading
import Steering.Proofs.PathSegments
import Steering.Proofs.PhaseLook
import Steering.Proofs.PlayedCourse
import Steering.Proofs.ProbedLatencies
import Steering.Proofs.Provenance
import Steering.Proofs.QueryAnswer
import Steering.Proofs.QuerySpelling
import Steering.Proofs.RankedPlaces
import Steering.Proofs.RankingNames
import Steering.Proofs.RankingOrder
import Steering.Proofs.ReadByName
import Steering.Proofs.RecordFields
import Steering.Proofs.ReplyScript
import Steering.Proofs.RequestTarget
import Steering.Proofs.RoundingOrder
import Steering.Proofs.ShortestDecimal
import Steering.Proofs.SignalHistory
import Steering.Proofs.SignalWait
import Steering.Proofs.SkippedValues
import Steering.Proofs.SortedKeys
import Steering.Proofs.SpelledText
import Steering.Proofs.StableRanking
import Steering.Proofs.Staleness
import Steering.Proofs.StaticFiles
import Steering.Proofs.StatusPhase
import Steering.Proofs.Stopping
import Steering.Proofs.StoreHistory
import Steering.Proofs.StoreLog
import Steering.Proofs.TextBytes
import Steering.Proofs.UsableLatencies
import Steering.Proofs.UsableTransports
import Steering.Proofs.ValueReading
import Steering.Proofs.WaitAccess
import Steering.Proofs.WellFormedRequests
import Steering.Proofs.WholeBatches
import Steering.Proofs.WrittenDocument
import Steering.Proofs.WrittenNumber
import Steering.Proofs.WrittenRecords
import Steering.Proofs.WrittenText
import Steering.Ranking
import Steering.Refresh.Arrival
import Steering.Refresh.Course
import Steering.Refresh.Loop
import Steering.Refresh.Phase
import Steering.Refresh.Reply
import Steering.RegionTable
import Steering.Report.PopStatus
import Steering.Report.Probe
import Steering.Shutdown
import Steering.Store
import Steering.Text.Blank
import Steering.Text.CaseRuns
import Steering.Text.HiddenRanges
import Steering.Text.Lowercase
import Steering.Text.Quoted
import Steering.Text.Utf8
import Steering.Yaml.Node
import Steering.Yaml.Scalar
import Steering.Yaml.Source
import Steering.Yaml.Token
import Steering.Proofs.NumericTies
