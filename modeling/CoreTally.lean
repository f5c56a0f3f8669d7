import CoreTally.Basic
import CoreTally.CommandLine.Arguments
import CoreTally.CommandLine.Basic
import CoreTally.CommandLine.Run
import CoreTally.Config.Basic
import CoreTally.Config.Decoding
import CoreTally.Config.JsonForm
import CoreTally.Config.Validation
import CoreTally.Config.Workload
import CoreTally.Config.YamlForm
import CoreTally.Count
import CoreTally.Counter.Binding
import CoreTally.Counter.Scripted
import CoreTally.Counter.Simulated
import CoreTally.Counter.Source
import CoreTally.Decimal.Shortest
import CoreTally.Error
import CoreTally.Fields
import CoreTally.Files
import CoreTally.Instant
import CoreTally.Json.Basic
import CoreTally.Json.Number
import CoreTally.Json.Printer
import CoreTally.Json.Reader
import CoreTally.Json.Record
import CoreTally.Json.Token
import CoreTally.Machine
import CoreTally.Main
import CoreTally.Metric.Entry
import CoreTally.Metric.Ledger
import CoreTally.Metric.Report
import CoreTally.Metric.Session
import CoreTally.Metric.Store
import CoreTally.Metric.UnitView
import CoreTally.OrderedMap
import CoreTally.Proofs.Config.AccumulateMode
import CoreTally.Proofs.Config.ReadMode
import CoreTally.Proofs.Config.Simulation
import CoreTally.Proofs.Config.Validity
import CoreTally.Proofs.CountSums
import CoreTally.Proofs.Counter.Catalog
import CoreTally.Proofs.Counter.Columns
import CoreTally.Proofs.Counter.Confinement
import CoreTally.Proofs.Counter.Operations
import CoreTally.Proofs.Counter.Preparation
import CoreTally.Proofs.Counter.StatLines
import CoreTally.Proofs.Counter.Tallies
import CoreTally.Proofs.Counter.Trace
import CoreTally.Proofs.Files.Rearrangement
import CoreTally.Proofs.Json.RoundTrip
import CoreTally.Proofs.Json.Scanning
import CoreTally.Proofs.Json.Typed
import CoreTally.Proofs.KeyedLists
import CoreTally.Proofs.Metric.Absorption
import CoreTally.Proofs.Metric.Attribution
import CoreTally.Proofs.Metric.EventIndependence
import CoreTally.Proofs.Metric.EventSeries
import CoreTally.Proofs.Metric.Fusion
import CoreTally.Proofs.Metric.Gathering
import CoreTally.Proofs.Metric.History
import CoreTally.Proofs.Metric.LatestEntries
import CoreTally.Proofs.Metric.ModeAgreement
import CoreTally.Proofs.Metric.PendingReset
import CoreTally.Proofs.Metric.Permanence
import CoreTally.Proofs.Metric.PermanentHistory
import CoreTally.Proofs.Metric.Placement
import CoreTally.Proofs.Metric.PostingForm
import CoreTally.Proofs.Metric.References
import CoreTally.Proofs.Metric.Register
import CoreTally.Proofs.Metric.Representation
import CoreTally.Proofs.Metric.SeriesTime
import CoreTally.Proofs.Metric.SingleSeries
import CoreTally.Proofs.Metric.Spread
import CoreTally.Proofs.Metric.Timeliness
import CoreTally.Proofs.Metric.Totals
import CoreTally.Proofs.Metric.UnitCounts
import CoreTally.Proofs.Numerals
import CoreTally.Proofs.Session.Atomicity
import CoreTally.Proofs.Session.Conduct
import CoreTally.Proofs.Session.Instants
import CoreTally.Proofs.Session.Journey
import CoreTally.Proofs.Session.Lockstep
import CoreTally.Proofs.Session.MixedModes
import CoreTally.Proofs.Session.ModeAgreement
import CoreTally.Proofs.Session.NodeView
import CoreTally.Proofs.Session.Observation
import CoreTally.Proofs.Session.Participation
import CoreTally.Proofs.Session.Printing
import CoreTally.Proofs.Session.ReportForm
import CoreTally.Proofs.Session.Reporting
import CoreTally.Proofs.Session.Requests
import CoreTally.Proofs.Session.SimulatedCalls
import CoreTally.Proofs.Session.Visits
import CoreTally.Proofs.Session.Workers
import CoreTally.Proofs.SortedLists
import CoreTally.Proofs.Sysfs.Assembly
import CoreTally.Proofs.Sysfs.CacheOrder
import CoreTally.Proofs.Sysfs.CachePlacement
import CoreTally.Proofs.Sysfs.CacheReports
import CoreTally.Proofs.Sysfs.Description
import CoreTally.Proofs.Sysfs.Grouping
import CoreTally.Proofs.Sysfs.ListingOrder
import CoreTally.Proofs.Sysfs.Values
import CoreTally.Proofs.Topology.AttributeText
import CoreTally.Proofs.Topology.CpuList
import CoreTally.Proofs.Topology.Forest
import CoreTally.Proofs.Topology.Growth
import CoreTally.Proofs.Topology.MaximalRanges
import CoreTally.Proofs.Topology.Outline
import CoreTally.Proofs.Topology.Traversal
import CoreTally.Proofs.Topology.Uniform
import CoreTally.Proofs.Words
import CoreTally.Text.Blank
import CoreTally.Text.CaseTable
import CoreTally.Text.Lowercase
import CoreTally.Text.Numeral
import CoreTally.Text.Pieces
import CoreTally.Topology.Attribute
import CoreTally.Topology.Basic
import CoreTally.Topology.CpuList
import CoreTally.Topology.Kind
import CoreTally.Topology.Listing
import CoreTally.Topology.Sysfs
import CoreTally.Topology.Traversal
import CoreTally.Yaml.Block
import CoreTally.Yaml.Directive
import CoreTally.Yaml.Document
import CoreTally.Yaml.Glyph
import CoreTally.Yaml.Layout
import CoreTally.Yaml.Node
import CoreTally.Yaml.Plain
import CoreTally.Yaml.Quoted
import CoreTally.Yaml.Scan
import CoreTally.Yaml.Tag
import CoreTally.Yaml.Token
