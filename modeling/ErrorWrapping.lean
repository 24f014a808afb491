import ErrorWrapping.Analysis.Classification
import ErrorWrapping.Analysis.Definitions
import ErrorWrapping.Analysis.ErrorShape
import ErrorWrapping.Analysis.Escape
import ErrorWrapping.Analysis.Report
import ErrorWrapping.Analysis.Summary
import ErrorWrapping.Analysis.View
import ErrorWrapping.Catalog
import ErrorWrapping.Command
import ErrorWrapping.CommandLine
import ErrorWrapping.Diagnostic.Basic
import ErrorWrapping.Diagnostic.Code
import ErrorWrapping.Diagnostic.Record
import ErrorWrapping.Diagnostic.Terminal
import ErrorWrapping.Directory
import ErrorWrapping.Dump.Basic
import ErrorWrapping.Dump.Decode
import ErrorWrapping.Dump.Lower
import ErrorWrapping.Dump.TypeNames
import ErrorWrapping.Facts
import ErrorWrapping.Identifiers
import ErrorWrapping.Json.Reader
import ErrorWrapping.Json.Record
import ErrorWrapping.Json.Value
import ErrorWrapping.Json.Writer
import ErrorWrapping.Main
import ErrorWrapping.NameTable
import ErrorWrapping.Policy
import ErrorWrapping.Program
import ErrorWrapping.Render
import ErrorWrapping.Run
import ErrorWrapping.Schedule
import ErrorWrapping.Settings.Basic
import ErrorWrapping.Settings.Toml
import ErrorWrapping.Sorted
import ErrorWrapping.Source.Files
import ErrorWrapping.Source.LineTable
import ErrorWrapping.Source.Span
import ErrorWrapping.Symbols
import ErrorWrapping.Text.Blank
import ErrorWrapping.Text.Bytes
import ErrorWrapping.Tree.Arena
import ErrorWrapping.Tree.Build
import ErrorWrapping.Tree.Node
import ErrorWrapping.Tree.Walk
import ErrorWrapping.Types
import ErrorWrapping.Verdict
import ErrorWrapping.Warning
import ErrorWrapping.Proofs.AssignedCalls
import ErrorWrapping.Proofs.BytePlaces
import ErrorWrapping.Proofs.Catalogs
import ErrorWrapping.Proofs.CollectedReturns
import ErrorWrapping.Proofs.CountedImports
import ErrorWrapping.Proofs.Coverage
import ErrorWrapping.Proofs.Dangling
import ErrorWrapping.Proofs.DeclarationOrder
import ErrorWrapping.Proofs.DefinitionLists
import ErrorWrapping.Proofs.Definitions
import ErrorWrapping.Proofs.Derivations
import ErrorWrapping.Proofs.DescribedTypes
import ErrorWrapping.Proofs.DumpOrders
import ErrorWrapping.Proofs.DumpReturns
import ErrorWrapping.Proofs.DumpTrees
import ErrorWrapping.Proofs.Enclosing
import ErrorWrapping.Proofs.Escapes
import ErrorWrapping.Proofs.Extents
import ErrorWrapping.Proofs.FactHistories
import ErrorWrapping.Proofs.FileRanges
import ErrorWrapping.Proofs.Forests
import ErrorWrapping.Proofs.Grounding
import ErrorWrapping.Proofs.ImportChains
import ErrorWrapping.Proofs.ImportCycles
import ErrorWrapping.Proofs.ImportOrders
import ErrorWrapping.Proofs.InterfaceChains
import ErrorWrapping.Proofs.JsonReading
import ErrorWrapping.Proofs.LaterStates
import ErrorWrapping.Proofs.LeastSets
import ErrorWrapping.Proofs.LevelInvariants
import ErrorWrapping.Proofs.Levels
import ErrorWrapping.Proofs.LexicalLowering
import ErrorWrapping.Proofs.LexicalScopes
import ErrorWrapping.Proofs.LineTables
import ErrorWrapping.Proofs.Lowering
import ErrorWrapping.Proofs.MarkedResolution
import ErrorWrapping.Proofs.NumberedTables
import ErrorWrapping.Proofs.Numbering
import ErrorWrapping.Proofs.PackageScopes
import ErrorWrapping.Proofs.Parents
import ErrorWrapping.Proofs.ProgramExactness
import ErrorWrapping.Proofs.Programs
import ErrorWrapping.Proofs.ReadBack
import ErrorWrapping.Proofs.Rechecking
import ErrorWrapping.Proofs.Recording
import ErrorWrapping.Proofs.Relevance
import ErrorWrapping.Proofs.RelevantFacts
import ErrorWrapping.Proofs.RenamedChecks
import ErrorWrapping.Proofs.RenamedRuns
import ErrorWrapping.Proofs.RenamedTrees
import ErrorWrapping.Proofs.RenamedUnits
import ErrorWrapping.Proofs.Rendering
import ErrorWrapping.Proofs.Reordering
import ErrorWrapping.Proofs.Reports
import ErrorWrapping.Proofs.ResolutionHistories
import ErrorWrapping.Proofs.Runs
import ErrorWrapping.Proofs.ScheduleOrders
import ErrorWrapping.Proofs.Schedules
import ErrorWrapping.Proofs.Serializers
import ErrorWrapping.Proofs.SettledTypes
import ErrorWrapping.Proofs.Settling
import ErrorWrapping.Proofs.SinglePass
import ErrorWrapping.Proofs.SortedEntries
import ErrorWrapping.Proofs.Sources
import ErrorWrapping.Proofs.SpelledTypes
import ErrorWrapping.Proofs.Stores
import ErrorWrapping.Proofs.SymbolKeys
import ErrorWrapping.Proofs.SymbolOrders
import ErrorWrapping.Proofs.TextLines
import ErrorWrapping.Proofs.Totality
import ErrorWrapping.Proofs.TracedSources
import ErrorWrapping.Proofs.TreeParts
import ErrorWrapping.Proofs.TreePictures
import ErrorWrapping.Proofs.TreeReading
import ErrorWrapping.Proofs.TreeTraces
import ErrorWrapping.Proofs.TypeTables
import ErrorWrapping.Proofs.UnitExactness
import ErrorWrapping.Proofs.UnitOrders
import ErrorWrapping.Proofs.WaitingUnits
import ErrorWrapping.Proofs.Walks
import ErrorWrapping.Proofs.WiderPolicies
import ErrorWrapping.Proofs.Workloads
import ErrorWrapping.Proofs.OutputRecords
import ErrorWrapping.Proofs.PlainOutput
