import ErrorWrapping.Diagnostic.Record
import ErrorWrapping.Diagnostic.Terminal
import ErrorWrapping.Run

/-
The output of a run.

For people: the verdicts unit by unit if they are asked for, then the diagnostics and their
count. For tools: one record a line, the verdicts of a unit before its diagnostics, a summary at
the end. The list of verdicts for people has to be written in full; the rest of the output may
be cut short by a writer that fails.
-/

namespace ErrorWrapping

inductive OutputFormat where
  | human
  | json
  deriving DecidableEq, Inhabited

def OutputFormat.describe : OutputFormat → String
  | .human => "human"
  | .json => "json"

structure RenderOptions where
  format : OutputFormat
  color : ColorMode
  isTerminal : Bool
  showFacts : Bool
  deriving DecidableEq, Inhabited

/-- Output in two parts: one that must be written in full, and one that may be cut short. -/
structure Rendering where
  listing : String
  body : String
  deriving DecidableEq, Inhabited

namespace Rendering

def text (rendering : Rendering) : String :=
  rendering.listing ++ rendering.body

/-- Whether a writer that takes `capacity` bytes can take the listing. -/
def fits (rendering : Rendering) : Option Nat → Bool
  | none => true
  | some capacity => rendering.listing.utf8ByteSize ≤ capacity

def written (rendering : Rendering) : Option Nat → String
  | none => rendering.text
  | some capacity => String.ofList (Text.firstBytes capacity rendering.text.toList)

end Rendering

namespace RunResult

def counts (result : RunResult) : Nat × Nat :=
  let (errors, others) := result.diagnostics.partition (·.isError)
  (errors.length, others.length)

def listing (report : UnitReport) : String :=
  if report.verdicts.isEmpty then ""
  else report.unit ++ ":\n" ++
    String.join (report.verdicts.map fun verdict => "  " ++ verdict.describe ++ "\n")

def renderHuman (files : FileSet) (options : RenderOptions) (result : RunResult) : Rendering :=
  let (errors, warnings) := result.counts
  let pieces := result.diagnostics.flatMap (·.pieces (some files)) ++
    Diagnostic.summaryPieces errors warnings
  { listing :=
      if options.showFacts then String.join (result.reports.map listing) ++ "\n" else ""
    body := Piece.paintAll (options.color.useColors options.isTerminal) pieces }

def verdictRecord (files : FileSet) (unit : String) (verdict : FunctionVerdict) : Json :=
  .object ([
    ("type", .string "verdict"),
    ("unit", .string unit),
    ("function", .string verdict.name),
    ("verdict", .string verdict.verdict.describe)] ++ spanMembers (some files) verdict.span)

def reportRecords (files : FileSet) (showFacts : Bool) (report : UnitReport) : List Json :=
  (if showFacts then report.verdicts.map (verdictRecord files report.unit) else []) ++
    report.diagnostics.map (·.record (some files))

def renderJson (files : FileSet) (options : RenderOptions) (result : RunResult)
    (serializer : Json.Serializer := .standard) : Rendering :=
  let (errors, warnings) := result.counts
  let records := result.reports.flatMap (reportRecords files options.showFacts) ++
    [summaryRecord errors warnings]
  { listing := "", body := recordLines records serializer }

def render (files : FileSet) (options : RenderOptions) (result : RunResult)
    (serializer : Json.Serializer := .standard) : Rendering :=
  match options.format with
  | .human => result.renderHuman files options
  | .json => result.renderJson files options serializer

def factFile (program : Program) (facts : FactTable)
    (serializer : Json.Serializer := .standard) : String :=
  let members := (factsByName program facts).map fun (name, verdict) =>
    (name, Json.string verdict.describe)
  serializer.indented (.object members) ++ "\n"

end RunResult

end ErrorWrapping
