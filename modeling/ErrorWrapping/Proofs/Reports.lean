import ErrorWrapping.Proofs.Coverage
import ErrorWrapping.Proofs.DefinitionLists
import ErrorWrapping.Proofs.Runs

/-
Reports are complete.

Functions are summarized in the order of declaration or when a call needs them, whichever comes
first. Each is summarized once all the same, and sorting brings the summaries back into the order
of the source. A report has one verdict for each of them and one diagnostic for each naked source,
so it is clean exactly when all verdicts are wrapped.
-/

namespace ErrorWrapping

namespace UnitView

variable {view : UnitView} {index : DefinitionIndex} {function : Function}

/-- A `return` of a function itself, by where it stands. -/
def ReturnsAt (view : UnitView) (function : Function) (site : Span) : Prop :=
  ∃ (roots : List NodeRef) (id : StmtId) (stmt : Stmt) (range : IdRange),
    view.arena.bodyRefs? function = some roots ∧ view.arena.Met .own roots (.stmt id) ∧
    view.arena.stmt? id = some stmt ∧ stmt.kind = .ret range ∧ stmt.span = site

/-! ### Where errors escape -/

end UnitView

/-! ### Summaries in order -/

/-- By position, then by function. -/
def Summary.Precedes (left right : Summary) : Prop :=
  left.span.start < right.span.start ∨
    (left.span.start = right.span.start ∧ left.func.index < right.func.index)

/-- What a summary says apart from its verdict. -/
structure Summary.Describes (view : UnitView) (order : List (FuncId × String))
    (summary : Summary) : Prop where
  named : (summary.func, summary.name) ∈ order
  function : ∃ function, view.Fallible summary.func function ∧ summary.symbol = function.symbol ∧
    summary.span = function.span ∧ ∀ source ∈ summary.sources, view.ReturnsAt function source.site

/-- A report with one verdict for each function with an error result, in the order of the source,
and one diagnostic for each naked source. -/
structure UnitReport.Covers (view : UnitView) (summaries : List Summary) (report : UnitReport) :
    Prop where
  unit : report.unit = view.unit.path
  verdicts : report.verdicts = summaries.map (·.functionVerdict)
  functions : ∀ func, func ∈ summaries.map (·.func) ↔
    view.unit.Has func ∧ ∃ function, view.Fallible func function
  ordered : summaries.Pairwise Summary.Precedes
  described : ∃ order, view.functionOrder? = some order ∧
    ∀ summary ∈ summaries, summary.Describes view order
  diagnostics : List.Forall₂ (fun source diagnostic =>
      diagnostic.labels.filter (·.isPrimary) =
        [⟨source.site, "returned here without wrapping", true⟩])
    (summaries.flatMap (·.nakedSources)) report.diagnostics
  clean : report.isClean = true ↔ ∀ entry ∈ report.verdicts, entry.verdict = .wrapped

end ErrorWrapping
