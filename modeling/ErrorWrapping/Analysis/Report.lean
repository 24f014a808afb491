import ErrorWrapping.Analysis.Summary
import ErrorWrapping.Diagnostic.Basic

/-
Reports on units.

The report on a unit lists the verdict on every function with an error result, and one
diagnostic for every naked source, both in the order of the source. A unit out of scope has an
empty report.
-/

namespace ErrorWrapping

/-! ### Diagnostics of naked sources -/

/-- Only calls through interfaces and out of the scope have codes of their own. -/
def NakedReason.code : NakedReason → DiagnosticCode
  | .interface => .e1001
  | .external => .e1002
  | .calleeNaked => .e1003
  | .pending => .e1003
  | .unresolved => .e1003

def NakedReason.message (reason : NakedReason) : String :=
  reason.code.summary

def NakedReason.explain (scope callee : String) : NakedReason → String
  | .interface =>
    "`" ++ callee ++ "` is called through an interface, so its implementation is unknown"
  | .external =>
    "`" ++ callee ++ "` is declared outside the analysis scope `" ++ scope ++ "`"
  | .calleeNaked => "`" ++ callee ++ "` itself returns unwrapped errors"
  | .pending => "`" ++ callee ++ "` has no verdict yet (recursive call)"
  | .unresolved => "no producing call was found for this error"

/-- The labels of a source: the return, and the producing call when it lies elsewhere. -/
def ErrorSource.labels (source : ErrorSource) : List Label :=
  ⟨source.site, "returned here without wrapping", true⟩ ::
    match source.origin with
    | none => []
    | some origin =>
      if origin = source.site then [] else [⟨origin, "error produced by this call", false⟩]

/-- The diagnostic of a source of a summary. A wrapped source is treated as one of unknown
origin. -/
def sourceDiagnostic (view : UnitView) (policy : Policy) (summary : Summary)
    (source : ErrorSource) : Diagnostic :=
  let reason := source.classification.nakedReason?.getD .unresolved
  let callee := (source.producer.bind view.qualified?).getD "the callee"
  { code := reason.code
    severity := .error
    message := reason.message
    labels := source.labels
    notes := ["in function `" ++ summary.name ++ "`", reason.explain policy.scope callee]
    suggestions := policy.wrappers.head?.toList.map fun wrapper =>
      "wrap the error with `" ++ wrapper ++ "`" }

/-! ### Reports -/

structure FunctionVerdict where
  name : String
  symbol : Option SymbolId
  verdict : Verdict
  span : Span
  deriving DecidableEq, Inhabited

def FunctionVerdict.describe (verdict : FunctionVerdict) : String :=
  verdict.name ++ ": \"" ++ verdict.verdict.describe ++ "\""

def Summary.functionVerdict (summary : Summary) : FunctionVerdict :=
  ⟨summary.name, summary.symbol, summary.verdict, summary.span⟩

structure UnitReport where
  unit : String
  verdicts : List FunctionVerdict
  diagnostics : List Diagnostic
  deriving DecidableEq, Inhabited

namespace UnitReport

def empty (unit : String) : UnitReport := ⟨unit, [], []⟩

def isClean (report : UnitReport) : Bool := report.diagnostics.isEmpty

def verdict? (report : UnitReport) (name : String) : Option Verdict :=
  (report.verdicts.find? (·.name == name)).map (·.verdict)

def ofSummaries (view : UnitView) (policy : Policy) (summaries : List Summary) : UnitReport :=
  { unit := view.unit.path
    verdicts := summaries.map (·.functionVerdict)
    diagnostics := summaries.flatMap fun summary =>
      summary.nakedSources.map (sourceDiagnostic view policy summary) }

end UnitReport

/-! ### Checking a unit -/

/-- A result together with the store of facts after it and the warnings on the way. -/
structure Outcome (σ α : Type) where
  value : α
  facts : σ
  warnings : List Warning

namespace UnitView

def subjectWarnings (view : UnitView) (index : DefinitionIndex) (order : List FuncId) :
    List Warning :=
  (order.filterMap view.arena.function?).flatMap fun function =>
    if (ErrorShape.ofFunction view.types function).hasError then
      view.returnWarnings function ++ view.originWarnings index function
    else []

/-- Summarizes every function of a unit, whether or not the unit is in scope. -/
def summarize? {σ : Type} [FactStore σ] (view : UnitView) (policy : Policy) (facts : σ) :
    Option (Outcome σ (List Summary)) := do
  let nodes ← view.unit.allNodes?
  let index ← view.definitionIndex? nodes
  let work ← view.workload? index
  let progress := work.run view.symbols policy facts
  let refused := progress.refused.map fun (name, refusal) => Warning.verdictRefused name refusal
  let warnings := nodes.flatMap view.targetWarnings ++ view.subjectWarnings index work.order
  return ⟨progress.sorted, progress.facts, refused ++ warnings⟩

end UnitView

def checkUnit? {σ : Type} [FactStore σ] (program : Program) (id : UnitId) (policy : Policy)
    (facts : σ) : Option (Outcome σ UnitReport) :=
  match program.unit? id with
  | none => some ⟨.empty "", facts, [.unknownUnit]⟩
  | some unit =>
    if policy.inScope unit.path then do
      let view : UnitView := ⟨program, unit⟩
      let outcome ← view.summarize? policy facts
      return { outcome with value := .ofSummaries view policy outcome.value }
    else some ⟨.empty unit.path, facts, []⟩

end ErrorWrapping
