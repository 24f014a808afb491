import ErrorWrapping.Analysis.Report
import ErrorWrapping.Schedule

/-
Running the checker over a program.

With one job, units are checked in the order of the schedule against one table of facts. With
more, the units of a level see only the facts of earlier levels: each writes into a layer of its
own, and the layers are merged in order when the level is done. When the threads for that cannot
be had, units are checked as with one job.
-/

namespace ErrorWrapping

structure RunResult where
  reports : List UnitReport
  facts : FactTable

namespace RunResult

def diagnostics (result : RunResult) : List Diagnostic :=
  result.reports.flatMap (·.diagnostics)

def isClean (result : RunResult) : Bool :=
  result.reports.all (·.isClean)

/-- The verdicts by qualified name. Of several symbols with one name the last one counts. -/
def factsByName (program : Program) (facts : FactTable) : List (String × Verdict) :=
  let named := facts.entries.filterMap fun (symbol, verdict) =>
    (program.symbols.get? symbol).map fun symbol => (symbol.qualified, verdict)
  (named.foldl (fun (table : Std.ExtTreeMap String Verdict compare) (name, verdict) =>
    table.insert name verdict) ∅).toList

end RunResult

inductive ThreadPool where
  | built
  | failed (cause : String)
  deriving DecidableEq, Inhabited

/-- The reports so far, last one first, and the facts behind them. -/
structure Run where
  reports : List UnitReport
  facts : FactTable
  warnings : List Warning

namespace Run

def start : Run := ⟨[], .empty, []⟩

def result (run : Run) : RunResult := ⟨run.reports.reverse, run.facts⟩

def checkDirect? (program : Program) (policy : Policy) (run : Run) (unit : UnitId) :
    Option Run := do
  let outcome ← checkUnit? program unit policy run.facts
  return ⟨outcome.value :: run.reports, outcome.facts, outcome.warnings ++ run.warnings⟩

/-- Checks one unit over a layer on published facts. -/
def checkLayered? (program : Program) (policy : Policy) (published : FactTable) (unit : UnitId) :
    Option (Outcome FactTable UnitReport) := do
  let outcome ← checkUnit? program unit policy (FactLayer.ofTable published)
  return { outcome with facts := outcome.facts.added }

/-- Merges the layer of a unit and keeps its report. -/
def absorb (run : Run) (outcome : Outcome FactTable UnitReport) : Run :=
  let (facts, conflict) := run.facts.merge outcome.facts
  let conflicts := conflict.toList.map (Warning.mergeConflict outcome.value.unit)
  ⟨outcome.value :: run.reports, facts, conflicts ++ outcome.warnings ++ run.warnings⟩

def checkLevel? (program : Program) (policy : Policy) (run : Run) (level : List UnitId) :
    Option Run := do
  let outcomes ← level.mapM (checkLayered? program policy run.facts)
  return outcomes.foldl absorb run

def sequential? (program : Program) (policy : Policy) (schedule : Schedule) : Option Run :=
  schedule.units.foldlM (checkDirect? program policy) start

def byLevels? (program : Program) (policy : Policy) (schedule : Schedule) : Option Run :=
  schedule.levels.foldlM (checkLevel? program policy) start

def warnFirst (run : Run) (warning : Warning) : Run :=
  { run with warnings := run.warnings ++ [warning] }

/-- Checks every scheduled unit, one after the other when there is one job or no thread pool. -/
def check? (program : Program) (policy : Policy) (schedule : Schedule) (jobs : Nat)
    (pool : ThreadPool := .built) : Option Run :=
  if jobs ≤ 1 then sequential? program policy schedule
  else
    match pool with
    | .built => byLevels? program policy schedule
    | .failed cause => (sequential? program policy schedule).map (·.warnFirst (.noThreadPool cause))

end Run

end ErrorWrapping
