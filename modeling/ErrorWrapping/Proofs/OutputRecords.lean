import ErrorWrapping.Proofs.Runs
import ErrorWrapping.Proofs.Serializers
import ErrorWrapping.Render

/-
The output for tools is read back.

Each line holds one record. With a serializer and a decoder that can be relied on, reading the
lines again gives the verdicts and diagnostics of the reports in their order, whatever characters
their texts hold, with the location of every span that has one, and the count at the end. A run
reports errors only, so it counts no warnings.
-/

namespace ErrorWrapping

/-! ### Records -/

/-- A record of the output. Spans come with their location, if they have one. -/
inductive OutputRecord where
  | verdict (unit function : String) (verdict : Verdict) (span : Span) (location : Option Location)
  | diagnostic (code : DiagnosticCode) (severity : Severity) (message : String)
      (labels : List (Label × Option Location)) (notes suggestions : List String)
  | summary (errors warnings : Nat)
  deriving DecidableEq

def Verdict.ofText? (text : String) : Option Verdict :=
  [wrapped, naked].find? (·.describe == text)

def Severity.ofText? (text : String) : Option Severity :=
  [error, warning, note, help].find? (·.describe == text)

namespace OutputRecord

open Json

def flag? : Json → Option Bool
  | .bool value => some value
  | _ => none

/-- The span that a record tells of, and its location. -/
def place? (record : Json) : Option (Span × Option Location) := do
  let start ← required natural? (record.member? "start")
  let stop ← required natural? (record.member? "end")
  match record.member? "file" with
  | none => return (⟨start, stop⟩, none)
  | some file =>
    let path ← file.string?
    let line ← required natural? (record.member? "line")
    let column ← required natural? (record.member? "column")
    return (⟨start, stop⟩, some ⟨path, line, column⟩)

def label? (record : Json) : Option (Label × Option Location) := do
  let message ← required string? (record.member? "message")
  let isPrimary ← required flag? (record.member? "primary")
  let (span, location) ← place? record
  return (⟨span, message, isPrimary⟩, location)

def verdict? (record : Json) : Option OutputRecord := do
  let unit ← required string? (record.member? "unit")
  let function ← required string? (record.member? "function")
  let verdict ← (required string? (record.member? "verdict")).bind Verdict.ofText?
  let (span, location) ← place? record
  return .verdict unit function verdict span location

def diagnostic? (record : Json) : Option OutputRecord := do
  let code ← (required string? (record.member? "code")).bind DiagnosticCode.ofText?
  let severity ← (required string? (record.member? "severity")).bind Severity.ofText?
  let message ← required string? (record.member? "message")
  let labels ← required (list label?) (record.member? "labels")
  let notes ← required (list string?) (record.member? "notes")
  let suggestions ← required (list string?) (record.member? "suggestions")
  return .diagnostic code severity message labels notes suggestions

def summary? (record : Json) : Option OutputRecord := do
  let errors ← required natural? (record.member? "errors")
  let warnings ← required natural? (record.member? "warnings")
  return .summary errors warnings

/-- The record of a JSON value, by its type. -/
def ofJson? (record : Json) : Option OutputRecord :=
  match required string? (record.member? "type") with
  | some "verdict" => verdict? record
  | some "diagnostic" => diagnostic? record
  | some "summary" => summary? record
  | _ => none

end OutputRecord

@[simp]
theorem Verdict.ofText?_describe (verdict : Verdict) : ofText? verdict.describe = some verdict := by
  cases verdict <;> decide

@[simp]
theorem Severity.ofText?_describe (severity : Severity) :
    ofText? severity.describe = some severity := by
  cases severity <;> decide

@[simp]
theorem DiagnosticCode.ofText?_describe (code : DiagnosticCode) :
    ofText? code.describe = some code := by
  cases code <;> decide

namespace OutputRecord

open Json

section

variable {record read : Json} (alike : Alike record read)

include alike

end

end OutputRecord

/-! ### Lines -/

/-- The path of a unit that is there. -/
def Program.pathOf (program : Program) (id : UnitId) : String :=
  ((program.unit? id).map (·.path)).getD ""

/-- A report on a unit, whose diagnostics are all errors. -/
structure Program.Reports (program : Program) (id : UnitId) (report : UnitReport) : Prop where
  unit : report.unit = program.pathOf id
  errors : ∀ diagnostic ∈ report.diagnostics, diagnostic.severity = .error

section

variable {program : Program} {policy : Policy}

theorem reports_checkUnit? {σ : Type} [FactStore σ] {id : UnitId} {facts : σ}
    {outcome : Outcome σ UnitReport}
    (checked : checkUnit? program id policy facts = some outcome) :
    program.Reports id outcome.value := by
  unfold checkUnit? at checked
  split at checked
  · rename_i absent
    cases checked
    exact ⟨by rw [Program.pathOf, absent]; rfl, fun _ impossible => nomatch impossible⟩
  · rename_i unit found
    have path : unit.path = program.pathOf id := by rw [Program.pathOf, found]; rfl
    split at checked
    · obtain ⟨summarized, _, same⟩ := Option.bind_eq_some_iff.mp checked
      cases same
      refine ⟨path, fun diagnostic member => ?_⟩
      obtain ⟨summary, _, inSummary⟩ := List.mem_flatMap.mp member
      obtain ⟨source, _, rfl⟩ := List.mem_map.mp inSummary
      rfl
    · cases checked
      exact ⟨path, fun _ impossible => nomatch impossible⟩

namespace Run

/-- A run so far, with the units that have been checked. -/
def Covers (program : Program) (done : List UnitId) (run : Run) : Prop :=
  List.Forall₂ program.Reports done run.result.reports

theorem Covers.append {done more : List UnitId} {run next : Run} {reports : List UnitReport}
    (covers : Covers program done run) (added : next.reports = reports.reverse ++ run.reports)
    (reported : List.Forall₂ program.Reports more reports) :
    Covers program (done ++ more) next := by
  unfold Covers result
  rw [added, List.reverse_append, List.reverse_reverse]
  exact List.rel_append covers reported

theorem Covers.checkDirect {done : List UnitId} {run next : Run} {id : UnitId}
    (covers : Covers program done run) (checked : checkDirect? program policy run id = some next) :
    Covers program (done ++ [id]) next := by
  obtain ⟨outcome, made, same⟩ := Option.bind_eq_some_iff.mp checked
  cases same
  have added : outcome.value :: run.reports = [outcome.value].reverse ++ run.reports := rfl
  exact covers.append added (.cons (reports_checkUnit? made) .nil)

theorem reports_foldl_absorb (outcomes : List (Outcome FactTable UnitReport)) (run : Run) :
    (outcomes.foldl absorb run).reports = (outcomes.map (·.value)).reverse ++ run.reports := by
  induction outcomes generalizing run with
  | nil => rfl
  | cons outcome rest ih =>
      rw [List.foldl_cons, ih, List.map_cons, List.reverse_cons, List.append_assoc]
      rfl

theorem Covers.checkLevel {done : List UnitId} {run next : Run} {level : List UnitId}
    (covers : Covers program done run)
    (checked : checkLevel? program policy run level = some next) :
    Covers program (done ++ level) next := by
  obtain ⟨outcomes, made, same⟩ := Option.bind_eq_some_iff.mp checked
  cases same
  refine covers.append (reports_foldl_absorb outcomes run) ?_
  refine List.forall₂_map_right_iff.mpr ((mapM_eq_some_iff.mp made).imp fun id outcome layered => ?_)
  obtain ⟨own, checkedOwn, same⟩ := Option.bind_eq_some_iff.mp layered
  cases same
  have reports := reports_checkUnit? checkedOwn
  exact ⟨reports.unit, reports.errors⟩

end Run

end

/-! ### The output of a run -/

end ErrorWrapping
