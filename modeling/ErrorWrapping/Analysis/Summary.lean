import ErrorWrapping.Analysis.Classification
import ErrorWrapping.Analysis.Escape
import Std.Data.HashSet

/-
Summaries of the functions of a unit.

A summary classifies every escape of one function; the verdict on the function is wrapped when
all of them are, and is recorded as a fact at once. Functions are summarized in order of
declaration, but a call of a function of the same unit that has no verdict yet summarizes that
function first. A call back into a function whose summary is under way stays naked.
-/

namespace ErrorWrapping

structure ErrorSource where
  producer : Option SymbolId
  classification : Classification
  site : Span
  origin : Option Span
  deriving DecidableEq, Inhabited

structure Summary where
  func : FuncId
  /-- The declared name, or `Outer.funcN` for a literal. -/
  name : String
  symbol : Option SymbolId
  span : Span
  sources : List ErrorSource
  deriving DecidableEq, Inhabited

namespace Summary

/-- Wrapped when every source is; so is a function without sources. -/
def verdict (summary : Summary) : Verdict :=
  .ofWrapped (summary.sources.all (·.classification.isWrapped))

def nakedSources (summary : Summary) : List ErrorSource :=
  summary.sources.filter (!·.classification.isWrapped)

def before (left right : Summary) : Bool :=
  left.span.start < right.span.start ||
    (left.span.start == right.span.start && left.func.index ≤ right.func.index)

end Summary

/-! ### The functions of a unit -/

structure Subject where
  func : FuncId
  name : String
  symbol : Option SymbolId
  span : Span
  hasError : Bool
  escapes : List Escape
  deriving DecidableEq, Inhabited

structure Workload where
  order : List FuncId
  subjects : Std.HashMap FuncId Subject
  /-- The declared function of each symbol; the last declaration counts. -/
  declared : Std.HashMap SymbolId FuncId

def nameLiterals (outer : String) (nodes : List NodeRef) : List (FuncId × String) :=
  let literals := nodes.filterMap fun
    | .literal id => some id
    | _ => none
  literals.zipIdx.map fun (id, index) => (id, outer ++ ".func" ++ toString (index + 1))

namespace UnitView

def declOrder? (view : UnitView) (decl : FuncId) : Option (List (FuncId × String)) := do
  let function ← view.arena.function? decl
  let nodes ← view.arena.walk .whole (← view.arena.bodyRefs? function)
  return (decl, function.name) :: nameLiterals function.name nodes

/-- Declarations in order, each with its literals, then the literals of package-level statements. -/
def functionOrder? (view : UnitView) : Option (List (FuncId × String)) := do
  let declared ← view.unit.decls.mapM view.declOrder?
  let global ← view.arena.walk .whole view.unit.globalRefs
  return declared.flatten ++ nameLiterals "glob" global

def subject? (view : UnitView) (index : DefinitionIndex) (entry : FuncId × String) :
    Option Subject := do
  let function ← view.arena.function? entry.1
  let hasError := (ErrorShape.ofFunction view.types function).hasError
  let escapes ← if hasError then view.escapes? index function else some []
  return ⟨entry.1, entry.2, function.symbol, function.span, hasError, escapes⟩

def workload? (view : UnitView) (index : DefinitionIndex) : Option Workload := do
  let order ← view.functionOrder?
  let subjects ← order.mapM (view.subject? index)
  let declared ← view.unit.decls.mapM fun decl => do
    return (decl, (← view.arena.function? decl).symbol)
  return {
    order := order.map (·.1)
    subjects := subjects.foldl (fun table subject => table.insert subject.func subject) ∅
    declared := declared.foldl (fun table (decl, symbol) =>
      match symbol with
      | some symbol => table.insert symbol decl
      | none => table) ∅ }

end UnitView

/-! ### Summarizing -/

structure Progress (σ : Type) where
  facts : σ
  /-- Functions whose summary is done or under way. -/
  visited : Std.HashSet FuncId
  summaries : List Summary
  refused : List (String × FactError)

def Progress.conclude {σ : Type} [FactStore σ] (progress : Progress σ) (summary : Summary) :
    Progress σ :=
  let progress := { progress with summaries := summary :: progress.summaries }
  match summary.symbol with
  | none => progress
  | some symbol =>
    match FactStore.record progress.facts symbol summary.verdict with
    | .ok facts => { progress with facts }
    | .error refusal => { progress with refused := (summary.name, refusal) :: progress.refused }

namespace Workload

variable {σ : Type} [FactStore σ]

def awaited? (work : Workload) (progress : Progress σ) (target : CallTarget) : Option FuncId :=
  match target.symbol.bind (work.declared[·]?) with
  | some func => if progress.visited.contains func then none else some func
  | none => none

/-- Classifies one escape. A call whose function is in scope without verdict has that function
summarized by `settle` first. -/
def classifyEscape (work : Workload) (symbols : SymbolTable) (policy : Policy)
    (settle : FuncId → Progress σ → Progress σ) (state : Progress σ × List ErrorSource)
    (escape : Escape) : Progress σ × List ErrorSource :=
  let (progress, sources) := state
  match escape.target with
  | none => (progress, ⟨none, .naked .unresolved, escape.site, none⟩ :: sources)
  | some target =>
    let first := classify symbols policy progress.facts target
    let awaited := if first = .naked .pending then work.awaited? progress target else none
    match awaited with
    | none => (progress, ⟨target.symbol, first, escape.site, escape.origin⟩ :: sources)
    | some func =>
      let progress := settle func progress
      let second := classify symbols policy progress.facts target
      (progress, ⟨target.symbol, second, escape.site, escape.origin⟩ :: sources)

/-- Summarizes one function unless that is done or under way, with at most `depth` summaries
under way at a time. -/
def settle (work : Workload) (symbols : SymbolTable) (policy : Policy) :
    Nat → FuncId → Progress σ → Progress σ
  | 0, _, progress => progress
  | depth + 1, func, progress =>
    if progress.visited.contains func then progress
    else
      let progress := { progress with visited := progress.visited.insert func }
      match work.subjects[func]? with
      | none => progress
      | some subject =>
        if subject.hasError then
          let (progress, sources) := subject.escapes.foldl
            (work.classifyEscape symbols policy (work.settle symbols policy depth)) (progress, [])
          progress.conclude
            ⟨func, subject.name, subject.symbol, subject.span, sources.reverse⟩
        else progress

def run (work : Workload) (symbols : SymbolTable) (policy : Policy) (facts : σ) : Progress σ :=
  let depth := work.subjects.size + 1
  work.order.foldl (fun progress func => work.settle symbols policy depth func progress)
    ⟨facts, ∅, [], []⟩

end Workload

def Progress.sorted {σ : Type} (progress : Progress σ) : List Summary :=
  progress.summaries.reverse.mergeSort Summary.before

end ErrorWrapping
