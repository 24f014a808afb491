import ErrorWrapping.Analysis.View
import ErrorWrapping.Sorted

/-
Definitions of variables.

A definition of a variable is an assignment or a declaration whose target is an `error`
identifier of the variable and whose value there is a call. With as many values as targets they
are paired one by one; a single value is the value of every target. Variables are told apart by
where they are declared, never by name.
-/

namespace ErrorWrapping

structure Definition where
  span : Span
  call : ExprId
  target : ExprId
  deriving DecidableEq, Inhabited

namespace Definition

/-- By the start of the statement, then by the identifier. -/
def before (left right : Definition) : Bool :=
  left.span.start < right.span.start ||
    (left.span.start == right.span.start && left.target.index ≤ right.target.index)

end Definition

/-- The definitions of a unit in the order of the walk, each with its variable. -/
structure DefinitionIndex where
  entries : List (VarId × Definition)

namespace DefinitionIndex

/-- The definitions of a variable, ordered by position and each once. -/
def resolve (index : DefinitionIndex) (var : VarId) : List Definition :=
  let found := index.entries.filterMap fun (owner, definition) =>
    if owner = var then some definition else none
  Sorted.dropRepeats (found.mergeSort Definition.before)

def vars (index : DefinitionIndex) : List VarId :=
  (index.entries.map (·.1)).eraseDups

def size (index : DefinitionIndex) : Nat := index.vars.length

def isEmpty (index : DefinitionIndex) : Bool := index.entries.isEmpty

end DefinitionIndex

def StmtKind.assignment? : StmtKind → Option (IdRange × IdRange)
  | .assign _ targets values => some (targets, values)
  | .varDecl names values => some (names, values)
  | _ => none

def valueFor? (targets values : List ExprId) (position : Nat) : Option ExprId :=
  if targets.length = values.length then values[position]?
  else
    match values with
    | [single] => some single
    | _ => none

namespace UnitView

/-- The definition made by one target of a statement, if it makes one. -/
def definition? (view : UnitView) (span : Span) (targets values : List ExprId)
    (target : ExprId × Nat) : Option (Option (VarId × Definition)) := do
  let node ← view.arena.expr? target.1
  match if view.isErrorExpr node then view.varOf? node else none with
  | none => return none
  | some var =>
    match valueFor? targets values target.2 with
    | none => return none
    | some value =>
      match (← view.arena.expr? value).kind with
      | .call _ _ => return some (var, ⟨span, value, target.1⟩)
      | _ => return none

def definitionsAt? (view : UnitView) : NodeRef → Option (List (VarId × Definition))
  | .stmt id => do
    let stmt ← view.arena.stmt? id
    match stmt.kind.assignment? with
    | none => return []
    | some (targets, values) =>
      let targets ← view.arena.exprList? targets
      let values ← view.arena.exprList? values
      let found ← targets.zipIdx.mapM (view.definition? stmt.span targets values)
      return found.filterMap fun entry => entry
  | _ => some []

def definitionIndex? (view : UnitView) (nodes : List NodeRef) : Option DefinitionIndex := do
  return ⟨(← nodes.mapM view.definitionsAt?).flatten⟩

def targetWarnings (view : UnitView) : NodeRef → List Warning
  | .stmt id =>
    let targets := do
      let (targets, _) ← (← view.arena.stmt? id).kind.assignment?
      view.arena.exprList? targets
    ((targets.getD []).filterMap view.arena.expr?).flatMap fun node =>
      if view.isErrorExpr node then view.varWarnings node else []
  | _ => []

end UnitView

end ErrorWrapping
