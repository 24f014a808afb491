import ErrorWrapping.Analysis.Definitions
import ErrorWrapping.Analysis.ErrorShape

/-
Errors that leave a function.

An escape is one error that one `return` of a function lets out, with the call that produced it
when that call is known. A returned call is its own producer; a returned variable stands for the
calls of all its definitions in the unit; a bare return stands for the variables of the error
results. What escapes is read off the tree alone and does not depend on any fact.
-/

namespace ErrorWrapping

structure Escape where
  target : Option CallTarget
  site : Span
  /-- The producing call, when it was found through a variable. -/
  origin : Option Span
  deriving DecidableEq, Inhabited

def Escape.unknown (site : Span) : Escape := ⟨none, site, none⟩

namespace UnitView

/-- One escape for each definition of a variable, or one of unknown origin. -/
def varEscapes? (view : UnitView) (index : DefinitionIndex) (site : Span) (var : VarId) :
    Option (List Escape) :=
  match index.resolve var with
  | [] => some [.unknown site]
  | definitions => definitions.mapM fun definition => do
    let call ← view.arena.expr? definition.call
    return ⟨some (← view.target? call), site, some call.span⟩

def exprEscapes? (view : UnitView) (index : DefinitionIndex) (site : Span) (id : ExprId) :
    Option (List Escape) := do
  let expr ← view.arena.expr? id
  match expr.kind with
  | .call _ _ =>
    if view.isErrorExpr expr || view.holdsError expr then
      return [⟨some (← view.target? expr), site, none⟩]
    else return []
  | _ =>
    if view.isErrorExpr expr then
      match view.varOf? expr with
      | some var => view.varEscapes? index site var
      | none => return [.unknown site]
    else return []

def bareEscapes? (view : UnitView) (index : DefinitionIndex) (function : Function) (site : Span) :
    Option (List Escape) := do
  let positions := (ErrorShape.ofFunction view.types function).positions
  let escapes ← positions.mapM fun position =>
    match (function.results[position]?).bind (·.var) with
    | some var => view.varEscapes? index site var
    | none => some [.unknown site]
  return escapes.flatten

/-- The returns of a function with their results, in source order; those of literals inside it
are not its own. -/
def returns? (view : UnitView) (function : Function) : Option (List (Span × List ExprId)) := do
  let nodes ← view.arena.walk .own (← view.arena.bodyRefs? function)
  let found ← nodes.mapM fun
    | .stmt id => do
      let stmt ← view.arena.stmt? id
      match stmt.kind with
      | .ret results => return some (stmt.span, ← view.arena.exprList? results)
      | _ => return none
    | _ => some none
  return found.filterMap fun entry => entry

def escapes? (view : UnitView) (index : DefinitionIndex) (function : Function) :
    Option (List Escape) := do
  let escapes ← (← view.returns? function).mapM fun (site, results) => do
    if results.isEmpty then view.bareEscapes? index function site
    else return (← results.mapM (view.exprEscapes? index site)).flatten
  return escapes.flatten

/-! ### References to nothing -/

def returnWarnings (view : UnitView) (function : Function) : List Warning :=
  let returned := ((view.returns? function).getD []).flatMap (·.2)
  (returned.filterMap view.arena.expr?).flatMap fun expr =>
    match expr.kind with
    | .call _ _ =>
      if view.isErrorExpr expr || view.holdsError expr then view.symbolWarnings expr else []
    | _ => if view.isErrorExpr expr then view.varWarnings expr else []

def returnedVars (view : UnitView) (function : Function) : List VarId :=
  ((view.returns? function).getD []).flatMap fun (_, results) =>
    if results.isEmpty then
      (ErrorShape.ofFunction view.types function).positions.filterMap fun position =>
        (function.results[position]?).bind (·.var)
    else (results.filterMap view.arena.expr?).filterMap fun expr =>
      if view.isErrorExpr expr then view.varOf? expr else none

def originWarnings (view : UnitView) (index : DefinitionIndex) (function : Function) :
    List Warning :=
  (view.returnedVars function).flatMap fun var =>
    ((index.resolve var).filterMap fun definition => view.arena.expr? definition.call).flatMap
      view.symbolWarnings

end UnitView

end ErrorWrapping
