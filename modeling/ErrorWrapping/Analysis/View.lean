import ErrorWrapping.Program
import ErrorWrapping.Warning

/-
One unit seen within its program.

Questions about expressions are answered from the unit's tree and the program's tables. A
question that meets an identifier without a node has no answer; a reference to a symbol or
variable that does not exist counts as no reference.
-/

namespace ErrorWrapping

structure UnitView where
  program : Program
  unit : Package

structure CallTarget where
  symbol : Option SymbolId
  throughInterface : Bool
  deriving DecidableEq, Inhabited

namespace UnitView

def arena (view : UnitView) : Arena := view.unit.arena

def types (view : UnitView) : TypeTable := view.program.types

def symbols (view : UnitView) : SymbolTable := view.program.symbols

def isErrorExpr (view : UnitView) (expr : Expr) : Bool :=
  view.types.isError expr.type

/-- Whether an expression is a tuple with an error in it. -/
def holdsError (view : UnitView) (expr : Expr) : Bool :=
  !(view.types.errorPositions expr.type).isEmpty

/-- The symbol that the callee of a call names, whether or not the table has it. -/
def namedSymbol? (view : UnitView) (expr : Expr) : Option (Option SymbolId) :=
  match expr.kind with
  | .call callee _ => do
    let callee ← view.arena.expr? callee
    return match callee.kind with
      | .ident _ (.func symbol) => some symbol
      | .selector _ _ symbol => symbol
      | _ => none
  | _ => some none

def calleeSymbol? (view : UnitView) (expr : Expr) : Option (Option SymbolId) := do
  return (← view.namedSymbol? expr).filter fun symbol => (view.symbols.get? symbol).isSome

/-- Whether a call selects a method of an interface. The qualifier of a package is no receiver. -/
def receiverIsInterface? (view : UnitView) (expr : Expr) : Option Bool :=
  match expr.kind with
  | .call callee _ => do
    let callee ← view.arena.expr? callee
    match callee.kind with
    | .selector base _ _ => do
      let receiver ← view.arena.expr? base
      return match receiver.kind with
        | .ident _ (.package _) => false
        | _ => view.types.isInterface receiver.type
    | _ => some false
  | _ => some false

def target? (view : UnitView) (expr : Expr) : Option CallTarget := do
  return ⟨← view.calleeSymbol? expr, ← view.receiverIsInterface? expr⟩

def varOf? (view : UnitView) (expr : Expr) : Option VarId :=
  match expr.kind with
  | .ident _ (.var var) => if (view.arena.var? var).isSome then some var else none
  | _ => none

def qualified? (view : UnitView) (symbol : SymbolId) : Option String :=
  (view.symbols.get? symbol).map (·.qualified)

/-! ### References to nothing -/

def symbolWarnings (view : UnitView) (expr : Expr) : List Warning :=
  match view.namedSymbol? expr with
  | some (some symbol) =>
    if (view.symbols.get? symbol).isSome then [] else [.danglingSymbol view.unit.path symbol]
  | _ => []

def varWarnings (view : UnitView) (expr : Expr) : List Warning :=
  match expr.kind with
  | .ident _ (.var var) =>
    if (view.arena.var? var).isSome then [] else [.danglingVariable view.unit.path var]
  | _ => []

end UnitView

end ErrorWrapping
