import ErrorWrapping.Identifiers
import ErrorWrapping.Source.Span
import ErrorWrapping.Types

/-
Nodes of a unit's tree.

Nodes refer to their children by identifier, and to lists of children by a range of the unit's
list of identifiers. Every expression carries its type and every identifier what it is bound to.
Only what matters to the flow of errors is told apart: everything else is an `other` expression
with operands, or a block.
-/

namespace ErrorWrapping

/-- Consecutive entries of a unit's list of identifiers. -/
structure IdRange where
  start : Nat
  length : Nat
  deriving DecidableEq, Inhabited

namespace IdRange

def isEmpty (range : IdRange) : Bool :=
  range.length == 0

def stop (range : IdRange) : Nat :=
  range.start + range.length

end IdRange

inductive Binding where
  | var (id : VarId)
  | func (id : SymbolId)
  /-- The qualifier of an imported package. -/
  | package (path : String)
  | unresolved
  deriving DecidableEq, Inhabited

inductive ExprKind where
  | ident (name : String) (binding : Binding)
  /-- `base.field`; the symbol is set when the selector denotes a function or method. -/
  | selector (base : ExprId) (field : String) (symbol : Option SymbolId)
  | call (callee : ExprId) (args : IdRange)
  | funcLit (func : FuncId)
  | nil
  | literal
  | other (operands : IdRange)
  deriving DecidableEq, Inhabited

structure Expr where
  kind : ExprKind
  span : Span
  type : TypeId
  deriving DecidableEq, Inhabited

inductive AssignOp where
  | define
  | assign
  deriving DecidableEq, Inhabited

inductive StmtKind where
  | assign (op : AssignOp) (targets values : IdRange)
  | varDecl (names values : IdRange)
  | ret (results : IdRange)
  | expr (expr : ExprId)
  | block (body : IdRange)
  | cond (init : Option StmtId) (test : ExprId) (body : IdRange) (otherwise : Option StmtId)
  | loop (init : Option StmtId) (body : IdRange)
  /-- Each case is a block. -/
  | switch (init : Option StmtId) (tag : Option ExprId) (cases : IdRange)
  deriving DecidableEq, Inhabited

structure Stmt where
  kind : StmtKind
  span : Span
  deriving DecidableEq, Inhabited

structure ResultSlot where
  type : TypeId
  var : Option VarId
  deriving DecidableEq, Inhabited

structure Function where
  name : String
  symbol : Option SymbolId
  parent : Option FuncId
  params : List VarId
  results : List ResultSlot
  /-- None for a declaration without body. -/
  body : Option IdRange
  span : Span
  deriving DecidableEq, Inhabited

namespace Function

def returnsError (types : TypeTable) (function : Function) : Bool :=
  function.results.any fun slot => types.isError slot.type

def isLiteral (function : Function) : Bool :=
  function.symbol.isNone && function.name == ""

end Function

inductive VarKind where
  | param
  | result
  | local
  | global
  deriving DecidableEq, Inhabited

def VarKind.describe : VarKind → String
  | .param => "param"
  | .result => "result"
  | .local => "local"
  | .global => "global"

structure Variable where
  name : String
  kind : VarKind
  type : TypeId
  span : Span
  deriving DecidableEq, Inhabited

end ErrorWrapping
