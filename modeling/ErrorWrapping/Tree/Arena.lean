import ErrorWrapping.Tree.Node

/-
The nodes of one unit.

Expressions, statements, functions and variables are numbered in order of allocation. Lists of
children are stored one after the other in two flat lists, and are named by their range. A
look-up beyond the end gives nothing.
-/

namespace ErrorWrapping

structure Arena where
  exprs : Array Expr := #[]
  stmts : Array Stmt := #[]
  functions : Array Function := #[]
  vars : Array Variable := #[]
  exprLists : Array ExprId := #[]
  stmtLists : Array StmtId := #[]

namespace Arena

def empty : Arena := {}

/-! ### Look-up -/

def expr? (arena : Arena) (id : ExprId) : Option Expr :=
  arena.exprs[id.index]?

def stmt? (arena : Arena) (id : StmtId) : Option Stmt :=
  arena.stmts[id.index]?

def function? (arena : Arena) (id : FuncId) : Option Function :=
  arena.functions[id.index]?

def var? (arena : Arena) (id : VarId) : Option Variable :=
  arena.vars[id.index]?

/-- The entries of a range, if the list reaches that far. -/
def slice? {α : Type} (entries : Array α) (range : IdRange) : Option (List α) :=
  if range.stop ≤ entries.size then some (entries.extract range.start range.stop).toList
  else none

def exprList? (arena : Arena) (range : IdRange) : Option (List ExprId) :=
  slice? arena.exprLists range

def stmtList? (arena : Arena) (range : IdRange) : Option (List StmtId) :=
  slice? arena.stmtLists range

/-! ### Allocation -/

def addExpr (arena : Arena) (expr : Expr) : ExprId × Arena :=
  (⟨arena.exprs.size⟩, { arena with exprs := arena.exprs.push expr })

def addStmt (arena : Arena) (stmt : Stmt) : StmtId × Arena :=
  (⟨arena.stmts.size⟩, { arena with stmts := arena.stmts.push stmt })

def addFunction (arena : Arena) (function : Function) : FuncId × Arena :=
  (⟨arena.functions.size⟩, { arena with functions := arena.functions.push function })

def addVar (arena : Arena) (var : Variable) : VarId × Arena :=
  (⟨arena.vars.size⟩, { arena with vars := arena.vars.push var })

def addExprList (arena : Arena) (ids : List ExprId) : IdRange × Arena :=
  (⟨arena.exprLists.size, ids.length⟩, { arena with exprLists := arena.exprLists ++ ids.toArray })

def addStmtList (arena : Arena) (ids : List StmtId) : IdRange × Arena :=
  (⟨arena.stmtLists.size, ids.length⟩, { arena with stmtLists := arena.stmtLists ++ ids.toArray })

def setBody? (arena : Arena) (func : FuncId) (body : List StmtId) : Option Arena :=
  let (range, arena) := arena.addStmtList body
  match arena.function? func with
  | none => none
  | some function =>
    some { arena with functions :=
      arena.functions.setIfInBounds func.index { function with body := some range } }

end Arena

end ErrorWrapping
