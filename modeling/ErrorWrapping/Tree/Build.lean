import ErrorWrapping.Symbols
import ErrorWrapping.Tree.Arena

/-
Building the tree of a unit.

A tree is built bottom up: each operation adds one node whose children are already there. The
type of a reference to a function, of a literal and of a call follows from the symbol or the
function, and is entered into the type table when it is first needed.
-/

namespace ErrorWrapping

structure TreeBuilder where
  types : TypeTable
  arena : Arena

namespace TreeBuilder

/-! ### Expressions -/

def expr (builder : TreeBuilder) (kind : ExprKind) (type : TypeId) (span : Span) :
    ExprId × TreeBuilder :=
  let (id, arena) := builder.arena.addExpr ⟨kind, span, type⟩
  (id, { builder with arena })

def ident (builder : TreeBuilder) (name : String) (binding : Binding) (type : TypeId)
    (span : Span) : ExprId × TreeBuilder :=
  builder.expr (.ident name binding) type span

/-- A use of a variable, with the variable's name and type. -/
def varRef (builder : TreeBuilder) (var : VarId) (span : Span) : ExprId × TreeBuilder :=
  match builder.arena.var? var with
  | some info => builder.ident info.name (.var var) info.type span
  | none => builder.ident "" (.var var) .invalid span

def package (builder : TreeBuilder) (path : String) (span : Span) : ExprId × TreeBuilder :=
  builder.ident path (.package path) .invalid span

def funcType (builder : TreeBuilder) (results : List TypeId) : TypeId × TreeBuilder :=
  let (type, types) := builder.types.enter (.func [] results)
  (type, { builder with types })

/-- Name and type of a reference to a symbol; the name of an unknown symbol is empty. -/
def symbolType (builder : TreeBuilder) (symbols : SymbolTable) (symbol : SymbolId) :
    String × TypeId × TreeBuilder :=
  match symbols.get? symbol with
  | some info => (info.name, builder.funcType info.results)
  | none => ("", builder.funcType [])

def funcRef (builder : TreeBuilder) (symbols : SymbolTable) (symbol : SymbolId) (span : Span) :
    ExprId × TreeBuilder :=
  let (name, type, builder) := builder.symbolType symbols symbol
  builder.ident name (.func symbol) type span

def select (builder : TreeBuilder) (symbols : SymbolTable) (base : ExprId) (symbol : SymbolId)
    (span : Span) : ExprId × TreeBuilder :=
  let (name, type, builder) := builder.symbolType symbols symbol
  builder.expr (.selector base name (some symbol)) type span

def field (builder : TreeBuilder) (base : ExprId) (name : String) (type : TypeId) (span : Span) :
    ExprId × TreeBuilder :=
  builder.expr (.selector base name none) type span

def callTyped (builder : TreeBuilder) (callee : ExprId) (args : List ExprId) (type : TypeId)
    (span : Span) : ExprId × TreeBuilder :=
  let (range, arena) := builder.arena.addExprList args
  { builder with arena }.expr (.call callee range) type span

def calledSymbol? : ExprKind → Option SymbolId
  | .ident _ (.func symbol) => some symbol
  | .selector _ _ symbol => symbol
  | _ => none

/-- The results of calling an expression: those of its symbol, else those of its type. -/
def calledResults? (types : TypeTable) (symbols : SymbolTable) (callee : Expr) :
    Option (List TypeId) :=
  match (calledSymbol? callee.kind).bind symbols.get? with
  | some symbol => some symbol.results
  | none =>
    match types.get? callee.type with
    | some (.func _ results) => some results
    | _ => none

def call? (builder : TreeBuilder) (symbols : SymbolTable) (callee : ExprId) (args : List ExprId)
    (span : Span) : Option (ExprId × TreeBuilder) := do
  let target ← builder.arena.expr? callee
  let (type, types) := match calledResults? builder.types symbols target with
    | some results => builder.types.resultsType results
    | none => (.invalid, builder.types)
  return { builder with types }.callTyped callee args type span

def other (builder : TreeBuilder) (operands : List ExprId) (type : TypeId) (span : Span) :
    ExprId × TreeBuilder :=
  let (range, arena) := builder.arena.addExprList operands
  { builder with arena }.expr (.other range) type span

def funcLit? (builder : TreeBuilder) (func : FuncId) (span : Span) :
    Option (ExprId × TreeBuilder) := do
  let function ← builder.arena.function? func
  let (type, builder) := builder.funcType (function.results.map (·.type))
  return builder.expr (.funcLit func) type span

/-! ### Statements -/

def stmt (builder : TreeBuilder) (kind : StmtKind) (span : Span) : StmtId × TreeBuilder :=
  let (id, arena) := builder.arena.addStmt ⟨kind, span⟩
  (id, { builder with arena })

def exprList (builder : TreeBuilder) (ids : List ExprId) : IdRange × TreeBuilder :=
  let (range, arena) := builder.arena.addExprList ids
  (range, { builder with arena })

def stmtList (builder : TreeBuilder) (ids : List StmtId) : IdRange × TreeBuilder :=
  let (range, arena) := builder.arena.addStmtList ids
  (range, { builder with arena })

def assign (builder : TreeBuilder) (op : AssignOp) (targets values : List ExprId) (span : Span) :
    StmtId × TreeBuilder :=
  let (targets, builder) := builder.exprList targets
  let (values, builder) := builder.exprList values
  builder.stmt (.assign op targets values) span

def varDecl (builder : TreeBuilder) (names values : List ExprId) (span : Span) :
    StmtId × TreeBuilder :=
  let (names, builder) := builder.exprList names
  let (values, builder) := builder.exprList values
  builder.stmt (.varDecl names values) span

def ret (builder : TreeBuilder) (results : List ExprId) (span : Span) : StmtId × TreeBuilder :=
  let (results, builder) := builder.exprList results
  builder.stmt (.ret results) span

def exprStmt (builder : TreeBuilder) (expr : ExprId) (span : Span) : StmtId × TreeBuilder :=
  builder.stmt (.expr expr) span

def block (builder : TreeBuilder) (body : List StmtId) (span : Span) : StmtId × TreeBuilder :=
  let (body, builder) := builder.stmtList body
  builder.stmt (.block body) span

def cond (builder : TreeBuilder) (init : Option StmtId) (test : ExprId) (body : List StmtId)
    (otherwise : Option StmtId) (span : Span) : StmtId × TreeBuilder :=
  let (body, builder) := builder.stmtList body
  builder.stmt (.cond init test body otherwise) span

def loop (builder : TreeBuilder) (init : Option StmtId) (body : List StmtId) (span : Span) :
    StmtId × TreeBuilder :=
  let (body, builder) := builder.stmtList body
  builder.stmt (.loop init body) span

def switch (builder : TreeBuilder) (init : Option StmtId) (tag : Option ExprId)
    (cases : List StmtId) (span : Span) : StmtId × TreeBuilder :=
  let (cases, builder) := builder.stmtList cases
  builder.stmt (.switch init tag cases) span

/-! ### Functions and variables -/

def var (builder : TreeBuilder) (info : Variable) : VarId × TreeBuilder :=
  let (id, arena) := builder.arena.addVar info
  (id, { builder with arena })

def function (builder : TreeBuilder) (info : Function) : FuncId × TreeBuilder :=
  let (id, arena) := builder.arena.addFunction info
  (id, { builder with arena })

def setBody? (builder : TreeBuilder) (func : FuncId) (body : List StmtId) : Option TreeBuilder :=
  (builder.arena.setBody? func body).map fun arena => { builder with arena }

end TreeBuilder

end ErrorWrapping
