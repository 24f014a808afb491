import ErrorWrapping.Proofs.TreeReading

/-
The trees of a dump.

A dump refers to variables, symbols and types by text. Given what each text stands for, its
functions, statements and expressions are trees of the same shape: a node for each node, with
children in the same order. Nothing here depends on how, or in which order, a dump is lowered.
-/

namespace ErrorWrapping.Dump

/-- What the references of a unit stand for. -/
structure Glossary where
  unit : String
  /-- The variable of an identifier, and its entry of the unit's table. -/
  var? : String → Option (VarId × Variable)
  symbol? : String → Option (SymbolId × Symbol)
  type : String → TypeId
  file? : String → Option FileId
  span : Option FileId → Option Position → Span
  symbols : SymbolTable
  types : TypeTable

namespace Glossary

variable (glossary : Glossary)

def typeOf : Option String → TypeId
  | none => .invalid
  | some spelling => glossary.type spelling

def funcType (results : List TypeId) : TypeId :=
  (glossary.types.enter (.func [] results)).1

/-- The results of calling an expression: those of its symbol, else those of its type. -/
def calledResults? (callee : ExprTree) : Option (List TypeId) :=
  match callee.calledSymbol?.bind glossary.symbols.get? with
  | some symbol => some symbol.results
  | none =>
    match glossary.types.get? callee.type with
    | some (.func _ results) => some results
    | _ => none

def callType (callee : ExprTree) : TypeId :=
  match glossary.calledResults? callee with
  | some results => (glossary.types.resultsType results).1
  | none => .invalid

def varId? (id : String) : Option VarId :=
  (glossary.var? id).map (·.1)

def symbolId? (key : String) : Option SymbolId :=
  (glossary.symbol? key).map (·.1)

def results (entries : List ResultEntry) : List ResultSlot :=
  entries.map fun entry => ⟨glossary.type entry.type, entry.var.bind glossary.varId?⟩

/-- The file in force inside a function; a file that is unknown does not change it. -/
def fileWithin (file : Option FileId) (path : Option String) : Option FileId :=
  (path.bind glossary.file?).or file

def withBody (file : Option FileId) (declared : Bool) (signature : Signature)
    (body : Option (List StmtTree)) : FunctionTree :=
  .mk signature.name
    (if declared then
      glossary.symbolId? (Symbol.keyOf glossary.unit signature.receiver signature.name)
    else none)
    (signature.params.filterMap glossary.varId?) (glossary.results signature.results) body
    (glossary.span (glossary.fileWithin file signature.file) signature.at?)

/-- A use of a variable, under its name; unresolved when the unit does not declare it. -/
def varRef (id : String) (span : Span) : ExprTree :=
  match glossary.var? id with
  | some (var, info) => .ident info.name (.var var) info.type span
  | none => .ident id .unresolved .invalid span

/-- A function without qualifier; unresolved when there is no such symbol. -/
def funcRef (key : String) (span : Span) : ExprTree :=
  match glossary.symbol? key with
  | some (symbol, info) => .ident info.name (.func symbol) (glossary.funcType info.results) span
  | none => .ident key .unresolved .invalid span

/-- A function or method of something; a plain field when there is no such symbol. -/
def select (base : ExprTree) (key : String) (span : Span) : ExprTree :=
  match glossary.symbol? key with
  | some (symbol, info) =>
    .selector base info.name (some symbol) (glossary.funcType info.results) span
  | none => .selector base (lastSegment key) none .invalid span

/-- A call of the type that is given, or that follows from what is called. -/
def call (callee : ExprTree) (args : List ExprTree) (type : Option String) (span : Span) :
    ExprTree :=
  .call callee args ((type.map glossary.type).getD (glossary.callType callee)) span

mutual

def expr (file : Option FileId) : Expr → ExprTree
  | .var id at? => glossary.varRef id (glossary.span file at?)
  | .blank at? => .ident "_" .unresolved .invalid (glossary.span file at?)
  | .func key at? => glossary.funcRef key (glossary.span file at?)
  | .package path at? => .ident path (.package path) .invalid (glossary.span file at?)
  | .select base key at? => glossary.select (expr file base) key (glossary.span file at?)
  | .field base name type at? =>
    .selector (expr file base) name none (glossary.typeOf type) (glossary.span file at?)
  | .call callee args type at? =>
    glossary.call (expr file callee) (exprs file args) type (glossary.span file at?)
  | .nil at? => .nil .invalid (glossary.span file at?)
  | .literal type at? => .literal (glossary.typeOf type) (glossary.span file at?)
  | .funcLit literal at? =>
    .funcLit (function file false literal)
      (glossary.funcType (literal.signature.results.map fun entry => glossary.type entry.type))
      (glossary.span file at?)
  | .other operands type at? =>
    .other (exprs file operands) (glossary.typeOf type) (glossary.span file at?)

def exprs (file : Option FileId) : List Expr → List ExprTree
  | [] => []
  | first :: rest => expr file first :: exprs file rest

def tag (file : Option FileId) : Option Expr → Option ExprTree
  | none => none
  | some tag => some (expr file tag)

def stmt (file : Option FileId) : Stmt → StmtTree
  | .define targets values at? =>
    .assign .define (exprs file targets) (exprs file values) (glossary.span file at?)
  | .assign targets values at? =>
    .assign .assign (exprs file targets) (exprs file values) (glossary.span file at?)
  | .var names values at? =>
    .varDecl (exprs file names) (exprs file values) (glossary.span file at?)
  | .ret results at? => .ret (exprs file results) (glossary.span file at?)
  | .expr value at? => .expr (expr file value) (glossary.span file at?)
  | .block body at? => .block (stmts file body) (glossary.span file at?)
  | .cond init test body otherwise at? =>
    .cond (option file init) (expr file test) (stmts file body) (option file otherwise)
      (glossary.span file at?)
  | .loop init body at? => .loop (option file init) (stmts file body) (glossary.span file at?)
  | .switch init value bodies at? =>
    .switch (option file init) (tag file value) (cases file bodies) (glossary.span file at?)

def stmts (file : Option FileId) : List Stmt → List StmtTree
  | [] => []
  | first :: rest => stmt file first :: stmts file rest

def option (file : Option FileId) : Option Stmt → Option StmtTree
  | none => none
  | some part => some (stmt file part)

def cases (file : Option FileId) : List (List Stmt) → List StmtTree
  | [] => []
  | body :: rest => .block (stmts file body) .dummy :: cases file rest

def body (file : Option FileId) : Option (List Stmt) → Option (List StmtTree)
  | none => none
  | some body => some (stmts file body)

/-- The tree of a declared function or a literal; only a declared one has a symbol. -/
def function (file : Option FileId) (declared : Bool) : Function → FunctionTree
  | .mk signature inner =>
    glossary.withBody file declared signature
      (body (glossary.fileWithin file signature.file) inner)

end

theorem results_function (file : Option FileId) (declared : Bool) (literal : Function) :
    (glossary.function file declared literal).results =
      glossary.results literal.signature.results := by
  cases literal with
  | mk signature inner =>
      rw [function]
      rfl

/-! ### Units -/

def unitVar (file : Option FileId) (entry : VarEntry) : Variable where
  name := entry.name.getD entry.id
  kind := lowerVarKind entry.kind
  type := glossary.type entry.type
  span := glossary.span file entry.at?

/-- The file in force in a unit: the first of its files that is known. -/
def unitFile (entry : UnitEntry) : Option FileId :=
  (entry.files.filterMap glossary.file?).head?

def unitTrees (entry : UnitEntry) : List FunctionTree × List StmtTree :=
  (entry.functions.map (glossary.function (glossary.unitFile entry) true),
    glossary.stmts (glossary.unitFile entry) entry.globals)

end Glossary

end ErrorWrapping.Dump
