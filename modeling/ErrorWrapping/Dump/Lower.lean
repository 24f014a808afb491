import ErrorWrapping.Dump.Decode
import ErrorWrapping.Dump.TypeNames
import ErrorWrapping.Program
import ErrorWrapping.Tree.Build

/-
From dumps to programs.

Files, symbols and units become tables, in that order; a declared function without a symbol
entry gets a symbol of its own. Every expression, statement and function of a unit becomes one
node, children before parents. A reference that names nothing becomes an unresolved identifier,
an invalid type or a plain field, with a warning. A dump is refused only when a unit path or a
variable identifier of a unit occurs twice.
-/

namespace ErrorWrapping.Dump

inductive LoadError where
  | invalid
  | duplicateUnit (path : String)
  | duplicateVariable (id unit : String)
  deriving DecidableEq

def LoadError.message : LoadError → String
  | .invalid => "invalid dump: the text is not a dump"
  | .duplicateUnit path => "malformed dump: unit `" ++ path ++ "` appears more than once"
  | .duplicateVariable id unit =>
    "malformed dump: variable id `" ++ id ++ "` declared twice in unit `" ++ unit ++ "`"

/-! ### Refused dumps -/

/-- The first text that occurs for a second time. -/
def firstRepeat? (seen : List String) : List String → Option String
  | [] => none
  | text :: rest => if text ∈ seen then some text else firstRepeat? (text :: seen) rest

def fault? (seen : List String) : List UnitEntry → Option LoadError
  | [] => none
  | unit :: rest =>
    if unit.path ∈ seen then some (.duplicateUnit unit.path)
    else
      match firstRepeat? [] (unit.vars.map (·.id)) with
      | some id => some (.duplicateVariable id unit.path)
      | none => fault? (unit.path :: seen) rest

/-! ### Files and symbols -/

/-- The files of a dump, and each file by path; the last file of a path counts. -/
def lowerFiles (files : List FileEntry) : FileSet × Std.HashMap String FileId :=
  files.foldl (fun (set, ids) file =>
    let (id, set) := set.add file.path file.content
    (set, ids.insert file.path id)) (.empty, ∅)

structure SymbolNames where
  symbols : SymbolTable
  ids : Std.HashMap String SymbolId
  names : TypeNames

def resolveAll (decls : List TypeDecl) (spellings : List String) (names : TypeNames) :
    List TypeId × TypeNames :=
  match spellings with
  | [] => ([], names)
  | spelling :: rest =>
    let (id, names) := resolve decls [] spelling names
    let (ids, names) := resolveAll decls rest names
    (id :: ids, names)

def SymbolNames.register (decls : List TypeDecl) (state : SymbolNames) (entry : SymbolEntry) :
    SymbolNames :=
  let (results, names) := resolveAll decls entry.results state.names
  let (id, symbols) := state.symbols.add
    ⟨entry.package, entry.name, entry.receiver, entry.signature, results⟩
  let key := Symbol.keyOf entry.package entry.receiver entry.name
  { symbols, names, ids := state.ids.insert key id }

/-- A symbol entry; a later entry of the same key takes its place. -/
def SymbolNames.addEntry (decls : List TypeDecl) (state : SymbolNames) (entry : SymbolEntry) :
    SymbolNames :=
  let known := state.ids.contains (Symbol.keyOf entry.package entry.receiver entry.name)
  let state := state.register decls entry
  if known then
    { state with names := state.names.warn (.duplicateSymbol entry.package entry.name) }
  else state

def synthesizedSignature (package : String) (function : Signature) : String :=
  let head := match function.receiver with
    | some receiver => "func (" ++ package ++ "." ++ receiver ++ ")." ++ function.name
    | none => "func " ++ package ++ "." ++ function.name
  match function.results.map (·.type) with
  | [] => head ++ "()"
  | [single] => head ++ "() " ++ single
  | many => head ++ "() (" ++ ", ".intercalate many ++ ")"

/-- A declared function gets a symbol unless its key has one. -/
def SymbolNames.addDeclared (decls : List TypeDecl) (package : String) (state : SymbolNames)
    (function : Signature) : SymbolNames :=
  if state.ids.contains (Symbol.keyOf package function.receiver function.name) then state
  else state.register decls
    { package
      name := function.name
      receiver := function.receiver
      signature := function.signature.getD (synthesizedSignature package function)
      results := function.results.map (·.type) }

def SymbolNames.addUnit (decls : List TypeDecl) (state : SymbolNames) (unit : UnitEntry) :
    SymbolNames :=
  (unit.functions.map (·.signature)).foldl (·.addDeclared decls unit.path ·) state

/-- The symbols of a dump: its entries first, then the declared functions unit by unit. -/
def lowerSymbols (dump : Dump) : SymbolNames :=
  let entries := dump.symbols.foldl (·.addEntry dump.types ·) ⟨.empty, ∅, .initial⟩
  dump.units.foldl (·.addUnit dump.types ·) entries

/-! ### Trees -/

structure Tables where
  decls : List TypeDecl
  files : FileSet
  fileIds : Std.HashMap String FileId
  symbols : SymbolTable
  symbolIds : Std.HashMap String SymbolId
  unit : String
  varIds : Std.HashMap String VarId

/-- The file that positions refer to, and the function whose body is being lowered. -/
structure Place where
  file : Option FileId
  parent : Option FuncId

structure Lowering where
  names : TypeNames
  arena : Arena
  warnings : List Warning

abbrev LowerM := StateM Lowering

def warn (warning : Warning) : LowerM Unit :=
  modify fun state => { state with warnings := warning :: state.warnings }

def build {α : Type} (step : TreeBuilder → α × TreeBuilder) : LowerM α :=
  modifyGet fun state =>
    let (result, builder) := step ⟨state.names.types, state.arena⟩
    (result, { state with
      names := { state.names with types := builder.types }
      arena := builder.arena })

def lowerType (tables : Tables) (spelling : String) : LowerM TypeId :=
  modifyGet fun state =>
    let (id, names) := resolve tables.decls [] spelling state.names
    (id, { state with names })

def lowerType? (tables : Tables) : Option String → LowerM TypeId
  | none => pure .invalid
  | some spelling => lowerType tables spelling

/-- The span of a position in the file in force; the dummy span when either is missing. -/
def spanOf (tables : Tables) (place : Place) (position : Option Position) : Span :=
  match place.file, position with
  | some file, some position => tables.files.spanAt file position.line position.column
  | _, _ => .dummy

def findSymbol (tables : Tables) (key : String) : LowerM (Option SymbolId) := do
  match tables.symbolIds[key]? with
  | some id => return some id
  | none =>
    warn (.unknownSymbol tables.unit key)
    return none

def findVar (tables : Tables) (id : String) : LowerM (Option VarId) := do
  match tables.varIds[id]? with
  | some var => return some var
  | none =>
    warn (.unknownVariable tables.unit id)
    return none

/-- The variables of a list of identifiers, without those that the unit does not declare. -/
def findVars (tables : Tables) : List String → LowerM (List VarId)
  | [] => pure []
  | id :: rest => do
    let var ← findVar tables id
    let vars ← findVars tables rest
    return var.toList ++ vars

def lowerResults (tables : Tables) : List ResultEntry → LowerM (List ResultSlot)
  | [] => pure []
  | entry :: rest => do
    let type ← lowerType tables entry.type
    let var ← match entry.var with
      | none => pure none
      | some id => findVar tables id
    let slots ← lowerResults tables rest
    return ⟨type, var⟩ :: slots

def lastSegment (key : String) : String :=
  String.ofList ((key.toList.reverse.takeWhile (· != '.')).reverse)

def setBody (id : FuncId) (body : List StmtId) : LowerM Unit :=
  build fun builder => ((), (builder.setBody? id body).getD builder)

/-! ### Scopes

Below a function, positions refer to its file and literals have it as their parent. Both are kept
in one place that every function changes and that whoever lowers the function puts back.
-/

abbrev ScopeM := StateT Place LowerM

def spanHere (tables : Tables) (position : Option Position) : ScopeM Span := do
  return spanOf tables (← get) position

def setFile (file : Option FileId) : ScopeM Unit :=
  modify ({ · with file })

def setParent (parent : Option FuncId) : ScopeM Unit :=
  modify ({ · with parent })

def enterFile (tables : Tables) : Option String → ScopeM Unit
  | none => pure ()
  | some path =>
    match tables.fileIds[path]? with
    | some file => setFile (some file)
    | none => warn (.unknownFunctionFile tables.unit path)

/-- The symbol of a function; only a declared one has any. -/
def findOwnSymbol (tables : Tables) (declared : Bool) (signature : Signature) :
    LowerM (Option SymbolId) :=
  if declared then findSymbol tables (Symbol.keyOf tables.unit signature.receiver signature.name)
  else pure none

mutual

def emitExpr (tables : Tables) : Expr → ScopeM ExprId
  | .var id at? => do
    let span ← spanHere tables at?
    match ← findVar tables id with
    | some var => build (·.varRef var span)
    | none => build (·.ident id .unresolved .invalid span)
  | .blank at? => do
    let span ← spanHere tables at?
    build (·.ident "_" .unresolved .invalid span)
  | .func key at? => do
    let span ← spanHere tables at?
    match ← findSymbol tables key with
    | some symbol => build (·.funcRef tables.symbols symbol span)
    | none => build (·.ident key .unresolved .invalid span)
  | .package path at? => do
    let span ← spanHere tables at?
    build (·.package path span)
  | .select base key at? => do
    let base ← emitExpr tables base
    let span ← spanHere tables at?
    match ← findSymbol tables key with
    | some symbol => build (·.select tables.symbols base symbol span)
    | none => build (·.field base (lastSegment key) .invalid span)
  | .field base name type at? => do
    let base ← emitExpr tables base
    let type ← lowerType? tables type
    let span ← spanHere tables at?
    build (·.field base name type span)
  | .call callee args type at? => do
    let callee ← emitExpr tables callee
    let args ← emitExprs tables args
    let span ← spanHere tables at?
    match type with
    | some type =>
      let type ← lowerType tables type
      build (·.callTyped callee args type span)
    | none =>
      build fun builder => (builder.call? tables.symbols callee args span).getD
        (builder.callTyped callee args .invalid span)
  | .nil at? => do
    let span ← spanHere tables at?
    build (·.expr .nil .invalid span)
  | .literal type at? => do
    let type ← lowerType? tables type
    let span ← spanHere tables at?
    build (·.expr .literal type span)
  | .funcLit function at? => do
    let span ← spanHere tables at?
    let outside ← get
    let func ← emitFunction tables outside.parent false function
    setFile outside.file
    build fun builder => (builder.funcLit? func span).getD
      (builder.expr (.funcLit func) .invalid span)
  | .other operands type at? => do
    let operands ← emitExprs tables operands
    let type ← lowerType? tables type
    let span ← spanHere tables at?
    build (·.other operands type span)

def emitExprs (tables : Tables) : List Expr → ScopeM (List ExprId)
  | [] => pure []
  | expr :: rest => do
    let id ← emitExpr tables expr
    let ids ← emitExprs tables rest
    return id :: ids

def emitTag (tables : Tables) : Option Expr → ScopeM (Option ExprId)
  | none => pure none
  | some expr => do
    let id ← emitExpr tables expr
    return some id

def emitStmt (tables : Tables) : Stmt → ScopeM StmtId
  | .define targets values at? => do
    let targets ← emitExprs tables targets
    let values ← emitExprs tables values
    let span ← spanHere tables at?
    build (·.assign .define targets values span)
  | .assign targets values at? => do
    let targets ← emitExprs tables targets
    let values ← emitExprs tables values
    let span ← spanHere tables at?
    build (·.assign .assign targets values span)
  | .var names values at? => do
    let names ← emitExprs tables names
    let values ← emitExprs tables values
    let span ← spanHere tables at?
    build (·.varDecl names values span)
  | .ret results at? => do
    let results ← emitExprs tables results
    let span ← spanHere tables at?
    build (·.ret results span)
  | .expr expr at? => do
    let expr ← emitExpr tables expr
    let span ← spanHere tables at?
    build (·.exprStmt expr span)
  | .block body at? => do
    let body ← emitStmts tables body
    let span ← spanHere tables at?
    build (·.block body span)
  | .cond init test body otherwise at? => do
    let init ← emitOption tables init
    let test ← emitExpr tables test
    let body ← emitStmts tables body
    let otherwise ← emitOption tables otherwise
    let span ← spanHere tables at?
    build (·.cond init test body otherwise span)
  | .loop init body at? => do
    let init ← emitOption tables init
    let body ← emitStmts tables body
    let span ← spanHere tables at?
    build (·.loop init body span)
  | .switch init tag cases at? => do
    let init ← emitOption tables init
    let tag ← emitTag tables tag
    let cases ← emitCases tables cases
    let span ← spanHere tables at?
    build (·.switch init tag cases span)

def emitStmts (tables : Tables) : List Stmt → ScopeM (List StmtId)
  | [] => pure []
  | stmt :: rest => do
    let id ← emitStmt tables stmt
    let ids ← emitStmts tables rest
    return id :: ids

def emitOption (tables : Tables) : Option Stmt → ScopeM (Option StmtId)
  | none => pure none
  | some stmt => do
    let id ← emitStmt tables stmt
    return some id

/-- Each case of a switch becomes a block without position. -/
def emitCases (tables : Tables) : List (List Stmt) → ScopeM (List StmtId)
  | [] => pure []
  | body :: rest => do
    let body ← emitStmts tables body
    let id ← build (·.block body .dummy)
    let ids ← emitCases tables rest
    return id :: ids

def emitBody (tables : Tables) (id : FuncId) : Option (List Stmt) → ScopeM Unit
  | none => pure ()
  | some body => do
    let outside ← get
    setParent (some id)
    let body ← emitStmts tables body
    setBody id body
    setParent outside.parent

/-- A function with its body. The file in force afterwards is still that of the function. -/
def emitFunction (tables : Tables) (parent : Option FuncId) (declared : Bool) :
    Function → ScopeM FuncId
  | .mk signature body => do
    enterFile tables signature.file
    let symbol ← findOwnSymbol tables declared signature
    let params ← findVars tables signature.params
    let results ← lowerResults tables signature.results
    let span ← spanHere tables signature.at?
    let id ← build (·.function
      { name := signature.name, symbol, parent, params, results, body := none, span })
    emitBody tables id body
    return id

end

/-- The declared functions of a unit, after each of which the file of the unit is in force. -/
def emitDecls (tables : Tables) (file : Option FileId) : List Function → ScopeM (List FuncId)
  | [] => pure []
  | function :: rest => do
    let id ← emitFunction tables none true function
    setFile file
    let ids ← emitDecls tables file rest
    return id :: ids

def emitUnit (tables : Tables) (unit : UnitEntry) : ScopeM (List FuncId × List StmtId) := do
  let outside ← get
  let decls ← emitDecls tables outside.file unit.functions
  let globals ← emitStmts tables unit.globals
  return (decls, globals)

/-! ### Units -/

def unitFiles (fileIds : Std.HashMap String FileId) (unit : String) :
    List String → LowerM (List FileId)
  | [] => pure []
  | path :: rest => do
    match fileIds[path]? with
    | some file => return file :: (← unitFiles fileIds unit rest)
    | none =>
      warn (.unknownUnitFile unit path)
      unitFiles fileIds unit rest

def lowerVarKind : VarKind → ErrorWrapping.VarKind
  | .param => .param
  | .result => .result
  | .local => .local
  | .global => .global

def lowerVars (tables : Tables) (place : Place) : List VarEntry → LowerM (Std.HashMap String VarId)
  | [] => pure tables.varIds
  | entry :: rest => do
    let type ← lowerType tables entry.type
    let id ← build (·.var
      { name := entry.name.getD entry.id
        kind := lowerVarKind entry.kind
        type
        span := spanOf tables place entry.at? })
    lowerVars { tables with varIds := tables.varIds.insert entry.id id } place rest

def lowerUnit (tables : Tables) (id : UnitId) (unit : UnitEntry) : LowerM Package := do
  let files ← unitFiles tables.fileIds unit.path unit.files
  let place : Place := ⟨files.head?, none⟩
  let tables := { tables with unit := unit.path, varIds := ∅ }
  let varIds ← lowerVars tables place unit.vars
  let ((decls, globals), _) ← (emitUnit { tables with varIds } unit).run place
  let header : Package := { id, path := unit.path }
  let header := unit.imports.foldl (·.addImport ·) header
  return { header with files, arena := (← get).arena, decls, globals }

/-- Units one after the other; each has an arena of its own. -/
def lowerUnits (tables : Tables) (program : Program) (names : TypeNames)
    (warnings : List Warning) : List UnitEntry → Program × List Warning
  | [] => ({ program with types := names.types }, names.warnings ++ warnings)
  | unit :: rest =>
    let (package, state) := (lowerUnit tables program.nextUnit unit).run ⟨names, .empty, warnings⟩
    lowerUnits tables (program.addUnit package) state.names state.warnings rest

def toProgram (dump : Dump) : Program × List Warning :=
  let (files, fileIds) := lowerFiles dump.files
  let state := lowerSymbols dump
  let tables : Tables :=
    { decls := dump.types
      files
      fileIds
      symbols := state.symbols
      symbolIds := state.ids
      unit := ""
      varIds := ∅ }
  lowerUnits tables { files, symbols := state.symbols } state.names [] dump.units

def lower (dump : Dump) : Except LoadError (Program × List Warning) :=
  match fault? [] dump.units with
  | some fault => .error fault
  | none => .ok dump.toProgram

def load (text : String) : Except LoadError (Program × List Warning) :=
  match parse? text with
  | none => .error .invalid
  | some dump => lower dump

end ErrorWrapping.Dump
