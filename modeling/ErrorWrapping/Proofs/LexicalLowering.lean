import ErrorWrapping.Dump.Lower

/-
Lowering at a given place.

While a unit is lowered, the file in force and the parent of literals are changed on the way and
put back by hand. Here the same trees are lowered with both given from outside, so that what
happens inside a function cannot matter elsewhere. Lowering a unit comes to the same: whatever is
lowered, other than a function itself, leaves the place as it found it.
-/

namespace ErrorWrapping.Dump

/-! ### Trees at a place -/

/-- The file in force inside a function. -/
def fileWithin (tables : Tables) (place : Place) : Option String → LowerM (Option FileId)
  | none => pure place.file
  | some path =>
    match tables.fileIds[path]? with
    | some file => pure (some file)
    | none => do
      warn (.unknownFunctionFile tables.unit path)
      return place.file

/-- Adds the function itself, without body, and gives the place of its body. -/
def lowerSignature (tables : Tables) (place : Place) (declared : Bool) (signature : Signature) :
    LowerM (FuncId × Place) := do
  let file ← fileWithin tables place signature.file
  let symbol ← if declared then
      findSymbol tables (Symbol.keyOf tables.unit signature.receiver signature.name)
    else pure none
  let params ← findVars tables signature.params
  let results ← lowerResults tables signature.results
  let span := spanOf tables { place with file } signature.at?
  let id ← build (·.function
    { name := signature.name, symbol, parent := place.parent, params, results, body := none, span })
  return (id, ⟨file, some id⟩)

mutual

def lowerExpr (tables : Tables) (place : Place) : Expr → LowerM ExprId
  | .var id at? => do
    let span := spanOf tables place at?
    match ← findVar tables id with
    | some var => build (·.varRef var span)
    | none => build (·.ident id .unresolved .invalid span)
  | .blank at? => build (·.ident "_" .unresolved .invalid (spanOf tables place at?))
  | .func key at? => do
    let span := spanOf tables place at?
    match ← findSymbol tables key with
    | some symbol => build (·.funcRef tables.symbols symbol span)
    | none => build (·.ident key .unresolved .invalid span)
  | .package path at? => build (·.package path (spanOf tables place at?))
  | .select base key at? => do
    let base ← lowerExpr tables place base
    let span := spanOf tables place at?
    match ← findSymbol tables key with
    | some symbol => build (·.select tables.symbols base symbol span)
    | none => build (·.field base (lastSegment key) .invalid span)
  | .field base name type at? => do
    let base ← lowerExpr tables place base
    let type ← lowerType? tables type
    build (·.field base name type (spanOf tables place at?))
  | .call callee args type at? => do
    let callee ← lowerExpr tables place callee
    let args ← lowerExprs tables place args
    let span := spanOf tables place at?
    match type with
    | some type =>
      let type ← lowerType tables type
      build (·.callTyped callee args type span)
    | none =>
      build fun builder => (builder.call? tables.symbols callee args span).getD
        (builder.callTyped callee args .invalid span)
  | .nil at? => build (·.expr .nil .invalid (spanOf tables place at?))
  | .literal type at? => do
    let type ← lowerType? tables type
    build (·.expr .literal type (spanOf tables place at?))
  | .funcLit function at? => do
    let func ← lowerFunction tables place false function
    let span := spanOf tables place at?
    build fun builder => (builder.funcLit? func span).getD
      (builder.expr (.funcLit func) .invalid span)
  | .other operands type at? => do
    let operands ← lowerExprs tables place operands
    let type ← lowerType? tables type
    build (·.other operands type (spanOf tables place at?))

def lowerExprs (tables : Tables) (place : Place) : List Expr → LowerM (List ExprId)
  | [] => pure []
  | expr :: rest => do
    let id ← lowerExpr tables place expr
    let ids ← lowerExprs tables place rest
    return id :: ids

def lowerTag (tables : Tables) (place : Place) : Option Expr → LowerM (Option ExprId)
  | none => pure none
  | some expr => do return some (← lowerExpr tables place expr)

def lowerStmt (tables : Tables) (place : Place) : Stmt → LowerM StmtId
  | .define targets values at? => do
    let targets ← lowerExprs tables place targets
    let values ← lowerExprs tables place values
    build (·.assign .define targets values (spanOf tables place at?))
  | .assign targets values at? => do
    let targets ← lowerExprs tables place targets
    let values ← lowerExprs tables place values
    build (·.assign .assign targets values (spanOf tables place at?))
  | .var names values at? => do
    let names ← lowerExprs tables place names
    let values ← lowerExprs tables place values
    build (·.varDecl names values (spanOf tables place at?))
  | .ret results at? => do
    let results ← lowerExprs tables place results
    build (·.ret results (spanOf tables place at?))
  | .expr expr at? => do
    let expr ← lowerExpr tables place expr
    build (·.exprStmt expr (spanOf tables place at?))
  | .block body at? => do
    let body ← lowerStmts tables place body
    build (·.block body (spanOf tables place at?))
  | .cond init test body otherwise at? => do
    let init ← lowerOption tables place init
    let test ← lowerExpr tables place test
    let body ← lowerStmts tables place body
    let otherwise ← lowerOption tables place otherwise
    build (·.cond init test body otherwise (spanOf tables place at?))
  | .loop init body at? => do
    let init ← lowerOption tables place init
    let body ← lowerStmts tables place body
    build (·.loop init body (spanOf tables place at?))
  | .switch init tag cases at? => do
    let init ← lowerOption tables place init
    let tag ← lowerTag tables place tag
    let cases ← lowerCases tables place cases
    build (·.switch init tag cases (spanOf tables place at?))

def lowerStmts (tables : Tables) (place : Place) : List Stmt → LowerM (List StmtId)
  | [] => pure []
  | stmt :: rest => do
    let id ← lowerStmt tables place stmt
    let ids ← lowerStmts tables place rest
    return id :: ids

def lowerOption (tables : Tables) (place : Place) : Option Stmt → LowerM (Option StmtId)
  | none => pure none
  | some stmt => do return some (← lowerStmt tables place stmt)

/-- Each case of a switch becomes a block without position. -/
def lowerCases (tables : Tables) (place : Place) : List (List Stmt) → LowerM (List StmtId)
  | [] => pure []
  | body :: rest => do
    let body ← lowerStmts tables place body
    let id ← build (·.block body .dummy)
    let ids ← lowerCases tables place rest
    return id :: ids

def lowerBody (tables : Tables) (place : Place) (id : FuncId) : Option (List Stmt) → LowerM Unit
  | none => pure ()
  | some body => do
    let body ← lowerStmts tables place body
    setBody id body

def lowerFunction (tables : Tables) (place : Place) (declared : Bool) : Function → LowerM FuncId
  | .mk signature body => do
    let (id, inside) ← lowerSignature tables place declared signature
    lowerBody tables inside id body
    return id

end

def lowerDecls (tables : Tables) (place : Place) : List Function → LowerM (List FuncId)
  | [] => pure []
  | function :: rest => do
    let id ← lowerFunction tables place true function
    let ids ← lowerDecls tables place rest
    return id :: ids

/-- The trees of a unit, once its variables are there. -/
def lowerTrees (tables : Tables) (place : Place) (entry : UnitEntry) :
    LowerM (List FuncId × List StmtId) := do
  let decls ← lowerDecls tables place entry.functions
  let globals ← lowerStmts tables place entry.globals
  return (decls, globals)

theorem lowerSignature_eq (tables : Tables) (place : Place) (declared : Bool)
    (signature : Signature) :
    lowerSignature tables place declared signature = (do
      let file ← fileWithin tables place signature.file
      let symbol ← findOwnSymbol tables declared signature
      let params ← findVars tables signature.params
      let results ← lowerResults tables signature.results
      let span := spanOf tables { place with file } signature.at?
      let id ← build (·.function
        { name := signature.name, symbol, parent := place.parent, params, results, body := none,
          span })
      return (id, ⟨file, some id⟩)) := by
  cases declared <;> rfl

/-! ### Moving through places -/

/-- An action that goes from one place to another and otherwise does what is done at the first. -/
def Moves {α : Type} (action : ScopeM α) (here there : Place) (placed : LowerM α) : Prop :=
  action.run here = (·, there) <$> placed

variable {α β : Type} {here middle there : Place} {tables : Tables}

theorem moves_pure (result : α) : Moves (pure result) here here (pure result) := rfl

theorem moves_lift (action : LowerM α) : Moves (liftM action) here here action := rfl

theorem Moves.bind {first : ScopeM α} {next : α → ScopeM β} {placed : LowerM α}
    {placedNext : α → LowerM β} (moves : Moves first here middle placed)
    (later : ∀ result, Moves (next result) middle there (placedNext result)) :
    Moves (first >>= next) here there (placed >>= placedNext) := by
  have same : ∀ result, (next result).run middle = (·, there) <$> placedNext result := later
  rw [Moves, StateT.run_bind, moves, map_bind, bind_map_left]
  simp only [same]

theorem Moves.get {next : Place → ScopeM β} {placed : LowerM β}
    (moves : Moves (next here) here there placed) :
    Moves (get >>= next) here there placed := moves

theorem Moves.spanHere {next : Span → ScopeM β} {placed : LowerM β} {at? : Option Position}
    (moves : Moves (next (spanOf tables here at?)) here there placed) :
    Moves (spanHere tables at? >>= next) here there placed := moves

theorem Moves.setFile {file : Option FileId} {next : Unit → ScopeM β} {placed : LowerM β}
    (moves : Moves (next ()) { here with file } there placed) :
    Moves (setFile file >>= next) here there placed := moves

theorem Moves.setParent {parent : Option FuncId} {next : Unit → ScopeM β} {placed : LowerM β}
    (moves : Moves (next ()) { here with parent } there placed) :
    Moves (setParent parent >>= next) here there placed := moves

theorem moves_setParent (parent : Option FuncId) (action : LowerM Unit) :
    Moves (liftM action >>= fun _ => setParent parent) here { here with parent } action := rfl

/-- The file in force after a function; a file that is unknown does not change it. -/
def fileAfter (tables : Tables) (file : Option FileId) (path : Option String) : Option FileId :=
  (path.bind (tables.fileIds[·]?)).or file

theorem Moves.enterFile {path : Option String} {parent : Option FuncId} {next : Unit → ScopeM β}
    {placedNext : Option FileId → LowerM β}
    (moves : Moves (next ()) { here with file := fileAfter tables here.file path } there
      (placedNext (fileAfter tables here.file path))) :
    Moves (enterFile tables path >>= next) here there
      (fileWithin tables ⟨here.file, parent⟩ path >>= placedNext) := by
  cases path with
  | none => exact moves
  | some path =>
      simp only [Dump.enterFile, fileWithin]
      cases found : tables.fileIds[path]? with
      | none =>
          simp only [fileAfter, Option.bind_some, found, Option.none_or] at moves
          exact (moves_lift (warn _)).bind fun _ => moves
      | some file =>
          simp only [fileAfter, Option.bind_some, found, Option.some_or] at moves
          exact moves

/-! ### Trees -/

mutual

theorem moves_emitExpr (tables : Tables) (expr : Expr) (place : Place) :
    Moves (emitExpr tables expr) place place (lowerExpr tables place expr) := by
  cases expr with
  | var id at? =>
      unfold emitExpr lowerExpr
      refine .spanHere ((moves_lift _).bind fun found => ?_)
      cases found <;> exact moves_lift _
  | blank at? =>
      unfold emitExpr lowerExpr
      exact .spanHere (moves_lift _)
  | func key at? =>
      unfold emitExpr lowerExpr
      refine .spanHere ((moves_lift _).bind fun found => ?_)
      cases found <;> exact moves_lift _
  | package path at? =>
      unfold emitExpr lowerExpr
      exact .spanHere (moves_lift _)
  | select base key at? =>
      unfold emitExpr lowerExpr
      refine (moves_emitExpr tables base place).bind fun base => .spanHere ?_
      refine (moves_lift _).bind fun found => ?_
      cases found <;> exact moves_lift _
  | field base name type at? =>
      unfold emitExpr lowerExpr
      refine (moves_emitExpr tables base place).bind fun base => ?_
      exact (moves_lift _).bind fun type => .spanHere (moves_lift _)
  | call callee args type at? =>
      unfold emitExpr lowerExpr
      refine (moves_emitExpr tables callee place).bind fun callee => ?_
      refine (moves_emitExprs tables args place).bind fun args => .spanHere ?_
      cases type with
      | none => exact moves_lift _
      | some type => exact (moves_lift _).bind fun type => moves_lift _
  | nil at? =>
      unfold emitExpr lowerExpr
      exact .spanHere (moves_lift _)
  | literal type at? =>
      unfold emitExpr lowerExpr
      exact (moves_lift _).bind fun type => .spanHere (moves_lift _)
  | funcLit function at? =>
      unfold emitExpr lowerExpr
      refine .spanHere (.get ?_)
      refine (moves_emitFunction tables place.parent false function place).bind fun func => ?_
      exact .setFile (moves_lift _)
  | other operands type at? =>
      unfold emitExpr lowerExpr
      refine (moves_emitExprs tables operands place).bind fun operands => ?_
      exact (moves_lift _).bind fun type => .spanHere (moves_lift _)

theorem moves_emitExprs (tables : Tables) (exprs : List Expr) (place : Place) :
    Moves (emitExprs tables exprs) place place (lowerExprs tables place exprs) := by
  cases exprs with
  | nil =>
      unfold emitExprs lowerExprs
      exact moves_pure _
  | cons expr rest =>
      unfold emitExprs lowerExprs
      refine (moves_emitExpr tables expr place).bind fun id => ?_
      exact (moves_emitExprs tables rest place).bind fun ids => moves_pure _

theorem moves_emitTag (tables : Tables) (tag : Option Expr) (place : Place) :
    Moves (emitTag tables tag) place place (lowerTag tables place tag) := by
  cases tag with
  | none =>
      unfold emitTag lowerTag
      exact moves_pure _
  | some expr =>
      unfold emitTag lowerTag
      exact (moves_emitExpr tables expr place).bind fun id => moves_pure _

theorem moves_emitStmt (tables : Tables) (stmt : Stmt) (place : Place) :
    Moves (emitStmt tables stmt) place place (lowerStmt tables place stmt) := by
  cases stmt with
  | define targets values at? =>
      unfold emitStmt lowerStmt
      refine (moves_emitExprs tables targets place).bind fun targets => ?_
      exact (moves_emitExprs tables values place).bind fun values => .spanHere (moves_lift _)
  | assign targets values at? =>
      unfold emitStmt lowerStmt
      refine (moves_emitExprs tables targets place).bind fun targets => ?_
      exact (moves_emitExprs tables values place).bind fun values => .spanHere (moves_lift _)
  | var names values at? =>
      unfold emitStmt lowerStmt
      refine (moves_emitExprs tables names place).bind fun names => ?_
      exact (moves_emitExprs tables values place).bind fun values => .spanHere (moves_lift _)
  | ret results at? =>
      unfold emitStmt lowerStmt
      exact (moves_emitExprs tables results place).bind fun results => .spanHere (moves_lift _)
  | expr expr at? =>
      unfold emitStmt lowerStmt
      exact (moves_emitExpr tables expr place).bind fun expr => .spanHere (moves_lift _)
  | block body at? =>
      unfold emitStmt lowerStmt
      exact (moves_emitStmts tables body place).bind fun body => .spanHere (moves_lift _)
  | cond init test body otherwise at? =>
      unfold emitStmt lowerStmt
      refine (moves_emitOption tables init place).bind fun init => ?_
      refine (moves_emitExpr tables test place).bind fun test => ?_
      refine (moves_emitStmts tables body place).bind fun body => ?_
      exact (moves_emitOption tables otherwise place).bind fun otherwise =>
        .spanHere (moves_lift _)
  | loop init body at? =>
      unfold emitStmt lowerStmt
      refine (moves_emitOption tables init place).bind fun init => ?_
      exact (moves_emitStmts tables body place).bind fun body => .spanHere (moves_lift _)
  | switch init tag cases at? =>
      unfold emitStmt lowerStmt
      refine (moves_emitOption tables init place).bind fun init => ?_
      refine (moves_emitTag tables tag place).bind fun tag => ?_
      exact (moves_emitCases tables cases place).bind fun cases => .spanHere (moves_lift _)

theorem moves_emitStmts (tables : Tables) (stmts : List Stmt) (place : Place) :
    Moves (emitStmts tables stmts) place place (lowerStmts tables place stmts) := by
  cases stmts with
  | nil =>
      unfold emitStmts lowerStmts
      exact moves_pure _
  | cons stmt rest =>
      unfold emitStmts lowerStmts
      refine (moves_emitStmt tables stmt place).bind fun id => ?_
      exact (moves_emitStmts tables rest place).bind fun ids => moves_pure _

theorem moves_emitOption (tables : Tables) (stmt : Option Stmt) (place : Place) :
    Moves (emitOption tables stmt) place place (lowerOption tables place stmt) := by
  cases stmt with
  | none =>
      unfold emitOption lowerOption
      exact moves_pure _
  | some stmt =>
      unfold emitOption lowerOption
      exact (moves_emitStmt tables stmt place).bind fun id => moves_pure _

theorem moves_emitCases (tables : Tables) (cases : List (List Stmt)) (place : Place) :
    Moves (emitCases tables cases) place place (lowerCases tables place cases) := by
  cases cases with
  | nil =>
      unfold emitCases lowerCases
      exact moves_pure _
  | cons body rest =>
      unfold emitCases lowerCases
      refine (moves_emitStmts tables body place).bind fun body => ?_
      refine (moves_lift _).bind fun id => ?_
      exact (moves_emitCases tables rest place).bind fun ids => moves_pure _

theorem moves_emitBody (tables : Tables) (id : FuncId) (body : Option (List Stmt))
    (place : Place) :
    Moves (emitBody tables id body) place place
      (lowerBody tables { place with parent := some id } id body) := by
  cases body with
  | none =>
      unfold emitBody lowerBody
      exact moves_pure _
  | some body =>
      unfold emitBody lowerBody
      refine .get (.setParent ?_)
      refine (moves_emitStmts tables body { place with parent := some id }).bind fun body => ?_
      exact moves_setParent place.parent (setBody id body)

/-- A function leaves its own file in force, and the parent as it was. -/
theorem moves_emitFunction (tables : Tables) (parent : Option FuncId) (declared : Bool)
    (function : Function) (place : Place) :
    Moves (emitFunction tables parent declared function) place
      { place with file := fileAfter tables place.file function.signature.file }
      (lowerFunction tables ⟨place.file, parent⟩ declared function) := by
  cases function with
  | mk signature body =>
      unfold emitFunction lowerFunction
      simp only [lowerSignature_eq, bind_assoc, pure_bind]
      refine .enterFile ?_
      refine (moves_lift _).bind fun symbol => ?_
      refine (moves_lift _).bind fun params => ?_
      refine (moves_lift _).bind fun results => .spanHere ?_
      refine (moves_lift _).bind fun id => ?_
      exact (moves_emitBody tables id body _).bind fun _ => moves_pure _

end

/-! ### Units -/

theorem moves_emitDecls (tables : Tables) (functions : List Function) (place : Place)
    (outside : place.parent = none) :
    Moves (emitDecls tables place.file functions) place place
      (lowerDecls tables place functions) := by
  obtain ⟨file, parent⟩ := place
  cases outside
  induction functions with
  | nil => exact moves_pure _
  | cons function rest ih =>
      unfold emitDecls lowerDecls
      refine (moves_emitFunction tables none true function ⟨file, none⟩).bind fun id => ?_
      exact .setFile (ih.bind fun ids => moves_pure _)

theorem run_emitUnit (tables : Tables) (unit : UnitEntry) (file : Option FileId) :
    (emitUnit tables unit).run ⟨file, none⟩ =
      (·, ⟨file, none⟩) <$> lowerTrees tables ⟨file, none⟩ unit := by
  have moves : Moves (emitUnit tables unit) ⟨file, none⟩ ⟨file, none⟩
      (lowerTrees tables ⟨file, none⟩ unit) := by
    refine .get ((moves_emitDecls tables unit.functions ⟨file, none⟩ rfl).bind fun decls => ?_)
    exact (moves_emitStmts tables unit.globals ⟨file, none⟩).bind fun globals => moves_pure _
  exact moves

/-- A unit is lowered as if the file in force and the parent of each of its trees were given. -/
theorem lowerUnit_eq (tables : Tables) (id : UnitId) (unit : UnitEntry) :
    lowerUnit tables id unit = (do
      let files ← unitFiles tables.fileIds unit.path unit.files
      let place : Place := ⟨files.head?, none⟩
      let tables := { tables with unit := unit.path, varIds := ∅ }
      let varIds ← lowerVars tables place unit.vars
      let tables := { tables with varIds }
      let decls ← lowerDecls tables place unit.functions
      let globals ← lowerStmts tables place unit.globals
      let header : Package := { id, path := unit.path }
      let header := unit.imports.foldl (·.addImport ·) header
      return { header with files, arena := (← get).arena, decls, globals }) := by
  simp only [lowerUnit, run_emitUnit, bind_map_left, lowerTrees, bind_assoc, pure_bind]

end ErrorWrapping.Dump
