import ErrorWrapping.Proofs.RenamedTrees

/-
Units lowered twice.

A unit is lowered with two symbol tables, one a renaming of the other, after whatever was lowered
before it in either program. The two runs go in step: they add the same nodes in the same order,
up to the numbers of symbols and types.
-/

namespace ErrorWrapping.Dump

/-- The same tables with other symbols. -/
def Tables.recast (tables : Tables) (symbols : SymbolTable) (ids : Std.HashMap String SymbolId) :
    Tables :=
  { tables with symbols, symbolIds := ids }

/-- Two states of lowering with trees in step. -/
structure Lowering.Renames (rename : SymbolId → SymbolId) (decls : List TypeDecl)
    (symbols others : SymbolTable) (state other : Lowering) : Prop where
  faithful : state.names.Faithful decls
  otherFaithful : other.names.Faithful decls
  symbols : symbols.Renames rename state.names.types other.names.types others
  arena : state.arena.Renames rename state.names.types other.names.types other.arena

/-- How two results compare, given the types at the end of each run. -/
abbrev Comparison (α : Type) := TypeTable → TypeTable → α → α → Prop

def Same {α : Type} : Comparison α := fun _ _ value other => other = value

def Renamed (rename : SymbolId → SymbolId) : Comparison (Option SymbolId) :=
  fun _ _ value other => other = value.map rename

/-- The ends of two runs in step. -/
structure Paired (rename : SymbolId → SymbolId) (decls : List TypeDecl)
    (symbols others : SymbolTable) {α : Type} (compare : Comparison α)
    (result other : α × Lowering) : Prop where
  value : compare result.2.names.types other.2.names.types result.1 other.1
  state : Lowering.Renames rename decls symbols others result.2 other.2

/-- Two actions that go in step. -/
def Lockstep (rename : SymbolId → SymbolId) (decls : List TypeDecl) (symbols others : SymbolTable)
    {α : Type} (compare : Comparison α) (action other : LowerM α) : Prop :=
  ∀ state state', Lowering.Renames rename decls symbols others state state' →
    Paired rename decls symbols others compare (action.run state) (other.run state')

section

variable {α β : Type} {rename : SymbolId → SymbolId} {decls : List TypeDecl}
  {symbols others : SymbolTable} {compare : Comparison α} {after : Comparison β}
  {action other : LowerM α}

theorem lockstep_pure (value : α) :
    Lockstep rename decls symbols others Same (pure value) (pure value) :=
  fun _ _ renames => ⟨rfl, renames⟩

theorem Lockstep.imp {weaker : Comparison α}
    (first : Lockstep rename decls symbols others compare action other)
    (weakens : ∀ left right value value', compare left right value value' →
      weaker left right value value') :
    Lockstep rename decls symbols others weaker action other := by
  intro state state' renames
  obtain ⟨value, renames⟩ := first state state' renames
  exact ⟨weakens _ _ _ _ value, renames⟩

/-- What follows starts from the states in which the results compare. -/
theorem Lockstep.bind_of {next next' : α → LowerM β}
    (first : Lockstep rename decls symbols others compare action other)
    (second : ∀ value value' state state',
      Lowering.Renames rename decls symbols others state state' →
      compare state.names.types state'.names.types value value' →
      Paired rename decls symbols others after ((next value).run state)
        ((next' value').run state')) :
    Lockstep rename decls symbols others after (action >>= next) (other >>= next') := by
  intro state state' renames
  obtain ⟨value, renames⟩ := first state state' renames
  exact second _ _ _ _ renames value

theorem Paired.bind {next next' : α → LowerM β} {state state' : Lowering}
    (first : Paired rename decls symbols others Same (action.run state) (other.run state'))
    (second : ∀ value, Lockstep rename decls symbols others after (next value) (next' value)) :
    Paired rename decls symbols others after ((action >>= next).run state)
      ((other >>= next').run state') := by
  have later := second (action.run state).1 _ _ first.state
  change Paired rename decls symbols others after
    ((next (action.run state).1).run (action.run state).2)
    ((next' (other.run state').1).run (other.run state').2)
  rw [first.value]
  exact later

theorem Lockstep.bind {next next' : α → LowerM β}
    (first : Lockstep rename decls symbols others Same action other)
    (second : ∀ value, Lockstep rename decls symbols others after (next value) (next' value)) :
    Lockstep rename decls symbols others after (action >>= next) (other >>= next') :=
  fun state state' renames => (first state state' renames).bind second

theorem lockstep_warn (warning : Warning) :
    Lockstep rename decls symbols others Same (warn warning) (warn warning) :=
  fun _ _ renames =>
    ⟨rfl, ⟨renames.faithful, renames.otherFaithful, renames.symbols, renames.arena⟩⟩

theorem Lowering.Renames.builder {state state' : Lowering}
    (renames : Lowering.Renames rename decls symbols others state state') :
    TreeBuilder.Renames rename symbols others ⟨state.names.types, state.arena⟩
      ⟨state'.names.types, state'.arena⟩ :=
  ⟨renames.faithful.types, renames.otherFaithful.types, renames.symbols, renames.arena⟩

theorem paired_build {step step' : TreeBuilder → α × TreeBuilder} {state state' : Lowering}
    (renames : Lowering.Renames rename decls symbols others state state')
    (steps : TreeBuilder.Steps rename symbols others ⟨state.names.types, state.arena⟩
      ⟨state'.names.types, state'.arena⟩ (step ⟨state.names.types, state.arena⟩)
      (step' ⟨state'.names.types, state'.arena⟩)) :
    Paired rename decls symbols others Same ((build step).run state) ((build step').run state') :=
  ⟨steps.same,
    ⟨renames.faithful.withTypes steps.renames.ordered steps.precedes,
      renames.otherFaithful.withTypes steps.renames.otherOrdered steps.otherPrecedes,
      steps.renames.symbols, steps.renames.arena⟩⟩

theorem lockstep_build {step step' : TreeBuilder → α × TreeBuilder}
    (steps : ∀ builder other, TreeBuilder.Renames rename symbols others builder other →
      TreeBuilder.Steps rename symbols others builder other (step builder) (step' other)) :
    Lockstep rename decls symbols others Same (build step) (build step') :=
  fun _ _ renames => paired_build renames (steps _ _ renames.builder)

end

/-! ### Types and references -/

variable {rename : SymbolId → SymbolId} {tables : Tables} {others : SymbolTable}
  {ids : Std.HashMap String SymbolId}

theorem lockstep_lowerType (spelling : String) :
    Lockstep rename tables.decls tables.symbols others
      (fun left right id other => left.AgreeAll right [id] [other])
      (lowerType tables spelling) (lowerType (tables.recast others ids) spelling) := by
  intro state state' renames
  have first := gives_resolve [] spelling renames.faithful (fun _ impossible => by cases impossible)
  have second :=
    gives_resolve [] spelling renames.otherFaithful (fun _ impossible => by cases impossible)
  have one : state.names.types.Leads (resolve tables.decls [] spelling state.names).2.types :=
    ⟨renames.faithful.types, (precedes_resolve _ _ _ _).types⟩
  have two : state'.names.types.Leads (resolve tables.decls [] spelling state'.names).2.types :=
    ⟨renames.otherFaithful.types, (precedes_resolve _ _ _ _).types⟩
  exact ⟨⟨_, .cons first.spells.answers .nil, .cons second.spells.answers .nil⟩,
    ⟨first.faithful, second.faithful, renames.symbols.mono one two, renames.arena.mono one two⟩⟩

theorem lockstep_lowerType? (spelling : Option String) :
    Lockstep rename tables.decls tables.symbols others TypeTable.Agree
      (lowerType? tables spelling) (lowerType? (tables.recast others ids) spelling) := by
  cases spelling with
  | none =>
      exact fun state state' renames => ⟨TypeTable.agree_invalid renames.faithful.types
        renames.otherFaithful.types, renames⟩
  | some spelling =>
      exact (lockstep_lowerType spelling).imp fun _ _ _ _ agree => agree.single

theorem lockstep_findSymbol
    (known : ∀ key : String, ids[key]? = (tables.symbolIds[key]?).map rename) (key : String) :
    Lockstep rename tables.decls tables.symbols others (Renamed rename)
      (findSymbol tables key) (findSymbol (tables.recast others ids) key) := by
  intro state state' renames
  have recast : (tables.recast others ids).symbolIds[key]? = (tables.symbolIds[key]?).map rename :=
    known key
  unfold findSymbol
  rw [recast]
  cases tables.symbolIds[key]? with
  | none => exact ⟨rfl, (lockstep_warn _ state state' renames).state⟩
  | some id => exact ⟨rfl, renames⟩

theorem lockstep_findVar (id : String) :
    Lockstep rename tables.decls tables.symbols others Same
      (findVar tables id) (findVar (tables.recast others ids) id) := by
  have recast : (tables.recast others ids).varIds[id]? = tables.varIds[id]? := rfl
  unfold findVar
  rw [recast]
  cases tables.varIds[id]? with
  | none => exact (lockstep_warn _).bind fun _ => lockstep_pure none
  | some var => exact lockstep_pure (some var)

theorem lockstep_findVars (names : List String) :
    Lockstep rename tables.decls tables.symbols others Same
      (findVars tables names) (findVars (tables.recast others ids) names) := by
  induction names with
  | nil => exact lockstep_pure []
  | cons name rest ih =>
      unfold findVars
      refine (lockstep_findVar name).bind fun var => ?_
      exact ih.bind fun vars => lockstep_pure _

theorem lockstep_fileWithin (place : Place) (path : Option String) :
    Lockstep rename tables.decls tables.symbols others Same
      (fileWithin tables place path) (fileWithin (tables.recast others ids) place path) := by
  cases path with
  | none => exact lockstep_pure place.file
  | some path =>
      have recast : (tables.recast others ids).fileIds[path]? = tables.fileIds[path]? := rfl
      unfold fileWithin
      simp only [recast]
      cases tables.fileIds[path]? with
      | none => exact (lockstep_warn _).bind fun _ => lockstep_pure place.file
      | some file => exact lockstep_pure (some file)

theorem precedes_lowerResults (tables : Tables) (entries : List ResultEntry) (state : Lowering) :
    state.names.Precedes ((lowerResults tables entries).run state).2.names := by
  induction entries generalizing state with
  | nil => exact .refl _
  | cons entry rest ih =>
      have first := precedes_resolve tables.decls [] entry.type state.names
      unfold lowerResults
      cases entry.var with
      | none => exact first.trans (ih ⟨_, state.arena, state.warnings⟩)
      | some id =>
          simp only [findVar]
          cases tables.varIds[id]? with
          | none =>
              exact first.trans
                (ih ⟨_, state.arena, .unknownVariable tables.unit id :: state.warnings⟩)
          | some var => exact first.trans (ih ⟨_, state.arena, state.warnings⟩)

/-- The slots of a list of results, compared one by one. -/
theorem lockstep_lowerResults (entries : List ResultEntry) :
    Lockstep rename tables.decls tables.symbols others
      (fun left right slots others => List.Forall₂ (ResultSlot.Renames left right) slots others)
      (lowerResults tables entries) (lowerResults (tables.recast others ids) entries) := by
  induction entries with
  | nil => exact fun _ _ renames => ⟨.nil, renames⟩
  | cons entry rest ih =>
      unfold lowerResults
      refine (lockstep_lowerType entry.type).bind_of fun type type' state state' renames agree => ?_
      have later : ∀ (var : Option VarId) (state state' : Lowering),
          Lowering.Renames rename tables.decls tables.symbols others state state' →
          state.names.types.AgreeAll state'.names.types [type] [type'] →
          Paired rename tables.decls tables.symbols others
            (fun left right slots others =>
              List.Forall₂ (ResultSlot.Renames left right) slots others)
            ((do return (⟨type, var⟩ :: (← lowerResults tables rest) : List ResultSlot)).run state)
            ((do return (⟨type', var⟩ :: (← lowerResults (tables.recast others ids) rest) :
              List ResultSlot)).run state') := by
        intro var state state' renames agree
        obtain ⟨slots, after⟩ := ih state state' renames
        have one : state.names.types.Leads _ :=
          ⟨renames.faithful.types, (precedes_lowerResults tables rest state).types⟩
        have two : state'.names.types.Leads _ := ⟨renames.otherFaithful.types,
          (precedes_lowerResults (tables.recast others ids) rest state').types⟩
        exact ⟨.cons ⟨agree.mono one two, rfl⟩ slots, after⟩
      cases entry.var with
      | none => exact later none state state' renames agree
      | some id =>
          have recast : (tables.recast others ids).varIds[id]? = tables.varIds[id]? := rfl
          simp only [findVar, recast]
          cases tables.varIds[id]? with
          | none =>
              exact later none _ _ (lockstep_warn (.unknownVariable tables.unit id) state state'
                renames).state agree
          | some var => exact later (some var) state state' renames agree

theorem lockstep_lowerSignature
    (known : ∀ key : String, ids[key]? = (tables.symbolIds[key]?).map rename) (place : Place)
    (declared : Bool) (signature : Signature) :
    Lockstep rename tables.decls tables.symbols others Same
      (lowerSignature tables place declared signature)
      (lowerSignature (tables.recast others ids) place declared signature) := by
  unfold lowerSignature
  refine (lockstep_fileWithin place signature.file).bind fun file => ?_
  have later : ∀ symbol, Lockstep rename tables.decls tables.symbols others Same
      (do
        let params ← findVars tables signature.params
        let results ← lowerResults tables signature.results
        let span := spanOf tables { place with file } signature.at?
        let id ← build (·.function
          { name := signature.name, symbol, parent := place.parent, params, results, body := none,
            span })
        return (id, (⟨file, some id⟩ : Place)))
      (do
        let params ← findVars (tables.recast others ids) signature.params
        let results ← lowerResults (tables.recast others ids) signature.results
        let span := spanOf (tables.recast others ids) { place with file } signature.at?
        let id ← build (·.function
          { name := signature.name, symbol := symbol.map rename, parent := place.parent, params,
            results, body := none, span })
        return (id, (⟨file, some id⟩ : Place))) := by
    intro symbol
    refine (lockstep_findVars signature.params).bind fun params => ?_
    refine (lockstep_lowerResults signature.results).bind_of
      fun slots slots' state state' renames same => ?_
    refine Paired.bind (paired_build renames (renames.builder.function ?_)) fun id =>
      lockstep_pure _
    exact ⟨rfl, rfl, rfl, rfl, same, rfl, rfl⟩
  cases declared with
  | false => exact later none
  | true =>
      refine (lockstep_findSymbol known _).bind_of
        fun symbol symbol' state state' renames same => ?_
      cases same
      exact later symbol state state' renames

section

variable (known : ∀ key : String, ids[key]? = (tables.symbolIds[key]?).map rename)

include known

set_option linter.unusedSectionVars false

mutual

-- Each constructor lowers its parts in order and then adds one node above them.

theorem lockstep_lowerExpr (place : Place) (expr : Expr) :
    Lockstep rename tables.decls tables.symbols others Same (lowerExpr tables place expr)
      (lowerExpr (tables.recast others ids) place expr) := by
  cases expr with
  | var id at? =>
      unfold lowerExpr
      refine (lockstep_findVar id).bind fun found => ?_
      cases found with
      | none =>
          exact lockstep_build fun _ _ renames => renames.expr _ rfl renames.agree_invalid
      | some var => exact lockstep_build fun _ _ renames => renames.varRef var _
  | blank at? =>
      unfold lowerExpr
      exact lockstep_build fun _ _ renames => renames.expr _ rfl renames.agree_invalid
  | func key at? =>
      unfold lowerExpr
      refine (lockstep_findSymbol known key).bind_of fun found found' state state' paired same => ?_
      cases same
      cases found with
      | none =>
          exact paired_build paired (paired.builder.expr _ rfl paired.builder.agree_invalid)
      | some symbol => exact paired_build paired (paired.builder.funcRef symbol _)
  | package path at? =>
      unfold lowerExpr
      exact lockstep_build fun _ _ renames => renames.expr _ rfl renames.agree_invalid
  | select base key at? =>
      unfold lowerExpr
      refine (lockstep_lowerExpr place base).bind fun base => ?_
      refine (lockstep_findSymbol known key).bind_of fun found found' state state' paired same => ?_
      cases same
      cases found with
      | none =>
          exact paired_build paired (paired.builder.expr _ rfl paired.builder.agree_invalid)
      | some symbol => exact paired_build paired (paired.builder.select base symbol _)
  | field base name type at? =>
      unfold lowerExpr
      refine (lockstep_lowerExpr place base).bind fun base => ?_
      refine (lockstep_lowerType? type).bind_of fun type type' state state' paired agree => ?_
      exact paired_build paired (paired.builder.expr _ rfl agree)
  | call callee args type at? =>
      unfold lowerExpr
      refine (lockstep_lowerExpr place callee).bind fun callee => ?_
      refine (lockstep_lowerExprs place args).bind fun args => ?_
      cases type with
      | none => exact lockstep_build fun _ _ renames => renames.call callee args _
      | some type =>
          refine (lockstep_lowerType type).bind_of fun type type' state state' paired agree => ?_
          exact paired_build paired (paired.builder.callTyped callee args _ agree.single)
  | nil at? =>
      unfold lowerExpr
      exact lockstep_build fun _ _ renames => renames.expr _ rfl renames.agree_invalid
  | literal type at? =>
      unfold lowerExpr
      refine (lockstep_lowerType? type).bind_of fun type type' state state' paired agree => ?_
      exact paired_build paired (paired.builder.expr _ rfl agree)
  | funcLit function at? =>
      unfold lowerExpr
      refine (lockstep_lowerFunction place false function).bind fun func => ?_
      exact lockstep_build fun _ _ renames => renames.funcLit func _
  | other operands type at? =>
      unfold lowerExpr
      refine (lockstep_lowerExprs place operands).bind fun operands => ?_
      refine (lockstep_lowerType? type).bind_of fun type type' state state' paired agree => ?_
      exact paired_build paired (paired.builder.otherExpr operands _ agree)

theorem lockstep_lowerExprs (place : Place) (exprs : List Expr) :
    Lockstep rename tables.decls tables.symbols others Same (lowerExprs tables place exprs)
      (lowerExprs (tables.recast others ids) place exprs) := by
  cases exprs with
  | nil =>
      unfold lowerExprs
      exact lockstep_pure []
  | cons expr rest =>
      unfold lowerExprs
      refine (lockstep_lowerExpr place expr).bind fun id => ?_
      exact (lockstep_lowerExprs place rest).bind fun ids => lockstep_pure _

theorem lockstep_lowerTag (place : Place) (tag : Option Expr) :
    Lockstep rename tables.decls tables.symbols others Same (lowerTag tables place tag)
      (lowerTag (tables.recast others ids) place tag) := by
  cases tag with
  | none =>
      unfold lowerTag
      exact lockstep_pure none
  | some expr =>
      unfold lowerTag
      exact (lockstep_lowerExpr place expr).bind fun id => lockstep_pure _

theorem lockstep_lowerStmt (place : Place) (stmt : Stmt) :
    Lockstep rename tables.decls tables.symbols others Same (lowerStmt tables place stmt)
      (lowerStmt (tables.recast others ids) place stmt) := by
  cases stmt with
  | define targets values at? =>
      unfold lowerStmt
      refine (lockstep_lowerExprs place targets).bind fun targets => ?_
      refine (lockstep_lowerExprs place values).bind fun values => ?_
      exact lockstep_build fun _ _ renames => renames.stmtOfPairs targets values (.assign .define) _
  | assign targets values at? =>
      unfold lowerStmt
      refine (lockstep_lowerExprs place targets).bind fun targets => ?_
      refine (lockstep_lowerExprs place values).bind fun values => ?_
      exact lockstep_build fun _ _ renames => renames.stmtOfPairs targets values (.assign .assign) _
  | var names values at? =>
      unfold lowerStmt
      refine (lockstep_lowerExprs place names).bind fun names => ?_
      refine (lockstep_lowerExprs place values).bind fun values => ?_
      exact lockstep_build fun _ _ renames => renames.stmtOfPairs names values .varDecl _
  | ret results at? =>
      unfold lowerStmt
      refine (lockstep_lowerExprs place results).bind fun results => ?_
      exact lockstep_build fun _ _ renames => renames.stmtOfExprs results .ret _
  | expr expr at? =>
      unfold lowerStmt
      refine (lockstep_lowerExpr place expr).bind fun expr => ?_
      exact lockstep_build fun _ _ renames => renames.stmt (.expr expr) _
  | block body at? =>
      unfold lowerStmt
      refine (lockstep_lowerStmts place body).bind fun body => ?_
      exact lockstep_build fun _ _ renames => renames.stmtOfStmts body .block _
  | cond init test body otherwise at? =>
      unfold lowerStmt
      refine (lockstep_lowerOption place init).bind fun init => ?_
      refine (lockstep_lowerExpr place test).bind fun test => ?_
      refine (lockstep_lowerStmts place body).bind fun body => ?_
      refine (lockstep_lowerOption place otherwise).bind fun otherwise => ?_
      exact lockstep_build fun _ _ renames =>
        renames.stmtOfStmts body (.cond init test · otherwise) _
  | loop init body at? =>
      unfold lowerStmt
      refine (lockstep_lowerOption place init).bind fun init => ?_
      refine (lockstep_lowerStmts place body).bind fun body => ?_
      exact lockstep_build fun _ _ renames => renames.stmtOfStmts body (.loop init) _
  | switch init tag cases at? =>
      unfold lowerStmt
      refine (lockstep_lowerOption place init).bind fun init => ?_
      refine (lockstep_lowerTag place tag).bind fun tag => ?_
      refine (lockstep_lowerCases place cases).bind fun cases => ?_
      exact lockstep_build fun _ _ renames => renames.stmtOfStmts cases (.switch init tag) _

theorem lockstep_lowerStmts (place : Place) (stmts : List Stmt) :
    Lockstep rename tables.decls tables.symbols others Same (lowerStmts tables place stmts)
      (lowerStmts (tables.recast others ids) place stmts) := by
  cases stmts with
  | nil =>
      unfold lowerStmts
      exact lockstep_pure []
  | cons stmt rest =>
      unfold lowerStmts
      refine (lockstep_lowerStmt place stmt).bind fun id => ?_
      exact (lockstep_lowerStmts place rest).bind fun ids => lockstep_pure _

theorem lockstep_lowerOption (place : Place) (stmt : Option Stmt) :
    Lockstep rename tables.decls tables.symbols others Same (lowerOption tables place stmt)
      (lowerOption (tables.recast others ids) place stmt) := by
  cases stmt with
  | none =>
      unfold lowerOption
      exact lockstep_pure none
  | some stmt =>
      unfold lowerOption
      exact (lockstep_lowerStmt place stmt).bind fun id => lockstep_pure _

theorem lockstep_lowerCases (place : Place) (cases : List (List Stmt)) :
    Lockstep rename tables.decls tables.symbols others Same (lowerCases tables place cases)
      (lowerCases (tables.recast others ids) place cases) := by
  cases cases with
  | nil =>
      unfold lowerCases
      exact lockstep_pure []
  | cons body rest =>
      unfold lowerCases
      refine (lockstep_lowerStmts place body).bind fun body => ?_
      refine (lockstep_build fun _ _ renames => renames.stmtOfStmts body .block _).bind fun id => ?_
      exact (lockstep_lowerCases place rest).bind fun ids => lockstep_pure _

theorem lockstep_lowerBody (place : Place) (id : FuncId) (body : Option (List Stmt)) :
    Lockstep rename tables.decls tables.symbols others Same (lowerBody tables place id body)
      (lowerBody (tables.recast others ids) place id body) := by
  cases body with
  | none =>
      unfold lowerBody
      exact lockstep_pure ()
  | some body =>
      unfold lowerBody
      refine (lockstep_lowerStmts place body).bind fun body => ?_
      exact lockstep_build fun _ _ renames => renames.setBody id body

theorem lockstep_lowerFunction (place : Place) (declared : Bool) (function : Function) :
    Lockstep rename tables.decls tables.symbols others Same
      (lowerFunction tables place declared function)
      (lowerFunction (tables.recast others ids) place declared function) := by
  cases function with
  | mk signature body =>
      unfold lowerFunction
      refine (lockstep_lowerSignature known place declared signature).bind fun made => ?_
      exact (lockstep_lowerBody made.2 made.1 body).bind fun _ => lockstep_pure _

end

theorem lockstep_lowerDecls (place : Place) (functions : List Function) :
    Lockstep rename tables.decls tables.symbols others Same (lowerDecls tables place functions)
      (lowerDecls (tables.recast others ids) place functions) := by
  induction functions with
  | nil => exact lockstep_pure []
  | cons function rest ih =>
      unfold lowerDecls
      refine (lockstep_lowerFunction known place true function).bind fun id => ?_
      exact ih.bind fun ids => lockstep_pure _

end

/-! ### Units -/

theorem lockstep_unitFiles {decls : List TypeDecl} {symbols : SymbolTable}
    (fileIds : Std.HashMap String FileId) (unit : String) (paths : List String) :
    Lockstep rename decls symbols others Same (unitFiles fileIds unit paths)
      (unitFiles fileIds unit paths) := by
  induction paths with
  | nil => exact lockstep_pure []
  | cons path rest ih =>
      unfold unitFiles
      cases fileIds[path]? with
      | none => exact (lockstep_warn _).bind fun _ => ih
      | some file => exact ih.bind fun files => lockstep_pure _

theorem lockstep_lowerVars (place : Place) (entries : List VarEntry) :
    Lockstep rename tables.decls tables.symbols others Same (lowerVars tables place entries)
      (lowerVars (tables.recast others ids) place entries) := by
  induction entries generalizing tables with
  | nil => exact lockstep_pure tables.varIds
  | cons entry rest ih =>
      unfold lowerVars
      refine (lockstep_lowerType entry.type).bind_of fun type type' state state' renames agree => ?_
      refine Paired.bind (paired_build renames (renames.builder.var ?_)) fun id => ?_
      · exact ⟨rfl, rfl, agree.single, rfl⟩
      · exact @ih { tables with varIds := tables.varIds.insert entry.id id }

end ErrorWrapping.Dump

namespace ErrorWrapping

/-- Two lowerings of one unit, up to its own number and those of symbols and types. -/
structure Package.Renames (rename : SymbolId → SymbolId) (left right : TypeTable)
    (unit other : Package) : Prop where
  path : other.path = unit.path
  imports : other.imports = unit.imports
  arena : unit.arena.Renames rename left right other.arena
  decls : other.decls = unit.decls
  globals : other.globals = unit.globals

theorem Package.Renames.mono {rename : SymbolId → SymbolId}
    {left right later laterRight : TypeTable} {unit other : Package}
    (renames : unit.Renames rename left right other) (one : left.Leads later)
    (two : right.Leads laterRight) : unit.Renames rename later laterRight other :=
  { renames with arena := renames.arena.mono one two }

namespace Dump

variable {rename : SymbolId → SymbolId} {tables : Tables} {others : SymbolTable}
  {ids : Std.HashMap String SymbolId}

theorem foldl_addImport {unit other : Package} (imports : List String)
    (path : other.path = unit.path) (same : other.imports = unit.imports) :
    (imports.foldl (·.addImport ·) other).path = (imports.foldl (·.addImport ·) unit).path ∧
      (imports.foldl (·.addImport ·) other).imports =
        (imports.foldl (·.addImport ·) unit).imports := by
  refine List.foldl_rel (r := fun (other unit : Package) =>
    other.path = unit.path ∧ other.imports = unit.imports) ⟨path, same⟩ ?_
  rintro added _ other unit ⟨path, same⟩
  unfold Package.addImport
  rw [same]
  split
  · exact ⟨path, same⟩
  · exact ⟨path, rfl⟩

theorem lockstep_lowerUnit
    (known : ∀ key : String, ids[key]? = (tables.symbolIds[key]?).map rename) (id id' : UnitId)
    (entry : UnitEntry) :
    Lockstep rename tables.decls tables.symbols others (Package.Renames rename)
      (lowerUnit tables id entry) (lowerUnit (tables.recast others ids) id' entry) := by
  rw [lowerUnit_eq, lowerUnit_eq]
  refine (lockstep_unitFiles _ _ _).bind fun files => ?_
  refine (@lockstep_lowerVars rename { tables with unit := entry.path, varIds := ∅ } others ids
    _ _).bind fun varIds => ?_
  refine (@lockstep_lowerDecls rename { tables with unit := entry.path, varIds } others ids known
    _ _).bind fun decls => ?_
  refine (@lockstep_lowerStmts rename { tables with unit := entry.path, varIds } others ids known
    _ _).bind fun globals => ?_
  intro state state' renames
  obtain ⟨path, imports⟩ := @foldl_addImport { id, path := entry.path }
    { id := id', path := entry.path } entry.imports rfl rfl
  exact ⟨⟨path, imports, renames.arena, rfl, rfl⟩, renames⟩

end Dump

end ErrorWrapping
