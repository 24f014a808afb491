import ErrorWrapping.Proofs.Lowering
import ErrorWrapping.Proofs.SettledTypes

/-
Later states.

While a unit is lowered, nodes are added and types are entered at the end of their tables. The one
node that changes is a function that gets its body. So a state leads to every later one: what was
looked up before gives the same answer after, but for functions whose bodies are still to come.
-/

namespace ErrorWrapping

namespace Arena

/-- Nodes stay as they were, but for functions below a number, which may get a body. -/
structure LeadsTo (floor : Nat) (before after : Arena) : Prop where
  exprs : ∀ {id : ExprId} {expr : Expr}, before.expr? id = some expr → after.expr? id = some expr
  stmts : ∀ {id : StmtId} {stmt : Stmt}, before.stmt? id = some stmt → after.stmt? id = some stmt
  functions : ∀ {id : FuncId} {function : Function}, floor ≤ id.index →
    before.function? id = some function → after.function? id = some function
  results : ∀ {id : FuncId} {function : Function}, before.function? id = some function →
    ∃ later, after.function? id = some later ∧ later.results = function.results
  exprLists : ∀ {range : IdRange} {ids : List ExprId},
    before.exprList? range = some ids → after.exprList? range = some ids
  stmtLists : ∀ {range : IdRange} {ids : List StmtId},
    before.stmtList? range = some ids → after.stmtList? range = some ids
  vars : after.vars = before.vars

variable {before after : Arena} {floor : Nat}

theorem Extends.leadsTo (grown : before.Extends after) (vars : after.vars = before.vars) :
    before.LeadsTo floor after where
  exprs := grown.exprs
  stmts := grown.stmts
  functions _ := grown.functions
  results found := ⟨_, grown.functions found, rfl⟩
  exprLists := grown.exprLists
  stmtLists := grown.stmtLists
  vars := vars

theorem LeadsTo.refl (arena : Arena) : arena.LeadsTo floor arena :=
  (Extends.refl arena).leadsTo rfl

theorem LeadsTo.trans {last : Arena} (one : before.LeadsTo floor after)
    (two : after.LeadsTo floor last) : before.LeadsTo floor last where
  exprs found := two.exprs (one.exprs found)
  stmts found := two.stmts (one.stmts found)
  functions above found := two.functions above (one.functions above found)
  results found := by
    obtain ⟨middle, foundMiddle, same⟩ := one.results found
    obtain ⟨later, foundLater, again⟩ := two.results foundMiddle
    exact ⟨later, foundLater, again.trans same⟩
  exprLists found := two.exprLists (one.exprLists found)
  stmtLists found := two.stmtLists (one.stmtLists found)
  vars := two.vars.trans one.vars

theorem LeadsTo.var? (leads : before.LeadsTo floor after) (id : VarId) :
    after.var? id = before.var? id :=
  congrArg (·[id.index]?) leads.vars

theorem LeadsTo.raise {higher : Nat} (leads : before.LeadsTo floor after)
    (above : floor ≤ higher) : before.LeadsTo higher after :=
  { leads with functions := fun bound => leads.functions (Nat.le_trans above bound) }

theorem LeadsTo.extends (leads : before.LeadsTo 0 after) : before.Extends after where
  exprs := leads.exprs
  stmts := leads.stmts
  functions := leads.functions (Nat.zero_le _)
  exprLists := leads.exprLists
  stmtLists := leads.stmtLists

theorem leadsTo_setBody? {func : FuncId} {body : List StmtId} {function : Function}
    (found : before.function? func = some function) (set : before.setBody? func body = some after) :
    before.LeadsTo (func.index + 1) after ∧ ∃ range, after.stmtList? range = some body ∧
      after.function? func = some { function with body := some range } := by
  have bound : func.index < before.functions.size := (Array.getElem?_eq_some_iff.mp found).1
  rw [setBody?_of_found found] at set
  cases set
  have listed := extends_addStmtList before body
  have changed : (before.functions.setIfInBounds func.index
      { function with body := some (before.addStmtList body).1 })[func.index]? =
        some { function with body := some (before.addStmtList body).1 } :=
    Array.getElem?_setIfInBounds_self_of_lt bound
  refine ⟨?_, _, stmtList?_addStmtList before body, changed⟩
  refine ⟨listed.exprs, listed.stmts, ?_, ?_, listed.exprLists, listed.stmtLists, rfl⟩
  · intro id other above known
    exact (Array.getElem?_setIfInBounds_ne (by omega)).trans known
  · intro id other known
    by_cases same : func.index = id.index
    · cases found.symm.trans ((congrArg (before.functions[·]?) same).trans known)
      exact ⟨_, (congrArg _ same.symm).trans changed, rfl⟩
    · exact ⟨other, (Array.getElem?_setIfInBounds_ne same).trans known, rfl⟩

end Arena

namespace TreeBuilder

/-- The tree and the type table only grow. -/
structure LeadsTo (floor : Nat) (before after : TreeBuilder) : Prop where
  arena : before.arena.LeadsTo floor after.arena
  types : before.types.Precedes after.types

variable {before after : TreeBuilder} {floor : Nat}

theorem LeadsTo.trans {last : TreeBuilder} (one : before.LeadsTo floor after)
    (two : after.LeadsTo floor last) : before.LeadsTo floor last :=
  ⟨one.arena.trans two.arena, one.types.trans two.types⟩

theorem LeadsTo.raise {higher : Nat} (leads : before.LeadsTo floor after)
    (above : floor ≤ higher) : before.LeadsTo higher after :=
  ⟨leads.arena.raise above, leads.types⟩

variable (builder : TreeBuilder)

theorem leadsTo_expr (kind : ExprKind) (type : TypeId) (span : Span) :
    builder.LeadsTo floor (builder.expr kind type span).2 :=
  ⟨(Arena.extends_addExpr builder.arena _).leadsTo rfl, .refl _⟩

theorem leadsTo_stmt (kind : StmtKind) (span : Span) :
    builder.LeadsTo floor (builder.stmt kind span).2 :=
  ⟨(Arena.extends_addStmt builder.arena _).leadsTo rfl, .refl _⟩

theorem leadsTo_exprList (ids : List ExprId) :
    builder.LeadsTo floor (builder.exprList ids).2 :=
  ⟨(Arena.extends_addExprList builder.arena ids).leadsTo rfl, .refl _⟩

theorem leadsTo_stmtList (ids : List StmtId) :
    builder.LeadsTo floor (builder.stmtList ids).2 :=
  ⟨(Arena.extends_addStmtList builder.arena ids).leadsTo rfl, .refl _⟩

/-- A statement above two lists of expressions. -/
theorem leadsTo_exprLists (left right : List ExprId) (kind : IdRange → IdRange → StmtKind)
    (span : Span) : builder.LeadsTo floor (((builder.exprList left).2.exprList right).2.stmt
      (kind (builder.exprList left).1 ((builder.exprList left).2.exprList right).1) span).2 :=
  (builder.leadsTo_exprList left).trans
    ((leadsTo_exprList _ right).trans (leadsTo_stmt ..))

/-- A statement above a list of statements. -/
theorem leadsTo_stmtsBelow (ids : List StmtId) (kind : IdRange → StmtKind) (span : Span) :
    builder.LeadsTo floor
      ((builder.stmtList ids).2.stmt (kind (builder.stmtList ids).1) span).2 :=
  (builder.leadsTo_stmtList ids).trans (leadsTo_stmt ..)

theorem leadsTo_withTypes {types : TypeTable} (precedes : builder.types.Precedes types) :
    builder.LeadsTo floor { builder with types } :=
  ⟨.refl _, precedes⟩

theorem leadsTo_callTyped (callee : ExprId) (args : List ExprId) (type : TypeId) (span : Span) :
    builder.LeadsTo floor (builder.callTyped callee args type span).2 :=
  (builder.leadsTo_exprList args).trans (leadsTo_expr ..)

theorem leadsTo_funcType (results : List TypeId) :
    builder.LeadsTo floor (builder.funcType results).2 :=
  builder.leadsTo_withTypes (builder.types.precedes_enter _)

theorem expr?_expr (kind : ExprKind) (type : TypeId) (span : Span) :
    (builder.expr kind type span).2.arena.expr? (builder.expr kind type span).1 =
      some ⟨kind, span, type⟩ :=
  builder.arena.expr?_addExpr _

theorem stmt?_stmt (kind : StmtKind) (span : Span) :
    (builder.stmt kind span).2.arena.stmt? (builder.stmt kind span).1 = some ⟨kind, span⟩ :=
  builder.arena.stmt?_addStmt _

theorem exprList?_exprList (ids : List ExprId) :
    (builder.exprList ids).2.arena.exprList? (builder.exprList ids).1 = some ids :=
  Arena.exprList?_addExprList builder.arena ids

theorem stmtList?_stmtList (ids : List StmtId) :
    (builder.stmtList ids).2.arena.stmtList? (builder.stmtList ids).1 = some ids :=
  Arena.stmtList?_addStmtList builder.arena ids

variable {builder : TreeBuilder} {symbols : SymbolTable} {span : Span}

theorem varRef_of_found {var : VarId} {info : Variable}
    (found : builder.arena.var? var = some info) :
    builder.varRef var span = builder.expr (.ident info.name (.var var)) info.type span := by
  rw [varRef, found]
  rfl

theorem funcRef_of_found {symbol : SymbolId} {info : Symbol}
    (found : symbols.get? symbol = some info) :
    builder.funcRef symbols symbol span = (builder.funcType info.results).2.expr
      (.ident info.name (.func symbol)) (builder.funcType info.results).1 span := by
  rw [funcRef, symbolType, found]
  rfl

theorem select_of_found {base : ExprId} {symbol : SymbolId} {info : Symbol}
    (found : symbols.get? symbol = some info) :
    builder.select symbols base symbol span = (builder.funcType info.results).2.expr
      (.selector base info.name (some symbol)) (builder.funcType info.results).1 span := by
  rw [select, symbolType, found]

/-- The type of a call that does not say it, entered if need be. -/
def calledType (types : TypeTable) (symbols : SymbolTable) (callee : Expr) :
    TypeId × TypeTable :=
  match calledResults? types symbols callee with
  | some results => types.resultsType results
  | none => (.invalid, types)

theorem call?_of_found {callee : ExprId} {args : List ExprId} {target : Expr}
    (found : builder.arena.expr? callee = some target) :
    builder.call? symbols callee args span =
      some ({ builder with types := (calledType builder.types symbols target).2 }.callTyped callee
        args (calledType builder.types symbols target).1 span) := by
  rw [call?, found]
  rfl

theorem funcLit?_of_found {func : FuncId} {function : Function}
    (found : builder.arena.function? func = some function) :
    builder.funcLit? func span = some ((builder.funcType (function.results.map (·.type))).2.expr
      (.funcLit func) (builder.funcType (function.results.map (·.type))).1 span) := by
  rw [funcLit?, found]
  rfl

theorem precedes_calledType (types : TypeTable) (symbols : SymbolTable) (callee : Expr) :
    types.Precedes (calledType types symbols callee).2 := by
  unfold calledType
  split
  · exact types.precedes_resultsType _
  · exact .refl types

end TreeBuilder

namespace Dump

namespace Lowering

def builder (state : Lowering) : TreeBuilder := ⟨state.names.types, state.arena⟩

/-- What was lowered and resolved before is still there. -/
structure LeadsTo (floor : Nat) (before after : Lowering) : Prop where
  arena : before.arena.LeadsTo floor after.arena
  names : before.names.Precedes after.names

variable {before after : Lowering} {floor : Nat}

theorem LeadsTo.refl (state : Lowering) : state.LeadsTo floor state :=
  ⟨.refl _, .refl _⟩

theorem LeadsTo.trans {last : Lowering} (one : before.LeadsTo floor after)
    (two : after.LeadsTo floor last) : before.LeadsTo floor last :=
  ⟨one.arena.trans two.arena, one.names.trans two.names⟩

theorem LeadsTo.raise {higher : Nat} (leads : before.LeadsTo floor after)
    (above : floor ≤ higher) : before.LeadsTo higher after :=
  ⟨leads.arena.raise above, leads.names⟩

end Lowering

/-! ### Functions -/

/-- An action that adds one function. -/
def Opens (action : LowerM (FuncId × Place)) : Prop :=
  ∀ state : Lowering, ∃ info, (action.run state).1.1 = ⟨state.arena.functions.size⟩ ∧
    (action.run state).2.arena = (state.arena.addFunction info).2

theorem Keeps.opens {α : Type} {action : LowerM α} {next : α → LowerM (FuncId × Place)}
    (keeps : Keeps action) (later : ∀ result, Opens (next result)) : Opens (action >>= next) := by
  intro state
  have opens := later (action.run state).1 (action.run state).2
  rw [keeps state] at opens
  exact opens

theorem opens_lowerSignature (tables : Tables) (place : Place) (declared : Bool)
    (signature : Signature) : Opens (lowerSignature tables place declared signature) := by
  unfold lowerSignature
  refine (keeps_fileWithin tables place signature.file).opens fun file => ?_
  cases declared with
  | true =>
      refine (keeps_findSymbol tables _).opens fun symbol => ?_
      refine (keeps_findVars tables signature.params).opens fun params => ?_
      refine (keeps_lowerResults tables signature.results).opens fun results => ?_
      exact fun state => ⟨_, rfl, rfl⟩
  | false =>
      rw [if_neg Bool.false_ne_true, pure_bind]
      refine (keeps_findVars tables signature.params).opens fun params => ?_
      refine (keeps_lowerResults tables signature.results).opens fun results => ?_
      exact fun state => ⟨_, rfl, rfl⟩

theorem leadsTo_setBody {state : Lowering} {func : FuncId} {function : ErrorWrapping.Function}
    (found : state.arena.function? func = some function) (body : List StmtId) :
    state.LeadsTo (func.index + 1) ((setBody func body).run state).2 ∧
      ∃ range, ((setBody func body).run state).2.arena.stmtList? range = some body ∧
        ((setBody func body).run state).2.arena.function? func =
          some { function with body := some range } := by
  obtain ⟨arena, set⟩ : ∃ arena, state.arena.setBody? func body = some arena :=
    ⟨_, Arena.setBody?_of_found found⟩
  have after : ((setBody func body).run state).2 = { state with arena } := by
    change Lowering.mk { state.names with types := ((state.builder.setBody? func body).getD
      state.builder).types } ((state.builder.setBody? func body).getD state.builder).arena _ = _
    rw [TreeBuilder.setBody?, Lowering.builder, set]
    rfl
  obtain ⟨leads, range, listed, changed⟩ := Arena.leadsTo_setBody? found set
  rw [after]
  exact ⟨⟨leads, .refl _⟩, range, listed, changed⟩

/-- Giving a body to a function that is new does not touch those before it. -/
theorem extends_setBody {before : Arena} {state : Lowering} {func : FuncId}
    (fresh : before.function? func = none) (grown : before.Extends state.arena)
    (body : List StmtId) : before.Extends ((setBody func body).run state).2.arena := by
  have listed := grown.trans (Arena.extends_addStmtList state.arena body)
  change before.Extends (((TreeBuilder.mk state.names.types state.arena).setBody? func body).getD
    ⟨state.names.types, state.arena⟩).arena
  rw [TreeBuilder.setBody?]
  cases found : state.arena.function? func with
  | none =>
      have nothing : state.arena.setBody? func body = none := by
        have also : (state.arena.addStmtList body).2.function? func = none := found
        simp only [Arena.setBody?, Arena.addStmtList] at also ⊢
        rw [also]
      rw [nothing]
      exact grown
  | some function =>
      rw [Arena.setBody?_of_found found]
      refine { listed with functions := fun {id other} known => ?_ }
      have differs : func.index ≠ id.index := by
        intro same
        rw [Arena.function?, same, ← Arena.function?, known] at fresh
        cases fresh
      exact (Array.getElem?_setIfInBounds_ne differs).trans (listed.functions known)

end Dump

end ErrorWrapping
