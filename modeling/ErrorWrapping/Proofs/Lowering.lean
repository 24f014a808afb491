import ErrorWrapping.Proofs.Forests
import ErrorWrapping.Proofs.LexicalLowering
import ErrorWrapping.Proofs.Workloads

/-
Lowered units are forests.

Lowering a tree adds its nodes to the arena, takes the roots of its parts and leaves one root of
its own. So the declared functions and the package-level statements of a lowered unit are the
roots of a forest that holds every node of the unit, and the unit can be walked. The same
argument carries any other property that each way of growing the arena keeps.
-/

namespace ErrorWrapping

/-! ### Nodes with their lists of children -/

namespace TreeBuilder

variable (builder : TreeBuilder)

theorem exprRefs?_exprList (ids : List ExprId) :
    (builder.exprList ids).2.arena.exprRefs? (builder.exprList ids).1 = some (ids.map .expr) :=
  Option.map_eq_some_iff.mpr ⟨ids, Arena.exprList?_addExprList builder.arena ids, rfl⟩

theorem stmtRefs?_stmtList (ids : List StmtId) :
    (builder.stmtList ids).2.arena.stmtRefs? (builder.stmtList ids).1 = some (ids.map .stmt) :=
  Option.map_eq_some_iff.mpr ⟨ids, Arena.stmtList?_addStmtList builder.arena ids, rfl⟩

end TreeBuilder

namespace Growing

open TreeBuilder (exprRefs?_exprList stmtRefs?_stmtList)

variable {holds : Arena → OwnedGrowth → Prop} (growing : Growing holds) (builder : TreeBuilder)
  {growth : OwnedGrowth}

include growing

theorem leaf {kind : ExprKind} {type : TypeId} {span : Span}
    (kept : holds builder.arena growth)
    (known : builder.arena.exprChildren? kind = some []) :
    holds (builder.expr kind type span).2.arena
      (growth.add [.expr (builder.expr kind type span).1]) := by
  rw [← growth.add_nil] at kept
  exact growing.addExpr kept known

theorem exprList {ids : List ExprId} (kept : holds builder.arena growth) :
    holds (builder.exprList ids).2.arena growth :=
  growing.extend kept (Arena.extends_addExprList builder.arena ids) rfl rfl rfl

theorem stmtList {ids : List StmtId} (kept : holds builder.arena growth) :
    holds (builder.stmtList ids).2.arena growth :=
  growing.extend kept (Arena.extends_addStmtList builder.arena ids) rfl rfl rfl

theorem varRef {var : VarId} {span : Span} (kept : holds builder.arena growth) :
    holds (builder.varRef var span).2.arena
      (growth.add [.expr (builder.varRef var span).1]) := by
  unfold TreeBuilder.varRef
  split <;> exact growing.leaf builder kept rfl

theorem funcRef {symbols : SymbolTable} {symbol : SymbolId} {span : Span}
    (kept : holds builder.arena growth) :
    holds (builder.funcRef symbols symbol span).2.arena
      (growth.add [.expr (builder.funcRef symbols symbol span).1]) := by
  unfold TreeBuilder.funcRef TreeBuilder.symbolType
  cases symbols.get? symbol with
  | none => exact growing.leaf (builder.funcType []).2 kept rfl
  | some info => exact growing.leaf (builder.funcType info.results).2 kept rfl

theorem select {symbols : SymbolTable} {base : ExprId} {symbol : SymbolId} {span : Span}
    (kept : holds builder.arena (growth.add [.expr base])) :
    holds (builder.select symbols base symbol span).2.arena
      (growth.add [.expr (builder.select symbols base symbol span).1]) := by
  unfold TreeBuilder.select TreeBuilder.symbolType
  cases symbols.get? symbol with
  | none => exact growing.addExpr kept rfl
  | some info => exact growing.addExpr kept rfl

theorem field {base : ExprId} {name : String} {type : TypeId} {span : Span}
    (kept : holds builder.arena (growth.add [.expr base])) :
    holds (builder.field base name type span).2.arena
      (growth.add [.expr (builder.field base name type span).1]) :=
  growing.addExpr kept rfl

theorem callTyped {callee : ExprId} {args : List ExprId} {type : TypeId} {span : Span}
    (kept : holds builder.arena ((growth.add [.expr callee]).add (args.map .expr))) :
    holds (builder.callTyped callee args type span).2.arena
      (growth.add [.expr (builder.callTyped callee args type span).1]) := by
  rw [growth.add_add] at kept
  refine growing.addExpr (growing.exprList builder kept) ?_
  exact Option.map_eq_some_iff.mpr ⟨_, exprRefs?_exprList builder args, rfl⟩

theorem call? {symbols : SymbolTable} {callee : ExprId} {args : List ExprId} {span : Span}
    (kept : holds builder.arena ((growth.add [.expr callee]).add (args.map .expr))) :
    holds ((builder.call? symbols callee args span).getD
        (builder.callTyped callee args .invalid span)).2.arena
      (growth.add [.expr ((builder.call? symbols callee args span).getD
        (builder.callTyped callee args .invalid span)).1]) := by
  unfold TreeBuilder.call?
  cases builder.arena.expr? callee with
  | none => exact growing.callTyped builder kept
  | some target =>
      cases TreeBuilder.calledResults? builder.types symbols target with
      | none => exact growing.callTyped builder kept
      | some results =>
          exact growing.callTyped ⟨(builder.types.resultsType results).2, builder.arena⟩ kept

theorem other {operands : List ExprId} {type : TypeId} {span : Span}
    (kept : holds builder.arena (growth.add (operands.map .expr))) :
    holds (builder.other operands type span).2.arena
      (growth.add [.expr (builder.other operands type span).1]) :=
  growing.addExpr (growing.exprList builder kept) (exprRefs?_exprList builder operands)

theorem funcLit? {func : FuncId} {span : Span}
    (kept : holds builder.arena (growth.add [.literal func])) :
    holds ((builder.funcLit? func span).getD
        (builder.expr (.funcLit func) .invalid span)).2.arena
      (growth.add [.expr ((builder.funcLit? func span).getD
        (builder.expr (.funcLit func) .invalid span)).1]) := by
  unfold TreeBuilder.funcLit?
  cases builder.arena.function? func with
  | none => exact growing.addExpr kept rfl
  | some function => exact growing.addExpr kept rfl

theorem assign {op : AssignOp} {targets values : List ExprId} {span : Span}
    (kept : holds builder.arena
      ((growth.add (targets.map .expr)).add (values.map .expr))) :
    holds (builder.assign op targets values span).2.arena
      (growth.add [.stmt (builder.assign op targets values span).1]) := by
  rw [growth.add_add] at kept
  refine growing.addStmt (growing.exprList _ (growing.exprList builder kept)) ?_
  have left := (Arena.extends_addExprList _ values).exprRefs? (exprRefs?_exprList builder targets)
  refine Option.bind_eq_some_iff.mpr ⟨_, left, ?_⟩
  exact Option.bind_eq_some_iff.mpr ⟨_, exprRefs?_exprList (builder.exprList targets).2 values, rfl⟩

theorem varDecl {names values : List ExprId} {span : Span}
    (kept : holds builder.arena ((growth.add (names.map .expr)).add (values.map .expr))) :
    holds (builder.varDecl names values span).2.arena
      (growth.add [.stmt (builder.varDecl names values span).1]) := by
  rw [growth.add_add] at kept
  refine growing.addStmt (growing.exprList _ (growing.exprList builder kept)) ?_
  have left := (Arena.extends_addExprList _ values).exprRefs? (exprRefs?_exprList builder names)
  refine Option.bind_eq_some_iff.mpr ⟨_, left, ?_⟩
  exact Option.bind_eq_some_iff.mpr ⟨_, exprRefs?_exprList (builder.exprList names).2 values, rfl⟩

theorem ret {results : List ExprId} {span : Span}
    (kept : holds builder.arena (growth.add (results.map .expr))) :
    holds (builder.ret results span).2.arena
      (growth.add [.stmt (builder.ret results span).1]) :=
  growing.addStmt (growing.exprList builder kept) (exprRefs?_exprList builder results)

theorem exprStmt {expr : ExprId} {span : Span}
    (kept : holds builder.arena (growth.add [.expr expr])) :
    holds (builder.exprStmt expr span).2.arena
      (growth.add [.stmt (builder.exprStmt expr span).1]) :=
  growing.addStmt kept rfl

theorem block {body : List StmtId} {span : Span}
    (kept : holds builder.arena (growth.add (body.map .stmt))) :
    holds (builder.block body span).2.arena
      (growth.add [.stmt (builder.block body span).1]) :=
  growing.addStmt (growing.stmtList builder kept) (stmtRefs?_stmtList builder body)

theorem cond {init : Option StmtId} {test : ExprId} {body : List StmtId}
    {otherwise : Option StmtId} {span : Span}
    (kept : holds builder.arena
      ((((growth.add (init.toList.map .stmt)).add [.expr test]).add (body.map .stmt)).add
        (otherwise.toList.map .stmt))) :
    holds (builder.cond init test body otherwise span).2.arena
      (growth.add [.stmt (builder.cond init test body otherwise span).1]) := by
  simp only [OwnedGrowth.add_add] at kept
  refine growing.addStmt (growing.stmtList builder kept) ?_
  refine Option.bind_eq_some_iff.mpr ⟨_, stmtRefs?_stmtList builder body, ?_⟩
  simp

theorem loop {init : Option StmtId} {body : List StmtId} {span : Span}
    (kept : holds builder.arena
      ((growth.add (init.toList.map .stmt)).add (body.map .stmt))) :
    holds (builder.loop init body span).2.arena
      (growth.add [.stmt (builder.loop init body span).1]) := by
  rw [growth.add_add] at kept
  refine growing.addStmt (growing.stmtList builder kept) ?_
  exact Option.bind_eq_some_iff.mpr ⟨_, stmtRefs?_stmtList builder body, rfl⟩

theorem switch {init : Option StmtId} {tag : Option ExprId} {cases : List StmtId}
    {span : Span}
    (kept : holds builder.arena
      (((growth.add (init.toList.map .stmt)).add (tag.toList.map .expr)).add
        (cases.map .stmt))) :
    holds (builder.switch init tag cases span).2.arena
      (growth.add [.stmt (builder.switch init tag cases span).1]) := by
  simp only [OwnedGrowth.add_add] at kept
  refine growing.addStmt (growing.stmtList builder kept) ?_
  refine Option.bind_eq_some_iff.mpr ⟨_, stmtRefs?_stmtList builder cases, ?_⟩
  simp

end Growing

namespace Dump

/-! ### What lowering does to a growing arena -/

/-- An action that keeps a property of the arena while one growth turns into another. -/
def Lowers (holds : Arena → OwnedGrowth → Prop) {α : Type} (action : LowerM α)
    (before : OwnedGrowth) (after : α → OwnedGrowth) : Prop :=
  ∀ state, holds state.arena before → holds (action.run state).2.arena (after (action.run state).1)

/-- An action that leaves the arena alone. -/
def Keeps {α : Type} (action : LowerM α) : Prop :=
  ∀ state, (action.run state).2.arena = state.arena

variable {holds : Arena → OwnedGrowth → Prop} {α β : Type} {growth : OwnedGrowth}

theorem lowers_pure {result : α} {before : OwnedGrowth} {after : α → OwnedGrowth}
    (same : before = after result) : Lowers holds (pure result) before after :=
  fun _ kept => same ▸ kept

theorem Lowers.bind {action : LowerM α} {next : α → LowerM β} {before : OwnedGrowth}
    {middle : α → OwnedGrowth} {after : β → OwnedGrowth} (first : Lowers holds action before middle)
    (later : ∀ result, Lowers holds (next result) (middle result) after) :
    Lowers holds (action >>= next) before after :=
  fun state kept => later _ _ (first state kept)

theorem Keeps.lowers {action : LowerM α} (keeps : Keeps action) :
    Lowers holds action growth fun _ => growth := by
  intro state kept
  rw [keeps state]
  exact kept

theorem Keeps.bind {action : LowerM α} {next : α → LowerM β} (first : Keeps action)
    (later : ∀ result, Keeps (next result)) : Keeps (action >>= next) :=
  fun state => (later _ _).trans (first state)

theorem keeps_pure (result : α) : Keeps (pure result) := fun _ => rfl

theorem lowers_build {step : TreeBuilder → α × TreeBuilder} {before : OwnedGrowth}
    {after : α → OwnedGrowth}
    (steps : ∀ builder : TreeBuilder, holds builder.arena before →
      holds (step builder).2.arena (after (step builder).1)) :
    Lowers holds (build step) before after :=
  fun state kept => steps ⟨state.names.types, state.arena⟩ kept

theorem keeps_warn (warning : Warning) : Keeps (warn warning) := fun _ => rfl

theorem keeps_lowerType (tables : Tables) (spelling : String) :
    Keeps (lowerType tables spelling) := fun _ => rfl

theorem keeps_lowerType? (tables : Tables) (spelling : Option String) :
    Keeps (lowerType? tables spelling) := by
  cases spelling with
  | none => exact keeps_pure _
  | some spelling => exact keeps_lowerType tables spelling

theorem keeps_findSymbol (tables : Tables) (key : String) : Keeps (findSymbol tables key) := by
  unfold findSymbol
  split
  · exact keeps_pure _
  · exact (keeps_warn _).bind fun _ => keeps_pure _

theorem keeps_findVar (tables : Tables) (id : String) : Keeps (findVar tables id) := by
  unfold findVar
  split
  · exact keeps_pure _
  · exact (keeps_warn _).bind fun _ => keeps_pure _

theorem keeps_findVars (tables : Tables) (ids : List String) : Keeps (findVars tables ids) := by
  induction ids with
  | nil => exact keeps_pure _
  | cons id rest ih =>
      exact (keeps_findVar tables id).bind fun _ => ih.bind fun _ => keeps_pure _

theorem keeps_lowerResults (tables : Tables) (results : List ResultEntry) :
    Keeps (lowerResults tables results) := by
  induction results with
  | nil => exact keeps_pure _
  | cons entry rest ih =>
      refine (keeps_lowerType tables entry.type).bind fun type => ?_
      cases entry.var with
      | none => exact (keeps_pure _).bind fun _ => ih.bind fun _ => keeps_pure _
      | some id => exact (keeps_findVar tables id).bind fun _ => ih.bind fun _ => keeps_pure _

theorem keeps_fileWithin (tables : Tables) (place : Place) (path : Option String) :
    Keeps (fileWithin tables place path) := by
  cases path with
  | none => exact keeps_pure _
  | some path =>
      simp only [fileWithin]
      split
      · exact keeps_pure _
      · exact (keeps_warn _).bind fun _ => keeps_pure _

theorem keeps_unitFiles (fileIds : Std.HashMap String FileId) (unit : String)
    (paths : List String) : Keeps (unitFiles fileIds unit paths) := by
  induction paths with
  | nil => exact keeps_pure _
  | cons path rest ih =>
      unfold unitFiles
      split
      · exact ih.bind fun _ => keeps_pure _
      · exact (keeps_warn _).bind fun _ => ih

/-! ### Functions -/

/-- A declared function has a symbol. -/
def naming (growth : OwnedGrowth) (declared : Bool) (func : FuncId) : OwnedGrowth :=
  if declared then growth.declare [func] else growth

theorem lowers_function (growing : Growing holds) {info : ErrorWrapping.Function}
    (noBody : info.body = none) {declared : Bool} (named : info.symbol ≠ none → declared = true)
    {growth : OwnedGrowth} (inside : info.parent = growth.owner) :
    Lowers holds (build (·.function info)) growth fun id =>
      (naming growth declared id).openUp id := by
  refine lowers_build fun builder kept => ?_
  cases declared with
  | true =>
      refine growing.addFunction kept noBody inside
        (fun func member => List.mem_append_left _ member) ?_
      exact fun _ => List.mem_append_right _ (List.mem_singleton.mpr rfl)
  | false =>
      refine growing.addFunction kept noBody inside (fun func member => member) fun hasSymbol => ?_
      exact absurd (named hasSymbol) Bool.false_ne_true

/-- A signature opens a function, and the place of its body is inside that function. -/
theorem lowers_lowerSignature (growing : Growing holds) (tables : Tables) (place : Place)
    (declared : Bool) (signature : Signature) {growth : OwnedGrowth}
    (inside : place.parent = growth.owner) {next : FuncId × Place → LowerM β}
    {after : β → OwnedGrowth}
    (later : ∀ id file, Lowers holds (next (id, ⟨file, some id⟩))
      ((naming growth declared id).openUp id) after) :
    Lowers holds (lowerSignature tables place declared signature >>= next) growth after := by
  cases declared with
  | true =>
      simp only [lowerSignature, if_true, bind_assoc, pure_bind]
      refine (keeps_fileWithin tables place signature.file).lowers.bind fun file => ?_
      refine (keeps_findSymbol tables _).lowers.bind fun symbol => ?_
      refine (keeps_findVars tables signature.params).lowers.bind fun params => ?_
      refine (keeps_lowerResults tables signature.results).lowers.bind fun results => ?_
      exact (lowers_function growing rfl (fun _ => rfl) inside).bind fun id => later id file
  | false =>
      simp only [lowerSignature, Bool.false_eq_true, if_false, bind_assoc, pure_bind]
      refine (keeps_fileWithin tables place signature.file).lowers.bind fun file => ?_
      refine (keeps_findVars tables signature.params).lowers.bind fun params => ?_
      refine (keeps_lowerResults tables signature.results).lowers.bind fun results => ?_
      exact (lowers_function growing rfl (absurd rfl) inside).bind fun id => later id file

theorem lowers_setBody (growing : Growing holds) (func : FuncId) (body : List StmtId)
    (growth : OwnedGrowth) :
    Lowers holds (setBody func body) ((growth.openUp func).add (body.map .stmt))
      fun _ => growth.add [.literal func] := by
  refine lowers_build fun builder kept => ?_
  obtain ⟨arena, set, settled⟩ := growing.setBody? kept
  rw [TreeBuilder.setBody?, set]
  exact settled

/-! ### Trees -/

mutual

-- Each constructor lowers its parts in order and then puts one node above them. The growth is
-- arbitrary, since a part is lowered next to whatever was lowered before it.

theorem lowers_lowerExpr (growing : Growing holds) (tables : Tables) (place : Place) (expr : Expr)
    (growth : OwnedGrowth) (inside : place.parent = growth.owner) :
    Lowers holds (lowerExpr tables place expr) growth fun id => growth.add [.expr id] := by
  cases expr with
  | var id at? =>
      unfold lowerExpr
      refine (keeps_findVar tables id).lowers.bind fun found => ?_
      cases found with
      | none => exact lowers_build fun builder kept => growing.leaf builder kept rfl
      | some var => exact lowers_build fun builder kept => growing.varRef builder kept
  | blank at? =>
      unfold lowerExpr
      exact lowers_build fun builder kept => growing.leaf builder kept rfl
  | func key at? =>
      unfold lowerExpr
      refine (keeps_findSymbol tables key).lowers.bind fun found => ?_
      cases found with
      | none => exact lowers_build fun builder kept => growing.leaf builder kept rfl
      | some symbol => exact lowers_build fun builder kept => growing.funcRef builder kept
  | package path at? =>
      unfold lowerExpr
      exact lowers_build fun builder kept => growing.leaf builder kept rfl
  | select base key at? =>
      unfold lowerExpr
      refine (lowers_lowerExpr growing tables place base growth inside).bind fun base => ?_
      refine (keeps_findSymbol tables key).lowers.bind fun found => ?_
      cases found with
      | none => exact lowers_build fun builder kept => growing.field builder kept
      | some symbol => exact lowers_build fun builder kept => growing.select builder kept
  | field base name type at? =>
      unfold lowerExpr
      refine (lowers_lowerExpr growing tables place base growth inside).bind fun base => ?_
      refine (keeps_lowerType? tables type).lowers.bind fun type => ?_
      exact lowers_build fun builder kept => growing.field builder kept
  | call callee args type at? =>
      unfold lowerExpr
      refine (lowers_lowerExpr growing tables place callee growth inside).bind fun callee => ?_
      refine (lowers_lowerExprs growing tables place args (growth.add _) inside).bind fun args => ?_
      cases type with
      | none => exact lowers_build fun builder kept => growing.call? builder kept
      | some type =>
          refine (keeps_lowerType tables type).lowers.bind fun type => ?_
          exact lowers_build fun builder kept => growing.callTyped builder kept
  | nil at? =>
      unfold lowerExpr
      exact lowers_build fun builder kept => growing.leaf builder kept rfl
  | literal type at? =>
      unfold lowerExpr
      refine (keeps_lowerType? tables type).lowers.bind fun type => ?_
      exact lowers_build fun builder kept => growing.leaf builder kept rfl
  | funcLit function at? =>
      unfold lowerExpr
      refine (lowers_lowerFunction growing tables place false function growth inside).bind
        fun func => ?_
      exact lowers_build fun builder kept => growing.funcLit? builder kept
  | other operands type at? =>
      unfold lowerExpr
      refine (lowers_lowerExprs growing tables place operands growth inside).bind fun operands => ?_
      refine (keeps_lowerType? tables type).lowers.bind fun type => ?_
      exact lowers_build fun builder kept => growing.other builder kept

theorem lowers_lowerExprs (growing : Growing holds) (tables : Tables) (place : Place)
    (exprs : List Expr) (growth : OwnedGrowth) (inside : place.parent = growth.owner) :
    Lowers holds (lowerExprs tables place exprs) growth fun ids => growth.add (ids.map .expr) := by
  cases exprs with
  | nil =>
      unfold lowerExprs
      exact lowers_pure (growth.add_nil).symm
  | cons expr rest =>
      unfold lowerExprs
      refine (lowers_lowerExpr growing tables place expr growth inside).bind fun id => ?_
      refine (lowers_lowerExprs growing tables place rest (growth.add _) inside).bind fun ids => ?_
      exact lowers_pure (growth.add_add [.expr id] (ids.map .expr))

theorem lowers_lowerTag (growing : Growing holds) (tables : Tables) (place : Place)
    (tag : Option Expr) (growth : OwnedGrowth) (inside : place.parent = growth.owner) :
    Lowers holds (lowerTag tables place tag) growth fun id => growth.add (id.toList.map .expr) := by
  cases tag with
  | none =>
      unfold lowerTag
      exact lowers_pure (growth.add_nil).symm
  | some expr =>
      unfold lowerTag
      exact (lowers_lowerExpr growing tables place expr growth inside).bind
        fun id => lowers_pure rfl

theorem lowers_lowerStmt (growing : Growing holds) (tables : Tables) (place : Place) (stmt : Stmt)
    (growth : OwnedGrowth) (inside : place.parent = growth.owner) :
    Lowers holds (lowerStmt tables place stmt) growth fun id => growth.add [.stmt id] := by
  cases stmt with
  | define targets values at? =>
      unfold lowerStmt
      refine (lowers_lowerExprs growing tables place targets growth inside).bind fun targets => ?_
      refine (lowers_lowerExprs growing tables place values (growth.add _) inside).bind
        fun values => ?_
      exact lowers_build fun builder kept => growing.assign builder kept
  | assign targets values at? =>
      unfold lowerStmt
      refine (lowers_lowerExprs growing tables place targets growth inside).bind fun targets => ?_
      refine (lowers_lowerExprs growing tables place values (growth.add _) inside).bind
        fun values => ?_
      exact lowers_build fun builder kept => growing.assign builder kept
  | var names values at? =>
      unfold lowerStmt
      refine (lowers_lowerExprs growing tables place names growth inside).bind fun names => ?_
      refine (lowers_lowerExprs growing tables place values (growth.add _) inside).bind
        fun values => ?_
      exact lowers_build fun builder kept => growing.varDecl builder kept
  | ret results at? =>
      unfold lowerStmt
      refine (lowers_lowerExprs growing tables place results growth inside).bind fun results => ?_
      exact lowers_build fun builder kept => growing.ret builder kept
  | expr expr at? =>
      unfold lowerStmt
      refine (lowers_lowerExpr growing tables place expr growth inside).bind fun expr => ?_
      exact lowers_build fun builder kept => growing.exprStmt builder kept
  | block body at? =>
      unfold lowerStmt
      refine (lowers_lowerStmts growing tables place body growth inside).bind fun body => ?_
      exact lowers_build fun builder kept => growing.block builder kept
  | cond init test body otherwise at? =>
      unfold lowerStmt
      refine (lowers_lowerOption growing tables place init growth inside).bind fun init => ?_
      refine (lowers_lowerExpr growing tables place test (growth.add _) inside).bind fun test => ?_
      refine (lowers_lowerStmts growing tables place body ((growth.add _).add _) inside).bind
        fun body => ?_
      refine (lowers_lowerOption growing tables place otherwise (((growth.add _).add _).add _)
        inside).bind fun otherwise => ?_
      exact lowers_build fun builder kept => growing.cond builder kept
  | loop init body at? =>
      unfold lowerStmt
      refine (lowers_lowerOption growing tables place init growth inside).bind fun init => ?_
      refine (lowers_lowerStmts growing tables place body (growth.add _) inside).bind fun body => ?_
      exact lowers_build fun builder kept => growing.loop builder kept
  | switch init tag cases at? =>
      unfold lowerStmt
      refine (lowers_lowerOption growing tables place init growth inside).bind fun init => ?_
      refine (lowers_lowerTag growing tables place tag (growth.add _) inside).bind fun tag => ?_
      refine (lowers_lowerCases growing tables place cases ((growth.add _).add _) inside).bind
        fun cases => ?_
      exact lowers_build fun builder kept => growing.switch builder kept

theorem lowers_lowerStmts (growing : Growing holds) (tables : Tables) (place : Place)
    (stmts : List Stmt) (growth : OwnedGrowth) (inside : place.parent = growth.owner) :
    Lowers holds (lowerStmts tables place stmts) growth fun ids => growth.add (ids.map .stmt) := by
  cases stmts with
  | nil =>
      unfold lowerStmts
      exact lowers_pure (growth.add_nil).symm
  | cons stmt rest =>
      unfold lowerStmts
      refine (lowers_lowerStmt growing tables place stmt growth inside).bind fun id => ?_
      refine (lowers_lowerStmts growing tables place rest (growth.add _) inside).bind fun ids => ?_
      exact lowers_pure (growth.add_add [.stmt id] (ids.map .stmt))

theorem lowers_lowerOption (growing : Growing holds) (tables : Tables) (place : Place)
    (stmt : Option Stmt) (growth : OwnedGrowth) (inside : place.parent = growth.owner) :
    Lowers holds (lowerOption tables place stmt) growth fun id =>
      growth.add (id.toList.map .stmt) := by
  cases stmt with
  | none =>
      unfold lowerOption
      exact lowers_pure (growth.add_nil).symm
  | some stmt =>
      unfold lowerOption
      exact (lowers_lowerStmt growing tables place stmt growth inside).bind
        fun id => lowers_pure rfl

theorem lowers_lowerCases (growing : Growing holds) (tables : Tables) (place : Place)
    (cases : List (List Stmt)) (growth : OwnedGrowth) (inside : place.parent = growth.owner) :
    Lowers holds (lowerCases tables place cases) growth fun ids => growth.add (ids.map .stmt) := by
  cases cases with
  | nil =>
      unfold lowerCases
      exact lowers_pure (growth.add_nil).symm
  | cons body rest =>
      unfold lowerCases
      refine (lowers_lowerStmts growing tables place body growth inside).bind fun body => ?_
      have block : Lowers holds (build (·.block body .dummy)) (growth.add (body.map .stmt))
          fun id => growth.add [.stmt id] :=
        lowers_build fun builder kept => growing.block builder kept
      refine block.bind fun id => ?_
      refine (lowers_lowerCases growing tables place rest (growth.add _) inside).bind fun ids => ?_
      exact lowers_pure (growth.add_add [.stmt id] (ids.map .stmt))

theorem lowers_lowerBody (growing : Growing holds) (tables : Tables) (place : Place) (func : FuncId)
    (body : Option (List Stmt)) (growth : OwnedGrowth) (inside : place.parent = some func) :
    Lowers holds (lowerBody tables place func body) (growth.openUp func)
      fun _ => growth.add [.literal func] := by
  cases body with
  | none =>
      unfold lowerBody
      exact fun _ kept => growing.withoutBody kept
  | some body =>
      unfold lowerBody
      refine (lowers_lowerStmts growing tables place body (growth.openUp func) inside).bind
        fun body => ?_
      exact lowers_setBody growing func body growth

theorem lowers_lowerFunction (growing : Growing holds) (tables : Tables) (place : Place)
    (declared : Bool) (function : Function) (growth : OwnedGrowth)
    (inside : place.parent = growth.owner) :
    Lowers holds (lowerFunction tables place declared function) growth
      fun id => (naming growth declared id).add [.literal id] := by
  cases function with
  | mk signature body =>
      unfold lowerFunction
      refine lowers_lowerSignature growing tables place declared signature inside fun id file => ?_
      refine (lowers_lowerBody growing tables ⟨file, some id⟩ id body _ rfl).bind fun _ => ?_
      exact lowers_pure rfl

end

/-! ### Units -/

theorem lowers_lowerVars (growing : Growing holds) (tables : Tables) (place : Place)
    (vars : List VarEntry) (growth : OwnedGrowth) :
    Lowers holds (lowerVars tables place vars) growth fun _ => growth := by
  induction vars generalizing tables with
  | nil => exact lowers_pure rfl
  | cons entry rest ih =>
      unfold lowerVars
      refine (keeps_lowerType tables entry.type).lowers.bind fun type => ?_
      refine Lowers.bind (lowers_build fun builder kept => ?_) fun id => ih _
      exact growing.extend kept (Arena.extends_addVar builder.arena _) rfl rfl rfl

theorem lowers_lowerDecls (growing : Growing holds) (tables : Tables) (place : Place)
    (functions : List Function) (growth : OwnedGrowth) (inside : place.parent = growth.owner) :
    Lowers holds (lowerDecls tables place functions) growth
      fun ids => (growth.declare ids).add (ids.map .literal) := by
  induction functions generalizing growth with
  | nil => exact lowers_pure (by simp)
  | cons function rest ih =>
      unfold lowerDecls
      refine (lowers_lowerFunction growing tables place true function growth inside).bind
        fun id => ?_
      refine (ih ((naming growth true id).add _) inside).bind fun ids => ?_
      exact lowers_pure (by simp [naming])

theorem lowers_lowerTrees (growing : Growing holds) (tables : Tables) (file : Option FileId)
    (unit : UnitEntry) :
    Lowers holds (do
      let varIds ← lowerVars tables ⟨file, none⟩ unit.vars
      let decls ← lowerDecls { tables with varIds } ⟨file, none⟩ unit.functions
      let globals ← lowerStmts { tables with varIds } ⟨file, none⟩ unit.globals
      return (decls, globals)) (.settled [] []) fun result =>
        .settled (result.1.map .literal ++ result.2.map .stmt) result.1 := by
  refine (lowers_lowerVars growing tables ⟨file, none⟩ unit.vars _).bind fun varIds => ?_
  refine (lowers_lowerDecls growing _ ⟨file, none⟩ unit.functions (.settled [] []) rfl).bind
    fun decls => ?_
  refine (lowers_lowerStmts growing _ ⟨file, none⟩ unit.globals
    (((OwnedGrowth.settled [] []).declare _).add _) rfl).bind fun globals => ?_
  exact lowers_pure (by simp [OwnedGrowth.settled, OwnedGrowth.add, OwnedGrowth.declare,
    OwnedGrowth.owner, Growth.add, Growth.declare])

/-- What building keeps and holds of the empty arena holds of lowered units. -/
theorem holds_lowerUnit (growing : Growing holds) (start : holds .empty (.settled [] []))
    (tables : Tables) (id : UnitId) (unit : UnitEntry) (names : TypeNames)
    (warnings : List Warning) :
    let lowered := ((lowerUnit tables id unit).run ⟨names, .empty, warnings⟩).1
    holds lowered.arena
      (.settled (lowered.decls.map .literal ++ lowered.globalRefs) lowered.decls) := by
  have prepared : holds ((unitFiles tables.fileIds unit.path unit.files).run
      ⟨names, .empty, warnings⟩).2.arena (.settled [] []) := by
    rw [keeps_unitFiles]
    exact start
  rw [lowerUnit_eq]
  exact lowers_lowerTrees growing _ _ unit _ prepared

end Dump

/-- A unit whose arena is the forest of its declared functions and package-level statements, with
symbols for declared functions only. -/
def Package.Planted (unit : Package) : Prop :=
  unit.arena.Forest ⟨unit.decls.map .literal ++ unit.globalRefs, [], unit.decls⟩

namespace Dump

theorem planted_lowerUnit (tables : Tables) (id : UnitId) (unit : UnitEntry) (names : TypeNames)
    (warnings : List Warning) :
    ((lowerUnit tables id unit).run ⟨names, .empty, warnings⟩).1.Planted :=
  holds_lowerUnit growing_forest Arena.forest_empty tables id unit names warnings

theorem addImport_header (unit : Package) (imports : List String) :
    (imports.foldl (·.addImport ·) unit).id = unit.id ∧
      (imports.foldl (·.addImport ·) unit).path = unit.path := by
  induction imports generalizing unit with
  | nil => exact ⟨rfl, rfl⟩
  | cons path rest ih =>
      rw [List.foldl_cons, (ih _).1, (ih _).2, Package.addImport]
      split <;> exact ⟨rfl, rfl⟩

theorem header_lowerUnit (tables : Tables) (id : UnitId) (unit : UnitEntry) (state : Lowering) :
    ((lowerUnit tables id unit).run state).1.id = id ∧
      ((lowerUnit tables id unit).run state).1.path = unit.path := by
  rw [lowerUnit_eq]
  exact addImport_header { id, path := unit.path } unit.imports

end Dump

end ErrorWrapping
