import ErrorWrapping.Proofs.SymbolKeys

/-
Trees under other numbers.

Two programs can hold the same unit and number its symbols and types in different ways.
Expressions, statements, functions and variables then have the same numbers in both; a symbol of
one stands where its renamed symbol stands in the other, and the types that stand in one place
have the same outline. Each way of adding a node keeps two such trees in step.
-/

namespace ErrorWrapping

def Binding.rename (rename : SymbolId → SymbolId) : Binding → Binding
  | .func id => .func (rename id)
  | binding => binding

def ExprKind.rename (rename : SymbolId → SymbolId) : ExprKind → ExprKind
  | .ident name binding => .ident name (binding.rename rename)
  | .selector base field symbol => .selector base field (symbol.map rename)
  | kind => kind

/-! ### Types of two tables -/

namespace TypeTable

/-- Types of two tables of which all answers are the same. -/
def Agree (left right : TypeTable) (id other : TypeId) : Prop :=
  ∃ outline, left.Outlines id outline ∧ right.Outlines other outline

/-- The same for lists of types, none of them a tuple or a function. -/
def AgreeAll (left right : TypeTable) (ids others : List TypeId) : Prop :=
  ∃ traits, List.Forall₂ left.Answers ids traits ∧ List.Forall₂ right.Answers others traits

/-- An ordered table and a later one. -/
structure Leads (before after : TypeTable) : Prop where
  ordered : before.Ordered
  precedes : before.Precedes after

variable {left right later laterRight : TypeTable} {id other : TypeId}

theorem Agree.mono (agree : left.Agree right id other) (one : left.Leads later)
    (two : right.Leads laterRight) : later.Agree laterRight id other := by
  obtain ⟨outline, first, second⟩ := agree
  exact ⟨outline, first.mono one.ordered one.precedes, second.mono two.ordered two.precedes⟩

theorem AgreeAll.mono {ids others : List TypeId} (agree : left.AgreeAll right ids others)
    (one : left.Leads later) (two : right.Leads laterRight) :
    later.AgreeAll laterRight ids others := by
  obtain ⟨traits, first, second⟩ := agree
  exact ⟨traits, first.imp fun _ _ answers => answers.mono one.ordered one.precedes,
    second.imp fun _ _ answers => answers.mono two.ordered two.precedes⟩

theorem agree_invalid (one : left.Ordered) (two : right.Ordered) :
    left.Agree right .invalid .invalid :=
  ⟨_, .plain one.answers_invalid, .plain two.answers_invalid⟩

theorem AgreeAll.single (agree : left.AgreeAll right [id] [other]) : left.Agree right id other := by
  obtain ⟨traits, first, second⟩ := agree
  cases first with
  | cons answers nothing =>
      cases nothing
      cases second with
      | cons otherAnswers nothing => exact ⟨_, .plain answers, .plain otherAnswers⟩

theorem Agree.isError (agree : left.Agree right id other) :
    right.isError other = left.isError id := by
  obtain ⟨outline, first, second⟩ := agree
  rw [first.isError, second.isError]

theorem Agree.isInterface (agree : left.Agree right id other) :
    right.isInterface other = left.isInterface id := by
  obtain ⟨outline, first, second⟩ := agree
  rw [first.isInterface, second.isInterface]

theorem Agree.errorPositions (agree : left.Agree right id other) :
    right.errorPositions other = left.errorPositions id := by
  obtain ⟨outline, first, second⟩ := agree
  rw [first.errorPositions, second.errorPositions]

/-- The results of a function type. -/
def funcResults? (table : TypeTable) (id : TypeId) : Option (List TypeId) :=
  match table.get? id with
  | some (.func _ results) => some results
  | _ => none

theorem Answers.funcResults? {traits : TypeTraits} (answers : left.Answers id traits) :
    left.funcResults? id = none := by
  obtain ⟨form, found, isPlain⟩ := answers.plain
  rw [TypeTable.funcResults?, found]
  cases form with
  | func params results => cases isPlain
  | _ => rfl

theorem Agree.funcResults? (agree : left.Agree right id other) :
    Option.Rel (left.AgreeAll right) (left.funcResults? id) (right.funcResults? other) := by
  obtain ⟨outline, first, second⟩ := agree
  cases first with
  | plain answers =>
      cases second with
      | plain answers' =>
          rw [answers.funcResults?, answers'.funcResults?]
          exact .none
  | tuple found parts =>
      cases second with
      | tuple found' parts' =>
          rw [TypeTable.funcResults?, TypeTable.funcResults?, found, found']
          exact .none
  | func found parts =>
      cases second with
      | func found' parts' =>
          rw [TypeTable.funcResults?, TypeTable.funcResults?, found, found']
          exact .some ⟨_, parts, parts'⟩

end TypeTable

/-! ### Symbols, nodes and arenas -/

section

variable (rename : SymbolId → SymbolId) (left right : TypeTable)

structure Symbol.Renames (symbol other : Symbol) : Prop where
  package : other.package = symbol.package
  name : other.name = symbol.name
  receiver : other.receiver = symbol.receiver
  signature : other.signature = symbol.signature
  results : left.AgreeAll right symbol.results other.results

/-- The same symbols, each under its other number. -/
def SymbolTable.Renames (symbols other : SymbolTable) : Prop :=
  ∀ id, Option.Rel (Symbol.Renames left right) (symbols.get? id) (other.get? (rename id))

structure Expr.Renames (expr other : Expr) : Prop where
  kind : other.kind = expr.kind.rename rename
  span : other.span = expr.span
  type : left.Agree right expr.type other.type

structure Variable.Renames (var other : Variable) : Prop where
  name : other.name = var.name
  kind : other.kind = var.kind
  type : left.Agree right var.type other.type
  span : other.span = var.span

structure ResultSlot.Renames (slot other : ResultSlot) : Prop where
  type : left.AgreeAll right [slot.type] [other.type]
  var : other.var = slot.var

structure Function.Renames (function other : Function) : Prop where
  name : other.name = function.name
  symbol : other.symbol = function.symbol.map rename
  parent : other.parent = function.parent
  params : other.params = function.params
  results : List.Forall₂ (ResultSlot.Renames left right) function.results other.results
  body : other.body = function.body
  span : other.span = function.span

/-- Two arenas with the same nodes, up to the numbers of symbols and types. -/
structure Arena.Renames (arena other : Arena) : Prop where
  exprs : List.Forall₂ (Expr.Renames rename left right) arena.exprs.toList other.exprs.toList
  stmts : other.stmts = arena.stmts
  functions : List.Forall₂ (Function.Renames rename left right) arena.functions.toList
    other.functions.toList
  vars : List.Forall₂ (Variable.Renames left right) arena.vars.toList other.vars.toList
  exprLists : other.exprLists = arena.exprLists
  stmtLists : other.stmtLists = arena.stmtLists

end

section

variable {rename : SymbolId → SymbolId} {left right later laterRight : TypeTable}

theorem Symbol.Renames.mono {symbol other : Symbol} (renames : symbol.Renames left right other)
    (one : left.Leads later) (two : right.Leads laterRight) :
    symbol.Renames later laterRight other :=
  { renames with results := renames.results.mono one two }

theorem SymbolTable.Renames.mono {symbols other : SymbolTable}
    (renames : symbols.Renames rename left right other) (one : left.Leads later)
    (two : right.Leads laterRight) : symbols.Renames rename later laterRight other := by
  intro id
  have rel := renames id
  generalize symbols.get? id = found, other.get? (rename id) = found' at rel ⊢
  cases rel with
  | none => exact .none
  | some same => exact .some (same.mono one two)

theorem ResultSlot.Renames.mono {slot other : ResultSlot} (renames : slot.Renames left right other)
    (one : left.Leads later) (two : right.Leads laterRight) :
    slot.Renames later laterRight other :=
  { renames with type := renames.type.mono one two }

theorem Arena.Renames.mono {arena other : Arena} (renames : arena.Renames rename left right other)
    (one : left.Leads later) (two : right.Leads laterRight) :
    arena.Renames rename later laterRight other where
  exprs := renames.exprs.imp fun _ _ same => { same with type := same.type.mono one two }
  stmts := renames.stmts
  functions := renames.functions.imp fun _ _ same =>
    { same with results := same.results.imp fun _ _ slot => slot.mono one two }
  vars := renames.vars.imp fun _ _ same => { same with type := same.type.mono one two }
  exprLists := renames.exprLists
  stmtLists := renames.stmtLists

theorem rel_getElem? {α β : Type} {R : α → β → Prop} {xs : Array α} {ys : Array β}
    (all : List.Forall₂ R xs.toList ys.toList) (index : Nat) :
    Option.Rel R xs[index]? ys[index]? := by
  rw [← Array.getElem?_toList, ← Array.getElem?_toList]
  exact rel_of_forall₂ all index

theorem forall₂_push {α β : Type} {R : α → β → Prop} {xs : Array α} {ys : Array β}
    (all : List.Forall₂ R xs.toList ys.toList) {x : α} {y : β} (last : R x y) :
    List.Forall₂ R (xs.push x).toList (ys.push y).toList := by
  rw [Array.toList_push, Array.toList_push]
  exact List.rel_append all (.cons last .nil)

theorem forall₂_setIfInBounds {α β : Type} {R : α → β → Prop} {xs : Array α} {ys : Array β}
    (all : List.Forall₂ R xs.toList ys.toList) (index : Nat) {x : α} {y : β} (there : R x y) :
    List.Forall₂ R (xs.setIfInBounds index x).toList (ys.setIfInBounds index y).toList := by
  rw [Array.toList_setIfInBounds, Array.toList_setIfInBounds]
  generalize xs.toList = entries, ys.toList = others at all
  induction all generalizing index with
  | nil => exact .nil
  | cons first rest ih =>
      cases index with
      | zero => exact .cons there rest
      | succ index => exact .cons first (ih index)

theorem size_eq_of_forall₂ {α β : Type} {R : α → β → Prop} {xs : Array α} {ys : Array β}
    (all : List.Forall₂ R xs.toList ys.toList) : ys.size = xs.size :=
  all.length_eq.symm

end

theorem agreeAll_of_slots {left right : TypeTable} {slots others : List ResultSlot}
    (same : List.Forall₂ (ResultSlot.Renames left right) slots others) :
    left.AgreeAll right (slots.map (·.type)) (others.map (·.type)) := by
  induction same with
  | nil => exact ⟨[], .nil, .nil⟩
  | cons first _ ih =>
      obtain ⟨traits, here, there⟩ := first.type
      obtain ⟨rest, before, after⟩ := ih
      cases here with
      | cons answers nothing =>
          cases nothing
          cases there with
          | cons otherAnswers nothing =>
              exact ⟨_ :: rest, .cons answers before, .cons otherAnswers after⟩

theorem calledSymbol?_rename (rename : SymbolId → SymbolId) (kind : ExprKind) :
    TreeBuilder.calledSymbol? (kind.rename rename) =
      (TreeBuilder.calledSymbol? kind).map rename := by
  cases kind with
  | ident name binding => cases binding <;> rfl
  | _ => rfl

/-! ### Adding nodes -/

namespace TreeBuilder

/-- Two trees in step, with the symbol tables that go with them. -/
structure Renames (rename : SymbolId → SymbolId) (symbols others : SymbolTable)
    (builder other : TreeBuilder) : Prop where
  ordered : builder.types.Ordered
  otherOrdered : other.types.Ordered
  symbols : symbols.Renames rename builder.types other.types others
  arena : builder.arena.Renames rename builder.types other.types other.arena

/-- One step of each tree: the new nodes have the same number, and the trees stay in step. -/
structure Steps (rename : SymbolId → SymbolId) (symbols others : SymbolTable)
    (builder other : TreeBuilder) {α : Type} (result result' : α × TreeBuilder) : Prop where
  same : result'.1 = result.1
  renames : Renames rename symbols others result.2 result'.2
  precedes : builder.types.Precedes result.2.types
  otherPrecedes : other.types.Precedes result'.2.types

variable {rename : SymbolId → SymbolId} {symbols others : SymbolTable}
  {builder other : TreeBuilder}

theorem Steps.after {α β : Type} {first first' : α × TreeBuilder} {second second' : β × TreeBuilder}
    (before : Steps rename symbols others builder other first first')
    (then_ : Steps rename symbols others first.2 first'.2 second second') :
    Steps rename symbols others builder other second second' :=
  ⟨then_.same, then_.renames, before.precedes.trans then_.precedes,
    before.otherPrecedes.trans then_.otherPrecedes⟩

namespace Renames

variable (renames : Renames rename symbols others builder other)

include renames

theorem agree_invalid : builder.types.Agree other.types .invalid .invalid :=
  TypeTable.agree_invalid renames.ordered renames.otherOrdered

/-- A step that only adds to the arena. -/
theorem withArena {α : Type} {value : α} {arena otherArena : Arena}
    (kept : arena.Renames rename builder.types other.types otherArena) :
    Steps rename symbols others builder other (value, { builder with arena })
      (value, { other with arena := otherArena }) :=
  ⟨rfl, ⟨renames.ordered, renames.otherOrdered, renames.symbols, kept⟩, .refl _, .refl _⟩

/-- A step that only adds types. -/
theorem withTypes {α : Type} {value : α} {types otherTypes : TypeTable} (ordered : types.Ordered)
    (otherOrdered : otherTypes.Ordered) (precedes : builder.types.Precedes types)
    (otherPrecedes : other.types.Precedes otherTypes) :
    Steps rename symbols others builder other (value, { builder with types })
      (value, { other with types := otherTypes }) := by
  have one : builder.types.Leads types := ⟨renames.ordered, precedes⟩
  have two : other.types.Leads otherTypes := ⟨renames.otherOrdered, otherPrecedes⟩
  exact ⟨rfl, ⟨ordered, otherOrdered, renames.symbols.mono one two, renames.arena.mono one two⟩,
    precedes, otherPrecedes⟩

theorem expr {kind kind' : ExprKind} {type type' : TypeId} (span : Span)
    (same : kind' = kind.rename rename) (agree : builder.types.Agree other.types type type') :
    Steps rename symbols others builder other (builder.expr kind type span)
      (other.expr kind' type' span) := by
  have number : (⟨other.arena.exprs.size⟩ : ExprId) = ⟨builder.arena.exprs.size⟩ :=
    congrArg ExprId.mk (size_eq_of_forall₂ renames.arena.exprs)
  unfold TreeBuilder.expr Arena.addExpr
  rw [number]
  exact renames.withArena { renames.arena with
    exprs := forall₂_push renames.arena.exprs ⟨same, rfl, agree⟩ }

theorem stmt (kind : StmtKind) (span : Span) :
    Steps rename symbols others builder other (builder.stmt kind span) (other.stmt kind span) := by
  unfold TreeBuilder.stmt Arena.addStmt
  rw [renames.arena.stmts]
  exact renames.withArena { renames.arena with stmts := rfl }

theorem exprList (ids : List ExprId) :
    Steps rename symbols others builder other (builder.exprList ids) (other.exprList ids) := by
  unfold TreeBuilder.exprList Arena.addExprList
  rw [renames.arena.exprLists]
  exact renames.withArena { renames.arena with exprLists := rfl }

theorem stmtList (ids : List StmtId) :
    Steps rename symbols others builder other (builder.stmtList ids) (other.stmtList ids) := by
  unfold TreeBuilder.stmtList Arena.addStmtList
  rw [renames.arena.stmtLists]
  exact renames.withArena { renames.arena with stmtLists := rfl }

theorem var {info info' : Variable} (same : info.Renames builder.types other.types info') :
    Steps rename symbols others builder other (builder.var info) (other.var info') := by
  have number : (⟨other.arena.vars.size⟩ : VarId) = ⟨builder.arena.vars.size⟩ :=
    congrArg VarId.mk (size_eq_of_forall₂ renames.arena.vars)
  unfold TreeBuilder.var Arena.addVar
  rw [number]
  exact renames.withArena { renames.arena with vars := forall₂_push renames.arena.vars same }

theorem function {info info' : Function}
    (same : info.Renames rename builder.types other.types info') :
    Steps rename symbols others builder other (builder.function info) (other.function info') := by
  have number : (⟨other.arena.functions.size⟩ : FuncId) = ⟨builder.arena.functions.size⟩ :=
    congrArg FuncId.mk (size_eq_of_forall₂ renames.arena.functions)
  unfold TreeBuilder.function Arena.addFunction
  rw [number]
  exact renames.withArena { renames.arena with
    functions := forall₂_push renames.arena.functions same }

/-! ### Statements from their parts -/

theorem stmtOfExprs (ids : List ExprId) (kind : IdRange → StmtKind) (span : Span) :
    Steps rename symbols others builder other
      ((builder.exprList ids).2.stmt (kind (builder.exprList ids).1) span)
      ((other.exprList ids).2.stmt (kind (other.exprList ids).1) span) := by
  have listed := renames.exprList ids
  rw [listed.same]
  exact listed.after (listed.renames.stmt _ span)

theorem stmtOfStmts (ids : List StmtId) (kind : IdRange → StmtKind) (span : Span) :
    Steps rename symbols others builder other
      ((builder.stmtList ids).2.stmt (kind (builder.stmtList ids).1) span)
      ((other.stmtList ids).2.stmt (kind (other.stmtList ids).1) span) := by
  have listed := renames.stmtList ids
  rw [listed.same]
  exact listed.after (listed.renames.stmt _ span)

/-- An assignment or a declaration. -/
theorem stmtOfPairs (targets values : List ExprId) (kind : IdRange → IdRange → StmtKind)
    (span : Span) :
    let first := builder.exprList targets
    let first' := other.exprList targets
    Steps rename symbols others builder other
      ((first.2.exprList values).2.stmt (kind first.1 (first.2.exprList values).1) span)
      ((first'.2.exprList values).2.stmt (kind first'.1 (first'.2.exprList values).1) span) := by
  have listed := renames.exprList targets
  intro first first'
  rw [show first'.1 = first.1 from listed.same]
  exact listed.after (listed.renames.stmtOfExprs values (kind first.1) span)

/-- The function is there in both trees or in neither, and gets the same body. -/
theorem setBody (func : FuncId) (body : List StmtId) :
    Steps rename symbols others builder other ((), (builder.setBody? func body).getD builder)
      ((), (other.setBody? func body).getD other) := by
  have listed := renames.stmtList body
  have range : (other.arena.addStmtList body).1 = (builder.arena.addStmtList body).1 := listed.same
  have rel : Option.Rel (Function.Renames rename builder.types other.types)
      ((builder.arena.addStmtList body).2.function? func)
      ((other.arena.addStmtList body).2.function? func) :=
    rel_getElem? renames.arena.functions func.index
  simp only [TreeBuilder.setBody?, Arena.setBody?]
  cases found : (builder.arena.addStmtList body).2.function? func <;>
    cases found' : (other.arena.addStmtList body).2.function? func <;>
    rw [found, found'] at rel <;> cases rel
  · exact renames.withArena renames.arena
  · rename_i info info' same
    refine renames.withArena { listed.renames.arena with functions := ?_ }
    rw [range]
    exact forall₂_setIfInBounds renames.arena.functions func.index { same with body := rfl }

/-! ### Expressions from their parts -/

theorem varRef (var : VarId) (span : Span) :
    Steps rename symbols others builder other (builder.varRef var span)
      (other.varRef var span) := by
  have rel : Option.Rel (Variable.Renames builder.types other.types)
      (builder.arena.var? var) (other.arena.var? var) :=
    rel_getElem? renames.arena.vars var.index
  unfold TreeBuilder.varRef
  cases found : builder.arena.var? var <;> cases found' : other.arena.var? var <;>
    rw [found, found'] at rel <;> cases rel
  · exact renames.expr span rfl renames.agree_invalid
  · rename_i info info' same
    exact renames.expr span (congrArg (ExprKind.ident · (.var var)) same.name) same.type

theorem funcType {results results' : List TypeId}
    (agree : builder.types.AgreeAll other.types results results') :
    let entered := builder.funcType results
    let entered' := other.funcType results'
    Steps rename symbols others builder other ((), entered.2) ((), entered'.2) ∧
      entered.2.types.Agree entered'.2.types entered.1 entered'.1 := by
  obtain ⟨traits, first, second⟩ := agree
  have one : builder.types.Enters (builder.types.enter (.func [] results)) :=
    renames.ordered.enter (TypeTable.lt_size_of_answers first)
  have two : other.types.Enters (other.types.enter (.func [] results')) :=
    renames.otherOrdered.enter (TypeTable.lt_size_of_answers second)
  refine ⟨?_, .func traits, renames.ordered.outlines_func first,
    renames.otherOrdered.outlines_func second⟩
  exact renames.withTypes one.ordered two.ordered (TypeTable.precedes_enter _ _)
    (TypeTable.precedes_enter _ _)

theorem resultsType {results results' : List TypeId}
    (agree : builder.types.AgreeAll other.types results results') :
    let entered := builder.types.resultsType results
    let entered' := other.types.resultsType results'
    Steps rename symbols others builder other ((), { builder with types := entered.2 })
      ((), { other with types := entered'.2 }) ∧
      entered.2.Agree entered'.2 entered.1 entered'.1 := by
  obtain ⟨traits, first, second⟩ := agree
  have one := renames.ordered.resultsType (TypeTable.lt_size_of_answers first)
  have two := renames.otherOrdered.resultsType (TypeTable.lt_size_of_answers second)
  refine ⟨?_, .ofResults traits, renames.ordered.outlines_resultsType first,
    renames.otherOrdered.outlines_resultsType second⟩
  exact renames.withTypes one.ordered two.ordered (TypeTable.precedes_resultsType _ _)
    (TypeTable.precedes_resultsType _ _)

/-- The name and the type of a symbol, and of the symbol that stands for it. -/
theorem symbolType (symbol : SymbolId) :
    let found := builder.symbolType symbols symbol
    let found' := other.symbolType others (rename symbol)
    found'.1 = found.1 ∧
      Steps rename symbols others builder other ((), found.2.2) ((), found'.2.2) ∧
      found.2.2.types.Agree found'.2.2.types found.2.1 found'.2.1 := by
  have rel := renames.symbols symbol
  unfold TreeBuilder.symbolType
  cases known : symbols.get? symbol <;> cases known' : others.get? (rename symbol) <;>
    rw [known, known'] at rel <;> cases rel
  · exact ⟨rfl, renames.funcType ⟨[], .nil, .nil⟩⟩
  · rename_i info info' same
    exact ⟨same.name, renames.funcType same.results⟩

theorem funcRef (symbol : SymbolId) (span : Span) :
    Steps rename symbols others builder other (builder.funcRef symbols symbol span)
      (other.funcRef others (rename symbol) span) := by
  obtain ⟨name, steps, agree⟩ := renames.symbolType symbol
  exact steps.after (steps.renames.expr span (congrArg (ExprKind.ident · _) name) agree)

theorem select (base : ExprId) (symbol : SymbolId) (span : Span) :
    Steps rename symbols others builder other (builder.select symbols base symbol span)
      (other.select others base (rename symbol) span) := by
  obtain ⟨name, steps, agree⟩ := renames.symbolType symbol
  exact steps.after (steps.renames.expr span (congrArg (ExprKind.selector base · _) name) agree)

theorem callTyped (callee : ExprId) (args : List ExprId) {type type' : TypeId} (span : Span)
    (agree : builder.types.Agree other.types type type') :
    Steps rename symbols others builder other (builder.callTyped callee args type span)
      (other.callTyped callee args type' span) := by
  have listed := renames.exprList args
  exact listed.after (listed.renames.expr span (congrArg (ExprKind.call callee) listed.same) agree)

theorem otherExpr (operands : List ExprId) {type type' : TypeId} (span : Span)
    (agree : builder.types.Agree other.types type type') :
    Steps rename symbols others builder other (builder.other operands type span)
      (other.other operands type' span) := by
  have listed := renames.exprList operands
  exact listed.after (listed.renames.expr span (congrArg ExprKind.other listed.same) agree)

/-- What is called has the same results, by its symbol or by its type. -/
theorem calledResults? {callee callee' : Expr}
    (same : callee.Renames rename builder.types other.types callee') :
    Option.Rel (builder.types.AgreeAll other.types)
      (TreeBuilder.calledResults? builder.types symbols callee)
      (TreeBuilder.calledResults? other.types others callee') := by
  have byType := same.type.funcResults?
  have bySymbol : Option.Rel (Symbol.Renames builder.types other.types)
      ((calledSymbol? callee.kind).bind symbols.get?)
      ((calledSymbol? callee'.kind).bind others.get?) := by
    rw [same.kind, calledSymbol?_rename]
    cases calledSymbol? callee.kind with
    | none => exact .none
    | some id => exact renames.symbols id
  unfold TreeBuilder.calledResults?
  cases found : (calledSymbol? callee.kind).bind symbols.get? <;>
    cases found' : (calledSymbol? callee'.kind).bind others.get? <;>
    rw [found, found'] at bySymbol <;> cases bySymbol
  · exact byType
  · rename_i known
    exact .some known.results

theorem call (callee : ExprId) (args : List ExprId) (span : Span) :
    Steps rename symbols others builder other
      ((builder.call? symbols callee args span).getD (builder.callTyped callee args .invalid span))
      ((other.call? others callee args span).getD (other.callTyped callee args .invalid span)) := by
  have rel : Option.Rel (Expr.Renames rename builder.types other.types)
      (builder.arena.expr? callee) (other.arena.expr? callee) :=
    rel_getElem? renames.arena.exprs callee.index
  unfold TreeBuilder.call?
  cases found : builder.arena.expr? callee <;> cases found' : other.arena.expr? callee <;>
    rw [found, found'] at rel <;> cases rel
  · exact renames.callTyped callee args span renames.agree_invalid
  · rename_i target target' same
    have results := renames.calledResults? same
    simp only [Option.bind_eq_bind, Option.bind_some, Option.pure_def, Option.getD_some]
    cases known : TreeBuilder.calledResults? builder.types symbols target <;>
      cases known' : TreeBuilder.calledResults? other.types others target' <;>
      rw [known, known'] at results <;> cases results
    · exact renames.callTyped callee args span renames.agree_invalid
    · rename_i agree
      obtain ⟨steps, type⟩ := renames.resultsType agree
      exact steps.after (steps.renames.callTyped callee args span type)

theorem funcLit (func : FuncId) (span : Span) :
    Steps rename symbols others builder other
      ((builder.funcLit? func span).getD (builder.expr (.funcLit func) .invalid span))
      ((other.funcLit? func span).getD (other.expr (.funcLit func) .invalid span)) := by
  have rel : Option.Rel (Function.Renames rename builder.types other.types)
      (builder.arena.function? func) (other.arena.function? func) :=
    rel_getElem? renames.arena.functions func.index
  unfold TreeBuilder.funcLit?
  cases found : builder.arena.function? func <;> cases found' : other.arena.function? func <;>
    rw [found, found'] at rel <;> cases rel
  · exact renames.expr span rfl renames.agree_invalid
  · rename_i function function' same
    obtain ⟨steps, type⟩ := renames.funcType (agreeAll_of_slots same.results)
    exact steps.after (steps.renames.expr span rfl type)

end Renames

end TreeBuilder

end ErrorWrapping
