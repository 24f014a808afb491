import ErrorWrapping.Proofs.Forests
import ErrorWrapping.Proofs.TypeTables

/-
References within their tables.

An extent says how many entries each table has. A node is within an extent when all identifiers
and ranges in it are; what is within an extent stays within it as the tables grow. Building a node
from parts that are there keeps the arena grounded: whatever it stores is there as well, and the
children of a node come before the node.
-/

namespace ErrorWrapping

/-- How many entries each table has. -/
structure Extent where
  exprs : Nat
  stmts : Nat
  functions : Nat
  vars : Nat
  exprLists : Nat
  stmtLists : Nat
  symbols : Nat
  types : Nat

structure Extent.Grows (before after : Extent) : Prop where
  exprs : before.exprs ≤ after.exprs
  stmts : before.stmts ≤ after.stmts
  functions : before.functions ≤ after.functions
  vars : before.vars ≤ after.vars
  exprLists : before.exprLists ≤ after.exprLists
  stmtLists : before.stmtLists ≤ after.stmtLists
  symbols : before.symbols ≤ after.symbols
  types : before.types ≤ after.types

theorem Extent.Grows.refl (extent : Extent) : extent.Grows extent := by
  constructor <;> exact Nat.le_refl _

theorem Extent.Grows.trans {first second third : Extent} (grows : first.Grows second)
    (further : second.Grows third) : first.Grows third where
  exprs := Nat.le_trans grows.exprs further.exprs
  stmts := Nat.le_trans grows.stmts further.stmts
  functions := Nat.le_trans grows.functions further.functions
  vars := Nat.le_trans grows.vars further.vars
  exprLists := Nat.le_trans grows.exprLists further.exprLists
  stmtLists := Nat.le_trans grows.stmtLists further.stmtLists
  symbols := Nat.le_trans grows.symbols further.symbols
  types := Nat.le_trans grows.types further.types

/-- Without the expressions from this one on. -/
def Extent.beforeExpr (extent : Extent) (id : ExprId) : Extent :=
  { extent with exprs := id.index }

/-- Without the statements from this one on. -/
def Extent.beforeStmt (extent : Extent) (id : StmtId) : Extent :=
  { extent with stmts := id.index }

theorem Extent.Grows.beforeExpr {before after : Extent} (grows : before.Grows after)
    (id : ExprId) : (before.beforeExpr id).Grows (after.beforeExpr id) :=
  { grows with exprs := Nat.le_refl _ }

theorem Extent.Grows.beforeStmt {before after : Extent} (grows : before.Grows after)
    (id : StmtId) : (before.beforeStmt id).Grows (after.beforeStmt id) :=
  { grows with stmts := Nat.le_refl _ }

/-- Data that refers to entries of tables. -/
class Located (α : Type) where
  /-- Every reference is to an entry that is there. -/
  Within : Extent → α → Prop
  mono : ∀ {before after : Extent} {entry : α}, before.Grows after →
    Within before entry → Within after entry

export Located (Within)

/-! ### Identifiers and lists of them -/

instance : Located ExprId where
  Within extent id := id.index < extent.exprs
  mono grows within := Nat.lt_of_lt_of_le within grows.exprs

instance : Located StmtId where
  Within extent id := id.index < extent.stmts
  mono grows within := Nat.lt_of_lt_of_le within grows.stmts

instance : Located FuncId where
  Within extent id := id.index < extent.functions
  mono grows within := Nat.lt_of_lt_of_le within grows.functions

instance : Located VarId where
  Within extent id := id.index < extent.vars
  mono grows within := Nat.lt_of_lt_of_le within grows.vars

instance : Located SymbolId where
  Within extent id := id.index < extent.symbols
  mono grows within := Nat.lt_of_lt_of_le within grows.symbols

instance : Located TypeId where
  Within extent id := id.index < extent.types
  mono grows within := Nat.lt_of_lt_of_le within grows.types

/-- Files belong to the program and not to a unit. -/
instance : Located FileId where
  Within _ _ := True
  mono _ within := within

instance : Located Unit where
  Within _ _ := True
  mono _ within := within

instance {α : Type} [Located α] : Located (Option α) where
  Within extent entry := ∀ value ∈ entry, Within extent value
  mono grows within value member := Located.mono grows (within value member)

instance {α : Type} [Located α] : Located (List α) where
  Within extent entries := ∀ entry ∈ entries, Within extent entry
  mono grows within entry member := Located.mono grows (within entry member)

instance {α β : Type} [Located α] [Located β] : Located (α × β) where
  Within extent pair := Within extent pair.1 ∧ Within extent pair.2
  mono grows within := ⟨Located.mono grows within.1, Located.mono grows within.2⟩

theorem within_some {α : Type} [Located α] {extent : Extent} {value : α}
    (within : Within extent value) : Within extent (some value) := by
  intro other member
  cases member
  exact within

theorem within_cons {α : Type} [Located α] {extent : Extent} {entry : α} {rest : List α}
    (within : Within extent entry) (later : Within extent rest) : Within extent (entry :: rest) :=
  List.forall_mem_cons.mpr ⟨within, later⟩

/-! ### Nodes -/

instance : Located Binding where
  Within extent
    | .var id => Within extent id
    | .func id => Within extent id
    | .package _ => True
    | .unresolved => True
  mono {before after binding} grows within := by
    cases binding with
    | var id => exact Located.mono grows within
    | func id => exact Located.mono grows within
    | package path => trivial
    | unresolved => trivial

instance : Located ExprKind where
  Within extent
    | .ident _ binding => Within extent binding
    | .selector base _ symbol => Within extent base ∧ Within extent symbol
    | .call callee args => Within extent callee ∧ args.stop ≤ extent.exprLists
    | .funcLit func => Within extent func
    | .nil => True
    | .literal => True
    | .other operands => operands.stop ≤ extent.exprLists
  mono {before after kind} grows within := by
    cases kind with
    | ident name binding => exact Located.mono grows within
    | selector base field symbol =>
        exact ⟨Located.mono grows within.1, Located.mono grows within.2⟩
    | call callee args =>
        exact ⟨Located.mono grows within.1, Nat.le_trans within.2 grows.exprLists⟩
    | funcLit func => exact Located.mono grows within
    | nil => trivial
    | literal => trivial
    | other operands => exact Nat.le_trans within grows.exprLists

instance : Located StmtKind where
  Within extent
    | .assign _ targets values =>
      targets.stop ≤ extent.exprLists ∧ values.stop ≤ extent.exprLists
    | .varDecl names values => names.stop ≤ extent.exprLists ∧ values.stop ≤ extent.exprLists
    | .ret results => results.stop ≤ extent.exprLists
    | .expr expr => Within extent expr
    | .block body => body.stop ≤ extent.stmtLists
    | .cond init test body otherwise =>
      Within extent init ∧ Within extent test ∧ body.stop ≤ extent.stmtLists ∧
        Within extent otherwise
    | .loop init body => Within extent init ∧ body.stop ≤ extent.stmtLists
    | .switch init tag cases =>
      Within extent init ∧ Within extent tag ∧ cases.stop ≤ extent.stmtLists
  mono {before after kind} grows within := by
    cases kind with
    | assign op targets values =>
        exact ⟨Nat.le_trans within.1 grows.exprLists, Nat.le_trans within.2 grows.exprLists⟩
    | varDecl names values =>
        exact ⟨Nat.le_trans within.1 grows.exprLists, Nat.le_trans within.2 grows.exprLists⟩
    | ret results => exact Nat.le_trans within grows.exprLists
    | expr expr => exact Located.mono grows within
    | block body => exact Nat.le_trans within grows.stmtLists
    | cond init test body otherwise =>
        obtain ⟨init, test, body, otherwise⟩ := within
        exact ⟨Located.mono grows init, Located.mono grows test,
          Nat.le_trans body grows.stmtLists, Located.mono grows otherwise⟩
    | loop init body =>
        exact ⟨Located.mono grows within.1, Nat.le_trans within.2 grows.stmtLists⟩
    | switch init tag cases =>
        obtain ⟨init, tag, cases⟩ := within
        exact ⟨Located.mono grows init, Located.mono grows tag,
          Nat.le_trans cases grows.stmtLists⟩

instance : Located Expr where
  Within extent expr := Within extent expr.kind ∧ Within extent expr.type
  mono grows within := ⟨Located.mono grows within.1, Located.mono grows within.2⟩

instance : Located ResultSlot where
  Within extent slot := Within extent slot.type ∧ Within extent slot.var
  mono grows within := ⟨Located.mono grows within.1, Located.mono grows within.2⟩

/-- What a function refers to. -/
structure Function.Refers (extent : Extent) (function : Function) : Prop where
  symbol : Within extent function.symbol
  parent : Within extent function.parent
  params : Within extent function.params
  results : Within extent function.results
  body : ∀ range ∈ function.body, range.stop ≤ extent.stmtLists

instance : Located Function where
  Within := Function.Refers
  mono grows within :=
    { symbol := Located.mono grows within.symbol
      parent := Located.mono grows within.parent
      params := Located.mono grows within.params
      results := Located.mono grows within.results
      body := fun range member => Nat.le_trans (within.body range member) grows.stmtLists }

instance : Located Variable where
  Within extent var := Within extent var.type
  mono grows within := Nat.lt_of_lt_of_le within grows.types

/-! ### Arenas -/

namespace Arena

/-- The extent of an arena beside tables of this many symbols and types. -/
def extent (arena : Arena) (symbols types : Nat) : Extent where
  exprs := arena.exprs.size
  stmts := arena.stmts.size
  functions := arena.functions.size
  vars := arena.vars.size
  exprLists := arena.exprLists.size
  stmtLists := arena.stmtLists.size
  symbols := symbols
  types := types

/-- Everything an arena stores is there, and nodes refer to earlier nodes of their kind. -/
structure Grounded (arena : Arena) (symbols types : Nat) : Prop where
  exprs : ∀ (id : ExprId) (expr : Expr), arena.expr? id = some expr →
    Within ((arena.extent symbols types).beforeExpr id) expr
  stmts : ∀ (id : StmtId) (stmt : Stmt), arena.stmt? id = some stmt →
    Within ((arena.extent symbols types).beforeStmt id) stmt.kind
  functions : ∀ (id : FuncId) (function : Function), arena.function? id = some function →
    Within (arena.extent symbols types) function
  vars : ∀ (id : VarId) (var : Variable), arena.var? id = some var →
    Within (arena.extent symbols types) var
  exprLists : ∀ id ∈ arena.exprLists, Within (arena.extent symbols types) id
  stmtLists : ∀ id ∈ arena.stmtLists, Within (arena.extent symbols types) id

variable {arena after : Arena} {symbols types : Nat}

theorem grounded_empty : empty.Grounded symbols types := by
  constructor <;> simp [empty, expr?, stmt?, function?, var?]

/-- What is kept stays grounded in a greater extent, so only what is new has to be checked. -/
theorem Grounded.extend {more : Nat} (grounded : arena.Grounded symbols types)
    (grows : (arena.extent symbols types).Grows (after.extent symbols more))
    (exprs : ∀ id expr, after.expr? id = some expr → arena.expr? id = some expr ∨
      Within ((after.extent symbols more).beforeExpr id) expr)
    (stmts : ∀ id stmt, after.stmt? id = some stmt → arena.stmt? id = some stmt ∨
      Within ((after.extent symbols more).beforeStmt id) stmt.kind)
    (functions : ∀ id function, after.function? id = some function →
      arena.function? id = some function ∨ Within (after.extent symbols more) function)
    (vars : ∀ id var, after.var? id = some var → arena.var? id = some var ∨
      Within (after.extent symbols more) var)
    (exprLists : ∀ id ∈ after.exprLists, id ∈ arena.exprLists ∨
      Within (after.extent symbols more) id)
    (stmtLists : ∀ id ∈ after.stmtLists, id ∈ arena.stmtLists ∨
      Within (after.extent symbols more) id) : after.Grounded symbols more where
  exprs id expr found := (exprs id expr found).elim
    (fun kept => Located.mono (grows.beforeExpr id) (grounded.exprs id expr kept))
    fun within => within
  stmts id stmt found := (stmts id stmt found).elim
    (fun kept => Located.mono (grows.beforeStmt id) (grounded.stmts id stmt kept))
    fun within => within
  functions id function found := (functions id function found).elim
    (fun kept => Located.mono grows (grounded.functions id function kept)) fun within => within
  vars id var found := (vars id var found).elim
    (fun kept => Located.mono grows (grounded.vars id var kept)) fun within => within
  exprLists id member := (exprLists id member).elim
    (fun kept => Located.mono grows (grounded.exprLists id kept)) fun within => within
  stmtLists id member := (stmtLists id member).elim
    (fun kept => Located.mono grows (grounded.stmtLists id kept)) fun within => within

theorem grows_addExpr (arena : Arena) (expr : Expr) (symbols types : Nat) :
    (arena.extent symbols types).Grows ((arena.addExpr expr).2.extent symbols types) :=
  { Extent.Grows.refl _ with exprs := by simp [extent, addExpr] }

theorem grows_addStmt (arena : Arena) (stmt : Stmt) (symbols types : Nat) :
    (arena.extent symbols types).Grows ((arena.addStmt stmt).2.extent symbols types) :=
  { Extent.Grows.refl _ with stmts := by simp [extent, addStmt] }

theorem grows_addFunction (arena : Arena) (function : Function) (symbols types : Nat) :
    (arena.extent symbols types).Grows ((arena.addFunction function).2.extent symbols types) :=
  { Extent.Grows.refl _ with functions := by simp [extent, addFunction] }

theorem grows_addVar (arena : Arena) (var : Variable) (symbols types : Nat) :
    (arena.extent symbols types).Grows ((arena.addVar var).2.extent symbols types) :=
  { Extent.Grows.refl _ with vars := by simp [extent, addVar] }

theorem grows_addExprList (arena : Arena) (ids : List ExprId) (symbols types : Nat) :
    (arena.extent symbols types).Grows ((arena.addExprList ids).2.extent symbols types) :=
  { Extent.Grows.refl _ with exprLists := by simp [extent, addExprList] }

theorem grows_addStmtList (arena : Arena) (ids : List StmtId) (symbols types : Nat) :
    (arena.extent symbols types).Grows ((arena.addStmtList ids).2.extent symbols types) :=
  { Extent.Grows.refl _ with stmtLists := by simp [extent, addStmtList] }

theorem stop_addExprList (arena : Arena) (ids : List ExprId) :
    (arena.addExprList ids).1.stop = (arena.addExprList ids).2.exprLists.size := by
  simp [addExprList, IdRange.stop]

theorem stop_addStmtList (arena : Arena) (ids : List StmtId) :
    (arena.addStmtList ids).1.stop = (arena.addStmtList ids).2.stmtLists.size := by
  simp [addStmtList, IdRange.stop]

theorem getElem?_push_cases {α : Type} {entries : Array α} {entry added : α} {position : Nat}
    (found : (entries.push added)[position]? = some entry) :
    entries[position]? = some entry ∨ (position = entries.size ∧ entry = added) := by
  rw [Array.getElem?_push] at found
  split at found
  · rename_i atEnd
    exact Or.inr ⟨atEnd, (Option.some.inj found).symm⟩
  · exact Or.inl found

theorem Grounded.addExpr (grounded : arena.Grounded symbols types) {expr : Expr}
    (within : Within (arena.extent symbols types) expr) :
    (arena.addExpr expr).2.Grounded symbols types := by
  refine grounded.extend (grows_addExpr arena expr symbols types) (fun id other found => ?_)
    (fun _ _ => .inl) (fun _ _ => .inl) (fun _ _ => .inl) (fun _ => .inl) (fun _ => .inl)
  refine (getElem?_push_cases found).imp_right fun atEnd => ?_
  obtain ⟨index⟩ := id
  obtain ⟨rfl, rfl⟩ := atEnd
  exact within

theorem Grounded.addStmt (grounded : arena.Grounded symbols types) {stmt : Stmt}
    (within : Within (arena.extent symbols types) stmt.kind) :
    (arena.addStmt stmt).2.Grounded symbols types := by
  refine grounded.extend (grows_addStmt arena stmt symbols types) (fun _ _ => .inl)
    (fun id other found => ?_) (fun _ _ => .inl) (fun _ _ => .inl) (fun _ => .inl) (fun _ => .inl)
  refine (getElem?_push_cases found).imp_right fun atEnd => ?_
  obtain ⟨index⟩ := id
  obtain ⟨rfl, rfl⟩ := atEnd
  exact within

theorem Grounded.addFunction (grounded : arena.Grounded symbols types) {function : Function}
    (within : Within (arena.extent symbols types) function) :
    (arena.addFunction function).2.Grounded symbols types := by
  have grows := grows_addFunction arena function symbols types
  refine grounded.extend grows (fun _ _ => .inl) (fun _ _ => .inl) (fun id other found => ?_)
    (fun _ _ => .inl) (fun _ => .inl) (fun _ => .inl)
  refine (getElem?_push_cases found).imp_right fun atEnd => ?_
  rw [atEnd.2]
  exact Located.mono grows within

theorem Grounded.addVar (grounded : arena.Grounded symbols types) {var : Variable}
    (within : Within (arena.extent symbols types) var) :
    (arena.addVar var).2.Grounded symbols types := by
  have grows := grows_addVar arena var symbols types
  refine grounded.extend grows (fun _ _ => .inl) (fun _ _ => .inl) (fun _ _ => .inl)
    (fun id other found => ?_) (fun _ => .inl) (fun _ => .inl)
  refine (getElem?_push_cases found).imp_right fun atEnd => ?_
  rw [atEnd.2]
  exact Located.mono grows within

theorem Grounded.addExprList (grounded : arena.Grounded symbols types) {ids : List ExprId}
    (within : Within (arena.extent symbols types) ids) :
    (arena.addExprList ids).2.Grounded symbols types := by
  refine grounded.extend (grows_addExprList arena ids symbols types) (fun _ _ => .inl)
    (fun _ _ => .inl) (fun _ _ => .inl) (fun _ _ => .inl) (fun id member => ?_) (fun _ => .inl)
  refine (Array.mem_append.mp member).imp_right fun added => ?_
  exact within id (List.mem_toArray.mp added)

theorem Grounded.addStmtList (grounded : arena.Grounded symbols types) {ids : List StmtId}
    (within : Within (arena.extent symbols types) ids) :
    (arena.addStmtList ids).2.Grounded symbols types := by
  refine grounded.extend (grows_addStmtList arena ids symbols types) (fun _ _ => .inl)
    (fun _ _ => .inl) (fun _ _ => .inl) (fun _ _ => .inl) (fun _ => .inl) (fun id member => ?_)
  refine (Array.mem_append.mp member).imp_right fun added => ?_
  exact within id (List.mem_toArray.mp added)

/-- A function that is there gets its body. -/
theorem Grounded.setBody? (grounded : arena.Grounded symbols types) {func : FuncId}
    {body : List StmtId} (inside : Within (arena.extent symbols types) func)
    (within : Within (arena.extent symbols types) body) :
    ∃ after, arena.setBody? func body = some after ∧ after.Grounded symbols types ∧
      (arena.extent symbols types).Grows (after.extent symbols types) := by
  have known : arena.function? func = some arena.functions[func.index] :=
    Array.getElem?_eq_getElem inside
  have grows : (arena.extent symbols types).Grows
      { (arena.addStmtList body).2.extent symbols types with
        functions := (arena.functions.setIfInBounds func.index
          { arena.functions[func.index] with body := some (arena.addStmtList body).1 }).size } :=
    { grows_addStmtList arena body symbols types with
      functions := by rw [Array.size_setIfInBounds]; exact Nat.le_refl _ }
  refine ⟨_, setBody?_of_found known, ?_, grows⟩
  refine grounded.extend grows (fun _ _ => .inl) (fun _ _ => .inl) (fun id function found => ?_)
    (fun _ _ => .inl) (fun _ => .inl) (fun id member => ?_)
  · rw [function?, Array.getElem?_setIfInBounds] at found
    split at found
    · split at found
      · cases found
        have kept := Located.mono grows (grounded.functions func _ known)
        refine Or.inr { kept with body := fun range member => ?_ }
        cases member
        exact Nat.le_of_eq (stop_addStmtList arena body)
      · cases found
    · exact Or.inl found
  · refine (Array.mem_append.mp member).imp_right fun added => ?_
    exact Located.mono grows (within id (List.mem_toArray.mp added))

/-- Types may be added beside an arena. -/
theorem Grounded.mono {more : Nat} (grounded : arena.Grounded symbols types)
    (grows : types ≤ more) : arena.Grounded symbols more :=
  grounded.extend { Extent.Grows.refl (arena.extent symbols types) with types := grows }
    (fun _ _ => .inl) (fun _ _ => .inl) (fun _ _ => .inl) (fun _ _ => .inl) (fun _ => .inl)
    (fun _ => .inl)

end Arena

/-! ### Building nodes -/

namespace TreeBuilder

def extent (builder : TreeBuilder) (symbols : Nat) : Extent :=
  builder.arena.extent symbols builder.types.size

structure Grounded (builder : TreeBuilder) (symbols : Nat) : Prop where
  types : builder.types.Ordered
  arena : builder.arena.Grounded symbols builder.types.size

/-- A step from a grounded tree to a greater one, with a result that is there. -/
structure Adds {α : Type} [Located α] (builder : TreeBuilder) (symbols : Nat)
    (result : α × TreeBuilder) : Prop where
  grounded : result.2.Grounded symbols
  grows : (builder.extent symbols).Grows (result.2.extent symbols)
  within : Within (result.2.extent symbols) result.1

variable {builder next : TreeBuilder} {symbols : Nat}

theorem Adds.after {α : Type} [Located α] {result : α × TreeBuilder}
    (adds : next.Adds symbols result)
    (grows : (builder.extent symbols).Grows (next.extent symbols)) :
    builder.Adds symbols result :=
  ⟨adds.grounded, grows.trans adds.grows, adds.within⟩

theorem Grounded.invalid_within (grounded : builder.Grounded symbols) :
    Within (builder.extent symbols) TypeId.invalid :=
  grounded.types.invalid_lt

theorem Grounded.expr (grounded : builder.Grounded symbols) {kind : ExprKind} {type : TypeId}
    (inside : Within (builder.extent symbols) kind)
    (typed : Within (builder.extent symbols) type) (span : Span) :
    builder.Adds symbols (builder.expr kind type span) := by
  refine ⟨⟨grounded.types, grounded.arena.addExpr ⟨inside, typed⟩⟩,
    builder.arena.grows_addExpr ⟨kind, span, type⟩ symbols _, ?_⟩
  show builder.arena.exprs.size < (builder.arena.exprs.push ⟨kind, span, type⟩).size
  simp

theorem Grounded.stmt (grounded : builder.Grounded symbols) {kind : StmtKind}
    (inside : Within (builder.extent symbols) kind) (span : Span) :
    builder.Adds symbols (builder.stmt kind span) := by
  refine ⟨⟨grounded.types, grounded.arena.addStmt inside⟩,
    builder.arena.grows_addStmt ⟨kind, span⟩ symbols _, ?_⟩
  show builder.arena.stmts.size < (builder.arena.stmts.push ⟨kind, span⟩).size
  simp

theorem Grounded.var (grounded : builder.Grounded symbols) {info : Variable}
    (inside : Within (builder.extent symbols) info) : builder.Adds symbols (builder.var info) := by
  refine ⟨⟨grounded.types, grounded.arena.addVar inside⟩,
    builder.arena.grows_addVar info symbols _, ?_⟩
  show builder.arena.vars.size < (builder.arena.vars.push info).size
  simp

theorem Grounded.function (grounded : builder.Grounded symbols) {info : Function}
    (inside : Within (builder.extent symbols) info) :
    builder.Adds symbols (builder.function info) := by
  refine ⟨⟨grounded.types, grounded.arena.addFunction inside⟩,
    builder.arena.grows_addFunction info symbols _, ?_⟩
  show builder.arena.functions.size < (builder.arena.functions.push info).size
  simp

/-- Entering a type changes nothing in the arena. -/
theorem Grounded.withTypes (grounded : builder.Grounded symbols) {result : TypeId × TypeTable}
    (enters : builder.types.Enters result) :
    builder.Adds symbols (result.1, { builder with types := result.2 }) :=
  ⟨⟨enters.ordered, grounded.arena.mono enters.grows⟩,
    { Extent.Grows.refl (builder.extent symbols) with types := enters.grows }, enters.present⟩

theorem Grounded.exprList (grounded : builder.Grounded symbols) {ids : List ExprId}
    (inside : Within (builder.extent symbols) ids) :
    (builder.exprList ids).2.Grounded symbols ∧
      (builder.extent symbols).Grows ((builder.exprList ids).2.extent symbols) ∧
      (builder.exprList ids).1.stop ≤ ((builder.exprList ids).2.extent symbols).exprLists :=
  ⟨⟨grounded.types, grounded.arena.addExprList inside⟩,
    builder.arena.grows_addExprList ids symbols _,
    Nat.le_of_eq (builder.arena.stop_addExprList ids)⟩

theorem Grounded.stmtList (grounded : builder.Grounded symbols) {ids : List StmtId}
    (inside : Within (builder.extent symbols) ids) :
    (builder.stmtList ids).2.Grounded symbols ∧
      (builder.extent symbols).Grows ((builder.stmtList ids).2.extent symbols) ∧
      (builder.stmtList ids).1.stop ≤ ((builder.stmtList ids).2.extent symbols).stmtLists :=
  ⟨⟨grounded.types, grounded.arena.addStmtList inside⟩,
    builder.arena.grows_addStmtList ids symbols _,
    Nat.le_of_eq (builder.arena.stop_addStmtList ids)⟩

end TreeBuilder

end ErrorWrapping
