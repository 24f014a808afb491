import ErrorWrapping.Proofs.Programs

/-
Reading a unit's tree.

The nodes of a unit refer to each other by number. Following these numbers from the declared
functions and the package-level statements gives trees whose nodes hold their children. Each node
is read by means of a reader for what is below it, so that reading goes as deep as readers are
stacked; once deep enough, deeper reading gives the same. A unit that can be walked can be read
with the same allowance for its height.
-/

namespace ErrorWrapping

/-! ### Trees -/

mutual

/-- An expression with all that is below it. -/
inductive ExprTree where
  | ident (name : String) (binding : Binding) (type : TypeId) (span : Span)
  | selector (base : ExprTree) (field : String) (symbol : Option SymbolId) (type : TypeId)
      (span : Span)
  | call (callee : ExprTree) (args : List ExprTree) (type : TypeId) (span : Span)
  | funcLit (function : FunctionTree) (type : TypeId) (span : Span)
  | nil (type : TypeId) (span : Span)
  | literal (type : TypeId) (span : Span)
  | other (operands : List ExprTree) (type : TypeId) (span : Span)

inductive StmtTree where
  | assign (op : AssignOp) (targets values : List ExprTree) (span : Span)
  | varDecl (names values : List ExprTree) (span : Span)
  | ret (results : List ExprTree) (span : Span)
  | expr (expr : ExprTree) (span : Span)
  | block (body : List StmtTree) (span : Span)
  | cond (init : Option StmtTree) (test : ExprTree) (body : List StmtTree)
      (otherwise : Option StmtTree) (span : Span)
  | loop (init : Option StmtTree) (body : List StmtTree) (span : Span)
  | switch (init : Option StmtTree) (tag : Option ExprTree) (cases : List StmtTree) (span : Span)

/-- A function with its body, if it has one. -/
inductive FunctionTree where
  | mk (name : String) (symbol : Option SymbolId) (params : List VarId)
      (results : List ResultSlot) (body : Option (List StmtTree)) (span : Span)

end

namespace ExprTree

def type : ExprTree → TypeId
  | .ident _ _ type _ => type
  | .selector _ _ _ type _ => type
  | .call _ _ type _ => type
  | .funcLit _ type _ => type
  | .nil type _ => type
  | .literal type _ => type
  | .other _ type _ => type

/-- The symbol that an expression names when it is called. -/
def calledSymbol? : ExprTree → Option SymbolId
  | .ident _ (.func symbol) _ _ => some symbol
  | .selector _ _ symbol _ _ => symbol
  | _ => none

end ExprTree

def FunctionTree.name : FunctionTree → String
  | .mk name _ _ _ _ _ => name

def FunctionTree.results : FunctionTree → List ResultSlot
  | .mk _ _ _ results _ _ => results

/-! ### Readers -/

/-- How to read nodes by number. -/
structure Reader where
  expr : ExprId → Option ExprTree
  stmt : StmtId → Option StmtTree
  function : FuncId → Option FunctionTree

namespace Reader

def bottom : Reader := ⟨fun _ => none, fun _ => none, fun _ => none⟩

def exprs (below : Reader) (arena : Arena) (range : IdRange) : Option (List ExprTree) :=
  (arena.exprList? range).bind fun ids => ids.mapM below.expr

def stmts (below : Reader) (arena : Arena) (range : IdRange) : Option (List StmtTree) :=
  (arena.stmtList? range).bind fun ids => ids.mapM below.stmt

def exprNode (below : Reader) (arena : Arena) (expr : Expr) : Option ExprTree :=
  match expr.kind with
  | .ident name binding => some (.ident name binding expr.type expr.span)
  | .selector base field symbol => do
    return .selector (← below.expr base) field symbol expr.type expr.span
  | .call callee args => do
    return .call (← below.expr callee) (← below.exprs arena args) expr.type expr.span
  | .funcLit func => do return .funcLit (← below.function func) expr.type expr.span
  | .nil => some (.nil expr.type expr.span)
  | .literal => some (.literal expr.type expr.span)
  | .other operands => do return .other (← below.exprs arena operands) expr.type expr.span

def stmtNode (below : Reader) (arena : Arena) (stmt : Stmt) : Option StmtTree :=
  match stmt.kind with
  | .assign op targets values => do
    return .assign op (← below.exprs arena targets) (← below.exprs arena values) stmt.span
  | .varDecl names values => do
    return .varDecl (← below.exprs arena names) (← below.exprs arena values) stmt.span
  | .ret results => do return .ret (← below.exprs arena results) stmt.span
  | .expr expr => do return .expr (← below.expr expr) stmt.span
  | .block body => do return .block (← below.stmts arena body) stmt.span
  | .cond init test body otherwise => do
    return .cond (← init.mapM below.stmt) (← below.expr test) (← below.stmts arena body)
      (← otherwise.mapM below.stmt) stmt.span
  | .loop init body => do
    return .loop (← init.mapM below.stmt) (← below.stmts arena body) stmt.span
  | .switch init tag cases => do
    return .switch (← init.mapM below.stmt) (← tag.mapM below.expr) (← below.stmts arena cases)
      stmt.span

def functionNode (below : Reader) (arena : Arena) (function : Function) :
    Option FunctionTree := do
  return .mk function.name function.symbol function.params function.results
    (← function.body.mapM (below.stmts arena)) function.span

/-- Reads one node, and what is below it by means of another reader. -/
def onto (below : Reader) (arena : Arena) : Reader where
  expr id := (arena.expr? id).bind (below.exprNode arena)
  stmt id := (arena.stmt? id).bind (below.stmtNode arena)
  function id := (arena.function? id).bind (below.functionNode arena)

/-! ### Nodes from their parts -/

variable {below : Reader} {arena : Arena} {type : TypeId} {span : Span}

theorem exprs_of_list {range : IdRange} {ids : List ExprId} {trees : List ExprTree}
    (listed : arena.exprList? range = some ids) (read : ids.mapM below.expr = some trees) :
    below.exprs arena range = some trees :=
  Option.bind_eq_some_iff.mpr ⟨ids, listed, read⟩

theorem stmts_of_list {range : IdRange} {ids : List StmtId} {trees : List StmtTree}
    (listed : arena.stmtList? range = some ids) (read : ids.mapM below.stmt = some trees) :
    below.stmts arena range = some trees :=
  Option.bind_eq_some_iff.mpr ⟨ids, listed, read⟩

theorem exprNode_selector {base : ExprId} {tree : ExprTree} (read : below.expr base = some tree)
    (field : String) (symbol : Option SymbolId) :
    below.exprNode arena ⟨.selector base field symbol, span, type⟩ =
      some (.selector tree field symbol type span) := by
  simp [exprNode, read]

theorem exprNode_call {callee : ExprId} {args : IdRange} {tree : ExprTree}
    {trees : List ExprTree} (read : below.expr callee = some tree)
    (readArgs : below.exprs arena args = some trees) :
    below.exprNode arena ⟨.call callee args, span, type⟩ = some (.call tree trees type span) := by
  simp [exprNode, read, readArgs]

theorem exprNode_funcLit {func : FuncId} {tree : FunctionTree}
    (read : below.function func = some tree) :
    below.exprNode arena ⟨.funcLit func, span, type⟩ = some (.funcLit tree type span) := by
  simp [exprNode, read]

theorem exprNode_other {operands : IdRange} {trees : List ExprTree}
    (read : below.exprs arena operands = some trees) :
    below.exprNode arena ⟨.other operands, span, type⟩ = some (.other trees type span) := by
  simp [exprNode, read]

section

variable {first second : IdRange} {left right : List ExprTree}

theorem stmtNode_assign (op : AssignOp) (readFirst : below.exprs arena first = some left)
    (readSecond : below.exprs arena second = some right) :
    below.stmtNode arena ⟨.assign op first second, span⟩ = some (.assign op left right span) := by
  simp [stmtNode, readFirst, readSecond]

theorem stmtNode_varDecl (readFirst : below.exprs arena first = some left)
    (readSecond : below.exprs arena second = some right) :
    below.stmtNode arena ⟨.varDecl first second, span⟩ = some (.varDecl left right span) := by
  simp [stmtNode, readFirst, readSecond]

end

theorem stmtNode_ret {results : IdRange} {trees : List ExprTree}
    (read : below.exprs arena results = some trees) :
    below.stmtNode arena ⟨.ret results, span⟩ = some (.ret trees span) := by
  simp [stmtNode, read]

theorem stmtNode_expr {expr : ExprId} {tree : ExprTree} (read : below.expr expr = some tree) :
    below.stmtNode arena ⟨.expr expr, span⟩ = some (.expr tree span) := by
  simp [stmtNode, read]

section

variable {body : IdRange} {trees : List StmtTree} {init otherwise : Option StmtId}
  {initTree otherwiseTree : Option StmtTree}

theorem stmtNode_block (read : below.stmts arena body = some trees) :
    below.stmtNode arena ⟨.block body, span⟩ = some (.block trees span) := by
  simp [stmtNode, read]

theorem stmtNode_cond {test : ExprId} {testTree : ExprTree}
    (readInit : init.mapM below.stmt = some initTree) (readTest : below.expr test = some testTree)
    (read : below.stmts arena body = some trees)
    (readOtherwise : otherwise.mapM below.stmt = some otherwiseTree) :
    below.stmtNode arena ⟨.cond init test body otherwise, span⟩ =
      some (.cond initTree testTree trees otherwiseTree span) := by
  simp [stmtNode, readInit, readTest, read, readOtherwise]

theorem stmtNode_loop (readInit : init.mapM below.stmt = some initTree)
    (read : below.stmts arena body = some trees) :
    below.stmtNode arena ⟨.loop init body, span⟩ = some (.loop initTree trees span) := by
  simp [stmtNode, readInit, read]

theorem stmtNode_switch {tag : Option ExprId} {tagTree : Option ExprTree}
    (readInit : init.mapM below.stmt = some initTree)
    (readTag : tag.mapM below.expr = some tagTree) (read : below.stmts arena body = some trees) :
    below.stmtNode arena ⟨.switch init tag body, span⟩ =
      some (.switch initTree tagTree trees span) := by
  simp [stmtNode, readInit, readTag, read]

end

theorem functionNode_of_body {function : Function} {body : Option (List StmtTree)}
    (read : function.body.mapM (below.stmts arena) = some body) :
    below.functionNode arena function = some (.mk function.name function.symbol function.params
      function.results body function.span) := by
  simp [functionNode, read]

/-- A tree has the type of its node and names the same symbol. -/
theorem head_of_exprNode {expr : Expr} {tree : ExprTree}
    (read : below.exprNode arena expr = some tree) :
    expr.type = tree.type ∧ TreeBuilder.calledSymbol? expr.kind = tree.calledSymbol? := by
  obtain ⟨kind, span, type⟩ := expr
  cases kind with
  | ident name binding =>
      cases read
      cases binding <;> exact ⟨rfl, rfl⟩
  | selector base field symbol =>
      obtain ⟨_, _, same⟩ := Option.bind_eq_some_iff.mp read
      cases same
      exact ⟨rfl, rfl⟩
  | call callee args =>
      obtain ⟨_, _, rest⟩ := Option.bind_eq_some_iff.mp read
      obtain ⟨_, _, same⟩ := Option.bind_eq_some_iff.mp rest
      cases same
      exact ⟨rfl, rfl⟩
  | funcLit func =>
      obtain ⟨_, _, same⟩ := Option.bind_eq_some_iff.mp read
      cases same
      exact ⟨rfl, rfl⟩
  | nil =>
      cases read
      exact ⟨rfl, rfl⟩
  | literal =>
      cases read
      exact ⟨rfl, rfl⟩
  | other operands =>
      obtain ⟨_, _, same⟩ := Option.bind_eq_some_iff.mp read
      cases same
      exact ⟨rfl, rfl⟩

end Reader

namespace Arena

/-- Reads nodes with nothing deeper than the number below them. -/
def reader (arena : Arena) : Nat → Reader
  | 0 => .bottom
  | height + 1 => (arena.reader height).onto arena

/-- True of all readers that go at least this deep. -/
def Beyond (arena : Arena) (least : Nat) (holds : Reader → Prop) : Prop :=
  ∀ height, least ≤ height → holds (arena.reader height)

/-- True of all readers that go deep enough. -/
def Eventually (arena : Arena) (holds : Reader → Prop) : Prop :=
  ∃ least, arena.Beyond least holds

variable {arena : Arena} {holds also : Reader → Prop} {least : Nat}

theorem Beyond.and (first : arena.Beyond least holds) (second : arena.Beyond least also) :
    arena.Beyond least fun reader => holds reader ∧ also reader :=
  fun height enough => ⟨first height enough, second height enough⟩

theorem Beyond.imp (first : arena.Beyond least holds)
    (implies : ∀ reader, holds reader → also reader) : arena.Beyond least also :=
  fun height enough => implies _ (first height enough)

/-- What holds of reading one level deeper holds one level further. -/
theorem Beyond.onto (first : arena.Beyond least fun below => holds (below.onto arena)) :
    arena.Beyond (least + 1) holds := by
  intro height enough
  cases height with
  | zero => omega
  | succ height => exact first height (by omega)

theorem Beyond.expr {id : ExprId} {expr : Expr} {tree : ExprTree}
    (read : arena.Beyond least fun below => below.exprNode arena expr = some tree)
    (found : arena.expr? id = some expr) :
    arena.Beyond (least + 1) fun reader => reader.expr id = some tree :=
  (read.imp fun _ node => Option.bind_eq_some_iff.mpr ⟨expr, found, node⟩).onto

theorem Beyond.stmt {id : StmtId} {stmt : Stmt} {tree : StmtTree}
    (read : arena.Beyond least fun below => below.stmtNode arena stmt = some tree)
    (found : arena.stmt? id = some stmt) :
    arena.Beyond (least + 1) fun reader => reader.stmt id = some tree :=
  (read.imp fun _ node => Option.bind_eq_some_iff.mpr ⟨stmt, found, node⟩).onto

theorem Beyond.function {id : FuncId} {function : Function} {tree : FunctionTree}
    (read : arena.Beyond least fun below => below.functionNode arena function = some tree)
    (found : arena.function? id = some function) :
    arena.Beyond (least + 1) fun reader => reader.function id = some tree :=
  (read.imp fun _ node => Option.bind_eq_some_iff.mpr ⟨function, found, node⟩).onto

theorem eventually_of_forall (always : ∀ reader, holds reader) : arena.Eventually holds :=
  ⟨0, fun _ _ => always _⟩

theorem Eventually.and (first : arena.Eventually holds) (second : arena.Eventually also) :
    arena.Eventually fun reader => holds reader ∧ also reader := by
  obtain ⟨one, holdsFrom⟩ := first
  obtain ⟨two, alsoFrom⟩ := second
  exact ⟨max one two, fun height enough =>
    ⟨holdsFrom height (by omega), alsoFrom height (by omega)⟩⟩

theorem Eventually.imp (first : arena.Eventually holds)
    (implies : ∀ reader, holds reader → also reader) : arena.Eventually also := by
  obtain ⟨least, beyond⟩ := first
  exact ⟨least, beyond.imp implies⟩

theorem Eventually.expr {id : ExprId} {expr : Expr} {tree : ExprTree}
    (read : arena.Eventually fun below => below.exprNode arena expr = some tree)
    (found : arena.expr? id = some expr) :
    arena.Eventually fun reader => reader.expr id = some tree := by
  obtain ⟨least, beyond⟩ := read
  exact ⟨least + 1, beyond.expr found⟩

theorem Eventually.stmt {id : StmtId} {stmt : Stmt} {tree : StmtTree}
    (read : arena.Eventually fun below => below.stmtNode arena stmt = some tree)
    (found : arena.stmt? id = some stmt) :
    arena.Eventually fun reader => reader.stmt id = some tree := by
  obtain ⟨least, beyond⟩ := read
  exact ⟨least + 1, beyond.stmt found⟩

theorem Eventually.function {id : FuncId} {function : Function} {tree : FunctionTree}
    (read : arena.Eventually fun below => below.functionNode arena function = some tree)
    (found : arena.function? id = some function) :
    arena.Eventually fun reader => reader.function id = some tree := by
  obtain ⟨least, beyond⟩ := read
  exact ⟨least + 1, beyond.function found⟩

theorem Eventually.exists_expr {id : ExprId} {tree : ExprTree}
    (read : arena.Eventually fun reader => reader.expr id = some tree) :
    ∃ expr, arena.expr? id = some expr ∧ expr.type = tree.type ∧
      TreeBuilder.calledSymbol? expr.kind = tree.calledSymbol? := by
  obtain ⟨least, beyond⟩ := read
  obtain ⟨expr, found, node⟩ := Option.bind_eq_some_iff.mp (beyond (least + 1) (by omega))
  exact ⟨expr, found, Reader.head_of_exprNode node⟩

theorem Eventually.exists_function {id : FuncId} {tree : FunctionTree}
    (read : arena.Eventually fun reader => reader.function id = some tree) :
    ∃ function, arena.function? id = some function ∧ function.results = tree.results := by
  obtain ⟨least, beyond⟩ := read
  obtain ⟨function, found, node⟩ := Option.bind_eq_some_iff.mp (beyond (least + 1) (by omega))
  obtain ⟨body, _, same⟩ := Option.bind_eq_some_iff.mp node
  cases same
  exact ⟨function, found, rfl⟩

/-- What deep readers read, every reader reads from where it reads something for good. -/
theorem Eventually.beyond {α : Type} {read : Reader → Option α} {result : α}
    (eventually : arena.Eventually fun reader => read reader = some result)
    (settles : ∃ other, arena.Beyond least fun reader => read reader = some other) :
    arena.Beyond least fun reader => read reader = some result := by
  obtain ⟨enough, deep⟩ := eventually
  obtain ⟨other, settled⟩ := settles
  have same : some other = some result :=
    (settled (max enough least) (by omega)).symm.trans (deep (max enough least) (by omega))
  cases same
  exact settled

/-! ### Nodes that can be walked -/

theorem exists_beyond_mapM {α β : Type} (read : Reader → α → Option β) {xs : List α}
    (each : ∀ x ∈ xs, ∃ y, arena.Beyond least fun reader => read reader x = some y) :
    ∃ ys, arena.Beyond least fun reader => xs.mapM (read reader) = some ys := by
  induction xs with
  | nil => exact ⟨[], fun _ _ => rfl⟩
  | cons x xs ih =>
      obtain ⟨y, first⟩ := each x (List.mem_cons_self ..)
      obtain ⟨ys, later⟩ := ih fun other member => each other (List.mem_cons_of_mem _ member)
      exact ⟨y :: ys, (first.and later).imp fun _ read => mapM_cons_of_some read.1 read.2⟩

theorem exists_beyond_optionMapM {α β : Type} (read : Reader → α → Option β) {x : Option α}
    (each : ∀ value ∈ x.toList, ∃ y, arena.Beyond least fun reader => read reader value = some y) :
    ∃ y, arena.Beyond least fun reader => x.mapM (read reader) = some y := by
  cases x with
  | none => exact ⟨none, fun _ _ => rfl⟩
  | some value =>
      obtain ⟨y, found⟩ := each value (List.mem_singleton.mpr rfl)
      exact ⟨some y, found.imp fun _ read => optionMapM_of_some read⟩

/-- A node that readers from some depth on read, all with the same result. -/
def Readable (arena : Arena) (least : Nat) : NodeRef → Prop
  | .expr id => ∃ tree, arena.Beyond least fun reader => reader.expr id = some tree
  | .stmt id => ∃ tree, arena.Beyond least fun reader => reader.stmt id = some tree
  | .literal id => ∃ tree, arena.Beyond least fun reader => reader.function id = some tree

variable {children : List NodeRef}

theorem exists_beyond_exprs {range : IdRange} (listed : arena.exprRefs? range = some children)
    (each : ∀ ref ∈ children, arena.Readable least ref) :
    ∃ trees, arena.Beyond least fun reader => reader.exprs arena range = some trees := by
  obtain ⟨ids, found, rfl⟩ := Option.map_eq_some_iff.mp listed
  obtain ⟨trees, read⟩ := exists_beyond_mapM Reader.expr fun id (member : id ∈ ids) =>
    each _ (List.mem_map_of_mem member)
  exact ⟨trees, read.imp fun reader all => Reader.exprs_of_list found all⟩

theorem exists_beyond_stmts {range : IdRange} (listed : arena.stmtRefs? range = some children)
    (each : ∀ ref ∈ children, arena.Readable least ref) :
    ∃ trees, arena.Beyond least fun reader => reader.stmts arena range = some trees := by
  obtain ⟨ids, found, rfl⟩ := Option.map_eq_some_iff.mp listed
  obtain ⟨trees, read⟩ := exists_beyond_mapM Reader.stmt fun id (member : id ∈ ids) =>
    each _ (List.mem_map_of_mem member)
  exact ⟨trees, read.imp fun reader all => Reader.stmts_of_list found all⟩

theorem exists_beyond_exprNode {expr : Expr}
    (listed : arena.exprChildren? expr.kind = some children)
    (each : ∀ ref ∈ children, arena.Readable least ref) :
    ∃ tree, arena.Beyond least fun below => below.exprNode arena expr = some tree := by
  obtain ⟨kind, span, type⟩ := expr
  cases kind with
  | ident name binding => exact ⟨.ident name binding type span, fun _ _ => rfl⟩
  | selector base field symbol =>
      cases listed
      obtain ⟨tree, read⟩ := each _ (List.mem_singleton.mpr rfl)
      exact ⟨_, read.imp fun below base => Reader.exprNode_selector base field symbol⟩
  | call callee args =>
      obtain ⟨refs, found, rfl⟩ := Option.map_eq_some_iff.mp listed
      obtain ⟨tree, read⟩ := each _ (List.mem_cons_self ..)
      obtain ⟨trees, readArgs⟩ := exists_beyond_exprs found fun ref member =>
        each ref (List.mem_cons_of_mem _ member)
      exact ⟨_, (read.and readArgs).imp fun below parts => Reader.exprNode_call parts.1 parts.2⟩
  | funcLit func =>
      cases listed
      obtain ⟨tree, read⟩ := each _ (List.mem_singleton.mpr rfl)
      exact ⟨_, read.imp fun below function => Reader.exprNode_funcLit function⟩
  | nil => exact ⟨.nil type span, fun _ _ => rfl⟩
  | literal => exact ⟨.literal type span, fun _ _ => rfl⟩
  | other operands =>
      obtain ⟨trees, read⟩ := exists_beyond_exprs listed each
      exact ⟨_, read.imp fun below parts => Reader.exprNode_other parts⟩

/-- Two lists of expressions that stand one after the other. -/
theorem exists_beyond_exprLists {first second : IdRange}
    (listed : (do return (← arena.exprRefs? first) ++ (← arena.exprRefs? second)) = some children)
    (each : ∀ ref ∈ children, arena.Readable least ref) :
    ∃ left right, arena.Beyond least fun reader =>
      reader.exprs arena first = some left ∧ reader.exprs arena second = some right := by
  obtain ⟨one, foundOne, rest⟩ := Option.bind_eq_some_iff.mp listed
  obtain ⟨two, foundTwo, same⟩ := Option.bind_eq_some_iff.mp rest
  cases same
  obtain ⟨left, readFirst⟩ := exists_beyond_exprs foundOne fun ref member =>
    each ref (List.mem_append_left _ member)
  obtain ⟨right, readSecond⟩ := exists_beyond_exprs foundTwo fun ref member =>
    each ref (List.mem_append_right _ member)
  exact ⟨left, right, readFirst.and readSecond⟩

theorem exists_beyond_init {init : Option StmtId}
    (each : ∀ ref ∈ init.toList.map NodeRef.stmt, arena.Readable least ref) :
    ∃ tree, arena.Beyond least fun reader => init.mapM reader.stmt = some tree :=
  exists_beyond_optionMapM Reader.stmt fun _ member => each _ (List.mem_map_of_mem member)

theorem exists_beyond_stmtNode {stmt : Stmt}
    (listed : arena.stmtChildren? stmt.kind = some children)
    (each : ∀ ref ∈ children, arena.Readable least ref) :
    ∃ tree, arena.Beyond least fun below => below.stmtNode arena stmt = some tree := by
  obtain ⟨kind, span⟩ := stmt
  cases kind with
  | assign op targets values =>
      obtain ⟨left, right, read⟩ := exists_beyond_exprLists listed each
      exact ⟨_, read.imp fun below parts => Reader.stmtNode_assign op parts.1 parts.2⟩
  | varDecl names values =>
      obtain ⟨left, right, read⟩ := exists_beyond_exprLists listed each
      exact ⟨_, read.imp fun below parts => Reader.stmtNode_varDecl parts.1 parts.2⟩
  | ret results =>
      obtain ⟨trees, read⟩ := exists_beyond_exprs listed each
      exact ⟨_, read.imp fun below parts => Reader.stmtNode_ret parts⟩
  | expr expr =>
      cases listed
      obtain ⟨tree, read⟩ := each _ (List.mem_singleton.mpr rfl)
      exact ⟨_, read.imp fun below parts => Reader.stmtNode_expr parts⟩
  | block body =>
      obtain ⟨trees, read⟩ := exists_beyond_stmts listed each
      exact ⟨_, read.imp fun below parts => Reader.stmtNode_block parts⟩
  | cond init test body otherwise =>
      obtain ⟨refs, found, same⟩ := Option.bind_eq_some_iff.mp listed
      cases same
      simp only [List.append_assoc, List.cons_append, List.forall_mem_append, List.forall_mem_cons]
        at each
      obtain ⟨initEach, ⟨testTree, readTest⟩, bodyEach, otherwiseEach⟩ := each
      obtain ⟨initTree, readInit⟩ := exists_beyond_init initEach
      obtain ⟨trees, read⟩ := exists_beyond_stmts found bodyEach
      obtain ⟨otherwiseTree, readOtherwise⟩ := exists_beyond_init otherwiseEach
      exact ⟨_, (readInit.and (readTest.and (read.and readOtherwise))).imp
        fun below ⟨init, test, body, otherwise⟩ => Reader.stmtNode_cond init test body otherwise⟩
  | loop init body =>
      obtain ⟨refs, found, same⟩ := Option.bind_eq_some_iff.mp listed
      cases same
      obtain ⟨initEach, bodyEach⟩ := List.forall_mem_append.mp each
      obtain ⟨initTree, readInit⟩ := exists_beyond_init initEach
      obtain ⟨trees, read⟩ := exists_beyond_stmts found bodyEach
      exact ⟨_, (readInit.and read).imp fun below parts => Reader.stmtNode_loop parts.1 parts.2⟩
  | switch init tag cases =>
      obtain ⟨refs, found, same⟩ := Option.bind_eq_some_iff.mp listed
      cases same
      obtain ⟨headEach, bodyEach⟩ := List.forall_mem_append.mp each
      obtain ⟨initEach, tagEach⟩ := List.forall_mem_append.mp headEach
      obtain ⟨initTree, readInit⟩ := exists_beyond_init initEach
      obtain ⟨tagTree, readTag⟩ := exists_beyond_optionMapM Reader.expr
        fun id (member : id ∈ tag.toList) => tagEach _ (List.mem_map_of_mem member)
      obtain ⟨trees, read⟩ := exists_beyond_stmts found bodyEach
      exact ⟨_, (readInit.and (readTag.and read)).imp
        fun below ⟨init, tag, cases⟩ => Reader.stmtNode_switch init tag cases⟩

theorem exists_beyond_functionNode {function : Function}
    (listed : arena.bodyRefs? function = some children)
    (each : ∀ ref ∈ children, arena.Readable least ref) :
    ∃ tree, arena.Beyond least fun below => below.functionNode arena function = some tree := by
  have read : ∃ body, arena.Beyond least fun below =>
      function.body.mapM (below.stmts arena) = some body := by
    refine exists_beyond_optionMapM (fun below => below.stmts arena) fun range member => ?_
    rw [Option.mem_toList] at member
    rw [bodyRefs?, Option.mem_def.mp member] at listed
    exact exists_beyond_stmts listed each
  obtain ⟨body, read⟩ := read
  exact ⟨_, read.imp fun below parts => Reader.functionNode_of_body parts⟩

/-- Reading goes no deeper than walking. -/
theorem readable_of_walkWithin {height : Nat} {ref : NodeRef} {nodes : List NodeRef}
    (walked : arena.walkWithin .whole height ref = some nodes) : arena.Readable height ref := by
  induction height generalizing ref nodes with
  | zero => cases walked
  | succ height ih =>
      obtain ⟨lower, children, below, sameHeight, known, collected, _⟩ :=
        walkWithin_eq_some (Reach.enters_whole ref) walked
      cases sameHeight
      -- A walk of the node walks its children one level less deep, and so does reading it.
      have each : ∀ child ∈ children, arena.Readable height child := by
        intro child member
        obtain ⟨list, _, walkedChild⟩ :=
          mem_of_forall₂_left (mapM_eq_some_iff.mp collected) member
        exact ih walkedChild
      cases ref with
      | expr id =>
          obtain ⟨expr, found, listed⟩ := Option.bind_eq_some_iff.mp known
          obtain ⟨tree, read⟩ := exists_beyond_exprNode listed each
          exact ⟨tree, read.expr found⟩
      | stmt id =>
          obtain ⟨stmt, found, listed⟩ := Option.bind_eq_some_iff.mp known
          obtain ⟨tree, read⟩ := exists_beyond_stmtNode listed each
          exact ⟨tree, read.stmt found⟩
      | literal id =>
          obtain ⟨function, found, listed⟩ := Option.bind_eq_some_iff.mp known
          obtain ⟨tree, read⟩ := exists_beyond_functionNode listed each
          exact ⟨tree, read.function found⟩

end Arena

/-! ### Units -/

/-- The declared functions of a unit and its package-level statements, read from its arena. -/
def Package.read? (unit : Package) : Option (List FunctionTree × List StmtTree) := do
  let reader := unit.arena.reader unit.arena.height
  return (← unit.decls.mapM reader.function, ← unit.globals.mapM reader.stmt)

/-- The height of the arena is enough to read a unit. -/
theorem Package.Planted.read?_eq {unit : Package} (planted : unit.Planted)
    {functions : List FunctionTree} {globals : List StmtTree}
    (readFunctions : unit.arena.Eventually fun reader =>
      unit.decls.mapM reader.function = some functions)
    (readGlobals : unit.arena.Eventually fun reader =>
      unit.globals.mapM reader.stmt = some globals) :
    unit.read? = some (functions, globals) := by
  obtain ⟨height, nodes, enough, ⟨lists, collected, _⟩, _⟩ := planted.listed
  have bound : height ≤ unit.arena.height := Nat.le_trans (Nat.le_add_right _ _) enough
  have each : ∀ ref ∈ unit.decls.map NodeRef.literal ++ unit.globalRefs,
      unit.arena.Readable height ref := by
    intro ref member
    obtain ⟨list, _, walked⟩ := mem_of_forall₂_left (mapM_eq_some_iff.mp collected) member
    exact Arena.readable_of_walkWithin walked
  obtain ⟨declEach, globalEach⟩ := List.forall_mem_append.mp each
  have functionsRead := readFunctions.beyond (Arena.exists_beyond_mapM Reader.function
    fun decl (member : decl ∈ unit.decls) => declEach _ (List.mem_map_of_mem member))
  have globalsRead := readGlobals.beyond (Arena.exists_beyond_mapM Reader.stmt
    fun stmt (member : stmt ∈ unit.globals) => globalEach _ (List.mem_map_of_mem member))
  rw [read?, functionsRead _ bound, globalsRead _ bound]
  rfl

end ErrorWrapping
