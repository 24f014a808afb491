import ErrorWrapping.Proofs.Walks
import ErrorWrapping.Tree.Build

/-
Growing arenas.

While a tree is built, the arena is a forest: walking the roots built so far lists every node of
the arena exactly once, but for functions whose bodies are still to come. Each node takes the
roots that are its children and becomes a root itself, so that nothing is shared or lost.
-/

namespace ErrorWrapping

namespace Arena

/-- A node of the arena. -/
def Holds (arena : Arena) : NodeRef → Prop
  | .expr id => id.index < arena.exprs.size
  | .stmt id => id.index < arena.stmts.size
  | .literal id => id.index < arena.functions.size

/-! ### Arenas that grow -/

/-- Whatever could be looked up before can be looked up after, with the same answer. -/
structure Extends (before after : Arena) : Prop where
  exprs : ∀ {id : ExprId} {expr : Expr}, before.expr? id = some expr → after.expr? id = some expr
  stmts : ∀ {id : StmtId} {stmt : Stmt}, before.stmt? id = some stmt → after.stmt? id = some stmt
  functions : ∀ {id : FuncId} {function : Function},
    before.function? id = some function → after.function? id = some function
  exprLists : ∀ {range : IdRange} {ids : List ExprId},
    before.exprList? range = some ids → after.exprList? range = some ids
  stmtLists : ∀ {range : IdRange} {ids : List StmtId},
    before.stmtList? range = some ids → after.stmtList? range = some ids

theorem Extends.refl (arena : Arena) : arena.Extends arena := by
  constructor <;> exact fun found => found

theorem Extends.trans {first second third : Arena} (one : first.Extends second)
    (two : second.Extends third) : first.Extends third where
  exprs found := two.exprs (one.exprs found)
  stmts found := two.stmts (one.stmts found)
  functions found := two.functions (one.functions found)
  exprLists found := two.exprLists (one.exprLists found)
  stmtLists found := two.stmtLists (one.stmtLists found)

theorem getElem?_push_of_some {α : Type} {entries : Array α} {entry added : α} {position : Nat}
    (found : entries[position]? = some entry) : (entries.push added)[position]? = some entry := by
  obtain ⟨bound, _⟩ := Array.getElem?_eq_some_iff.mp found
  rw [Array.getElem?_push, if_neg (Nat.ne_of_lt bound)]
  exact found

theorem slice?_append {α : Type} {entries more : Array α} {range : IdRange} {ids : List α}
    (found : slice? entries range = some ids) : slice? (entries ++ more) range = some ids := by
  unfold slice? at found ⊢
  split at found
  · rename_i bound
    cases found
    have nothing : range.stop - entries.size = 0 := Nat.sub_eq_zero_of_le bound
    rw [if_pos (by rw [Array.size_append]; omega), Array.extract_append, nothing]
    simp
  · cases found

theorem slice?_added {α : Type} (entries : Array α) (ids : List α) :
    slice? (entries ++ ids.toArray) ⟨entries.size, ids.length⟩ = some ids := by
  unfold slice?
  rw [if_pos (by simp [IdRange.stop])]
  simp [IdRange.stop, Array.extract_append]

theorem extends_addExpr (arena : Arena) (expr : Expr) : arena.Extends (arena.addExpr expr).2 :=
  { Extends.refl arena with exprs := fun found => getElem?_push_of_some found }

theorem extends_addStmt (arena : Arena) (stmt : Stmt) : arena.Extends (arena.addStmt stmt).2 :=
  { Extends.refl arena with stmts := fun found => getElem?_push_of_some found }

theorem extends_addFunction (arena : Arena) (function : Function) :
    arena.Extends (arena.addFunction function).2 :=
  { Extends.refl arena with functions := fun found => getElem?_push_of_some found }

theorem extends_addVar (arena : Arena) (var : Variable) : arena.Extends (arena.addVar var).2 :=
  { Extends.refl arena with }

theorem extends_addExprList (arena : Arena) (ids : List ExprId) :
    arena.Extends (arena.addExprList ids).2 :=
  { Extends.refl arena with exprLists := slice?_append }

theorem extends_addStmtList (arena : Arena) (ids : List StmtId) :
    arena.Extends (arena.addStmtList ids).2 :=
  { Extends.refl arena with stmtLists := slice?_append }

theorem expr?_addExpr (arena : Arena) (expr : Expr) :
    (arena.addExpr expr).2.expr? (arena.addExpr expr).1 = some expr :=
  Array.getElem?_push_size

theorem stmt?_addStmt (arena : Arena) (stmt : Stmt) :
    (arena.addStmt stmt).2.stmt? (arena.addStmt stmt).1 = some stmt :=
  Array.getElem?_push_size

theorem exprList?_addExprList (arena : Arena) (ids : List ExprId) :
    (arena.addExprList ids).2.exprList? (arena.addExprList ids).1 = some ids :=
  slice?_added arena.exprLists ids

theorem stmtList?_addStmtList (arena : Arena) (ids : List StmtId) :
    (arena.addStmtList ids).2.stmtList? (arena.addStmtList ids).1 = some ids :=
  slice?_added arena.stmtLists ids

variable {before after : Arena} {roots children nodes : List NodeRef} {ref : NodeRef}
  {height : Nat}

theorem Extends.exprRefs? (grown : before.Extends after) {range : IdRange} {refs : List NodeRef}
    (found : before.exprRefs? range = some refs) : after.exprRefs? range = some refs := by
  obtain ⟨ids, listed, rfl⟩ := Option.map_eq_some_iff.mp found
  exact Option.map_eq_some_iff.mpr ⟨ids, grown.exprLists listed, rfl⟩

theorem Extends.stmtRefs? (grown : before.Extends after) {range : IdRange} {refs : List NodeRef}
    (found : before.stmtRefs? range = some refs) : after.stmtRefs? range = some refs := by
  obtain ⟨ids, listed, rfl⟩ := Option.map_eq_some_iff.mp found
  exact Option.map_eq_some_iff.mpr ⟨ids, grown.stmtLists listed, rfl⟩

theorem Extends.bodyRefs? (grown : before.Extends after) {function : Function}
    (found : before.bodyRefs? function = some children) :
    after.bodyRefs? function = some children := by
  unfold Arena.bodyRefs? at found ⊢
  split at found
  · exact found
  · exact grown.stmtRefs? found

theorem Extends.exprChildren? (grown : before.Extends after) {kind : ExprKind}
    (found : before.exprChildren? kind = some children) :
    after.exprChildren? kind = some children := by
  cases kind with
  | call callee args =>
      obtain ⟨refs, listed, rfl⟩ := Option.map_eq_some_iff.mp found
      exact Option.map_eq_some_iff.mpr ⟨refs, grown.exprRefs? listed, rfl⟩
  | other operands => exact grown.exprRefs? found
  | _ => exact found

theorem Extends.stmtChildren? (grown : before.Extends after) {kind : StmtKind}
    (found : before.stmtChildren? kind = some children) :
    after.stmtChildren? kind = some children := by
  cases kind with
  | assign op targets values =>
      obtain ⟨left, listed, rest⟩ := Option.bind_eq_some_iff.mp found
      obtain ⟨right, alsoListed, same⟩ := Option.bind_eq_some_iff.mp rest
      refine Option.bind_eq_some_iff.mpr ⟨left, grown.exprRefs? listed, ?_⟩
      exact Option.bind_eq_some_iff.mpr ⟨right, grown.exprRefs? alsoListed, same⟩
  | varDecl names values =>
      obtain ⟨left, listed, rest⟩ := Option.bind_eq_some_iff.mp found
      obtain ⟨right, alsoListed, same⟩ := Option.bind_eq_some_iff.mp rest
      refine Option.bind_eq_some_iff.mpr ⟨left, grown.exprRefs? listed, ?_⟩
      exact Option.bind_eq_some_iff.mpr ⟨right, grown.exprRefs? alsoListed, same⟩
  | ret results => exact grown.exprRefs? found
  | expr expr => exact found
  | block body => exact grown.stmtRefs? found
  | cond init test body otherwise =>
      obtain ⟨refs, listed, same⟩ := Option.bind_eq_some_iff.mp found
      exact Option.bind_eq_some_iff.mpr ⟨refs, grown.stmtRefs? listed, same⟩
  | loop init body =>
      obtain ⟨refs, listed, same⟩ := Option.bind_eq_some_iff.mp found
      exact Option.bind_eq_some_iff.mpr ⟨refs, grown.stmtRefs? listed, same⟩
  | switch init tag cases =>
      obtain ⟨refs, listed, same⟩ := Option.bind_eq_some_iff.mp found
      exact Option.bind_eq_some_iff.mpr ⟨refs, grown.stmtRefs? listed, same⟩

theorem Extends.children? (grown : before.Extends after)
    (found : before.children? ref = some children) : after.children? ref = some children := by
  cases ref with
  | expr id =>
      obtain ⟨expr, known, listed⟩ := Option.bind_eq_some_iff.mp found
      exact Option.bind_eq_some_iff.mpr ⟨expr, grown.exprs known, grown.exprChildren? listed⟩
  | stmt id =>
      obtain ⟨stmt, known, listed⟩ := Option.bind_eq_some_iff.mp found
      exact Option.bind_eq_some_iff.mpr ⟨stmt, grown.stmts known, grown.stmtChildren? listed⟩
  | literal id =>
      obtain ⟨function, known, listed⟩ := Option.bind_eq_some_iff.mp found
      exact Option.bind_eq_some_iff.mpr
        ⟨function, grown.functions known, grown.bodyRefs? listed⟩

/-! ### Walks from several roots -/

/-- Walking the roots with this height lists the nodes. -/
def Lists (arena : Arena) (height : Nat) (roots nodes : List NodeRef) : Prop :=
  ∃ lists, roots.mapM (arena.walkWithin .whole height) = some lists ∧ lists.flatten = nodes

theorem Lists.mono {higher : Nat} (enough : height ≤ higher)
    (listed : before.Lists height roots nodes) : before.Lists higher roots nodes := by
  obtain ⟨lists, collected, same⟩ := listed
  refine ⟨lists, mapM_eq_some_iff.mpr ?_, same⟩
  exact (mapM_eq_some_iff.mp collected).imp fun _ _ walked => walkWithin_mono enough walked

theorem Lists.walk (listed : before.Lists height roots nodes) (enough : height ≤ before.height) :
    before.walk .whole roots = some nodes :=
  walk_eq_some_iff.mpr (listed.mono enough)

theorem lists_append_iff {more : List NodeRef} :
    before.Lists height (roots ++ more) nodes ↔
      ∃ first second, before.Lists height roots first ∧ before.Lists height more second ∧
        nodes = first ++ second := by
  constructor
  · intro listed
    obtain ⟨lists, collected, rfl⟩ := listed
    rw [List.mapM_append] at collected
    obtain ⟨first, collectedFirst, rest⟩ := Option.bind_eq_some_iff.mp collected
    obtain ⟨second, collectedSecond, same⟩ := Option.bind_eq_some_iff.mp rest
    cases same
    exact ⟨first.flatten, second.flatten, ⟨first, collectedFirst, rfl⟩,
      ⟨second, collectedSecond, rfl⟩, List.flatten_append⟩
  · intro listed
    obtain ⟨_, _, ⟨first, collectedFirst, rfl⟩, ⟨second, collectedSecond, rfl⟩, rfl⟩ := listed
    refine ⟨first ++ second, ?_, List.flatten_append⟩
    rw [List.mapM_append, collectedFirst, collectedSecond]
    rfl

theorem lists_node (known : before.children? ref = some children)
    (listed : before.Lists height children nodes) :
    before.Lists (height + 1) [ref] (ref :: nodes) := by
  obtain ⟨lists, collected, rfl⟩ := listed
  refine ⟨[ref :: lists.flatten], ?_, by simp⟩
  have walked : before.walkWithin .whole (height + 1) ref = some (ref :: lists.flatten) := by
    rw [walkWithin_of_enters (Reach.enters_whole ref), known, Option.bind_some, collected,
      Option.map_some]
  exact mapM_eq_some_iff.mpr (.cons walked .nil)

/-- A walk stays as it is while the nodes it lists keep their children. -/
theorem walkWithin_of_kept
    (kept : ∀ node ∈ nodes, ∀ below, before.children? node = some below →
      after.children? node = some below)
    (walked : before.walkWithin .whole height ref = some nodes) :
    after.walkWithin .whole height ref = some nodes := by
  induction height generalizing ref nodes with
  | zero => cases walked
  | succ height ih =>
      obtain ⟨lower, children, lists, same, known, collected, rfl⟩ :=
        walkWithin_eq_some (Reach.enters_whole ref) walked
      cases same
      have below : children.mapM (after.walkWithin .whole height) = some lists := by
        have related := mapM_eq_some_iff.mp collected
        refine mapM_eq_some_iff.mpr (List.forall₂_iff_get.mpr ⟨related.length_eq, ?_⟩)
        intro position inChildren inLists
        refine ih ?_ (related.get inChildren inLists)
        intro node member
        refine kept node (List.mem_cons_of_mem _ ?_)
        exact List.mem_flatten_of_mem (List.get_mem ..) member
      rw [walkWithin_of_enters (Reach.enters_whole ref), kept ref (List.mem_cons_self ..) _ known,
        Option.bind_some, below, Option.map_some]

theorem Lists.kept (listed : before.Lists height roots nodes)
    (kept : ∀ node ∈ nodes, ∀ below, before.children? node = some below →
      after.children? node = some below) : after.Lists height roots nodes := by
  obtain ⟨lists, collected, rfl⟩ := listed
  refine ⟨lists, mapM_eq_some_iff.mpr ?_, rfl⟩
  have related := mapM_eq_some_iff.mp collected
  refine List.forall₂_iff_get.mpr ⟨related.length_eq, ?_⟩
  intro position inRoots inLists
  refine walkWithin_of_kept ?_ (related.get inRoots inLists)
  intro node member
  exact kept node (List.mem_flatten_of_mem (List.get_mem ..) member)

/-- The last roots become the children of a new root. -/
theorem Lists.graft (listed : before.Lists height (roots ++ children) nodes)
    (kept : ∀ node ∈ nodes, ∀ below, before.children? node = some below →
      after.children? node = some below)
    (known : after.children? ref = some children) :
    ∃ grafted, after.Lists (height + 1) (roots ++ [ref]) grafted ∧
      grafted.Perm (ref :: nodes) := by
  obtain ⟨first, second, listedRoots, listedChildren, rfl⟩ :=
    lists_append_iff.mp (listed.kept kept)
  refine ⟨first ++ ref :: second, ?_, List.perm_middle⟩
  exact lists_append_iff.mpr ⟨first, ref :: second, listedRoots.mono (Nat.le_succ height),
    lists_node known listedChildren, rfl⟩

end Arena

/-! ### Forests -/

/-- What a growing arena is made of. -/
structure Growth where
  /-- The nodes that are children of none. -/
  roots : List NodeRef
  /-- Functions whose bodies are still to come. -/
  opened : List FuncId
  /-- Functions that have a symbol. -/
  named : List FuncId

namespace Growth

def add (growth : Growth) (refs : List NodeRef) : Growth :=
  { growth with roots := growth.roots ++ refs }

def openUp (growth : Growth) (func : FuncId) : Growth :=
  { growth with opened := func :: growth.opened }

def declare (growth : Growth) (funcs : List FuncId) : Growth :=
  { growth with named := growth.named ++ funcs }

@[simp]
theorem add_nil (growth : Growth) : growth.add [] = growth := by
  simp [add]

@[simp]
theorem add_add (growth : Growth) (refs more : List NodeRef) :
    (growth.add refs).add more = growth.add (refs ++ more) := by
  simp [add]

@[simp]
theorem declare_add (growth : Growth) (refs : List NodeRef) (funcs : List FuncId) :
    (growth.add refs).declare funcs = (growth.declare funcs).add refs := rfl

@[simp]
theorem declare_nil (growth : Growth) : growth.declare [] = growth := by
  simp [declare]

@[simp]
theorem declare_declare (growth : Growth) (funcs more : List FuncId) :
    (growth.declare funcs).declare more = growth.declare (funcs ++ more) := by
  simp [declare]

/-- All nodes, given those that a walk of the roots lists. -/
def entries (growth : Growth) (nodes : List NodeRef) : List NodeRef :=
  nodes ++ growth.opened.map .literal

end Growth

/-- A growth that knows, for each root, which function was open when the root was made. -/
structure OwnedGrowth extends Growth where
  owners : List (Option FuncId)

namespace OwnedGrowth

variable (growth : OwnedGrowth)

/-- The function whose body is being built. -/
def owner : Option FuncId :=
  growth.opened.head?

def add (refs : List NodeRef) : OwnedGrowth where
  toGrowth := growth.toGrowth.add refs
  owners := growth.owners ++ refs.map fun _ => growth.owner

def openUp (func : FuncId) : OwnedGrowth :=
  { growth with toGrowth := growth.toGrowth.openUp func }

def declare (funcs : List FuncId) : OwnedGrowth :=
  { growth with toGrowth := growth.toGrowth.declare funcs }

/-- What is there when no function is open: the roots belong to none. -/
def settled (roots : List NodeRef) (named : List FuncId) : OwnedGrowth :=
  ⟨⟨roots, [], named⟩, roots.map fun _ => none⟩

@[simp]
theorem add_nil : growth.add [] = growth := by
  simp [add]

@[simp]
theorem add_add (refs more : List NodeRef) :
    (growth.add refs).add more = growth.add (refs ++ more) := by
  simp only [add, Growth.add_add, List.map_append, List.append_assoc]
  rfl

@[simp]
theorem declare_add (refs : List NodeRef) (funcs : List FuncId) :
    (growth.add refs).declare funcs = (growth.declare funcs).add refs := rfl

@[simp]
theorem declare_nil : growth.declare [] = growth := by
  simp [declare]

@[simp]
theorem declare_declare (funcs more : List FuncId) :
    (growth.declare funcs).declare more = growth.declare (funcs ++ more) := by
  simp [declare]

end OwnedGrowth

namespace Arena

/-- Walking the roots lists every node once, functions without body yet left out. -/
structure Forest (arena : Arena) (growth : Growth) : Prop where
  -- A function that is still open raises the height by one when it gets its body.
  listed : ∃ height nodes, height + growth.opened.length ≤ arena.height ∧
    arena.Lists height growth.roots nodes ∧ (growth.entries nodes).Nodup ∧
    ∀ ref, ref ∈ growth.entries nodes ↔ arena.Holds ref
  opened : ∀ func ∈ growth.opened, ∃ function, arena.function? func = some function ∧
    function.body = none
  named : ∀ func function, arena.function? func = some function → function.symbol ≠ none →
    func ∈ growth.named

variable {arena after : Arena} {growth : Growth} {children : List NodeRef}

theorem forest_empty : empty.Forest ⟨[], [], []⟩ := by
  refine ⟨⟨0, [], Nat.zero_le _, ⟨[], rfl, rfl⟩, List.nodup_nil, ?_⟩, ?_, ?_⟩
  · intro ref
    cases ref <;> simp [Holds, empty, Growth.entries]
  · intro func impossible
    cases impossible
  · intro func function impossible
    cases impossible

theorem Forest.extend (forest : arena.Forest growth) (grown : arena.Extends after)
    (exprs : after.exprs = arena.exprs) (stmts : after.stmts = arena.stmts)
    (functions : after.functions = arena.functions) : after.Forest growth := by
  obtain ⟨height, nodes, enough, listed, once, all⟩ := forest.listed
  refine ⟨⟨height, nodes, ?_, listed.kept fun _ _ _ => grown.children?, once, ?_⟩, ?_, ?_⟩
  · rw [Arena.height] at enough ⊢
    rw [exprs, stmts, functions]
    exact enough
  · intro ref
    rw [all]
    cases ref <;> simp [Holds, exprs, stmts, functions]
  · intro func isOpened
    obtain ⟨function, found, noBody⟩ := forest.opened func isOpened
    exact ⟨function, grown.functions found, noBody⟩
  · intro func function found
    rw [function?, functions] at found
    exact forest.named func function found

/-- A new node above the last roots. -/
theorem Forest.grow {ref : NodeRef} (forest : arena.Forest (growth.add children))
    (grown : arena.Extends after) (known : after.children? ref = some children)
    (fresh : ¬ arena.Holds ref)
    (holds : ∀ other, after.Holds other ↔ other = ref ∨ arena.Holds other)
    (taller : after.height = arena.height + 1) (functions : after.functions = arena.functions) :
    after.Forest (growth.add [ref]) := by
  obtain ⟨height, nodes, enough, listed, once, all⟩ := forest.listed
  obtain ⟨grafted, listedAfter, same⟩ :=
    listed.graft (fun _ _ _ => grown.children?) known
  have entries : ((growth.add [ref]).entries grafted).Perm (ref :: growth.entries nodes) :=
    same.append_right _
  refine ⟨⟨height + 1, grafted, ?_, listedAfter, ?_, ?_⟩, ?_, ?_⟩
  · rw [taller]
    have opened : (growth.add [ref]).opened.length = (growth.add children).opened.length := rfl
    omega
  · rw [entries.nodup_iff, List.nodup_cons]
    exact ⟨fun member => fresh ((all ref).mp member), once⟩
  · intro other
    rw [entries.mem_iff, List.mem_cons, holds]
    exact or_congr_right (all other)
  · intro func isOpened
    obtain ⟨function, found, noBody⟩ := forest.opened func isOpened
    exact ⟨function, grown.functions found, noBody⟩
  · intro func function found
    rw [function?, functions] at found
    exact forest.named func function found

theorem Forest.addExpr {expr : Expr} (forest : arena.Forest (growth.add children))
    (known : arena.exprChildren? expr.kind = some children) :
    (arena.addExpr expr).2.Forest (growth.add [.expr (arena.addExpr expr).1]) := by
  have grown := extends_addExpr arena expr
  apply forest.grow grown
  · refine Option.bind_eq_some_iff.mpr ⟨expr, ?_, grown.exprChildren? known⟩
    exact Array.getElem?_push_size
  · exact Nat.lt_irrefl _
  · intro other
    cases other with
    | expr id =>
        obtain ⟨index⟩ := id
        simp [Holds, Arena.addExpr]
        omega
    | stmt id => simp [Holds, Arena.addExpr]
    | literal id => simp [Holds, Arena.addExpr]
  · simp [height, Arena.addExpr]
    omega
  · rfl

theorem Forest.addStmt {stmt : Stmt} (forest : arena.Forest (growth.add children))
    (known : arena.stmtChildren? stmt.kind = some children) :
    (arena.addStmt stmt).2.Forest (growth.add [.stmt (arena.addStmt stmt).1]) := by
  have grown := extends_addStmt arena stmt
  apply forest.grow grown
  · refine Option.bind_eq_some_iff.mpr ⟨stmt, ?_, grown.stmtChildren? known⟩
    exact Array.getElem?_push_size
  · exact Nat.lt_irrefl _
  · intro other
    cases other with
    | stmt id =>
        obtain ⟨index⟩ := id
        simp [Holds, Arena.addStmt]
        omega
    | expr id => simp [Holds, Arena.addStmt]
    | literal id => simp [Holds, Arena.addStmt]
  · simp [height, Arena.addStmt]
    omega
  · rfl

/-! ### Functions -/

theorem Forest.addFunction {function : Function} (forest : arena.Forest growth)
    (noBody : function.body = none) {named : List FuncId}
    (kept : ∀ func ∈ growth.named, func ∈ named)
    (added : function.symbol ≠ none → (arena.addFunction function).1 ∈ named) :
    (arena.addFunction function).2.Forest
      { growth.openUp (arena.addFunction function).1 with named } := by
  have grown := extends_addFunction arena function
  have found : (arena.addFunction function).2.function? (arena.addFunction function).1 =
      some function := Array.getElem?_push_size
  obtain ⟨height, nodes, enough, listed, once, all⟩ := forest.listed
  have entries : (nodes ++ NodeRef.literal (arena.addFunction function).1 ::
      growth.opened.map .literal).Perm
      (NodeRef.literal (arena.addFunction function).1 :: growth.entries nodes) :=
    List.perm_middle
  refine ⟨⟨height, nodes, ?_, listed.kept fun _ _ _ => grown.children?, ?_, ?_⟩, ?_, ?_⟩
  · simp only [Growth.openUp, List.length_cons, Arena.height, Arena.addFunction,
      Array.size_push] at enough ⊢
    omega
  · refine entries.nodup_iff.mpr (List.nodup_cons.mpr ⟨?_, once⟩)
    intro member
    exact Nat.lt_irrefl _ ((all _).mp member)
  · intro ref
    refine entries.mem_iff.trans ?_
    rw [List.mem_cons, all]
    cases ref with
    | literal id =>
        obtain ⟨index⟩ := id
        simp [Holds, Arena.addFunction]
        omega
    | expr id => simp [Holds, Arena.addFunction]
    | stmt id => simp [Holds, Arena.addFunction]
  · intro func isOpened
    rcases List.mem_cons.mp isOpened with rfl | earlier
    · exact ⟨function, found, noBody⟩
    · obtain ⟨other, known, noBody⟩ := forest.opened func earlier
      exact ⟨other, grown.functions known, noBody⟩
  · intro func other known hasSymbol
    by_cases same : func = (arena.addFunction function).1
    · rw [same, found] at known
      cases known
      rw [same]
      exact added hasSymbol
    · have before : arena.function? func = some other := by
        rw [function?, Arena.addFunction, Array.getElem?_push, if_neg] at known
        · exact known
        · intro atEnd
          exact same (congrArg FuncId.mk atEnd)
      exact kept func (forest.named func other before hasSymbol)

/-- A function that gets its children is no longer open. -/
theorem Forest.settle {func : FuncId} (forest : arena.Forest ((growth.openUp func).add children))
    (known : after.children? (.literal func) = some children)
    (kept : ∀ ref, ref ≠ .literal func → ∀ below, arena.children? ref = some below →
      after.children? ref = some below)
    (exprs : after.exprs.size = arena.exprs.size) (stmts : after.stmts.size = arena.stmts.size)
    (functions : after.functions.size = arena.functions.size)
    (others : ∀ other, other ≠ func → after.function? other = arena.function? other)
    (symbol : ∀ function, after.function? func = some function → ∃ earlier,
      arena.function? func = some earlier ∧ earlier.symbol = function.symbol) :
    after.Forest (growth.add [.literal func]) := by
  obtain ⟨height, nodes, enough, listed, once, all⟩ := forest.listed
  have split : (nodes ++ NodeRef.literal func :: growth.opened.map .literal).Nodup := once
  rw [List.perm_middle.nodup_iff, List.nodup_cons, List.mem_append] at split
  obtain ⟨apart, _⟩ := split
  have differs : ∀ node ∈ nodes, node ≠ .literal func := by
    intro node member same
    exact apart (Or.inl (same ▸ member))
  obtain ⟨grafted, listedAfter, same⟩ :=
    listed.graft (fun node member => kept node (differs node member)) known
  -- The function moves from the open ones to the walk, where it stands above its body.
  have entries : ((growth.add [.literal func]).entries grafted).Perm
      (((growth.openUp func).add children).entries nodes) :=
    (same.append_right _).trans List.perm_middle.symm
  refine ⟨⟨height + 1, grafted, ?_, listedAfter, ?_, ?_⟩, ?_, ?_⟩
  · simp only [Growth.add, Growth.openUp, List.length_cons, Arena.height] at enough ⊢
    omega
  · exact entries.nodup_iff.mpr once
  · intro ref
    rw [entries.mem_iff, all]
    cases ref <;> simp [Holds, exprs, stmts, functions]
  · intro other isOpened
    have different : other ≠ func := by
      intro same
      exact apart (Or.inr (List.mem_map.mpr ⟨other, isOpened, congrArg _ same⟩))
    obtain ⟨function, found, noBody⟩ := forest.opened other (List.mem_cons_of_mem _ isOpened)
    exact ⟨function, (others other different).trans found, noBody⟩
  · intro other function found hasSymbol
    by_cases same : other = func
    · subst same
      obtain ⟨earlier, foundBefore, sameSymbol⟩ := symbol function found
      exact forest.named other earlier foundBefore (sameSymbol ▸ hasSymbol)
    · exact forest.named other function ((others other same).symm.trans found) hasSymbol

theorem Forest.withoutBody {func : FuncId} (forest : arena.Forest (growth.openUp func)) :
    arena.Forest (growth.add [.literal func]) := by
  obtain ⟨function, found, noBody⟩ := forest.opened func (List.mem_cons_self ..)
  rw [← Growth.add_nil (growth.openUp func)] at forest
  apply forest.settle
  · exact Option.bind_eq_some_iff.mpr ⟨function, found, by rw [bodyRefs?, noBody]⟩
  · intro ref _ below known
    exact known
  · rfl
  · rfl
  · rfl
  · intro other _
    rfl
  · intro function found
    exact ⟨function, found, rfl⟩

theorem setBody?_of_found {func : FuncId} {body : List StmtId} {function : Function}
    (found : arena.function? func = some function) :
    arena.setBody? func body = some { (arena.addStmtList body).2 with
      functions := arena.functions.setIfInBounds func.index
        { function with body := some (arena.addStmtList body).1 } } := by
  have also : (arena.addStmtList body).2.function? func = some function := found
  simp only [Arena.setBody?, addStmtList] at also ⊢
  rw [also]

/-- Giving a function its body changes the children of that function alone. -/
theorem exists_setBody? {func : FuncId} {function : Function}
    (found : arena.function? func = some function) (body : List StmtId) :
    ∃ after, arena.setBody? func body = some after ∧
      after.children? (.literal func) = some (body.map .stmt) ∧
      (∀ ref, ref ≠ .literal func → ∀ below, arena.children? ref = some below →
        after.children? ref = some below) ∧
      after.exprs = arena.exprs ∧ after.stmts = arena.stmts ∧
      after.functions = arena.functions.setIfInBounds func.index
        { function with body := some (arena.addStmtList body).1 } := by
  have grown := extends_addStmtList arena body
  have bound : func.index < arena.functions.size := (Array.getElem?_eq_some_iff.mp found).1
  refine ⟨_, setBody?_of_found found, ?_, ?_, rfl, rfl, rfl⟩
  · refine Option.bind_eq_some_iff.mpr ⟨{ function with body := some (arena.addStmtList body).1 },
      ?_, ?_⟩
    · exact Array.getElem?_setIfInBounds_self_of_lt bound
    · exact Option.map_eq_some_iff.mpr ⟨body, stmtList?_addStmtList arena body, rfl⟩
  · intro ref differs below known
    have kept := grown.children? known
    cases ref with
    | expr id => exact kept
    | stmt id => exact kept
    | literal id =>
        have other : func.index ≠ id.index := by
          intro same
          exact differs (congrArg (fun index => NodeRef.literal ⟨index⟩) same.symm)
        obtain ⟨function, here, listed⟩ := Option.bind_eq_some_iff.mp kept
        refine Option.bind_eq_some_iff.mpr ⟨function, ?_, listed⟩
        exact (Array.getElem?_setIfInBounds_ne other).trans here

theorem Forest.setBody? {func : FuncId} {body : List StmtId}
    (forest : arena.Forest ((growth.openUp func).add (body.map .stmt))) :
    ∃ after, arena.setBody? func body = some after ∧ after.Forest (growth.add [.literal func]) := by
  obtain ⟨function, found, _⟩ := forest.opened func (List.mem_cons_self ..)
  have bound : func.index < arena.functions.size := (Array.getElem?_eq_some_iff.mp found).1
  obtain ⟨after, set, known, kept, exprs, stmts, functions⟩ := exists_setBody? found body
  refine ⟨after, set, forest.settle known kept (by rw [exprs]) (by rw [stmts]) ?_ ?_ ?_⟩
  · rw [functions, Array.size_setIfInBounds]
  · intro other differs
    rw [function?, functions, Array.getElem?_setIfInBounds_ne]
    · rfl
    · intro same
      exact differs (congrArg FuncId.mk same.symm)
  · intro function' found'
    refine ⟨function, found, ?_⟩
    rw [function?, functions, Array.getElem?_setIfInBounds_self_of_lt bound] at found'
    cases found'
    rfl

/-- The walk of the roots meets no function whose body is still to come. -/
theorem Forest.exists_lists (forest : arena.Forest growth) :
    ∃ height nodes, arena.Lists height growth.roots nodes ∧
      ∀ func ∈ growth.opened, NodeRef.literal func ∉ nodes := by
  obtain ⟨height, nodes, _, listed, once, _⟩ := forest.listed
  refine ⟨height, nodes, listed, fun func isOpened member => ?_⟩
  exact (List.nodup_append.mp once).2.2 _ member _ (List.mem_map_of_mem isOpened) rfl

end Arena

/-- A property of arenas and what they are made of that building trees keeps: adding a node above
the last roots, a function whose body is still to come, and a body. -/
structure Growing (holds : Arena → OwnedGrowth → Prop) : Prop where
  extend : ∀ {arena after : Arena} {growth : OwnedGrowth}, holds arena growth →
    arena.Extends after → after.exprs = arena.exprs → after.stmts = arena.stmts →
    after.functions = arena.functions → holds after growth
  addExpr : ∀ {arena : Arena} {growth : OwnedGrowth} {children : List NodeRef} {expr : Expr},
    holds arena (growth.add children) → arena.exprChildren? expr.kind = some children →
    holds (arena.addExpr expr).2 (growth.add [.expr (arena.addExpr expr).1])
  addStmt : ∀ {arena : Arena} {growth : OwnedGrowth} {children : List NodeRef} {stmt : Stmt},
    holds arena (growth.add children) → arena.stmtChildren? stmt.kind = some children →
    holds (arena.addStmt stmt).2 (growth.add [.stmt (arena.addStmt stmt).1])
  addFunction : ∀ {arena : Arena} {growth : OwnedGrowth} {function : Function},
    holds arena growth → function.body = none → function.parent = growth.owner →
    ∀ {named : List FuncId}, (∀ func ∈ growth.named, func ∈ named) →
    (function.symbol ≠ none → (arena.addFunction function).1 ∈ named) →
    holds (arena.addFunction function).2 { growth.openUp (arena.addFunction function).1 with named }
  withoutBody : ∀ {arena : Arena} {growth : OwnedGrowth} {func : FuncId},
    holds arena (growth.openUp func) → holds arena (growth.add [.literal func])
  setBody? : ∀ {arena : Arena} {growth : OwnedGrowth} {func : FuncId} {body : List StmtId},
    holds arena ((growth.openUp func).add (body.map .stmt)) →
    ∃ after, arena.setBody? func body = some after ∧ holds after (growth.add [.literal func])

theorem growing_forest : Growing fun arena growth => arena.Forest growth.toGrowth where
  extend := Arena.Forest.extend
  addExpr := Arena.Forest.addExpr
  addStmt := Arena.Forest.addStmt
  addFunction forest noBody _ := forest.addFunction noBody
  withoutBody := Arena.Forest.withoutBody
  setBody? := Arena.Forest.setBody?

end ErrorWrapping
