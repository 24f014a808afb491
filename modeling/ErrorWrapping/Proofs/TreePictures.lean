import ErrorWrapping.Proofs.DefinitionLists
import ErrorWrapping.Proofs.TreeTraces

/-
What a tree says of the node that it is read from.

All that the search for errors asks of a node can be told from its tree: the type and the span of
an expression, the variable that it is, the function that it calls; the targets and values of an
assignment, and the results of a `return`.
-/

namespace ErrorWrapping

/-! ### Expressions and their trees -/

theorem Arena.Reads.exists_expr {arena : Arena} {id : ExprId} {tree : ExprTree}
    (reads : arena.Reads (.expr id) (.expr tree)) :
    ∃ height expr, arena.expr? id = some expr ∧
      (arena.reader height).exprNode arena expr = some tree := by
  obtain ⟨height, reads⟩ := reads
  cases height with
  | zero => cases reads
  | succ height =>
      obtain ⟨expr, found, read⟩ := Option.bind_eq_some_iff.mp reads
      exact ⟨height, expr, found, read⟩

namespace Reader

variable {below : Reader} {arena : Arena} {expr : Expr} {tree : ExprTree}

/-- What a tree says of the expression that it is read from. -/
structure Pictures (below : Reader) (tree : ExprTree) (expr : Expr) : Prop where
  span : expr.span = tree.span
  var : ∀ var, tree.var? = some var ↔ ∃ name, expr.kind = .ident name (.var var)
  noCall : tree.callee? = none → ¬ expr.kind.IsCall
  call : ∀ callee, tree.callee? = some callee →
    ∃ id args, expr.kind = .call id args ∧ below.expr id = some callee

theorem pictures_of_exprNode (read : below.exprNode arena expr = some tree) :
    below.Pictures tree expr := by
  obtain ⟨kind, span, type⟩ := expr
  cases kind with
  | ident name binding =>
      cases read
      refine ⟨rfl, fun var => ?_, fun _ => id, nofun⟩
      cases binding <;> simp [ExprTree.var?]
  | selector base field symbol =>
      obtain ⟨_, _, same⟩ := Option.bind_eq_some_iff.mp read
      cases same
      exact ⟨rfl, by simp [ExprTree.var?], fun _ => id, nofun⟩
  | call callee args =>
      obtain ⟨calleeTree, readCallee, rest⟩ := Option.bind_eq_some_iff.mp read
      obtain ⟨_, _, same⟩ := Option.bind_eq_some_iff.mp rest
      cases same
      refine ⟨rfl, by simp [ExprTree.var?], nofun, fun other same => ?_⟩
      cases same
      exact ⟨callee, args, rfl, readCallee⟩
  | funcLit func =>
      obtain ⟨_, _, same⟩ := Option.bind_eq_some_iff.mp read
      cases same
      exact ⟨rfl, by simp [ExprTree.var?], fun _ => id, nofun⟩
  | nil =>
      cases read
      exact ⟨rfl, by simp [ExprTree.var?], fun _ => id, nofun⟩
  | literal =>
      cases read
      exact ⟨rfl, by simp [ExprTree.var?], fun _ => id, nofun⟩
  | other operands =>
      obtain ⟨_, _, same⟩ := Option.bind_eq_some_iff.mp read
      cases same
      exact ⟨rfl, by simp [ExprTree.var?], fun _ => id, nofun⟩

end Reader

/-! ### Statements and their trees -/

theorem Arena.Reads.exists_stmt {arena : Arena} {id : StmtId} {tree : StmtTree}
    (reads : arena.Reads (.stmt id) (.stmt tree)) :
    ∃ height stmt, arena.stmt? id = some stmt ∧
      (arena.reader height).stmtNode arena stmt = some tree := by
  obtain ⟨height, reads⟩ := reads
  cases height with
  | zero => cases reads
  | succ height =>
      obtain ⟨stmt, found, read⟩ := Option.bind_eq_some_iff.mp reads
      exact ⟨height, stmt, found, read⟩

def StmtKind.results? : StmtKind → Option IdRange
  | .ret results => some results
  | _ => none

namespace Reader

variable {below : Reader} {arena : Arena}

/-- What a tree says of the statement that it is read from. -/
structure PicturesStmt (below : Reader) (arena : Arena) (tree : StmtTree) (stmt : Stmt) : Prop where
  assignment : Option.Rel (fun ranges made => made.1 = stmt.span ∧
      below.exprs arena ranges.1 = some made.2.1 ∧ below.exprs arena ranges.2 = some made.2.2)
    stmt.kind.assignment? tree.assignment?
  results : Option.Rel (fun range made => made.1 = stmt.span ∧
      below.exprs arena range = some made.2) stmt.kind.results? tree.return?

theorem pictures_of_stmtNode {stmt : Stmt} {tree : StmtTree}
    (read : below.stmtNode arena stmt = some tree) : below.PicturesStmt arena tree stmt := by
  obtain ⟨kind, span⟩ := stmt
  cases kind with
  | assign op targets values =>
      obtain ⟨left, readLeft, rest⟩ := Option.bind_eq_some_iff.mp read
      obtain ⟨right, readRight, same⟩ := Option.bind_eq_some_iff.mp rest
      cases same
      exact ⟨.some ⟨rfl, readLeft, readRight⟩, .none⟩
  | varDecl names values =>
      obtain ⟨left, readLeft, rest⟩ := Option.bind_eq_some_iff.mp read
      obtain ⟨right, readRight, same⟩ := Option.bind_eq_some_iff.mp rest
      cases same
      exact ⟨.some ⟨rfl, readLeft, readRight⟩, .none⟩
  | ret results =>
      obtain ⟨trees, readResults, same⟩ := Option.bind_eq_some_iff.mp read
      cases same
      exact ⟨.none, .some ⟨rfl, readResults⟩⟩
  | expr expr =>
      obtain ⟨_, _, same⟩ := Option.bind_eq_some_iff.mp read
      cases same
      exact ⟨.none, .none⟩
  | block body =>
      obtain ⟨_, _, same⟩ := Option.bind_eq_some_iff.mp read
      cases same
      exact ⟨.none, .none⟩
  | cond init test body otherwise =>
      obtain ⟨_, _, rest⟩ := Option.bind_eq_some_iff.mp read
      obtain ⟨_, _, rest⟩ := Option.bind_eq_some_iff.mp rest
      obtain ⟨_, _, rest⟩ := Option.bind_eq_some_iff.mp rest
      obtain ⟨_, _, same⟩ := Option.bind_eq_some_iff.mp rest
      cases same
      exact ⟨.none, .none⟩
  | loop init body =>
      obtain ⟨_, _, rest⟩ := Option.bind_eq_some_iff.mp read
      obtain ⟨_, _, same⟩ := Option.bind_eq_some_iff.mp rest
      cases same
      exact ⟨.none, .none⟩
  | switch init tag cases =>
      obtain ⟨_, _, rest⟩ := Option.bind_eq_some_iff.mp read
      obtain ⟨_, _, rest⟩ := Option.bind_eq_some_iff.mp rest
      obtain ⟨_, _, same⟩ := Option.bind_eq_some_iff.mp rest
      cases same
      exact ⟨.none, .none⟩

end Reader

namespace UnitView

variable {view : UnitView} {types : Nat}

/-- What a tree says of its expression within the program. -/
structure Matches (view : UnitView) (tree : ExprTree) (expr : Expr) : Prop where
  type : expr.type = tree.type
  span : expr.span = tree.span
  var : view.varOf? expr = tree.var?
  noCall : tree.callee? = none → ¬ expr.kind.IsCall
  call : ∀ callee, tree.callee? = some callee → (∃ id args, expr.kind = .call id args) ∧
    ∃ target, view.target? expr = some target ∧ target.symbol = callee.calledSymbol?

/-- Where every symbol that is named exists, a call invokes the one that its callee names. -/
theorem calleeSymbol?_of_call (grounded : view.arena.Grounded view.symbols.size types)
    {callee : ExprId} {args : IdRange} {expr head : Expr} (kind : expr.kind = .call callee args)
    (found : view.arena.expr? callee = some head) :
    view.calleeSymbol? expr = some (TreeBuilder.calledSymbol? head.kind) := by
  have named : view.namedSymbol? expr = some (TreeBuilder.calledSymbol? head.kind) := by
    simp only [namedSymbol?, kind, found, Option.bind_eq_bind, Option.bind_some]
    rfl
  have within := (grounded.exprs callee head found).1
  have known : ∀ symbol, TreeBuilder.calledSymbol? head.kind = some symbol →
      (view.symbols.get? symbol).isSome = true := by
    intro symbol called
    have inside : symbol.index < view.symbols.size := by
      unfold TreeBuilder.calledSymbol? at called
      split at called
      · rename_i name other same
        cases called
        rw [same] at within
        exact within
      · rename_i base field other same
        rw [same] at within
        exact within.2 symbol called
      · cases called
    exact Option.isSome_iff_exists.mpr ⟨_, Array.getElem?_eq_getElem inside⟩
  simp only [calleeSymbol?, named, Option.bind_eq_bind, Option.bind_some, Option.pure_def]
  cases called : TreeBuilder.calledSymbol? head.kind with
  | none => rfl
  | some symbol => simp [known symbol called]

theorem exists_receiverIsInterface? {callee : ExprId} {args : IdRange} {expr head : Expr}
    (kind : expr.kind = .call callee args) {tree : ExprTree}
    (reads : view.arena.Reads (.expr callee) (.expr tree))
    (found : view.arena.expr? callee = some head) :
    ∃ answer, view.receiverIsInterface? expr = some answer := by
  simp only [receiverIsInterface?, kind, found, Option.bind_eq_bind, Option.bind_some]
  cases headKind : head.kind with
  | selector base field symbol =>
      obtain ⟨refs, known, all⟩ := reads.readsAll
      obtain ⟨other, found', listed⟩ := Option.bind_eq_some_iff.mp known
      cases found.symm.trans found'
      rw [headKind] at listed
      cases listed
      obtain ⟨part, _, readsBase⟩ := mem_of_forall₂_left all (List.mem_singleton.mpr rfl)
      obtain ⟨_, knownBase, _⟩ := readsBase.readsAll
      obtain ⟨receiver, foundBase, _⟩ := Option.bind_eq_some_iff.mp knownBase
      exact ⟨_, Option.bind_eq_some_iff.mpr ⟨receiver, foundBase, rfl⟩⟩
  | _ => exact ⟨false, rfl⟩

/-- What can be read has an expression that the tree matches. -/
theorem exists_matches (grounded : view.arena.Grounded view.symbols.size types) {id : ExprId}
    {tree : ExprTree} (reads : view.arena.Reads (.expr id) (.expr tree)) :
    ∃ expr, view.arena.expr? id = some expr ∧ view.Matches tree expr := by
  obtain ⟨height, expr, found, read⟩ := reads.exists_expr
  have pictures := Reader.pictures_of_exprNode read
  refine ⟨expr, found, (Reader.head_of_exprNode read).1, pictures.span, ?_, pictures.noCall, ?_⟩
  · refine Option.ext fun var => ?_
    rw [varOf?_eq_some_iff grounded found, pictures.var]
  · intro callee called
    obtain ⟨calleeId, args, kind, readCallee⟩ := pictures.call callee called
    have readsCallee : view.arena.Reads (.expr calleeId) (.expr callee) := ⟨height, readCallee⟩
    obtain ⟨_, head, foundHead, readHead⟩ := readsCallee.exists_expr
    have symbol := calleeSymbol?_of_call grounded kind foundHead
    obtain ⟨answer, asked⟩ := exists_receiverIsInterface? kind readsCallee foundHead
    refine ⟨⟨calleeId, args, kind⟩, ⟨TreeBuilder.calledSymbol? head.kind, answer⟩, ?_,
      (Reader.head_of_exprNode readHead).2⟩
    simp only [target?, symbol, asked, Option.bind_eq_bind, Option.bind_some, Option.pure_def]

/-- Expressions are read as a list of trees. -/
def ReadsExprs (view : UnitView) (ids : List ExprId) (trees : List ExprTree) : Prop :=
  List.Forall₂ (fun id tree => view.arena.Reads (.expr id) (.expr tree)) ids trees

theorem readsExprs_of_exprs {height : Nat} {range : IdRange} {ids : List ExprId}
    {trees : List ExprTree} (read : (view.arena.reader height).exprs view.arena range = some trees)
    (listed : view.arena.exprList? range = some ids) : view.ReadsExprs ids trees := by
  obtain ⟨ids', listed', each⟩ := Reader.exprs_eq_some read
  cases listed.symm.trans listed'
  exact each.imp fun _ _ readsHere => ⟨height, readsHere⟩

end UnitView

end ErrorWrapping
