import ErrorWrapping.Tree.Arena

/-
Walking a tree.

A walk lists the nodes below a node in preorder, in the order in which they stand in the source.
A function literal is reached through its expression, and its body is walked or passed over. A
walk that meets an identifier without a node gives nothing.
-/

namespace ErrorWrapping

inductive NodeRef where
  | expr (id : ExprId)
  | stmt (id : StmtId)
  | literal (id : FuncId)
  deriving DecidableEq, Inhabited

namespace Arena

def exprRefs? (arena : Arena) (range : IdRange) : Option (List NodeRef) :=
  (arena.exprList? range).map (·.map .expr)

def stmtRefs? (arena : Arena) (range : IdRange) : Option (List NodeRef) :=
  (arena.stmtList? range).map (·.map .stmt)

def bodyRefs? (arena : Arena) (function : Function) : Option (List NodeRef) :=
  match function.body with
  | none => some []
  | some range => arena.stmtRefs? range

def exprChildren? (arena : Arena) : ExprKind → Option (List NodeRef)
  | .ident _ _ => some []
  | .selector base _ _ => some [.expr base]
  | .call callee args => (arena.exprRefs? args).map (.expr callee :: ·)
  | .funcLit func => some [.literal func]
  | .nil => some []
  | .literal => some []
  | .other operands => arena.exprRefs? operands

def stmtChildren? (arena : Arena) : StmtKind → Option (List NodeRef)
  | .assign _ targets values => do return (← arena.exprRefs? targets) ++ (← arena.exprRefs? values)
  | .varDecl names values => do return (← arena.exprRefs? names) ++ (← arena.exprRefs? values)
  | .ret results => arena.exprRefs? results
  | .expr expr => some [.expr expr]
  | .block body => arena.stmtRefs? body
  | .cond init test body otherwise => do
    return init.toList.map .stmt ++ .expr test :: (← arena.stmtRefs? body) ++
      otherwise.toList.map .stmt
  | .loop init body => do return init.toList.map .stmt ++ (← arena.stmtRefs? body)
  | .switch init tag cases => do
    return init.toList.map .stmt ++ tag.toList.map .expr ++ (← arena.stmtRefs? cases)

/-- The children of a node in source order. -/
def children? (arena : Arena) : NodeRef → Option (List NodeRef)
  | .expr id => (arena.expr? id).bind fun expr => arena.exprChildren? expr.kind
  | .stmt id => (arena.stmt? id).bind fun stmt => arena.stmtChildren? stmt.kind
  | .literal id => (arena.function? id).bind arena.bodyRefs?

/-- More than the number of nodes on any path of a tree without cycles. -/
def height (arena : Arena) : Nat :=
  arena.exprs.size + arena.stmts.size + arena.functions.size + 1

inductive Reach where
  | whole
  /-- Only what belongs to the function itself. -/
  | own
  deriving DecidableEq

/-- The nodes of a walk from a node, on paths no longer than the first number. -/
def walkWithin (arena : Arena) (reach : Reach) : Nat → NodeRef → Option (List NodeRef)
  | 0, _ => none
  | height + 1, ref =>
    match reach, ref with
    | .own, .literal _ => some []
    | _, _ => do
      let children ← arena.children? ref
      let below ← children.mapM (arena.walkWithin reach height)
      return ref :: below.flatten

def walk (arena : Arena) (reach : Reach) (refs : List NodeRef) : Option (List NodeRef) :=
  (refs.mapM (arena.walkWithin reach arena.height)).map (·.flatten)

end Arena

end ErrorWrapping
