import ErrorWrapping.Proofs.DumpTrees
import ErrorWrapping.Proofs.TreeTraces

/-
The returns of a function in a dump.

They are the `return` statements of its body in the order of the source, without those of the
literals inside it. The tree of the function returns the same, in the same order.
-/

namespace ErrorWrapping

namespace Dump

structure Return where
  results : List Expr
  at? : Option Position

mutual

/-- The returns at and below a statement. Expressions have none, since a literal inside them
returns from itself. -/
def Stmt.returns : Stmt → List Return
  | .ret results at? => [⟨results, at?⟩]
  | .block body _ => bodyReturns body
  | .cond init _ body otherwise _ =>
    optionReturns init ++ (bodyReturns body ++ optionReturns otherwise)
  | .loop init body _ => optionReturns init ++ bodyReturns body
  | .switch init _ cases _ => optionReturns init ++ casesReturns cases
  | .define _ _ _ | .assign _ _ _ | .var _ _ _ | .expr _ _ => []

def bodyReturns : List Stmt → List Return
  | [] => []
  | first :: rest => first.returns ++ bodyReturns rest

def optionReturns : Option Stmt → List Return
  | none => []
  | some stmt => stmt.returns

def casesReturns : List (List Stmt) → List Return
  | [] => []
  | body :: rest => bodyReturns body ++ casesReturns rest

end

def Function.returns : Function → List Return
  | .mk _ none => []
  | .mk _ (some body) => bodyReturns body

end Dump

/-! ### Returns of trees -/

namespace TreePart

/-- The returns at and below a part, those of literals left out. -/
def returns (part : TreePart) : List (Span × List ExprTree) :=
  (part.within .own).filterMap return?

theorem returns_of_entered {part : TreePart} (entered : part.node.entered .own = true) :
    part.returns = part.return?.toList ++ part.node.parts.flatMap returns := by
  rw [returns, within_of_entered entered, List.filterMap_cons, List.filterMap_flatMap]
  cases part.return? <;> rfl

theorem returns_of_literal {part : TreePart} {function : FunctionTree}
    (isLiteral : part.node = .literal function) : part.returns = [] := by
  rw [returns, within_of_not_entered (by simp [isLiteral, TreeNode.entered])]
  rfl

theorem exprs_of_mem_parts {tree : ExprTree} {part : TreePart}
    (member : part ∈ (TreeNode.expr tree).parts) :
    (∃ inner, part.node = .expr inner) ∨ ∃ function, part.node = .literal function := by
  cases tree with
  | ident _ _ _ _ | nil _ _ | literal _ _ => cases member
  | selector base _ _ _ _ => exact .inl ⟨base, by rw [List.mem_singleton.mp member]; rfl⟩
  | funcLit function _ _ => exact .inr ⟨function, by rw [List.mem_singleton.mp member]; rfl⟩
  | call callee args _ _ =>
      rcases List.mem_cons.mp member with rfl | inArgs
      · exact .inl ⟨callee, rfl⟩
      · obtain ⟨arg, _, rfl⟩ := List.mem_map.mp inArgs
        exact .inl ⟨arg, rfl⟩
  | other operands _ _ =>
      obtain ⟨operand, _, rfl⟩ := List.mem_map.mp member
      exact .inl ⟨operand, rfl⟩

theorem returns_of_expr (part : TreePart) {tree : ExprTree} (isExpr : part.node = .expr tree) :
    part.returns = [] := by
  have noReturn : part.return? = none := by
    obtain ⟨node, assigned⟩ := part
    cases isExpr
    rfl
  rw [returns_of_entered (by rw [isExpr]; rfl), noReturn]
  refine List.flatMap_eq_nil_iff.mpr fun inner member => ?_
  have smaller := TreeNode.size_lt_of_mem_parts member
  rw [isExpr] at member
  rcases exprs_of_mem_parts member with ⟨_, isExpr⟩ | ⟨_, isLiteral⟩
  · exact returns_of_expr inner isExpr
  · exact returns_of_literal isLiteral
termination_by part.node.size

theorem returns_exprParts (trees : List ExprTree) : (exprParts trees).flatMap returns = [] := by
  refine List.flatMap_eq_nil_iff.mpr fun part member => ?_
  obtain ⟨tree, _, rfl⟩ := List.mem_map.mp member
  exact returns_of_expr _ rfl

theorem returns_assignmentParts (span : Span) (targets values : List ExprTree) :
    (assignmentParts span targets values).flatMap returns = [] := by
  rw [assignmentParts, List.flatMap_append, returns_exprParts, List.append_nil]
  refine List.flatMap_eq_nil_iff.mpr fun part member => ?_
  obtain ⟨target, _, rfl⟩ := List.mem_map.mp member
  exact returns_of_expr _ rfl

theorem returns_stmtParts_cons (first : StmtTree) (rest : List StmtTree) :
    (stmtParts (first :: rest)).flatMap returns =
      (TreeNode.plain (.stmt first)).returns ++ (stmtParts rest).flatMap returns :=
  rfl

theorem returns_stmt (tree : StmtTree) :
    (TreeNode.plain (.stmt tree)).returns =
      tree.return?.toList ++ (TreeNode.stmt tree).parts.flatMap returns :=
  returns_of_entered rfl

end TreePart

theorem FunctionTree.returns_eq (function : FunctionTree) :
    function.returns = (TreeNode.literal function).parts.flatMap TreePart.returns :=
  List.filterMap_flatMap ..

/-! ### Returns of dumps -/

namespace Dump.Glossary

open TreePart

variable (glossary : Glossary) (file : Option FileId)

/-- Where a `return` stands, and the trees of its results. -/
def returned (entry : Return) : Span × List ExprTree :=
  (glossary.span file entry.at?, glossary.exprs file entry.results)

mutual

theorem returns_stmt (stmt : Stmt) :
    (TreeNode.plain (.stmt (glossary.stmt file stmt))).returns =
      stmt.returns.map (glossary.returned file) := by
  rw [TreePart.returns_stmt]
  cases stmt with
  | define targets values at? | assign targets values at? | var targets values at? =>
      simp only [Glossary.stmt, StmtTree.return?, TreeNode.parts, returns_assignmentParts]
      rfl
  | ret results at? =>
      simp only [Glossary.stmt, StmtTree.return?, TreeNode.parts, returns_exprParts]
      rfl
  | expr value at? =>
      simp only [Glossary.stmt, StmtTree.return?, TreeNode.parts]
      exact returns_exprParts [glossary.expr file value]
  | block body at? =>
      simp only [Glossary.stmt, StmtTree.return?, TreeNode.parts]
      exact returns_stmts body
  | cond init test body otherwise at? =>
      simp only [Glossary.stmt, StmtTree.return?, TreeNode.parts, List.flatMap_append, List.flatMap_cons]
      rw [returns_option init, returns_of_expr _ rfl, returns_stmts body, returns_option otherwise]
      simp [Stmt.returns]
  | loop init body at? =>
      simp only [Glossary.stmt, StmtTree.return?, TreeNode.parts, List.flatMap_append]
      rw [returns_option init, returns_stmts body]
      simp [Stmt.returns]
  | switch init tag cases at? =>
      simp only [Glossary.stmt, StmtTree.return?, TreeNode.parts, List.flatMap_append, returns_exprParts]
      rw [returns_option init, returns_cases cases]
      simp [Stmt.returns]

theorem returns_stmts (stmts : List Stmt) :
    (stmtParts (glossary.stmts file stmts)).flatMap TreePart.returns =
      (bodyReturns stmts).map (glossary.returned file) := by
  cases stmts with
  | nil => rfl
  | cons first rest =>
      rw [Glossary.stmts, returns_stmtParts_cons, returns_stmt first, returns_stmts rest, bodyReturns, List.map_append]

theorem returns_option (stmt : Option Stmt) :
    (stmtParts (glossary.option file stmt).toList).flatMap TreePart.returns =
      (optionReturns stmt).map (glossary.returned file) := by
  cases stmt with
  | none => rfl
  | some stmt =>
      rw [Glossary.option, Option.toList_some, returns_stmtParts_cons, returns_stmt stmt]
      exact List.append_nil _

theorem returns_cases (cases : List (List Stmt)) :
    (stmtParts (glossary.cases file cases)).flatMap TreePart.returns =
      (casesReturns cases).map (glossary.returned file) := by
  cases cases with
  | nil => rfl
  | cons body rest =>
      rw [Glossary.cases, returns_stmtParts_cons, TreePart.returns_stmt, returns_cases rest, casesReturns,
        List.map_append]
      exact congrArg (· ++ _) (returns_stmts body)

end

/-- A function of a dump returns what its tree returns. -/
theorem returns_function (declared : Bool) (function : Function) :
    (glossary.function file declared function).returns =
      function.returns.map
        (glossary.returned (glossary.fileWithin file function.signature.file)) := by
  rw [FunctionTree.returns_eq]
  obtain ⟨signature, body⟩ := function
  cases body with
  | none => rw [Glossary.function]; rfl
  | some body => rw [Glossary.function]; exact glossary.returns_stmts _ body

end Dump.Glossary

end ErrorWrapping
