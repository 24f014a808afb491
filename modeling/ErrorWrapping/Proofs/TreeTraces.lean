import ErrorWrapping.Proofs.TreeParts

/-
The errors that leave a function, by its tree.

Everything is said by recursion over the trees of a unit: which calls are assigned to which
variable, where a function returns, and what it returns there. No number of a node, no fact and no
order of work comes in.
-/

namespace ErrorWrapping

/-- The declared functions of a unit and its package-level statements. -/
abbrev UnitTrees := List FunctionTree × List StmtTree

/-- An error that leaves a function at a `return`: the function whose call produced it, and that
call when a variable is returned. -/
structure ErrorTrace where
  producer : Option SymbolId
  site : Span
  origin : Option Span

def ErrorTrace.unknown (site : Span) : ErrorTrace := ⟨none, site, none⟩

/-- A statement that assigns a call to an `error` variable. -/
structure CallAssignment where
  var : VarId
  span : Span
  producer : Option SymbolId
  call : Span

namespace ExprTree

def span : ExprTree → Span
  | .ident _ _ _ span => span
  | .selector _ _ _ _ span => span
  | .call _ _ _ span => span
  | .funcLit _ _ span => span
  | .nil _ span => span
  | .literal _ span => span
  | .other _ _ span => span

def var? : ExprTree → Option VarId
  | .ident _ (.var var) _ _ => some var
  | _ => none

def callee? : ExprTree → Option ExprTree
  | .call callee _ _ _ => some callee
  | _ => none

end ExprTree

def StmtTree.return? : StmtTree → Option (Span × List ExprTree)
  | .ret results span => some (span, results)
  | _ => none

def TypeTable.isErrorTuple (types : TypeTable) (id : TypeId) : Bool :=
  match types.get? id with
  | some (.tuple elements) => elements.any types.isError
  | _ => false

namespace TreePart

/-- A target of type `error` that is a variable and gets the result of a call. -/
def callAssignment? (types : TypeTable) : TreePart → Option CallAssignment
  | ⟨.expr target, some (span, value)⟩ =>
    if types.isError target.type then do
      let var ← target.var?
      let callee ← value.callee?
      return ⟨var, span, callee.calledSymbol?, value.span⟩
    else none
  | _ => none

def return? : TreePart → Option (Span × List ExprTree)
  | ⟨.stmt tree, _⟩ => tree.return?
  | _ => none

def function? : TreePart → Option FunctionTree
  | ⟨.literal function, _⟩ => some function
  | _ => none

/-- The assignments of calls to variables at and below a part, in the order of the source. -/
def callAssignments (types : TypeTable) (part : TreePart) : List CallAssignment :=
  (part.within .whole).filterMap (callAssignment? types)

end TreePart

/-- The returns of a function with their results, in the order of the source; those of literals
inside it are not its own. -/
def FunctionTree.returns (function : FunctionTree) : List (Span × List ExprTree) :=
  ((TreeNode.literal function).parts.flatMap (TreePart.within .own)).filterMap TreePart.return?

namespace UnitTrees

def parts (trees : UnitTrees) : List TreePart :=
  (trees.1.map fun function => TreeNode.plain (.literal function)) ++ stmtParts trees.2

theorem assigned_of_mem_parts (trees : UnitTrees) (part : TreePart) (member : part ∈ trees.parts) :
    part.assigned = none := by
  rcases List.mem_append.mp member with inFunctions | inStmts
  · obtain ⟨function, _, rfl⟩ := List.mem_map.mp inFunctions
    rfl
  · exact TreeNode.assigned_of_mem_stmtParts inStmts

/-- The declared functions, each followed by the literals inside it, and then the literals of
package-level statements. -/
def functions (trees : UnitTrees) : List FunctionTree :=
  (trees.parts.flatMap (TreePart.within .whole)).filterMap TreePart.function?

variable (types : TypeTable) (trees : UnitTrees)

/-- The assignments of calls to a variable anywhere in the unit, by the start of the statement.
Those that start at the same place stay in the order of the source. -/
def definitions (var : VarId) : List CallAssignment :=
  ((trees.parts.flatMap (TreePart.callAssignments types)).filter (·.var = var)).mergeSort
    fun left right => left.span.start ≤ right.span.start

/-- One trace for each definition of a variable, or one of unknown origin. -/
def varTraces (site : Span) (var : VarId) : List ErrorTrace :=
  match trees.definitions types var with
  | [] => [.unknown site]
  | found => found.map fun entry => ⟨entry.producer, site, some entry.call⟩

def exprTraces (site : Span) (tree : ExprTree) : List ErrorTrace :=
  match tree.callee? with
  | some callee =>
    if types.isError tree.type || types.isErrorTuple tree.type then
      [⟨callee.calledSymbol?, site, none⟩]
    else []
  | none =>
    if types.isError tree.type then
      match tree.var? with
      | some var => trees.varTraces types site var
      | none => [.unknown site]
    else []

def slotTraces (site : Span) (slot : ResultSlot) : List ErrorTrace :=
  if types.isError slot.type then
    match slot.var with
    | some var => trees.varTraces types site var
    | none => [.unknown site]
  else []

def returnTraces (results : List ResultSlot) (entry : Span × List ExprTree) : List ErrorTrace :=
  if entry.2.isEmpty then results.flatMap (trees.slotTraces types entry.1)
  else entry.2.flatMap (trees.exprTraces types entry.1)

def traces (function : FunctionTree) : List ErrorTrace :=
  function.returns.flatMap (trees.returnTraces types function.results)

end UnitTrees

namespace TreePart

variable {types : TypeTable}

theorem callAssignment?_target (target : ExprTree) (span : Span) (value : Option ExprTree) :
    callAssignment? types ⟨.expr target, value.map (span, ·)⟩ =
      (if types.isError target.type then target.var? else none).bind fun var =>
        value.bind fun value => value.callee?.map fun callee =>
          ⟨var, span, callee.calledSymbol?, value.span⟩ := by
  cases value with
  | none => simp [callAssignment?]
  | some value =>
      cases isError : types.isError target.type with
      | false => simp [callAssignment?, isError]
      | true =>
          simp only [callAssignment?, isError, Option.map_some, if_true, Option.bind_some]
          cases target.var? with
          | none => rfl
          | some var => cases value.callee? <;> rfl

theorem callAssignments_eq (part : TreePart) :
    part.callAssignments types =
      (part.callAssignment? types).toList ++ part.node.parts.flatMap (callAssignments types) := by
  rw [callAssignments, within_whole, List.filterMap_cons, List.filterMap_flatMap]
  cases part.callAssignment? types <;> rfl

theorem callAssignments_plain (types : TypeTable) (node : TreeNode) :
    node.plain.callAssignments types = node.parts.flatMap (callAssignments types) := by
  have none : node.plain.callAssignment? types = none := by
    cases node <;> rfl
  rw [callAssignments_eq, none]
  rfl

end TreePart

end ErrorWrapping
