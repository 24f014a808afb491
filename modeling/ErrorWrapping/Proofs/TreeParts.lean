import ErrorWrapping.Proofs.TreeReading

/-
The parts of a tree.

The nodes of a tree, listed in the order of the source, each with the value that the statement
around it assigns to it, if it assigns one. Reading a unit takes the children of a node to the
parts of its tree, so a walk of the nodes meets exactly what the listing of the tree has, in the
same order.
-/

namespace ErrorWrapping

/-- A node of a tree; `literal` is a function with its body. -/
inductive TreeNode where
  | expr (tree : ExprTree)
  | stmt (tree : StmtTree)
  | literal (tree : FunctionTree)

/-- A node below another one. -/
structure TreePart where
  node : TreeNode
  /-- The value that a statement assigns to the node, with the span of the statement. -/
  assigned : Option (Span × ExprTree)

/-- A part that nothing is assigned to. -/
def TreeNode.plain (node : TreeNode) : TreePart := ⟨node, none⟩

def exprParts (trees : List ExprTree) : List TreePart :=
  trees.map fun tree => TreeNode.plain (.expr tree)

def stmtParts (trees : List StmtTree) : List TreePart :=
  trees.map fun tree => TreeNode.plain (.stmt tree)

/-- The span, the targets and the values of an assignment or declaration. -/
def StmtTree.assignment? : StmtTree → Option (Span × List ExprTree × List ExprTree)
  | .assign _ targets values span => some (span, targets, values)
  | .varDecl names values span => some (span, names, values)
  | _ => none

/-- The value at the right of the target of this position, when there are so many targets. -/
def valueTree? (targets : Nat) (values : List ExprTree) (position : Nat) : Option ExprTree :=
  if values.length = targets then values[position]?
  else
    match values with
    | [single] => some single
    | _ => none

/-- The targets of an assignment with their values, and then the values. -/
def assignmentParts (span : Span) (targets values : List ExprTree) : List TreePart :=
  (targets.zipIdx.map fun target =>
    ⟨.expr target.1, (valueTree? targets.length values target.2).map (span, ·)⟩) ++
  exprParts values

namespace TreeNode

/-- What is directly below a node, in the order of the source. -/
def parts : TreeNode → List TreePart
  | .expr (.ident _ _ _ _) => []
  | .expr (.selector base _ _ _ _) => [plain (.expr base)]
  | .expr (.call callee args _ _) => plain (.expr callee) :: exprParts args
  | .expr (.funcLit function _ _) => [plain (.literal function)]
  | .expr (.nil _ _) => []
  | .expr (.literal _ _) => []
  | .expr (.other operands _ _) => exprParts operands
  | .stmt (.assign _ targets values span) => assignmentParts span targets values
  | .stmt (.varDecl names values span) => assignmentParts span names values
  | .stmt (.ret results _) => exprParts results
  | .stmt (.expr value _) => [plain (.expr value)]
  | .stmt (.block body _) => stmtParts body
  | .stmt (.cond init test body otherwise _) =>
    stmtParts init.toList ++ plain (.expr test) :: stmtParts body ++ stmtParts otherwise.toList
  | .stmt (.loop init body _) => stmtParts init.toList ++ stmtParts body
  | .stmt (.switch init tag cases _) =>
    stmtParts init.toList ++ exprParts tag.toList ++ stmtParts cases
  | .literal (.mk _ _ _ _ none _) => []
  | .literal (.mk _ _ _ _ (some body) _) => stmtParts body

theorem assigned_of_mem_exprParts {trees : List ExprTree} {part : TreePart}
    (member : part ∈ exprParts trees) : part.assigned = none := by
  obtain ⟨tree, _, rfl⟩ := List.mem_map.mp member
  rfl

theorem assigned_of_mem_stmtParts {trees : List StmtTree} {part : TreePart}
    (member : part ∈ stmtParts trees) : part.assigned = none := by
  obtain ⟨tree, _, rfl⟩ := List.mem_map.mp member
  rfl

def assignment? : TreeNode → Option (Span × List ExprTree × List ExprTree)
  | .stmt tree => tree.assignment?
  | _ => none

theorem parts_of_assignment? {node : TreeNode} {made : Span × List ExprTree × List ExprTree}
    (assigns : node.assignment? = some made) :
    node.parts = assignmentParts made.1 made.2.1 made.2.2 := by
  fun_cases parts node <;> cases assigns <;> rfl

theorem assigned_of_mem_parts {node : TreeNode} (assigns : node.assignment? = none)
    {part : TreePart} (member : part ∈ node.parts) : part.assigned = none := by
  fun_cases parts node <;>
    simp only [parts, List.mem_cons, List.mem_append, List.not_mem_nil, or_false] at member <;>
    grind [plain, assignment?, StmtTree.assignment?, → assigned_of_mem_exprParts,
      → assigned_of_mem_stmtParts]

/-- Whether a listing goes on to a node. -/
def entered : Arena.Reach → TreeNode → Bool
  | .own, .literal _ => false
  | _, _ => true

/-! ### Trees get smaller -/

/-- A measure of trees that gets smaller below a node. -/
noncomputable def size : TreeNode → Nat
  | .expr tree => sizeOf tree
  | .stmt tree => sizeOf tree
  | .literal tree => sizeOf tree

theorem size_lt_of_mem_exprParts {trees : List ExprTree} {part : TreePart}
    (member : part ∈ exprParts trees) : part.node.size < sizeOf trees := by
  obtain ⟨tree, inTrees, rfl⟩ := List.mem_map.mp member
  exact List.sizeOf_lt_of_mem inTrees

theorem size_lt_of_mem_stmtParts {trees : List StmtTree} {part : TreePart}
    (member : part ∈ stmtParts trees) : part.node.size < sizeOf trees := by
  obtain ⟨tree, inTrees, rfl⟩ := List.mem_map.mp member
  exact List.sizeOf_lt_of_mem inTrees

theorem size_lt_of_mem_assignmentParts {span : Span} {targets values : List ExprTree}
    {part : TreePart} (member : part ∈ assignmentParts span targets values) :
    part.node.size < sizeOf targets + sizeOf values := by
  rcases List.mem_append.mp member with inTargets | inValues
  · obtain ⟨⟨target, position⟩, inZip, rfl⟩ := List.mem_map.mp inTargets
    exact Nat.lt_add_right _ (List.sizeOf_lt_of_mem (List.fst_mem_of_mem_zipIdx inZip))
  · exact Nat.lt_add_left _ (size_lt_of_mem_exprParts inValues)

theorem size_lt_of_mem_init {init : Option StmtTree} {part : TreePart}
    (member : part ∈ stmtParts init.toList) : part.node.size < sizeOf init := by
  cases init with
  | none => cases member
  | some tree =>
      cases List.mem_singleton.mp member
      simp [plain, size]

theorem size_lt_of_mem_tag {tag : Option ExprTree} {part : TreePart}
    (member : part ∈ exprParts tag.toList) : part.node.size < sizeOf tag := by
  cases tag with
  | none => cases member
  | some tree =>
      cases List.mem_singleton.mp member
      simp [plain, size]

theorem size_lt_of_mem_parts {node : TreeNode} {part : TreePart} (member : part ∈ node.parts) :
    part.node.size < node.size := by
  fun_cases parts node <;>
    simp only [parts, List.mem_cons, List.mem_append, List.not_mem_nil, or_false] at member <;>
    grind [size, plain, → size_lt_of_mem_exprParts, → size_lt_of_mem_stmtParts,
      → size_lt_of_mem_init, → size_lt_of_mem_tag, → size_lt_of_mem_assignmentParts]

end TreeNode

/-! ### Listings -/

namespace TreePart

/-- A part and all that is below it, in the order of the source. -/
def within (reach : Arena.Reach) (part : TreePart) : List TreePart :=
  if part.node.entered reach then
    part :: part.node.parts.attach.flatMap fun inner => inner.1.within reach
  else []
termination_by part.node.size
decreasing_by exact TreeNode.size_lt_of_mem_parts inner.2

theorem within_of_entered {reach : Arena.Reach} {part : TreePart}
    (entered : part.node.entered reach = true) :
    part.within reach = part :: part.node.parts.flatMap (within reach) := by
  rw [within, if_pos entered]
  simp

theorem within_of_not_entered {reach : Arena.Reach} {part : TreePart}
    (passed : ¬ part.node.entered reach = true) : part.within reach = [] := by
  rw [within, if_neg passed]

theorem within_whole (part : TreePart) :
    part.within .whole = part :: part.node.parts.flatMap (within .whole) :=
  within_of_entered rfl

end TreePart

/-! ### Readers -/

namespace Reader

def Reads (reader : Reader) : NodeRef → TreeNode → Prop
  | .expr id, .expr tree => reader.expr id = some tree
  | .stmt id, .stmt tree => reader.stmt id = some tree
  | .literal id, .literal tree => reader.function id = some tree
  | _, _ => False

theorem Reads.kinds {reader : Reader} {ref : NodeRef} {node : TreeNode}
    (reads : reader.Reads ref node) :
    (∃ id tree, ref = .expr id ∧ node = .expr tree) ∨
      (∃ id tree, ref = .stmt id ∧ node = .stmt tree) ∨
      ∃ id tree, ref = .literal id ∧ node = .literal tree := by
  cases ref with
  | expr id =>
      cases node with
      | expr tree => exact .inl ⟨id, tree, rfl, rfl⟩
      | _ => cases reads
  | stmt id =>
      cases node with
      | stmt tree => exact .inr (.inl ⟨id, tree, rfl, rfl⟩)
      | _ => cases reads
  | literal id =>
      cases node with
      | literal tree => exact .inr (.inr ⟨id, tree, rfl, rfl⟩)
      | _ => cases reads

def ReadsAll (reader : Reader) (refs : List NodeRef) (parts : List TreePart) : Prop :=
  List.Forall₂ (fun ref part => reader.Reads ref part.node) refs parts

variable {below : Reader} {arena : Arena} {range : IdRange}

theorem readsAll_exprParts {ids : List ExprId} {trees : List ExprTree}
    (read : List.Forall₂ (fun id tree => below.expr id = some tree) ids trees) :
    below.ReadsAll (ids.map .expr) (exprParts trees) :=
  List.forall₂_map_left_iff.mpr (List.forall₂_map_right_iff.mpr read)

theorem readsAll_stmtParts {ids : List StmtId} {trees : List StmtTree}
    (read : List.Forall₂ (fun id tree => below.stmt id = some tree) ids trees) :
    below.ReadsAll (ids.map .stmt) (stmtParts trees) :=
  List.forall₂_map_left_iff.mpr (List.forall₂_map_right_iff.mpr read)

theorem exprs_eq_some {trees : List ExprTree} (read : below.exprs arena range = some trees) :
    ∃ ids, arena.exprList? range = some ids ∧
      List.Forall₂ (fun id tree => below.expr id = some tree) ids trees := by
  obtain ⟨ids, listed, each⟩ := Option.bind_eq_some_iff.mp read
  exact ⟨ids, listed, mapM_eq_some_iff.mp each⟩

theorem readsAll_exprs {trees : List ExprTree} (read : below.exprs arena range = some trees) :
    ∃ refs, arena.exprRefs? range = some refs ∧ below.ReadsAll refs (exprParts trees) := by
  obtain ⟨ids, listed, each⟩ := exprs_eq_some read
  exact ⟨ids.map .expr, Option.map_eq_some_iff.mpr ⟨ids, listed, rfl⟩, readsAll_exprParts each⟩

theorem readsAll_stmts {trees : List StmtTree} (read : below.stmts arena range = some trees) :
    ∃ refs, arena.stmtRefs? range = some refs ∧ below.ReadsAll refs (stmtParts trees) := by
  obtain ⟨ids, listed, each⟩ := Option.bind_eq_some_iff.mp read
  exact ⟨ids.map .stmt, Option.map_eq_some_iff.mpr ⟨ids, listed, rfl⟩,
    readsAll_stmtParts (mapM_eq_some_iff.mp each)⟩

theorem forall₂_of_optionMapM {α β : Type} {f : α → Option β} {x : Option α} {y : Option β}
    (read : x.mapM f = some y) : List.Forall₂ (fun a b => f a = some b) x.toList y.toList := by
  cases x with
  | none =>
      cases read
      exact .nil
  | some value =>
      obtain ⟨result, found, rfl⟩ := Option.map_eq_some_iff.mp read
      exact .cons found .nil

theorem readsAll_assignment {left right : IdRange} {targets values : List ExprTree}
    (readTargets : below.exprs arena left = some targets)
    (readValues : below.exprs arena right = some values) (span : Span) :
    ∃ refs, (do return (← arena.exprRefs? left) ++ (← arena.exprRefs? right)) = some refs ∧
      below.ReadsAll refs (assignmentParts span targets values) := by
  obtain ⟨ids, listed, each⟩ := exprs_eq_some readTargets
  obtain ⟨refs, found, all⟩ := readsAll_exprs readValues
  have foundTargets : arena.exprRefs? left = some (ids.map .expr) :=
    Option.map_eq_some_iff.mpr ⟨ids, listed, rfl⟩
  refine ⟨ids.map .expr ++ refs, by simp [foundTargets, found], ?_⟩
  refine List.rel_append (List.forall₂_map_left_iff.mpr (List.forall₂_map_right_iff.mpr ?_)) all
  exact (forall₂_zipIdx each.flip).flip

/-- Reading the children of a node gives the parts of its tree. -/
theorem readsAll_of_exprNode {expr : Expr} {tree : ExprTree}
    (read : below.exprNode arena expr = some tree) :
    ∃ refs, arena.exprChildren? expr.kind = some refs ∧
      below.ReadsAll refs (TreeNode.expr tree).parts := by
  obtain ⟨kind, span, type⟩ := expr
  cases kind with
  | ident name binding =>
      cases read
      exact ⟨[], rfl, .nil⟩
  | selector base field symbol =>
      obtain ⟨baseTree, readBase, same⟩ := Option.bind_eq_some_iff.mp read
      cases same
      exact ⟨_, rfl, .cons readBase .nil⟩
  | call callee args =>
      obtain ⟨calleeTree, readCallee, rest⟩ := Option.bind_eq_some_iff.mp read
      obtain ⟨argTrees, readArgs, same⟩ := Option.bind_eq_some_iff.mp rest
      cases same
      obtain ⟨refs, found, all⟩ := readsAll_exprs readArgs
      exact ⟨_, Option.map_eq_some_iff.mpr ⟨refs, found, rfl⟩, .cons readCallee all⟩
  | funcLit func =>
      obtain ⟨function, readFunction, same⟩ := Option.bind_eq_some_iff.mp read
      cases same
      exact ⟨_, rfl, .cons readFunction .nil⟩
  | nil =>
      cases read
      exact ⟨[], rfl, .nil⟩
  | literal =>
      cases read
      exact ⟨[], rfl, .nil⟩
  | other operands =>
      obtain ⟨trees, readOperands, same⟩ := Option.bind_eq_some_iff.mp read
      cases same
      exact readsAll_exprs readOperands

theorem readsAll_of_stmtNode {stmt : Stmt} {tree : StmtTree}
    (read : below.stmtNode arena stmt = some tree) :
    ∃ refs, arena.stmtChildren? stmt.kind = some refs ∧
      below.ReadsAll refs (TreeNode.stmt tree).parts := by
  obtain ⟨kind, span⟩ := stmt
  cases kind with
  | assign op targets values =>
      obtain ⟨left, readLeft, rest⟩ := Option.bind_eq_some_iff.mp read
      obtain ⟨right, readRight, same⟩ := Option.bind_eq_some_iff.mp rest
      cases same
      exact readsAll_assignment readLeft readRight span
  | varDecl names values =>
      obtain ⟨left, readLeft, rest⟩ := Option.bind_eq_some_iff.mp read
      obtain ⟨right, readRight, same⟩ := Option.bind_eq_some_iff.mp rest
      cases same
      exact readsAll_assignment readLeft readRight span
  | ret results =>
      obtain ⟨trees, readResults, same⟩ := Option.bind_eq_some_iff.mp read
      cases same
      exact readsAll_exprs readResults
  | expr expr =>
      obtain ⟨value, readValue, same⟩ := Option.bind_eq_some_iff.mp read
      cases same
      exact ⟨_, rfl, .cons readValue .nil⟩
  | block body =>
      obtain ⟨trees, readBody, same⟩ := Option.bind_eq_some_iff.mp read
      cases same
      exact readsAll_stmts readBody
  | cond init test body otherwise =>
      obtain ⟨initTree, readInit, rest⟩ := Option.bind_eq_some_iff.mp read
      obtain ⟨testTree, readTest, rest⟩ := Option.bind_eq_some_iff.mp rest
      obtain ⟨trees, readBody, rest⟩ := Option.bind_eq_some_iff.mp rest
      obtain ⟨otherwiseTree, readOtherwise, same⟩ := Option.bind_eq_some_iff.mp rest
      cases same
      obtain ⟨refs, found, all⟩ := readsAll_stmts readBody
      refine ⟨_, Option.bind_eq_some_iff.mpr ⟨refs, found, rfl⟩, ?_⟩
      have tested : below.ReadsAll (.expr test :: refs)
          (TreeNode.plain (.expr testTree) :: stmtParts trees) := .cons readTest all
      exact List.rel_append (List.rel_append
        (readsAll_stmtParts (forall₂_of_optionMapM readInit)) tested)
        (readsAll_stmtParts (forall₂_of_optionMapM readOtherwise))
  | loop init body =>
      obtain ⟨initTree, readInit, rest⟩ := Option.bind_eq_some_iff.mp read
      obtain ⟨trees, readBody, same⟩ := Option.bind_eq_some_iff.mp rest
      cases same
      obtain ⟨refs, found, all⟩ := readsAll_stmts readBody
      refine ⟨_, Option.bind_eq_some_iff.mpr ⟨refs, found, rfl⟩, ?_⟩
      exact List.rel_append (readsAll_stmtParts (forall₂_of_optionMapM readInit)) all
  | switch init tag cases =>
      obtain ⟨initTree, readInit, rest⟩ := Option.bind_eq_some_iff.mp read
      obtain ⟨tagTree, readTag, rest⟩ := Option.bind_eq_some_iff.mp rest
      obtain ⟨trees, readCases, same⟩ := Option.bind_eq_some_iff.mp rest
      cases same
      obtain ⟨refs, found, all⟩ := readsAll_stmts readCases
      refine ⟨_, Option.bind_eq_some_iff.mpr ⟨refs, found, rfl⟩, ?_⟩
      exact List.rel_append (List.rel_append
        (readsAll_stmtParts (forall₂_of_optionMapM readInit))
        (readsAll_exprParts (forall₂_of_optionMapM readTag))) all

theorem readsAll_of_functionNode {function : Function} {tree : FunctionTree}
    (read : below.functionNode arena function = some tree) :
    ∃ refs, arena.bodyRefs? function = some refs ∧
      below.ReadsAll refs (TreeNode.literal tree).parts := by
  obtain ⟨body, readBody, same⟩ := Option.bind_eq_some_iff.mp read
  cases same
  unfold Arena.bodyRefs?
  cases within : function.body with
  | none =>
      rw [within] at readBody
      cases readBody
      exact ⟨[], rfl, .nil⟩
  | some range =>
      rw [within] at readBody
      obtain ⟨trees, readStmts, rfl⟩ := Option.map_eq_some_iff.mp readBody
      exact readsAll_stmts readStmts

end Reader

namespace Arena

variable {arena : Arena} {ref : NodeRef} {node : TreeNode}

/-- A node of a unit is read as a tree. -/
def Reads (arena : Arena) (ref : NodeRef) (node : TreeNode) : Prop :=
  ∃ height, (arena.reader height).Reads ref node

def ReadsAll (arena : Arena) (refs : List NodeRef) (parts : List TreePart) : Prop :=
  List.Forall₂ (fun ref part => arena.Reads ref part.node) refs parts

theorem readsAll_of_reads {height : Nat} (reads : (arena.reader height).Reads ref node) :
    ∃ lower refs, height = lower + 1 ∧ arena.children? ref = some refs ∧
      (arena.reader lower).ReadsAll refs node.parts := by
  cases height with
  | zero => cases ref <;> cases node <;> cases reads
  | succ lower =>
      rcases reads.kinds with ⟨id, tree, rfl, rfl⟩ | ⟨id, tree, rfl, rfl⟩ | ⟨id, tree, rfl, rfl⟩
      · obtain ⟨expr, found, read⟩ := Option.bind_eq_some_iff.mp reads
        obtain ⟨refs, listed, all⟩ := Reader.readsAll_of_exprNode read
        exact ⟨lower, refs, rfl, Option.bind_eq_some_iff.mpr ⟨expr, found, listed⟩, all⟩
      · obtain ⟨stmt, found, read⟩ := Option.bind_eq_some_iff.mp reads
        obtain ⟨refs, listed, all⟩ := Reader.readsAll_of_stmtNode read
        exact ⟨lower, refs, rfl, Option.bind_eq_some_iff.mpr ⟨stmt, found, listed⟩, all⟩
      · obtain ⟨function, found, read⟩ := Option.bind_eq_some_iff.mp reads
        obtain ⟨refs, listed, all⟩ := Reader.readsAll_of_functionNode read
        exact ⟨lower, refs, rfl, Option.bind_eq_some_iff.mpr ⟨function, found, listed⟩, all⟩

/-- What holds of a node and its tree whenever it holds of the children and their trees holds of
everything that can be read. -/
theorem Reads.induct {motive : NodeRef → TreeNode → Prop}
    (step : ∀ ref node refs, arena.Reads ref node → arena.children? ref = some refs →
      arena.ReadsAll refs node.parts →
      List.Forall₂ (fun child part => motive child part.node) refs node.parts → motive ref node)
    (reads : arena.Reads ref node) : motive ref node := by
  obtain ⟨height, reads⟩ := reads
  induction height generalizing ref node with
  | zero =>
      obtain ⟨lower, _, impossible, _⟩ := readsAll_of_reads reads
      cases impossible
  | succ height ih =>
      obtain ⟨lower, refs, same, known, all⟩ := readsAll_of_reads reads
      cases same
      exact step ref node refs ⟨_, reads⟩ known (all.imp fun _ _ read => ⟨_, read⟩)
        (all.imp fun _ _ read => ih read)

theorem Reads.readsAll (reads : arena.Reads ref node) :
    ∃ refs, arena.children? ref = some refs ∧ arena.ReadsAll refs node.parts := by
  obtain ⟨height, reads⟩ := reads
  obtain ⟨lower, refs, _, known, all⟩ := readsAll_of_reads reads
  exact ⟨refs, known, all.imp fun _ _ read => ⟨_, read⟩⟩

theorem Reads.entered_iff (reads : arena.Reads ref node) (reach : Reach) :
    reach.Enters ref ↔ node.entered reach = true := by
  obtain ⟨height, reads⟩ := reads
  rcases reads.kinds with ⟨id, tree, rfl, rfl⟩ | ⟨id, tree, rfl, rfl⟩ | ⟨id, tree, rfl, rfl⟩ <;>
    cases reach <;> simp [Reach.Enters, TreeNode.entered]

/-- A walk meets the nodes whose trees are listed, one by one. -/
theorem Reads.readsAll_walkWithin {reach : Reach} (reads : arena.Reads ref node) {height : Nat}
    {nodes : List NodeRef} (walked : arena.walkWithin reach height ref = some nodes)
    (assigned : Option (Span × ExprTree)) :
    arena.ReadsAll nodes (TreePart.within reach ⟨node, assigned⟩) := by
  revert height nodes assigned
  refine reads.induct (motive := fun ref node => ∀ {height nodes},
    arena.walkWithin reach height ref = some nodes → ∀ assigned,
      arena.ReadsAll nodes (TreePart.within reach ⟨node, assigned⟩)) ?_
  intro ref node refs reads known _ each height nodes walked assigned
  by_cases entered : reach.Enters ref
  · obtain ⟨lower, children, below, rfl, known', collected, rfl⟩ :=
      walkWithin_eq_some entered walked
    cases known.symm.trans known'
    rw [TreePart.within_of_entered ((reads.entered_iff reach).mp entered), List.flatMap]
    refine .cons reads (List.rel_flatten (List.forall₂_map_right_iff.mpr ?_))
    exact forall₂_of_mapM collected each fun child list part walkedChild readsChild =>
      readsChild walkedChild part.assigned
  · have passed := mt (reads.entered_iff reach).mpr entered
    rw [TreePart.within_of_not_entered passed]
    cases height with
    | zero => cases walked
    | succ lower =>
        rw [walkWithin_of_not_enters entered] at walked
        cases walked
        exact .nil

/-- Walking several nodes meets the listings of their trees one after the other. -/
theorem ReadsAll.walk {reach : Reach} {refs nodes : List NodeRef} {parts : List TreePart}
    (reads : arena.ReadsAll refs parts) (walked : arena.walk reach refs = some nodes) :
    arena.ReadsAll nodes (parts.flatMap (TreePart.within reach)) := by
  obtain ⟨lists, collected, rfl⟩ := walk_eq_some_iff.mp walked
  refine List.rel_flatten (List.forall₂_map_right_iff.mpr ?_)
  exact forall₂_of_mapM collected reads fun ref list part walkedRef readsRef =>
    readsRef.readsAll_walkWithin walkedRef part.assigned

end Arena

end ErrorWrapping
