import ErrorWrapping.Proofs.Enclosing
import ErrorWrapping.Proofs.Parents
import ErrorWrapping.Proofs.TracedSources

/-
The scopes of a dump.

A node of a dump lies inside the functions around it, and each part of it is lowered to the child
of the same place. The file in force at a node is that of the innermost of these functions whose
file is known, else the first known file of the unit. In that file its position is read, and the
parent of a function is the innermost function around it.
-/

namespace ErrorWrapping

/-! ### Spans of nodes -/

def StmtTree.span : StmtTree → Span
  | .assign _ _ _ span => span
  | .varDecl _ _ span => span
  | .ret _ span => span
  | .expr _ span => span
  | .block _ span => span
  | .cond _ _ _ _ span => span
  | .loop _ _ span => span
  | .switch _ _ _ span => span

def FunctionTree.span : FunctionTree → Span
  | .mk _ _ _ _ _ span => span

def TreeNode.span : TreeNode → Span
  | .expr tree => tree.span
  | .stmt tree => tree.span
  | .literal tree => tree.span

namespace Arena

def span? (arena : Arena) : NodeRef → Option Span
  | .expr id => (arena.expr? id).map (·.span)
  | .stmt id => (arena.stmt? id).map (·.span)
  | .literal id => (arena.function? id).map (·.span)

variable {arena : Arena} {ref : NodeRef} {node : TreeNode}

theorem span_of_stmtNode {below : Reader} {stmt : Stmt} {tree : StmtTree}
    (read : below.stmtNode arena stmt = some tree) : stmt.span = tree.span := by
  obtain ⟨kind, span⟩ := stmt
  cases kind <;>
    simp only [Reader.stmtNode, Option.bind_eq_bind, Option.bind_eq_some_iff, Option.pure_def,
      Option.some.injEq] at read <;>
    grind [StmtTree.span]

theorem Reads.span? (reads : arena.Reads ref node) : arena.span? ref = some node.span := by
  obtain ⟨height, reads⟩ := reads
  obtain ⟨height, refs, rfl, _⟩ := readsAll_of_reads reads
  rcases reads.kinds with ⟨id, tree, rfl, rfl⟩ | ⟨id, tree, rfl, rfl⟩ | ⟨id, tree, rfl, rfl⟩
  · obtain ⟨expr, found, read⟩ := Option.bind_eq_some_iff.mp reads
    exact Option.map_eq_some_iff.mpr ⟨expr, found, (Reader.pictures_of_exprNode read).span⟩
  · obtain ⟨stmt, found, read⟩ := Option.bind_eq_some_iff.mp reads
    exact Option.map_eq_some_iff.mpr ⟨stmt, found, span_of_stmtNode read⟩
  · obtain ⟨function, found, read⟩ := Option.bind_eq_some_iff.mp reads
    obtain ⟨body, _, same⟩ := Option.bind_eq_some_iff.mp read
    cases same
    exact Option.map_eq_some_iff.mpr ⟨function, found, rfl⟩

end Arena

/-! ### Nodes of a dump -/

namespace Dump

def Expr.at? : Expr → Option Position
  | .var _ at? => at?
  | .blank at? => at?
  | .func _ at? => at?
  | .package _ at? => at?
  | .select _ _ at? => at?
  | .field _ _ _ at? => at?
  | .call _ _ _ at? => at?
  | .nil at? => at?
  | .literal _ at? => at?
  | .funcLit _ at? => at?
  | .other _ _ at? => at?

def Stmt.at? : Stmt → Option Position
  | .define _ _ at? => at?
  | .assign _ _ at? => at?
  | .var _ _ at? => at?
  | .ret _ at? => at?
  | .expr _ at? => at?
  | .block _ at? => at?
  | .cond _ _ _ _ at? => at?
  | .loop _ _ at? => at?
  | .switch _ _ _ at? => at?

/-- A node of a dump; `branch` is one case of a switch. -/
inductive Node where
  | expr (expr : Expr)
  | stmt (stmt : Stmt)
  | function (function : Function)
  | branch (body : List Stmt)

namespace Node

def at? : Node → Option Position
  | .expr value => value.at?
  | .stmt step => step.at?
  | .function inner => inner.signature.at?
  | .branch _ => none

/-- What is directly below a node, in the order of the source. -/
def parts : Node → List Node
  | .expr (.select base _ _) => [.expr base]
  | .expr (.field base _ _ _) => [.expr base]
  | .expr (.call callee args _ _) => .expr callee :: args.map .expr
  | .expr (.funcLit inner _) => [.function inner]
  | .expr (.other operands _ _) => operands.map .expr
  | .expr _ => []
  | .stmt (.define targets values _) => targets.map .expr ++ values.map .expr
  | .stmt (.assign targets values _) => targets.map .expr ++ values.map .expr
  | .stmt (.var names values _) => names.map .expr ++ values.map .expr
  | .stmt (.ret results _) => results.map .expr
  | .stmt (.expr value _) => [.expr value]
  | .stmt (.block body _) => body.map .stmt
  | .stmt (.cond init test body otherwise _) =>
    init.toList.map .stmt ++ .expr test :: body.map .stmt ++ otherwise.toList.map .stmt
  | .stmt (.loop init body _) => init.toList.map .stmt ++ body.map .stmt
  | .stmt (.switch init tag cases _) =>
    init.toList.map .stmt ++ tag.toList.map .expr ++ cases.map .branch
  | .function (.mk _ none) => []
  | .function (.mk _ (some body)) => body.map .stmt
  | .branch body => body.map .stmt

/-- The functions around the parts of a node, innermost first, given those around the node. -/
def within (functions : List Function) : Node → List Function
  | .function inner => inner :: functions
  | _ => functions

end Node

/-! ### The trees of nodes -/

namespace Glossary

variable (glossary : Glossary) (file : Option FileId)

def node (declared : Bool) : Node → TreeNode
  | .expr expr => .expr (glossary.expr file expr)
  | .stmt stmt => .stmt (glossary.stmt file stmt)
  | .function function => .literal (glossary.function file declared function)
  | .branch body => .stmt (.block (glossary.stmts file body) .dummy)

/-- The file in force at a node and its parts. -/
def fileAt : Node → Option FileId
  | .function function => glossary.fileWithin file function.signature.file
  | _ => file

/-! Lists and optional parts of a tree are those of the node, one by one. -/

theorem nodes_exprs (exprs : List Expr) : (glossary.exprs file exprs).map .expr =
    exprs.map (glossary.node file false ∘ Node.expr) := by
  induction exprs with
  | nil => rw [Glossary.exprs, List.map_nil, List.map_nil]
  | cons first rest ih =>
      rw [Glossary.exprs, List.map_cons, List.map_cons, ih]
      rfl

theorem nodes_stmts (stmts : List Stmt) : (glossary.stmts file stmts).map .stmt =
    stmts.map (glossary.node file false ∘ Node.stmt) := by
  induction stmts with
  | nil => rw [Glossary.stmts, List.map_nil, List.map_nil]
  | cons first rest ih =>
      rw [Glossary.stmts, List.map_cons, List.map_cons, ih]
      rfl

theorem nodes_cases (cases : List (List Stmt)) : (glossary.cases file cases).map .stmt =
    cases.map (glossary.node file false ∘ Node.branch) := by
  induction cases with
  | nil => rw [Glossary.cases, List.map_nil, List.map_nil]
  | cons first rest ih =>
      rw [Glossary.cases, List.map_cons, List.map_cons, ih]
      rfl

theorem nodes_option (stmt : Option Stmt) : (glossary.option file stmt).toList.map .stmt =
    stmt.toList.map (glossary.node file false ∘ Node.stmt) := by
  cases stmt <;> rw [Glossary.option] <;> rfl

theorem nodes_tag (tag : Option Expr) : (glossary.tag file tag).toList.map .expr =
    tag.toList.map (glossary.node file false ∘ Node.expr) := by
  cases tag <;> rw [Glossary.tag] <;> rfl

end Glossary

end Dump

/-! ### Parts of trees -/

@[simp]
theorem nodes_exprParts (trees : List ExprTree) :
    (exprParts trees).map (·.node) = trees.map .expr := by
  rw [exprParts, List.map_map]
  rfl

@[simp]
theorem nodes_stmtParts (trees : List StmtTree) :
    (stmtParts trees).map (·.node) = trees.map .stmt := by
  rw [stmtParts, List.map_map]
  rfl

@[simp]
theorem nodes_assignmentParts (span : Span) (targets values : List ExprTree) :
    (assignmentParts span targets values).map (·.node) =
      targets.map .expr ++ values.map .expr := by
  rw [assignmentParts, List.map_append, List.map_map, nodes_exprParts]
  refine congrArg (· ++ _) ?_
  conv_rhs => rw [← List.zipIdx_map_fst 0 targets, List.map_map]
  rfl

namespace Dump.Glossary

variable (glossary : Glossary) (file : Option FileId)

theorem nodes_parts_node (declared : Bool) (node : Node) :
    (glossary.node file declared node).parts.map (·.node) =
      node.parts.map (glossary.node (glossary.fileAt file node) false) := by
  cases node with
  | expr expr =>
      cases expr with
      | var id at? =>
          rw [Glossary.node, Glossary.expr, Glossary.varRef]
          split <;> rfl
      | func key at? =>
          rw [Glossary.node, Glossary.expr, Glossary.funcRef]
          split <;> rfl
      | select base key at? =>
          rw [Glossary.node, Glossary.expr, Glossary.select]
          split <;> rfl
      | _ =>
          simp [Glossary.node, Glossary.expr, Glossary.call, nodes_exprs, TreeNode.parts,
            Node.parts, fileAt, TreeNode.plain]
  | stmt stmt =>
      cases stmt <;>
        simp [Glossary.node, Glossary.stmt, nodes_exprs, nodes_stmts, nodes_cases, nodes_option,
          nodes_tag, TreeNode.parts, Node.parts, fileAt, TreeNode.plain]
  | function function =>
      obtain ⟨signature, body⟩ := function
      cases body <;>
        simp [Glossary.node, Glossary.function, withBody, Glossary.body, nodes_stmts,
          TreeNode.parts, Node.parts, fileAt, Function.signature]
  | branch body => simp [Glossary.node, nodes_stmts, TreeNode.parts, Node.parts, fileAt]

/-- A tree has the span of its node's position in the file in force. -/
theorem span_node (dummy : ∀ file, glossary.span file none = .dummy) (declared : Bool)
    (node : Node) :
    (glossary.node file declared node).span =
      glossary.span (glossary.fileAt file node) node.at? := by
  cases node with
  | expr expr =>
      cases expr with
      | var id at? =>
          rw [Glossary.node, Glossary.expr, Glossary.varRef]
          split <;> rfl
      | func key at? =>
          rw [Glossary.node, Glossary.expr, Glossary.funcRef]
          split <;> rfl
      | select base key at? =>
          rw [Glossary.node, Glossary.expr, Glossary.select]
          split <;> rfl
      | _ =>
          rw [Glossary.node, Glossary.expr]
          rfl
  | stmt stmt =>
      cases stmt <;> rw [Glossary.node, Glossary.stmt] <;> rfl
  | function function =>
      obtain ⟨signature, body⟩ := function
      rw [Glossary.node, Glossary.function]
      rfl
  | branch body => exact (dummy file).symm

end Dump.Glossary

/-! ### Files in force -/

/-- The span of a position in a file; the dummy span when either is missing. -/
def FileSet.spanIn (files : FileSet) : Option FileId → Option Dump.Position → Span
  | some file, some position => files.spanAt file position.line position.column
  | _, _ => .dummy

namespace Dump

/-- The first known one among the files of the functions around a place, innermost first, and the
files of the unit. -/
def UnitEntry.fileInForce (entry : UnitEntry) (files : FileSet) (functions : List Function) :
    Option FileId :=
  (functions.filterMap (·.signature.file) ++ entry.files).findSome? files.last?

/-- The file in force inside functions that lie in each other, by going through them. -/
def Glossary.fileAround (glossary : Glossary) (entry : UnitEntry) (functions : List Function) :
    Option FileId :=
  functions.foldr (fun function file => glossary.fileWithin file function.signature.file)
    (glossary.unitFile entry)

theorem Glossary.fileAround_within (glossary : Glossary) (entry : UnitEntry)
    (functions : List Function) (node : Node) :
    glossary.fileAround entry (node.within functions) =
      glossary.fileAt (glossary.fileAround entry functions) node := by
  cases node <;> rfl

theorem Glossary.fileAround_eq {glossary : Glossary} {files : FileSet}
    (known : glossary.file? = files.last?) (entry : UnitEntry) (functions : List Function) :
    glossary.fileAround entry functions = entry.fileInForce files functions := by
  induction functions with
  | nil =>
      rw [UnitEntry.fileInForce, List.filterMap_nil, List.nil_append, ← known]
      exact List.head?_filterMap
  | cons function rest ih =>
      have step : glossary.fileAround entry (function :: rest) =
          glossary.fileWithin (glossary.fileAround entry rest) function.signature.file := rfl
      rw [step, ih, Glossary.fileWithin, known, UnitEntry.fileInForce, UnitEntry.fileInForce]
      cases named : function.signature.file with
      | none => simp [named]
      | some path => cases found : files.last? path <;> simp [named, found]

/-! ### Scopes -/

/-- The functions around a place, innermost first, each with the function it is lowered to. -/
abbrev Scopes := List (Function × FuncId)

def Scopes.functions (scopes : Scopes) : List Function :=
  scopes.map (·.1)

def Scopes.innermost? (scopes : Scopes) : Option FuncId :=
  scopes.head?.map (·.2)

def Scopes.inside (scopes : Scopes) : Node → NodeRef → Scopes
  | .function function, .literal func => (function, func) :: scopes
  | _, _ => scopes

/-- A node of a unit's dump, the functions around it, and the node that it is lowered to: a part
is lowered to the child of the same place. -/
inductive UnitEntry.Places (entry : UnitEntry) (unit : Package) :
    Scopes → Node → NodeRef → Prop
  | decl {position : Nat} {function : Function} {func : FuncId}
      (listed : entry.functions[position]? = some function)
      (lowered : unit.decls[position]? = some func) :
      Places entry unit [] (.function function) (.literal func)
  | global {position : Nat} {stmt : Stmt} {id : StmtId}
      (listed : entry.globals[position]? = some stmt)
      (lowered : unit.globals[position]? = some id) :
      Places entry unit [] (.stmt stmt) (.stmt id)
  | part {scopes : Scopes} {node part : Node} {ref child : NodeRef} {children : List NodeRef}
      {position : Nat} (above : Places entry unit scopes node ref)
      (listed : node.parts[position]? = some part)
      (known : unit.arena.children? ref = some children)
      (lowered : children[position]? = some child) :
      Places entry unit (scopes.inside node ref) part child

/-- A node of a dump and a node of the arena are of the same kind; a case becomes a statement. -/
def Node.Fits : Node → NodeRef → Prop
  | .expr _, .expr _ => True
  | .stmt _, .stmt _ => True
  | .branch _, .stmt _ => True
  | .function _, .literal _ => True
  | _, _ => False

/-- A unit is lowered node by node, each position is read in the file in force, and each function
has the innermost function around it as its parent. -/
structure UnitEntry.Scoped (entry : UnitEntry) (files : FileSet) (unit : Package) : Prop where
  decls : unit.decls.length = entry.functions.length
  globals : unit.globals.length = entry.globals.length
  parts : ∀ {scopes node ref}, entry.Places unit scopes node ref → node.Fits ref ∧
    ∃ children, unit.arena.children? ref = some children ∧ children.length = node.parts.length
  /-- Every node of the arena comes from a node of the dump. -/
  placed : ∀ ref, unit.arena.Holds ref → ∃ scopes node, entry.Places unit scopes node ref
  span : ∀ {scopes node ref}, entry.Places unit scopes node ref → unit.arena.span? ref =
    some (files.spanIn (entry.fileInForce files (node.within scopes.functions)) node.at?)
  parent : ∀ {scopes function func},
    entry.Places unit scopes (.function function) (.literal func) →
      unit.arena.parent? func = some scopes.innermost?

namespace UnitEntry

variable {entry : UnitEntry} {unit : Package} {scopes : Scopes} {node : Node} {ref : NodeRef}
  {glossary : Glossary}

theorem fits_of_reads {file : Option FileId} {declared : Bool}
    (reads : unit.arena.Reads ref (glossary.node file declared node)) : node.Fits ref := by
  obtain ⟨height, reads⟩ := reads
  cases node <;> cases ref <;> trivial

theorem functions_inside (fits : node.Fits ref) :
    (scopes.inside node ref).functions = node.within scopes.functions := by
  cases node <;> cases ref <;> first | rfl | cases fits

theorem innermost?_inside (fits : node.Fits ref) :
    (scopes.inside node ref).innermost? = Arena.ownerBelow scopes.innermost? ref := by
  cases node <;> cases ref <;> first | rfl | cases fits

theorem exists_reads_parts {file : Option FileId} {declared : Bool}
    (reads : unit.arena.Reads ref (glossary.node file declared node)) :
    ∃ children, unit.arena.children? ref = some children ∧
      List.Forall₂ (fun child part =>
        unit.arena.Reads child (glossary.node (glossary.fileAt file node) false part))
        children node.parts := by
  obtain ⟨children, known, all⟩ := reads.readsAll
  have nodes : List.Forall₂ unit.arena.Reads children
      ((glossary.node file declared node).parts.map (·.node)) :=
    List.forall₂_map_right_iff.mpr all
  rw [Glossary.nodes_parts_node] at nodes
  exact ⟨children, known, List.forall₂_map_right_iff.mp nodes⟩

/-- The declared functions and package-level statements are read as the trees of the dump. -/
structure Reads (entry : UnitEntry) (glossary : Glossary) (unit : Package) : Prop where
  decls : List.Forall₂ (fun decl function => unit.arena.Reads (.literal decl)
    (glossary.node (glossary.unitFile entry) true (.function function))) unit.decls entry.functions
  globals : List.Forall₂ (fun id stmt => unit.arena.Reads (.stmt id)
    (glossary.node (glossary.unitFile entry) false (.stmt stmt))) unit.globals entry.globals

theorem reads_of_read? {view : UnitView}
    (shows : view.unit.read? = some (glossary.unitTrees entry)) :
    entry.Reads glossary view.unit := by
  have reads := UnitView.readsUnit_of_read? shows
  have decls : List.Forall₂ (fun decl tree => view.unit.arena.Reads (.literal decl) (.literal tree))
      view.unit.decls (entry.functions.map (glossary.function (glossary.unitFile entry) true)) :=
    reads.decls
  have globals : List.Forall₂ view.unit.arena.Reads (view.unit.globals.map .stmt)
      ((stmtParts (glossary.stmts (glossary.unitFile entry) entry.globals)).map (·.node)) :=
    List.forall₂_map_right_iff.mpr reads.globals
  rw [nodes_stmtParts, Glossary.nodes_stmts, List.forall₂_map_left_iff] at globals
  exact ⟨(List.forall₂_map_right_iff.mp decls).imp fun _ _ here => here,
    (List.forall₂_map_right_iff.mp globals).imp fun _ _ here => here⟩

/-- What a node is lowered to is read as the tree of the node. -/
theorem Places.reads (places : entry.Places unit scopes node ref)
    (reads : entry.Reads glossary unit) :
    ∃ declared, unit.arena.Reads ref
      (glossary.node (glossary.fileAround entry scopes.functions) declared node) := by
  induction places with
  | decl listed lowered =>
      obtain ⟨_, found, here⟩ := exists_getElem?_of_forall₂ reads.decls lowered
      cases listed.symm.trans found
      exact ⟨true, here⟩
  | global listed lowered =>
      obtain ⟨_, found, here⟩ := exists_getElem?_of_forall₂ reads.globals lowered
      cases listed.symm.trans found
      exact ⟨false, here⟩
  | part above listed known lowered ih =>
      obtain ⟨_, here⟩ := ih
      obtain ⟨_, known', all⟩ := exists_reads_parts here
      cases known.symm.trans known'
      obtain ⟨_, found, below⟩ := exists_getElem?_of_forall₂ all lowered
      cases listed.symm.trans found
      rw [functions_inside (fits_of_reads here), Glossary.fileAround_within]
      exact ⟨false, below⟩

/-- A function around a place owns what is there. -/
theorem Places.nests (places : entry.Places unit scopes node ref)
    (reads : entry.Reads glossary unit) (nests : unit.Nests) :
    unit.arena.Nests scopes.innermost? ref := by
  induction places with
  | @decl position _ func listed lowered =>
      exact nests _ (List.mem_append_left _ (List.mem_map_of_mem (List.mem_of_getElem? lowered)))
  | @global position _ id listed lowered =>
      exact nests _ (List.mem_append_right _ (List.mem_map_of_mem (List.mem_of_getElem? lowered)))
  | part above listed known lowered ih =>
      obtain ⟨_, here⟩ := above.reads reads
      rw [innermost?_inside (fits_of_reads here)]
      exact ih.child known _ (List.mem_of_getElem? lowered)

/-- Every node of the arena is reached from a root, part by part. -/
theorem exists_places (reads : entry.Reads glossary unit) (planted : unit.Planted)
    (holds : unit.arena.Holds ref) : ∃ scopes node, entry.Places unit scopes node ref := by
  obtain ⟨nodes, walked, _, all⟩ := planted.exists_walk
  obtain ⟨root, isRoot, _, path⟩ := (Arena.mem_walk_iff walked).mp ((all ref).mpr holds)
  induction path with
  | refl =>
      rcases List.mem_append.mp isRoot with isDecl | isGlobal
      · obtain ⟨func, member, rfl⟩ := List.mem_map.mp isDecl
        obtain ⟨position, lowered⟩ := List.mem_iff_getElem?.mp member
        obtain ⟨_, listed, _⟩ := exists_getElem?_of_forall₂ reads.decls lowered
        exact ⟨_, _, .decl listed lowered⟩
      · obtain ⟨id, member, rfl⟩ := List.mem_map.mp isGlobal
        obtain ⟨position, lowered⟩ := List.mem_iff_getElem?.mp member
        obtain ⟨_, listed, _⟩ := exists_getElem?_of_forall₂ reads.globals lowered
        exact ⟨_, _, .global listed lowered⟩
  | tail _ step ih =>
      obtain ⟨children, known, inChildren, _⟩ := step
      obtain ⟨scopes, node, places⟩ := ih (Arena.holds_of_children? known)
      obtain ⟨_, here⟩ := places.reads reads
      obtain ⟨_, known', all⟩ := exists_reads_parts here
      cases known.symm.trans known'
      obtain ⟨position, lowered⟩ := List.mem_iff_getElem?.mp inChildren
      obtain ⟨_, listed, _⟩ := exists_getElem?_of_forall₂ all lowered
      exact ⟨_, _, places.part listed known lowered⟩

theorem scoped_of_reads {files : FileSet} (known : glossary.file? = files.last?)
    (spans : glossary.span = files.spanIn) (reads : entry.Reads glossary unit)
    (planted : unit.Planted) (nests : unit.Nests) : entry.Scoped files unit where
  decls := reads.decls.length_eq
  globals := reads.globals.length_eq
  parts places := by
    obtain ⟨_, here⟩ := places.reads reads
    obtain ⟨children, known, all⟩ := exists_reads_parts here
    exact ⟨fits_of_reads here, children, known, all.length_eq⟩
  placed _ := exists_places reads planted
  span places := by
    obtain ⟨_, here⟩ := places.reads reads
    have dummy : ∀ file, glossary.span file none = .dummy := by
      intro file
      rw [spans]
      cases file <;> rfl
    rw [here.span?, Glossary.span_node _ _ dummy, ← Glossary.fileAround_within,
      Glossary.fileAround_eq known, spans]
  parent places := (places.nests reads nests).parent?

end UnitEntry

/-- In every unit of an accepted dump each position is read in the file of the functions around
it, and each function has the innermost function around it as its parent. -/
theorem scoped_of_lower {dump : Dump} {program : Program} {warnings : List Warning}
    (accepted : dump.lower = .ok (program, warnings)) :
    List.Forall₂ (fun entry unit => entry.Scoped program.files unit)
      dump.units program.units.toList := by
  have lowered := lowered_of_lower accepted
  have nests := nests_of_lower accepted
  have shown := shows_of_lower accepted
  refine List.Forall₂.flip (List.Forall₂.imp ?_ ((List.forall₂_and_left _ _).mpr
    ⟨fun unit => Array.mem_toList_iff.mp, shown.flip⟩))
  rintro unit entry ⟨member, shows⟩
  have reads : entry.Reads (entry.glossary dump.types dump.typeNames program unit) unit :=
    @UnitEntry.reads_of_read? entry _ (program.view unit) shows.trees
  refine UnitEntry.scoped_of_reads rfl ?_ reads (lowered.planted unit member) (nests unit member)
  funext file position
  cases file <;> cases position <;> rfl

/-- A function of the second file with a literal of the first, and a statement after the literal;
then a function that names an unknown file, and a literal outside of functions. -/
def interleaved : Dump :=
  { files := [⟨"a", some "aaaa", []⟩, ⟨"b", some "bbbb", []⟩]
    types := []
    symbols := []
    units :=
      [{ path := "m"
         files := ["x", "a"]
         imports := []
         vars := []
         functions :=
           [.mk ⟨"Run", none, none, some "b", some ⟨1, 1⟩, [], []⟩
              (some [.expr (.funcLit
                (.mk ⟨"", none, none, some "a", some ⟨1, 1⟩, [], []⟩
                  (some [.ret [] (some ⟨1, 2⟩)])) (some ⟨1, 2⟩)) (some ⟨1, 3⟩),
                .switch none none [[.ret [] (some ⟨1, 4⟩)]] (some ⟨1, 3⟩)]),
            .mk ⟨"Stop", none, none, some "x", some ⟨1, 3⟩, [], []⟩ (some [])]
         globals := [.expr (.funcLit
           (.mk ⟨"", none, none, none, some ⟨1, 4⟩, [], []⟩ (some [])) none) none] }] }

theorem interleaved.accepted :
    interleaved.lower = .ok (interleaved.toProgram.1, interleaved.toProgram.2) :=
  lower_of_fault? (by decide)

theorem interleaved.scopes :
    interleaved.lower = .ok (interleaved.toProgram.1, interleaved.toProgram.2) ∧
      List.Forall₂ (fun entry unit => entry.Scoped interleaved.toProgram.1.files unit)
        interleaved.units interleaved.toProgram.1.units.toList :=
  ⟨interleaved.accepted, scoped_of_lower interleaved.accepted⟩

/-- The functions of this dump with their parents and spans, and the spans of its statements: the
second file starts at offset six. -/
example :
    interleaved.toProgram.1.units.toList.map (fun unit =>
        (unit.arena.functions.toList.map fun function => (function.parent, function.span.start),
          unit.arena.stmts.toList.map fun stmt => stmt.span.start)) =
      [([(none, 6), (some ⟨0⟩, 1), (none, 3), (none, 4)], [2, 8, 9, 0, 8, 0])] := by
  cbv

end Dump

end ErrorWrapping
