import ErrorWrapping.Proofs.Numbering
import ErrorWrapping.Proofs.TreePictures

/-
Definitions by trees.

The definitions of a variable are the assignments of calls to it that the trees of the unit have.
A walk meets the targets of a statement together, and the trees list them where they stand. Both
are sorted in the end, and the numbers of the targets, which decide between statements that start
at the same place, follow the order of the source.
-/

namespace ErrorWrapping

namespace UnitView

variable {view : UnitView} {types : Nat}

/-! ### One target -/

/-- A definition that the index has for an assignment. -/
structure Records (view : UnitView) (entry : VarId × Definition) (made : CallAssignment) :
    Prop where
  var : entry.1 = made.var
  span : entry.2.span = made.span
  call : ∃ call target, view.arena.expr? entry.2.call = some call ∧ call.span = made.call ∧
    view.target? call = some target ∧ target.symbol = made.producer

theorem rel_valueFor? (targets : List ExprId) {values : List ExprId} {trees : List ExprTree}
    (reads : view.ReadsExprs values trees) (position : Nat) :
    Option.Rel (fun id tree => view.arena.Reads (.expr id) (.expr tree))
      (valueFor? targets values position) (valueTree? targets.length trees position) := by
  unfold valueFor? valueTree?
  by_cases same : targets.length = values.length
  · rw [if_pos same, if_pos (reads.length_eq ▸ same.symm)]
    exact rel_of_forall₂ reads position
  · rw [if_neg same, if_neg fun equal => same (equal.symm.trans reads.length_eq.symm)]
    cases reads with
    | nil => exact .none
    | cons first later =>
        cases later with
        | nil => exact .some first
        | cons second rest => exact .none

/-- A target makes a definition exactly when its tree is assigned a call. -/
theorem rel_definition? (grounded : view.arena.Grounded view.symbols.size types) {span : Span}
    {targets values : List ExprId} {trees : List ExprTree} (reads : view.ReadsExprs values trees)
    {target : ExprId × Nat} {tree : ExprTree}
    (readsTarget : view.arena.Reads (.expr target.1) (.expr tree))
    {own : Option (VarId × Definition)}
    (made : view.definition? span targets values target = some own) :
    Option.Rel view.Records own (TreePart.callAssignment? view.types
      ⟨.expr tree, (valueTree? targets.length trees target.2).map (span, ·)⟩) := by
  obtain ⟨node, found, pictured⟩ := exists_matches grounded readsTarget
  simp only [definition?, found, Option.bind_eq_bind, Option.bind_some, isErrorExpr, pictured.type,
    pictured.var] at made
  rw [TreePart.callAssignment?_target]
  generalize (if view.types.isError tree.type then tree.var? else none) = named at made
  cases named with
  | none =>
      cases made
      exact .none
  | some var =>
      have paired := rel_valueFor? targets reads target.2
      generalize valueFor? targets values target.2 = value at made paired
      generalize valueTree? targets.length trees target.2 = assigned at paired
      cases paired with
      | none =>
          cases made
          exact .none
      | @some id value readsValue =>
          obtain ⟨call, foundCall, picturedCall⟩ := exists_matches grounded readsValue
          simp only [foundCall, Option.bind_some] at made ⊢
          cases called : value.callee? with
          | none =>
              split at made
              · rename_i kind
                exact absurd (by rw [kind]; trivial) (picturedCall.noCall called)
              · cases made
                exact .none
          | some callee =>
              obtain ⟨⟨_, _, kind⟩, target, invokes, symbol⟩ := picturedCall.call callee called
              rw [kind] at made
              cases made
              exact .some ⟨rfl, rfl, call, target, foundCall, picturedCall.span, invokes, symbol⟩

/-! ### The definitions below a node -/

/-- The definitions that the walk from a node finds. -/
def Finds (view : UnitView) (ref : NodeRef) (entries : List (VarId × Definition)) : Prop :=
  ∃ height nodes found, view.arena.walkWithin .whole height ref = some nodes ∧
    nodes.mapM view.definitionsAt? = some found ∧ found.flatten = entries

theorem Finds.parts {ref : NodeRef} {entries : List (VarId × Definition)}
    (finds : view.Finds ref entries) :
    ∃ refs own lists, view.arena.children? ref = some refs ∧ view.definitionsAt? ref = some own ∧
      List.Forall₂ view.Finds refs lists ∧ entries = own ++ lists.flatten := by
  obtain ⟨height, nodes, found, walked, collected, rfl⟩ := finds
  obtain ⟨lower, refs, below, rfl, known, walkedBelow, rfl⟩ :=
    Arena.walkWithin_eq_some (Arena.Reach.enters_whole ref) walked
  rw [List.mapM_cons] at collected
  obtain ⟨own, foundOwn, rest⟩ := Option.bind_eq_some_iff.mp collected
  obtain ⟨others, foundOthers, same⟩ := Option.bind_eq_some_iff.mp rest
  cases same
  obtain ⟨lists, all, joined⟩ := exists_mapM_flatten foundOthers
  refine ⟨refs, own, lists, known, foundOwn, ?_, by rw [List.flatten_cons, joined]⟩
  refine forall₂_trans (mapM_eq_some_iff.mp walkedBelow) all fun child nodes list walkedChild => ?_
  rintro ⟨found, foundChild, rfl⟩
  exact ⟨lower, nodes, found, walkedChild, foundChild, rfl⟩

/-- Entries that record assignments one by one once they are ordered by the number of the target,
with numbers from one up to another that is not reached. -/
def Lists (view : UnitView) (entries : List (VarId × Definition)) (first last : Nat)
    (made : List CallAssignment) : Prop :=
  ∃ ordered, ordered.Perm entries ∧ List.Forall₂ view.Records ordered made ∧
    (ordered.Pairwise fun left right => left.2.target.index < right.2.target.index) ∧
    ∀ entry ∈ ordered, first ≤ entry.2.target.index ∧ entry.2.target.index < last

namespace Lists

variable {entries others : List (VarId × Definition)} {made more : List CallAssignment}
  {first middle last : Nat}

theorem nil : view.Lists [] first last [] :=
  ⟨[], .nil, .nil, .nil, nofun⟩

theorem perm (lists : view.Lists entries first last made) (same : entries.Perm others) :
    view.Lists others first last made := by
  obtain ⟨ordered, permuted, records, increasing, bounds⟩ := lists
  exact ⟨ordered, permuted.trans same, records, increasing, bounds⟩

theorem mono (lists : view.Lists entries first middle made) (le : middle ≤ last) :
    view.Lists entries first last made := by
  obtain ⟨ordered, permuted, records, increasing, bounds⟩ := lists
  exact ⟨ordered, permuted, records, increasing, fun entry member =>
    ⟨(bounds entry member).1, Nat.lt_of_lt_of_le (bounds entry member).2 le⟩⟩

theorem append (lists : view.Lists entries first middle made)
    (later : view.Lists others middle last more) (le : first ≤ middle) (le' : middle ≤ last) :
    view.Lists (entries ++ others) first last (made ++ more) := by
  obtain ⟨ordered, permuted, records, increasing, bounds⟩ := lists
  obtain ⟨ordered', permuted', records', increasing', bounds'⟩ := later
  refine ⟨ordered ++ ordered', permuted.append permuted', List.rel_append records records',
    List.pairwise_append.mpr ⟨increasing, increasing', fun left inLeft right inRight => ?_⟩, ?_⟩
  · have upper := (bounds left inLeft).2
    have lower := (bounds' right inRight).1
    omega
  · intro entry member
    rcases List.mem_append.mp member with inLeft | inRight
    · have inside := bounds entry inLeft
      omega
    · have inside := bounds' entry inRight
      omega

end Lists

/-- A statement makes a definition of one of its parts exactly when a call is assigned there. -/
structure Makes (view : UnitView) (ref : NodeRef) (part : TreePart)
    (own : Option (VarId × Definition)) : Prop where
  records : Option.Rel view.Records own (part.callAssignment? view.types)
  target : ∀ entry ∈ own, ref = .expr entry.2.target

/-- The parts of a node, and what a statement makes of each of them. -/
def MakesAll (view : UnitView) (refs : List NodeRef) (parts : List TreePart)
    (owns : List (Option (VarId × Definition))) : Prop :=
  List.Forall₂ (fun pair own => view.Makes pair.1 pair.2 own) (refs.zip parts) owns

/-- Only variables are assigned calls, and nothing is below a variable. -/
theorem parts_of_callAssignment? {table : TypeTable} {part : TreePart} {made : CallAssignment}
    (assigned : part.callAssignment? table = some made) : part.node.parts = [] := by
  obtain ⟨node, value⟩ := part
  unfold TreePart.callAssignment? at assigned
  split at assigned
  · rename_i target span value same
    split at assigned
    · obtain ⟨var, named, _⟩ := Option.bind_eq_some_iff.mp assigned
      cases same
      cases target with
      | ident name binding type span => rfl
      | _ => cases named
    · cases assigned
  · cases assigned

theorem lists_part {ref : NodeRef} {part : TreePart} {own : Option (VarId × Definition)}
    {entries : List (VarId × Definition)} {first last : Nat} (makes : view.Makes ref part own)
    (below : view.Lists entries first last (part.node.plain.callAssignments view.types))
    (covers : view.arena.Covers [ref] first last) :
    view.Lists (own.toList ++ entries) first last (part.callAssignments view.types) := by
  have plain := TreePart.callAssignments_plain view.types part.node
  rw [TreePart.callAssignments_eq, ← plain]
  obtain ⟨records, target⟩ := makes
  generalize made : part.callAssignment? view.types = assigned at records
  cases records with
  | none => exact below
  | some recorded =>
      rename_i entry assigned
      cases target entry rfl
      have empty := parts_of_callAssignment? made
      rw [plain, empty] at below ⊢
      obtain ⟨ordered, permuted, records, _⟩ := below
      cases records
      cases permuted.symm.eq_nil
      cases covers with
      | expr known children later =>
          cases later
          refine ⟨[entry], .refl _, .cons recorded .nil, List.pairwise_singleton _ _, ?_⟩
          intro other member
          cases List.mem_singleton.mp member
          exact ⟨children.le, Nat.lt_succ_self _⟩
      | other noExpr => exact absurd rfl (noExpr _)

/-- What a walk finds below a node are the assignments of calls in a tree. -/
def Follows (view : UnitView) (ref : NodeRef) (node : TreeNode) : Prop :=
  ∀ entries first last, view.Finds ref entries → view.arena.Covers [ref] first last →
    view.Lists entries first last (node.plain.callAssignments view.types)

/-- The parts of a node are numbered one after the other, and so is what is found at them. -/
theorem lists_parts {refs : List NodeRef} {parts : List TreePart}
    {owns : List (Option (VarId × Definition))} {lists : List (List (VarId × Definition))}
    {first last : Nat}
    (makes : view.MakesAll refs parts owns)
    (each : List.Forall₂ (fun ref part => view.Follows ref part.node) refs parts)
    (found : List.Forall₂ view.Finds refs lists) (covers : view.arena.Covers refs first last) :
    view.Lists (owns.filterMap id ++ lists.flatten) first last
      (parts.flatMap (TreePart.callAssignments view.types)) := by
  induction each generalizing owns lists first with
  | nil =>
      cases makes
      cases found
      exact .nil
  | @cons ref part refs parts here _ ih =>
      obtain ⟨own, laterOwns, makesHere, makesLater, rfl⟩ := List.forall₂_cons_left_iff.mp makes
      obtain ⟨entries, laterLists, foundHere, foundLater, rfl⟩ :=
        List.forall₂_cons_left_iff.mp found
      rw [← List.singleton_append, Arena.covers_append_iff] at covers
      obtain ⟨middle, coversHere, coversLater⟩ := covers
      have one := lists_part makesHere (here entries first middle foundHere coversHere) coversHere
      have two := ih makesLater foundLater coversLater
      refine (one.append two coversHere.le coversLater.le).perm ?_
      have owned : (own :: laterOwns).filterMap id = own.toList ++ laterOwns.filterMap id := by
        cases own <;> rfl
      rw [owned, List.flatten_cons, List.append_assoc, List.append_assoc]
      -- Targets of one statement come together in the walk, whatever is below them.
      exact (List.perm_append_comm_assoc ..).append_left _

theorem makes_of_plain (ref : NodeRef) {part : TreePart} (plain : part.assigned = none) :
    view.Makes ref part none := by
  refine ⟨?_, nofun⟩
  obtain ⟨node, assigned⟩ := part
  cases plain
  cases node <;> exact .none

theorem exists_makes_of_plain (view : UnitView) (refs : List NodeRef) {parts : List TreePart}
    (plain : ∀ part ∈ parts, part.assigned = none) :
    ∃ owns, view.MakesAll refs parts owns ∧ owns.filterMap id = [] := by
  refine ⟨(refs.zip parts).map fun _ => none, ?_, by simp [List.filterMap_map]⟩
  refine List.forall₂_map_right_iff.mpr (List.forall₂_same.mpr fun pair member => ?_)
  exact makes_of_plain pair.1 (plain pair.2 (List.of_mem_zip member).2)

theorem makes_targets (grounded : view.arena.Grounded view.symbols.size types) {span : Span}
    {targets values : List ExprId} {valueTrees : List ExprTree}
    (readsValues : view.ReadsExprs values valueTrees) {ids : List ExprId} {trees : List ExprTree}
    (reads : view.ReadsExprs ids trees) {start : Nat} {owns : List (Option (VarId × Definition))}
    (made : (ids.zipIdx start).mapM (view.definition? span targets values) = some owns) :
    view.MakesAll (ids.map .expr) ((trees.zipIdx start).map fun target =>
      ⟨.expr target.1, (valueTree? targets.length valueTrees target.2).map (span, ·)⟩) owns := by
  induction reads generalizing start owns with
  | nil =>
      cases made
      exact .nil
  | cons readsHere _ ih =>
      rw [List.zipIdx_cons, mapM_eq_some_iff] at made
      cases made with
      | cons madeHere madeLater =>
          refine .cons ⟨rel_definition? grounded readsValues readsHere madeHere, ?_⟩
            (ih (mapM_eq_some_iff.mpr madeLater))
          intro entry same
          cases same
          rw [target_of_definition? madeHere]

theorem exists_makes_of_assignment (grounded : view.arena.Grounded view.symbols.size types)
    {span : Span} {targets values : List ExprId} {targetTrees valueTrees : List ExprTree}
    (readsTargets : view.ReadsExprs targets targetTrees)
    (readsValues : view.ReadsExprs values valueTrees)
    {owns : List (Option (VarId × Definition))}
    (made : targets.zipIdx.mapM (view.definition? span targets values) = some owns) :
    ∃ all, view.MakesAll (targets.map .expr ++ values.map .expr)
        (assignmentParts span targetTrees valueTrees) all ∧
      all.filterMap id = owns.filterMap id := by
  obtain ⟨others, plain, none⟩ := exists_makes_of_plain view (values.map .expr)
    fun part (member : part ∈ exprParts valueTrees) =>
      TreeNode.assigned_of_mem_exprParts member
  have first := makes_targets grounded readsValues readsTargets made
  rw [readsTargets.length_eq] at first
  refine ⟨owns ++ others, ?_, by rw [List.filterMap_append, none, List.append_nil]⟩
  rw [MakesAll, assignmentParts, List.zip_append (by simp [readsTargets.length_eq])]
  exact List.rel_append first plain

theorem exists_makes (grounded : view.arena.Grounded view.symbols.size types) {ref : NodeRef}
    {node : TreeNode} (reads : view.arena.Reads ref node) {refs : List NodeRef}
    (known : view.arena.children? ref = some refs) {own : List (VarId × Definition)}
    (made : view.definitionsAt? ref = some own) :
    ∃ owns, view.MakesAll refs node.parts owns ∧ owns.filterMap id = own := by
  have plain : node.assignment? = none → ∃ owns, view.MakesAll refs node.parts owns ∧
      owns.filterMap id = [] :=
    fun assigns => exists_makes_of_plain view refs fun part member =>
      TreeNode.assigned_of_mem_parts assigns member
  obtain ⟨_, read⟩ := reads
  rcases read.kinds with ⟨id, tree, rfl, rfl⟩ | ⟨id, tree, rfl, rfl⟩ | ⟨id, tree, rfl, rfl⟩
  · cases made
    exact plain rfl
  · obtain ⟨height, stmt, found, node⟩ := Arena.Reads.exists_stmt ⟨_, read⟩
    have pictured := (Reader.pictures_of_stmtNode node).assignment
    simp only [definitionsAt?, found, Option.bind_eq_bind, Option.bind_some] at made
    simp only [Arena.children?, found, Option.bind_some] at known
    generalize listed : stmt.kind.assignment? = ranges at pictured made
    generalize assigns : tree.assignment? = assigned at pictured
    cases pictured with
    | none =>
        cases made
        exact plain assigns
    | @some ranges parts both =>
        obtain ⟨span, readTargets, readValues⟩ := both
        obtain ⟨targets, foundTargets, rest⟩ := Option.bind_eq_some_iff.mp made
        obtain ⟨values, foundValues, rest⟩ := Option.bind_eq_some_iff.mp rest
        obtain ⟨owns, collected, same⟩ := Option.bind_eq_some_iff.mp rest
        cases same
        rw [stmtChildren?_of_assignment listed foundTargets foundValues] at known
        cases known
        have assigned : (TreeNode.stmt tree).assignment? = some parts := assigns
        rw [TreeNode.parts_of_assignment? assigned, span]
        exact exists_makes_of_assignment grounded (readsExprs_of_exprs readTargets foundTargets)
          (readsExprs_of_exprs readValues foundValues) collected
  · cases made
    exact plain rfl

theorem follows_of_reads (grounded : view.arena.Grounded view.symbols.size types) {ref : NodeRef}
    {node : TreeNode} (reads : view.arena.Reads ref node) : view.Follows ref node := by
  refine reads.induct (motive := view.Follows) ?_
  intro ref node refs reads known _ each entries first last finds covers
  obtain ⟨refs', own, lists, known', made, found, rfl⟩ := finds.parts
  cases known.symm.trans known'
  obtain ⟨owns, makes, rfl⟩ := exists_makes grounded reads known made
  rw [TreePart.callAssignments_plain]
  cases covers with
  | expr listed below later =>
      cases known.symm.trans listed
      cases later
      exact (lists_parts makes each found below).mono (Nat.le_succ _)
  | other _ listed below later =>
      cases known.symm.trans listed
      cases later
      exact lists_parts makes each found below

/-! ### Units -/

variable {nodes : List NodeRef} {index : DefinitionIndex}

theorem finds_of_walk {roots nodes : List NodeRef} {found : List (List (VarId × Definition))}
    (walked : view.arena.walk .whole roots = some nodes)
    (collected : nodes.mapM view.definitionsAt? = some found) :
    ∃ lists, List.Forall₂ view.Finds roots lists ∧ lists.flatten = found.flatten := by
  obtain ⟨pieces, walkedEach, rfl⟩ := Arena.walk_eq_some_iff.mp walked
  obtain ⟨lists, all, joined⟩ := exists_mapM_flatten collected
  refine ⟨lists, ?_, joined⟩
  refine forall₂_trans (mapM_eq_some_iff.mp walkedEach) all fun root piece list walkedRoot => ?_
  rintro ⟨found, foundRoot, rfl⟩
  exact ⟨_, piece, found, walkedRoot, foundRoot, rfl⟩

theorem finds_of_bodyNodes? {decl : FuncId} {body : List NodeRef}
    {found : List (List (VarId × Definition))}
    (walked : view.unit.bodyNodes? decl = some body)
    (collected : body.mapM view.definitionsAt? = some found) :
    view.Finds (.literal decl) found.flatten := by
  obtain ⟨function, roots, known, listed, walkedRoots⟩ := Package.bodyNodes?_eq_some walked
  obtain ⟨pieces, walkedEach, rfl⟩ := Arena.walk_eq_some_iff.mp walkedRoots
  have children : view.arena.children? (.literal decl) = some roots :=
    Option.bind_eq_some_iff.mpr ⟨function, known, listed⟩
  refine ⟨view.arena.height + 1, .literal decl :: pieces.flatten, [] :: found, ?_, ?_, rfl⟩
  · rw [Arena.walkWithin_of_enters (Arena.Reach.enters_whole _), children, Option.bind_some]
    exact Option.map_eq_some_iff.mpr ⟨pieces, walkedEach, rfl⟩
  · exact mapM_cons_of_some rfl collected

/-- The index holds what is found from the declared functions and the package-level statements. -/
theorem exists_finds (walked : view.unit.allNodes? = some nodes)
    (indexed : view.definitionIndex? nodes = some index) :
    ∃ lists, List.Forall₂ view.Finds (view.unit.decls.map .literal ++ view.unit.globalRefs) lists ∧
      lists.flatten = index.entries := by
  obtain ⟨bodies, globals, walkedBodies, walkedGlobals, rfl⟩ := Package.allNodes?_eq_some walked
  obtain ⟨found, collected, same⟩ := Option.bind_eq_some_iff.mp indexed
  cases same
  rw [List.mapM_append] at collected
  obtain ⟨first, foundBodies, rest⟩ := Option.bind_eq_some_iff.mp collected
  obtain ⟨second, foundGlobals, same⟩ := Option.bind_eq_some_iff.mp rest
  cases same
  obtain ⟨lists, all, joined⟩ := exists_mapM_flatten foundBodies
  obtain ⟨others, allGlobals, joinedGlobals⟩ := finds_of_walk walkedGlobals foundGlobals
  refine ⟨lists ++ others, List.rel_append (List.forall₂_map_left_iff.mpr ?_) allGlobals, ?_⟩
  · refine forall₂_trans (mapM_eq_some_iff.mp walkedBodies) all fun decl body list walkedBody => ?_
    rintro ⟨found, foundBody, rfl⟩
    exact finds_of_bodyNodes? walkedBody foundBody
  · rw [List.flatten_append, joined, joinedGlobals, List.flatten_append]

/-- A unit whose functions and package-level statements are read as trees. -/
structure ReadsUnit (view : UnitView) (trees : UnitTrees) : Prop where
  decls : List.Forall₂ (fun decl function =>
    view.arena.Reads (.literal decl) (.literal function)) view.unit.decls trees.1
  globals : view.arena.ReadsAll view.unit.globalRefs (stmtParts trees.2)

theorem ReadsUnit.readsAll {trees : UnitTrees} (reads : view.ReadsUnit trees) :
    view.arena.ReadsAll (view.unit.decls.map .literal ++ view.unit.globalRefs) trees.parts := by
  refine List.rel_append ?_ reads.globals
  exact List.forall₂_map_left_iff.mpr (List.forall₂_map_right_iff.mpr reads.decls)

theorem lists_entries (grounded : view.arena.Grounded view.symbols.size types)
    (numbered : view.unit.Numbered) (walked : view.unit.allNodes? = some nodes)
    (indexed : view.definitionIndex? nodes = some index) {trees : UnitTrees}
    (reads : view.ReadsUnit trees) :
    view.Lists index.entries 0 view.arena.exprs.size
      (trees.parts.flatMap (TreePart.callAssignments view.types)) := by
  obtain ⟨lists, found, joined⟩ := exists_finds walked indexed
  obtain ⟨owns, makes, none⟩ := exists_makes_of_plain view
    (view.unit.decls.map .literal ++ view.unit.globalRefs) trees.assigned_of_mem_parts
  have each := reads.readsAll.imp fun ref part readsRef => follows_of_reads grounded readsRef
  have listed := lists_parts makes each found numbered
  rw [none, List.nil_append, joined] at listed
  exact listed

theorem Lists.forall₂_found {first last : Nat} {made : List CallAssignment}
    (lists : view.Lists index.entries first last made) (var : VarId) :
    ∃ ordered, ordered.Perm (index.found var) ∧
      List.Forall₂ (fun definition entry => view.Records (var, definition) entry) ordered
        (made.filter (·.var = var)) ∧
      ordered.Pairwise fun left right => left.target.index < right.target.index := by
  obtain ⟨ordered, permuted, records, increasing, _⟩ := lists
  refine ⟨ordered.filterMap fun entry => if entry.1 = var then some entry.2 else none,
    permuted.filterMap _, ?_, ?_⟩
  · rw [← List.filterMap_eq_filter]
    refine List.rel_filterMap (fun entry made recorded => ?_) records
    by_cases same : entry.1 = var
    · have kept : made.var = var := recorded.var.symm.trans same
      simp only [same, if_true, Option.guard, kept, decide_true]
      exact .some (same ▸ recorded)
    · have dropped : made.var ≠ var := fun equal => same (recorded.var.trans equal)
      simp only [same, if_false, Option.guard, dropped, decide_false, Bool.false_eq_true]
      exact .none
  · refine increasing.filterMap _ fun left right less definition isLeft other isRight => ?_
    split at isLeft
    · split at isRight
      · cases isLeft
        cases isRight
        exact less
      · cases isRight
    · cases isLeft

/-- The definitions of a variable are the assignments of calls to it in the trees of the unit. -/
theorem forall₂_resolve (grounded : view.arena.Grounded view.symbols.size types)
    (numbered : view.unit.Numbered) (walked : view.unit.allNodes? = some nodes)
    (once : nodes.Nodup) (indexed : view.definitionIndex? nodes = some index) {trees : UnitTrees}
    (reads : view.ReadsUnit trees) (var : VarId) :
    List.Forall₂ (fun definition entry => view.Records (var, definition) entry)
      (index.resolve var) (trees.definitions view.types var) := by
  obtain ⟨ordered, permuted, records, increasing⟩ :=
    (lists_entries grounded numbered walked indexed reads).forall₂_found var
  have targets := nodup_targets walked once indexed
  have before_iff : ∀ left right : Definition, left.before right = true ↔
      left.span.start < right.span.start ∨
        (left.span.start = right.span.start ∧ left.target.index ≤ right.target.index) := by
    simp [Definition.before]
  have apart : ∀ left ∈ index.found var, ∀ right ∈ index.found var,
      left.target.index = right.target.index → left = right :=
    List.inj_on_of_nodup_map (DefinitionIndex.nodup_found targets var)
  have sorted : index.resolve var = ordered.mergeSort fun left right =>
      left.span.start ≤ right.span.start := by
    rw [DefinitionIndex.resolve_eq_mergeSort targets,
      mergeSort_eq_of_perm _ _ before_iff apart permuted.symm,
      mergeSort_eq_of_increasing before_iff increasing]
  rw [sorted]
  exact forall₂_mergeSort (fun _ _ _ _ one two => by rw [one.span, two.span]) records

end UnitView

end ErrorWrapping
