import ErrorWrapping.Proofs.Sources

/-
The definitions of a unit.

When the tree of a unit can be walked, every look-up that its nodes call for succeeds. Its
definitions can then be listed, and those listed for a variable are the calls that define it.
-/

namespace ErrorWrapping

namespace Package

variable {unit : Package} {nodes : List NodeRef}

theorem allNodes?_eq_some (walked : unit.allNodes? = some nodes) :
    ∃ bodies globals, unit.decls.mapM unit.bodyNodes? = some bodies ∧
      unit.globalNodes? = some globals ∧ nodes = bodies.flatten ++ globals := by
  unfold allNodes? at walked
  obtain ⟨bodies, found, rest⟩ := Option.bind_eq_some_iff.mp walked
  obtain ⟨globals, alsoFound, same⟩ := Option.bind_eq_some_iff.mp rest
  exact ⟨bodies, globals, found, alsoFound, (Option.some.inj same).symm⟩

theorem bodyNodes?_eq_some {func : FuncId} {body : List NodeRef}
    (walked : unit.bodyNodes? func = some body) :
    ∃ function roots, unit.arena.function? func = some function ∧
      unit.arena.bodyRefs? function = some roots ∧ unit.arena.walk .whole roots = some body := by
  unfold bodyNodes? at walked
  obtain ⟨function, found, rest⟩ := Option.bind_eq_some_iff.mp walked
  obtain ⟨roots, listed, walkedRoots⟩ := Option.bind_eq_some_iff.mp rest
  exact ⟨function, roots, found, listed, walkedRoots⟩

theorem exists_body_of_decl (walked : unit.allNodes? = some nodes) {decl : FuncId}
    (declared : decl ∈ unit.decls) :
    ∃ function roots body, unit.arena.function? decl = some function ∧
      unit.arena.bodyRefs? function = some roots ∧ unit.arena.walk .whole roots = some body ∧
      ∀ node ∈ body, node ∈ nodes := by
  obtain ⟨bodies, globals, found, _, rfl⟩ := allNodes?_eq_some walked
  obtain ⟨body, inBodies, walkedBody⟩ := mem_of_forall₂_left (mapM_eq_some_iff.mp found) declared
  obtain ⟨function, roots, known, listed, walkedRoots⟩ := bodyNodes?_eq_some walkedBody
  refine ⟨function, roots, body, known, listed, walkedRoots, fun node inBody => ?_⟩
  exact List.mem_append_left _ (List.mem_flatten_of_mem inBodies inBody)

/-- The walk of a unit lists the nodes that occur in it. -/
theorem mem_allNodes_iff (walked : unit.allNodes? = some nodes) {ref : NodeRef} :
    ref ∈ nodes ↔ unit.Occurs ref := by
  obtain ⟨bodies, globals, found, alsoFound, rfl⟩ := allNodes?_eq_some walked
  rw [List.mem_append, mem_flatten_of_mapM found, Arena.mem_walk_iff alsoFound, Occurs]
  apply or_congr_left
  constructor
  · intro inBody
    obtain ⟨decl, declared, body, walkedBody, member⟩ := inBody
    obtain ⟨function, roots, known, listed, walkedRoots⟩ := bodyNodes?_eq_some walkedBody
    exact ⟨decl, declared, function, roots, known, listed,
      (Arena.mem_walk_iff walkedRoots).mp member⟩
  · intro inBody
    obtain ⟨decl, declared, function, roots, known, listed, met⟩ := inBody
    obtain ⟨body, _, walkedBody⟩ := mem_of_forall₂_left (mapM_eq_some_iff.mp found) declared
    obtain ⟨function', roots', known', listed', walkedRoots⟩ := bodyNodes?_eq_some walkedBody
    cases known.symm.trans known'
    cases listed.symm.trans listed'
    exact ⟨decl, declared, body, walkedBody, (Arena.mem_walk_iff walkedRoots).mpr met⟩

theorem exists_piece_of_mem (walked : unit.allNodes? = some nodes) {ref : NodeRef}
    (member : ref ∈ nodes) :
    ∃ roots piece, unit.arena.walk .whole roots = some piece ∧ ref ∈ piece ∧
      ∀ node ∈ piece, node ∈ nodes := by
  obtain ⟨bodies, globals, found, alsoFound, rfl⟩ := allNodes?_eq_some walked
  rcases List.mem_append.mp member with inBodies | inGlobals
  · obtain ⟨body, inLists, inBody⟩ := List.mem_flatten.mp inBodies
    obtain ⟨decl, _, walkedBody⟩ := mem_of_forall₂_right (mapM_eq_some_iff.mp found) inLists
    obtain ⟨_, roots, _, _, walkedRoots⟩ := bodyNodes?_eq_some walkedBody
    exact ⟨roots, body, walkedRoots, inBody,
      fun node here => List.mem_append_left _ (List.mem_flatten_of_mem inLists here)⟩
  · exact ⟨unit.globalRefs, globals, alsoFound, inGlobals,
      fun node here => List.mem_append_right _ here⟩

theorem closed_allNodes (walked : unit.allNodes? = some nodes) : unit.arena.Closed nodes := by
  intro node member
  obtain ⟨roots, piece, walkedPiece, inPiece, inside⟩ := exists_piece_of_mem walked member
  obtain ⟨children, known, below⟩ := Arena.closed_of_walk walkedPiece node inPiece
  exact ⟨children, known, fun child inChildren => inside child (below child inChildren)⟩

theorem exists_body_of_literal (walked : unit.allNodes? = some nodes) {func : FuncId}
    (member : NodeRef.literal func ∈ nodes) :
    ∃ function roots body, unit.arena.function? func = some function ∧
      unit.arena.bodyRefs? function = some roots ∧ unit.arena.walk .whole roots = some body ∧
      ∀ node ∈ body, node ∈ nodes := by
  obtain ⟨_, piece, walkedPiece, inPiece, inside⟩ := exists_piece_of_mem walked member
  obtain ⟨roots, body, known, walkedBody, below⟩ := Arena.exists_walk_of_mem walkedPiece inPiece
  obtain ⟨function, here, listed⟩ := Option.bind_eq_some_iff.mp known
  exact ⟨function, roots, body, here, listed, walkedBody,
    fun node inBody => inside node (below.subset inBody)⟩

end Package

namespace UnitView

variable {view : UnitView} {nodes : List NodeRef}

/-! ### Look-ups in a closed list of nodes -/

theorem exists_expr_of_mem (closed : view.arena.Closed nodes) {id : ExprId}
    (member : NodeRef.expr id ∈ nodes) :
    ∃ expr children, view.arena.expr? id = some expr ∧
      view.arena.exprChildren? expr.kind = some children ∧ ∀ child ∈ children, child ∈ nodes := by
  obtain ⟨children, known, inside⟩ := closed _ member
  obtain ⟨expr, found, listed⟩ := Option.bind_eq_some_iff.mp known
  exact ⟨expr, children, found, listed, inside⟩

theorem exists_stmt_of_mem (closed : view.arena.Closed nodes) {id : StmtId}
    (member : NodeRef.stmt id ∈ nodes) :
    ∃ stmt children, view.arena.stmt? id = some stmt ∧
      view.arena.stmtChildren? stmt.kind = some children ∧ ∀ child ∈ children, child ∈ nodes := by
  obtain ⟨children, known, inside⟩ := closed _ member
  obtain ⟨stmt, found, listed⟩ := Option.bind_eq_some_iff.mp known
  exact ⟨stmt, children, found, listed, inside⟩

theorem exprRefs?_eq_some {arena : Arena} {range : IdRange} {refs : List NodeRef}
    (listed : arena.exprRefs? range = some refs) :
    ∃ ids, arena.exprList? range = some ids ∧ refs = ids.map .expr := by
  obtain ⟨ids, found, same⟩ := Option.map_eq_some_iff.mp listed
  exact ⟨ids, found, same.symm⟩

/-- The callee of a call is in the list, and so is the base of its selector. -/
theorem exists_target_of_mem (closed : view.arena.Closed nodes) {id : ExprId} {expr : Expr}
    (member : NodeRef.expr id ∈ nodes) (found : view.arena.expr? id = some expr) :
    ∃ target, view.target? expr = some target := by
  obtain ⟨expr', children, found', listed, inside⟩ := exists_expr_of_mem closed member
  cases found.symm.trans found'
  cases kind : expr.kind with
  | call callee args =>
      rw [kind] at listed
      obtain ⟨refs, _, same⟩ := Option.map_eq_some_iff.mp listed
      have calleeMember : NodeRef.expr callee ∈ nodes := by
        apply inside
        rw [← same]
        exact List.mem_cons_self ..
      obtain ⟨head, below, foundHead, listedHead, insideHead⟩ :=
        exists_expr_of_mem closed calleeMember
      cases headKind : head.kind with
      | selector base field symbol =>
          rw [headKind] at listedHead
          cases listedHead
          obtain ⟨receiver, _, foundReceiver, _, _⟩ :=
            exists_expr_of_mem closed (insideHead (.expr base) (List.mem_cons_self ..))
          simp [target?, calleeSymbol?, namedSymbol?, receiverIsInterface?, kind, foundHead,
            headKind, foundReceiver]
      | _ =>
          simp [target?, calleeSymbol?, namedSymbol?, receiverIsInterface?, kind, foundHead,
            headKind]
  | _ => simp [target?, calleeSymbol?, namedSymbol?, receiverIsInterface?, kind]

theorem exists_assignment_of_mem (closed : view.arena.Closed nodes) {id : StmtId} {stmt : Stmt}
    (member : NodeRef.stmt id ∈ nodes) (found : view.arena.stmt? id = some stmt)
    {left right : IdRange} (assigns : stmt.kind.assignment? = some (left, right)) :
    ∃ targets values, view.arena.exprList? left = some targets ∧
      view.arena.exprList? right = some values ∧
      (∀ target ∈ targets, NodeRef.expr target ∈ nodes) ∧
      ∀ value ∈ values, NodeRef.expr value ∈ nodes := by
  obtain ⟨stmt', children, found', listed, inside⟩ := exists_stmt_of_mem closed member
  cases found.symm.trans found'
  have listedBoth : (do return (← view.arena.exprRefs? left) ++ (← view.arena.exprRefs? right)) =
      some children := by
    cases kind : stmt.kind with
    | assign op targets values =>
        rw [kind] at assigns listed
        cases assigns
        exact listed
    | varDecl names values =>
        rw [kind] at assigns listed
        cases assigns
        exact listed
    | _ =>
        rw [kind] at assigns
        cases assigns
  obtain ⟨leftRefs, leftListed, rest⟩ := Option.bind_eq_some_iff.mp listedBoth
  obtain ⟨rightRefs, rightListed, same⟩ := Option.bind_eq_some_iff.mp rest
  obtain ⟨targets, foundTargets, rfl⟩ := exprRefs?_eq_some leftListed
  obtain ⟨values, foundValues, rfl⟩ := exprRefs?_eq_some rightListed
  cases same
  refine ⟨targets, values, foundTargets, foundValues, ?_, ?_⟩
  · intro target inTargets
    exact inside _ (List.mem_append_left _ (List.mem_map_of_mem inTargets))
  · intro value inValues
    exact inside _ (List.mem_append_right _ (List.mem_map_of_mem inValues))

/-! ### Definitions -/

theorem mem_of_valueFor? {targets values : List ExprId} {position : Nat} {value : ExprId}
    (paired : valueFor? targets values position = some value) : value ∈ values := by
  unfold valueFor? at paired
  split at paired
  · exact List.mem_of_getElem? paired
  · split at paired
    · cases paired
      exact List.mem_cons_self ..
    · cases paired

theorem definition?_of_pairs {span : Span} {targets values : List ExprId} {position : Nat}
    {var : VarId} {definition : Definition} (sameSpan : definition.span = span)
    (pairs : view.Pairs targets values position var definition) :
    view.definition? span targets values (definition.target, position) =
      some (some (var, definition)) := by
  obtain ⟨_, paired, node, value, foundNode, isError, names, foundValue, isCall⟩ := pairs
  cases kind : value.kind with
  | call callee args =>
      simp only [definition?, foundNode, isError, names, paired, foundValue, kind, if_true,
        Option.bind_eq_bind, Option.bind_some, Option.pure_def]
      rw [← sameSpan]
  | _ =>
      rw [kind] at isCall
      exact False.elim isCall

theorem pairs_of_definition? {span : Span} {targets values : List ExprId} {target : ExprId}
    {position : Nat} {var : VarId} {definition : Definition}
    (atPosition : targets[position]? = some target)
    (made : view.definition? span targets values (target, position) =
      some (some (var, definition))) :
    definition.span = span ∧ view.Pairs targets values position var definition := by
  unfold definition? at made
  obtain ⟨node, foundNode, rest⟩ := Option.bind_eq_some_iff.mp made
  split at rest
  · cases rest
  · rename_i owner named
    split at rest
    · cases rest
    · rename_i call paired
      obtain ⟨value, foundValue, last⟩ := Option.bind_eq_some_iff.mp rest
      split at last
      · rename_i callee args kind
        cases last
        split at named
        · rename_i isError
          refine ⟨rfl, atPosition, paired, node, value, foundNode, isError, named, foundValue, ?_⟩
          rw [kind]
          trivial
        · cases named
      · cases last

theorem exists_definition? {span : Span} {targets values : List ExprId} {target : ExprId × Nat}
    (targetFound : ∃ node, view.arena.expr? target.1 = some node)
    (valuesFound : ∀ value ∈ values, ∃ node, view.arena.expr? value = some node) :
    ∃ found, view.definition? span targets values target = some found := by
  obtain ⟨node, foundNode⟩ := targetFound
  unfold definition?
  rw [foundNode, Option.bind_eq_bind, Option.bind_some]
  split
  · exact ⟨none, rfl⟩
  · split
    · exact ⟨none, rfl⟩
    · rename_i value paired
      obtain ⟨valueNode, foundValue⟩ := valuesFound value (mem_of_valueFor? paired)
      rw [foundValue, Option.bind_some]
      split <;> exact ⟨_, rfl⟩

theorem exists_definitionsAt? (closed : view.arena.Closed nodes) {ref : NodeRef}
    (member : ref ∈ nodes) : ∃ found, view.definitionsAt? ref = some found := by
  cases ref with
  | expr id => exact ⟨[], rfl⟩
  | literal id => exact ⟨[], rfl⟩
  | stmt id =>
      obtain ⟨stmt, _, found, _, _⟩ := exists_stmt_of_mem closed member
      simp only [definitionsAt?, found, Option.bind_eq_bind, Option.bind_some]
      cases assigns : stmt.kind.assignment? with
      | none => exact ⟨[], rfl⟩
      | some ranges =>
          obtain ⟨targets, values, foundTargets, foundValues, targetsInside, valuesInside⟩ :=
            exists_assignment_of_mem closed member found assigns
          have known : ∀ id, NodeRef.expr id ∈ nodes → ∃ node, view.arena.expr? id = some node := by
            intro id inside
            obtain ⟨node, _, foundNode, _, _⟩ := exists_expr_of_mem closed inside
            exact ⟨node, foundNode⟩
          have defined : ∀ target ∈ targets.zipIdx,
              ∃ made, view.definition? stmt.span targets values target = some made := by
            intro target inZip
            apply exists_definition?
            · exact known _ (targetsInside _ (List.fst_mem_of_mem_zipIdx inZip))
            · exact fun value inValues => known _ (valuesInside value inValues)
          obtain ⟨made, all⟩ := exists_mapM_eq_some defined
          simp [foundTargets, foundValues, all]

theorem mem_definitionsAt? {ref : NodeRef} {found : List (VarId × Definition)}
    (listed : view.definitionsAt? ref = some found) {var : VarId} {definition : Definition} :
    (var, definition) ∈ found ↔ ∃ id, ref = .stmt id ∧ view.Assigns id var definition := by
  cases ref with
  | expr id =>
      cases listed
      simp
  | literal id =>
      cases listed
      simp
  | stmt id =>
      obtain ⟨stmt, foundStmt, rest⟩ := Option.bind_eq_some_iff.mp listed
      cases assigns : stmt.kind.assignment? with
      | none =>
          rw [assigns] at rest
          cases rest
          constructor
          · intro impossible
            cases impossible
          · intro impossible
            obtain ⟨id', same, stmt', _, _, _, _, _, foundStmt', assigns', _⟩ := impossible
            cases same
            cases foundStmt.symm.trans foundStmt'
            rw [assigns] at assigns'
            cases assigns'
      | some ranges =>
          obtain ⟨left, right⟩ := ranges
          rw [assigns] at rest
          obtain ⟨targets, foundTargets, rest⟩ := Option.bind_eq_some_iff.mp rest
          obtain ⟨values, foundValues, rest⟩ := Option.bind_eq_some_iff.mp rest
          obtain ⟨made, all, same⟩ := Option.bind_eq_some_iff.mp rest
          cases same
          have related := mapM_eq_some_iff.mp all
          constructor
          · intro member
            obtain ⟨entry, inMade, isSome⟩ := List.mem_filterMap.mp member
            cases isSome
            obtain ⟨⟨target, position⟩, inZip, makes⟩ := mem_of_forall₂_right related inMade
            obtain ⟨sameSpan, pairs⟩ :=
              pairs_of_definition? (List.mem_zipIdx_iff_getElem?.mp inZip) makes
            exact ⟨id, rfl, stmt, left, right, targets, values, position, foundStmt, assigns,
              foundTargets, foundValues, sameSpan, pairs⟩
          · intro defines
            obtain ⟨id', same, stmt', left', right', targets', values', position, foundStmt',
              assigns', foundTargets', foundValues', sameSpan, pairs⟩ := defines
            cases same
            cases foundStmt.symm.trans foundStmt'
            cases assigns.symm.trans assigns'
            cases foundTargets.symm.trans foundTargets'
            cases foundValues.symm.trans foundValues'
            have inZip : (definition.target, position) ∈ targets.zipIdx :=
              List.mem_zipIdx_iff_getElem?.mpr pairs.1
            obtain ⟨entry, inMade, makes⟩ := mem_of_forall₂_left related inZip
            cases (definition?_of_pairs sameSpan pairs).symm.trans makes
            exact List.mem_filterMap.mpr ⟨_, inMade, rfl⟩

theorem exists_definitionIndex? (closed : view.arena.Closed nodes) :
    ∃ index, view.definitionIndex? nodes = some index := by
  obtain ⟨found, all⟩ := exists_mapM_eq_some fun ref member => exists_definitionsAt? closed member
  exact ⟨⟨found.flatten⟩, by simp [definitionIndex?, all]⟩

theorem mem_entries_iff {index : DefinitionIndex}
    (indexed : view.definitionIndex? nodes = some index) {var : VarId} {definition : Definition} :
    (var, definition) ∈ index.entries ↔
      ∃ id, NodeRef.stmt id ∈ nodes ∧ view.Assigns id var definition := by
  obtain ⟨found, all, same⟩ := Option.bind_eq_some_iff.mp indexed
  cases same
  rw [mem_flatten_of_mapM all]
  constructor
  · intro listed
    obtain ⟨ref, inNodes, entries, foundEntries, member⟩ := listed
    obtain ⟨id, rfl, assigns⟩ := (mem_definitionsAt? foundEntries).mp member
    exact ⟨id, inNodes, assigns⟩
  · intro assigned
    obtain ⟨id, inNodes, assigns⟩ := assigned
    obtain ⟨entries, _, foundEntries⟩ := mem_of_forall₂_left (mapM_eq_some_iff.mp all) inNodes
    exact ⟨_, inNodes, entries, foundEntries, (mem_definitionsAt? foundEntries).mpr
      ⟨id, rfl, assigns⟩⟩

/-- The definitions listed for a variable are the calls that define it. -/
theorem defines_iff (walked : view.unit.allNodes? = some nodes) {index : DefinitionIndex}
    (indexed : view.definitionIndex? nodes = some index) {var : VarId} {call : ExprId} :
    view.Defines var call ↔ ∃ definition ∈ index.resolve var, definition.call = call := by
  constructor
  · intro defines
    obtain ⟨id, definition, occurs, assigns, same⟩ := defines
    have inNodes := (Package.mem_allNodes_iff walked).mpr occurs
    exact ⟨definition, DefinitionIndex.mem_resolve.mpr
      ((mem_entries_iff indexed).mpr ⟨id, inNodes, assigns⟩), same⟩
  · intro listed
    obtain ⟨definition, member, same⟩ := listed
    obtain ⟨id, inNodes, assigns⟩ :=
      (mem_entries_iff indexed).mp (DefinitionIndex.mem_resolve.mp member)
    exact ⟨id, definition, (Package.mem_allNodes_iff walked).mp inNodes, assigns, same⟩

theorem mem_nodes_of_resolve (closed : view.arena.Closed nodes) {index : DefinitionIndex}
    (indexed : view.definitionIndex? nodes = some index) {var : VarId} {definition : Definition}
    (member : definition ∈ index.resolve var) : NodeRef.expr definition.call ∈ nodes := by
  obtain ⟨id, inNodes, stmt, left, right, targets, values, position, foundStmt, assigns,
    foundTargets, foundValues, _, pairs⟩ :=
    (mem_entries_iff indexed).mp (DefinitionIndex.mem_resolve.mp member)
  obtain ⟨targets', values', _, foundValues', _, inside⟩ :=
    exists_assignment_of_mem closed inNodes foundStmt assigns
  cases foundValues.symm.trans foundValues'
  exact inside _ (mem_of_valueFor? pairs.2.1)

end UnitView

end ErrorWrapping
