import ErrorWrapping.Proofs.Definitions

/-
Escapes are the error sources of a function.

When the tree of a unit can be walked, the escapes of its functions can be computed, and their
targets are exactly the error sources.
-/

namespace ErrorWrapping

namespace UnitView

variable {view : UnitView} {nodes : List NodeRef} {index : DefinitionIndex}

/-! ### Escapes of one error -/

theorem exists_varEscapes? (closed : view.arena.Closed nodes)
    (indexed : view.definitionIndex? nodes = some index) (site : Span) (var : VarId) :
    ∃ escapes, view.varEscapes? index site var = some escapes := by
  unfold varEscapes?
  split
  · exact ⟨_, rfl⟩
  · apply exists_mapM_eq_some
    intro definition member
    have inNodes := mem_nodes_of_resolve closed indexed member
    obtain ⟨call, _, found, _, _⟩ := exists_expr_of_mem closed inNodes
    obtain ⟨target, invokes⟩ := exists_target_of_mem closed inNodes found
    exact ⟨⟨some target, site, some call.span⟩, by simp [found, invokes]⟩

theorem mem_varEscapes? (walked : view.unit.allNodes? = some nodes)
    (indexed : view.definitionIndex? nodes = some index) {site : Span} {var : VarId}
    {escapes : List Escape} (listed : view.varEscapes? index site var = some escapes)
    {source : Option CallTarget} :
    source ∈ escapes.map (·.target) ↔ view.GoesBackTo (.var var) source := by
  unfold varEscapes? at listed
  split at listed
  · rename_i none
    cases listed
    have missing : ∀ id, ¬ view.Defines var id := by
      intro id defines
      obtain ⟨definition, member, _⟩ := (defines_iff walked indexed).mp defines
      rw [none] at member
      cases member
    constructor
    · intro member
      cases List.mem_singleton.mp member
      exact .undefined missing
    · intro back
      cases back with
      | defined defines _ _ => exact absurd defines (missing _)
      | undefined _ => exact List.mem_singleton.mpr rfl
  · rename_i some
    have related := mapM_eq_some_iff.mp listed
    constructor
    · intro member
      obtain ⟨escape, inEscapes, rfl⟩ := List.mem_map.mp member
      obtain ⟨definition, inList, made⟩ := mem_of_forall₂_right related inEscapes
      obtain ⟨call, found, rest⟩ := Option.bind_eq_some_iff.mp made
      obtain ⟨target, invokes, same⟩ := Option.bind_eq_some_iff.mp rest
      cases same
      exact .defined ((defines_iff walked indexed).mpr ⟨definition, inList, rfl⟩) found invokes
    · intro back
      cases back with
      | defined defines found invokes =>
          obtain ⟨definition, inList, rfl⟩ := (defines_iff walked indexed).mp defines
          obtain ⟨escape, inEscapes, made⟩ := mem_of_forall₂_left related inList
          simp only [found, invokes, Option.bind_eq_bind, Option.bind_some, Option.pure_def,
            Option.some.injEq] at made
          cases made
          exact List.mem_map.mpr ⟨_, inEscapes, rfl⟩
      | undefined missing =>
          cases resolved : index.resolve var with
          | nil => exact absurd resolved some
          | cons definition rest =>
              refine absurd ((defines_iff walked indexed).mpr ⟨definition, ?_, rfl⟩) (missing _)
              rw [resolved]
              exact List.mem_cons_self ..

/-! ### Escapes of one returned expression -/

theorem exprEscapes?_of_call {site : Span} {id : ExprId} {expr : Expr}
    (found : view.arena.expr? id = some expr) (isCall : expr.kind.IsCall) :
    view.exprEscapes? index site id =
      if (view.isErrorExpr expr || view.holdsError expr) = true then
        (view.target? expr).map fun target => [⟨some target, site, none⟩]
      else some [] := by
  cases kind : expr.kind with
  | call callee args =>
      simp only [exprEscapes?, found, kind, Option.bind_eq_bind, Option.bind_some]
      split
      · cases view.target? expr <;> rfl
      · rfl
  | _ =>
      rw [kind] at isCall
      exact False.elim isCall

theorem exprEscapes?_of_noCall {site : Span} {id : ExprId} {expr : Expr}
    (found : view.arena.expr? id = some expr) (noCall : ¬ expr.kind.IsCall) :
    view.exprEscapes? index site id =
      if view.isErrorExpr expr = true then
        match view.varOf? expr with
        | some var => view.varEscapes? index site var
        | none => some [.unknown site]
      else some [] := by
  cases kind : expr.kind with
  | call callee args =>
      rw [kind] at noCall
      exact absurd trivial noCall
  | _ =>
      unfold exprEscapes?
      rewrite [found, Option.bind_eq_bind, Option.bind_some, kind]
      rfl

theorem exists_exprEscapes? (closed : view.arena.Closed nodes)
    (indexed : view.definitionIndex? nodes = some index) (site : Span) {id : ExprId}
    (member : NodeRef.expr id ∈ nodes) :
    ∃ escapes, view.exprEscapes? index site id = some escapes := by
  obtain ⟨expr, _, found, _, _⟩ := exists_expr_of_mem closed member
  by_cases isCall : expr.kind.IsCall
  · rw [exprEscapes?_of_call found isCall]
    obtain ⟨target, invokes⟩ := exists_target_of_mem closed member found
    rw [invokes]
    split <;> exact ⟨_, rfl⟩
  · rw [exprEscapes?_of_noCall found isCall]
    split
    · split
      · exact exists_varEscapes? closed indexed site _
      · exact ⟨_, rfl⟩
    · exact ⟨_, rfl⟩

theorem mem_exprEscapes? (walked : view.unit.allNodes? = some nodes)
    (indexed : view.definitionIndex? nodes = some index) {site : Span} {id : ExprId}
    {escapes : List Escape} (listed : view.exprEscapes? index site id = some escapes)
    {source : Option CallTarget} :
    source ∈ escapes.map (·.target) ↔
      ∃ returned, view.ExprCarries id returned ∧ view.GoesBackTo returned source := by
  obtain ⟨expr, found, _⟩ := Option.bind_eq_some_iff.mp listed
  have same : ∀ {other}, view.arena.expr? id = some other → other = expr :=
    fun known => Option.some.inj (known.symm.trans found)
  by_cases isCall : expr.kind.IsCall
  · rw [exprEscapes?_of_call found isCall] at listed
    have onlyCall : ∀ {returned}, view.ExprCarries id returned → returned = .call id ∧
        (view.isErrorExpr expr || view.holdsError expr) = true := by
      intro returned carries
      cases carries with
      | call known _ isError =>
          cases same known
          exact ⟨rfl, Bool.or_eq_true _ _ ▸ isError⟩
      | var known noCall _ _ =>
          cases same known
          exact absurd isCall noCall
      | other known noCall _ _ =>
          cases same known
          exact absurd isCall noCall
    split at listed
    · rename_i isError
      obtain ⟨target, invokes, rfl⟩ := Option.map_eq_some_iff.mp listed
      constructor
      · intro member
        cases List.mem_singleton.mp member
        exact ⟨_, .call found isCall (Bool.or_eq_true _ _ ▸ isError), .call found invokes⟩
      · intro carried
        obtain ⟨returned, carries, back⟩ := carried
        cases (onlyCall carries).1
        cases back with
        | call known invokes' =>
            cases same known
            cases invokes.symm.trans invokes'
            exact List.mem_singleton.mpr rfl
    · rename_i noError
      cases listed
      constructor
      · intro impossible
        cases impossible
      · intro carried
        obtain ⟨returned, carries, _⟩ := carried
        exact absurd (onlyCall carries).2 noError
  · rw [exprEscapes?_of_noCall found isCall] at listed
    split at listed
    · rename_i isError
      split at listed
      · rename_i var names
        rw [mem_varEscapes? walked indexed listed]
        constructor
        · intro back
          exact ⟨_, .var found isCall isError names, back⟩
        · intro carried
          obtain ⟨returned, carries, back⟩ := carried
          cases carries with
          | call known isCall' _ =>
              cases same known
              exact absurd isCall' isCall
          | var known _ _ names' =>
              cases same known
              cases names.symm.trans names'
              exact back
          | other known _ _ names' =>
              cases same known
              cases names.symm.trans names'
      · rename_i names
        cases listed
        constructor
        · intro member
          cases List.mem_singleton.mp member
          exact ⟨_, .other found isCall isError names, .unknown⟩
        · intro carried
          obtain ⟨returned, carries, back⟩ := carried
          cases carries with
          | call known isCall' _ =>
              cases same known
              exact absurd isCall' isCall
          | var known _ _ names' =>
              cases same known
              cases names.symm.trans names'
          | other _ _ _ _ =>
              cases back
              exact List.mem_singleton.mpr rfl
    · rename_i noError
      cases listed
      constructor
      · intro impossible
        cases impossible
      · intro carried
        obtain ⟨returned, carries, _⟩ := carried
        cases carries with
        | call known isCall' _ =>
            cases same known
            exact absurd isCall' isCall
        | var known _ isError _ =>
            cases same known
            exact absurd isError noError
        | other known _ isError _ =>
            cases same known
            exact absurd isError noError

/-! ### Escapes of a bare return -/

theorem mem_targets_of_mapM {α : Type} {f : α → Option (List Escape)} {xs : List α}
    {ys : List (List Escape)} (collected : xs.mapM f = some ys) {source : Option CallTarget} :
    source ∈ ys.flatten.map (·.target) ↔
      ∃ x ∈ xs, ∃ found, f x = some found ∧ source ∈ found.map (·.target) := by
  constructor
  · intro member
    obtain ⟨escape, inLists, same⟩ := List.mem_map.mp member
    obtain ⟨x, inList, found, known, inFound⟩ := (mem_flatten_of_mapM collected).mp inLists
    exact ⟨x, inList, found, known, List.mem_map.mpr ⟨escape, inFound, same⟩⟩
  · intro member
    obtain ⟨x, inList, found, known, inTargets⟩ := member
    obtain ⟨escape, inFound, same⟩ := List.mem_map.mp inTargets
    have inLists := (mem_flatten_of_mapM collected).mpr ⟨x, inList, found, known, inFound⟩
    exact List.mem_map.mpr ⟨escape, inLists, same⟩

theorem exists_bareEscapes? (closed : view.arena.Closed nodes)
    (indexed : view.definitionIndex? nodes = some index) (function : Function) (site : Span) :
    ∃ escapes, view.bareEscapes? index function site = some escapes := by
  have defined : ∀ position ∈ (ErrorShape.ofFunction view.types function).positions,
      ∃ escapes, (match (function.results[position]?).bind (·.var) with
        | some var => view.varEscapes? index site var
        | none => some [.unknown site]) = some escapes := by
    intro position _
    split
    · exact exists_varEscapes? closed indexed site _
    · exact ⟨_, rfl⟩
  obtain ⟨escapes, all⟩ := exists_mapM_eq_some defined
  exact ⟨escapes.flatten, Option.bind_eq_some_iff.mpr ⟨escapes, all, rfl⟩⟩

theorem mem_bareEscapes? (walked : view.unit.allNodes? = some nodes)
    (indexed : view.definitionIndex? nodes = some index) {function : Function} {site : Span}
    {escapes : List Escape} (listed : view.bareEscapes? index function site = some escapes)
    {source : Option CallTarget} :
    source ∈ escapes.map (·.target) ↔ ∃ slot ∈ function.results, ∃ returned,
      view.SlotCarries slot returned ∧ view.GoesBackTo returned source := by
  unfold bareEscapes? at listed
  obtain ⟨lists, collected, same⟩ := Option.bind_eq_some_iff.mp listed
  cases same
  rw [mem_targets_of_mapM collected]
  constructor
  · intro member
    obtain ⟨position, inPositions, found, known, inFound⟩ := member
    obtain ⟨slot, atPosition, isError⟩ := ErrorShape.mem_positions.mp inPositions
    refine ⟨slot, List.mem_of_getElem? atPosition, ?_⟩
    rw [atPosition, Option.bind_some] at known
    cases named : slot.var with
    | some var =>
        rw [named] at known
        exact ⟨_, .named isError named, (mem_varEscapes? walked indexed known).mp inFound⟩
    | none =>
        rw [named] at known
        cases known
        cases List.mem_singleton.mp inFound
        exact ⟨_, .unnamed isError named, .unknown⟩
  · intro member
    obtain ⟨slot, declared, returned, carries, back⟩ := member
    obtain ⟨position, atPosition⟩ := List.mem_iff_getElem?.mp declared
    have inPositions : view.types.isError slot.type = true →
        position ∈ (ErrorShape.ofFunction view.types function).positions :=
      fun isError => ErrorShape.mem_positions.mpr ⟨slot, atPosition, isError⟩
    cases carries with
    | named isError named =>
        obtain ⟨found, _, known⟩ :=
          mem_of_forall₂_left (mapM_eq_some_iff.mp collected) (inPositions isError)
        refine ⟨position, inPositions isError, found, known, ?_⟩
        rw [atPosition, Option.bind_some, named] at known
        exact (mem_varEscapes? walked indexed known).mpr back
    | unnamed isError unnamed =>
        cases back
        refine ⟨position, inPositions isError, [.unknown site], ?_, List.mem_singleton.mpr rfl⟩
        rw [atPosition, Option.bind_some, unnamed]

/-! ### Returns -/

/-- The results of a node that is a `return`. -/
def returnAt? (view : UnitView) : NodeRef → Option (Option (Span × List ExprId))
  | .stmt id => (view.arena.stmt? id).bind fun stmt =>
      match stmt.kind with
      | .ret range => (view.arena.exprList? range).map fun results => some (stmt.span, results)
      | _ => some none
  | _ => some none

theorem returns?_eq (function : Function) :
    view.returns? function = (view.arena.bodyRefs? function).bind fun roots =>
      (view.arena.walk .own roots).bind fun own =>
        (own.mapM view.returnAt?).map fun found => found.filterMap id := by
  unfold returns?
  cases view.arena.bodyRefs? function with
  | none => rfl
  | some roots =>
      simp only [Option.bind_eq_bind, Option.bind_some]
      cases view.arena.walk .own roots with
      | none => rfl
      | some own =>
          simp only [Option.bind_some, Option.map_eq_bind]
          congr 2
          funext node
          cases node with
          | stmt id =>
              simp only [returnAt?]
              cases view.arena.stmt? id with
              | none => rfl
              | some stmt =>
                  simp only [Option.bind_some]
                  cases stmt.kind with
                  | ret range =>
                      dsimp only
                      cases view.arena.exprList? range <;> rfl
                  | _ => rfl
          | _ => rfl

theorem exists_returns? (closed : view.arena.Closed nodes) {function : Function}
    {roots body : List NodeRef} (listed : view.arena.bodyRefs? function = some roots)
    (walked : view.arena.walk .whole roots = some body) (inside : ∀ node ∈ body, node ∈ nodes) :
    ∃ found, view.returns? function = some found := by
  obtain ⟨own, walkedOwn⟩ := Arena.exists_walk_own walked
  have ownInside : ∀ node ∈ own, node ∈ nodes := by
    intro node member
    apply inside
    exact (Arena.mem_walk_iff walked).mpr ((Arena.mem_walk_iff walkedOwn).mp member).whole_of_own
  suffices defined : ∀ node ∈ own, ∃ found, view.returnAt? node = some found by
    obtain ⟨found, all⟩ := exists_mapM_eq_some defined
    refine ⟨found.filterMap id, ?_⟩
    rw [returns?_eq, listed, Option.bind_some, walkedOwn, Option.bind_some, all, Option.map_some]
  intro node member
  cases node with
  | expr id => exact ⟨none, rfl⟩
  | literal id => exact ⟨none, rfl⟩
  | stmt id =>
      obtain ⟨stmt, children, known, below, _⟩ := exists_stmt_of_mem closed (ownInside _ member)
      cases kind : stmt.kind with
      | ret range =>
          rw [kind] at below
          obtain ⟨ids, known', _⟩ := exprRefs?_eq_some below
          exact ⟨some (stmt.span, ids), by simp [returnAt?, known, kind, known']⟩
      | _ => exact ⟨none, by simp [returnAt?, known, kind]⟩

theorem returnAt?_eq_some_iff {node : NodeRef} {site : Span} {results : List ExprId} :
    view.returnAt? node = some (some (site, results)) ↔
      ∃ id stmt range, node = .stmt id ∧ view.arena.stmt? id = some stmt ∧
        stmt.kind = .ret range ∧ view.arena.exprList? range = some results ∧ stmt.span = site := by
  constructor
  · intro made
    cases node with
    | expr id => cases made
    | literal id => cases made
    | stmt id =>
        obtain ⟨stmt, known, rest⟩ := Option.bind_eq_some_iff.mp made
        cases kind : stmt.kind with
        | ret range =>
            rw [kind] at rest
            obtain ⟨ids, listed, same⟩ := Option.map_eq_some_iff.mp rest
            cases same
            exact ⟨id, stmt, range, rfl, known, kind, listed, rfl⟩
        | _ =>
            rw [kind] at rest
            cases rest
  · intro found
    obtain ⟨id, stmt, range, rfl, known, kind, listed, rfl⟩ := found
    simp [returnAt?, known, kind, listed]

theorem mem_returns?_iff {function : Function} {found : List (Span × List ExprId)}
    (listed : view.returns? function = some found) {results : List ExprId} :
    (∃ site, (site, results) ∈ found) ↔ view.Returns function results := by
  rw [returns?_eq] at listed
  obtain ⟨roots, refs, rest⟩ := Option.bind_eq_some_iff.mp listed
  obtain ⟨own, walked, rest⟩ := Option.bind_eq_some_iff.mp rest
  obtain ⟨entries, all, rfl⟩ := Option.map_eq_some_iff.mp rest
  have related := mapM_eq_some_iff.mp all
  constructor
  · intro member
    obtain ⟨site, member⟩ := member
    obtain ⟨entry, inEntries, rfl⟩ := List.mem_filterMap.mp member
    obtain ⟨node, inOwn, made⟩ := mem_of_forall₂_right related inEntries
    obtain ⟨id, stmt, range, rfl, known, kind, listed, _⟩ := returnAt?_eq_some_iff.mp made
    exact ⟨roots, id, stmt, range, refs, (Arena.mem_walk_iff walked).mp inOwn, known, kind, listed⟩
  · intro returns
    obtain ⟨roots', id, stmt, range, refs', met, known, kind, listed⟩ := returns
    cases refs.symm.trans refs'
    obtain ⟨entry, inEntries, made⟩ :=
      mem_of_forall₂_left related ((Arena.mem_walk_iff walked).mpr met)
    rw [returnAt?_eq_some_iff.mpr ⟨id, stmt, range, rfl, known, kind, listed, rfl⟩] at made
    cases made
    exact ⟨stmt.span, List.mem_filterMap.mpr ⟨_, inEntries, rfl⟩⟩

theorem mem_nodes_of_returns (closed : view.arena.Closed nodes) {function : Function}
    {roots body : List NodeRef} (listed : view.arena.bodyRefs? function = some roots)
    (walked : view.arena.walk .whole roots = some body) (inside : ∀ node ∈ body, node ∈ nodes)
    {results : List ExprId} (returns : view.Returns function results) {id : ExprId}
    (member : id ∈ results) : NodeRef.expr id ∈ nodes := by
  obtain ⟨roots', stmt, _, range, listed', met, known, kind, found⟩ := returns
  cases listed.symm.trans listed'
  have inBody := (Arena.mem_walk_iff walked).mpr met.whole_of_own
  obtain ⟨stmt', children, known', below, inChildren⟩ :=
    exists_stmt_of_mem closed (inside _ inBody)
  cases known.symm.trans known'
  rw [kind] at below
  obtain ⟨ids, found', rfl⟩ := exprRefs?_eq_some below
  cases found.symm.trans found'
  exact inChildren _ (List.mem_map.mpr ⟨id, member, rfl⟩)

/-! ### Escapes of a function -/

/-- The escapes of one `return`. -/
def siteEscapes? (view : UnitView) (index : DefinitionIndex) (function : Function)
    (entry : Span × List ExprId) : Option (List Escape) :=
  if entry.2.isEmpty then view.bareEscapes? index function entry.1
  else (entry.2.mapM (view.exprEscapes? index entry.1)).map (·.flatten)

theorem escapes?_eq (function : Function) :
    view.escapes? index function = (view.returns? function).bind fun found =>
      (found.mapM (view.siteEscapes? index function)).map (·.flatten) := by
  unfold escapes?
  cases view.returns? function with
  | none => rfl
  | some found =>
      simp only [Option.bind_eq_bind, Option.bind_some, Option.map_eq_bind]
      congr 2
      funext entry
      simp only [siteEscapes?, Option.map_eq_bind]
      rfl

theorem exists_escapes? (closed : view.arena.Closed nodes)
    (indexed : view.definitionIndex? nodes = some index) {function : Function}
    {roots body : List NodeRef} (listed : view.arena.bodyRefs? function = some roots)
    (walked : view.arena.walk .whole roots = some body) (inside : ∀ node ∈ body, node ∈ nodes) :
    ∃ escapes, view.escapes? index function = some escapes := by
  obtain ⟨found, returned⟩ := exists_returns? closed listed walked inside
  have defined : ∀ entry ∈ found, ∃ escapes,
      view.siteEscapes? index function entry = some escapes := by
    intro entry member
    unfold siteEscapes?
    split
    · exact exists_bareEscapes? closed indexed function entry.1
    · have returns := (mem_returns?_iff returned).mp ⟨entry.1, member⟩
      obtain ⟨lists, all⟩ := exists_mapM_eq_some fun id inResults =>
        exists_exprEscapes? closed indexed entry.1
          (mem_nodes_of_returns closed listed walked inside returns inResults)
      exact ⟨lists.flatten, by rw [all, Option.map_some]⟩
  obtain ⟨lists, all⟩ := exists_mapM_eq_some defined
  exact ⟨lists.flatten, by rw [escapes?_eq, returned, Option.bind_some, all, Option.map_some]⟩

theorem mem_siteEscapes? (walked : view.unit.allNodes? = some nodes)
    (indexed : view.definitionIndex? nodes = some index) {function : Function}
    {entry : Span × List ExprId} {escapes : List Escape}
    (listed : view.siteEscapes? index function entry = some escapes)
    {source : Option CallTarget} :
    source ∈ escapes.map (·.target) ↔
      (∃ id ∈ entry.2, ∃ returned,
        view.ExprCarries id returned ∧ view.GoesBackTo returned source) ∨
      (entry.2 = [] ∧ ∃ slot ∈ function.results, ∃ returned,
        view.SlotCarries slot returned ∧ view.GoesBackTo returned source) := by
  unfold siteEscapes? at listed
  split at listed
  · rename_i bare
    rw [List.isEmpty_iff] at bare
    rw [mem_bareEscapes? walked indexed listed, bare]
    simp
  · rename_i given
    rw [List.isEmpty_iff] at given
    obtain ⟨lists, all, rfl⟩ := Option.map_eq_some_iff.mp listed
    rw [mem_targets_of_mapM all, or_iff_left fun bare => given bare.1]
    constructor
    · intro member
      obtain ⟨id, inResults, found, known, inFound⟩ := member
      exact ⟨id, inResults, (mem_exprEscapes? walked indexed known).mp inFound⟩
    · intro member
      obtain ⟨id, inResults, carried⟩ := member
      obtain ⟨found, _, known⟩ := mem_of_forall₂_left (mapM_eq_some_iff.mp all) inResults
      exact ⟨id, inResults, found, known, (mem_exprEscapes? walked indexed known).mpr carried⟩

/-- The targets of the escapes of a function are its error sources. -/
theorem mem_escapes?_iff (walked : view.unit.allNodes? = some nodes)
    (indexed : view.definitionIndex? nodes = some index) {function : Function}
    {escapes : List Escape} (listed : view.escapes? index function = some escapes)
    {source : Option CallTarget} :
    source ∈ escapes.map (·.target) ↔ view.Source function source := by
  rw [escapes?_eq] at listed
  obtain ⟨found, returned, rest⟩ := Option.bind_eq_some_iff.mp listed
  obtain ⟨lists, all, rfl⟩ := Option.map_eq_some_iff.mp rest
  rw [mem_targets_of_mapM all]
  constructor
  · intro member
    obtain ⟨entry, inFound, some, known, inSome⟩ := member
    have returns := (mem_returns?_iff returned).mp ⟨entry.1, inFound⟩
    rcases (mem_siteEscapes? walked indexed known).mp inSome with given | ⟨bare, given⟩
    · obtain ⟨id, inResults, error, carries, back⟩ := given
      exact ⟨error, .expr returns inResults carries, back⟩
    · obtain ⟨slot, declared, error, carries, back⟩ := given
      rw [bare] at returns
      exact ⟨error, .bare returns declared carries, back⟩
  · intro comes
    obtain ⟨error, letsOut, back⟩ := comes
    cases letsOut with
    | expr returns member carries =>
        obtain ⟨site, inFound⟩ := (mem_returns?_iff returned).mpr returns
        obtain ⟨some, _, known⟩ := mem_of_forall₂_left (mapM_eq_some_iff.mp all) inFound
        exact ⟨_, inFound, some, known, (mem_siteEscapes? walked indexed known).mpr
          (Or.inl ⟨_, member, error, carries, back⟩)⟩
    | bare returns declared carries =>
        obtain ⟨site, inFound⟩ := (mem_returns?_iff returned).mpr returns
        obtain ⟨some, _, known⟩ := mem_of_forall₂_left (mapM_eq_some_iff.mp all) inFound
        exact ⟨_, inFound, some, known, (mem_siteEscapes? walked indexed known).mpr
          (Or.inr ⟨rfl, _, declared, error, carries, back⟩)⟩

end UnitView

end ErrorWrapping
