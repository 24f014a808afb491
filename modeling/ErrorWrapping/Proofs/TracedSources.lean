import ErrorWrapping.Proofs.AssignedCalls
import ErrorWrapping.Proofs.ReadBack
import ErrorWrapping.Proofs.Reports

/-
Error sources by trees.

The sources of a summary are classified one after the other while other functions may be summarized
in between, but which they are depends on the tree of the function and the assignments of the unit
alone. For every unit of a lowered dump they are the traces that the dump itself gives, in its
order.
-/

namespace ErrorWrapping

/-! ### Traces of escapes and sources -/

def Escape.trace (escape : Escape) : ErrorTrace :=
  match escape.target with
  | none => .unknown escape.site
  | some target => ⟨target.symbol, escape.site, escape.origin⟩

/-- What a source says apart from its classification. -/
def ErrorSource.trace (source : ErrorSource) : ErrorTrace :=
  ⟨source.producer, source.site, source.origin⟩

theorem Workload.trace_sourceOf {σ : Type} [FactStore σ] {symbols : SymbolTable} {policy : Policy}
    (facts : σ) (escape : Escape) :
    (sourceOf symbols policy facts escape).trace = escape.trace := by
  unfold sourceOf Escape.trace
  cases escape.target <;> rfl

theorem map_eq_map_of_forall₂ {α β γ : Type} {f : α → γ} {g : β → γ} {xs : List α} {ys : List β}
    (same : List.Forall₂ (fun x y => f x = g y) xs ys) : xs.map f = ys.map g := by
  induction same with
  | nil => rfl
  | cons first _ ih => rw [List.map_cons, List.map_cons, first, ih]

theorem TypeTable.isEmpty_positionsFrom {α : Type} (test : α → Bool) (start : Nat)
    (entries : List α) : (positionsFrom test start entries).isEmpty = !entries.any test := by
  induction entries generalizing start with
  | nil => rfl
  | cons entry rest ih =>
      rw [positionsFrom, List.any_cons]
      cases test entry with
      | true => rfl
      | false => exact ih (start + 1)

theorem TypeTable.isEmpty_errorPositions (types : TypeTable) (id : TypeId) :
    (!(types.errorPositions id).isEmpty) = types.isErrorTuple id := by
  unfold errorPositions isErrorTuple
  cases types.get? id with
  | none => rfl
  | some form =>
      cases form with
      | tuple elements => exact (congrArg not (isEmpty_positionsFrom ..)).trans (Bool.not_not _)
      | _ => rfl

namespace UnitView

variable {view : UnitView} {types : Nat} {index : DefinitionIndex} {trees : UnitTrees}

/-- The definitions of every variable are the assignments of calls to it. -/
def DefinesBy (view : UnitView) (index : DefinitionIndex) (trees : UnitTrees) : Prop :=
  ∀ var, List.Forall₂ (fun definition made => view.Records (var, definition) made)
    (index.resolve var) (trees.definitions view.types var)

theorem trace_varEscapes? (defined : view.DefinesBy index trees) {site : Span} {var : VarId}
    {escapes : List Escape} (listed : view.varEscapes? index site var = some escapes) :
    escapes.map Escape.trace = trees.varTraces view.types site var := by
  have records := defined var
  unfold varEscapes? at listed
  unfold UnitTrees.varTraces
  generalize index.resolve var = definitions at listed records
  generalize trees.definitions view.types var = made at records
  cases records with
  | nil =>
      cases listed
      rfl
  | cons first rest =>
      refine map_eq_map_of_forall₂ (forall₂_of_mapM listed (.cons first rest) ?_)
      intro definition escape made computed recorded
      obtain ⟨call, target, found, span, invokes, symbol⟩ := recorded.call
      simp only [found, invokes, Option.bind_eq_bind, Option.bind_some, Option.pure_def,
        Option.some.injEq] at computed
      rw [← computed, ← symbol, ← span]
      rfl

theorem trace_exprEscapes? (grounded : view.arena.Grounded view.symbols.size types)
    (defined : view.DefinesBy index trees) {site : Span} {id : ExprId} {tree : ExprTree}
    (reads : view.arena.Reads (.expr id) (.expr tree)) {escapes : List Escape}
    (listed : view.exprEscapes? index site id = some escapes) :
    escapes.map Escape.trace = trees.exprTraces view.types site tree := by
  obtain ⟨expr, found, pictured⟩ := exists_matches grounded reads
  have isError : view.isErrorExpr expr = view.types.isError tree.type := by
    rw [isErrorExpr, pictured.type]
  have holdsError : view.holdsError expr = view.types.isErrorTuple tree.type := by
    rw [UnitView.holdsError, pictured.type, TypeTable.isEmpty_errorPositions]
  unfold UnitTrees.exprTraces
  cases called : tree.callee? with
  | some callee =>
      obtain ⟨⟨_, _, kind⟩, target, invokes, symbol⟩ := pictured.call callee called
      rw [exprEscapes?_of_call found (by rw [kind]; trivial), isError, holdsError, invokes]
        at listed
      dsimp only
      split at listed
      · rename_i carries
        cases listed
        rw [if_pos carries, ← symbol]
        rfl
      · rename_i carries
        cases listed
        rw [if_neg carries]
        rfl
  | none =>
      rw [exprEscapes?_of_noCall found (pictured.noCall called), isError, pictured.var] at listed
      dsimp only
      split at listed
      · rename_i carries
        rw [if_pos carries]
        cases named : tree.var? with
        | some var =>
            rw [named] at listed
            exact trace_varEscapes? defined listed
        | none =>
            rw [named] at listed
            cases listed
            rfl
      · rename_i carries
        cases listed
        rw [if_neg carries]
        rfl

theorem trace_slots (defined : view.DefinesBy index trees) {results slots : List ResultSlot}
    {site : Span} {start : Nat} (aligned : ∀ offset, results[start + offset]? = slots[offset]?)
    {lists : List (List Escape)}
    (collected : (TypeTable.positionsFrom (fun slot => view.types.isError slot.type) start
      slots).mapM (fun position =>
        match (results[position]?).bind (·.var) with
        | some var => view.varEscapes? index site var
        | none => some [.unknown site]) = some lists) :
    lists.flatten.map Escape.trace = slots.flatMap (trees.slotTraces view.types site) := by
  induction slots generalizing start lists with
  | nil =>
      cases collected
      rfl
  | cons slot rest ih =>
      have later : ∀ offset, results[start + 1 + offset]? = rest[offset]? := by
        intro offset
        rw [Nat.add_assoc, Nat.add_comm 1, aligned]
        rfl
      rw [TypeTable.positionsFrom] at collected
      rw [List.flatMap_cons, UnitTrees.slotTraces]
      split at collected
      · rename_i isError
        rw [if_pos isError]
        rw [mapM_eq_some_iff] at collected
        cases collected with
        | cons first others =>
            have here : results[start]? = some slot := aligned 0
            rw [List.flatten_cons, List.map_append, ih later (mapM_eq_some_iff.mpr others)]
            congr 1
            rw [here, Option.bind_some] at first
            cases named : slot.var with
            | some var =>
                rw [named] at first
                exact trace_varEscapes? defined first
            | none =>
                rw [named] at first
                cases first
                rfl
      · rename_i noError
        rw [if_neg noError]
        exact ih later collected

/-- A `return` and its results are read as those of a tree. -/
def ReadsReturn (view : UnitView) (entry : Span × List ExprId) (other : Span × List ExprTree) :
    Prop :=
  entry.1 = other.1 ∧ view.ReadsExprs entry.2 other.2

theorem trace_siteEscapes? (grounded : view.arena.Grounded view.symbols.size types)
    (defined : view.DefinesBy index trees) {function : Function} {entry : Span × List ExprId}
    {other : Span × List ExprTree} (reads : view.ReadsReturn entry other) {escapes : List Escape}
    (listed : view.siteEscapes? index function entry = some escapes) :
    escapes.map Escape.trace = trees.returnTraces view.types function.results other := by
  obtain ⟨site, ids⟩ := entry
  obtain ⟨_, exprs⟩ := other
  obtain ⟨rfl, readsResults⟩ := reads
  have empty : ids.isEmpty = exprs.isEmpty := by
    cases readsResults <;> rfl
  unfold siteEscapes? at listed
  unfold UnitTrees.returnTraces
  rw [← empty]
  split at listed
  · rename_i bare
    rw [if_pos bare]
    obtain ⟨lists, collected, same⟩ := Option.bind_eq_some_iff.mp listed
    cases same
    rw [ErrorShape.positions_ofFunction] at collected
    exact trace_slots defined (fun offset => by rw [Nat.zero_add]) collected
  · rename_i carries
    rw [if_neg carries]
    obtain ⟨lists, collected, rfl⟩ := Option.map_eq_some_iff.mp listed
    rw [List.map_flatten]
    refine congrArg List.flatten (map_eq_map_of_forall₂ ?_)
    exact forall₂_of_mapM collected readsResults fun id list tree made readsHere =>
      trace_exprEscapes? grounded defined readsHere made

/-! ### Returns -/

theorem returnAt?_stmt {id : StmtId} {stmt : Stmt} (known : view.arena.stmt? id = some stmt) :
    view.returnAt? (.stmt id) = match stmt.kind.results? with
      | some range => (view.arena.exprList? range).map fun ids => some (stmt.span, ids)
      | none => some none := by
  rw [returnAt?, known, Option.bind_some]
  cases stmt.kind <;> rfl

theorem rel_returnAt? {ref : NodeRef} {part : TreePart} (reads : view.arena.Reads ref part.node)
    {found : Option (Span × List ExprId)} (made : view.returnAt? ref = some found) :
    Option.Rel view.ReadsReturn found part.return? := by
  obtain ⟨node, assigned⟩ := part
  obtain ⟨_, read⟩ := reads
  rcases read.kinds with ⟨id, tree, rfl, rfl⟩ | ⟨id, tree, rfl, rfl⟩ | ⟨id, tree, rfl, rfl⟩
  · cases made
    exact .none
  · obtain ⟨height, stmt, known, node⟩ := Arena.Reads.exists_stmt ⟨_, read⟩
    have pictured := (Reader.pictures_of_stmtNode node).results
    rw [returnAt?_stmt known] at made
    change Option.Rel view.ReadsReturn found tree.return?
    generalize stmt.kind.results? = range at pictured made
    generalize tree.return? = other at pictured
    cases pictured with
    | none =>
        cases made
        exact .none
    | some both =>
        obtain ⟨ids, listed, rfl⟩ := Option.map_eq_some_iff.mp made
        exact .some ⟨both.1.symm, readsExprs_of_exprs both.2 listed⟩
  · cases made
    exact .none

/-- The returns of a function are those of its tree. -/
theorem forall₂_returns {func : FuncId} {function : Function} {tree : FunctionTree}
    (known : view.arena.function? func = some function)
    (reads : view.arena.Reads (.literal func) (.literal tree)) {found : List (Span × List ExprId)}
    (listed : view.returns? function = some found) :
    List.Forall₂ view.ReadsReturn found tree.returns := by
  rw [returns?_eq] at listed
  obtain ⟨roots, refs, rest⟩ := Option.bind_eq_some_iff.mp listed
  obtain ⟨own, walked, rest⟩ := Option.bind_eq_some_iff.mp rest
  obtain ⟨entries, collected, rfl⟩ := Option.map_eq_some_iff.mp rest
  obtain ⟨refs', children, all⟩ := reads.readsAll
  obtain ⟨function', known', refs''⟩ := Option.bind_eq_some_iff.mp children
  cases known.symm.trans known'
  cases refs.symm.trans refs''
  have each := forall₂_of_mapM collected (all.walk walked)
    fun ref found part made readsHere => rel_returnAt? readsHere made
  exact List.rel_filterMap (fun _ _ related => related) each

theorem exists_function_of_reads {func : FuncId} {tree : FunctionTree}
    (reads : view.arena.Reads (.literal func) (.literal tree)) :
    ∃ function, view.arena.function? func = some function ∧ function.name = tree.name ∧
      function.results = tree.results := by
  obtain ⟨height, read⟩ := reads
  cases height with
  | zero => cases read
  | succ height =>
      obtain ⟨function, known, node⟩ := Option.bind_eq_some_iff.mp read
      obtain ⟨body, _, same⟩ := Option.bind_eq_some_iff.mp node
      cases same
      exact ⟨function, known, rfl, rfl⟩

/-- The errors that leave a function are those that leave its tree. -/
theorem trace_escapes? (grounded : view.arena.Grounded view.symbols.size types)
    (defined : view.DefinesBy index trees) {func : FuncId} {function : Function}
    {tree : FunctionTree} (known : view.arena.function? func = some function)
    (reads : view.arena.Reads (.literal func) (.literal tree)) {escapes : List Escape}
    (listed : view.escapes? index function = some escapes) :
    escapes.map Escape.trace = trees.traces view.types tree := by
  rw [escapes?_eq] at listed
  obtain ⟨found, returned, rest⟩ := Option.bind_eq_some_iff.mp listed
  obtain ⟨lists, collected, rfl⟩ := Option.map_eq_some_iff.mp rest
  obtain ⟨_, known', _, results⟩ := exists_function_of_reads reads
  cases known.symm.trans known'
  rw [UnitTrees.traces, ← results, List.map_flatten, List.flatMap]
  refine congrArg List.flatten (map_eq_map_of_forall₂ ?_)
  exact forall₂_of_mapM collected (forall₂_returns known reads returned)
    fun entry list other made readsHere => trace_siteEscapes? grounded defined readsHere made

/-! ### The functions of a unit -/

/-- A function of the unit is read as a tree. -/
def ReadsListed (view : UnitView) (listed : FuncId × String) (function : FunctionTree) : Prop :=
  view.arena.Reads (.literal listed.1) (.literal function)

theorem forall₂_nameLiterals {found : List NodeRef} {parts : List TreePart}
    (reads : view.arena.ReadsAll found parts) (outer : String) :
    List.Forall₂ view.ReadsListed (nameLiterals outer found)
      (parts.filterMap TreePart.function?) := by
  refine List.forall₂_map_left_iff.mpr (forall₂_zipIdx (R := fun id function =>
    view.arena.Reads (.literal id) (.literal function)) ?_)
  refine List.rel_filterMap (fun ref part readsHere => ?_) reads
  obtain ⟨node, assigned⟩ := part
  obtain ⟨height, read⟩ := readsHere
  rcases read.kinds with ⟨id, tree, rfl, rfl⟩ | ⟨id, tree, rfl, rfl⟩ | ⟨id, tree, rfl, rfl⟩
  · exact .none
  · exact .none
  · exact .some ⟨height, read⟩

theorem forall₂_declOrder? {decl : FuncId} {function : FunctionTree}
    (reads : view.arena.Reads (.literal decl) (.literal function))
    {order : List (FuncId × String)} (listed : view.declOrder? decl = some order) :
    List.Forall₂ view.ReadsListed order
      ((TreePart.within .whole (TreeNode.plain (.literal function))).filterMap
        TreePart.function?) := by
  obtain ⟨node, known, rest⟩ := Option.bind_eq_some_iff.mp listed
  obtain ⟨roots, refs, rest⟩ := Option.bind_eq_some_iff.mp rest
  obtain ⟨body, walked, same⟩ := Option.bind_eq_some_iff.mp rest
  cases same
  obtain ⟨refs', children, all⟩ := reads.readsAll
  obtain ⟨node', known', refs''⟩ := Option.bind_eq_some_iff.mp children
  cases known.symm.trans known'
  cases refs.symm.trans refs''
  rw [TreePart.within_whole]
  exact .cons reads (forall₂_nameLiterals (all.walk walked) _)

/-- The functions of a unit are taken in the order in which its trees have them. -/
theorem forall₂_functionOrder? (reads : view.ReadsUnit trees) {order : List (FuncId × String)}
    (listed : view.functionOrder? = some order) :
    List.Forall₂ view.ReadsListed order trees.functions := by
  obtain ⟨lists, collected, rest⟩ := Option.bind_eq_some_iff.mp listed
  obtain ⟨globals, walked, same⟩ := Option.bind_eq_some_iff.mp rest
  cases same
  have declared : trees.functions = (trees.1.flatMap fun function =>
        (TreePart.within .whole (TreeNode.plain (.literal function))).filterMap
          TreePart.function?) ++
      ((stmtParts trees.2).flatMap (TreePart.within .whole)).filterMap TreePart.function? := by
    rw [UnitTrees.functions, UnitTrees.parts, List.flatMap_append, List.filterMap_append,
      List.flatMap_map, List.filterMap_flatMap]
  rw [declared, List.flatMap]
  refine List.rel_append (List.rel_flatten (List.forall₂_map_right_iff.mpr ?_))
    (forall₂_nameLiterals (reads.globals.walk walked) _)
  exact forall₂_of_mapM collected reads.decls fun decl list function made readsHere =>
    forall₂_declOrder? readsHere made

theorem readsUnit_of_read? (read : view.unit.read? = some trees) : view.ReadsUnit trees := by
  obtain ⟨functions, readFunctions, rest⟩ := Option.bind_eq_some_iff.mp read
  obtain ⟨globals, readGlobals, same⟩ := Option.bind_eq_some_iff.mp rest
  cases same
  refine ⟨(mapM_eq_some_iff.mp readFunctions).imp fun _ _ read => ⟨_, read⟩, ?_⟩
  refine List.forall₂_map_left_iff.mpr (List.forall₂_map_right_iff.mpr ?_)
  exact (mapM_eq_some_iff.mp readGlobals).imp fun _ _ read => ⟨_, read⟩

end UnitView

/-! ### Summaries -/

/-- Whether a result of a function is `error`. -/
def FunctionTree.returnsError (types : TypeTable) (function : FunctionTree) : Bool :=
  function.results.any fun slot => types.isError slot.type

/-- A function of a unit, the tree that it is read as, and the summaries of the unit: a function
with an error result has a summary, and its sources are the traces of the tree. -/
structure UnitView.Traces (view : UnitView) (trees : UnitTrees) (summaries : List Summary)
    (func : FuncId) (function : FunctionTree) : Prop where
  reads : view.arena.Reads (.literal func) (.literal function)
  summarized : function.returnsError view.types = true → ∃ summary ∈ summaries, summary.func = func
  sources : ∀ summary ∈ summaries, summary.func = func →
    summary.sources.map ErrorSource.trace = trees.traces view.types function

theorem UnitView.traces_of_run {view : UnitView} {types : Nat} {index : DefinitionIndex}
    {trees : UnitTrees} (grounded : view.arena.Grounded view.symbols.size types)
    (defined : view.DefinesBy index trees) {work : Workload}
    (made : view.workload? index = some work) {order : List (FuncId × String)}
    (listed : view.functionOrder? = some order) {func : FuncId} {function : FunctionTree}
    (reads : view.arena.Reads (.literal func) (.literal function)) {policy : Policy} {σ : Type}
    [FactStore σ] {facts : σ} {summary : Summary}
    (member : summary ∈ (work.run view.symbols policy facts).sorted) (same : summary.func = func) :
    summary.sources.map ErrorSource.trace = trees.traces view.types function := by
  obtain ⟨subject, stored, fallible, _, classified⟩ :=
    Workload.summarizes_of_mem_run facts summary (mem_sorted.mp member)
  rw [same] at stored
  obtain ⟨name, _, madeHere⟩ := subject?_of_workload? made listed stored
  obtain ⟨node, known, _, escaped⟩ := subject?_eq_some madeHere
  rw [← trace_escapes? grounded defined known reads (escaped fallible)]
  refine (map_eq_map_of_forall₂ (classified.imp ?_)).symm
  rintro escape source ⟨moment, rfl⟩
  exact (Workload.trace_sourceOf moment escape).symm

/-- Summarizing a unit gives every function of it the sources that the trees of the unit say. -/
theorem UnitView.exists_summaries {view : UnitView} {types : Nat} {trees : UnitTrees}
    (planted : view.unit.Planted) (grounded : view.arena.Grounded view.symbols.size types)
    (numbered : view.unit.Numbered) (reads : view.ReadsUnit trees) {σ : Type} [FactStore σ]
    (policy : Policy) (facts : σ) :
    ∃ outcome, view.summarize? policy facts = some outcome ∧
      ∀ func function, view.arena.Reads (.literal func) (.literal function) →
        view.Traces trees outcome.value func function := by
  obtain ⟨nodes, walked, once, _⟩ := planted.allNodes?
  obtain ⟨index, indexed⟩ := exists_definitionIndex? (Package.closed_allNodes walked)
  obtain ⟨work, made⟩ := exists_workload? walked indexed
  obtain ⟨order, listed⟩ := exists_functionOrder? walked
  have mirrors := mirrors_of_workload? walked indexed made
  have defined : view.DefinesBy index trees :=
    forall₂_resolve grounded numbered walked (List.nodup_append.mp once).2.1 indexed reads
  obtain ⟨outcome, summarized, sorted, _⟩ :=
    summarize?_of_workload? walked indexed made policy facts
  refine ⟨outcome, summarized, fun func function readsHere =>
    ⟨readsHere, fun fallible => ?_, fun summary member same => ?_⟩⟩
  · obtain ⟨node, found, _, results⟩ := exists_function_of_reads readsHere
    have fallibleNode : view.Fallible func node := by
      refine ⟨found, ?_⟩
      rw [Function.returnsError, results]
      exact fallible
    rw [sorted]
    exact mirrors.exists_summary planted fallibleNode facts
  · rw [sorted] at member
    exact traces_of_run grounded defined made listed readsHere member same

/-- The functions of a unit are those of its trees, in their order, with the sources that they
say. -/
theorem UnitView.exists_traces {view : UnitView} {types : Nat} {trees : UnitTrees}
    (planted : view.unit.Planted) (grounded : view.arena.Grounded view.symbols.size types)
    (numbered : view.unit.Numbered) (reads : view.ReadsUnit trees) :
    ∃ order, view.functionOrder? = some order ∧
      ∀ (σ : Type) [FactStore σ] (policy : Policy) (facts : σ),
        ∃ outcome, view.summarize? policy facts = some outcome ∧
          List.Forall₂ (fun listed function =>
            view.Traces trees outcome.value listed.1 function) order trees.functions := by
  obtain ⟨nodes, walked⟩ := planted.exists_allNodes?
  obtain ⟨order, listed⟩ := exists_functionOrder? walked
  refine ⟨order, listed, fun σ _ policy facts => ?_⟩
  obtain ⟨outcome, summarized, traced⟩ :=
    exists_summaries planted grounded numbered reads policy facts
  exact ⟨outcome, summarized, (forall₂_functionOrder? reads listed).imp
    fun entry function readsHere => traced entry.1 function readsHere⟩

/-- In every unit of an accepted dump, whatever the facts, the sources of each function with an
error result are the errors that leave it by the dump. The functions of the unit are those of the
dump in its order. -/
theorem summarize?_traces {dump : Dump} {program : Program} {warnings : List Warning}
    (accepted : dump.lower = .ok (program, warnings)) :
    List.Forall₂ (fun entry unit =>
      let trees : UnitTrees :=
        (entry.glossary dump.types dump.typeNames program unit).unitTrees entry
      ∃ order, (program.view unit).functionOrder? = some order ∧
        ∀ (σ : Type) [FactStore σ] (policy : Policy) (facts : σ),
          ∃ outcome, (program.view unit).summarize? policy facts = some outcome ∧
            List.Forall₂ (fun listed function =>
              (program.view unit).Traces trees outcome.value listed.1 function)
              order trees.functions)
      dump.units program.units.toList := by
  have lowered := Dump.lowered_of_lower accepted
  have numbered := Dump.numbered_of_lower accepted
  have same : dump.toProgram.1 = program := congrArg Prod.fst (Dump.fault?_of_lower accepted).2
  have grounded : program.Grounded := same ▸ Dump.grounded_toProgram dump
  have shown := (Dump.shows_toProgram dump).2
  rw [same] at shown
  refine List.Forall₂.flip (List.Forall₂.imp ?_ ((List.forall₂_and_left _ _).mpr
    ⟨fun unit => Array.mem_toList_iff.mp, shown.flip⟩))
  rintro unit entry ⟨member, shows⟩
  have reads : (program.view unit).ReadsUnit _ := UnitView.readsUnit_of_read? shows.trees
  exact UnitView.exists_traces (lowered.planted unit member) (grounded.units unit member).arena
    (numbered unit member) reads

theorem Dump.retry.traced :
    retry.lower = .ok (program, retry.toProgram.2) ∧
      List.Forall₂ (fun entry unit =>
        let trees : UnitTrees :=
          (entry.glossary retry.types retry.typeNames program unit).unitTrees entry
        ∃ order, (program.view unit).functionOrder? = some order ∧
          ∀ (σ : Type) [FactStore σ] (policy : Policy) (facts : σ),
            ∃ outcome, (program.view unit).summarize? policy facts = some outcome ∧
              List.Forall₂ (fun listed function =>
                (program.view unit).Traces trees outcome.value listed.1 function)
                order trees.functions)
        retry.units program.units.toList :=
  ⟨accepted, summarize?_traces accepted⟩

end ErrorWrapping
