import ErrorWrapping.Proofs.DumpTrees
import ErrorWrapping.Proofs.Grounding
import ErrorWrapping.Proofs.LaterStates

/-
Lowering keeps trees.

What a part of a dump is lowered to can be read from every later state as the tree of that part.
A part is lowered after what is before it and before what is around it, so it relies on the
functions that were added with it, and on no other function.
-/

namespace ErrorWrapping.Dump

/-- What references stand for, by the tables and by what has been resolved in a state. -/
def Tables.glossary (tables : Tables) (state : Lowering) : Glossary where
  unit := tables.unit
  var? id := (tables.varIds[id]?).bind fun var => (state.arena.var? var).map (var, ·)
  symbol? key := (tables.symbolIds[key]?).bind fun symbol =>
    (tables.symbols.get? symbol).map (symbol, ·)
  type spelling := (resolve tables.decls [] spelling state.names).1
  file? path := tables.fileIds[path]?
  span file position := spanOf tables ⟨file, none⟩ position
  symbols := tables.symbols
  types := state.names.types

/-! ### Actions -/

/-- An action whose result shows something in every state that comes of it, as long as the
functions that were added with it stay as they are. -/
def Renders {α : Type} (tables : Tables) (base : Extent) (action : LowerM α)
    (shows : Lowering → α → Prop) : Prop :=
  ∀ state : Lowering, state.Grounded tables.symbols.size →
    base.Grows (state.extent tables.symbols.size) →
    state.LeadsTo 0 (action.run state).2 ∧
      ∀ final, (action.run state).2.LeadsTo state.arena.functions.size final →
        shows final (action.run state).1

section

variable {α β : Type} {tables : Tables} {base : Extent} {shows : Lowering → α → Prop}
  {also : Lowering → β → Prop}

theorem renders_pure_of {result : α} (shown : ∀ state final : Lowering,
      base.Grows (state.extent tables.symbols.size) →
      state.LeadsTo state.arena.functions.size final → shows final result) :
    Renders tables base (pure result) shows :=
  fun state _ grows => ⟨.refl state, fun final kept => shown state final grows kept⟩

theorem renders_pure {result : α} (always : ∀ final, shows final result) :
    Renders tables base (pure result) shows :=
  renders_pure_of fun _ final _ _ => always final

theorem Renders.bind [Located α] {action : LowerM α} {next : α → LowerM β}
    (first : Renders tables base action shows) (yields : Yields tables.symbols.size base action)
    (later : ∀ result further, base.Grows further → Within further result →
      Renders tables further (next result) fun final value => shows final result →
        also final value) :
    Renders tables base (action >>= next) also := by
  intro state grounded grows
  obtain ⟨leads, shown⟩ := first state grounded grows
  have added := yields state grounded grows
  obtain ⟨leadsOn, shownLater⟩ :=
    later _ _ (grows.trans added.grows) added.within _ added.grounded (.refl _)
  refine ⟨leads.trans leadsOn, fun final kept => ?_⟩
  refine shownLater final (kept.raise added.grows.functions) ?_
  exact shown final ((leadsOn.raise (Nat.zero_le _)).trans kept)

theorem Renders.imp {action : LowerM α} {also : Lowering → α → Prop}
    (first : Renders tables base action shows)
    (implies : ∀ final result, shows final result → also final result) :
    Renders tables base action also := by
  intro state grounded grows
  obtain ⟨leads, shown⟩ := first state grounded grows
  exact ⟨leads, fun final kept => implies final _ (shown final kept)⟩

theorem Renders.map {action : LowerM α} {f : α → β} (first : Renders tables base action shows)
    (maps : ∀ final result, shows final result → also final (f result)) :
    Renders tables base (action >>= fun result => pure (f result)) also := by
  intro state grounded grows
  obtain ⟨leads, shown⟩ := first state grounded grows
  exact ⟨leads, fun final kept => maps final _ (shown final kept)⟩

theorem renders_build {step : TreeBuilder → α × TreeBuilder}
    (made : ∀ builder : TreeBuilder, builder.Grounded tables.symbols.size →
      base.Grows (builder.extent tables.symbols.size) →
      builder.LeadsTo 0 (step builder).2 ∧
        ∀ final : Lowering, builder.LeadsTo builder.arena.functions.size final.builder →
          (step builder).2.LeadsTo builder.arena.functions.size final.builder →
          shows final (step builder).1) :
    Renders tables base (build step) shows := by
  intro state grounded grows
  obtain ⟨leads, shown⟩ := made state.builder ⟨grounded.names.types, grounded.arena⟩ grows
  refine ⟨⟨leads.arena, leads.types, fun found => found⟩, fun final kept => ?_⟩
  have here : (step state.builder).2.LeadsTo state.arena.functions.size final.builder :=
    ⟨kept.arena, kept.names.types⟩
  exact shown final ((leads.raise (Nat.zero_le _)).trans here) here

end

variable {tables : Tables} {base : Extent} {place : Place}

theorem renders_warn (warning : Warning) :
    Renders tables base (warn warning) fun _ _ => True :=
  fun _ _ _ => ⟨⟨.refl _, .refl _⟩, fun _ _ => trivial⟩

/-- A name keeps the type that it got here. -/
theorem renders_lowerType (tables : Tables) (spelling : String) :
    Renders tables base (lowerType tables spelling) fun final id =>
      (tables.glossary final).type spelling = id := by
  intro state _ _
  have precedes := precedes_resolve tables.decls [] spelling state.names
  exact ⟨⟨.refl _, precedes⟩, fun final kept => resolve_of_precedes kept.names⟩

theorem renders_lowerType? (tables : Tables) (spelling : Option String) :
    Renders tables base (lowerType? tables spelling) fun final id =>
      (tables.glossary final).typeOf spelling = id := by
  cases spelling with
  | none => exact renders_pure fun _ => rfl
  | some spelling => exact renders_lowerType tables spelling

theorem renders_findSymbol (known : Within base tables) (key : String) :
    Renders tables base (findSymbol tables key) fun final found =>
      (tables.glossary final).symbolId? key = found := by
  unfold findSymbol
  cases listed : tables.symbolIds[key]? with
  | none =>
      refine (renders_warn _).bind (yields_warn _) fun _ _ _ _ => renders_pure fun final _ => ?_
      simp [Glossary.symbolId?, Tables.glossary, listed]
  | some id =>
      refine renders_pure_of fun state final grows _ => ?_
      have bound : id.index < tables.symbols.size :=
        Located.mono grows (known.symbolIds key id listed)
      have found : tables.symbols.get? id = some tables.symbols.symbols[id.index] :=
        Array.getElem?_eq_getElem bound
      simp [Glossary.symbolId?, Tables.glossary, listed, found]

theorem renders_findVar (known : Within base tables) (id : String) :
    Renders tables base (findVar tables id) fun final found =>
      (tables.glossary final).varId? id = found := by
  unfold findVar
  cases listed : tables.varIds[id]? with
  | none =>
      refine (renders_warn _).bind (yields_warn _) fun _ _ _ _ => renders_pure fun final _ => ?_
      simp [Glossary.varId?, Tables.glossary, listed]
  | some var =>
      refine renders_pure_of fun state final grows kept => ?_
      have bound : var.index < state.arena.vars.size :=
        Located.mono grows (known.varIds id var listed)
      rw [← kept.arena.vars] at bound
      have found : final.arena.var? var = some final.arena.vars[var.index] :=
        Array.getElem?_eq_getElem bound
      simp [Glossary.varId?, Tables.glossary, listed, found]

theorem renders_findVars (known : Within base tables) (ids : List String) :
    Renders tables base (findVars tables ids) fun final vars =>
      ids.filterMap (tables.glossary final).varId? = vars := by
  induction ids generalizing base with
  | nil => exact renders_pure fun _ => rfl
  | cons id rest ih =>
      refine (renders_findVar known id).bind (yields_findVar known id)
        fun var first grows varIn => ?_
      have knownHere : Within first tables := Located.mono grows known
      refine (ih knownHere).map fun final vars restShown varShown => ?_
      rw [← varShown, ← restShown]
      cases shown : (tables.glossary final).varId? id <;> simp [shown]

theorem renders_lowerResults (known : Within base tables) (entries : List ResultEntry) :
    Renders tables base (lowerResults tables entries) fun final slots =>
      (tables.glossary final).results entries = slots := by
  induction entries generalizing base with
  | nil => exact renders_pure fun _ => rfl
  | cons entry rest ih =>
      refine (renders_lowerType tables entry.type).bind (yields_lowerType tables entry.type)
        fun type first grows typeIn => ?_
      have knownHere : Within first tables := Located.mono grows known
      have later : ∀ (var : Option VarId) (second : Extent), first.Grows second →
          Within second var → Renders tables second (do
            let slots ← lowerResults tables rest
            return (⟨type, var⟩ :: slots : List ResultSlot)) fun final slots =>
              entry.var.bind (tables.glossary final).varId? = var →
              (tables.glossary final).type entry.type = type →
              (tables.glossary final).results (entry :: rest) = slots := by
        intro var second grows₂ varIn
        have knownThere : Within second tables := Located.mono grows₂ knownHere
        refine (ih knownThere).map fun final slots restShown varShown typeShown => ?_
        rw [← typeShown, ← varShown, ← restShown]
        rfl
      cases named : entry.var with
      | none =>
          rw [named] at later
          refine (later none first (.refl _) fun _ impossible => by cases impossible).imp ?_
          exact fun final slots shown => shown rfl
      | some id =>
          rw [named] at later
          exact (renders_findVar knownHere id).bind (yields_findVar knownHere id) later

theorem renders_fileWithin (tables : Tables) (place : Place) (path : Option String) :
    Renders tables base (fileWithin tables place path) fun final file =>
      (tables.glossary final).fileWithin place.file path = file := by
  cases path with
  | none => exact renders_pure fun _ => rfl
  | some path =>
      simp only [fileWithin]
      cases found : tables.fileIds[path]? with
      | none =>
          refine (renders_warn _).bind (yields_warn _) fun _ _ _ _ => renders_pure fun final _ => ?_
          simp [Glossary.fileWithin, Tables.glossary, found]
      | some file =>
          refine renders_pure fun final => ?_
          simp [Glossary.fileWithin, Tables.glossary, found]

/-! ### Functions -/

/-- A function that differs from the tree of a signature at most in its body. -/
def Glossary.Signs (glossary : Glossary) (file : Option FileId) (declared : Bool)
    (signature : Signature) (info : ErrorWrapping.Function) : Prop :=
  ∀ body, glossary.withBody file declared signature body =
    .mk info.name info.symbol info.params info.results body info.span

theorem renders_function {info : ErrorWrapping.Function} :
    Renders tables base (build (·.function info)) fun final id =>
      final.arena.function? id = some info :=
  renders_build fun builder _ _ =>
    ⟨⟨(Arena.extends_addFunction builder.arena info).leadsTo rfl, .refl _⟩,
      fun _ _ kept => kept.arena.functions (Nat.le_refl _) Array.getElem?_push_size⟩

theorem renders_lowerSignature (known : Within base tables) (declared : Bool)
    (signature : Signature) :
    Renders tables base (lowerSignature tables place declared signature) fun final result =>
      (tables.glossary final).fileWithin place.file signature.file = result.2.file ∧
        ∃ info, final.arena.function? result.1 = some info ∧ info.body = none ∧
          (tables.glossary final).Signs place.file declared signature info := by
  unfold lowerSignature
  refine (renders_fileWithin tables place signature.file).bind
    (yields_fileWithin tables place signature.file) fun file first grows _ => ?_
  have later : ∀ (symbol : Option SymbolId) (second : Extent), first.Grows second →
      Within second symbol → Renders tables second (do
        let params ← findVars tables signature.params
        let results ← lowerResults tables signature.results
        let span := spanOf tables { place with file } signature.at?
        let id ← build (·.function
          { name := signature.name, symbol, parent := place.parent, params, results, body := none,
            span })
        return (id, (⟨file, some id⟩ : Place))) fun final result =>
          (if declared then (tables.glossary final).symbolId?
              (Symbol.keyOf tables.unit signature.receiver signature.name) else none) = symbol →
          (tables.glossary final).fileWithin place.file signature.file = file →
          (tables.glossary final).fileWithin place.file signature.file = result.2.file ∧
            ∃ info, final.arena.function? result.1 = some info ∧ info.body = none ∧
              (tables.glossary final).Signs place.file declared signature info := by
    intro symbol second grows₂ symbolIn
    have knownHere : Within second tables := Located.mono (grows.trans grows₂) known
    refine (renders_findVars knownHere _).bind (yields_findVars knownHere _)
      fun params third grows₃ paramsIn => ?_
    have knownThere : Within third tables := Located.mono grows₃ knownHere
    refine (renders_lowerResults knownThere _).bind (yields_lowerResults knownThere _)
      fun results fourth grows₄ resultsIn => ?_
    refine renders_function.map fun final id found resultsShown paramsShown symbolShown
      fileShown => ⟨fileShown, _, found, rfl, fun body => ?_⟩
    simp only [Glossary.withBody, paramsShown, resultsShown, fileShown]
    rw [← symbolShown]
    rfl
  cases declared with
  | true =>
      have knownHere : Within first tables := Located.mono grows known
      exact (renders_findSymbol knownHere _).bind (yields_findSymbol knownHere _) later
  | false =>
      refine (later none first (.refl _) fun _ impossible => by cases impossible).imp ?_
      exact fun final result shown => shown rfl

/-! ### References -/

section

variable {final : Lowering} {builder : TreeBuilder}

/-- A number that is listed together with its entry, and the entry that it has. -/
theorem bind_pair_eq_some {κ β : Type} {number? : Option κ} {get? : κ → Option β} {number : κ}
    {entry : β}
    (listed : (number?.bind fun key => (get? key).map (key, ·)).map (·.1) = some number)
    (found : get? number = some entry) :
    (number?.bind fun key => (get? key).map (key, ·)) = some (number, entry) := by
  obtain ⟨pair, known, rfl⟩ := Option.map_eq_some_iff.mp listed
  obtain ⟨key, _, stored⟩ := Option.bind_eq_some_iff.mp known
  obtain ⟨other, same, rfl⟩ := Option.map_eq_some_iff.mp stored
  cases found.symm.trans same
  exact known

theorem glossary_var? {id : String} {var : VarId} {info : Variable}
    (listed : (tables.glossary final).varId? id = some var)
    (found : final.arena.var? var = some info) :
    (tables.glossary final).var? id = some (var, info) :=
  bind_pair_eq_some listed found

theorem glossary_symbol? {key : String} {symbol : SymbolId} {info : Symbol}
    (listed : (tables.glossary final).symbolId? key = some symbol)
    (found : tables.symbols.get? symbol = some info) :
    (tables.glossary final).symbol? key = some (symbol, info) :=
  bind_pair_eq_some listed found

theorem exists_symbol {further : Extent} {symbol : SymbolId} (inside : Within further symbol)
    (grows : further.Grows (builder.extent tables.symbols.size)) :
    ∃ info, tables.symbols.get? symbol = some info :=
  ⟨_, Array.getElem?_eq_getElem (Located.mono grows inside)⟩

theorem glossary_funcType {results : List TypeId}
    (precedes : (builder.funcType results).2.types.Precedes final.names.types) :
    (tables.glossary final).funcType results = (builder.funcType results).1 :=
  TypeTable.enter_of_precedes precedes

/-- The type of a call is found again from the tree of what is called. -/
theorem glossary_callType {callee : ErrorWrapping.Expr} {tree : ExprTree}
    (typed : callee.type.index < builder.types.size) (sameType : callee.type = tree.type)
    (sameSymbol : TreeBuilder.calledSymbol? callee.kind = tree.calledSymbol?)
    (precedes : (TreeBuilder.calledType builder.types tables.symbols callee).2.Precedes
      final.names.types) :
    (tables.glossary final).callType tree =
      (TreeBuilder.calledType builder.types tables.symbols callee).1 := by
  have grown := (TreeBuilder.precedes_calledType builder.types tables.symbols callee).trans precedes
  have sameResults : (tables.glossary final).calledResults? tree =
      TreeBuilder.calledResults? builder.types tables.symbols callee := by
    rw [Glossary.calledResults?, TreeBuilder.calledResults?, ← sameSymbol, ← sameType,
      ← grown.get? typed]
    rfl
  rw [Glossary.callType, sameResults]
  unfold TreeBuilder.calledType at precedes ⊢
  cases called : TreeBuilder.calledResults? builder.types tables.symbols callee with
  | none => rfl
  | some results =>
      rw [called] at precedes
      exact TypeTable.resultsType_of_precedes precedes

end

/-! ### Nodes -/

section

variable {final : Lowering} {builder : TreeBuilder} {floor : Nat} {span : Span}

theorem eventually_expr {kind : ExprKind} {type : TypeId} {tree : ExprTree}
    (kept : (builder.expr kind type span).2.LeadsTo floor final.builder)
    (read : final.arena.Eventually fun below =>
      below.exprNode final.arena ⟨kind, span, type⟩ = some tree) :
    final.arena.Eventually fun reader =>
      reader.expr (builder.expr kind type span).1 = some tree :=
  read.expr (kept.arena.exprs (builder.expr?_expr kind type span))

theorem eventually_leaf {kind : ExprKind} {type : TypeId} {tree : ExprTree}
    (kept : (builder.expr kind type span).2.LeadsTo floor final.builder)
    (read : ∀ below : Reader, below.exprNode final.arena ⟨kind, span, type⟩ = some tree) :
    final.arena.Eventually fun reader =>
      reader.expr (builder.expr kind type span).1 = some tree :=
  eventually_expr kept (Arena.eventually_of_forall read)

theorem eventually_stmt {kind : StmtKind} {tree : StmtTree}
    (kept : (builder.stmt kind span).2.LeadsTo floor final.builder)
    (read : final.arena.Eventually fun below =>
      below.stmtNode final.arena ⟨kind, span⟩ = some tree) :
    final.arena.Eventually fun reader => reader.stmt (builder.stmt kind span).1 = some tree :=
  read.stmt (kept.arena.stmts (builder.stmt?_stmt kind span))

theorem eventually_exprs {range : IdRange} {ids : List ExprId} {trees : List ExprTree}
    (listed : final.arena.exprList? range = some ids)
    (read : final.arena.Eventually fun reader => ids.mapM reader.expr = some trees) :
    final.arena.Eventually fun reader => reader.exprs final.arena range = some trees :=
  read.imp fun _ all => Reader.exprs_of_list listed all

theorem eventually_stmts {range : IdRange} {ids : List StmtId} {trees : List StmtTree}
    (listed : final.arena.stmtList? range = some ids)
    (read : final.arena.Eventually fun reader => ids.mapM reader.stmt = some trees) :
    final.arena.Eventually fun reader => reader.stmts final.arena range = some trees :=
  read.imp fun _ all => Reader.stmts_of_list listed all

theorem eventually_call {callee : ExprId} {args : List ExprId} {type : TypeId} {tree : ExprTree}
    {trees : List ExprTree}
    (kept : (builder.callTyped callee args type span).2.LeadsTo floor final.builder)
    (calleeRead : final.arena.Eventually fun reader => reader.expr callee = some tree)
    (argsRead : final.arena.Eventually fun reader => args.mapM reader.expr = some trees) :
    final.arena.Eventually fun reader =>
      reader.expr (builder.callTyped callee args type span).1 =
        some (.call tree trees type span) := by
  have listed := kept.arena.exprLists (builder.exprList?_exprList args)
  exact eventually_expr kept ((calleeRead.and (eventually_exprs listed argsRead)).imp
    fun _ read => Reader.exprNode_call read.1 read.2)

/-- A statement above two lists of expressions. -/
theorem renders_exprLists (left right : List ExprId) {kind : IdRange → IdRange → StmtKind}
    {make : List ExprTree → List ExprTree → StmtTree} {span : Span}
    (node : ∀ {below : Reader} {arena : Arena} {first second : IdRange}
      {leftTrees rightTrees : List ExprTree}, below.exprs arena first = some leftTrees →
      below.exprs arena second = some rightTrees →
      below.stmtNode arena ⟨kind first second, span⟩ = some (make leftTrees rightTrees)) :
    Renders tables base (build fun builder => ((builder.exprList left).2.exprList right).2.stmt
      (kind (builder.exprList left).1 ((builder.exprList left).2.exprList right).1) span)
      fun final id => ∀ leftTrees rightTrees,
        (final.arena.Eventually fun reader => left.mapM reader.expr = some leftTrees) →
        (final.arena.Eventually fun reader => right.mapM reader.expr = some rightTrees) →
        final.arena.Eventually fun reader =>
          reader.stmt id = some (make leftTrees rightTrees) := by
  refine renders_build fun builder _ _ => ⟨builder.leadsTo_exprLists left right kind span,
    fun final _ kept leftTrees rightTrees leftRead rightRead => ?_⟩
  have listedLeft := kept.arena.exprLists
    ((Arena.extends_addExprList _ right).exprLists (builder.exprList?_exprList left))
  have listedRight := kept.arena.exprLists (TreeBuilder.exprList?_exprList _ right)
  have lists := (eventually_exprs listedLeft leftRead).and (eventually_exprs listedRight rightRead)
  exact eventually_stmt kept (lists.imp fun _ read => node read.1 read.2)

/-- A block above a list of statements. -/
theorem renders_block (ids : List StmtId) (span : Span) :
    Renders tables base (build (·.block ids span)) fun final id =>
      ∀ trees, (final.arena.Eventually fun reader => ids.mapM reader.stmt = some trees) →
        final.arena.Eventually fun reader => reader.stmt id = some (.block trees span) := by
  refine renders_build fun builder _ _ =>
    ⟨builder.leadsTo_stmtsBelow ids .., fun final _ kept trees read => ?_⟩
  have listed := kept.arena.stmtLists (builder.stmtList?_stmtList ids)
  exact eventually_stmt kept ((eventually_stmts listed read).imp fun _ read =>
    Reader.stmtNode_block read)

end

theorem glossary_congr {state final : Lowering} (names : state.names = final.names)
    (vars : state.arena.vars = final.arena.vars) :
    tables.glossary state = tables.glossary final := by
  simp only [Tables.glossary, Arena.var?, names, vars]

/-- What a signature says is settled by the names, whatever becomes of the tree. -/
theorem signs_lowerSignature (known : Within base tables) (declared : Bool)
    (signature : Signature) {state final : Lowering}
    (grounded : state.Grounded tables.symbols.size)
    (grows : base.Grows (state.extent tables.symbols.size))
    {made : (FuncId × Place) × Lowering}
    (signing : (lowerSignature tables place declared signature).run state = made)
    (names : made.2.names.Precedes final.names) (vars : final.arena.vars = made.2.arena.vars) :
    (tables.glossary final).fileWithin place.file signature.file = made.1.2.file ∧
      ∃ info, made.2.arena.function? made.1.1 = some info ∧
        (tables.glossary final).Signs place.file declared signature info := by
  obtain ⟨_, shown⟩ := renders_lowerSignature known declared signature state grounded grows
  rw [signing] at shown
  obtain ⟨file, info, found, _, signs⟩ := shown ⟨final.names, made.2.arena, final.warnings⟩
    ⟨(Arena.Extends.refl _).leadsTo rfl, names⟩
  have sameGlossary : tables.glossary ⟨final.names, made.2.arena, final.warnings⟩ =
      tables.glossary final := glossary_congr rfl vars.symm
  rw [sameGlossary] at file signs
  exact ⟨file, info, found, signs⟩

/-- A function gets its body last. The statements of the body were read before that, and rely on
later functions only. -/
theorem renders_withBody (known : Within base tables) (inside : Within base place)
    (declared : Bool) (signature : Signature) {body : List Stmt}
    (renders : ∀ (within : Place) (further : Extent), Within further tables →
      Within further within → Renders tables further (lowerStmts tables within body)
        fun final ids => final.arena.Eventually fun reader =>
          ids.mapM reader.stmt = some ((tables.glossary final).stmts within.file body)) :
    Renders tables base (lowerFunction tables place declared (.mk signature (some body)))
      fun final id => final.arena.Eventually fun reader =>
        reader.function id = some ((tables.glossary final).function place.file declared
          (.mk signature (some body))) := by
  intro state grounded grows
  obtain ⟨_, sameId, sameArena⟩ := opens_lowerSignature tables place declared signature state
  obtain ⟨signed, _⟩ := renders_lowerSignature known declared signature state grounded grows
  have added := yields_lowerSignature known inside declared signature state grounded grows
  generalize signing : (lowerSignature tables place declared signature).run state = made
    at sameId sameArena signed added
  obtain ⟨leads, bodyShown⟩ := renders made.1.2 _
    (Located.mono (grows.trans added.grows) known) added.within.2 made.2 added.grounded (.refl _)
  generalize filling : (lowerStmts tables made.1.2 body).run made.2 = inner at leads bodyShown
  have run : (lowerFunction tables place declared (.mk signature (some body))).run state =
      (made.1.1, ((setBody made.1.1 inner.1).run inner.2).2) := by
    rw [← filling, ← signing]
    unfold lowerFunction lowerBody
    rfl
  rw [run]
  have index : made.1.1.index = state.arena.functions.size := congrArg FuncId.index sameId
  have size : made.2.arena.functions.size = made.1.1.index + 1 := by
    rw [sameArena, index]
    exact Array.size_push ..
  have fresh : state.arena.function? made.1.1 = none := by
    rw [sameId]
    exact Array.getElem?_size
  obtain ⟨_, info, found, _⟩ :=
    signs_lowerSignature known declared signature grounded grows signing (.refl _) rfl
  obtain ⟨settled, range, listed, changed⟩ :=
    leadsTo_setBody (leads.arena.functions (Nat.zero_le _) found) inner.1
  have grown := extends_setBody fresh (signed.trans leads).arena.extends inner.1
  refine ⟨⟨grown.leadsTo (settled.arena.vars.trans (signed.trans leads).arena.vars),
    (signed.trans leads).names.trans settled.names⟩, fun final kept => ?_⟩
  -- The literals of the body were added after the function, so setting the body leaves them alone.
  have bodyRead := bodyShown final (by
    rw [size]
    exact settled.trans (kept.raise (by omega)))
  obtain ⟨file, other, foundSame, signs⟩ :=
    signs_lowerSignature known declared signature grounded grows signing
      (leads.names.trans (settled.names.trans kept.names))
      (kept.arena.vars.trans (settled.arena.vars.trans leads.arena.vars))
  cases foundSame.symm.trans found
  beta_reduce
  rw [Glossary.function, Glossary.body, file, signs]
  refine Arena.Eventually.function (bodyRead.imp fun below read => ?_)
    (kept.arena.functions (Nat.le_of_eq index.symm) changed)
  exact Reader.functionNode_of_body
    (optionMapM_of_some (Reader.stmts_of_list (kept.arena.stmtLists listed) read))

/-! ### Trees -/

mutual

-- Each constructor lowers its parts in order and adds one node above them. The node is read from
-- a later state, where its parts read as they did.

theorem renders_lowerExpr (place : Place) (expr : Expr) {base : Extent}
    (known : Within base tables) (inside : Within base place) :
    Renders tables base (lowerExpr tables place expr) fun final id =>
      final.arena.Eventually fun reader =>
        reader.expr id = some ((tables.glossary final).expr place.file expr) := by
  cases expr with
  | var id at? =>
      unfold lowerExpr
      refine (renders_findVar known id).bind (yields_findVar known id)
        fun found first grows foundIn => ?_
      cases found with
      | none =>
          refine renders_build fun builder _ _ =>
            ⟨builder.leadsTo_expr .., fun final _ kept missing => ?_⟩
          rw [Glossary.expr, Glossary.varRef, Option.map_eq_none_iff.mp missing]
          exact eventually_leaf kept fun _ => rfl
      | some var =>
          refine renders_build fun builder _ further => ?_
          have bound : var.index < builder.arena.vars.size := Located.mono further (foundIn var rfl)
          have stored : builder.arena.var? var = some builder.arena.vars[var.index] :=
            Array.getElem?_eq_getElem bound
          rw [TreeBuilder.varRef_of_found stored]
          refine ⟨builder.leadsTo_expr .., fun final since kept listed => ?_⟩
          rw [Glossary.expr, Glossary.varRef,
            glossary_var? listed ((since.arena.var? var).trans stored)]
          exact eventually_leaf kept fun _ => rfl
  | blank at? =>
      unfold lowerExpr
      refine renders_build fun builder _ _ => ⟨builder.leadsTo_expr .., fun final _ kept => ?_⟩
      rw [Glossary.expr]
      exact eventually_leaf kept fun _ => rfl
  | func key at? =>
      unfold lowerExpr
      refine (renders_findSymbol known key).bind (yields_findSymbol known key)
        fun found first grows foundIn => ?_
      cases found with
      | none =>
          refine renders_build fun builder _ _ =>
            ⟨builder.leadsTo_expr .., fun final _ kept missing => ?_⟩
          rw [Glossary.expr, Glossary.funcRef, Option.map_eq_none_iff.mp missing]
          exact eventually_leaf kept fun _ => rfl
      | some symbol =>
          refine renders_build fun builder _ further => ?_
          obtain ⟨info, stored⟩ := exists_symbol (foundIn symbol rfl) further
          rw [TreeBuilder.funcRef_of_found stored]
          refine ⟨(builder.leadsTo_funcType _).trans (TreeBuilder.leadsTo_expr ..),
            fun final _ kept listed => ?_⟩
          simp only [Glossary.expr, Glossary.funcRef, glossary_symbol? listed stored,
            glossary_funcType kept.types]
          exact eventually_leaf kept fun _ => rfl
  | package path at? =>
      unfold lowerExpr
      refine renders_build fun builder _ _ => ⟨builder.leadsTo_expr .., fun final _ kept => ?_⟩
      rw [Glossary.expr]
      exact eventually_leaf kept fun _ => rfl
  | select object key at? =>
      unfold lowerExpr
      refine (renders_lowerExpr place object known inside).bind
        (yields_lowerExpr place object known inside) fun id first grows idIn => ?_
      have knownHere : Within first tables := Located.mono grows known
      refine (renders_findSymbol knownHere key).bind (yields_findSymbol knownHere key)
        fun found second grows₂ foundIn => ?_
      cases found with
      | none =>
          refine renders_build fun builder _ _ =>
            ⟨builder.leadsTo_expr .., fun final _ kept missing objectRead => ?_⟩
          rw [Glossary.expr, Glossary.select, Option.map_eq_none_iff.mp missing]
          exact eventually_expr kept (objectRead.imp fun _ read =>
            Reader.exprNode_selector read _ _)
      | some symbol =>
          refine renders_build fun builder _ further => ?_
          obtain ⟨info, stored⟩ := exists_symbol (foundIn symbol rfl) further
          rw [TreeBuilder.select_of_found stored]
          refine ⟨(builder.leadsTo_funcType _).trans (TreeBuilder.leadsTo_expr ..),
            fun final _ kept listed objectRead => ?_⟩
          simp only [Glossary.expr, Glossary.select, glossary_symbol? listed stored,
            glossary_funcType kept.types]
          exact eventually_expr kept (objectRead.imp fun _ read =>
            Reader.exprNode_selector read _ _)
  | field object name type at? =>
      unfold lowerExpr
      refine (renders_lowerExpr place object known inside).bind
        (yields_lowerExpr place object known inside) fun id first grows idIn => ?_
      refine (renders_lowerType? tables type).bind (yields_lowerType? tables type)
        fun typeId second grows₂ typeIn => ?_
      refine renders_build fun builder _ _ =>
        ⟨builder.leadsTo_expr .., fun final _ kept typeShown objectRead => ?_⟩
      rw [Glossary.expr, typeShown]
      exact eventually_expr kept (objectRead.imp fun _ read => Reader.exprNode_selector read _ _)
  | call callee args type at? =>
      unfold lowerExpr
      refine (renders_lowerExpr place callee known inside).bind
        (yields_lowerExpr place callee known inside) fun calleeId first grows calleeIn => ?_
      have knownHere : Within first tables := Located.mono grows known
      have insideHere : Within first place := Located.mono grows inside
      refine (renders_lowerExprs place args knownHere insideHere).bind
        (yields_lowerExprs place args knownHere insideHere) fun argIds second grows₂ argsIn => ?_
      cases type with
      | none =>
          refine renders_build fun builder grounded further => ?_
          have bound : calleeId.index < builder.arena.exprs.size :=
            Located.mono (grows₂.trans further) calleeIn
          obtain ⟨target, stored⟩ : ∃ target, builder.arena.expr? calleeId = some target :=
            ⟨_, Array.getElem?_eq_getElem bound⟩
          have typed : target.type.index < builder.types.size :=
            (grounded.arena.exprs calleeId target stored).2
          rw [TreeBuilder.call?_of_found stored, Option.getD_some]
          refine ⟨(builder.leadsTo_withTypes (TreeBuilder.precedes_calledType ..)).trans
            (TreeBuilder.leadsTo_callTyped ..), fun final since kept argsRead calleeRead => ?_⟩
          obtain ⟨callee, found, sameType, sameSymbol⟩ := calleeRead.exists_expr
          cases found.symm.trans (since.arena.exprs stored)
          rw [Glossary.expr, Glossary.call, Option.map_none, Option.getD_none,
            glossary_callType typed sameType sameSymbol kept.types]
          exact eventually_call kept calleeRead argsRead
      | some type =>
          refine (renders_lowerType tables type).bind (yields_lowerType tables type)
            fun typeId third grows₃ typeIn => ?_
          refine renders_build fun builder _ _ =>
            ⟨builder.leadsTo_callTyped .., fun final _ kept typeShown argsRead calleeRead => ?_⟩
          rw [Glossary.expr, Glossary.call, Option.map_some, Option.getD_some, typeShown]
          exact eventually_call kept calleeRead argsRead
  | nil at? =>
      unfold lowerExpr
      refine renders_build fun builder _ _ => ⟨builder.leadsTo_expr .., fun final _ kept => ?_⟩
      rw [Glossary.expr]
      exact eventually_leaf kept fun _ => rfl
  | literal type at? =>
      unfold lowerExpr
      refine (renders_lowerType? tables type).bind (yields_lowerType? tables type)
        fun typeId first grows typeIn => ?_
      refine renders_build fun builder _ _ =>
        ⟨builder.leadsTo_expr .., fun final _ kept typeShown => ?_⟩
      rw [Glossary.expr, typeShown]
      exact eventually_leaf kept fun _ => rfl
  | funcLit literal at? =>
      unfold lowerExpr
      refine (renders_lowerFunction place false literal known inside).bind
        (yields_lowerFunction place false literal known inside) fun func first grows funcIn => ?_
      refine renders_build fun builder _ further => ?_
      have bound : func.index < builder.arena.functions.size := Located.mono further funcIn
      obtain ⟨function, stored⟩ : ∃ function, builder.arena.function? func = some function :=
        ⟨_, Array.getElem?_eq_getElem bound⟩
      rw [TreeBuilder.funcLit?_of_found stored, Option.getD_some]
      refine ⟨(builder.leadsTo_funcType _).trans (TreeBuilder.leadsTo_expr ..),
        fun final since kept literalRead => ?_⟩
      obtain ⟨later, foundLater, sameResults⟩ := since.arena.results stored
      obtain ⟨function', found, shown⟩ := literalRead.exists_function
      cases found.symm.trans foundLater
      have results : function.results.map (·.type) = literal.signature.results.map
          fun entry => (tables.glossary final).type entry.type := by
        rw [← sameResults, shown, Glossary.results_function, Glossary.results, List.map_map]
        rfl
      rw [results] at kept ⊢
      rw [Glossary.expr, glossary_funcType kept.types]
      exact eventually_expr kept (literalRead.imp fun _ read => Reader.exprNode_funcLit read)
  | other operands type at? =>
      unfold lowerExpr
      refine (renders_lowerExprs place operands known inside).bind
        (yields_lowerExprs place operands known inside) fun ids first grows idsIn => ?_
      refine (renders_lowerType? tables type).bind (yields_lowerType? tables type)
        fun typeId second grows₂ typeIn => ?_
      refine renders_build fun builder _ _ =>
        ⟨(builder.leadsTo_exprList ids).trans (TreeBuilder.leadsTo_expr ..),
          fun final _ kept typeShown operandsRead => ?_⟩
      rw [Glossary.expr, typeShown]
      have listed := kept.arena.exprLists (builder.exprList?_exprList ids)
      exact eventually_expr kept ((eventually_exprs listed operandsRead).imp fun _ read =>
        Reader.exprNode_other read)

theorem renders_lowerExprs (place : Place) (exprs : List Expr) {base : Extent}
    (known : Within base tables) (inside : Within base place) :
    Renders tables base (lowerExprs tables place exprs) fun final ids =>
      final.arena.Eventually fun reader =>
        ids.mapM reader.expr = some ((tables.glossary final).exprs place.file exprs) := by
  cases exprs with
  | nil =>
      unfold lowerExprs
      exact renders_pure fun _ => Arena.eventually_of_forall fun _ => by
        rw [Glossary.exprs]
        rfl
  | cons expr rest =>
      unfold lowerExprs
      refine (renders_lowerExpr place expr known inside).bind
        (yields_lowerExpr place expr known inside) fun id first grows idIn => ?_
      refine (renders_lowerExprs place rest (Located.mono grows known)
        (Located.mono grows inside)).map fun final ids restRead exprRead => ?_
      rw [Glossary.exprs]
      exact (exprRead.and restRead).imp fun _ read => mapM_cons_of_some read.1 read.2

theorem renders_lowerTag (place : Place) (tag : Option Expr) {base : Extent}
    (known : Within base tables) (inside : Within base place) :
    Renders tables base (lowerTag tables place tag) fun final id =>
      final.arena.Eventually fun reader =>
        id.mapM reader.expr = some ((tables.glossary final).tag place.file tag) := by
  cases tag with
  | none =>
      unfold lowerTag
      exact renders_pure fun _ => Arena.eventually_of_forall fun _ => by
        rw [Glossary.tag]
        rfl
  | some expr =>
      unfold lowerTag
      refine (renders_lowerExpr place expr known inside).map fun final id exprRead => ?_
      rw [Glossary.tag]
      exact exprRead.imp fun _ read => optionMapM_of_some read

theorem renders_lowerStmt (place : Place) (stmt : Stmt) {base : Extent}
    (known : Within base tables) (inside : Within base place) :
    Renders tables base (lowerStmt tables place stmt) fun final id =>
      final.arena.Eventually fun reader =>
        reader.stmt id = some ((tables.glossary final).stmt place.file stmt) := by
  cases stmt with
  | define targets values at? =>
      unfold lowerStmt
      refine (renders_lowerExprs place targets known inside).bind
        (yields_lowerExprs place targets known inside) fun left first grows leftIn => ?_
      have knownHere : Within first tables := Located.mono grows known
      have insideHere : Within first place := Located.mono grows inside
      refine (renders_lowerExprs place values knownHere insideHere).bind
        (yields_lowerExprs place values knownHere insideHere) fun right second grows₂ rightIn => ?_
      refine (renders_exprLists left right (Reader.stmtNode_assign .define)).imp
        fun final id shown rightRead leftRead => ?_
      rw [Glossary.stmt]
      exact shown _ _ leftRead rightRead
  | assign targets values at? =>
      unfold lowerStmt
      refine (renders_lowerExprs place targets known inside).bind
        (yields_lowerExprs place targets known inside) fun left first grows leftIn => ?_
      have knownHere : Within first tables := Located.mono grows known
      have insideHere : Within first place := Located.mono grows inside
      refine (renders_lowerExprs place values knownHere insideHere).bind
        (yields_lowerExprs place values knownHere insideHere) fun right second grows₂ rightIn => ?_
      refine (renders_exprLists left right (Reader.stmtNode_assign .assign)).imp
        fun final id shown rightRead leftRead => ?_
      rw [Glossary.stmt]
      exact shown _ _ leftRead rightRead
  | var names values at? =>
      unfold lowerStmt
      refine (renders_lowerExprs place names known inside).bind
        (yields_lowerExprs place names known inside) fun left first grows leftIn => ?_
      have knownHere : Within first tables := Located.mono grows known
      have insideHere : Within first place := Located.mono grows inside
      refine (renders_lowerExprs place values knownHere insideHere).bind
        (yields_lowerExprs place values knownHere insideHere) fun right second grows₂ rightIn => ?_
      refine (renders_exprLists left right Reader.stmtNode_varDecl).imp
        fun final id shown rightRead leftRead => ?_
      rw [Glossary.stmt]
      exact shown _ _ leftRead rightRead
  | ret results at? =>
      unfold lowerStmt
      refine (renders_lowerExprs place results known inside).bind
        (yields_lowerExprs place results known inside) fun ids first grows idsIn => ?_
      refine renders_build fun builder _ _ =>
        ⟨(builder.leadsTo_exprList ids).trans (TreeBuilder.leadsTo_stmt ..),
          fun final _ kept resultsRead => ?_⟩
      rw [Glossary.stmt]
      have listed := kept.arena.exprLists (builder.exprList?_exprList ids)
      exact eventually_stmt kept ((eventually_exprs listed resultsRead).imp fun _ read =>
        Reader.stmtNode_ret read)
  | expr value at? =>
      unfold lowerStmt
      refine (renders_lowerExpr place value known inside).bind
        (yields_lowerExpr place value known inside) fun id first grows idIn => ?_
      refine renders_build fun builder _ _ =>
        ⟨builder.leadsTo_stmt .., fun final _ kept valueRead => ?_⟩
      rw [Glossary.stmt]
      exact eventually_stmt kept (valueRead.imp fun _ read => Reader.stmtNode_expr read)
  | block body at? =>
      unfold lowerStmt
      refine (renders_lowerStmts place body known inside).bind
        (yields_lowerStmts place body known inside) fun ids first grows idsIn => ?_
      refine (renders_block ids _).imp fun final id blockRead bodyRead => ?_
      rw [Glossary.stmt]
      exact blockRead _ bodyRead
  | cond init test body otherwise at? =>
      unfold lowerStmt
      refine (renders_lowerOption place init known inside).bind
        (yields_lowerOption place init known inside) fun initId first grows initIn => ?_
      have known₁ : Within first tables := Located.mono grows known
      have inside₁ : Within first place := Located.mono grows inside
      refine (renders_lowerExpr place test known₁ inside₁).bind
        (yields_lowerExpr place test known₁ inside₁) fun testId second grows₂ testIn => ?_
      have known₂ : Within second tables := Located.mono grows₂ known₁
      have inside₂ : Within second place := Located.mono grows₂ inside₁
      refine (renders_lowerStmts place body known₂ inside₂).bind
        (yields_lowerStmts place body known₂ inside₂) fun ids third grows₃ idsIn => ?_
      have known₃ : Within third tables := Located.mono grows₃ known₂
      have inside₃ : Within third place := Located.mono grows₃ inside₂
      refine (renders_lowerOption place otherwise known₃ inside₃).bind
        (yields_lowerOption place otherwise known₃ inside₃)
        fun otherwiseId fourth grows₄ otherwiseIn => ?_
      refine renders_build fun builder _ _ =>
        ⟨builder.leadsTo_stmtsBelow ids (.cond initId testId · otherwiseId) _,
          fun final _ kept otherwiseRead bodyRead testRead initRead => ?_⟩
      rw [Glossary.stmt]
      have listed := kept.arena.stmtLists (builder.stmtList?_stmtList ids)
      have below := eventually_stmts listed bodyRead
      exact eventually_stmt kept ((initRead.and (testRead.and (below.and otherwiseRead))).imp
        fun _ ⟨init, test, body, otherwise⟩ => Reader.stmtNode_cond init test body otherwise)
  | loop init body at? =>
      unfold lowerStmt
      refine (renders_lowerOption place init known inside).bind
        (yields_lowerOption place init known inside) fun initId first grows initIn => ?_
      have knownHere : Within first tables := Located.mono grows known
      have insideHere : Within first place := Located.mono grows inside
      refine (renders_lowerStmts place body knownHere insideHere).bind
        (yields_lowerStmts place body knownHere insideHere) fun ids second grows₂ idsIn => ?_
      refine renders_build fun builder _ _ =>
        ⟨builder.leadsTo_stmtsBelow ids .., fun final _ kept bodyRead initRead => ?_⟩
      rw [Glossary.stmt]
      have listed := kept.arena.stmtLists (builder.stmtList?_stmtList ids)
      exact eventually_stmt kept ((initRead.and (eventually_stmts listed bodyRead)).imp
        fun _ read => Reader.stmtNode_loop read.1 read.2)
  | switch init tag cases at? =>
      unfold lowerStmt
      refine (renders_lowerOption place init known inside).bind
        (yields_lowerOption place init known inside) fun initId first grows initIn => ?_
      have known₁ : Within first tables := Located.mono grows known
      have inside₁ : Within first place := Located.mono grows inside
      refine (renders_lowerTag place tag known₁ inside₁).bind
        (yields_lowerTag place tag known₁ inside₁) fun tagId second grows₂ tagIn => ?_
      have known₂ : Within second tables := Located.mono grows₂ known₁
      have inside₂ : Within second place := Located.mono grows₂ inside₁
      refine (renders_lowerCases place cases known₂ inside₂).bind
        (yields_lowerCases place cases known₂ inside₂) fun ids third grows₃ idsIn => ?_
      refine renders_build fun builder _ _ =>
        ⟨builder.leadsTo_stmtsBelow ids .., fun final _ kept casesRead tagRead initRead => ?_⟩
      rw [Glossary.stmt]
      have listed := kept.arena.stmtLists (builder.stmtList?_stmtList ids)
      have below := eventually_stmts listed casesRead
      exact eventually_stmt kept ((initRead.and (tagRead.and below)).imp
        fun _ ⟨init, tag, cases⟩ => Reader.stmtNode_switch init tag cases)

theorem renders_lowerStmts (place : Place) (stmts : List Stmt) {base : Extent}
    (known : Within base tables) (inside : Within base place) :
    Renders tables base (lowerStmts tables place stmts) fun final ids =>
      final.arena.Eventually fun reader =>
        ids.mapM reader.stmt = some ((tables.glossary final).stmts place.file stmts) := by
  cases stmts with
  | nil =>
      unfold lowerStmts
      exact renders_pure fun _ => Arena.eventually_of_forall fun _ => by
        rw [Glossary.stmts]
        rfl
  | cons stmt rest =>
      unfold lowerStmts
      refine (renders_lowerStmt place stmt known inside).bind
        (yields_lowerStmt place stmt known inside) fun id first grows idIn => ?_
      refine (renders_lowerStmts place rest (Located.mono grows known)
        (Located.mono grows inside)).map fun final ids restRead stmtRead => ?_
      rw [Glossary.stmts]
      exact (stmtRead.and restRead).imp fun _ read => mapM_cons_of_some read.1 read.2

theorem renders_lowerOption (place : Place) (stmt : Option Stmt) {base : Extent}
    (known : Within base tables) (inside : Within base place) :
    Renders tables base (lowerOption tables place stmt) fun final id =>
      final.arena.Eventually fun reader =>
        id.mapM reader.stmt = some ((tables.glossary final).option place.file stmt) := by
  cases stmt with
  | none =>
      unfold lowerOption
      exact renders_pure fun _ => Arena.eventually_of_forall fun _ => by
        rw [Glossary.option]
        rfl
  | some stmt =>
      unfold lowerOption
      refine (renders_lowerStmt place stmt known inside).map fun final id stmtRead => ?_
      rw [Glossary.option]
      exact stmtRead.imp fun _ read => optionMapM_of_some read

theorem renders_lowerCases (place : Place) (cases : List (List Stmt)) {base : Extent}
    (known : Within base tables) (inside : Within base place) :
    Renders tables base (lowerCases tables place cases) fun final ids =>
      final.arena.Eventually fun reader =>
        ids.mapM reader.stmt = some ((tables.glossary final).cases place.file cases) := by
  cases cases with
  | nil =>
      unfold lowerCases
      exact renders_pure fun _ => Arena.eventually_of_forall fun _ => by
        rw [Glossary.cases]
        rfl
  | cons body rest =>
      unfold lowerCases
      refine (renders_lowerStmts place body known inside).bind
        (yields_lowerStmts place body known inside) fun ids first grows idsIn => ?_
      refine Renders.bind (renders_block ids .dummy) (yields_build fun builder grounded further =>
        grounded.block (Located.mono further idsIn) _) fun id second grows₂ idIn => ?_
      have grown := grows.trans grows₂
      refine (renders_lowerCases place rest (Located.mono grown known)
        (Located.mono grown inside)).map fun final ids restRead blockRead bodyRead => ?_
      rw [Glossary.cases]
      exact ((blockRead _ bodyRead).and restRead).imp fun _ read =>
        mapM_cons_of_some read.1 read.2

theorem renders_lowerFunction (place : Place) (declared : Bool) (function : Function)
    {base : Extent} (known : Within base tables) (inside : Within base place) :
    Renders tables base (lowerFunction tables place declared function) fun final id =>
      final.arena.Eventually fun reader =>
        reader.function id =
          some ((tables.glossary final).function place.file declared function) := by
  cases function with
  | mk signature body =>
      cases body with
      | none =>
          unfold lowerFunction lowerBody
          refine (renders_lowerSignature known declared signature).map
            fun final result ⟨_, info, found, noBody, signs⟩ => ?_
          rw [Glossary.function, Glossary.body, signs none]
          refine Arena.Eventually.function (Arena.eventually_of_forall fun below => ?_) found
          exact Reader.functionNode_of_body (by rw [noBody]; rfl)
      | some body =>
          exact renders_withBody known inside declared signature
            fun within _ knownHere insideHere =>
              renders_lowerStmts within body knownHere insideHere

end

end ErrorWrapping.Dump
