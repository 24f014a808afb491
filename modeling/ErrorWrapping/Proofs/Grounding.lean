import ErrorWrapping.Proofs.Extents
import ErrorWrapping.Proofs.Lowering

/-
Lowering stays within its tables.

Whatever a dump refers to, lowering refers only to entries that are there: a reference that names
nothing is left out or becomes the invalid type. A look-up made while a tree is built finds what
it looks for, since the parts of a node are lowered before the node.
-/

namespace ErrorWrapping

namespace TreeBuilder

variable {builder : TreeBuilder} {symbols : Nat} {table : SymbolTable}

/-! ### Expressions from their parts -/

theorem Grounded.varRef (grounded : builder.Grounded symbols) {var : VarId}
    (inside : Within (builder.extent symbols) var) (span : Span) :
    builder.Adds symbols (builder.varRef var span) := by
  unfold TreeBuilder.varRef
  split
  · rename_i info found
    exact grounded.expr inside (grounded.arena.vars var info found) span
  · exact grounded.expr inside grounded.invalid_within span

theorem Grounded.funcType (grounded : builder.Grounded symbols) {results : List TypeId}
    (inside : Within (builder.extent symbols) results) :
    builder.Adds symbols (builder.funcType results) := by
  have entered : builder.types.Enters (builder.types.enter (.func [] results)) :=
    grounded.types.enter inside
  exact grounded.withTypes entered

theorem Grounded.symbolType (grounded : builder.Grounded symbols)
    (typed : table.Typed builder.types) (symbol : SymbolId) :
    builder.Adds symbols (builder.symbolType table symbol).2 := by
  unfold TreeBuilder.symbolType
  split
  · rename_i info found
    exact grounded.funcType (typed symbol info found)
  · exact grounded.funcType fun _ impossible => by cases impossible

theorem Grounded.funcRef (grounded : builder.Grounded symbols)
    (typed : table.Typed builder.types) {symbol : SymbolId}
    (inside : Within (builder.extent symbols) symbol) (span : Span) :
    builder.Adds symbols (builder.funcRef table symbol span) := by
  have entered := grounded.symbolType typed symbol
  have kind : Within ((builder.symbolType table symbol).2.2.extent symbols)
      (ExprKind.ident (builder.symbolType table symbol).1 (.func symbol)) :=
    Located.mono entered.grows inside
  exact (entered.grounded.expr kind entered.within span).after entered.grows

theorem Grounded.select (grounded : builder.Grounded symbols)
    (typed : table.Typed builder.types) {base : ExprId} {symbol : SymbolId}
    (inside : Within (builder.extent symbols) base)
    (named : Within (builder.extent symbols) symbol) (span : Span) :
    builder.Adds symbols (builder.select table base symbol span) := by
  have entered := grounded.symbolType typed symbol
  have kind : Within ((builder.symbolType table symbol).2.2.extent symbols)
      (ExprKind.selector base (builder.symbolType table symbol).1 (some symbol)) := by
    refine ⟨Located.mono entered.grows inside, fun other member => ?_⟩
    cases member
    exact Located.mono entered.grows named
  exact (entered.grounded.expr kind entered.within span).after entered.grows

theorem Grounded.field (grounded : builder.Grounded symbols) {base : ExprId} {type : TypeId}
    (inside : Within (builder.extent symbols) base)
    (typed : Within (builder.extent symbols) type) (name : String) (span : Span) :
    builder.Adds symbols (builder.field base name type span) := by
  have kind : Within (builder.extent symbols) (ExprKind.selector base name none) :=
    ⟨inside, fun _ impossible => by cases impossible⟩
  exact grounded.expr kind typed span

theorem Grounded.callTyped (grounded : builder.Grounded symbols) {callee : ExprId}
    {args : List ExprId} {type : TypeId} (inside : Within (builder.extent symbols) callee)
    (argsInside : Within (builder.extent symbols) args)
    (typed : Within (builder.extent symbols) type) (span : Span) :
    builder.Adds symbols (builder.callTyped callee args type span) := by
  obtain ⟨listed, grows, bound⟩ := grounded.exprList argsInside
  have kind : Within ((builder.exprList args).2.extent symbols)
      (ExprKind.call callee (builder.exprList args).1) := ⟨Located.mono grows inside, bound⟩
  exact (listed.expr kind (Located.mono grows typed) span).after grows

theorem Grounded.calledResults? (grounded : builder.Grounded symbols)
    (typed : table.Typed builder.types) {callee : Expr} {results : List TypeId}
    (inside : Within (builder.extent symbols) callee.type)
    (found : calledResults? builder.types table callee = some results) :
    Within (builder.extent symbols) results := by
  unfold TreeBuilder.calledResults? at found
  split at found
  · rename_i info known
    cases found
    obtain ⟨symbol, _, known⟩ := Option.bind_eq_some_iff.mp known
    exact typed symbol info known
  · split at found
    · rename_i known
      cases found
      intro result member
      have earlier := grounded.types.earlier _ _ known result (List.mem_append_right _ member)
      exact Nat.lt_trans earlier inside
    · cases found

/-- The function called has been lowered before the call. -/
theorem Grounded.call? (grounded : builder.Grounded symbols)
    (typed : table.Typed builder.types) {callee : ExprId} {args : List ExprId}
    (inside : Within (builder.extent symbols) callee)
    (argsInside : Within (builder.extent symbols) args) (span : Span) :
    ∃ result, builder.call? table callee args span = some result ∧
      builder.Adds symbols result := by
  have found : builder.arena.expr? callee = some builder.arena.exprs[callee.index] :=
    Array.getElem?_eq_getElem inside
  refine ⟨_, Option.bind_eq_some_iff.mpr ⟨_, found, rfl⟩, ?_⟩
  split
  · rename_i results known
    have typeInside := (grounded.arena.exprs callee _ found).2
    have entered := grounded.withTypes
      (grounded.types.resultsType (grounded.calledResults? typed typeInside known))
    exact (entered.grounded.callTyped (Located.mono entered.grows inside)
      (Located.mono entered.grows argsInside) entered.within span).after entered.grows
  · exact grounded.callTyped inside argsInside grounded.invalid_within span

theorem Grounded.other (grounded : builder.Grounded symbols) {operands : List ExprId}
    {type : TypeId} (inside : Within (builder.extent symbols) operands)
    (typed : Within (builder.extent symbols) type) (span : Span) :
    builder.Adds symbols (builder.other operands type span) := by
  obtain ⟨listed, grows, bound⟩ := grounded.exprList inside
  have kind : Within ((builder.exprList operands).2.extent symbols)
      (ExprKind.other (builder.exprList operands).1) := bound
  exact (listed.expr kind (Located.mono grows typed) span).after grows

/-- The function of a literal has been lowered before the literal. -/
theorem Grounded.funcLit? (grounded : builder.Grounded symbols) {func : FuncId}
    (inside : Within (builder.extent symbols) func) (span : Span) :
    ∃ result, builder.funcLit? func span = some result ∧ builder.Adds symbols result := by
  have found : builder.arena.function? func = some builder.arena.functions[func.index] :=
    Array.getElem?_eq_getElem inside
  refine ⟨_, Option.bind_eq_some_iff.mpr ⟨_, found, rfl⟩, ?_⟩
  have results : Within (builder.extent symbols)
      (builder.arena.functions[func.index].results.map (·.type)) := by
    intro type member
    obtain ⟨slot, isResult, rfl⟩ := List.mem_map.mp member
    exact ((grounded.arena.functions func _ found).results slot isResult).1
  have entered := grounded.funcType results
  have kind : Within ((builder.funcType
      (builder.arena.functions[func.index].results.map (·.type))).2.extent symbols)
      (ExprKind.funcLit func) := Located.mono entered.grows inside
  exact (entered.grounded.expr kind entered.within span).after entered.grows

/-! ### Statements from their parts -/

/-- Two lists of expressions one after the other. -/
theorem Grounded.exprLists (grounded : builder.Grounded symbols) {first second : List ExprId}
    (inside : Within (builder.extent symbols) first)
    (also : Within (builder.extent symbols) second) {kind : IdRange → IdRange → StmtKind}
    (ranges : ∀ {extent : Extent} {left right : IdRange}, left.stop ≤ extent.exprLists →
      right.stop ≤ extent.exprLists → Within extent (kind left right)) (span : Span) :
    builder.Adds symbols
      (((builder.exprList first).2.exprList second).2.stmt
        (kind (builder.exprList first).1 ((builder.exprList first).2.exprList second).1) span) := by
  obtain ⟨listed, grows, bound⟩ := grounded.exprList inside
  obtain ⟨alsoListed, further, alsoBound⟩ := listed.exprList (Located.mono grows also)
  have within := ranges (Nat.le_trans bound further.exprLists) alsoBound
  exact (alsoListed.stmt within span).after (grows.trans further)

theorem Grounded.ret (grounded : builder.Grounded symbols) {results : List ExprId}
    (inside : Within (builder.extent symbols) results) (span : Span) :
    builder.Adds symbols (builder.ret results span) := by
  obtain ⟨listed, grows, bound⟩ := grounded.exprList inside
  have kind : Within ((builder.exprList results).2.extent symbols)
      (StmtKind.ret (builder.exprList results).1) := bound
  exact (listed.stmt kind span).after grows

theorem Grounded.block (grounded : builder.Grounded symbols) {body : List StmtId}
    (inside : Within (builder.extent symbols) body) (span : Span) :
    builder.Adds symbols (builder.block body span) := by
  obtain ⟨listed, grows, bound⟩ := grounded.stmtList inside
  have kind : Within ((builder.stmtList body).2.extent symbols)
      (StmtKind.block (builder.stmtList body).1) := bound
  exact (listed.stmt kind span).after grows

theorem Grounded.cond (grounded : builder.Grounded symbols) {init : Option StmtId}
    {test : ExprId} {body : List StmtId} {otherwise : Option StmtId}
    (initInside : Within (builder.extent symbols) init)
    (testInside : Within (builder.extent symbols) test)
    (bodyInside : Within (builder.extent symbols) body)
    (otherwiseInside : Within (builder.extent symbols) otherwise) (span : Span) :
    builder.Adds symbols (builder.cond init test body otherwise span) := by
  obtain ⟨listed, grows, bound⟩ := grounded.stmtList bodyInside
  have kind : Within ((builder.stmtList body).2.extent symbols)
      (StmtKind.cond init test (builder.stmtList body).1 otherwise) :=
    ⟨Located.mono grows initInside, Located.mono grows testInside, bound,
      Located.mono grows otherwiseInside⟩
  exact (listed.stmt kind span).after grows

theorem Grounded.loop (grounded : builder.Grounded symbols) {init : Option StmtId}
    {body : List StmtId} (initInside : Within (builder.extent symbols) init)
    (bodyInside : Within (builder.extent symbols) body) (span : Span) :
    builder.Adds symbols (builder.loop init body span) := by
  obtain ⟨listed, grows, bound⟩ := grounded.stmtList bodyInside
  have kind : Within ((builder.stmtList body).2.extent symbols)
      (StmtKind.loop init (builder.stmtList body).1) := ⟨Located.mono grows initInside, bound⟩
  exact (listed.stmt kind span).after grows

theorem Grounded.switch (grounded : builder.Grounded symbols) {init : Option StmtId}
    {tag : Option ExprId} {cases : List StmtId}
    (initInside : Within (builder.extent symbols) init)
    (tagInside : Within (builder.extent symbols) tag)
    (casesInside : Within (builder.extent symbols) cases) (span : Span) :
    builder.Adds symbols (builder.switch init tag cases span) := by
  obtain ⟨listed, grows, bound⟩ := grounded.stmtList casesInside
  have kind : Within ((builder.stmtList cases).2.extent symbols)
      (StmtKind.switch init tag (builder.stmtList cases).1) :=
    ⟨Located.mono grows initInside, Located.mono grows tagInside, bound⟩
  exact (listed.stmt kind span).after grows

/-- The function has been lowered before its body. -/
theorem Grounded.setBody? (grounded : builder.Grounded symbols) {func : FuncId}
    {body : List StmtId} (inside : Within (builder.extent symbols) func)
    (bodyInside : Within (builder.extent symbols) body) :
    ∃ result, builder.setBody? func body = some result ∧ builder.Adds symbols ((), result) := by
  obtain ⟨arena, set, settled, grows⟩ := grounded.arena.setBody? inside bodyInside
  exact ⟨{ builder with arena }, Option.map_eq_some_iff.mpr ⟨arena, set, rfl⟩,
    ⟨grounded.types, settled⟩, grows, trivial⟩

end TreeBuilder

namespace Dump

/-! ### Actions -/

/-- Every key and identifier of the tables stands for an entry, and symbols are typed. -/
structure Tables.Refers (extent : Extent) (tables : Tables) : Prop where
  symbolIds : ∀ (key : String) (id : SymbolId), tables.symbolIds[key]? = some id →
    Within extent id
  varIds : ∀ (name : String) (id : VarId), tables.varIds[name]? = some id → Within extent id
  results : ∀ (id : SymbolId) (symbol : Symbol), tables.symbols.get? id = some symbol →
    Within extent symbol.results

instance : Located Tables where
  Within := Tables.Refers
  mono grows known :=
    { symbolIds := fun key id found => Located.mono grows (known.symbolIds key id found)
      varIds := fun name id found => Located.mono grows (known.varIds name id found)
      results := fun id symbol found => Located.mono grows (known.results id symbol found) }

instance : Located Place where
  Within extent place := Within extent place.parent
  mono grows within value member := Located.mono grows (within value member)

instance : Located (Std.HashMap String VarId) where
  Within extent ids := ∀ (name : String) (id : VarId), ids[name]? = some id → Within extent id
  mono grows within name id found := Located.mono grows (within name id found)

namespace Lowering

def extent (state : Lowering) (symbols : Nat) : Extent :=
  state.arena.extent symbols state.names.types.size

structure Grounded (state : Lowering) (symbols : Nat) : Prop where
  names : state.names.Ordered
  arena : state.arena.Grounded symbols state.names.types.size

structure Adds {α : Type} [Located α] (state : Lowering) (symbols : Nat)
    (result : α × Lowering) : Prop where
  grounded : result.2.Grounded symbols
  grows : (state.extent symbols).Grows (result.2.extent symbols)
  within : Within (result.2.extent symbols) result.1

end Lowering

/-- An action that keeps a state grounded once the tables have reached an extent, and gives
something that is there. -/
def Yields {α : Type} [Located α] (symbols : Nat) (base : Extent) (action : LowerM α) : Prop :=
  ∀ state : Lowering, state.Grounded symbols → base.Grows (state.extent symbols) →
    state.Adds symbols (action.run state)

section

variable {α β : Type} [Located α] [Located β] {symbols : Nat} {base : Extent}

theorem yields_pure {result : α} (within : Within base result) :
    Yields symbols base (pure result : LowerM α) :=
  fun _ grounded grows => ⟨grounded, .refl _, Located.mono grows within⟩

theorem Yields.bind {action : LowerM α} {next : α → LowerM β}
    (first : Yields symbols base action)
    (later : ∀ result further, base.Grows further → Within further result →
      Yields symbols further (next result)) : Yields symbols base (action >>= next) := by
  intro state grounded grows
  have one := first state grounded grows
  have two := later _ _ (grows.trans one.grows) one.within _ one.grounded (.refl _)
  exact ⟨two.grounded, one.grows.trans two.grows, two.within⟩

theorem yields_build {step : TreeBuilder → α × TreeBuilder}
    (adds : ∀ builder : TreeBuilder, builder.Grounded symbols →
      base.Grows (builder.extent symbols) → builder.Adds symbols (step builder)) :
    Yields symbols base (build step) := by
  intro state grounded grows
  have added := adds ⟨state.names.types, state.arena⟩ ⟨grounded.names.types, grounded.arena⟩ grows
  refine ⟨⟨?_, added.grounded.arena⟩, added.grows, added.within⟩
  exact grounded.names.withTypes added.grounded.types added.grows.types

end

variable {symbols : Nat} {base : Extent} {tables : Tables} {place : Place}

theorem yields_warn (warning : Warning) : Yields symbols base (warn warning) :=
  fun _ grounded _ => ⟨⟨grounded.names, grounded.arena⟩, .refl _, trivial⟩

theorem yields_lowerType (tables : Tables) (spelling : String) :
    Yields symbols base (lowerType tables spelling) := by
  intro state grounded _
  have enters := enters_resolve tables.decls [] spelling grounded.names
  exact ⟨⟨enters.ordered, grounded.arena.mono enters.grows⟩,
    { Extent.Grows.refl (state.extent symbols) with types := enters.grows }, enters.present⟩

theorem yields_invalid : Yields symbols base (pure TypeId.invalid : LowerM TypeId) :=
  fun _ grounded _ => ⟨grounded, .refl _, grounded.names.types.invalid_lt⟩

theorem yields_lowerType? (tables : Tables) (spelling : Option String) :
    Yields symbols base (lowerType? tables spelling) := by
  cases spelling with
  | none => exact yields_invalid
  | some spelling => exact yields_lowerType tables spelling

theorem yields_findSymbol (known : Within base tables) (key : String) :
    Yields symbols base (findSymbol tables key) := by
  unfold findSymbol
  split
  · rename_i id found
    refine yields_pure fun other member => ?_
    cases member
    exact known.symbolIds key id found
  · exact (yields_warn _).bind fun _ _ _ _ => yields_pure fun _ impossible => by cases impossible

theorem yields_findVar (known : Within base tables) (id : String) :
    Yields symbols base (findVar tables id) := by
  unfold findVar
  split
  · rename_i var found
    refine yields_pure fun other member => ?_
    cases member
    exact known.varIds id var found
  · exact (yields_warn _).bind fun _ _ _ _ => yields_pure fun _ impossible => by cases impossible

theorem yields_findVars (known : Within base tables) (ids : List String) :
    Yields symbols base (findVars tables ids) := by
  induction ids generalizing base with
  | nil => exact yields_pure fun _ impossible => by cases impossible
  | cons id rest ih =>
      refine (yields_findVar known id).bind fun var first grows varIn => ?_
      refine (ih (Located.mono grows known)).bind fun vars second further varsIn => ?_
      refine yields_pure fun other member => ?_
      rcases List.mem_append.mp member with isFirst | later
      · exact Located.mono further (varIn other (Option.mem_toList.mp isFirst))
      · exact varsIn other later

theorem yields_lowerResults (known : Within base tables) (results : List ResultEntry) :
    Yields symbols base (lowerResults tables results) := by
  induction results generalizing base with
  | nil => exact yields_pure fun _ impossible => by cases impossible
  | cons entry rest ih =>
      refine (yields_lowerType tables entry.type).bind fun type first grows typeIn => ?_
      have later : ∀ (var : Option VarId) (second : Extent), first.Grows second →
          Within second var → Yields symbols second (do
            let slots ← lowerResults tables rest
            return (⟨type, var⟩ :: slots : List ResultSlot)) := by
        intro var second further varIn
        refine (ih (Located.mono (grows.trans further) known)).bind
          fun slots third more slotsIn => ?_
        refine yields_pure fun slot member => ?_
        rcases List.mem_cons.mp member with rfl | inRest
        · exact ⟨Located.mono (further.trans more) typeIn, Located.mono more varIn⟩
        · exact slotsIn slot inRest
      cases entry.var with
      | none => exact later none first (.refl _) fun _ impossible => by cases impossible
      | some id => exact (yields_findVar (Located.mono grows known) id).bind later

theorem yields_fileWithin (tables : Tables) (place : Place) (path : Option String) :
    Yields symbols base (fileWithin tables place path) := by
  have trivially : ∀ file : Option FileId, Within base file := fun _ _ _ => trivial
  cases path with
  | none => exact yields_pure (trivially _)
  | some path =>
      simp only [fileWithin]
      split
      · exact yields_pure (trivially _)
      · exact (yields_warn _).bind fun _ _ _ _ => yields_pure fun _ _ => trivial

theorem yields_lowerSignature (known : Within base tables) (inside : Within base place)
    (declared : Bool) (signature : Signature) :
    Yields symbols base (lowerSignature tables place declared signature) := by
  unfold lowerSignature
  refine (yields_fileWithin tables place signature.file).bind fun file first grows _ => ?_
  have later : ∀ (symbol : Option SymbolId) (second : Extent), first.Grows second →
      Within second symbol → Yields symbols second (do
        let params ← findVars tables signature.params
        let results ← lowerResults tables signature.results
        let span := spanOf tables { place with file } signature.at?
        let id ← build (·.function
          { name := signature.name, symbol, parent := place.parent, params, results, body := none,
            span })
        return (id, (⟨file, some id⟩ : Place))) := by
    intro symbol second grows₂ symbolIn
    have grown := grows.trans grows₂
    refine (yields_findVars (Located.mono grown known) _).bind
      fun params third grows₃ paramsIn => ?_
    refine (yields_lowerResults (Located.mono (grown.trans grows₃) known) _).bind
      fun results fourth grows₄ resultsIn => ?_
    have since := grows₃.trans grows₄
    refine Yields.bind (yields_build fun builder grounded further => grounded.function
      { symbol := Located.mono (since.trans further) symbolIn
        parent := Located.mono ((grown.trans since).trans further) inside
        params := Located.mono (grows₄.trans further) paramsIn
        results := Located.mono further resultsIn
        body := fun _ impossible => by cases impossible }) fun id _ _ idIn => ?_
    refine yields_pure ⟨idIn, fun other member => ?_⟩
    cases member
    exact idIn
  cases declared with
  | true => exact (yields_findSymbol (Located.mono grows known) _).bind later
  | false => exact later none first (.refl _) fun _ impossible => by cases impossible

theorem yields_setBody {func : FuncId} {body : List StmtId} (inside : Within base func)
    (bodyInside : Within base body) : Yields symbols base (setBody func body) := by
  refine yields_build fun builder grounded grows => ?_
  obtain ⟨result, set, adds⟩ :=
    grounded.setBody? (Located.mono grows inside) (Located.mono grows bodyInside)
  rw [set]
  exact adds

/-! ### Trees -/

theorem Tables.Refers.typed {extent : Extent} {types : TypeTable} (known : Within extent tables)
    (enough : extent.types ≤ types.size) : tables.symbols.Typed types :=
  fun id symbol found result member =>
    Nat.lt_of_lt_of_le (known.results id symbol found result member) enough

mutual

-- Each constructor lowers its parts in order; what the first parts gave is still there when the
-- node is built, since tables only grow.

theorem yields_lowerExpr (place : Place) (expr : Expr) {base : Extent} (known : Within base tables)
    (inside : Within base place) : Yields symbols base (lowerExpr tables place expr) := by
  cases expr with
  | var id at? =>
      unfold lowerExpr
      refine (yields_findVar known id).bind fun found first grows foundIn => ?_
      cases found with
      | none =>
          refine yields_build fun builder grounded _ => grounded.expr ?_ grounded.invalid_within _
          trivial
      | some var =>
          exact yields_build fun builder grounded further =>
            grounded.varRef (Located.mono further (foundIn var rfl)) _
  | blank at? =>
      unfold lowerExpr
      refine yields_build fun builder grounded _ => grounded.expr ?_ grounded.invalid_within _
      trivial
  | func key at? =>
      unfold lowerExpr
      refine (yields_findSymbol known key).bind fun found first grows foundIn => ?_
      cases found with
      | none =>
          refine yields_build fun builder grounded _ => grounded.expr ?_ grounded.invalid_within _
          trivial
      | some symbol =>
          exact yields_build fun builder grounded further =>
            grounded.funcRef (Tables.Refers.typed known (grows.trans further).types)
              (Located.mono further (foundIn symbol rfl)) _
  | package path at? =>
      unfold lowerExpr
      refine yields_build fun builder grounded _ => grounded.expr ?_ grounded.invalid_within _
      trivial
  | select expr key at? =>
      unfold lowerExpr
      refine (yields_lowerExpr place expr known inside).bind fun id first grows idIn => ?_
      refine (yields_findSymbol (Located.mono grows known) key).bind
        fun found second grows₂ foundIn => ?_
      cases found with
      | none =>
          exact yields_build fun builder grounded further =>
            grounded.field (Located.mono (grows₂.trans further) idIn) grounded.invalid_within _ _
      | some symbol =>
          exact yields_build fun builder grounded further =>
            grounded.select (Tables.Refers.typed known ((grows.trans grows₂).trans further).types)
              (Located.mono (grows₂.trans further) idIn)
              (Located.mono further (foundIn symbol rfl)) _
  | field expr name type at? =>
      unfold lowerExpr
      refine (yields_lowerExpr place expr known inside).bind fun id first grows idIn => ?_
      refine (yields_lowerType? tables type).bind fun type second grows₂ typeIn => ?_
      exact yields_build fun builder grounded further =>
        grounded.field (Located.mono (grows₂.trans further) idIn) (Located.mono further typeIn) _ _
  | call callee args type at? =>
      unfold lowerExpr
      refine (yields_lowerExpr place callee known inside).bind fun callee first grows calleeIn => ?_
      refine (yields_lowerExprs place args (Located.mono grows known)
        (Located.mono grows inside)).bind fun args second grows₂ argsIn => ?_
      cases type with
      | none =>
          refine yields_build fun builder grounded further => ?_
          obtain ⟨result, called, adds⟩ := grounded.call?
            (Tables.Refers.typed known ((grows.trans grows₂).trans further).types)
            (Located.mono (grows₂.trans further) calleeIn) (Located.mono further argsIn)
            (spanOf tables place at?)
          rw [called]
          exact adds
      | some type =>
          refine (yields_lowerType tables type).bind fun type third grows₃ typeIn => ?_
          exact yields_build fun builder grounded further => grounded.callTyped
            (Located.mono ((grows₂.trans grows₃).trans further) calleeIn)
            (Located.mono (grows₃.trans further) argsIn) (Located.mono further typeIn) _
  | nil at? =>
      unfold lowerExpr
      refine yields_build fun builder grounded _ => grounded.expr ?_ grounded.invalid_within _
      trivial
  | literal type at? =>
      unfold lowerExpr
      refine (yields_lowerType? tables type).bind fun type first grows typeIn => ?_
      refine yields_build fun builder grounded further =>
        grounded.expr ?_ (Located.mono further typeIn) _
      trivial
  | funcLit function at? =>
      unfold lowerExpr
      refine (yields_lowerFunction place false function known inside).bind
        fun func first grows funcIn => ?_
      refine yields_build fun builder grounded further => ?_
      obtain ⟨result, made, adds⟩ :=
        grounded.funcLit? (Located.mono further funcIn) (spanOf tables place at?)
      rw [made]
      exact adds
  | other operands type at? =>
      unfold lowerExpr
      refine (yields_lowerExprs place operands known inside).bind
        fun operands first grows operandsIn => ?_
      refine (yields_lowerType? tables type).bind fun type second grows₂ typeIn => ?_
      exact yields_build fun builder grounded further => grounded.other
        (Located.mono (grows₂.trans further) operandsIn) (Located.mono further typeIn) _

theorem yields_lowerExprs (place : Place) (exprs : List Expr) {base : Extent}
    (known : Within base tables) (inside : Within base place) :
    Yields symbols base (lowerExprs tables place exprs) := by
  cases exprs with
  | nil =>
      unfold lowerExprs
      exact yields_pure fun _ impossible => by cases impossible
  | cons expr rest =>
      unfold lowerExprs
      refine (yields_lowerExpr place expr known inside).bind fun id first grows idIn => ?_
      refine (yields_lowerExprs place rest (Located.mono grows known)
        (Located.mono grows inside)).bind fun ids second grows₂ idsIn => ?_
      exact yields_pure (within_cons (Located.mono grows₂ idIn) idsIn)

theorem yields_lowerTag (place : Place) (tag : Option Expr) {base : Extent}
    (known : Within base tables) (inside : Within base place) :
    Yields symbols base (lowerTag tables place tag) := by
  cases tag with
  | none =>
      unfold lowerTag
      exact yields_pure fun _ impossible => by cases impossible
  | some expr =>
      unfold lowerTag
      refine (yields_lowerExpr place expr known inside).bind fun id first grows idIn => ?_
      exact yields_pure (within_some idIn)

theorem yields_lowerStmt (place : Place) (stmt : Stmt) {base : Extent} (known : Within base tables)
    (inside : Within base place) : Yields symbols base (lowerStmt tables place stmt) := by
  cases stmt with
  | define targets values at? =>
      unfold lowerStmt
      refine (yields_lowerExprs place targets known inside).bind
        fun targets first grows targetsIn => ?_
      refine (yields_lowerExprs place values (Located.mono grows known)
        (Located.mono grows inside)).bind fun values second grows₂ valuesIn => ?_
      exact yields_build fun builder grounded further => grounded.exprLists
        (Located.mono (grows₂.trans further) targetsIn) (Located.mono further valuesIn)
        And.intro _
  | assign targets values at? =>
      unfold lowerStmt
      refine (yields_lowerExprs place targets known inside).bind
        fun targets first grows targetsIn => ?_
      refine (yields_lowerExprs place values (Located.mono grows known)
        (Located.mono grows inside)).bind fun values second grows₂ valuesIn => ?_
      exact yields_build fun builder grounded further => grounded.exprLists
        (Located.mono (grows₂.trans further) targetsIn) (Located.mono further valuesIn)
        And.intro _
  | var names values at? =>
      unfold lowerStmt
      refine (yields_lowerExprs place names known inside).bind fun names first grows namesIn => ?_
      refine (yields_lowerExprs place values (Located.mono grows known)
        (Located.mono grows inside)).bind fun values second grows₂ valuesIn => ?_
      exact yields_build fun builder grounded further => grounded.exprLists
        (Located.mono (grows₂.trans further) namesIn) (Located.mono further valuesIn)
        And.intro _
  | ret results at? =>
      unfold lowerStmt
      refine (yields_lowerExprs place results known inside).bind
        fun results first grows resultsIn => ?_
      exact yields_build fun builder grounded further =>
        grounded.ret (Located.mono further resultsIn) _
  | expr expr at? =>
      unfold lowerStmt
      refine (yields_lowerExpr place expr known inside).bind fun expr first grows exprIn => ?_
      refine yields_build fun builder grounded further => ?_
      have kind : Within (builder.extent symbols) (StmtKind.expr expr) :=
        Located.mono further exprIn
      exact grounded.stmt kind _
  | block body at? =>
      unfold lowerStmt
      refine (yields_lowerStmts place body known inside).bind fun body first grows bodyIn => ?_
      exact yields_build fun builder grounded further =>
        grounded.block (Located.mono further bodyIn) _
  | cond init test body otherwise at? =>
      unfold lowerStmt
      refine (yields_lowerOption place init known inside).bind fun init first grows initIn => ?_
      refine (yields_lowerExpr place test (Located.mono grows known)
        (Located.mono grows inside)).bind fun test second grows₂ testIn => ?_
      have grown := grows.trans grows₂
      refine (yields_lowerStmts place body (Located.mono grown known)
        (Located.mono grown inside)).bind fun body third grows₃ bodyIn => ?_
      have taller := grown.trans grows₃
      refine (yields_lowerOption place otherwise (Located.mono taller known)
        (Located.mono taller inside)).bind fun otherwise fourth grows₄ otherwiseIn => ?_
      exact yields_build fun builder grounded further => grounded.cond
        (Located.mono ((grows₂.trans (grows₃.trans grows₄)).trans further) initIn)
        (Located.mono ((grows₃.trans grows₄).trans further) testIn)
        (Located.mono (grows₄.trans further) bodyIn) (Located.mono further otherwiseIn) _
  | loop init body at? =>
      unfold lowerStmt
      refine (yields_lowerOption place init known inside).bind fun init first grows initIn => ?_
      refine (yields_lowerStmts place body (Located.mono grows known)
        (Located.mono grows inside)).bind fun body second grows₂ bodyIn => ?_
      exact yields_build fun builder grounded further => grounded.loop
        (Located.mono (grows₂.trans further) initIn) (Located.mono further bodyIn) _
  | switch init tag cases at? =>
      unfold lowerStmt
      refine (yields_lowerOption place init known inside).bind fun init first grows initIn => ?_
      refine (yields_lowerTag place tag (Located.mono grows known) (Located.mono grows inside)).bind
        fun tag second grows₂ tagIn => ?_
      have grown := grows.trans grows₂
      refine (yields_lowerCases place cases (Located.mono grown known)
        (Located.mono grown inside)).bind fun cases third grows₃ casesIn => ?_
      exact yields_build fun builder grounded further => grounded.switch
        (Located.mono ((grows₂.trans grows₃).trans further) initIn)
        (Located.mono (grows₃.trans further) tagIn) (Located.mono further casesIn) _

theorem yields_lowerStmts (place : Place) (stmts : List Stmt) {base : Extent}
    (known : Within base tables) (inside : Within base place) :
    Yields symbols base (lowerStmts tables place stmts) := by
  cases stmts with
  | nil =>
      unfold lowerStmts
      exact yields_pure fun _ impossible => by cases impossible
  | cons stmt rest =>
      unfold lowerStmts
      refine (yields_lowerStmt place stmt known inside).bind fun id first grows idIn => ?_
      refine (yields_lowerStmts place rest (Located.mono grows known)
        (Located.mono grows inside)).bind fun ids second grows₂ idsIn => ?_
      exact yields_pure (within_cons (Located.mono grows₂ idIn) idsIn)

theorem yields_lowerOption (place : Place) (stmt : Option Stmt) {base : Extent}
    (known : Within base tables) (inside : Within base place) :
    Yields symbols base (lowerOption tables place stmt) := by
  cases stmt with
  | none =>
      unfold lowerOption
      exact yields_pure fun _ impossible => by cases impossible
  | some stmt =>
      unfold lowerOption
      refine (yields_lowerStmt place stmt known inside).bind fun id first grows idIn => ?_
      exact yields_pure (within_some idIn)

theorem yields_lowerCases (place : Place) (cases : List (List Stmt)) {base : Extent}
    (known : Within base tables) (inside : Within base place) :
    Yields symbols base (lowerCases tables place cases) := by
  cases cases with
  | nil =>
      unfold lowerCases
      exact yields_pure fun _ impossible => by cases impossible
  | cons body rest =>
      unfold lowerCases
      refine (yields_lowerStmts place body known inside).bind fun body first grows bodyIn => ?_
      refine Yields.bind (yields_build fun builder grounded further =>
        grounded.block (Located.mono further bodyIn) _) fun id second grows₂ idIn => ?_
      have grown := grows.trans grows₂
      refine (yields_lowerCases place rest (Located.mono grown known)
        (Located.mono grown inside)).bind fun ids third grows₃ idsIn => ?_
      exact yields_pure (within_cons (Located.mono grows₃ idIn) idsIn)

theorem yields_lowerBody (place : Place) (func : FuncId) (body : Option (List Stmt)) {base : Extent}
    (known : Within base tables) (inside : Within base place) (funcIn : Within base func) :
    Yields symbols base (lowerBody tables place func body) := by
  cases body with
  | none =>
      unfold lowerBody
      exact yields_pure trivial
  | some body =>
      unfold lowerBody
      refine (yields_lowerStmts place body known inside).bind fun body first grows bodyIn => ?_
      exact yields_setBody (Located.mono grows funcIn) bodyIn

theorem yields_lowerFunction (place : Place) (declared : Bool) (function : Function) {base : Extent}
    (known : Within base tables) (inside : Within base place) :
    Yields symbols base (lowerFunction tables place declared function) := by
  cases function with
  | mk signature body =>
      unfold lowerFunction
      refine (yields_lowerSignature known inside declared signature).bind
        fun result first grows resultIn => ?_
      refine (yields_lowerBody result.2 result.1 body (Located.mono grows known) resultIn.2
        resultIn.1).bind fun _ second grows₂ _ => ?_
      exact yields_pure (Located.mono grows₂ resultIn.1)

end

/-! ### Units -/

theorem yields_unitFiles (fileIds : Std.HashMap String FileId) (unit : String)
    (paths : List String) : Yields symbols base (unitFiles fileIds unit paths) := by
  induction paths generalizing base with
  | nil => exact yields_pure fun _ impossible => by cases impossible
  | cons path rest ih =>
      unfold unitFiles
      split
      · exact ih.bind fun files _ _ _ => yields_pure fun _ _ => trivial
      · exact (yields_warn _).bind fun _ _ _ _ => ih

theorem yields_lowerVars (place : Place) (vars : List VarEntry) {base : Extent}
    (known : Within base tables) : Yields symbols base (lowerVars tables place vars) := by
  induction vars generalizing tables base with
  | nil => exact yields_pure known.varIds
  | cons entry rest ih =>
      unfold lowerVars
      refine (yields_lowerType tables entry.type).bind fun type first grows typeIn => ?_
      refine Yields.bind (yields_build fun builder grounded further =>
        grounded.var (Located.mono further typeIn)) fun id second grows₂ idIn => ?_
      have kept : Within second tables := Located.mono (grows.trans grows₂) known
      refine ih ⟨kept.symbolIds, fun name var found => ?_, kept.results⟩
      rw [Std.HashMap.getElem?_insert] at found
      split at found
      · cases found
        exact idIn
      · exact kept.varIds name var found

theorem yields_lowerDecls (place : Place) (functions : List Function) {base : Extent}
    (known : Within base tables) (inside : Within base place) :
    Yields symbols base (lowerDecls tables place functions) := by
  induction functions generalizing base with
  | nil => exact yields_pure fun _ impossible => by cases impossible
  | cons function rest ih =>
      unfold lowerDecls
      refine (yields_lowerFunction place true function known inside).bind
        fun id first grows idIn => ?_
      refine (ih (Located.mono grows known) (Located.mono grows inside)).bind
        fun ids second grows₂ idsIn => ?_
      exact yields_pure (within_cons (Located.mono grows₂ idIn) idsIn)

end Dump

/-- Everything a unit stores is there. -/
structure Package.Grounded (unit : Package) (symbols types : Nat) : Prop where
  arena : unit.arena.Grounded symbols types
  decls : Within (unit.arena.extent symbols types) unit.decls
  globals : Within (unit.arena.extent symbols types) unit.globals

theorem Package.Grounded.mono {unit : Package} {symbols types more : Nat}
    (grounded : unit.Grounded symbols types) (grows : types ≤ more) :
    unit.Grounded symbols more :=
  ⟨grounded.arena.mono grows, grounded.decls, grounded.globals⟩

/-- Types are made of earlier types, symbols are typed, and units store what is there. -/
structure Program.Grounded (program : Program) : Prop where
  types : program.types.Ordered
  symbols : program.symbols.Typed program.types
  units : ∀ unit ∈ program.units, unit.Grounded program.symbols.size program.types.size

namespace Dump

/-- Keys stand for symbols, which are typed; the unit at hand has no variables yet. -/
structure Tables.Ready (tables : Tables) (types : TypeTable) : Prop where
  symbolIds : ∀ (key : String) (id : SymbolId), tables.symbolIds[key]? = some id →
    id.index < tables.symbols.size
  typed : tables.symbols.Typed types

theorem Tables.Ready.mono {tables : Tables} {before after : TypeTable}
    (ready : tables.Ready before) (grows : before.size ≤ after.size) : tables.Ready after :=
  ⟨ready.symbolIds, fun id symbol found result member =>
    Nat.lt_of_lt_of_le (ready.typed id symbol found result member) grows⟩

theorem grounded_lowerUnit {tables : Tables} {names : TypeNames} (ordered : names.Ordered)
    (ready : tables.Ready names.types) (id : UnitId) (unit : UnitEntry)
    (warnings : List Warning) :
    let result := (lowerUnit tables id unit).run ⟨names, .empty, warnings⟩
    result.1.Grounded tables.symbols.size result.2.names.types.size ∧ result.2.names.Ordered ∧
      names.types.size ≤ result.2.names.types.size := by
  have lowered : ∀ (place : Place) (tables : Tables) (symbols : Nat) (base : Extent),
      Within base tables → Within base place → Yields symbols base (do
        let varIds ← lowerVars tables place unit.vars
        let decls ← lowerDecls { tables with varIds } place unit.functions
        let globals ← lowerStmts { tables with varIds } place unit.globals
        return (decls, globals)) := by
    intro place tables symbols base known inside
    refine (yields_lowerVars place unit.vars known).bind fun varIds first grows varsIn => ?_
    have kept : Within first tables := Located.mono grows known
    have alsoKnown : Within first { tables with varIds } := ⟨kept.symbolIds, varsIn, kept.results⟩
    refine (yields_lowerDecls place unit.functions alsoKnown (Located.mono grows inside)).bind
      fun decls second grows₂ declsIn => ?_
    refine (yields_lowerStmts place unit.globals (Located.mono grows₂ alsoKnown)
      (Located.mono (grows.trans grows₂) inside)).bind fun globals third grows₃ globalsIn => ?_
    exact yields_pure ⟨Located.mono grows₃ declsIn, globalsIn⟩
  have start : Lowering.Grounded ⟨names, .empty, warnings⟩ tables.symbols.size :=
    ⟨ordered, Arena.grounded_empty⟩
  have files := yields_unitFiles tables.fileIds unit.path unit.files _ start (.refl _)
  have known : Within (Lowering.extent ⟨names, .empty, warnings⟩ tables.symbols.size)
      { tables with unit := unit.path, varIds := ∅ } :=
    ⟨ready.symbolIds, fun _ _ found => by simp at found, ready.typed⟩
  have added := lowered
    ⟨((unitFiles tables.fileIds unit.path unit.files).run ⟨names, .empty, warnings⟩).1.head?, none⟩
    _ _ _ (Located.mono files.grows known) (fun _ impossible => by cases impossible) _
    files.grounded (.refl _)
  rw [lowerUnit_eq]
  exact ⟨⟨added.grounded.arena, added.within.1, added.within.2⟩, added.grounded.names,
    Nat.le_trans files.grows.types added.grows.types⟩

/-- Units one after the other; those before stay grounded while types are added. -/
theorem grounded_lowerUnits {tables : Tables} (units : List UnitEntry) {program : Program}
    {names : TypeNames} (warnings : List Warning) (ordered : names.Ordered)
    (ready : tables.Ready names.types) (symbols : program.symbols = tables.symbols)
    (earlier : ∀ unit ∈ program.units, unit.Grounded tables.symbols.size names.types.size) :
    (lowerUnits tables program names warnings units).1.Grounded := by
  induction units generalizing program names warnings with
  | nil =>
      refine ⟨ordered.types, ?_, ?_⟩
      · rw [lowerUnits, symbols]
        exact ready.typed
      · rw [lowerUnits, symbols]
        exact earlier
  | cons entry rest ih =>
      obtain ⟨grounded, orderedAfter, grows⟩ :=
        grounded_lowerUnit ordered ready program.nextUnit entry warnings
      unfold lowerUnits
      refine ih _ orderedAfter (ready.mono grows) symbols fun unit member => ?_
      rcases Array.mem_push.mp member with isEarlier | rfl
      · exact (earlier unit isEarlier).mono grows
      · exact grounded

theorem grounded_toProgram (dump : Dump) : dump.toProgram.1.Grounded := by
  have ordered := ordered_lowerSymbols dump
  refine grounded_lowerUnits dump.units [] ordered.names ⟨ordered.ids, ordered.typed⟩ rfl ?_
  intro unit impossible
  simp at impossible

end Dump

end ErrorWrapping
