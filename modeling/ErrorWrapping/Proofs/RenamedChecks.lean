import ErrorWrapping.Proofs.RenamedUnits

/-
Units analysed under other numbers.

The analysis of a unit looks at types only through their outlines and compares symbols only with
each other. So a unit and its double under other numbers have the same definitions and returns, the
same escapes up to the numbers of symbols, and functions that are taken up in the same order.
-/

namespace ErrorWrapping

/-! ### Data with symbols in it -/

def CallTarget.rename (rename : SymbolId → SymbolId) (target : CallTarget) : CallTarget :=
  { target with symbol := target.symbol.map rename }

def Escape.rename (rename : SymbolId → SymbolId) (escape : Escape) : Escape :=
  { escape with target := escape.target.map (·.rename rename) }

def Subject.rename (rename : SymbolId → SymbolId) (subject : Subject) : Subject :=
  { subject with
    symbol := subject.symbol.map rename
    escapes := subject.escapes.map (·.rename rename) }

/-! ### Walks -/

section

variable {α β γ δ : Type} {R : α → β → Prop} {x : Option α} {y : Option β}

theorem bind_of_rel (rel : Option.Rel R x y) {f : α → Option γ} {g : β → Option δ} {h : γ → δ}
    (same : ∀ a b, R a b → g b = (f a).map h) : y.bind g = (x.bind f).map h := by
  cases rel with
  | none => rfl
  | some related => exact same _ _ related

theorem bind_eq_of_rel (rel : Option.Rel R x y) {f : α → Option γ} {g : β → Option γ}
    (same : ∀ a b, R a b → g b = f a) : y.bind g = x.bind f := by
  cases rel with
  | none => rfl
  | some related => exact same _ _ related

theorem isSome_of_rel (rel : Option.Rel R x y) : y.isSome = x.isSome := by
  cases rel <;> rfl

theorem mapM_map {xs : List α} {f : α → Option γ} {g : α → Option δ} {h : γ → δ}
    (same : ∀ a ∈ xs, g a = (f a).map h) : xs.mapM g = (xs.mapM f).map (List.map h) := by
  induction xs with
  | nil => rfl
  | cons a rest ih =>
      obtain ⟨here, later⟩ := List.forall_mem_cons.mp same
      rw [List.mapM_cons, List.mapM_cons, here, ih later]
      cases f a with
      | none => rfl
      | some c => cases rest.mapM f <;> rfl

theorem flatten_mapM_map {xs : List α} {f : α → Option (List γ)} {g : α → Option (List δ)}
    {h : γ → δ} (same : ∀ a ∈ xs, g a = (f a).map (List.map h)) :
    (do return (← xs.mapM g).flatten) =
      Option.map (List.map h) (do return (← xs.mapM f).flatten) := by
  rw [mapM_map same]
  cases xs.mapM f with
  | none => rfl
  | some found => exact congrArg some List.map_flatten.symm

end

namespace Arena.Renames

variable {rename : SymbolId → SymbolId} {left right : TypeTable} {arena other : Arena}
  (renames : arena.Renames rename left right other)

include renames

theorem expr? (id : ExprId) :
    Option.Rel (Expr.Renames rename left right) (arena.expr? id) (other.expr? id) :=
  rel_getElem? renames.exprs id.index

theorem function? (id : FuncId) :
    Option.Rel (Function.Renames rename left right) (arena.function? id) (other.function? id) :=
  rel_getElem? renames.functions id.index

theorem stmt? (id : StmtId) : other.stmt? id = arena.stmt? id := by
  rw [Arena.stmt?, renames.stmts]
  rfl

theorem isSome_var? (id : VarId) : (other.var? id).isSome = (arena.var? id).isSome :=
  isSome_of_rel (rel_getElem? renames.vars id.index)

theorem exprList? (range : IdRange) : other.exprList? range = arena.exprList? range := by
  rw [Arena.exprList?, renames.exprLists]
  rfl

theorem stmtRefs? (range : IdRange) : other.stmtRefs? range = arena.stmtRefs? range := by
  rw [Arena.stmtRefs?, Arena.stmtList?, renames.stmtLists]
  rfl

theorem exprRefs? (range : IdRange) : other.exprRefs? range = arena.exprRefs? range := by
  rw [Arena.exprRefs?, renames.exprList? range]
  rfl

theorem bodyRefs? {function function' : Function}
    (same : function.Renames rename left right function') :
    other.bodyRefs? function' = arena.bodyRefs? function := by
  unfold Arena.bodyRefs?
  rw [same.body]
  cases function.body with
  | none => rfl
  | some range => exact renames.stmtRefs? range

theorem exprChildren? (kind : ExprKind) :
    other.exprChildren? (kind.rename rename) = arena.exprChildren? kind := by
  cases kind with
  | call callee args => exact congrArg (Option.map _) (renames.exprRefs? args)
  | other operands => exact renames.exprRefs? operands
  | _ => rfl

theorem stmtChildren? (kind : StmtKind) : other.stmtChildren? kind = arena.stmtChildren? kind := by
  cases kind <;> simp only [Arena.stmtChildren?, renames.exprRefs?, renames.stmtRefs?]

/-- Every node has the same children. -/
theorem children? (ref : NodeRef) : other.children? ref = arena.children? ref := by
  cases ref with
  | expr id =>
      refine bind_eq_of_rel (renames.expr? id) fun expr expr' same => ?_
      rw [same.kind]
      exact renames.exprChildren? expr.kind
  | stmt id =>
      rw [Arena.children?, renames.stmt? id]
      exact congrArg _ (funext fun stmt => renames.stmtChildren? stmt.kind)
  | literal id =>
      exact bind_eq_of_rel (renames.function? id) fun function function' same =>
        renames.bodyRefs? same

theorem height : other.height = arena.height := by
  rw [Arena.height, renames.stmts, size_eq_of_forall₂ renames.exprs,
    size_eq_of_forall₂ renames.functions]
  rfl

theorem walkWithin (reach : Reach) (height : Nat) (ref : NodeRef) :
    other.walkWithin reach height ref = arena.walkWithin reach height ref := by
  induction height generalizing ref with
  | zero => rfl
  | succ height ih =>
      unfold Arena.walkWithin
      rw [renames.children? ref, funext ih]

theorem walk (reach : Reach) (refs : List NodeRef) :
    other.walk reach refs = arena.walk reach refs := by
  rw [Arena.walk, renames.height, funext (renames.walkWithin reach arena.height)]
  rfl

end Arena.Renames

namespace Package.Renames

variable {rename : SymbolId → SymbolId} {left right : TypeTable} {unit other : Package}
  (renames : unit.Renames rename left right other)

include renames

theorem allNodes? : other.allNodes? = unit.allNodes? := by
  have bodies : other.bodyNodes? = unit.bodyNodes? := by
    funext decl
    refine bind_eq_of_rel (renames.arena.function? decl) fun function function' same => ?_
    rw [renames.arena.bodyRefs? same]
    exact congrArg _ (funext fun refs => renames.arena.walk .whole refs)
  have globals : other.globalNodes? = unit.globalNodes? := by
    rw [Package.globalNodes?, Package.globalRefs, renames.globals, renames.arena.walk]
    rfl
  rw [Package.allNodes?, Package.allNodes?, renames.decls, bodies, globals]

end Package.Renames

/-- One unit seen within two programs, under different numbers. -/
structure UnitView.Renames (rename : SymbolId → SymbolId) (view other : UnitView) : Prop where
  unit : view.unit.Renames rename view.types other.types other.unit
  symbols : view.symbols.Renames rename view.types other.types other.symbols

namespace UnitView.Renames

variable {rename : SymbolId → SymbolId} {view other : UnitView}
  (renames : view.Renames rename other)

include renames

theorem arena : view.arena.Renames rename view.types other.types other.arena :=
  renames.unit.arena

/-! ### Expressions -/

section

variable {expr expr' : Expr} (same : expr.Renames rename view.types other.types expr')

include same

omit renames in
theorem isErrorExpr : other.isErrorExpr expr' = view.isErrorExpr expr := same.type.isError

omit renames in
theorem holdsError : other.holdsError expr' = view.holdsError expr := by
  rw [UnitView.holdsError, same.type.errorPositions]
  rfl

theorem varOf? : other.varOf? expr' = view.varOf? expr := by
  unfold UnitView.varOf?
  rw [same.kind]
  cases expr.kind with
  | ident name binding =>
      cases binding with
      | var id =>
          dsimp only [ExprKind.rename, Binding.rename]
          rw [renames.arena.isSome_var? id]
      | _ => rfl
  | _ => rfl

theorem namedSymbol? :
    other.namedSymbol? expr' = (view.namedSymbol? expr).map (·.map rename) := by
  unfold UnitView.namedSymbol?
  rw [same.kind]
  cases expr.kind with
  | call callee args =>
      refine bind_of_rel (renames.arena.expr? callee) fun target target' also => ?_
      rw [also.kind]
      cases target.kind with
      | ident name binding => cases binding <;> rfl
      | _ => rfl
  | _ => rfl

theorem calleeSymbol? :
    other.calleeSymbol? expr' = (view.calleeSymbol? expr).map (·.map rename) := by
  unfold UnitView.calleeSymbol?
  rw [renames.namedSymbol? same]
  cases view.namedSymbol? expr with
  | none => rfl
  | some named =>
      cases named with
      | none => rfl
      | some symbol =>
          have known := isSome_of_rel (renames.symbols symbol)
          simp only [Option.map_some, Option.bind_eq_bind, Option.bind_some, Option.pure_def,
            Option.filter_some, known]
          split <;> rfl

theorem receiverIsInterface? :
    other.receiverIsInterface? expr' = view.receiverIsInterface? expr := by
  unfold UnitView.receiverIsInterface?
  rw [same.kind]
  cases expr.kind with
  | call callee args =>
      refine bind_eq_of_rel (renames.arena.expr? callee) fun target target' also => ?_
      rw [also.kind]
      cases target.kind with
      | selector base field symbol =>
          refine bind_eq_of_rel (renames.arena.expr? base) fun receiver receiver' again => ?_
          rw [again.kind]
          cases receiver.kind with
          | ident name binding =>
              cases binding with
              | package path => rfl
              | _ => exact congrArg some again.type.isInterface
          | _ => exact congrArg some again.type.isInterface
      | _ => rfl
  | _ => rfl

theorem target? : other.target? expr' = (view.target? expr).map (·.rename rename) := by
  unfold UnitView.target?
  rw [renames.calleeSymbol? same, renames.receiverIsInterface? same]
  cases view.calleeSymbol? expr with
  | none => rfl
  | some symbol => cases view.receiverIsInterface? expr <;> rfl

end

/-! ### Definitions and escapes -/

theorem definition? (span : Span) (targets values : List ExprId) (target : ExprId × Nat) :
    other.definition? span targets values target =
      view.definition? span targets values target := by
  refine bind_eq_of_rel (renames.arena.expr? target.1) fun node node' same => ?_
  rw [isErrorExpr same, renames.varOf? same]
  cases if view.isErrorExpr node then view.varOf? node else none with
  | none => rfl
  | some var =>
      cases valueFor? targets values target.2 with
      | none => rfl
      | some value =>
          refine bind_eq_of_rel (renames.arena.expr? value) fun call call' also => ?_
          rw [also.kind]
          cases call.kind <;> rfl

theorem definitionsAt? (node : NodeRef) : other.definitionsAt? node = view.definitionsAt? node := by
  cases node with
  | stmt id =>
      have same : ∀ span targets values, other.definition? span targets values =
          view.definition? span targets values :=
        fun span targets values => funext (renames.definition? span targets values)
      simp only [UnitView.definitionsAt?, renames.arena.stmt?, renames.arena.exprList?, same]
  | _ => rfl

theorem definitionIndex? (nodes : List NodeRef) :
    other.definitionIndex? nodes = view.definitionIndex? nodes := by
  rw [UnitView.definitionIndex?, funext renames.definitionsAt?]
  rfl

theorem returns? {function function' : Function}
    (same : function.Renames rename view.types other.types function') :
    other.returns? function' = view.returns? function := by
  unfold UnitView.returns?
  rw [renames.arena.bodyRefs? same]
  simp only [renames.arena.walk, renames.arena.stmt?, renames.arena.exprList?]

omit renames in
theorem errorShape {function function' : Function}
    (same : function.Renames rename view.types other.types function') :
    ErrorShape.ofFunction other.types function' = ErrorShape.ofFunction view.types function := by
  have positions := TypeTable.positionsFrom_of_forall₂ (same.results.imp
    fun _ _ slot => slot.type.single.isError.symm) 0
  unfold ErrorShape.ofFunction
  rw [← positions, ← same.results.length_eq]

theorem varEscapes? (index : DefinitionIndex) (site : Span) (var : VarId) :
    other.varEscapes? index site var =
      (view.varEscapes? index site var).map (List.map (·.rename rename)) := by
  unfold UnitView.varEscapes?
  cases index.resolve var with
  | nil => rfl
  | cons first rest =>
      refine mapM_map fun definition _ => ?_
      refine bind_of_rel (renames.arena.expr? definition.call) fun call call' same => ?_
      rw [renames.target? same, same.span]
      cases view.target? call <;> rfl

theorem exprEscapes? (index : DefinitionIndex) (site : Span) (id : ExprId) :
    other.exprEscapes? index site id =
      (view.exprEscapes? index site id).map (List.map (·.rename rename)) := by
  refine bind_of_rel (renames.arena.expr? id) fun expr expr' same => ?_
  rw [isErrorExpr same, holdsError same, renames.varOf? same, renames.target? same, same.kind]
  cases expr.kind with
  | call callee args =>
      dsimp only [ExprKind.rename]
      split
      · cases view.target? expr <;> rfl
      · rfl
  | _ =>
      dsimp only [ExprKind.rename]
      split
      · cases view.varOf? expr with
        | none => rfl
        | some var => exact renames.varEscapes? index site var
      · rfl

theorem bareEscapes? (index : DefinitionIndex) {function function' : Function} (site : Span)
    (same : function.Renames rename view.types other.types function') :
    other.bareEscapes? index function' site =
      (view.bareEscapes? index function site).map (List.map (·.rename rename)) := by
  have slots : ∀ position : Nat, (function'.results[position]?).bind (·.var) =
      (function.results[position]?).bind (·.var) := fun position =>
    bind_eq_of_rel (rel_of_forall₂ same.results position) fun slot slot' also => also.var
  unfold UnitView.bareEscapes?
  rw [errorShape same]
  refine flatten_mapM_map fun position _ => ?_
  rw [slots position]
  cases (function.results[position]?).bind (·.var) with
  | none => rfl
  | some var => exact renames.varEscapes? index site var

theorem escapes? (index : DefinitionIndex) {function function' : Function}
    (same : function.Renames rename view.types other.types function') :
    other.escapes? index function' =
      (view.escapes? index function).map (List.map (·.rename rename)) := by
  unfold UnitView.escapes?
  rw [renames.returns? same]
  cases view.returns? function with
  | none => rfl
  | some returns =>
      refine flatten_mapM_map fun entry _ => ?_
      dsimp only
      split
      · exact renames.bareEscapes? index entry.1 same
      · exact flatten_mapM_map fun id _ => renames.exprEscapes? index entry.1 id

/-! ### The workload -/

theorem declOrder? (decl : FuncId) : other.declOrder? decl = view.declOrder? decl := by
  refine bind_eq_of_rel (renames.arena.function? decl) fun function function' same => ?_
  rw [renames.arena.bodyRefs? same, same.name]
  simp only [renames.arena.walk]

theorem functionOrder? : other.functionOrder? = view.functionOrder? := by
  unfold UnitView.functionOrder? Package.globalRefs
  rw [renames.unit.decls, renames.unit.globals, renames.arena.walk, funext renames.declOrder?]

theorem subject? (index : DefinitionIndex) (entry : FuncId × String) :
    other.subject? index entry = (view.subject? index entry).map (·.rename rename) := by
  refine bind_of_rel (renames.arena.function? entry.1) fun function function' same => ?_
  rw [errorShape same, renames.escapes? index same, same.symbol, same.span]
  cases (ErrorShape.ofFunction view.types function).hasError with
  | false => rfl
  | true => cases view.escapes? index function <;> rfl

end UnitView.Renames

end ErrorWrapping
