import ErrorWrapping.Proofs.Programs

/-
The parents of functions.

A function is added before its body, with the function whose body is being lowered as its parent.
Every root that is made meanwhile belongs to that function and becomes a part of its body later.
So in a lowered unit a parent is always the next function on the way up.
-/

namespace ErrorWrapping

namespace Arena

/-- The parent that a function names, if it names one; nothing without such a function. -/
def parent? (arena : Arena) (func : FuncId) : Option (Option FuncId) :=
  (arena.function? func).map (·.parent)

/-- The function that what is directly below a node belongs to. -/
def ownerBelow (owner : Option FuncId) : NodeRef → Option FuncId
  | .literal func => some func
  | _ => owner

/-- At and below the node every function names the function around it as its parent. Around the
node itself that is the owner. -/
inductive Nests (arena : Arena) : Option FuncId → NodeRef → Prop
  | mk {owner : Option FuncId} {ref : NodeRef} {children : List NodeRef}
      (parent : ∀ func, ref = .literal func → arena.parent? func = some owner)
      (known : arena.children? ref = some children)
      (inner : ∀ child ∈ children, Nests arena (ownerBelow owner ref) child) :
      Nests arena owner ref

variable {arena after : Arena} {owner : Option FuncId} {ref : NodeRef}

theorem Nests.child {children : List NodeRef} (nests : arena.Nests owner ref)
    (known : arena.children? ref = some children) :
    ∀ child ∈ children, arena.Nests (ownerBelow owner ref) child := by
  obtain ⟨_, known', inner⟩ := nests
  cases known.symm.trans known'
  exact inner

theorem Nests.parent? {func : FuncId} (nests : arena.Nests owner (.literal func)) :
    arena.parent? func = some owner := by
  obtain ⟨parent, _, _⟩ := nests
  exact parent func rfl

theorem Extends.parent? (grown : arena.Extends after) {func : FuncId}
    (known : arena.parent? func = some owner) : after.parent? func = some owner := by
  obtain ⟨function, found, rfl⟩ := Option.map_eq_some_iff.mp known
  exact Option.map_eq_some_iff.mpr ⟨function, grown.functions found, rfl⟩

/-- Parents stay as they are while what can be reached keeps its children. -/
theorem Nests.kept (nests : arena.Nests owner ref)
    (kept : ∀ node, Relation.ReflTransGen (arena.Step .whole) ref node →
      ∀ below, arena.children? node = some below → after.children? node = some below)
    (parents : ∀ {func owner}, arena.parent? func = some owner → after.parent? func = some owner) :
    after.Nests owner ref := by
  induction nests with
  | mk parent known _ ih =>
      refine .mk (fun func same => parents (parent func same)) (kept _ .refl _ known) ?_
      intro child inChildren
      refine ih child inChildren fun node path => kept node (.head ?_ path)
      exact ⟨_, known, inChildren, Reach.enters_whole child⟩

theorem forall₂_nests_kept {owners : List (Option FuncId)} {roots : List NodeRef}
    (nests : List.Forall₂ arena.Nests owners roots)
    (kept : ∀ node, arena.Met .whole roots node → ∀ below, arena.children? node = some below →
      after.children? node = some below)
    (parents : ∀ {func owner}, arena.parent? func = some owner → after.parent? func = some owner) :
    List.Forall₂ after.Nests owners roots := by
  induction nests with
  | nil => exact .nil
  | cons first _ ih =>
      refine .cons (first.kept (fun node path => ?_) parents) (ih fun node met => ?_)
      · exact kept node ⟨_, List.mem_cons_self .., Reach.enters_whole _, path⟩
      · obtain ⟨root, isRoot, reached⟩ := met
        exact kept node ⟨root, List.mem_cons_of_mem _ isRoot, reached⟩

/-- No root leads to a function whose body is still to come. -/
theorem Forest.not_met_of_opened {growth : Growth} (forest : arena.Forest growth) {func : FuncId}
    (isOpened : func ∈ growth.opened) : ¬ arena.Met .whole growth.roots (.literal func) := by
  rintro ⟨root, isRoot, reached⟩
  obtain ⟨height, _, ⟨lists, collected, rfl⟩, apart⟩ := forest.exists_lists
  obtain ⟨list, inLists, walked⟩ := mem_of_forall₂_left (mapM_eq_some_iff.mp collected) isRoot
  have inList := (mem_walkWithin_iff walked).mpr reached
  exact apart func isOpened (List.mem_flatten_of_mem inLists inList)

/-! ### Building keeps parents -/

/-- A forest whose roots belong to their owners; each open function names the next one. -/
structure Parented (arena : Arena) (growth : OwnedGrowth) : Prop where
  forest : arena.Forest growth.toGrowth
  nests : List.Forall₂ arena.Nests growth.owners growth.roots
  opened : ∀ {func : FuncId} {outer : List FuncId}, func :: outer <:+ growth.opened →
    arena.parent? func = some outer.head?

variable {growth : OwnedGrowth} {children : List NodeRef}

/-- Whatever could be looked up has the same children and the same parent. -/
theorem Parented.extends (parented : arena.Parented growth) (grown : arena.Extends after) :
    List.Forall₂ after.Nests growth.owners growth.roots :=
  forall₂_nests_kept parented.nests (fun _ _ _ => grown.children?) grown.parent?

/-- A node above the last roots belongs where they do. -/
theorem Parented.grow (parented : arena.Parented (growth.add children))
    (grown : arena.Extends after) (noLiteral : ∀ func, ref ≠ .literal func)
    (known : after.children? ref = some children)
    (forest : after.Forest (growth.toGrowth.add [ref])) : after.Parented (growth.add [ref]) := by
  obtain ⟨earlier, inner⟩ := forall₂_append_const (parented.extends grown)
  have nests : after.Nests growth.owner ref := by
    refine .mk (fun func same => absurd same (noLiteral func)) known ?_
    cases ref with
    | literal func => exact absurd rfl (noLiteral func)
    | _ => exact inner
  exact ⟨forest, List.rel_append earlier (.cons nests .nil),
    fun isSuffix => grown.parent? (parented.opened isSuffix)⟩

theorem Parented.addExpr {expr : Expr} (parented : arena.Parented (growth.add children))
    (known : arena.exprChildren? expr.kind = some children) :
    (arena.addExpr expr).2.Parented (growth.add [.expr (arena.addExpr expr).1]) := by
  have grown := extends_addExpr arena expr
  refine parented.grow grown (by simp) ?_ (parented.forest.addExpr known)
  exact Option.bind_eq_some_iff.mpr ⟨expr, expr?_addExpr arena expr, grown.exprChildren? known⟩

theorem Parented.addStmt {stmt : Stmt} (parented : arena.Parented (growth.add children))
    (known : arena.stmtChildren? stmt.kind = some children) :
    (arena.addStmt stmt).2.Parented (growth.add [.stmt (arena.addStmt stmt).1]) := by
  have grown := extends_addStmt arena stmt
  refine parented.grow grown (by simp) ?_ (parented.forest.addStmt known)
  exact Option.bind_eq_some_iff.mpr ⟨stmt, stmt?_addStmt arena stmt, grown.stmtChildren? known⟩

theorem Parented.addFunction {function : Function} (parented : arena.Parented growth)
    (noBody : function.body = none) (parent : function.parent = growth.owner)
    {named : List FuncId} (kept : ∀ func ∈ growth.named, func ∈ named)
    (added : function.symbol ≠ none → (arena.addFunction function).1 ∈ named) :
    (arena.addFunction function).2.Parented
      { growth.openUp (arena.addFunction function).1 with named } := by
  have grown := extends_addFunction arena function
  refine ⟨parented.forest.addFunction noBody kept added, parented.extends grown, ?_⟩
  intro func outer isSuffix
  rcases List.suffix_cons_iff.mp isSuffix with same | earlier
  · obtain ⟨rfl, rfl⟩ := List.cons.inj same
    exact Option.map_eq_some_iff.mpr ⟨function, Array.getElem?_push_size, parent⟩
  · exact grown.parent? (parented.opened earlier)

/-- A function that gets its children takes the roots that belong to it. -/
theorem Parented.settle {func : FuncId}
    (parented : arena.Parented ((growth.openUp func).add children))
    (known : after.children? (.literal func) = some children)
    (kept : ∀ ref, ref ≠ .literal func → ∀ below, arena.children? ref = some below →
      after.children? ref = some below)
    (parents : ∀ {func owner}, arena.parent? func = some owner → after.parent? func = some owner)
    (forest : after.Forest (growth.toGrowth.add [.literal func])) :
    after.Parented (growth.add [.literal func]) := by
  have apart := parented.forest.not_met_of_opened (List.mem_cons_self ..)
  have nests := forall₂_nests_kept parented.nests
    (fun node met => kept node fun same => apart (same ▸ met)) parents
  obtain ⟨earlier, inner⟩ := forall₂_append_const nests
  have literal : after.Nests growth.owner (.literal func) := by
    refine .mk (fun other same => ?_) known inner
    cases same
    exact parents (parented.opened (List.suffix_refl (func :: growth.opened)))
  refine ⟨forest, List.rel_append earlier (.cons literal .nil), ?_⟩
  exact fun isSuffix => parents (parented.opened (isSuffix.trans (List.suffix_cons func _)))

theorem Parented.withoutBody {func : FuncId} (parented : arena.Parented (growth.openUp func)) :
    arena.Parented (growth.add [.literal func]) := by
  obtain ⟨function, found, noBody⟩ := parented.forest.opened func (List.mem_cons_self ..)
  have forest := parented.forest.withoutBody
  rw [← OwnedGrowth.add_nil (growth.openUp func)] at parented
  refine parented.settle ?_ (fun _ _ _ known => known) (fun known => known) forest
  exact Option.bind_eq_some_iff.mpr ⟨function, found, by rw [bodyRefs?, noBody]⟩

theorem parent?_of_body {func other : FuncId} {function : Function} {body : Option IdRange}
    (found : arena.function? func = some function)
    (functions : after.functions = arena.functions.setIfInBounds func.index { function with body })
    (known : arena.parent? other = some owner) : after.parent? other = some owner := by
  obtain ⟨info, foundOther, rfl⟩ := Option.map_eq_some_iff.mp known
  by_cases same : func.index = other.index
  · obtain rfl : func = other := congrArg FuncId.mk same
    cases found.symm.trans foundOther
    refine Option.map_eq_some_iff.mpr ⟨{ function with body }, ?_, rfl⟩
    rw [function?, functions]
    exact Array.getElem?_setIfInBounds_self_of_lt (Array.getElem?_eq_some_iff.mp found).1
  · refine Option.map_eq_some_iff.mpr ⟨info, ?_, rfl⟩
    rw [function?, functions]
    exact (Array.getElem?_setIfInBounds_ne same).trans foundOther

theorem Parented.setBody? {func : FuncId} {body : List StmtId}
    (parented : arena.Parented ((growth.openUp func).add (body.map .stmt))) :
    ∃ after, arena.setBody? func body = some after ∧
      after.Parented (growth.add [.literal func]) := by
  obtain ⟨function, found, _⟩ := parented.forest.opened func (List.mem_cons_self ..)
  obtain ⟨after, set, known, kept, _, _, functions⟩ := exists_setBody? found body
  obtain ⟨after', set', forest⟩ := parented.forest.setBody?
  cases set.symm.trans set'
  exact ⟨after, set, parented.settle known kept (parent?_of_body found functions) forest⟩

theorem growing_parented : Growing Parented where
  extend parented grown exprs stmts functions :=
    ⟨parented.forest.extend grown exprs stmts functions, parented.extends grown,
      fun isSuffix => grown.parent? (parented.opened isSuffix)⟩
  addExpr := Parented.addExpr
  addStmt := Parented.addStmt
  addFunction := Parented.addFunction
  withoutBody := Parented.withoutBody
  setBody? := Parented.setBody?

end Arena

/-! ### Lowered units -/

/-- Every function of the unit names the function around it as its parent. -/
def Package.Nests (unit : Package) : Prop :=
  ∀ root ∈ unit.decls.map .literal ++ unit.globalRefs, unit.arena.Nests none root

namespace Dump

theorem nests_lowerUnit (tables : Tables) (id : UnitId) (unit : UnitEntry) (names : TypeNames)
    (warnings : List Warning) :
    ((lowerUnit tables id unit).run ⟨names, .empty, warnings⟩).1.Nests := by
  have start : Arena.empty.Parented (.settled [] []) :=
    ⟨Arena.forest_empty, .nil, fun isSuffix => by simp [OwnedGrowth.settled] at isSuffix⟩
  have parented := holds_lowerUnit Arena.growing_parented start tables id unit names warnings
  intro root isRoot
  obtain ⟨_, isNone, nests⟩ := mem_of_forall₂_right parented.nests isRoot
  obtain ⟨_, _, rfl⟩ := List.mem_map.mp isNone
  exact nests

theorem nests_of_lower {dump : Dump} {program : Program} {warnings : List Warning}
    (accepted : dump.lower = .ok (program, warnings)) :
    ∀ unit ∈ program.units, unit.Nests := by
  rw [← toProgram_of_lower accepted]
  exact forall_units_toProgram nests_lowerUnit dump

end Dump

end ErrorWrapping
