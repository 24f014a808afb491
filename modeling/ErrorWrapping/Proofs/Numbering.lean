import ErrorWrapping.Proofs.Programs

/-
The numbers of expressions.

A tree is built from its leaves on, part after part. So the expressions below a node have
consecutive numbers, those of one child before those of the next, and an expression comes right
after all that is below it. This fixes which of two expressions of a unit has the smaller number
by where they stand in its trees.
-/

namespace ErrorWrapping

namespace Arena

/-- The expressions at and below the nodes are numbered in order, from one number up to another
that is not reached: first what is below an expression, then the expression itself. -/
inductive Covers (arena : Arena) : List NodeRef → Nat → Nat → Prop
  | nil (first : Nat) : Covers arena [] first first
  | expr {id : ExprId} {children rest : List NodeRef} {first last : Nat}
      (known : arena.children? (.expr id) = some children)
      (below : Covers arena children first id.index)
      (later : Covers arena rest (id.index + 1) last) :
      Covers arena (.expr id :: rest) first last
  | other {ref : NodeRef} {children rest : List NodeRef} {first middle last : Nat}
      (noExpr : ∀ id, ref ≠ .expr id) (known : arena.children? ref = some children)
      (below : Covers arena children first middle) (later : Covers arena rest middle last) :
      Covers arena (ref :: rest) first last

variable {arena after : Arena} {refs more children : List NodeRef} {ref : NodeRef}
  {first last : Nat}

theorem Covers.le (covers : arena.Covers refs first last) : first ≤ last := by
  induction covers with
  | nil first => exact Nat.le_refl first
  | expr _ _ _ below later => omega
  | other _ _ _ _ below later => omega

theorem covers_append_iff :
    arena.Covers (refs ++ more) first last ↔
      ∃ middle, arena.Covers refs first middle ∧ arena.Covers more middle last := by
  induction refs generalizing first with
  | nil =>
      constructor
      · intro covers
        exact ⟨first, .nil first, covers⟩
      · rintro ⟨middle, nothing, covers⟩
        cases nothing
        exact covers
  | cons ref rest ih =>
      constructor
      · intro covers
        cases covers with
        | expr known below later =>
            obtain ⟨middle, here, there⟩ := ih.mp later
            exact ⟨middle, .expr known below here, there⟩
        | other noExpr known below later =>
            obtain ⟨middle, here, there⟩ := ih.mp later
            exact ⟨middle, .other noExpr known below here, there⟩
      · rintro ⟨middle, covers, there⟩
        cases covers with
        | expr known below later => exact .expr known below (ih.mpr ⟨middle, later, there⟩)
        | other noExpr known below later =>
            exact .other noExpr known below (ih.mpr ⟨middle, later, there⟩)

theorem Lists.cons_cases {height : Nat} {nodes : List NodeRef}
    (listed : arena.Lists height (ref :: refs) nodes) :
    ∃ lower children below later, height = lower + 1 ∧ arena.children? ref = some children ∧
      arena.Lists lower children below ∧ arena.Lists height refs later ∧
      nodes = ref :: (below ++ later) := by
  obtain ⟨lists, collected, rfl⟩ := listed
  cases mapM_eq_some_iff.mp collected with
  | cons walked others =>
      obtain ⟨lower, children, below, same, known, belowCollected, rfl⟩ :=
        walkWithin_eq_some (Reach.enters_whole ref) walked
      exact ⟨lower, children, below.flatten, _, same, known, ⟨below, belowCollected, rfl⟩,
        ⟨_, mapM_eq_some_iff.mpr others, rfl⟩, rfl⟩

/-- Numbers stay as they are while the nodes of the walk keep their children. -/
theorem Covers.kept (covers : arena.Covers refs first last) {height : Nat}
    {nodes : List NodeRef} (listed : arena.Lists height refs nodes)
    (kept : ∀ node ∈ nodes, ∀ below, arena.children? node = some below →
      after.children? node = some below) : after.Covers refs first last := by
  induction covers generalizing height nodes with
  | nil first => exact .nil first
  | expr known _ _ ihBelow ihLater =>
      obtain ⟨lower, children', below, later, _, known', belowListed, laterListed, rfl⟩ :=
        listed.cons_cases
      cases known.symm.trans known'
      simp only [List.forall_mem_cons, List.forall_mem_append] at kept
      exact .expr (kept.1 _ known) (ihBelow belowListed kept.2.1) (ihLater laterListed kept.2.2)
  | other noExpr known _ _ ihBelow ihLater =>
      obtain ⟨lower, children', below, later, _, known', belowListed, laterListed, rfl⟩ :=
        listed.cons_cases
      cases known.symm.trans known'
      simp only [List.forall_mem_cons, List.forall_mem_append] at kept
      exact .other noExpr (kept.1 _ known) (ihBelow belowListed kept.2.1)
        (ihLater laterListed kept.2.2)

/-! ### Building keeps the numbers in order -/

/-- A forest whose expressions are numbered in order. -/
structure Numbered (arena : Arena) (growth : Growth) : Prop where
  forest : arena.Forest growth
  covers : arena.Covers growth.roots 0 arena.exprs.size

variable {growth : Growth}

/-- Whatever could be looked up has the same children and the same numbers. -/
theorem Numbered.extends (numbered : arena.Numbered growth) (grown : arena.Extends after) :
    after.Covers growth.roots 0 arena.exprs.size := by
  obtain ⟨height, nodes, listed, _⟩ := numbered.forest.exists_lists
  exact numbered.covers.kept listed fun _ _ _ => grown.children?

theorem Numbered.addExpr {expr : Expr} (numbered : arena.Numbered (growth.add children))
    (known : arena.exprChildren? expr.kind = some children) :
    (arena.addExpr expr).2.Numbered (growth.add [.expr (arena.addExpr expr).1]) := by
  refine ⟨numbered.forest.addExpr known, ?_⟩
  have grown := extends_addExpr arena expr
  obtain ⟨middle, earlier, below⟩ := covers_append_iff.mp (numbered.extends grown)
  refine covers_append_iff.mpr ⟨middle, earlier, .expr ?_ below ?_⟩
  · exact Option.bind_eq_some_iff.mpr ⟨expr, expr?_addExpr arena expr, grown.exprChildren? known⟩
  · rw [Arena.addExpr, Array.size_push]
    exact .nil _

theorem Numbered.addStmt {stmt : Stmt} (numbered : arena.Numbered (growth.add children))
    (known : arena.stmtChildren? stmt.kind = some children) :
    (arena.addStmt stmt).2.Numbered (growth.add [.stmt (arena.addStmt stmt).1]) := by
  refine ⟨numbered.forest.addStmt known, ?_⟩
  have grown := extends_addStmt arena stmt
  obtain ⟨middle, earlier, below⟩ := covers_append_iff.mp (numbered.extends grown)
  refine covers_append_iff.mpr ⟨middle, earlier, .other (by simp) ?_ below (.nil _)⟩
  exact Option.bind_eq_some_iff.mpr ⟨stmt, stmt?_addStmt arena stmt, grown.stmtChildren? known⟩

/-- A function that gets its children takes the last roots, which keep their numbers. -/
theorem Numbered.settle {func : FuncId}
    (numbered : arena.Numbered ((growth.openUp func).add children))
    (known : after.children? (.literal func) = some children)
    (kept : ∀ ref, ref ≠ .literal func → ∀ below, arena.children? ref = some below →
      after.children? ref = some below) (exprs : after.exprs = arena.exprs) :
    after.Covers (growth.add [.literal func]).roots 0 after.exprs.size := by
  obtain ⟨height, nodes, listed, apart⟩ := numbered.forest.exists_lists
  have covers : after.Covers (growth.roots ++ children) 0 arena.exprs.size := by
    refine numbered.covers.kept listed fun node member => kept node fun same => ?_
    exact apart func (List.mem_cons_self ..) (same ▸ member)
  obtain ⟨middle, earlier, below⟩ := covers_append_iff.mp covers
  rw [exprs]
  exact covers_append_iff.mpr ⟨middle, earlier, .other (by simp) known below (.nil _)⟩

theorem growing_numbered : Growing fun arena growth => arena.Numbered growth.toGrowth where
  extend numbered grown exprs stmts functions := by
    refine ⟨numbered.forest.extend grown exprs stmts functions, ?_⟩
    rw [exprs]
    exact numbered.extends grown
  addExpr := Numbered.addExpr
  addStmt := Numbered.addStmt
  addFunction numbered noBody _ _ kept added :=
    ⟨numbered.forest.addFunction noBody kept added,
      numbered.extends (extends_addFunction _ _)⟩
  withoutBody numbered := by
    obtain ⟨function, found, noBody⟩ := numbered.forest.opened _ (List.mem_cons_self ..)
    refine ⟨numbered.forest.withoutBody, ?_⟩
    rw [← OwnedGrowth.add_nil (OwnedGrowth.openUp _ _)] at numbered
    refine numbered.settle ?_ (fun _ _ _ known => known) rfl
    exact Option.bind_eq_some_iff.mpr ⟨function, found, by rw [bodyRefs?, noBody]⟩
  setBody? numbered := by
    obtain ⟨function, found, _⟩ := numbered.forest.opened _ (List.mem_cons_self ..)
    obtain ⟨after, set, known, kept, exprs, _⟩ := exists_setBody? found _
    obtain ⟨after', set', forest⟩ := numbered.forest.setBody?
    cases set.symm.trans set'
    exact ⟨after, set, forest, numbered.settle known kept exprs⟩

end Arena

/-! ### Lowered units -/

/-- The expressions of a unit are numbered in the order of its declared functions and then of its
package-level statements. -/
def Package.Numbered (unit : Package) : Prop :=
  unit.arena.Covers (unit.decls.map .literal ++ unit.globalRefs) 0 unit.arena.exprs.size

namespace Dump

theorem numbered_lowerUnit (tables : Tables) (id : UnitId) (unit : UnitEntry) (names : TypeNames)
    (warnings : List Warning) :
    ((lowerUnit tables id unit).run ⟨names, .empty, warnings⟩).1.Numbered :=
  (holds_lowerUnit Arena.growing_numbered ⟨Arena.forest_empty, .nil 0⟩ tables id unit names
    warnings).covers

theorem numbered_of_lower {dump : Dump} {program : Program} {warnings : List Warning}
    (accepted : dump.lower = .ok (program, warnings)) :
    ∀ unit ∈ program.units, unit.Numbered := by
  rw [← toProgram_of_lower accepted]
  exact forall_units_toProgram numbered_lowerUnit dump

end Dump

end ErrorWrapping
