import ErrorWrapping.Proofs.Reordering
import Mathlib.Data.List.Pairwise

/-
Functions around a node.

In the tree of a unit a node has one parent at most, and nothing leads back to itself. So the
functions around a node lie within each other, and one of them is the innermost. A walk of a
function that passes over literals meets the nodes whose innermost function it is.
-/

namespace ErrorWrapping

namespace Arena

variable {arena : Arena} {roots nodes : List NodeRef} {ref parent child : NodeRef}
  {func other : FuncId}

/-- The node stands in the body of the function, or in a literal there. -/
def Encloses (arena : Arena) (func : FuncId) (ref : NodeRef) : Prop :=
  Relation.TransGen (arena.Step .whole) (.literal func) ref

/-- The function encloses the node, and whatever else encloses it encloses the function. -/
structure Innermost (arena : Arena) (func : FuncId) (ref : NodeRef) : Prop where
  encloses : arena.Encloses func ref
  outer : ∀ other, arena.Encloses other ref → other = func ∨ arena.Encloses other (.literal func)

/-- A walk of the function that passes over literals meets the node. -/
def Keeps (arena : Arena) (func : FuncId) (ref : NodeRef) : Prop :=
  ∃ roots, arena.children? (.literal func) = some roots ∧ arena.Met .own roots ref

/-! ### Nodes of a function itself -/

theorem Step.whole_of_own (step : arena.Step .own parent child) :
    arena.Step .whole parent child := by
  obtain ⟨children, known, inChildren, _⟩ := step
  exact ⟨children, known, inChildren, Reach.enters_whole child⟩

theorem Step.own_of_enters (step : arena.Step .whole parent child)
    (entered : Reach.own.Enters child) : arena.Step .own parent child := by
  obtain ⟨children, known, inChildren, _⟩ := step
  exact ⟨children, known, inChildren, entered⟩

theorem enters_or_literal (ref : NodeRef) :
    Reach.own.Enters ref ∨ ∃ func, ref = .literal func := by
  cases ref with
  | expr id => exact Or.inl trivial
  | stmt id => exact Or.inl trivial
  | literal id => exact Or.inr ⟨id, rfl⟩

theorem keeps_of_step (entered : Reach.own.Enters child)
    (step : arena.Step .whole (.literal func) child) : arena.Keeps func child := by
  obtain ⟨children, known, inChildren, _⟩ := step
  exact ⟨children, known, child, inChildren, entered, .refl⟩

theorem Keeps.step (keeps : arena.Keeps func parent) (entered : Reach.own.Enters child)
    (step : arena.Step .whole parent child) : arena.Keeps func child := by
  obtain ⟨roots, known, root, isRoot, rootEntered, path⟩ := keeps
  exact ⟨roots, known, root, isRoot, rootEntered, path.tail (step.own_of_enters entered)⟩

/-- What holds of the nodes of the body and is handed down to children holds of all nodes that a
function keeps. -/
theorem Keeps.induct {P : NodeRef → Prop}
    (body : ∀ child, Reach.own.Enters child → arena.Step .whole (.literal func) child → P child)
    (below : ∀ parent child, Reach.own.Enters parent → P parent → Reach.own.Enters child →
      arena.Step .whole parent child → P child)
    (keeps : arena.Keeps func ref) : Reach.own.Enters ref ∧ P ref := by
  obtain ⟨roots, known, root, isRoot, entered, path⟩ := keeps
  induction path with
  | refl => exact ⟨entered, body root entered ⟨roots, known, isRoot, Reach.enters_whole root⟩⟩
  | tail _ last ih =>
      have lastEntered := last.choose_spec.2.2
      exact ⟨lastEntered, below _ _ ih.1 ih.2 lastEntered last.whole_of_own⟩

theorem Keeps.encloses (keeps : arena.Keeps func ref) : arena.Encloses func ref :=
  (keeps.induct (fun _ _ step => .single step) fun _ _ _ path _ step => path.tail step).2

/-- A node that is met belongs to what is walked itself or to a literal there. -/
theorem met_own_or_keeps (met : arena.Met .whole roots ref) (entered : Reach.own.Enters ref) :
    arena.Met .own roots ref ∨ ∃ inner, arena.Keeps inner ref := by
  obtain ⟨root, isRoot, _, path⟩ := met
  induction path with
  | refl => exact Or.inl ⟨root, isRoot, entered, .refl⟩
  | @tail parent child _ last ih =>
      rcases enters_or_literal parent with parentEntered | ⟨inner, rfl⟩
      · rcases ih parentEntered with ⟨start, isStart, startEntered, path⟩ | ⟨inner, keeps⟩
        · exact Or.inl ⟨start, isStart, startEntered, path.tail (last.own_of_enters entered)⟩
        · exact Or.inr ⟨inner, keeps.step entered last⟩
      · exact Or.inr ⟨inner, keeps_of_step entered last⟩

theorem Encloses.exists_keeps (encloses : arena.Encloses func ref)
    (entered : Reach.own.Enters ref) : ∃ inner, arena.Keeps inner ref := by
  obtain ⟨root, ⟨roots, known, isRoot, _⟩, path⟩ := Relation.TransGen.head'_iff.mp encloses
  rcases met_own_or_keeps ⟨root, isRoot, Reach.enters_whole root, path⟩ entered with own | inner
  · exact ⟨func, roots, known, own⟩
  · exact inner

/-! ### Trees -/

/-- The arena is a forest with these roots. -/
structure Rooted (arena : Arena) (roots : List NodeRef) : Prop where
  single : ∀ {parent other child}, arena.Step .whole parent child →
    arena.Step .whole other child → parent = other
  free : ∀ {root parent}, root ∈ roots → ¬ arena.Step .whole parent root
  acyclic : ∀ {ref}, ¬ Relation.TransGen (arena.Step .whole) ref ref

namespace Rooted

variable (rooted : arena.Rooted roots)

include rooted

/-- What encloses a child is the parent or encloses the parent. -/
theorem encloses_parent (step : arena.Step .whole parent child)
    (encloses : arena.Encloses other child) :
    parent = .literal other ∨ arena.Encloses other parent := by
  obtain ⟨last, path, also⟩ := Relation.TransGen.tail'_iff.mp encloses
  cases rooted.single step also
  rcases Relation.reflTransGen_iff_eq_or_transGen.mp path with same | path
  · exact Or.inl same
  · exact Or.inr path

theorem innermost_of_keeps (keeps : arena.Keeps func ref) : arena.Innermost func ref := by
  refine ⟨keeps.encloses, fun other => ?_⟩
  refine (keeps.induct (P := fun ref => arena.Encloses other ref →
    other = func ∨ arena.Encloses other (.literal func)) ?_ ?_).2
  · intro child _ step encloses
    rcases rooted.encloses_parent step encloses with same | path
    · exact Or.inl (NodeRef.literal.inj same).symm
    · exact Or.inr path
  · intro parent child entered ih _ step encloses
    rcases rooted.encloses_parent step encloses with rfl | path
    · exact False.elim entered
    · exact ih path

theorem innermost_unique (first : arena.Innermost func ref) (second : arena.Innermost other ref) :
    func = other := by
  rcases second.outer func first.encloses with same | outside
  · exact same
  · rcases first.outer other second.encloses with same | inside
    · exact same.symm
    · exact absurd (outside.trans inside) rooted.acyclic

/-- Walking a function, literals passed over, meets the nodes whose innermost function it is. -/
theorem keeps_iff_innermost (entered : Reach.own.Enters ref) :
    arena.Keeps func ref ↔ arena.Innermost func ref := by
  refine ⟨rooted.innermost_of_keeps, fun innermost => ?_⟩
  obtain ⟨inner, keeps⟩ := innermost.encloses.exists_keeps entered
  cases rooted.innermost_unique innermost (rooted.innermost_of_keeps keeps)
  exact keeps

theorem not_encloses_of_met_own {some : List NodeRef} (among : ∀ root ∈ some, root ∈ roots)
    (met : arena.Met .own some ref) : ¬ arena.Encloses func ref := by
  obtain ⟨root, isRoot, entered, path⟩ := met
  induction path with
  | refl =>
      intro encloses
      obtain ⟨parent, _, step⟩ := Relation.TransGen.tail'_iff.mp encloses
      exact rooted.free (among root isRoot) step
  | tail before last ih =>
      intro encloses
      rcases rooted.encloses_parent last.whole_of_own encloses with rfl | path
      · cases before with
        | refl => exact entered
        | tail _ step => exact step.choose_spec.2.2
      · exact ih path

end Rooted

/-! ### Walks of trees -/

theorem holds_of_children? {children : List NodeRef} (known : arena.children? ref = some children) :
    arena.Holds ref := by
  cases ref with
  | expr id =>
      obtain ⟨expr, found, _⟩ := Option.bind_eq_some_iff.mp known
      exact (Array.getElem?_eq_some_iff.mp found).1
  | stmt id =>
      obtain ⟨stmt, found, _⟩ := Option.bind_eq_some_iff.mp known
      exact (Array.getElem?_eq_some_iff.mp found).1
  | literal id =>
      obtain ⟨function, found, _⟩ := Option.bind_eq_some_iff.mp known
      exact (Array.getElem?_eq_some_iff.mp found).1

theorem exists_lower_of_transGen {height : Nat}
    (walked : arena.walkWithin .whole height ref = some nodes)
    (path : Relation.TransGen (arena.Step .whole) ref child) :
    ∃ lower found, lower < height ∧ arena.walkWithin .whole lower child = some found := by
  have stepped : ∀ {height ref nodes child},
      arena.walkWithin .whole height ref = some nodes → arena.Step .whole ref child →
      ∃ lower found, lower < height ∧ arena.walkWithin .whole lower child = some found := by
    intro height ref nodes child walked step
    obtain ⟨lower, children, below, rfl, known, collected, _⟩ :=
      walkWithin_eq_some (Reach.enters_whole ref) walked
    obtain ⟨children', known', inChildren, _⟩ := step
    cases known.symm.trans known'
    obtain ⟨found, _, walkedChild⟩ :=
      mem_of_forall₂_left (mapM_eq_some_iff.mp collected) inChildren
    exact ⟨lower, found, Nat.lt_succ_self lower, walkedChild⟩
  induction path with
  | single step => exact stepped walked step
  | tail _ step ih =>
      obtain ⟨lower, found, less, walkedParent⟩ := ih
      obtain ⟨least, found, lesser, walkedChild⟩ := stepped walkedParent step
      exact ⟨least, found, Nat.lt_trans lesser less, walkedChild⟩

theorem not_transGen_of_walkWithin {height : Nat}
    (walked : arena.walkWithin .whole height ref = some nodes) :
    ¬ Relation.TransGen (arena.Step .whole) ref ref := by
  induction height using Nat.strongRecOn generalizing nodes with
  | ind height ih =>
      intro cycle
      obtain ⟨lower, found, less, again⟩ := exists_lower_of_transGen walked cycle
      exact ih lower less again cycle

/-- An arena is a forest when a walk of the roots lists every node once. -/
theorem rooted_of_walk (walked : arena.walk .whole roots = some nodes) (once : nodes.Nodup)
    (all : ∀ ref, arena.Holds ref → ref ∈ nodes) : arena.Rooted roots := by
  have apart := List.nodup_append.mp ((walk_perm walked).nodup_iff.mp once)
  have mem_children : ∀ {parent child}, arena.Step .whole parent child →
      parent ∈ nodes ∧ child ∈ arena.childrenOf parent := by
    intro parent child step
    obtain ⟨children, known, inChildren, _⟩ := step
    refine ⟨all parent (holds_of_children? known), ?_⟩
    rw [childrenOf, known]
    exact inChildren
  constructor
  · intro parent other child step also
    obtain ⟨inNodes, isChild⟩ := mem_children step
    obtain ⟨otherInNodes, alsoChild⟩ := mem_children also
    by_contra different
    have symm : Std.Symm (Function.onFun List.Disjoint arena.childrenOf) :=
      ⟨fun _ _ disjoint _ right left => disjoint left right⟩
    exact (List.nodup_flatMap.mp apart.2.1).2.forall inNodes otherInNodes different isChild
      alsoChild
  · intro root parent isRoot step
    obtain ⟨inNodes, isChild⟩ := mem_children step
    exact apart.2.2 root isRoot root (List.mem_flatMap.mpr ⟨parent, inNodes, isChild⟩) rfl
  · intro ref cycle
    obtain ⟨_, ⟨_, known, _⟩, _⟩ := Relation.TransGen.head'_iff.mp cycle
    obtain ⟨lists, collected, rfl⟩ := walk_eq_some_iff.mp walked
    obtain ⟨list, inLists, inList⟩ := List.mem_flatten.mp (all ref (holds_of_children? known))
    obtain ⟨root, _, walkedRoot⟩ := mem_of_forall₂_right (mapM_eq_some_iff.mp collected) inLists
    obtain ⟨_, _, _, walkedRef, _⟩ := exists_walkWithin_of_mem walkedRoot inList
    exact not_transGen_of_walkWithin walkedRef cycle

end Arena

namespace Package

variable {unit : Package}

theorem Planted.exists_walk (planted : unit.Planted) :
    ∃ nodes, unit.arena.walk .whole (unit.decls.map .literal ++ unit.globalRefs) = some nodes ∧
      nodes.Nodup ∧ ∀ ref, ref ∈ nodes ↔ unit.arena.Holds ref := by
  obtain ⟨height, nodes, enough, listed, once, all⟩ := planted.listed
  rw [Growth.entries, List.map_nil, List.append_nil] at once all
  exact ⟨nodes, listed.walk (Nat.le_trans (Nat.le_add_right _ _) enough), once, all⟩

/-- A planted unit is a forest whose roots are its declarations and package-level statements. -/
theorem Planted.rooted (planted : unit.Planted) :
    unit.arena.Rooted (unit.decls.map .literal ++ unit.globalRefs) := by
  obtain ⟨nodes, walked, once, all⟩ := planted.exists_walk
  exact Arena.rooted_of_walk walked once fun ref holds => (all ref).mpr holds

theorem Planted.nodup_walk (planted : unit.Planted) {ref : NodeRef} {children below : List NodeRef}
    (known : unit.arena.children? ref = some children)
    (walkedBelow : unit.arena.walk .whole children = some below) : below.Nodup := by
  obtain ⟨nodes, walked, once, all⟩ := planted.exists_walk
  obtain ⟨children', found, known', walkedFound, part⟩ :=
    Arena.exists_walk_of_mem walked ((all ref).mpr (Arena.holds_of_children? known))
  cases known.symm.trans known'
  cases walkedBelow.symm.trans walkedFound
  exact once.sublist part

end Package

end ErrorWrapping
