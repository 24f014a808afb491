import ErrorWrapping.Proofs.DefinitionLists
import ErrorWrapping.Proofs.Enclosing

/-
Every return belongs to one function.

The functions of a unit are listed once each: every declaration, followed by the literals in its
body, then the literals of package-level statements, numbered in the order of the walk. A function
collects the returns that a walk meets when it passes over literals. These are the returns whose
innermost function it is, so all functions together collect every return once, but for those that
stand in package-level statements outside of any function.
-/

namespace ErrorWrapping

def NodeRef.isLiteral : NodeRef → Bool
  | .literal _ => true
  | _ => false

def StmtKind.isReturn : StmtKind → Bool
  | .ret _ => true
  | _ => false

/-- Whether a node is a `return`. -/
def Arena.isReturn (arena : Arena) : NodeRef → Bool
  | .stmt id => (arena.stmt? id).any (·.kind.isReturn)
  | _ => false

/-- The literals of a walk in its order, numbered from one under an outer name. -/
structure NamesLiterals (outer : String) (nodes : List NodeRef)
    (entries : List (FuncId × String)) : Prop where
  literals : entries.map (fun entry => NodeRef.literal entry.1) = nodes.filter NodeRef.isLiteral
  names : ∀ (index : Nat) (entry : FuncId × String), entries[index]? = some entry →
    entry.2 = outer ++ ".func" ++ toString (index + 1)

namespace UnitView

/-- A declaration under its own name, and the literals in its body. -/
def NamesDecl (view : UnitView) (decl : FuncId) (entries : List (FuncId × String)) : Prop :=
  ∃ function body literals, view.arena.function? decl = some function ∧
    view.unit.bodyNodes? decl = some body ∧ entries = (decl, function.name) :: literals ∧
    NamesLiterals function.name body literals

/-- Every function of a unit, listed once with its name. -/
structure ListsFunctions (view : UnitView) (order : List (FuncId × String)) : Prop where
  once : (order.map (·.1)).Nodup
  functions : ∀ func, func ∈ order.map (·.1) ↔ view.unit.Has func
  complete : ∀ func function, view.arena.function? func = some function → view.unit.Has func
  named : ∃ blocks globals nodes, order = blocks.flatten ++ globals ∧
    List.Forall₂ view.NamesDecl view.unit.decls blocks ∧
    view.unit.globalNodes? = some nodes ∧ NamesLiterals "glob" nodes globals

/-- The returns that are collected for a function are those whose innermost function it is. -/
structure Collects (view : UnitView) (func : FuncId) (refs : List NodeRef) : Prop where
  returns : ∃ function found, view.arena.function? func = some function ∧
    view.returns? function = some found ∧
    List.Forall₂ (fun ref entry => view.returnAt? ref = some (some entry)) refs found
  innermost : ∀ ref, ref ∈ refs ↔
    view.arena.isReturn ref = true ∧ view.arena.Innermost func ref

/-- What the functions of a unit collect, one list for each function, and the loose returns, which
are in no function. -/
structure PartitionsReturns (view : UnitView) (order : List (FuncId × String))
    (nodes : List NodeRef) (collected : List (List NodeRef)) (loose : List NodeRef) : Prop where
  each : List.Forall₂ (fun entry refs => view.Collects entry.1 refs) order collected
  exactlyOne : ∀ ref func, view.arena.isReturn ref = true → view.arena.Encloses func ref →
    ∃! inner, inner ∈ order.map (·.1) ∧ view.arena.Innermost inner ref
  outside : ∀ ref, ref ∈ loose ↔ ref ∈ nodes ∧ view.arena.isReturn ref = true ∧
    ∀ func, ¬ view.arena.Encloses func ref
  perm : (collected.flatten ++ loose).Perm (nodes.filter view.arena.isReturn)

end UnitView

/-! ### Names of literals -/

theorem namesLiterals_nameLiterals (outer : String) (nodes : List NodeRef) :
    NamesLiterals outer nodes (nameLiterals outer nodes) := by
  constructor
  · rw [nameLiterals, List.map_map]
    -- Numbering the literals does not change which they are.
    change List.map (NodeRef.literal ∘ Prod.fst) (List.zipIdx _) = _
    rw [← List.map_map, List.zipIdx_map_fst]
    induction nodes with
    | nil => rfl
    | cons node rest ih =>
        cases node with
        | literal id => exact congrArg (NodeRef.literal id :: ·) ih
        | expr id => exact ih
        | stmt id => exact ih
  · intro index entry found
    rw [nameLiterals, List.getElem?_map, List.getElem?_zipIdx, Option.map_map] at found
    obtain ⟨id, _, rfl⟩ := Option.map_eq_some_iff.mp found
    simp

/-! ### Walks that pass over literals -/

theorem flatten_sublist {α : Type} {lists more : List (List α)}
    (each : List.Forall₂ List.Sublist lists more) : lists.flatten.Sublist more.flatten := by
  induction each with
  | nil => exact .slnil
  | cons first _ ih => exact first.append ih

theorem pairwise_of_forall₂ {α β : Type} {R : α → β → Prop} {S : α → α → Prop} {T : β → β → Prop}
    (join : ∀ a b x y, R a x → R b y → S a b → T x y) {xs : List α} {ys : List β}
    (related : List.Forall₂ R xs ys) (apart : xs.Pairwise S) : ys.Pairwise T := by
  induction related with
  | nil => exact .nil
  | cons first rest ih =>
      obtain ⟨fromFirst, fromRest⟩ := List.pairwise_cons.mp apart
      refine List.pairwise_cons.mpr ⟨fun y inRest => ?_, ih fromRest⟩
      obtain ⟨b, isLater, second⟩ := mem_of_forall₂_right rest inRest
      exact join _ b _ y first second (fromFirst b isLater)

namespace Arena

variable {arena : Arena} {roots nodes own : List NodeRef} {ref : NodeRef}

theorem walkWithin_own_sublist {height : Nat}
    (walked : arena.walkWithin .whole height ref = some nodes)
    (passing : arena.walkWithin .own height ref = some own) : own.Sublist nodes := by
  induction height generalizing ref nodes own with
  | zero => cases walked
  | succ height ih =>
      by_cases entered : Reach.own.Enters ref
      · obtain ⟨lower, children, below, same, known, collected, rfl⟩ :=
          walkWithin_eq_some (Reach.enters_whole ref) walked
        cases same
        obtain ⟨lower, children', below', same, known', collected', rfl⟩ :=
          walkWithin_eq_some entered passing
        cases same
        cases known.symm.trans known'
        refine (flatten_sublist ?_).cons_cons ref
        exact forall₂_trans (mapM_eq_some_iff.mp collected').flip (mapM_eq_some_iff.mp collected)
          fun _ _ _ passingChild walkedChild => ih walkedChild passingChild
      · rw [walkWithin_of_not_enters entered] at passing
        cases passing
        exact List.nil_sublist _

theorem walk_own_sublist (walked : arena.walk .whole roots = some nodes)
    (passing : arena.walk .own roots = some own) : own.Sublist nodes := by
  obtain ⟨lists, collected, rfl⟩ := walk_eq_some_iff.mp walked
  obtain ⟨lists', collected', rfl⟩ := walk_eq_some_iff.mp passing
  exact flatten_sublist (forall₂_trans (mapM_eq_some_iff.mp collected').flip
    (mapM_eq_some_iff.mp collected) fun _ _ _ passingRoot walkedRoot =>
      walkWithin_own_sublist walkedRoot passingRoot)

theorem enters_of_isReturn (isReturn : arena.isReturn ref = true) : Reach.own.Enters ref := by
  cases ref with
  | literal id => cases isReturn
  | expr id => exact trivial
  | stmt id => exact trivial

theorem holds_of_isReturn (isReturn : arena.isReturn ref = true) : arena.Holds ref := by
  cases ref with
  | literal id => cases isReturn
  | expr id => cases isReturn
  | stmt id =>
      obtain ⟨stmt, found, _⟩ := (Option.any_eq_true ..).mp isReturn
      exact (Array.getElem?_eq_some_iff.mp found).1

end Arena

namespace UnitView

variable {view : UnitView} {nodes : List NodeRef}

theorem isReturn_of_returnAt? {ref : NodeRef} {entry : Option (Span × List ExprId)}
    (made : view.returnAt? ref = some entry) : view.arena.isReturn ref = entry.isSome := by
  cases ref with
  | expr id =>
      cases made
      rfl
  | literal id =>
      cases made
      rfl
  | stmt id =>
      obtain ⟨stmt, known, rest⟩ := Option.bind_eq_some_iff.mp made
      rw [Arena.isReturn, known, Option.any_some]
      cases kind : stmt.kind with
      | ret range =>
          rw [kind] at rest
          obtain ⟨results, _, rfl⟩ := Option.map_eq_some_iff.mp rest
          rfl
      | _ =>
          rw [kind] at rest
          cases rest
          rfl

theorem forall₂_returnAt? {own : List NodeRef} {entries : List (Option (Span × List ExprId))}
    (made : List.Forall₂ (fun ref entry => view.returnAt? ref = some entry) own entries) :
    List.Forall₂ (fun ref entry => view.returnAt? ref = some (some entry))
      (own.filter view.arena.isReturn) (entries.filterMap id) := by
  induction made with
  | nil => exact .nil
  | @cons ref entry _ _ first _ ih =>
      have isReturn := isReturn_of_returnAt? first
      cases entry with
      | none =>
          rw [List.filter_cons_of_neg (by rw [isReturn]; exact Bool.false_ne_true)]
          exact ih
      | some entry =>
          rw [List.filter_cons_of_pos isReturn]
          exact .cons first ih

/-! ### The order of functions -/

theorem namesDecl_of_declOrder? {decl : FuncId} {entries : List (FuncId × String)}
    (made : view.declOrder? decl = some entries) : view.NamesDecl decl entries := by
  obtain ⟨function, found, rest⟩ := Option.bind_eq_some_iff.mp made
  obtain ⟨roots, listed, rest⟩ := Option.bind_eq_some_iff.mp rest
  obtain ⟨body, walked, same⟩ := Option.bind_eq_some_iff.mp rest
  cases same
  refine ⟨function, body, _, found, ?_, rfl, namesLiterals_nameLiterals _ _⟩
  exact Option.bind_eq_some_iff.mpr ⟨function, found, Option.bind_eq_some_iff.mpr
    ⟨roots, listed, walked⟩⟩

theorem exists_listsFunctions (planted : view.unit.Planted) :
    ∃ order, view.functionOrder? = some order ∧ view.ListsFunctions order := by
  obtain ⟨nodes, walked, once, _⟩ := planted.allNodes?
  obtain ⟨order, listed⟩ := exists_functionOrder? walked
  refine ⟨order, listed, nodup_functionOrder? walked once listed, fun func => ?_,
    fun func function => planted.has, ?_⟩
  · rw [← mem_functionOrder?_iff listed, List.mem_map]
    simp only [Prod.exists, exists_and_right, exists_eq_right]
  · obtain ⟨blocks, all, rest⟩ := Option.bind_eq_some_iff.mp listed
    obtain ⟨globals, walkedGlobals, same⟩ := Option.bind_eq_some_iff.mp rest
    cases same
    exact ⟨blocks, _, globals, rfl,
      (mapM_eq_some_iff.mp all).imp fun _ _ made => namesDecl_of_declOrder? made,
      walkedGlobals, namesLiterals_nameLiterals _ _⟩

/-! ### Returns of one function -/

theorem exists_collects (planted : view.unit.Planted) {func : FuncId} (has : view.unit.Has func) :
    ∃ refs, view.Collects func refs ∧ refs.Nodup := by
  obtain ⟨nodes, walked, _⟩ := planted.allNodes?
  obtain ⟨function, roots, body, found, listed, walkedBody, inside⟩ :=
    exists_body_of_has walked has
  obtain ⟨returned, returns⟩ :=
    exists_returns? (Package.closed_allNodes walked) listed walkedBody inside
  have collected := returns
  rw [returns?_eq, listed, Option.bind_some] at collected
  obtain ⟨own, walkedOwn, rest⟩ := Option.bind_eq_some_iff.mp collected
  obtain ⟨entries, all, rfl⟩ := Option.map_eq_some_iff.mp rest
  have known : view.arena.children? (.literal func) = some roots :=
    Option.bind_eq_some_iff.mpr ⟨function, found, listed⟩
  refine ⟨own.filter view.arena.isReturn, ⟨⟨function, _, found, returns,
    forall₂_returnAt? (mapM_eq_some_iff.mp all)⟩, fun ref => ?_⟩, ?_⟩
  · rw [List.mem_filter, and_comm, Arena.mem_walk_iff walkedOwn]
    refine and_congr_right fun isReturn => ?_
    have rooted : view.arena.Rooted _ := planted.rooted
    rw [← rooted.keeps_iff_innermost (Arena.enters_of_isReturn isReturn)]
    constructor
    · intro met
      exact ⟨roots, known, met⟩
    · rintro ⟨roots', known', met⟩
      cases known.symm.trans known'
      exact met
  · exact ((planted.nodup_walk known walkedBody).sublist
      (Arena.walk_own_sublist walkedBody walkedOwn)).filter _

/-! ### Returns of all functions -/

/-- The returns of package-level statements themselves are those that no function encloses. -/
theorem exists_loose (planted : view.unit.Planted) (walked : view.unit.allNodes? = some nodes)
    (once : nodes.Nodup) :
    ∃ loose : List NodeRef, loose.Nodup ∧ ∀ ref, ref ∈ loose ↔ ref ∈ nodes ∧
      view.arena.isReturn ref = true ∧ ∀ func, ¬ view.arena.Encloses func ref := by
  have rooted : view.arena.Rooted _ := planted.rooted
  obtain ⟨bodies, globals, found, walkedGlobals, rfl⟩ := Package.allNodes?_eq_some walked
  obtain ⟨own, walkedOwn⟩ := Arena.exists_walk_own walkedGlobals
  have part : own.Sublist globals := Arena.walk_own_sublist walkedGlobals walkedOwn
  refine ⟨own.filter view.arena.isReturn,
    ((List.nodup_append.mp once).2.1.sublist part).filter _, fun ref => ?_⟩
  rw [List.mem_filter, Arena.mem_walk_iff walkedOwn]
  constructor
  · rintro ⟨met, isReturn⟩
    refine ⟨List.mem_append_right _ (part.subset ((Arena.mem_walk_iff walkedOwn).mpr met)),
      isReturn, fun func => ?_⟩
    exact rooted.not_encloses_of_met_own (fun root => List.mem_append_right _) met
  · rintro ⟨inNodes, isReturn, outside⟩
    refine ⟨?_, isReturn⟩
    have entered := Arena.enters_of_isReturn isReturn
    rcases (Package.mem_allNodes_iff walked).mp inNodes with
      ⟨decl, _, function, roots, isFunction, listed, root, isRoot, _, path⟩ | met
    · refine absurd (Relation.TransGen.head'_iff.mpr ⟨root, ⟨roots, ?_, isRoot,
        Arena.Reach.enters_whole root⟩, path⟩) (outside decl)
      exact Option.bind_eq_some_iff.mpr ⟨function, isFunction, listed⟩
    · rcases Arena.met_own_or_keeps met entered with own | ⟨inner, keeps⟩
      · exact own
      · exact absurd keeps.encloses (outside inner)

theorem exists_partitionsReturns (planted : view.unit.Planted) {order : List (FuncId × String)}
    (lists : view.ListsFunctions order) (walked : view.unit.allNodes? = some nodes)
    (once : nodes.Nodup)
    (all : ∀ ref, view.arena.isReturn ref = true → ref ∈ nodes) :
    ∃ collected loose, view.PartitionsReturns order nodes collected loose := by
  have rooted : view.arena.Rooted _ := planted.rooted
  obtain ⟨loose, looseOnce, mem_loose⟩ := exists_loose planted walked once
  have collects : ∀ entry ∈ order, ∃ refs, view.Collects entry.1 refs ∧ refs.Nodup :=
    fun entry member =>
      exists_collects planted ((lists.functions entry.1).mp (List.mem_map_of_mem member))
  choose! pick holds using collects
  have each : List.Forall₂ (fun entry refs => view.Collects entry.1 refs ∧ refs.Nodup) order
      (order.map pick) := List.forall₂_map_right_iff.mpr (List.forall₂_same.mpr holds)
  -- Two functions collect nothing in common, since a node has one innermost function.
  have apart : (order.map pick).Pairwise List.Disjoint := by
    refine pairwise_of_forall₂ (S := fun entry other => entry.1 ≠ other.1) ?_ each
      (List.pairwise_map.mp lists.once)
    intro entry other refs more collects alsoCollects differs ref inRefs inMore
    exact differs (rooted.innermost_unique ((collects.1.innermost ref).mp inRefs).2
      ((alsoCollects.1.innermost ref).mp inMore).2)
  have exists_inner : ∀ ref func, view.arena.isReturn ref = true → view.arena.Encloses func ref →
      ∃ inner, inner ∈ order.map (·.1) ∧ view.arena.Innermost inner ref := by
    intro ref func isReturn encloses
    obtain ⟨inner, keeps⟩ := encloses.exists_keeps (Arena.enters_of_isReturn isReturn)
    have innermost := rooted.innermost_of_keeps keeps
    obtain ⟨roots, known, _⟩ := keeps
    obtain ⟨function, found, _⟩ := Option.bind_eq_some_iff.mp known
    exact ⟨inner, (lists.functions inner).mpr (lists.complete inner function found), innermost⟩
  refine ⟨order.map pick, loose, each.imp fun _ _ collects => collects.1, ?_, mem_loose, ?_⟩
  · intro ref func isReturn encloses
    obtain ⟨inner, listed, innermost⟩ := exists_inner ref func isReturn encloses
    exact ⟨inner, ⟨listed, innermost⟩,
      fun other also => rooted.innermost_unique also.2 innermost⟩
  · have collectedOnce : (order.map pick).flatten.Nodup := by
      refine List.nodup_flatten.mpr ⟨fun refs member => ?_, apart⟩
      obtain ⟨_, _, collects⟩ := mem_of_forall₂_right each member
      exact collects.2
    have disjoint : ∀ ref ∈ (order.map pick).flatten, ∀ other ∈ loose, ref ≠ other := by
      rintro ref inCollected _ inLoose rfl
      obtain ⟨refs, isList, inRefs⟩ := List.mem_flatten.mp inCollected
      obtain ⟨entry, _, collects⟩ := mem_of_forall₂_right each isList
      exact ((mem_loose ref).mp inLoose).2.2 entry.1
        ((collects.1.innermost ref).mp inRefs).2.encloses
    refine (List.perm_ext_iff_of_nodup (List.nodup_append.mpr
      ⟨collectedOnce, looseOnce, disjoint⟩) (once.filter _)).mpr fun ref => ?_
    rw [List.mem_append, List.mem_filter, mem_loose]
    constructor
    · rintro (inCollected | ⟨inNodes, isReturn, _⟩)
      · obtain ⟨refs, isList, inRefs⟩ := List.mem_flatten.mp inCollected
        obtain ⟨entry, _, collects⟩ := mem_of_forall₂_right each isList
        have isReturn := ((collects.1.innermost ref).mp inRefs).1
        exact ⟨all ref isReturn, isReturn⟩
      · exact ⟨inNodes, isReturn⟩
    · rintro ⟨inNodes, isReturn⟩
      by_cases outside : ∀ func, ¬ view.arena.Encloses func ref
      · exact Or.inr ⟨inNodes, isReturn, outside⟩
      · obtain ⟨func, encloses⟩ := not_forall_not.mp outside
        obtain ⟨inner, listed, innermost⟩ := exists_inner ref func isReturn encloses
        obtain ⟨entry, member, rfl⟩ := List.mem_map.mp listed
        obtain ⟨refs, isList, collects⟩ := mem_of_forall₂_left each member
        exact Or.inl (List.mem_flatten_of_mem isList
          ((collects.1.innermost ref).mpr ⟨isReturn, innermost⟩))

end UnitView

/-- The functions of a unit of a dump are listed once each, with numbered names for literals, and
each return in one of them is collected by its innermost function alone. -/
theorem functionOrder?_partitions {dump : Dump} {program : Program} {warnings : List Warning}
    (accepted : dump.lower = .ok (program, warnings)) {unit : Package}
    (member : unit ∈ program.units) :
    ∃ order nodes collected loose, (program.view unit).functionOrder? = some order ∧
      unit.allNodes? = some nodes ∧ (program.view unit).ListsFunctions order ∧
      (program.view unit).PartitionsReturns order nodes collected loose := by
  have planted := (Dump.lowered_of_lower accepted).planted unit member
  have viewPlanted : (program.view unit).unit.Planted := planted
  obtain ⟨order, listed, lists⟩ := UnitView.exists_listsFunctions viewPlanted
  obtain ⟨nodes, walked, once, all⟩ := planted.allNodes?
  obtain ⟨collected, loose, partitions⟩ := UnitView.exists_partitionsReturns viewPlanted lists
    walked (List.nodup_append.mp once).2.1 fun ref isReturn => by
      rcases List.mem_append.mp ((all ref).mpr (Arena.holds_of_isReturn isReturn)) with decl | node
      · obtain ⟨func, _, rfl⟩ := List.mem_map.mp decl
        cases isReturn
      · exact node
  exact ⟨order, nodes, collected, loose, listed, walked, lists, partitions⟩

namespace Dump.retry

theorem returns_partitioned :
    ∃ unit ∈ program.units, unit.path = "m" ∧
      ∃ order nodes collected loose, (program.view unit).functionOrder? = some order ∧
        unit.allNodes? = some nodes ∧ (program.view unit).ListsFunctions order ∧
        (program.view unit).PartitionsReturns order nodes collected loose := by
  obtain ⟨unit, checks, path⟩ := exists_unit
  exact ⟨unit, checks.1, path, functionOrder?_partitions accepted checks.1⟩

end Dump.retry

end ErrorWrapping
