import ErrorWrapping.Proofs.Grounding
import ErrorWrapping.Proofs.LeastSets
import ErrorWrapping.Proofs.Reordering

/-
The definitions of a variable, one by one.

The walk of a unit meets every assignment, and no identifier is a target twice. Sorting the
definitions of a variable by position and identifier is therefore strict, nothing is dropped as a
repetition, and the list has exactly the assignments of calls to the variable.
-/

namespace ErrorWrapping

/-- By the start of the statement, then by the identifier that is assigned to. -/
def Definition.Precedes (left right : Definition) : Prop :=
  left.span.start < right.span.start ∨
    (left.span.start = right.span.start ∧ left.target.index < right.target.index)

/-- The value at the right of the target of this position: the one at the same position when both
sides are equally long, and otherwise the only value. -/
def PairedWith (targets values : List ExprId) (position : Nat) (value : ExprId) : Prop :=
  (values.length = targets.length ∧ values[position]? = some value) ∨
    (values.length ≠ targets.length ∧ values = [value])

theorem valueFor?_eq_some_iff {targets values : List ExprId} {position : Nat} {value : ExprId} :
    valueFor? targets values position = some value ↔
      PairedWith targets values position value := by
  unfold valueFor? PairedWith
  by_cases same : targets.length = values.length
  · simp [same]
  · have differs : values.length ≠ targets.length := fun equal => same equal.symm
    rw [if_neg same]
    constructor
    · intro found
      split at found
      · cases found
        exact Or.inr ⟨differs, rfl⟩
      · cases found
    · rintro (⟨equal, _⟩ | ⟨_, rfl⟩)
      · exact absurd equal differs
      · rfl

/-! ### What makes a definition -/

namespace UnitView

/-- A definition, an assignment or a declaration that occurs in the unit has, on its left side, an
`error` identifier bound to a variable, and the value paired with it is a call. -/
def Sets (view : UnitView) (var : VarId) (definition : Definition) : Prop :=
  ∃ (id : StmtId) (stmt : Stmt) (left right : IdRange) (targets values : List ExprId)
    (position : Nat) (name : String) (node value : Expr),
    view.unit.Occurs (.stmt id) ∧ view.arena.stmt? id = some stmt ∧
    stmt.span = definition.span ∧
    ((∃ op, stmt.kind = .assign op left right) ∨ stmt.kind = .varDecl left right) ∧
    view.arena.exprList? left = some targets ∧ view.arena.exprList? right = some values ∧
    targets[position]? = some definition.target ∧
    view.arena.expr? definition.target = some node ∧ node.kind = .ident name (.var var) ∧
    view.types.get? node.type = some .error ∧
    PairedWith targets values position definition.call ∧
    view.arena.expr? definition.call = some value ∧ value.kind.IsCall

variable {view : UnitView} {nodes : List NodeRef} {index : DefinitionIndex} {var : VarId}
  {definition : Definition}

theorem assignment?_eq_some_iff {kind : StmtKind} {left right : IdRange} :
    kind.assignment? = some (left, right) ↔
      (∃ op, kind = .assign op left right) ∨ kind = .varDecl left right := by
  cases kind <;> simp [StmtKind.assignment?]

/-- Where every variable that an identifier is bound to exists, nothing else is asked of it. -/
theorem varOf?_eq_some_iff {symbols types : Nat} (grounded : view.arena.Grounded symbols types)
    {id : ExprId} {node : Expr} (found : view.arena.expr? id = some node) :
    view.varOf? node = some var ↔ ∃ name, node.kind = .ident name (.var var) := by
  constructor
  · intro names
    unfold varOf? at names
    split at names
    · rename_i name bound kind
      split at names
      · cases names
        exact ⟨name, kind⟩
      · cases names
    · cases names
  · rintro ⟨name, kind⟩
    have within := (grounded.exprs id node found).1
    rw [kind] at within
    have declared : (view.arena.var? var).isSome = true :=
      Option.isSome_iff_exists.mpr ⟨_, Array.getElem?_eq_getElem within⟩
    rw [varOf?, kind]
    exact if_pos declared

/-- The definitions that are listed for a variable are those that assignments in the unit make. -/
theorem mem_resolve_iff_sets {symbols types : Nat}
    (grounded : view.arena.Grounded symbols types) (walked : view.unit.allNodes? = some nodes)
    (indexed : view.definitionIndex? nodes = some index) :
    definition ∈ index.resolve var ↔ view.Sets var definition := by
  rw [DefinitionIndex.mem_resolve, mem_entries_iff indexed]
  constructor
  · rintro ⟨id, listed, stmt, left, right, targets, values, position, found, assigns,
      leftListed, rightListed, span, target, paired, node, value, foundNode, isError, names,
      foundValue, isCall⟩
    obtain ⟨name, kind⟩ := (varOf?_eq_some_iff grounded foundNode).mp names
    exact ⟨id, stmt, left, right, targets, values, position, name, node, value,
      (Package.mem_allNodes_iff walked).mp listed, found, span.symm,
      assignment?_eq_some_iff.mp assigns, leftListed, rightListed, target, foundNode, kind,
      eq_of_beq isError, valueFor?_eq_some_iff.mp paired, foundValue, isCall⟩
  · rintro ⟨id, stmt, left, right, targets, values, position, name, node, value, occurs, found,
      span, assigns, leftListed, rightListed, target, foundNode, kind, isError, paired,
      foundValue, isCall⟩
    exact ⟨id, (Package.mem_allNodes_iff walked).mpr occurs, stmt, left, right, targets, values,
      position, found, assignment?_eq_some_iff.mpr assigns, leftListed, rightListed, span.symm,
      target, valueFor?_eq_some_iff.mpr paired, node, value, foundNode, beq_iff_eq.mpr isError,
      (varOf?_eq_some_iff grounded foundNode).mpr ⟨name, kind⟩, foundValue, isCall⟩

end UnitView

/-! ### The order of definitions -/

namespace DefinitionIndex

variable {index : DefinitionIndex}

/-- The definitions of a variable in the order of the walk. -/
def found (index : DefinitionIndex) (var : VarId) : List Definition :=
  index.entries.filterMap fun (owner, definition) =>
    if owner = var then some definition else none

theorem targets_found_sublist (index : DefinitionIndex) (var : VarId) :
    ((index.found var).map (·.target)).Sublist (index.entries.map fun entry => entry.2.target) := by
  rw [found, List.map_filterMap]
  induction index.entries with
  | nil => exact .slnil
  | cons entry rest ih =>
      obtain ⟨owner, definition⟩ := entry
      by_cases same : owner = var
      · simp only [List.filterMap_cons, same, if_true, Option.map_some, List.map_cons]
        exact ih.cons_cons _
      · simp only [List.filterMap_cons, same, if_false, Option.map_none, List.map_cons]
        exact ih.cons _

theorem nodup_found (once : (index.entries.map fun entry => entry.2.target).Nodup) (var : VarId) :
    ((index.found var).map (·.target.index)).Nodup := by
  have targets := once.sublist (index.targets_found_sublist var)
  have indices := targets.map (f := ExprId.index) fun left right same => congrArg ExprId.mk same
  rw [List.map_map] at indices
  exact indices

/-- With targets that differ, the definitions of a variable are sorted and none is dropped. -/
theorem resolve_eq_mergeSort (once : (index.entries.map fun entry => entry.2.target).Nodup)
    (var : VarId) : index.resolve var = (index.found var).mergeSort Definition.before := by
  refine Sorted.dropRepeats_eq_self ?_
  exact (List.mergeSort_perm _ _).nodup_iff.mpr (nodup_found once var).of_map

theorem pairwise_resolve (once : (index.entries.map fun entry => entry.2.target).Nodup)
    (var : VarId) : (index.resolve var).Pairwise Definition.Precedes := by
  rw [resolve_eq_mergeSort once]
  exact pairwise_mergeSort_strict (by simp [Definition.before]) (nodup_found once var)

theorem mem_vars_iff {var : VarId} :
    var ∈ index.vars ↔ ∃ definition, definition ∈ index.resolve var := by
  rw [vars, List.mem_eraseDups, List.mem_map]
  constructor
  · rintro ⟨⟨owner, definition⟩, member, rfl⟩
    exact ⟨definition, mem_resolve.mpr member⟩
  · rintro ⟨definition, member⟩
    exact ⟨(var, definition), mem_resolve.mp member, rfl⟩

theorem nodup_vars (index : DefinitionIndex) : index.vars.Nodup := by
  unfold vars
  generalize index.entries.map (·.1) = owners
  induction length : owners.length using Nat.strong_induction_on generalizing owners with
  | _ bound ih =>
      cases owners with
      | nil => exact List.nodup_nil
      | cons owner rest =>
          have shorter : (rest.filter fun other => !other == owner).length < bound := by
            have fewer := List.length_filter_le (fun other => !other == owner) rest
            rw [List.length_cons] at length
            omega
          rw [List.eraseDups_cons, List.nodup_cons, List.mem_eraseDups]
          exact ⟨by simp, ih _ shorter _ rfl⟩

end DefinitionIndex

/-- In every unit of a lowered dump the definitions of each variable are listed in order, each
once: those that some statement of the unit makes by assigning a call to it, and no others. The
index counts the variables with a definition. -/
theorem resolve_exact {dump : Dump} {program : Program} {warnings : List Warning}
    (accepted : dump.lower = .ok (program, warnings)) {unit : Package}
    (member : unit ∈ program.units) :
    ∃ nodes index, unit.allNodes? = some nodes ∧
      (program.view unit).definitionIndex? nodes = some index ∧
      (∀ var, (index.resolve var).Pairwise Definition.Precedes ∧
        ∀ definition, definition ∈ index.resolve var ↔
          (program.view unit).Sets var definition) ∧
      ∃ vars : List VarId, vars.Nodup ∧ index.size = vars.length ∧
        ∀ var, var ∈ vars ↔ ∃ definition, (program.view unit).Sets var definition := by
  obtain ⟨nodes, walked, once, _⟩ :=
    ((Dump.lowered_of_lower accepted).planted unit member).allNodes?
  have grounded : (program.view unit).arena.Grounded program.symbols.size program.types.size := by
    have same : dump.toProgram.1 = program :=
      congrArg Prod.fst (Dump.fault?_of_lower accepted).2
    rw [← same] at member ⊢
    exact ((Dump.grounded_toProgram dump).units unit member).arena
  have walkedView : (program.view unit).unit.allNodes? = some nodes := walked
  obtain ⟨index, indexed⟩ := UnitView.exists_definitionIndex? (Package.closed_allNodes walkedView)
  have targets := UnitView.nodup_targets walkedView (List.nodup_append.mp once).2.1 indexed
  have listed : ∀ var definition, definition ∈ index.resolve var ↔
      (program.view unit).Sets var definition :=
    fun var definition => UnitView.mem_resolve_iff_sets grounded walkedView indexed
  refine ⟨nodes, index, walked, indexed, fun var => ?_, index.vars, index.nodup_vars, rfl, ?_⟩
  · exact ⟨DefinitionIndex.pairwise_resolve targets var, listed var⟩
  · intro var
    rw [DefinitionIndex.mem_vars_iff]
    exact exists_congr (listed var)

namespace Dump

/-- A unit with a function that assigns a variable twice, the second time inside a literal that
returns it, and sets its named result by a bare return; and a literal at package level. -/
def retry : Dump :=
  { files := []
    types := []
    symbols :=
      [⟨"e", "Load", none, "Load", ["int", "error"]⟩, ⟨"e", "Wrap", none, "Wrap", ["error"]⟩]
    units :=
      [{ path := "m"
         files := []
         imports := []
         vars := [⟨"err", none, .local, "error", none⟩, ⟨"n", none, .local, "int", none⟩,
           ⟨"out", none, .result, "error", none⟩]
         functions :=
           [.mk ⟨"Run", none, some "Run", none, none, [], [⟨"error", some "out"⟩]⟩
              (some
                [.define [.var "n" none, .var "err" none]
                  [.call (.func "e.Load" none) [] none none] none,
                 .expr (.call (.funcLit (.mk ⟨"", none, none, none, none, [], [⟨"error", none⟩]⟩
                   (some [.assign [.var "err" none]
                       [.call (.func "e.Wrap" none) [.var "err" none] none none] none,
                     .ret [.var "err" none] none])) none) [] none none) none,
                 .cond none (.other [.var "err" none] none none)
                   [.assign [.var "out" none] [.call (.func "m.Run" none) [] none none] none]
                   none none,
                 .ret [] none])]
         globals := [.var [.blank none] [.funcLit
           (.mk ⟨"", none, none, none, none, [], [⟨"error", none⟩]⟩
             (some [.ret [.nil none] none])) none] none] }] }

namespace retry

def program : Program := retry.toProgram.1

def policy : Policy := ⟨"m", ["Wrap"]⟩

theorem accepted : retry.lower = .ok (program, retry.toProgram.2) :=
  lower_of_fault? (by decide)

theorem exists_unit : ∃ unit, program.Checks policy unit ∧ unit.path = "m" := by
  have listed : "m" ∈ program.units.toList.map (·.path) := by
    rw [program, (units_toProgram retry).2.2]
    exact List.mem_cons_self ..
  obtain ⟨unit, member, path⟩ := List.mem_map.mp listed
  refine ⟨unit, ⟨Array.mem_toList_iff.mp member, ?_⟩, path⟩
  rw [path]
  decide

theorem definitions_listed :
    ∃ unit ∈ program.units, unit.path = "m" ∧
      ∃ nodes index, unit.allNodes? = some nodes ∧
        (program.view unit).definitionIndex? nodes = some index ∧
        (∀ var, (index.resolve var).Pairwise Definition.Precedes ∧
          ∀ definition, definition ∈ index.resolve var ↔
            (program.view unit).Sets var definition) ∧
        ∃ vars : List VarId, vars.Nodup ∧ index.size = vars.length ∧
          ∀ var, var ∈ vars ↔ ∃ definition, (program.view unit).Sets var definition := by
  obtain ⟨unit, checks, path⟩ := exists_unit
  exact ⟨unit, checks.1, path, resolve_exact accepted checks.1⟩

end retry

end Dump

end ErrorWrapping
