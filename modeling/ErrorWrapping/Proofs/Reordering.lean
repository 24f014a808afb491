import ErrorWrapping.Proofs.Programs
import Mathlib.Data.List.Nodup
import Mathlib.Data.List.Perm.Basic

/-
Declarations in another order.

The walk of a unit lists the same nodes when its declarations are permuted, in another order. Each
node is a child of one node only, so each identifier is assigned to at one place, and the
definitions of a variable come out in the same order. The functions of the unit, their names and
what escapes from them are the same as well; only the order in which they are taken up differs.
-/

namespace ErrorWrapping

/-! ### Permuted lists -/

theorem exists_mapM_of_perm {α β : Type} {f : α → Option β} {xs xs' : List α} {ys : List β}
    (same : xs'.Perm xs) (collected : xs.mapM f = some ys) :
    ∃ ys', xs'.mapM f = some ys' ∧ ys'.Perm ys := by
  obtain ⟨ys', related, sameResults⟩ :=
    List.perm_comp_forall₂ same (mapM_eq_some_iff.mp collected)
  exact ⟨ys', mapM_eq_some_iff.mpr related, sameResults⟩

section Sorting

variable {α : Type} {before : α → α → Bool} {position number : α → Nat}

/-- Lists sorted by position, then by number, have no entry before one that it should follow. -/
theorem pairwise_before (before_iff : ∀ a b, before a b = true ↔
      position a < position b ∨ (position a = position b ∧ number a ≤ number b))
    (entries : List α) : (entries.mergeSort before).Pairwise fun a b => before a b = true := by
  refine List.pairwise_mergeSort ?_ ?_ entries
  · intro a b c one two
    rw [before_iff] at one two ⊢
    omega
  · intro a b
    rw [Bool.or_eq_true, before_iff, before_iff]
    omega

theorem pairwise_mergeSort_strict (before_iff : ∀ a b, before a b = true ↔
      position a < position b ∨ (position a = position b ∧ number a ≤ number b))
    {entries : List α} (once : (entries.map number).Nodup) :
    (entries.mergeSort before).Pairwise fun a b =>
      position a < position b ∨ (position a = position b ∧ number a < number b) := by
  have apart : (entries.mergeSort before).Pairwise fun a b => number a ≠ number b := by
    rw [← List.pairwise_map]
    exact (((List.mergeSort_perm entries before).map number).nodup_iff).mpr once
  refine ((pairwise_before before_iff entries).and apart).imp ?_
  intro a b sorted
  obtain ⟨ordered, different⟩ := sorted
  rw [before_iff] at ordered
  omega

/-- Sorting by position, then by number, forgets the order in which entries with different numbers
were given. -/
theorem mergeSort_eq_of_perm (position number : α → Nat)
    (before_iff : ∀ a b, before a b = true ↔
      position a < position b ∨ (position a = position b ∧ number a ≤ number b))
    {left right : List α} (apart : ∀ a ∈ left, ∀ b ∈ left, number a = number b → a = b)
    (same : left.Perm right) : left.mergeSort before = right.mergeSort before := by
  have sorted : (left.mergeSort before).Perm (right.mergeSort before) :=
    (List.mergeSort_perm left before).trans
      (same.trans (List.mergeSort_perm right before).symm)
  refine sorted.eq_of_pairwise ?_ (pairwise_before before_iff left)
    (pairwise_before before_iff right)
  intro a b inLeft inRight ahead behind
  rw [before_iff] at ahead behind
  exact apart a (List.mem_mergeSort.mp inLeft) b
    (same.mem_iff.mpr (List.mem_mergeSort.mp inRight)) (by omega)

/-- Entries whose numbers increase are sorted by position alone: sorting keeps the order in which
entries of the same position were given. -/
theorem mergeSort_eq_of_increasing (before_iff : ∀ a b, before a b = true ↔
      position a < position b ∨ (position a = position b ∧ number a ≤ number b))
    {entries : List α} (increasing : entries.Pairwise fun a b => number a < number b) :
    entries.mergeSort before = entries.mergeSort fun a b => position a ≤ position b := by
  have order : ∀ a ∈ entries.zipIdx, ∀ b ∈ entries.zipIdx,
      List.zipIdxLE (fun a b => decide (position a ≤ position b)) a b = before a.1 b.1 := by
    rintro ⟨a, i⟩ inA ⟨b, j⟩ inB
    have atA : entries[i]? = some a := List.mem_zipIdx_iff_getElem?.mp inA
    have atB : entries[j]? = some b := List.mem_zipIdx_iff_getElem?.mp inB
    obtain ⟨insideA, rfl⟩ := List.getElem?_eq_some_iff.mp atA
    obtain ⟨insideB, rfl⟩ := List.getElem?_eq_some_iff.mp atB
    have numbers := List.pairwise_iff_getElem.mp increasing
    have same : i ≤ j ↔ number entries[i] ≤ number entries[j] := by
      rcases Nat.lt_trichotomy i j with less | rfl | more
      · have := numbers i j insideA insideB less
        omega
      · simp
      · have := numbers j i insideB insideA more
        omega
    rw [Bool.eq_iff_iff, before_iff, List.zipIdxLE]
    simp only [decide_eq_true_eq, same]
    split
    · split
      · rw [decide_eq_true_eq]
        omega
      · simp only [true_iff]
        omega
    · simp only [Bool.false_eq_true, false_iff]
      omega
  calc entries.mergeSort before
      = (entries.zipIdx.map Prod.fst).mergeSort before := by rw [List.zipIdx_map_fst]
    _ = (entries.zipIdx.mergeSort
          (List.zipIdxLE fun a b => decide (position a ≤ position b))).map Prod.fst :=
        (List.map_mergeSort order).symm
    _ = entries.mergeSort fun a b => position a ≤ position b := List.mergeSort_zipIdx

/-- Lists that are related element by element stay so when they are sorted in the same way. -/
theorem forall₂_mergeSort {β : Type} {R : α → β → Prop} {le : α → α → Bool} {le' : β → β → Bool}
    (same : ∀ a a' b b', R a b → R a' b' → le a a' = le' b b') {xs : List α} {ys : List β}
    (related : List.Forall₂ R xs ys) : List.Forall₂ R (xs.mergeSort le) (ys.mergeSort le') := by
  have all : ∀ pair ∈ xs.zip ys, R pair.1 pair.2 := fun pair member =>
    List.forall₂_zip related member
  have left : (xs.zip ys).map Prod.fst = xs := List.map_fst_zip (Nat.le_of_eq related.length_eq)
  have right : (xs.zip ys).map Prod.snd = ys :=
    List.map_snd_zip (Nat.le_of_eq related.length_eq.symm)
  have first : xs.mergeSort le = ((xs.zip ys).mergeSort fun a b => le a.1 b.1).map Prod.fst := by
    rw [List.map_mergeSort (s := le) fun a _ b _ => rfl, left]
  have second : ys.mergeSort le' = ((xs.zip ys).mergeSort fun a b => le a.1 b.1).map Prod.snd := by
    rw [List.map_mergeSort (s := le') fun a inA b inB => same _ _ _ _ (all a inA) (all b inB),
      right]
  rw [first, second]
  refine List.forall₂_map_left_iff.mpr (List.forall₂_map_right_iff.mpr ?_)
  exact List.forall₂_same.mpr fun pair member => all pair (List.mem_mergeSort.mp member)

end Sorting

/-- A table filled from a list in which a key has one value does not depend on its order. -/
theorem getElem?_foldl_insert_of_perm {α κ β : Type} [BEq κ] [Hashable κ] [LawfulBEq κ]
    [LawfulHashable κ] (key : α → Option κ) (value : α → β)
    {step : Std.HashMap κ β → α → Std.HashMap κ β}
    (steps : ∀ table entry, step table entry =
      match key entry with
      | some k => table.insert k (value entry)
      | none => table)
    {left right : List α} (same : left.Perm right)
    (unique : ∀ a ∈ left, ∀ b ∈ left, ∀ k, key a = some k → key b = some k → value a = value b)
    (k : κ) : (left.foldl step ∅)[k]? = (right.foldl step ∅)[k]? := by
  have agree : ∀ {first second : List α}, first.Perm second → (∀ entry ∈ first, entry ∈ left) →
      ∀ v, (first.foldl step ∅)[k]? = some v → (second.foldl step ∅)[k]? = some v := by
    intro first second also inLeft v found
    obtain ⟨entry, member, named, rfl⟩ := exists_of_getElem?_foldl_insert key value steps found
    obtain ⟨w, stored⟩ :=
      exists_getElem?_foldl_insert key value steps (also.mem_iff.mp member) named
    obtain ⟨other, otherMember, otherNamed, rfl⟩ :=
      exists_of_getElem?_foldl_insert key value steps stored
    rw [stored, unique entry (inLeft entry member) other
      (inLeft other (also.mem_iff.mpr otherMember)) k named otherNamed]
  cases found : (left.foldl step ∅)[k]? with
  | some v => exact (agree same (fun _ member => member) v found).symm
  | none =>
      cases stored : (right.foldl step ∅)[k]? with
      | none => rfl
      | some v =>
          rw [agree same.symm (fun _ member => same.mem_iff.mpr member) v stored] at found
          cases found

/-! ### Each node is the child of one node -/

namespace Arena

variable {arena : Arena} {nodes : List NodeRef}

def childrenOf (arena : Arena) (ref : NodeRef) : List NodeRef :=
  (arena.children? ref).getD []

/-- The nodes are some roots and the children of all nodes. -/
def Spans (arena : Arena) (nodes : List NodeRef) : Prop :=
  ∃ roots, nodes.Perm (roots ++ nodes.flatMap arena.childrenOf)

theorem Spans.append {more : List NodeRef} (first : arena.Spans nodes)
    (second : arena.Spans more) : arena.Spans (nodes ++ more) := by
  obtain ⟨roots, same⟩ := first
  obtain ⟨others, alsoSame⟩ := second
  refine ⟨roots ++ others, (same.append alsoSame).trans ?_⟩
  rw [List.flatMap_append, List.append_assoc, List.append_assoc]
  exact (List.perm_append_comm_assoc _ others _).append_left roots

theorem spans_flatten {lists : List (List NodeRef)} (each : ∀ list ∈ lists, arena.Spans list) :
    arena.Spans lists.flatten := by
  induction lists with
  | nil => exact ⟨[], .refl _⟩
  | cons list rest ih =>
      refine (each list (List.mem_cons_self ..)).append (ih fun other member => ?_)
      exact each other (List.mem_cons_of_mem _ member)

theorem flatten_perm_children {children : List NodeRef} {below : List (List NodeRef)}
    (each : List.Forall₂ (fun child list =>
      list.Perm (child :: list.flatMap arena.childrenOf)) children below) :
    below.flatten.Perm (children ++ below.flatten.flatMap arena.childrenOf) := by
  induction each with
  | nil => exact .refl _
  | @cons child list rest lists first _ ih =>
      rw [List.flatten_cons, List.flatMap_append, List.cons_append]
      refine (first.append ih).trans ?_
      rw [List.cons_append]
      exact .cons _ (List.perm_append_comm_assoc _ rest _)

/-- A walk lists its root and the children of all nodes that it lists. -/
theorem walkWithin_perm {height : Nat} {ref : NodeRef}
    (walked : arena.walkWithin .whole height ref = some nodes) :
    nodes.Perm (ref :: nodes.flatMap arena.childrenOf) := by
  induction height generalizing ref nodes with
  | zero => cases walked
  | succ height ih =>
      obtain ⟨lower, children, below, same, known, collected, rfl⟩ :=
        walkWithin_eq_some (Reach.enters_whole ref) walked
      cases same
      have each := flatten_perm_children
        ((mapM_eq_some_iff.mp collected).imp fun _ _ walkedChild => ih walkedChild)
      rw [List.flatMap_cons, show arena.childrenOf ref = children by simp [childrenOf, known]]
      exact .cons _ each

theorem walk_perm {roots : List NodeRef} (walked : arena.walk .whole roots = some nodes) :
    nodes.Perm (roots ++ nodes.flatMap arena.childrenOf) := by
  obtain ⟨lists, collected, rfl⟩ := walk_eq_some_iff.mp walked
  exact flatten_perm_children
    ((mapM_eq_some_iff.mp collected).imp fun _ _ walkedRoot => walkWithin_perm walkedRoot)

theorem spans_walk {roots : List NodeRef} (walked : arena.walk .whole roots = some nodes) :
    arena.Spans nodes :=
  ⟨roots, walk_perm walked⟩

theorem Spans.nodup_children (spans : arena.Spans nodes) (once : nodes.Nodup) :
    (nodes.flatMap arena.childrenOf).Nodup := by
  obtain ⟨roots, same⟩ := spans
  exact (List.nodup_append.mp (same.nodup_iff.mp once)).2.1

end Arena

theorem Package.spans_allNodes {unit : Package} {nodes : List NodeRef}
    (walked : unit.allNodes? = some nodes) : unit.arena.Spans nodes := by
  obtain ⟨bodies, globals, found, walkedGlobals, rfl⟩ := allNodes?_eq_some walked
  refine (Arena.spans_flatten fun body member => ?_).append (Arena.spans_walk walkedGlobals)
  obtain ⟨decl, _, walkedBody⟩ := mem_of_forall₂_right (mapM_eq_some_iff.mp found) member
  obtain ⟨_, _, _, _, walkedRoots⟩ := bodyNodes?_eq_some walkedBody
  exact Arena.spans_walk walkedRoots

/-! ### Definitions -/

namespace UnitView

variable {view : UnitView} {nodes : List NodeRef} {index : DefinitionIndex}

/-- What a target defines, if anything, has it as its target. -/
theorem target_of_definition? {span : Span} {targets values : List ExprId}
    {target : ExprId × Nat} {entry : VarId × Definition}
    (made : view.definition? span targets values target = some (some entry)) :
    entry.2.target = target.1 := by
  obtain ⟨node, _, rest⟩ := Option.bind_eq_some_iff.mp made
  split at rest
  · cases rest
  · split at rest
    · cases rest
    · obtain ⟨value, _, rest⟩ := Option.bind_eq_some_iff.mp rest
      split at rest
      · cases rest
        rfl
      · cases rest

theorem targets_sublist_of_pairs {span : Span} {targets values : List ExprId}
    {pairs : List (ExprId × Nat)} {found : List (Option (VarId × Definition))}
    (made : List.Forall₂ (fun target entry =>
      view.definition? span targets values target = some entry) pairs found) :
    ((found.filterMap fun entry => entry).map fun entry => entry.2.target).Sublist
      (pairs.map (·.1)) := by
  induction made with
  | nil => exact .slnil
  | @cons target entry _ _ first _ ih =>
      cases entry with
      | none => exact ih.cons _
      | some entry =>
          simp only [List.filterMap_cons, List.map_cons, target_of_definition? first]
          exact ih.cons_cons _

theorem stmtChildren?_of_assignment {arena : Arena} {kind : StmtKind} {left right : IdRange}
    {targets values : List ExprId} (assigns : kind.assignment? = some (left, right))
    (leftListed : arena.exprList? left = some targets)
    (rightListed : arena.exprList? right = some values) :
    arena.stmtChildren? kind = some (targets.map .expr ++ values.map .expr) := by
  have leftRefs : arena.exprRefs? left = some (targets.map .expr) :=
    Option.map_eq_some_iff.mpr ⟨targets, leftListed, rfl⟩
  have rightRefs : arena.exprRefs? right = some (values.map .expr) :=
    Option.map_eq_some_iff.mpr ⟨values, rightListed, rfl⟩
  cases kind with
  | assign op targets values =>
      cases assigns
      simp [Arena.stmtChildren?, leftRefs, rightRefs]
  | varDecl names values =>
      cases assigns
      simp [Arena.stmtChildren?, leftRefs, rightRefs]
  | _ => cases assigns

/-- The identifiers that a statement defines are among its children, in their order. -/
theorem targets_sublist {node : NodeRef} {found : List (VarId × Definition)}
    (made : view.definitionsAt? node = some found) :
    ((found.map fun entry => entry.2.target).map NodeRef.expr).Sublist
      (view.arena.childrenOf node) := by
  cases node with
  | stmt id =>
      obtain ⟨stmt, known, rest⟩ := Option.bind_eq_some_iff.mp made
      cases assigns : stmt.kind.assignment? with
      | none =>
          rw [assigns] at rest
          cases rest
          exact List.nil_sublist _
      | some ranges =>
          rw [assigns] at rest
          obtain ⟨targets, leftListed, rest⟩ := Option.bind_eq_some_iff.mp rest
          obtain ⟨values, rightListed, rest⟩ := Option.bind_eq_some_iff.mp rest
          obtain ⟨entries, collected, same⟩ := Option.bind_eq_some_iff.mp rest
          cases same
          have pairs := targets_sublist_of_pairs (mapM_eq_some_iff.mp collected)
          rw [List.zipIdx_map_fst] at pairs
          have children : view.arena.childrenOf (.stmt id) =
              targets.map .expr ++ values.map .expr := by
            have listed := stmtChildren?_of_assignment assigns leftListed rightListed
            simp [Arena.childrenOf, Arena.children?, known, listed]
          rw [children]
          exact (pairs.map _).trans (List.sublist_append_left _ _)
  | expr id =>
      cases made
      exact List.nil_sublist _
  | literal id =>
      cases made
      exact List.nil_sublist _

theorem targets_sublist_children (indexed : view.definitionIndex? nodes = some index) :
    ((index.entries.map fun entry => entry.2.target).map NodeRef.expr).Sublist
      (nodes.flatMap view.arena.childrenOf) := by
  obtain ⟨lists, collected, same⟩ := Option.bind_eq_some_iff.mp indexed
  cases same
  dsimp only
  have related := mapM_eq_some_iff.mp collected
  clear collected indexed
  induction related with
  | nil => exact .slnil
  | cons made _ ih =>
      rw [List.flatten_cons, List.map_append, List.map_append, List.flatMap_cons]
      exact (targets_sublist made).append ih

theorem nodup_targets (walked : view.unit.allNodes? = some nodes) (once : nodes.Nodup)
    (indexed : view.definitionIndex? nodes = some index) :
    (index.entries.map fun entry => entry.2.target).Nodup := by
  have children := (Package.spans_allNodes walked).nodup_children once
  exact (children.sublist (targets_sublist_children indexed)).of_map _

end UnitView

theorem DefinitionIndex.resolve_eq_of_perm {left right : DefinitionIndex}
    (same : left.entries.Perm right.entries)
    (once : (left.entries.map fun entry => entry.2.target).Nodup) (var : VarId) :
    left.resolve var = right.resolve var := by
  unfold resolve
  refine congrArg Sorted.dropRepeats (mergeSort_eq_of_perm (·.span.start) (·.target.index)
    (by simp [Definition.before]) ?_ (same.filterMap _))
  intro first inFirst second inSecond sameTarget
  have firstOwned : (var, first) ∈ left.entries :=
    mem_resolve.mp ((Sorted.mem_dropRepeats _).mpr (List.mem_mergeSort.mpr inFirst))
  have secondOwned : (var, second) ∈ left.entries :=
    mem_resolve.mp ((Sorted.mem_dropRepeats _).mpr (List.mem_mergeSort.mpr inSecond))
  have equal := List.inj_on_of_nodup_map once firstOwned secondOwned
    (congrArg ExprId.mk sameTarget)
  exact congrArg Prod.snd equal

/-! ### Escapes -/

namespace UnitView

variable {view : UnitView} {nodes : List NodeRef} {index : DefinitionIndex}

section

variable {left right : DefinitionIndex} (same : ∀ var, left.resolve var = right.resolve var)

include same

theorem varEscapes?_congr : view.varEscapes? left = view.varEscapes? right := by
  funext site var
  simp only [varEscapes?, same]

theorem exprEscapes?_congr : view.exprEscapes? left = view.exprEscapes? right := by
  funext site id
  simp only [exprEscapes?, varEscapes?_congr same]

theorem bareEscapes?_congr : view.bareEscapes? left = view.bareEscapes? right := by
  funext function site
  simp only [bareEscapes?, varEscapes?_congr same]

theorem escapes?_congr : view.escapes? left = view.escapes? right := by
  funext function
  simp only [escapes?, bareEscapes?_congr same, exprEscapes?_congr same]

theorem subject?_congr : view.subject? left = view.subject? right := by
  funext entry
  simp only [subject?, escapes?_congr same]

end

/-! ### Functions of a unit, each once -/

theorem literals_sublist (outer : String) (nodes : List NodeRef) :
    (((nameLiterals outer nodes).map (·.1)).map NodeRef.literal).Sublist nodes := by
  rw [nameLiterals, List.map_map (g := Prod.fst)]
  -- Numbering the literals does not change which they are.
  change ((List.map Prod.fst (List.zipIdx _)).map NodeRef.literal).Sublist nodes
  rw [List.zipIdx_map_fst]
  induction nodes with
  | nil => exact .slnil
  | cons node rest ih =>
      cases node with
      | literal id => exact ih.cons_cons _
      | expr id => exact ih.cons _
      | stmt id => exact ih.cons _

theorem declOrder?_eq_some {decl : FuncId} {entries : List (FuncId × String)}
    (made : view.declOrder? decl = some entries) :
    ∃ name body, view.unit.bodyNodes? decl = some body ∧
      entries = (decl, name) :: nameLiterals name body := by
  obtain ⟨function, found, rest⟩ := Option.bind_eq_some_iff.mp made
  obtain ⟨roots, listed, rest⟩ := Option.bind_eq_some_iff.mp rest
  obtain ⟨body, walked, same⟩ := Option.bind_eq_some_iff.mp rest
  cases same
  refine ⟨function.name, body, ?_, rfl⟩
  exact Option.bind_eq_some_iff.mpr ⟨function, found, Option.bind_eq_some_iff.mpr
    ⟨roots, listed, walked⟩⟩

/-- The declared functions and their literals are nodes of the unit, each listed once. -/
theorem exists_sublist_of_declared {decls : List FuncId}
    {declared : List (List (FuncId × String))} {bodies : List (List NodeRef)}
    (listed : decls.mapM view.declOrder? = some declared)
    (found : decls.mapM view.unit.bodyNodes? = some bodies) :
    ∃ middle, ((declared.flatten.map (·.1)).map NodeRef.literal).Sublist middle ∧
      middle.Perm (decls.map .literal ++ bodies.flatten) := by
  induction decls generalizing declared bodies with
  | nil =>
      cases listed
      cases found
      exact ⟨[], .slnil, .refl _⟩
  | cons decl rest ih =>
      cases mapM_eq_some_iff.mp listed with
      | @cons _ entries _ later made others =>
          cases mapM_eq_some_iff.mp found with
          | @cons _ body _ moreBodies walked walkedOthers =>
              obtain ⟨name, body', walked', rfl⟩ := declOrder?_eq_some made
              cases walked.symm.trans walked'
              obtain ⟨middle, sublist, same⟩ :=
                ih (mapM_eq_some_iff.mpr others) (mapM_eq_some_iff.mpr walkedOthers)
              refine ⟨.literal decl :: body ++ middle, ?_, ?_⟩
              · simp only [List.flatten_cons, List.map_append, List.map_cons]
                exact ((literals_sublist name body).cons_cons _).append sublist
              · simp only [List.flatten_cons, List.map_cons, List.cons_append]
                refine .cons _ ((same.append_left body).trans ?_)
                exact List.perm_append_comm_assoc body _ _

theorem nodup_functionOrder? (walked : view.unit.allNodes? = some nodes)
    (once : (view.unit.decls.map NodeRef.literal ++ nodes).Nodup)
    {order : List (FuncId × String)} (listed : view.functionOrder? = some order) :
    (order.map (·.1)).Nodup := by
  obtain ⟨bodies, globals, found, walkedGlobals, rfl⟩ := Package.allNodes?_eq_some walked
  obtain ⟨declared, all, rest⟩ := Option.bind_eq_some_iff.mp listed
  obtain ⟨globals', alsoWalked, same⟩ := Option.bind_eq_some_iff.mp rest
  cases same
  cases walkedGlobals.symm.trans alsoWalked
  obtain ⟨middle, sublist, same⟩ := exists_sublist_of_declared all found
  have whole : (middle ++ globals).Nodup := by
    rw [← List.append_assoc] at once
    exact (same.append_right globals).nodup_iff.mpr once
  have refs : (((declared.flatten ++ nameLiterals "glob" globals).map (·.1)).map
      NodeRef.literal).Sublist (middle ++ globals) := by
    rw [List.map_append, List.map_append]
    exact sublist.append (literals_sublist "glob" globals)
  exact (whole.sublist refs).of_map _

/-! ### Workloads -/

end UnitView

/-- The program with the declarations of one unit in this order. -/
def Program.withDecls (program : Program) (id : UnitId) (decls : List FuncId) : Program :=
  { program with units := program.units.modify id.index fun unit => { unit with decls } }

/-- Two workloads with the same functions, taken up in another order. -/
structure Workload.Like (left right : Workload) : Prop where
  order : right.order.Perm left.order
  subjects : ∀ func : FuncId, right.subjects[func]? = left.subjects[func]?
  declared : ∀ id : SymbolId, right.declared[id]? = left.declared[id]?

namespace UnitView

variable {view : UnitView} {nodes : List NodeRef} {index : DefinitionIndex}

/-- The unit with its declarations in this order, in the program with it. -/
def withDecls (view : UnitView) (decls : List FuncId) : UnitView :=
  ⟨view.program.withDecls view.unit.id decls, { view.unit with decls }⟩

variable {decls : List FuncId}

theorem exists_allNodes?_of_perm (same : decls.Perm view.unit.decls)
    (walked : view.unit.allNodes? = some nodes) :
    ∃ nodes', (view.withDecls decls).unit.allNodes? = some nodes' ∧ nodes'.Perm nodes := by
  obtain ⟨bodies, globals, found, walkedGlobals, rfl⟩ := Package.allNodes?_eq_some walked
  obtain ⟨bodies', found', sameBodies⟩ := exists_mapM_of_perm same found
  refine ⟨bodies'.flatten ++ globals, ?_, sameBodies.flatten.append_right _⟩
  exact Option.bind_eq_some_iff.mpr ⟨bodies', found', Option.bind_eq_some_iff.mpr
    ⟨globals, walkedGlobals, rfl⟩⟩

theorem exists_definitionIndex?_of_perm (decls : List FuncId) {nodes' : List NodeRef}
    (same : nodes'.Perm nodes) (indexed : view.definitionIndex? nodes = some index) :
    ∃ index', (view.withDecls decls).definitionIndex? nodes' = some index' ∧
      index'.entries.Perm index.entries := by
  obtain ⟨lists, collected, made⟩ := Option.bind_eq_some_iff.mp indexed
  cases made
  obtain ⟨lists', collected', sameLists⟩ := exists_mapM_of_perm same collected
  exact ⟨⟨lists'.flatten⟩, Option.bind_eq_some_iff.mpr ⟨lists', collected', rfl⟩,
    sameLists.flatten⟩

theorem exists_functionOrder?_of_perm (same : decls.Perm view.unit.decls)
    {order : List (FuncId × String)} (listed : view.functionOrder? = some order) :
    ∃ order', (view.withDecls decls).functionOrder? = some order' ∧ order'.Perm order := by
  obtain ⟨declared, all, rest⟩ := Option.bind_eq_some_iff.mp listed
  obtain ⟨globals, walkedGlobals, made⟩ := Option.bind_eq_some_iff.mp rest
  cases made
  obtain ⟨declared', all', sameDeclared⟩ := exists_mapM_of_perm same all
  refine ⟨declared'.flatten ++ nameLiterals "glob" globals, ?_,
    sameDeclared.flatten.append_right _⟩
  exact Option.bind_eq_some_iff.mpr ⟨declared', all', Option.bind_eq_some_iff.mpr
    ⟨globals, walkedGlobals, rfl⟩⟩

theorem func_of_subject? {entry : FuncId × String} {subject : Subject}
    (made : view.subject? index entry = some subject) : subject.func = entry.1 := by
  obtain ⟨function, _, rest⟩ := Option.bind_eq_some_iff.mp made
  dsimp only at rest
  split at rest
  · obtain ⟨escapes, _, same⟩ := Option.bind_eq_some_iff.mp rest
    cases same
    rfl
  · cases rest
    rfl

/-- With declared functions told apart by their symbols, the workload of a unit does not depend on
the order of its declarations, but for the order in which functions are taken up. -/
theorem exists_workload?_of_perm (same : decls.Perm view.unit.decls)
    (walked : view.unit.allNodes? = some nodes)
    (once : (view.unit.decls.map NodeRef.literal ++ nodes).Nodup)
    (indexed : view.definitionIndex? nodes = some index)
    (apart : ∀ left ∈ view.unit.decls, ∀ right ∈ view.unit.decls,
      view.unit.symbolOf? left = view.unit.symbolOf? right → left = right)
    {work : Workload} (made : view.workload? index = some work) :
    ∃ nodes' index' work', (view.withDecls decls).unit.allNodes? = some nodes' ∧
      (view.withDecls decls).definitionIndex? nodes' = some index' ∧
      (view.withDecls decls).workload? index' = some work' ∧ work.Like work' := by
  obtain ⟨nodes', walked', sameNodes⟩ := exists_allNodes?_of_perm same walked
  obtain ⟨index', indexed', sameEntries⟩ :=
    exists_definitionIndex?_of_perm decls sameNodes indexed
  have resolved : ∀ var, index.resolve var = index'.resolve var :=
    DefinitionIndex.resolve_eq_of_perm sameEntries.symm
      (nodup_targets walked (List.nodup_append.mp once).2.1 indexed)
  obtain ⟨order, listed, rest⟩ := Option.bind_eq_some_iff.mp made
  obtain ⟨subjects, all, rest⟩ := Option.bind_eq_some_iff.mp rest
  obtain ⟨declared, also, result⟩ := Option.bind_eq_some_iff.mp rest
  cases result
  obtain ⟨order', listed', sameOrder⟩ := exists_functionOrder?_of_perm same listed
  have subject? : (view.withDecls decls).subject? index' = view.subject? index :=
    (subject?_congr resolved).symm
  obtain ⟨subjects', all', sameSubjects⟩ := exists_mapM_of_perm sameOrder all
  obtain ⟨declared', also', sameDeclared⟩ := exists_mapM_of_perm same also
  rw [← subject?] at all'
  refine ⟨nodes', index', _, walked', indexed', Option.bind_eq_some_iff.mpr ⟨order', listed',
    Option.bind_eq_some_iff.mpr ⟨subjects', all', Option.bind_eq_some_iff.mpr
      ⟨declared', also', rfl⟩⟩⟩, sameOrder.map _, fun func => ?_, fun id => ?_⟩
  · refine getElem?_foldl_insert_of_perm (fun subject : Subject => some subject.func) id
      (by intro _ _; rfl) sameSubjects ?_ func
    -- Each function is listed once, so two subjects of one function are the same.
    intro first inFirst second inSecond _ named alsoNamed
    obtain ⟨entry, member, madeFirst⟩ :=
      mem_of_forall₂_right (mapM_eq_some_iff.mp all) (sameSubjects.mem_iff.mp inFirst)
    obtain ⟨other, alsoMember, madeSecond⟩ :=
      mem_of_forall₂_right (mapM_eq_some_iff.mp all) (sameSubjects.mem_iff.mp inSecond)
    have sameFunc : entry.1 = other.1 := by
      rw [← func_of_subject? madeFirst, ← func_of_subject? madeSecond]
      exact Option.some.inj (named.trans alsoNamed.symm)
    cases List.inj_on_of_nodup_map (nodup_functionOrder? walked once listed) member alsoMember
      sameFunc
    exact Option.some.inj (madeFirst.symm.trans madeSecond)
  · refine getElem?_foldl_insert_of_perm (fun entry : FuncId × Option SymbolId => entry.2) (·.1)
      (by rintro _ ⟨_, _ | _⟩ <;> rfl) sameDeclared ?_ id
    have symbolOf : ∀ entry ∈ declared', entry.1 ∈ view.unit.decls ∧
        view.unit.symbolOf? entry.1 = entry.2 := by
      intro entry member
      obtain ⟨decl, inDecls, madeHere⟩ :=
        mem_of_forall₂_right (mapM_eq_some_iff.mp also) (sameDeclared.mem_iff.mp member)
      obtain ⟨function, found, result⟩ := Option.bind_eq_some_iff.mp madeHere
      cases result
      refine ⟨inDecls, ?_⟩
      rw [Package.symbolOf?, show view.unit.arena.function? decl = some function from found]
      rfl
    intro first inFirst second inSecond _ named alsoNamed
    obtain ⟨isDecl, symbol⟩ := symbolOf first inFirst
    obtain ⟨alsoDecl, alsoSymbol⟩ := symbolOf second inSecond
    refine apart _ isDecl _ alsoDecl ?_
    rw [symbol, alsoSymbol, named, alsoNamed]

end UnitView

end ErrorWrapping
