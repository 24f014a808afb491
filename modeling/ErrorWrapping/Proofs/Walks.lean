import ErrorWrapping.Tree.Walk
import Mathlib.Data.List.Forall2
import Mathlib.Logic.Relation

/-
What a walk lists.

A walk that succeeds lists exactly the nodes that can be reached step by step from its roots. The
allowance for its height does not matter once it is enough, and a walk that passes over literals
succeeds when the one that enters them does.
-/

namespace ErrorWrapping

/-! ### Traversals -/

/-- A traversal succeeds exactly when it does so at every element. -/
theorem mapM_eq_some_iff {α β : Type} {f : α → Option β} {xs : List α} {ys : List β} :
    xs.mapM f = some ys ↔ List.Forall₂ (fun x y => f x = some y) xs ys := by
  induction xs generalizing ys with
  | nil =>
      rw [List.mapM_nil]
      constructor
      · intro same
        cases same
        exact .nil
      · intro related
        cases related
        rfl
  | cons x xs ih =>
      rw [List.mapM_cons]
      constructor
      · intro same
        cases first : f x with
        | none => simp [first] at same
        | some y =>
            cases later : xs.mapM f with
            | none => simp [first, later] at same
            | some rest =>
                simp only [first, later, Option.bind_eq_bind, Option.bind_some, Option.pure_def,
                  Option.some.injEq] at same
                subst same
                exact .cons first (ih.mp later)
      · intro related
        cases related with
        | cons first later => simp [first, ih.mpr later]

theorem mapM_cons_of_some {α β : Type} {f : α → Option β} {x : α} {y : β} {xs : List α}
    {ys : List β} (first : f x = some y) (rest : xs.mapM f = some ys) :
    (x :: xs).mapM f = some (y :: ys) :=
  mapM_eq_some_iff.mpr (.cons first (mapM_eq_some_iff.mp rest))

theorem optionMapM_of_some {α β : Type} {f : α → Option β} {x : α} {y : β}
    (found : f x = some y) : (some x).mapM f = some (some y) :=
  Option.map_eq_some_iff.mpr ⟨y, found, rfl⟩

theorem exists_mapM_eq_some {α β : Type} {f : α → Option β} {xs : List α}
    (defined : ∀ x ∈ xs, ∃ y, f x = some y) : ∃ ys, xs.mapM f = some ys := by
  induction xs with
  | nil => exact ⟨[], rfl⟩
  | cons x xs ih =>
      obtain ⟨y, first⟩ := defined x (List.mem_cons_self ..)
      obtain ⟨ys, later⟩ := ih fun other member => defined other (List.mem_cons_of_mem _ member)
      exact ⟨y :: ys, mapM_cons_of_some first later⟩

theorem mem_of_forall₂_left {α β : Type} {R : α → β → Prop} {xs : List α} {ys : List β}
    (related : List.Forall₂ R xs ys) {x : α} (member : x ∈ xs) : ∃ y ∈ ys, R x y := by
  induction related with
  | nil => cases member
  | cons head _ ih =>
      rcases List.mem_cons.mp member with rfl | later
      · exact ⟨_, List.mem_cons_self .., head⟩
      · obtain ⟨y, inTail, holds⟩ := ih later
        exact ⟨y, List.mem_cons_of_mem _ inTail, holds⟩

theorem mem_of_forall₂_right {α β : Type} {R : α → β → Prop} {xs : List α} {ys : List β}
    (related : List.Forall₂ R xs ys) {y : β} (member : y ∈ ys) : ∃ x ∈ xs, R x y := by
  obtain ⟨x, inList, holds⟩ := mem_of_forall₂_left related.flip member
  exact ⟨x, inList, holds⟩

theorem rel_of_forall₂ {α β : Type} {R : α → β → Prop} {xs : List α} {ys : List β}
    (all : List.Forall₂ R xs ys) (index : Nat) : Option.Rel R xs[index]? ys[index]? := by
  induction all generalizing index with
  | nil => exact .none
  | cons first _ ih =>
      cases index with
      | zero => exact .some first
      | succ index => exact ih index

theorem exists_getElem?_of_forall₂ {α β : Type} {R : α → β → Prop} {xs : List α} {ys : List β}
    (all : List.Forall₂ R xs ys) {index : Nat} {x : α} (found : xs[index]? = some x) :
    ∃ y, ys[index]? = some y ∧ R x y := by
  obtain ⟨inside, rfl⟩ := List.getElem?_eq_some_iff.mp found
  have also : index < ys.length := all.length_eq ▸ inside
  exact ⟨ys[index], List.getElem?_eq_getElem also, all.get inside also⟩

theorem forall₂_trans {α β γ : Type} {R : α → β → Prop} {S : β → γ → Prop} {T : α → γ → Prop}
    {xs : List α} {ys : List β} {zs : List γ} (one : List.Forall₂ R xs ys)
    (two : List.Forall₂ S ys zs) (join : ∀ x y z, R x y → S y z → T x z) :
    List.Forall₂ T xs zs := by
  induction one generalizing zs with
  | nil =>
      cases two
      exact .nil
  | cons first _ ih =>
      cases two with
      | cons second rest => exact .cons (join _ _ _ first second) (ih rest)

/-- Two lists that go on with the same thing at the left. -/
theorem forall₂_append_const {α β : Type} {R : α → β → Prop} {xs : List α} {ys more : List β}
    {x : α} (all : List.Forall₂ R (xs ++ more.map fun _ => x) (ys ++ more)) :
    List.Forall₂ R xs ys ∧ ∀ y ∈ more, R x y := by
  have length := all.length_eq
  simp only [List.length_append, List.length_map, Nat.add_right_cancel_iff] at length
  have first := List.forall₂_take_append _ _ _ all
  have second := List.forall₂_drop_append _ _ _ all
  rw [List.take_left' length] at first
  rw [List.drop_left' length] at second
  refine ⟨first, fun y member => ?_⟩
  obtain ⟨_, isConst, related⟩ := mem_of_forall₂_right second member
  obtain ⟨_, _, rfl⟩ := List.mem_map.mp isConst
  exact related

theorem forall₂_zipIdx {α β : Type} {R : α → β → Prop} {xs : List α} {ys : List β}
    (all : List.Forall₂ R xs ys) : List.Forall₂ (fun x y => R x.1 y) xs.zipIdx ys := by
  rw [← List.zipIdx_map_fst 0 xs] at all
  exact List.forall₂_map_left_iff.mp all

/-- What a traversal makes of the elements of a list is related to what they are related to. -/
theorem forall₂_of_mapM {α β γ : Type} {f : α → Option β} {R : α → γ → Prop} {S : β → γ → Prop}
    {xs : List α} {ys : List β} {zs : List γ} (collected : xs.mapM f = some ys)
    (related : List.Forall₂ R xs zs) (makes : ∀ x y z, f x = some y → R x z → S y z) :
    List.Forall₂ S ys zs :=
  forall₂_trans (mapM_eq_some_iff.mp collected).flip related fun y x z => makes x y z

theorem exists_mapM_flatten {α β : Type} {f : α → Option (List β)} {xss : List (List α)}
    {ys : List (List β)} (collected : xss.flatten.mapM f = some ys) :
    ∃ lists, List.Forall₂ (fun xs list => ∃ found, xs.mapM f = some found ∧ found.flatten = list)
      xss lists ∧ lists.flatten = ys.flatten := by
  induction xss generalizing ys with
  | nil =>
      cases collected
      exact ⟨[], .nil, rfl⟩
  | cons xs rest ih =>
      rw [List.flatten_cons, List.mapM_append] at collected
      obtain ⟨first, foundFirst, later⟩ := Option.bind_eq_some_iff.mp collected
      obtain ⟨second, foundSecond, same⟩ := Option.bind_eq_some_iff.mp later
      cases same
      obtain ⟨lists, all, joined⟩ := ih foundSecond
      exact ⟨first.flatten :: lists, .cons ⟨first, foundFirst, rfl⟩ all, by simp [joined]⟩

theorem mem_flatten_of_mapM {α β : Type} {f : α → Option (List β)} {xs : List α}
    {ys : List (List β)} (collected : xs.mapM f = some ys) {b : β} :
    b ∈ ys.flatten ↔ ∃ x ∈ xs, ∃ found, f x = some found ∧ b ∈ found := by
  have related := mapM_eq_some_iff.mp collected
  rw [List.mem_flatten]
  constructor
  · rintro ⟨found, inLists, member⟩
    obtain ⟨x, inList, same⟩ := mem_of_forall₂_right related inLists
    exact ⟨x, inList, found, same, member⟩
  · rintro ⟨x, inList, found, same, member⟩
    obtain ⟨found', inLists, same'⟩ := mem_of_forall₂_left related inList
    cases same.symm.trans same'
    exact ⟨found, inLists, member⟩

namespace Arena

/-! ### Steps -/

/-- Whether a walk goes on to a node. -/
def Reach.Enters : Reach → NodeRef → Prop
  | .own, .literal _ => False
  | _, _ => True

theorem Reach.enters_whole (ref : NodeRef) : Reach.whole.Enters ref := trivial

/-- A step of a walk, from a node to one of its children. -/
def Step (arena : Arena) (reach : Reach) (parent child : NodeRef) : Prop :=
  ∃ children, arena.children? parent = some children ∧ child ∈ children ∧ reach.Enters child

/-- A node met by a walk from one of several roots. -/
def Met (arena : Arena) (reach : Reach) (roots : List NodeRef) (ref : NodeRef) : Prop :=
  ∃ root ∈ roots, reach.Enters root ∧ Relation.ReflTransGen (arena.Step reach) root ref

variable {arena : Arena} {reach : Reach} {height : Nat} {ref : NodeRef} {nodes : List NodeRef}

theorem walkWithin_of_not_enters (passed : ¬ reach.Enters ref) :
    arena.walkWithin reach (height + 1) ref = some [] := by
  cases reach with
  | whole => exact absurd trivial passed
  | own =>
      cases ref with
      | expr id => exact absurd trivial passed
      | stmt id => exact absurd trivial passed
      | literal id => rfl

theorem walkWithin_of_enters (entered : reach.Enters ref) :
    arena.walkWithin reach (height + 1) ref =
      (arena.children? ref).bind fun children =>
        (children.mapM (arena.walkWithin reach height)).map fun below => ref :: below.flatten := by
  have opened : arena.walkWithin reach (height + 1) ref = (do
      let children ← arena.children? ref
      let below ← children.mapM (arena.walkWithin reach height)
      return ref :: below.flatten) := by
    cases reach with
    | whole => rfl
    | own =>
        cases ref with
        | expr id => rfl
        | stmt id => rfl
        | literal id => exact False.elim entered
  rw [opened]
  cases arena.children? ref with
  | none => rfl
  | some children =>
      simp only [Option.bind_eq_bind, Option.bind_some]
      cases children.mapM (arena.walkWithin reach height) <;> rfl

theorem walkWithin_eq_some (entered : reach.Enters ref)
    (walked : arena.walkWithin reach height ref = some nodes) :
    ∃ lower children below, height = lower + 1 ∧ arena.children? ref = some children ∧
      children.mapM (arena.walkWithin reach lower) = some below ∧ nodes = ref :: below.flatten := by
  cases height with
  | zero => cases walked
  | succ lower =>
      rw [walkWithin_of_enters entered] at walked
      obtain ⟨children, known, rest⟩ := Option.bind_eq_some_iff.mp walked
      obtain ⟨below, collected, same⟩ := Option.map_eq_some_iff.mp rest
      exact ⟨lower, children, below, rfl, known, collected, same.symm⟩

/-- A walk lists what can be reached from its root. -/
theorem mem_walkWithin_iff (walked : arena.walkWithin reach height ref = some nodes)
    {node : NodeRef} :
    node ∈ nodes ↔ reach.Enters ref ∧ Relation.ReflTransGen (arena.Step reach) ref node := by
  -- A path from the root is empty or begins with a step to a child, which is walked one lower.
  induction height generalizing ref nodes with
  | zero => cases walked
  | succ height ih =>
      by_cases entered : reach.Enters ref
      · obtain ⟨lower, children, below, same, known, collected, rfl⟩ :=
          walkWithin_eq_some entered walked
        cases same
        rw [List.mem_cons, mem_flatten_of_mapM collected]
        constructor
        · rintro (rfl | ⟨child, inChildren, found, below, member⟩)
          · exact ⟨entered, .refl⟩
          · obtain ⟨childEntered, path⟩ := (ih below).mp member
            exact ⟨entered, .head ⟨children, known, inChildren, childEntered⟩ path⟩
        · rintro ⟨_, path⟩
          rcases Relation.ReflTransGen.cases_head path with same | ⟨child, first, rest⟩
          · exact Or.inl same.symm
          · obtain ⟨children', known', inChildren, childEntered⟩ := first
            cases known.symm.trans known'
            obtain ⟨found, _, walkedChild⟩ :=
              mem_of_forall₂_left (mapM_eq_some_iff.mp collected) inChildren
            exact Or.inr ⟨child, inChildren, found, walkedChild,
              (ih walkedChild).mpr ⟨childEntered, rest⟩⟩
      · rw [walkWithin_of_not_enters entered] at walked
        cases walked
        constructor
        · intro impossible
          cases impossible
        · intro impossible
          exact absurd impossible.1 entered

theorem walk_eq_some_iff {roots : List NodeRef} :
    arena.walk reach roots = some nodes ↔
      ∃ lists, roots.mapM (arena.walkWithin reach arena.height) = some lists ∧
        lists.flatten = nodes := by
  rw [walk, Option.map_eq_some_iff]

theorem mem_walk_iff {roots : List NodeRef} (walked : arena.walk reach roots = some nodes)
    {node : NodeRef} : node ∈ nodes ↔ arena.Met reach roots node := by
  obtain ⟨lists, collected, rfl⟩ := walk_eq_some_iff.mp walked
  rw [mem_flatten_of_mapM collected]
  constructor
  · rintro ⟨root, inRoots, found, walkedRoot, member⟩
    obtain ⟨entered, path⟩ := (mem_walkWithin_iff walkedRoot).mp member
    exact ⟨root, inRoots, entered, path⟩
  · rintro ⟨root, inRoots, entered, path⟩
    obtain ⟨found, _, walkedRoot⟩ := mem_of_forall₂_left (mapM_eq_some_iff.mp collected) inRoots
    exact ⟨root, inRoots, found, walkedRoot, (mem_walkWithin_iff walkedRoot).mpr ⟨entered, path⟩⟩

/-! ### Walks that succeed -/

theorem walkWithin_succ (walked : arena.walkWithin reach height ref = some nodes) :
    arena.walkWithin reach (height + 1) ref = some nodes := by
  induction height generalizing ref nodes with
  | zero => cases walked
  | succ height ih =>
      by_cases entered : reach.Enters ref
      · obtain ⟨lower, children, below, same, known, collected, rfl⟩ :=
          walkWithin_eq_some entered walked
        cases same
        have higher : children.mapM (arena.walkWithin reach (height + 1)) = some below :=
          mapM_eq_some_iff.mpr ((mapM_eq_some_iff.mp collected).imp fun _ _ walkedChild =>
            ih walkedChild)
        rw [walkWithin_of_enters entered, known, Option.bind_some, higher, Option.map_some]
      · rw [walkWithin_of_not_enters entered] at walked ⊢
        exact walked

theorem walkWithin_mono {higher : Nat} (enough : height ≤ higher)
    (walked : arena.walkWithin reach height ref = some nodes) :
    arena.walkWithin reach higher ref = some nodes := by
  induction enough with
  | refl => exact walked
  | step _ ih => exact walkWithin_succ ih

/-- Passing over literals needs nothing that entering them does not. -/
theorem exists_walkWithin_own (walked : arena.walkWithin .whole height ref = some nodes) :
    ∃ own, arena.walkWithin .own height ref = some own := by
  induction height generalizing ref nodes with
  | zero => cases walked
  | succ height ih =>
      by_cases entered : Reach.own.Enters ref
      · obtain ⟨lower, children, below, same, known, collected, rfl⟩ :=
          walkWithin_eq_some (Reach.enters_whole ref) walked
        cases same
        have defined : ∀ child ∈ children, ∃ found,
            arena.walkWithin .own height child = some found := by
          intro child inChildren
          obtain ⟨found, _, walkedChild⟩ :=
            mem_of_forall₂_left (mapM_eq_some_iff.mp collected) inChildren
          exact ih walkedChild
        obtain ⟨lists, all⟩ := exists_mapM_eq_some defined
        refine ⟨ref :: lists.flatten, ?_⟩
        rw [walkWithin_of_enters entered, known, Option.bind_some, all, Option.map_some]
      · exact ⟨[], walkWithin_of_not_enters entered⟩

theorem exists_walk_own {roots : List NodeRef} (walked : arena.walk .whole roots = some nodes) :
    ∃ own, arena.walk .own roots = some own := by
  obtain ⟨lists, collected, _⟩ := walk_eq_some_iff.mp walked
  have defined : ∀ root ∈ roots, ∃ found,
      arena.walkWithin .own arena.height root = some found := by
    intro root inRoots
    obtain ⟨found, _, walkedRoot⟩ := mem_of_forall₂_left (mapM_eq_some_iff.mp collected) inRoots
    exact exists_walkWithin_own walkedRoot
  obtain ⟨own, all⟩ := exists_mapM_eq_some defined
  exact ⟨own.flatten, walk_eq_some_iff.mpr ⟨own, all, rfl⟩⟩

/-- A list of nodes that holds the children of each of its nodes. -/
def Closed (arena : Arena) (nodes : List NodeRef) : Prop :=
  ∀ node ∈ nodes, ∃ children, arena.children? node = some children ∧
    ∀ child ∈ children, child ∈ nodes

/-- Below every node that a walk lists, the walk succeeds and lists a part of it. -/
theorem exists_walkWithin_of_mem (walked : arena.walkWithin .whole height ref = some nodes)
    {node : NodeRef} (member : node ∈ nodes) :
    ∃ lower found, lower ≤ height ∧ arena.walkWithin .whole lower node = some found ∧
      found.Sublist nodes := by
  induction height generalizing ref nodes with
  | zero => cases walked
  | succ height ih =>
      obtain ⟨lower, children, below, same, known, collected, rfl⟩ :=
        walkWithin_eq_some (Reach.enters_whole ref) walked
      cases same
      rcases List.mem_cons.mp member with rfl | deeper
      · exact ⟨height + 1, _, Nat.le_refl _, walked, .refl _⟩
      · obtain ⟨list, inBelow, inList⟩ := List.mem_flatten.mp deeper
        obtain ⟨child, inChildren, walkedChild⟩ :=
          mem_of_forall₂_right (mapM_eq_some_iff.mp collected) inBelow
        obtain ⟨lower, inner, bound, walkedNode, part⟩ := ih walkedChild inList
        exact ⟨lower, inner, Nat.le_succ_of_le bound, walkedNode,
          (part.trans (List.sublist_flatten_of_mem inBelow)).cons ref⟩

theorem exists_walk_of_mem {roots : List NodeRef} (walked : arena.walk .whole roots = some nodes)
    {node : NodeRef} (member : node ∈ nodes) :
    ∃ children found, arena.children? node = some children ∧
      arena.walk .whole children = some found ∧ found.Sublist nodes := by
  obtain ⟨lists, collected, rfl⟩ := walk_eq_some_iff.mp walked
  obtain ⟨list, inLists, inList⟩ := List.mem_flatten.mp member
  obtain ⟨root, inRoots, walkedRoot⟩ :=
    mem_of_forall₂_right (mapM_eq_some_iff.mp collected) inLists
  obtain ⟨height, inner, bound, walkedNode, part⟩ := exists_walkWithin_of_mem walkedRoot inList
  obtain ⟨lower, children, below, same, known, lowerCollected, rfl⟩ :=
    walkWithin_eq_some (Reach.enters_whole node) walkedNode
  have raised : children.mapM (arena.walkWithin .whole arena.height) = some below :=
    mapM_eq_some_iff.mpr ((mapM_eq_some_iff.mp lowerCollected).imp fun _ _ walkedChild =>
      walkWithin_mono (by omega) walkedChild)
  refine ⟨children, below.flatten, known, walk_eq_some_iff.mpr ⟨below, raised, rfl⟩, ?_⟩
  exact ((List.sublist_cons_self node _).trans part).trans (List.sublist_flatten_of_mem inLists)

theorem mem_walk_of_mem_roots {roots : List NodeRef}
    (walked : arena.walk .whole roots = some nodes) {root : NodeRef} (member : root ∈ roots) :
    root ∈ nodes :=
  (mem_walk_iff walked).mpr ⟨root, member, Reach.enters_whole root, .refl⟩

theorem closed_of_walk {roots : List NodeRef} (walked : arena.walk .whole roots = some nodes) :
    arena.Closed nodes := by
  intro node member
  obtain ⟨children, found, known, walkedChildren, inside⟩ := exists_walk_of_mem walked member
  refine ⟨children, known, fun child inChildren => inside.subset ?_⟩
  exact mem_walk_of_mem_roots walkedChildren inChildren

theorem Met.whole_of_own {roots : List NodeRef} {node : NodeRef} (met : arena.Met .own roots node) :
    arena.Met .whole roots node := by
  obtain ⟨root, inRoots, _, path⟩ := met
  have widen : ∀ parent child, arena.Step .own parent child → arena.Step .whole parent child := by
    rintro parent child ⟨children, known, inChildren, _⟩
    exact ⟨children, known, inChildren, Reach.enters_whole child⟩
  exact ⟨root, inRoots, Reach.enters_whole root, Relation.ReflTransGen.mono widen _ _ path⟩

end Arena

end ErrorWrapping
