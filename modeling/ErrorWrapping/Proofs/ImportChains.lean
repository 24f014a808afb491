import ErrorWrapping.Proofs.LevelInvariants
import Mathlib.Order.Bounds.Basic

/-
Levels as longest chains of imports.

Without cycles of imports some waiting unit is always ready, so no unit is forced: a level holds
just those waiting units that import none of the others. What a unit imports is then in an earlier
level, so no chain of imports is longer than the number of levels before its first unit. A unit
waits at the level before its own because it imports a unit of that level, so some chain has that
length.
-/

namespace ErrorWrapping

namespace Schedule

variable {waiting : List Waiting}

theorem nextLevel_of_ready (ready : waiting.filter (Waiting.isReady waiting) ≠ []) :
    nextLevel waiting =
      ((waiting.filter (Waiting.isReady waiting)).mergeSort Waiting.before, []) := by
  unfold nextLevel
  split
  · rename_i none
    exact absurd none ready
  · rfl

theorem mem_nextLevel_iff_of_ready (ready : waiting.filter (Waiting.isReady waiting) ≠ [])
    {unit : Waiting} :
    unit ∈ (nextLevel waiting).1 ↔ unit ∈ waiting ∧ Waiting.isReady waiting unit = true := by
  rw [nextLevel_of_ready ready, List.mem_mergeSort, List.mem_filter]

/-- As long as some of the units that wait are ready, nothing is reported. -/
theorem warnings_drain_of_ready {rounds : Nat}
    (ready : ∀ rest : List Waiting, rest.Sublist waiting → rest ≠ [] →
      rest.filter (Waiting.isReady rest) ≠ []) :
    (drain rounds waiting).2 = [] := by
  induction rounds generalizing waiting with
  | zero => rfl
  | succ rounds ih =>
      cases waiting with
      | nil => rfl
      | cons first rest =>
          have later : (drain rounds (remaining (first :: rest))).2 = [] :=
            ih fun left sublist => ready left (sublist.trans List.filter_sublist)
          have level := nextLevel_of_ready
            (ready (first :: rest) (List.Sublist.refl _) (List.cons_ne_nil first rest))
          change (nextLevel (first :: rest)).2 ++ (drain rounds (remaining (first :: rest))).2 = []
          rw [level, later]
          rfl

end Schedule

namespace Program

variable {program : Program} {policy : Policy} {unit other : Package}

/-- The lengths of the chains of imports that start at a unit. -/
def chainLengths (program : Program) (policy : Policy) (unit : Package) : Set Nat :=
  { length | ∃ chain : List Package,
      (unit :: chain).IsChain (program.Imports policy) ∧ chain.length = length }

/-- Levels in which each checked unit stands where its longest chain of imports says, and none is
taken because all that wait import each other. -/
structure Layers (program : Program) (policy : Policy) (levels : List (List UnitId)) : Prop where
  placed : ∀ unit, program.Checks policy unit →
    ∃ longest, IsGreatest (program.chainLengths policy unit) longest ∧
      ∀ index, (∃ level, levels[index]? = some level ∧ unit.id ∈ level) ↔ index = longest
  filled : ∀ level ∈ levels, level ≠ []
  sorted : ∀ level ∈ levels, ∃ units : List Package,
    (∀ unit ∈ units, program.Checks policy unit) ∧ level = units.map (·.id) ∧
      (units.map (·.path)).Pairwise (· < ·)
  unforced : ∀ earlier level later, levels = earlier ++ level :: later →
    ∀ unit, program.Checks policy unit → unit.id ∈ level → ¬ program.Forces policy earlier unit

/-! ### Some unit is ready -/

section

variable (indexed : program.Indexed)
  (acyclic : ∀ unit, ¬ Relation.TransGen (program.Imports policy) unit unit)

include indexed acyclic

theorem Indexed.exists_ready {rest : List Package} (some : rest ≠ [])
    (checks : ∀ unit ∈ rest, program.Checks policy unit) :
    (rest.map (Schedule.waitingOf policy program.units.toList)).filter
      (Schedule.Waiting.isReady
        (rest.map (Schedule.waitingOf policy program.units.toList))) ≠ [] := by
  obtain ⟨free, inRest, importsNone⟩ := exists_importing_none some fun unit _ => acyclic unit
  refine List.ne_nil_of_mem (List.mem_filter.mpr ⟨List.mem_map_of_mem inRest, ?_⟩)
  exact (indexed.isReady_iff checks (checks free inRest)).mpr importsNone

theorem Indexed.warnings_build : (Schedule.build program policy).2 = [] := by
  have built := congrArg Prod.snd (indexed.drain_checked policy (Nat.le_refl _))
  dsimp only at built
  rw [← built]
  refine Schedule.warnings_drain_of_ready fun left sublist nonempty => ?_
  obtain ⟨rest, inChecked, rfl⟩ := List.sublist_map_iff.mp sublist
  exact indexed.exists_ready acyclic (fun none => nonempty (by rw [none]; rfl))
    fun unit member => mem_checked_iff.mp (inChecked.subset member)

/-! ### What a level holds -/

section

variable {earlier later : List (List UnitId)} {level : List UnitId}
  (split : (Schedule.build program policy).1.levels = earlier ++ level :: later)

include split

/-- A level holds the units that wait and import none of those that wait. -/
theorem Indexed.mem_level_iff (checks : program.Checks policy unit) :
    unit.id ∈ level ↔ program.Waits policy earlier unit ∧
      ∀ other, program.Waits policy earlier other → ¬ program.Imports policy unit other := by
  obtain ⟨rest, nonempty, rest_iff, rfl⟩ := indexed.level_split split
  have restChecks : ∀ unit ∈ rest, program.Checks policy unit :=
    fun unit member => ((rest_iff unit).mp member).1
  have ready := indexed.exists_ready acyclic nonempty restChecks
  have here : unit.id ∈ (Schedule.nextLevel
        (rest.map (Schedule.waitingOf policy program.units.toList))).1.map (·.id) ↔
      Schedule.waitingOf policy program.units.toList unit ∈ (Schedule.nextLevel
        (rest.map (Schedule.waitingOf policy program.units.toList))).1 :=
    ⟨indexed.mem_level restChecks checks, fun member => List.mem_map_of_mem member⟩
  rw [here, Schedule.mem_nextLevel_iff_of_ready ready, indexed.isReady_iff restChecks checks]
  have waits_iff : Schedule.waitingOf policy program.units.toList unit ∈
      rest.map (Schedule.waitingOf policy program.units.toList) ↔ unit ∈ rest := by
    refine ⟨fun member => ?_, List.mem_map_of_mem⟩
    obtain ⟨other, inRest, same⟩ := List.mem_map.mp member
    have sameId : other.id = unit.id := congrArg Schedule.Waiting.id same
    exact indexed.eq_of_id (restChecks other inRest).1 checks.1 sameId ▸ inRest
  rw [waits_iff, rest_iff]
  exact and_congr Iff.rfl (forall_congr' fun other => by rw [rest_iff]; rfl)

theorem Indexed.exists_sorted :
    ∃ units : List Package, (∀ unit ∈ units, program.Checks policy unit) ∧
      level = units.map (·.id) ∧ (units.map (·.path)).Pairwise (· < ·) := by
  have once : level.Nodup := indexed.nodup_level (split ▸ List.mem_append_cons_self)
  obtain ⟨rest, nonempty, rest_iff, rfl⟩ := indexed.level_split split
  have restChecks : ∀ unit ∈ rest, program.Checks policy unit :=
    fun unit member => ((rest_iff unit).mp member).1
  have ready := indexed.exists_ready acyclic nonempty restChecks
  let before : Package → Package → Bool := fun left right =>
    (Schedule.waitingOf policy program.units.toList left).before
      (Schedule.waitingOf policy program.units.toList right)
  let units := (rest.filter (Schedule.Waiting.isReady
      (rest.map (Schedule.waitingOf policy program.units.toList)) ∘
    Schedule.waitingOf policy program.units.toList)).mergeSort before
  have taken : (Schedule.nextLevel
      (rest.map (Schedule.waitingOf policy program.units.toList))).1 =
        units.map (Schedule.waitingOf policy program.units.toList) := by
    rw [Schedule.nextLevel_of_ready ready, List.filter_map]
    exact (List.map_mergeSort (r := before)
      (f := Schedule.waitingOf policy program.units.toList) fun _ _ _ _ => rfl).symm
  have ids : (Schedule.nextLevel (rest.map
      (Schedule.waitingOf policy program.units.toList))).1.map (·.id) = units.map (·.id) := by
    rw [taken, List.map_map]
    rfl
  rw [ids] at once ⊢
  have unitsChecks : ∀ unit ∈ units, program.Checks policy unit :=
    fun unit member => restChecks unit (List.mem_of_mem_filter (List.mem_mergeSort.mp member))
  have trans : ∀ left middle right, before left middle = true → before middle right = true →
      before left right = true := fun _ _ _ => Schedule.before_trans _ _ _
  have total : ∀ left right, (before left right || before right left) = true :=
    fun _ _ => Schedule.before_total _ _
  have sorted : units.Pairwise fun left right => left.path ≤ right.path :=
    (List.pairwise_mergeSort trans total _).imp of_decide_eq_true
  refine ⟨units, unitsChecks, rfl, List.pairwise_map.mpr ?_⟩
  -- Different units have different paths, so the order is strict.
  refine (sorted.and (List.pairwise_map.mp once)).imp_of_mem fun inUnits also ordered => ?_
  refine String.not_le.mp fun reverse => ordered.2 (congrArg _ ?_)
  exact indexed.eq_of_path (unitsChecks _ inUnits).1 (unitsChecks _ also).1
    (String.le_antisymm ordered.1 reverse)

end

/-! ### Chains of imports -/

/-- A chain of imports goes down by at least one level with each import. -/
theorem Indexed.length_le_of_chain {earlier later : List (List UnitId)} {level : List UnitId}
    (split : (Schedule.build program policy).1.levels = earlier ++ level :: later)
    (inLevel : unit.id ∈ level) {chain : List Package}
    (imports : (unit :: chain).IsChain (program.Imports policy)) :
    chain.length ≤ earlier.length := by
  induction chain generalizing unit earlier level later with
  | nil => exact Nat.zero_le _
  | cons next chain ih =>
      obtain ⟨first, rest⟩ := List.isChain_cons_cons.mp imports
      obtain ⟨below, isLevel, inBelow⟩ :=
        List.mem_flatten.mp (indexed.mem_earlier_of_imports acyclic split inLevel first)
      obtain ⟨before, between, rfl⟩ := List.append_of_mem isLevel
      rw [List.append_assoc, List.cons_append] at split
      have shorter := ih split inBelow rest
      simp only [List.length_append, List.length_cons]
      omega

/-- Some chain of imports from a unit goes through all levels before it. -/
theorem Indexed.exists_chain {earlier later : List (List UnitId)} {level : List UnitId}
    (split : (Schedule.build program policy).1.levels = earlier ++ level :: later)
    (checks : program.Checks policy unit) (inLevel : unit.id ∈ level) :
    ∃ chain : List Package,
      (unit :: chain).IsChain (program.Imports policy) ∧ chain.length = earlier.length := by
  induction earlier using List.reverseRecOn generalizing unit level later with
  | nil => exact ⟨[], .singleton _, rfl⟩
  | append_singleton front last ih =>
      have waits : program.Waits policy (front ++ [last]) unit :=
        indexed.waits_of_mem split checks (List.mem_append_left _ inLevel)
      rw [Waits, List.flatten_append, List.flatten_singleton, List.mem_append, not_or] at waits
      have splitLast : (Schedule.build program policy).1.levels =
          front ++ last :: (level :: later) := by
        rw [split, List.append_assoc, List.singleton_append]
      -- The unit waited for the level before its own and was not taken.
      have stopped := mt (indexed.mem_level_iff acyclic splitLast checks).mpr waits.2.2
      push Not at stopped
      obtain ⟨other, otherWaits, imports⟩ := stopped ⟨checks, waits.2.1⟩
      have inLast : other.id ∈ last := by
        have isEarlier := indexed.mem_earlier_of_imports acyclic split inLevel imports
        rw [List.flatten_append, List.flatten_singleton] at isEarlier
        exact (List.mem_append.mp isEarlier).resolve_left otherWaits.2
      obtain ⟨chain, linked, full⟩ := ih splitLast imports.2.1 inLast
      refine ⟨other :: chain, List.isChain_cons_cons.mpr ⟨imports, linked⟩, ?_⟩
      rw [List.length_cons, full, List.length_append, List.length_singleton]

/-- Before the level of a unit stand as many levels as its longest chain of imports is long. -/
theorem Indexed.isGreatest_of_level {earlier later : List (List UnitId)} {level : List UnitId}
    (split : (Schedule.build program policy).1.levels = earlier ++ level :: later)
    (checks : program.Checks policy unit) (inLevel : unit.id ∈ level) :
    IsGreatest (program.chainLengths policy unit) earlier.length := by
  refine ⟨indexed.exists_chain acyclic split checks inLevel, ?_⟩
  rintro _ ⟨chain, imports, rfl⟩
  exact indexed.length_le_of_chain acyclic split inLevel imports

/-- Without cycles of imports, the levels of a schedule are the layers of longest chains, and no
warning about a cycle is given. -/
theorem Indexed.layers_build :
    program.Layers policy (Schedule.build program policy).1.levels ∧
      (Schedule.build program policy).2 = [] := by
  refine ⟨⟨fun unit checks => ?_, fun level => indexed.level_ne_nil, fun level member => ?_,
    fun earlier level later split unit checks inLevel forces => ?_⟩,
    indexed.warnings_build acyclic⟩
  · obtain ⟨earlier, level, later, split, inLevel⟩ := indexed.exists_level checks
    have longest := indexed.isGreatest_of_level acyclic split checks inLevel
    refine ⟨earlier.length, longest, fun index => ⟨?_, ?_⟩⟩
    · rintro ⟨other, found, inOther⟩
      obtain ⟨bound, rfl⟩ := List.getElem?_eq_some_iff.mp found
      have splitOther : (Schedule.build program policy).1.levels =
          (Schedule.build program policy).1.levels.take index ++
            (Schedule.build program policy).1.levels[index] ::
              (Schedule.build program policy).1.levels.drop (index + 1) := by
        rw [List.getElem_cons_drop, List.take_append_drop]
      have also := indexed.isGreatest_of_level acyclic splitOther checks inOther
      rw [List.length_take_of_le bound.le] at also
      exact also.unique longest
    · rintro rfl
      exact ⟨level, by rw [split]; simp, inLevel⟩
  · obtain ⟨earlier, later, split⟩ := List.append_of_mem member
    exact indexed.exists_sorted acyclic split
  · have waits := indexed.waits_of_mem split checks
      (List.mem_flatten.mpr ⟨level, List.mem_cons_self .., inLevel⟩)
    obtain ⟨member, _, cycle⟩ := forces.exists_cycle waits
    exact acyclic member cycle

end

end Program

/-! ### Imports that are passed over -/

namespace Program.layered

def base : Package := { id := ⟨0⟩, path := "svc/base", imports := ["fmt", "svc/base"] }

def left : Package := { id := ⟨1⟩, path := "svc/left", imports := ["svc/base"] }

def tools : Package := { id := ⟨2⟩, path := "tools", imports := ["svc/top"] }

def top : Package := { id := ⟨3⟩, path := "svc/top", imports := ["svc/left", "tools", "svc/base"] }

/-- The first unit imports itself and an unknown one; two of the others import each other, but one
of them is out of scope. -/
def program : Program := { units := #[base, left, tools, top] }

def policy : Policy := ⟨"svc", []⟩

theorem indexed : program.Indexed := by
  constructor
  · intro index unit found
    match index with
    | 0 => cases found; rfl
    | 1 => cases found; rfl
    | 2 => cases found; rfl
    | 3 => cases found; rfl
    | _ + 4 => cases found
  · decide

theorem checks_cases {unit : Package} (checks : program.Checks policy unit) :
    unit = base ∨ unit = left ∨ unit = top := by
  have units : unit = base ∨ unit = left ∨ unit = tools ∨ unit = top := by
    simpa [program] using checks.1
  rcases units with rfl | rfl | rfl | rfl
  · exact Or.inl rfl
  · exact Or.inr (Or.inl rfl)
  · exact absurd checks.2 (by decide)
  · exact Or.inr (Or.inr rfl)

theorem index_lt_of_imports {unit other : Package} (imports : program.Imports policy unit other) :
    other.id.index < unit.id.index := by
  obtain ⟨checks, otherChecks, differs, imported⟩ := imports
  rcases checks_cases checks with rfl | rfl | rfl <;>
    rcases checks_cases otherChecks with rfl | rfl | rfl <;>
      first | decide | exact absurd rfl differs | exact absurd imported (by decide)

theorem acyclic (unit : Package) : ¬ Relation.TransGen (program.Imports policy) unit unit := by
  have descends : ∀ other, Relation.TransGen (program.Imports policy) unit other →
      other.id.index < unit.id.index := by
    intro other path
    induction path with
    | single imports => exact index_lt_of_imports imports
    | tail _ imports ih => exact (index_lt_of_imports imports).trans ih
  exact fun cycle => Nat.lt_irrefl _ (descends unit cycle)

example : (Schedule.build program policy).1.levels = [[base.id], [left.id], [top.id]] := by cbv

theorem layers :
    program.Indexed ∧ (∀ unit, ¬ Relation.TransGen (program.Imports policy) unit unit) ∧
      program.Layers policy (Schedule.build program policy).1.levels ∧
      (Schedule.build program policy).2 = [] :=
  ⟨indexed, acyclic, indexed.layers_build acyclic⟩

end Program.layered

end ErrorWrapping
