import ErrorWrapping.Proofs.CountedImports
import Mathlib.Data.Set.Finite.Basic
import Mathlib.Order.WellFounded

/-
Levels of a schedule.

The levels of a schedule are those taken from the units in scope one after the other. So no unit
of a level imports another unit of it, every unit in scope is scheduled once, and what is imported
is in an earlier level unless both wait where all that wait lead to cycles.
-/

namespace ErrorWrapping

namespace Program

variable {program : Program} {policy : Policy} {unit other : Package}

/-! ### Schedules of programs -/

theorem Indexed.levels_build (indexed : program.Indexed) (policy : Policy) :
    (Schedule.build program policy).1.levels =
      (Schedule.drain (program.checked policy).length
        ((program.checked policy).map (Schedule.waitingOf policy program.units.toList))).1 :=
  (congrArg Prod.fst (indexed.drain_checked policy (Nat.le_refl _))).symm

theorem Indexed.units_perm (indexed : program.Indexed) (policy : Policy) :
    (Schedule.build program policy).1.units.Perm ((program.checked policy).map (·.id)) := by
  rw [Schedule.units, indexed.levels_build]
  have taken := Schedule.drain_perm (Nat.le_of_eq (List.length_map _))
    (indexed.nodup_waiting policy)
  rw [List.map_map] at taken
  exact taken

theorem Indexed.nodup_units (indexed : program.Indexed) (policy : Policy) :
    (Schedule.build program policy).1.units.Nodup := by
  rw [(indexed.units_perm policy).nodup_iff]
  have once := indexed.nodup_waiting policy
  rw [List.map_map] at once
  exact once

theorem Indexed.mem_units_iff (indexed : program.Indexed) {id : UnitId} :
    id ∈ (Schedule.build program policy).1.units ↔
      ∃ unit, program.Checks policy unit ∧ unit.id = id := by
  rw [(indexed.units_perm policy).mem_iff, List.mem_map]
  simp only [mem_checked_iff]

theorem Indexed.nodup_level (indexed : program.Indexed) {level : List UnitId}
    (member : level ∈ (Schedule.build program policy).1.levels) : level.Nodup :=
  (List.nodup_flatten.mp (indexed.nodup_units policy)).1 level member

/-- A level is the next level of the units that the levels before it leave. -/
theorem Indexed.level_split (indexed : program.Indexed) {earlier later : List (List UnitId)}
    {level : List UnitId}
    (split : (Schedule.build program policy).1.levels = earlier ++ level :: later) :
    ∃ rest : List Package, rest ≠ [] ∧
      (∀ unit, unit ∈ rest ↔ program.Checks policy unit ∧ unit.id ∉ earlier.flatten) ∧
      level = (Schedule.nextLevel
        (rest.map (Schedule.waitingOf policy program.units.toList))).1.map (·.id) := by
  rw [indexed.levels_build] at split
  obtain ⟨waiting, sublist, nonempty, isNext, waits_iff⟩ := Schedule.drain_split split
  obtain ⟨rest, inChecked, rfl⟩ := List.sublist_map_iff.mp sublist
  refine ⟨rest, fun none => nonempty (by rw [none]; rfl), fun unit => ?_, isNext⟩
  constructor
  · intro member
    have isChecked := inChecked.subset member
    refine ⟨mem_checked_iff.mp isChecked, ?_⟩
    exact (waits_iff _ (List.mem_map.mpr ⟨unit, isChecked, rfl⟩)).mp
      (List.mem_map.mpr ⟨unit, member, rfl⟩)
  · intro waits
    have isChecked := mem_checked_iff.mpr waits.1
    have member := (waits_iff _ (List.mem_map.mpr ⟨unit, isChecked, rfl⟩)).mpr waits.2
    obtain ⟨other, inRest, same⟩ := List.mem_map.mp member
    have sameId : other.id = unit.id := congrArg Schedule.Waiting.id same
    have otherChecks := mem_checked_iff.mp (inChecked.subset inRest)
    exact indexed.eq_of_id otherChecks.1 waits.1.1 sameId ▸ inRest

theorem Indexed.mem_level (indexed : program.Indexed) {rest : List Package}
    (checks : ∀ unit ∈ rest, program.Checks policy unit) (isChecked : program.Checks policy unit)
    (member : unit.id ∈ (Schedule.nextLevel
      (rest.map (Schedule.waitingOf policy program.units.toList))).1.map (·.id)) :
    Schedule.waitingOf policy program.units.toList unit ∈ (Schedule.nextLevel
      (rest.map (Schedule.waitingOf policy program.units.toList))).1 := by
  obtain ⟨waiting, inLevel, sameId⟩ := List.mem_map.mp member
  obtain ⟨other, inRest, rfl⟩ := List.mem_map.mp (Schedule.mem_of_mem_nextLevel inLevel)
  exact indexed.eq_of_id (checks other inRest).1 isChecked.1 sameId ▸ inLevel

/-- No unit of a level imports another one of it. -/
theorem Indexed.not_imports_of_level (indexed : program.Indexed) {level : List UnitId}
    (member : level ∈ (Schedule.build program policy).1.levels)
    (inLevel : unit.id ∈ level) (also : other.id ∈ level) :
    ¬ program.Imports policy unit other := by
  intro imports
  have checks := imports.1
  have otherChecks := imports.2.1
  obtain ⟨earlier, later, split⟩ := List.append_of_mem member
  obtain ⟨rest, _, rest_iff, rfl⟩ := indexed.level_split split
  have restChecks : ∀ unit ∈ rest, program.Checks policy unit :=
    fun unit member => ((rest_iff unit).mp member).1
  refine Schedule.not_mem_imports_of_nextLevel (indexed.mem_level restChecks checks inLevel)
    (indexed.mem_level restChecks otherChecks also) ?_ ?_
  · exact fun same => imports.2.2.1 (indexed.eq_of_id otherChecks.1 checks.1 same)
  · exact (indexed.mem_imports_iff checks otherChecks).mpr imports

/-! ### Units that wait for each other -/

/-- A checked unit that none of the first levels holds. -/
def Waits (program : Program) (policy : Policy) (earlier : List (List UnitId)) (unit : Package) :
    Prop :=
  program.Checks policy unit ∧ unit.id ∉ earlier.flatten

/-- After the first levels every unit that waits imports another one that waits, and the unit
comes first by path. -/
structure Forces (program : Program) (policy : Policy) (earlier : List (List UnitId))
    (unit : Package) : Prop where
  stuck : ∀ waiting, program.Waits policy earlier waiting →
    ∃ other, program.Waits policy earlier other ∧ program.Imports policy waiting other
  least : ∀ waiting, program.Waits policy earlier waiting → unit.path ≤ waiting.path

/-- What a unit imports is in an earlier level, unless the unit is forced and stands alone. -/
theorem Indexed.mem_earlier_or_forces (indexed : program.Indexed)
    {earlier later : List (List UnitId)} {level : List UnitId}
    (split : (Schedule.build program policy).1.levels = earlier ++ level :: later)
    (inLevel : unit.id ∈ level) (imports : program.Imports policy unit other) :
    other.id ∈ earlier.flatten ∨ (program.Forces policy earlier unit ∧ level = [unit.id]) := by
  obtain ⟨rest, nonempty, rest_iff, rfl⟩ := indexed.level_split split
  have restChecks : ∀ unit ∈ rest, program.Checks policy unit :=
    fun unit member => ((rest_iff unit).mp member).1
  have placed := indexed.mem_level restChecks imports.1 inLevel
  rcases Schedule.nextLevel_cases (rest.map (Schedule.waitingOf policy program.units.toList)) with
    ⟨_, same⟩ | ⟨noneReady, same⟩
  · left
    have ready := (indexed.isReady_iff restChecks imports.1).mp
      (List.mem_filter.mp (same.mem_iff.mp placed)).2
    by_contra later
    exact ready other ((rest_iff other).mpr ⟨imports.2.1, later⟩) imports
  · right
    rw [same, Option.mem_toList] at placed
    refine ⟨⟨?_, ?_⟩, by rw [same, placed]; rfl⟩
    · intro waiting waits
      have member := (rest_iff waiting).mpr waits
      -- A unit that imports none of those that are left would be ready.
      by_contra importsNone
      have isReady : Schedule.Waiting.isReady
          (rest.map (Schedule.waitingOf policy program.units.toList))
          (Schedule.waitingOf policy program.units.toList waiting) = true :=
        (indexed.isReady_iff restChecks waits.1).mpr fun other inRest imports =>
          importsNone ⟨other, (rest_iff other).mp inRest, imports⟩
      have impossible := List.mem_filter.mpr
        ⟨List.mem_map.mpr ⟨waiting, member, rfl⟩, isReady⟩
      rw [noneReady] at impossible
      cases impossible
    · intro waiting waits
      exact Schedule.path_le_of_least? placed
        (List.mem_map.mpr ⟨waiting, (rest_iff waiting).mpr waits, rfl⟩)

/-! ### Imports without cycles -/

/-- Among finitely many units one imports none of the others. -/
theorem exists_importing_none {rest : List Package} (some : rest ≠ [])
    (acyclic : ∀ unit ∈ rest, ¬ Relation.TransGen (program.Imports policy) unit unit) :
    ∃ unit ∈ rest, ∀ other ∈ rest, ¬ program.Imports policy unit other := by
  let follows : { unit // unit ∈ rest } → { unit // unit ∈ rest } → Prop :=
    fun left right => Relation.TransGen (program.Imports policy) right.1 left.1
  have finite : Finite { unit // unit ∈ rest } := List.finite_toSet rest
  have trans : IsTrans _ follows := ⟨fun _ _ _ first second => second.trans first⟩
  have irrefl : Std.Irrefl follows := ⟨fun unit => acyclic unit.1 unit.2⟩
  obtain ⟨first, member⟩ := List.exists_mem_of_ne_nil rest some
  obtain ⟨least, _, minimal⟩ :=
    (Finite.wellFounded_of_trans_of_irrefl follows).has_min Set.univ ⟨⟨first, member⟩, trivial⟩
  refine ⟨least.1, least.2, fun other inRest imports => ?_⟩
  exact minimal ⟨other, inRest⟩ trivial (.single imports)

/-- Where every unit that waits imports one that waits, each of them leads to a cycle. -/
theorem Forces.exists_cycle {earlier : List (List UnitId)}
    (forces : program.Forces policy earlier unit) (waits : program.Waits policy earlier other) :
    ∃ member, Relation.ReflTransGen (program.Imports policy) other member ∧
      Relation.TransGen (program.Imports policy) member member := by
  classical
  by_contra acyclic
  rw [not_exists] at acyclic
  let rest := (program.checked policy).filter fun member => member.id ∉ earlier.flatten ∧
    Relation.ReflTransGen (program.Imports policy) other member
  have rest_iff : ∀ member, member ∈ rest ↔ program.Waits policy earlier member ∧
      Relation.ReflTransGen (program.Imports policy) other member := by
    intro member
    rw [List.mem_filter, mem_checked_iff, decide_eq_true_iff, ← and_assoc]
    rfl
  have here : other ∈ rest := (rest_iff other).mpr ⟨waits, .refl⟩
  obtain ⟨free, inRest, importsNone⟩ := exists_importing_none (List.ne_nil_of_mem here)
    fun member inRest cycle => acyclic member ⟨((rest_iff member).mp inRest).2, cycle⟩
  obtain ⟨freeWaits, path⟩ := (rest_iff free).mp inRest
  obtain ⟨next, nextWaits, imports⟩ := forces.stuck free freeWaits
  exact importsNone next ((rest_iff next).mpr ⟨nextWaits, path.tail imports⟩) imports

/-- Without cycles of imports, what a unit imports is scheduled in an earlier level. -/
theorem Indexed.mem_earlier_of_imports (indexed : program.Indexed)
    (acyclic : ∀ unit, ¬ Relation.TransGen (program.Imports policy) unit unit)
    {earlier later : List (List UnitId)} {level : List UnitId}
    (split : (Schedule.build program policy).1.levels = earlier ++ level :: later)
    (inLevel : unit.id ∈ level) (imports : program.Imports policy unit other) :
    other.id ∈ earlier.flatten := by
  rcases indexed.mem_earlier_or_forces split inLevel imports with isEarlier | ⟨forces, _⟩
  · exact isEarlier
  · by_contra later
    obtain ⟨member, _, cycle⟩ := forces.exists_cycle ⟨imports.2.1, later⟩
    exact acyclic member cycle

theorem Indexed.mem_before_of_imports (indexed : program.Indexed)
    (acyclic : ∀ unit, ¬ Relation.TransGen (program.Imports policy) unit unit)
    {before after : List UnitId}
    (split : (Schedule.build program policy).1.units = before ++ unit.id :: after)
    (imports : program.Imports policy unit other) : other.id ∈ before := by
  have scheduled : unit.id ∈ (Schedule.build program policy).1.units := by
    rw [split]
    exact List.mem_append_right _ (List.mem_cons_self ..)
  obtain ⟨level, isLevel, inLevel⟩ := List.mem_flatten.mp scheduled
  obtain ⟨earlier, later, levels⟩ := List.append_of_mem isLevel
  have isEarlier := indexed.mem_earlier_of_imports acyclic levels inLevel imports
  have once := indexed.nodup_units policy
  rw [Schedule.units, levels, List.flatten_append, List.flatten_cons] at once split
  -- The cut before the unit lies within its level or after it, since each unit stands once.
  have notEarlier : unit.id ∉ earlier.flatten := by
    intro twice
    exact (List.nodup_append.mp once).2.2 _ twice _ (List.mem_append_left _ inLevel) rfl
  rcases List.append_eq_append_iff.mp split with ⟨rest, same, _⟩ | ⟨rest, same, tail⟩
  · rw [same]
    exact List.mem_append_left _ isEarlier
  · cases rest with
    | nil =>
        rw [List.append_nil] at same
        rw [← same]
        exact isEarlier
    | cons first rest =>
        cases (List.cons.inj tail).1
        refine absurd ?_ notEarlier
        rw [same]
        exact List.mem_append_right _ (List.mem_cons_self ..)

end Program

end ErrorWrapping
