import ErrorWrapping.Proofs.ImportCycles

/-
What every schedule satisfies.

Whatever units import each other, every unit in scope is in one level, no unit of a level imports
another one of it, and a unit that precedes one of its imports stands alone and comes first by path
among all units that are left. The counts of imports take the levels that one takes by looking at
the units that wait, in no more rounds than there are units in scope.
-/

namespace ErrorWrapping

namespace Program

variable {program : Program} {policy : Policy}

/-- A schedule that holds every checked unit once and breaks the order of imports only where no
unit that is left could be taken in order. -/
structure Schedules (program : Program) (policy : Policy) (schedule : Schedule) : Prop where
  skippedOnce : schedule.skipped.Nodup
  skipped : ∀ id, id ∈ schedule.skipped ↔
    ∃ unit ∈ program.units, unit.id = id ∧ policy.inScope unit.path = false
  once : schedule.units.Nodup
  scheduled : ∀ id, id ∈ schedule.units ↔ ∃ unit, program.Checks policy unit ∧ unit.id = id
  filled : ∀ level ∈ schedule.levels, level ≠ []
  independent : ∀ level ∈ schedule.levels, ∀ unit other : Package, unit.id ∈ level →
    other.id ∈ level → ¬ program.Imports policy unit other
  forced : ∀ earlier level later, schedule.levels = earlier ++ level :: later →
    ∀ unit other : Package, unit.id ∈ level → program.Imports policy unit other →
    other.id ∉ earlier.flatten →
    level = [unit.id] ∧ ∀ left, program.Checks policy left →
      left.id ∈ (level :: later).flatten → unit.path ≤ left.path

/-! ### Units that are passed over -/

theorem skipped_build (program : Program) (policy : Policy) :
    (Schedule.build program policy).1.skipped =
      (program.units.toList.filter fun unit => !policy.inScope unit.path).map (·.id) :=
  Schedule.Scope.skipped_ofUnits policy program.units.toList

theorem mem_skipped_iff {id : UnitId} :
    id ∈ (Schedule.build program policy).1.skipped ↔
      ∃ unit ∈ program.units, unit.id = id ∧ policy.inScope unit.path = false := by
  rw [skipped_build, List.mem_map]
  simp only [List.mem_filter, Array.mem_toList_iff, Bool.not_eq_true', and_assoc]
  exact exists_congr fun unit => and_congr_right fun _ => and_comm

theorem Indexed.nodup_skipped (indexed : program.Indexed) :
    (Schedule.build program policy).1.skipped.Nodup := by
  rw [skipped_build]
  have paths : ((program.units.toList.filter fun unit => !policy.inScope unit.path).map
      (·.path)).Nodup := indexed.distinct.sublist (List.filter_sublist.map _)
  refine (paths.of_map _).map_on fun unit member other also same => ?_
  exact indexed.eq_of_id (Array.mem_toList_iff.mp (List.mem_of_mem_filter member))
    (Array.mem_toList_iff.mp (List.mem_of_mem_filter also)) same

/-! ### Levels -/

theorem Indexed.level_ne_nil (indexed : program.Indexed) {level : List UnitId}
    (member : level ∈ (Schedule.build program policy).1.levels) : level ≠ [] := by
  obtain ⟨earlier, later, split⟩ := List.append_of_mem member
  obtain ⟨rest, nonempty, _, rfl⟩ := indexed.level_split split
  have waits : rest.map (Schedule.waitingOf policy program.units.toList) ≠ [] := by
    rwa [ne_eq, List.map_eq_nil_iff]
  obtain ⟨unit, taken⟩ := Schedule.exists_mem_nextLevel waits
  exact List.ne_nil_of_mem (List.mem_map.mpr ⟨unit, taken, rfl⟩)

/-- A unit of a level or of a later one is in none of the levels before. -/
theorem Indexed.waits_of_mem (indexed : program.Indexed) {earlier later : List (List UnitId)}
    {level : List UnitId} {unit : Package}
    (split : (Schedule.build program policy).1.levels = earlier ++ level :: later)
    (checks : program.Checks policy unit) (member : unit.id ∈ (level :: later).flatten) :
    program.Waits policy earlier unit := by
  refine ⟨checks, fun isEarlier => ?_⟩
  have once := indexed.nodup_units policy
  rw [Schedule.units, split, List.flatten_append] at once
  exact (List.nodup_append.mp once).2.2 _ isEarlier _ member rfl

theorem Indexed.forced (indexed : program.Indexed) {earlier later : List (List UnitId)}
    {level : List UnitId} {unit other : Package}
    (split : (Schedule.build program policy).1.levels = earlier ++ level :: later)
    (inLevel : unit.id ∈ level) (imports : program.Imports policy unit other)
    (late : other.id ∉ earlier.flatten) :
    level = [unit.id] ∧ ∀ left, program.Checks policy left →
      left.id ∈ (level :: later).flatten → unit.path ≤ left.path := by
  obtain ⟨forces, alone⟩ :=
    (indexed.mem_earlier_or_forces split inLevel imports).resolve_left late
  refine ⟨alone, fun left checks member => ?_⟩
  exact forces.least left (indexed.waits_of_mem split checks member)

/-- The schedule of a program satisfies all that is asked of a schedule, whatever units import each
other. Counting imports down gives the levels and the warnings that the waiting units themselves
give, in as many rounds as there are units in scope. -/
theorem Indexed.schedules_build (indexed : program.Indexed) (policy : Policy) :
    program.Schedules policy (Schedule.build program policy).1 ∧
      ∀ rounds, (program.checked policy).length ≤ rounds →
        Schedule.drain rounds ((program.checked policy).map
          (Schedule.waitingOf policy program.units.toList)) =
            ((Schedule.build program policy).1.levels, (Schedule.build program policy).2) := by
  refine ⟨?_, fun rounds enough => indexed.drain_checked policy enough⟩
  exact
    { skippedOnce := indexed.nodup_skipped
      skipped := fun _ => mem_skipped_iff
      once := indexed.nodup_units policy
      scheduled := fun _ => indexed.mem_units_iff
      filled := fun _ member => indexed.level_ne_nil member
      independent := fun _ member _ _ inLevel also =>
        indexed.not_imports_of_level member inLevel also
      forced := fun _ _ _ split _ _ inLevel imports late =>
        indexed.forced split inLevel imports late }

end Program

theorem Program.besideCycle.schedules :
    program.Indexed ∧ program.Schedules policy (Schedule.build program policy).1 ∧
      Schedule.drain 5 ((program.checked policy).map
        (Schedule.waitingOf policy program.units.toList)) =
          ((Schedule.build program policy).1.levels, (Schedule.build program policy).2) := by
  obtain ⟨schedules, ends⟩ := indexed.schedules_build policy
  exact ⟨indexed, schedules, ends 5 (by decide)⟩

end ErrorWrapping
