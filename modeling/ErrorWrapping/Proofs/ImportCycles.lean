import ErrorWrapping.Proofs.Schedules
import Mathlib

/-
Units that are checked before their imports.

When every unit that waits imports another one that waits, the one with the least path is taken.
It need not be on a cycle: a unit that only imports into a cycle is taken as well when its path
comes first, and is then checked before what it imports.
-/

namespace ErrorWrapping

namespace Program

variable {program : Program} {policy : Policy} {unit other : Package}

/-- A checked unit is in one of the levels. -/
theorem Indexed.exists_level (indexed : program.Indexed) (checks : program.Checks policy unit) :
    ∃ earlier level later,
      (Schedule.build program policy).1.levels = earlier ++ level :: later ∧ unit.id ∈ level := by
  have scheduled : unit.id ∈ (Schedule.build program policy).1.units :=
    indexed.mem_units_iff.mpr ⟨unit, checks, rfl⟩
  obtain ⟨level, isLevel, inLevel⟩ := List.mem_flatten.mp scheduled
  obtain ⟨earlier, later, split⟩ := List.append_of_mem isLevel
  exact ⟨earlier, level, later, split, inLevel⟩

/-- A checked unit that waits when a level is taken is in the level or in a later one. -/
theorem Indexed.mem_later_of_waits (indexed : program.Indexed)
    {earlier later : List (List UnitId)} {level : List UnitId}
    (split : (Schedule.build program policy).1.levels = earlier ++ level :: later)
    (waits : program.Waits policy earlier unit) (outside : unit.id ∉ level) :
    unit.id ∈ later.flatten := by
  have scheduled : unit.id ∈ (Schedule.build program policy).1.units :=
    indexed.mem_units_iff.mpr ⟨unit, waits.1, rfl⟩
  rw [Schedule.units, split, List.flatten_append, List.flatten_cons] at scheduled
  rcases List.mem_append.mp scheduled with isEarlier | rest
  · exact absurd isEarlier waits.2
  · exact (List.mem_append.mp rest).resolve_left outside

/-- What a unit imports is in an earlier level, unless the unit is taken where every unit that
waits imports one that waits. Then the unit stands alone, what it imports comes later and leads to
a cycle of imports, which the unit itself need not be on. -/
theorem Indexed.mem_earlier_iff_not_forced (indexed : program.Indexed)
    (imports : program.Imports policy unit other) :
    ∃ earlier level later,
      (Schedule.build program policy).1.levels = earlier ++ level :: later ∧ unit.id ∈ level ∧
      (other.id ∈ earlier.flatten ↔
        ¬ (program.Forces policy earlier unit ∧ program.Waits policy earlier other)) ∧
      (program.Forces policy earlier unit → program.Waits policy earlier other →
        level = [unit.id] ∧ other.id ∈ later.flatten ∧
        ∃ member, Relation.ReflTransGen (program.Imports policy) other member ∧
          Relation.TransGen (program.Imports policy) member member) := by
  obtain ⟨earlier, level, later, split, inLevel⟩ := indexed.exists_level imports.1
  have placed := indexed.mem_earlier_or_forces split inLevel imports
  refine ⟨earlier, level, later, split, inLevel, ⟨?_, ?_⟩, ?_⟩
  · intro isEarlier forced
    exact forced.2.2 isEarlier
  · intro unforced
    rcases placed with isEarlier | ⟨forces, _⟩
    · exact isEarlier
    · by_contra late
      exact unforced ⟨forces, imports.2.1, late⟩
  · intro forces waits
    obtain ⟨_, alone⟩ := placed.resolve_left waits.2
    have differs : other.id ≠ unit.id :=
      fun same => imports.2.2.1 (indexed.eq_of_id imports.2.1.1 imports.1.1 same)
    refine ⟨alone, indexed.mem_later_of_waits split waits ?_, forces.exists_cycle waits⟩
    rw [alone, List.mem_singleton]
    exact differs

end Program

/-! ### A unit beside a cycle -/

namespace Program.besideCycle

def first : Package := { id := ⟨0⟩, path := "svc/a", imports := ["svc/b"] }

def second : Package := { id := ⟨1⟩, path := "svc/b", imports := ["svc/c"] }

def third : Package := { id := ⟨2⟩, path := "svc/c", imports := ["svc/b"] }

/-- The last two units import each other; the first imports one of them and is imported by none. -/
def program : Program := { units := #[first, second, third] }

def policy : Policy := ⟨"svc", []⟩

theorem mem_units_iff {unit : Package} :
    unit ∈ program.units ↔ unit = first ∨ unit = second ∨ unit = third := by
  simp [program]

theorem indexed : program.Indexed := by
  constructor
  · intro index unit found
    match index with
    | 0 => cases found; rfl
    | 1 => cases found; rfl
    | 2 => cases found; rfl
    | _ + 3 => cases found
  · decide

theorem imports_second : program.Imports policy first second := by
  refine ⟨⟨mem_units_iff.mpr (Or.inl rfl), by decide⟩,
    ⟨mem_units_iff.mpr (Or.inr (Or.inl rfl)), by decide⟩, ?_, List.mem_cons_self ..⟩
  intro same
  exact absurd (congrArg Package.path same) (by decide)

theorem not_imports_first (unit : Package) : ¬ program.Imports policy unit first := by
  intro imports
  have path := imports.2.2.2
  rcases mem_units_iff.mp imports.1.1 with rfl | rfl | rfl <;>
    exact absurd path (by decide)

/-- The first unit stands in a level before the unit it imports, which never leads back to it. -/
theorem imported_later :
    program.Indexed ∧ program.Imports policy first second ∧
      ¬ Relation.TransGen (program.Imports policy) second first ∧
      (Schedule.build program policy).1.levels = [[first.id], [second.id], [third.id]] := by
  refine ⟨indexed, imports_second, ?_, by cbv⟩
  intro path
  obtain ⟨unit, _, last⟩ := Relation.TransGen.tail'_iff.mp path
  exact not_imports_first unit last

theorem first_forced :
    program.Imports policy first second ∧
      ∃ earlier level later,
        (Schedule.build program policy).1.levels = earlier ++ level :: later ∧
        first.id ∈ level ∧
        (second.id ∈ earlier.flatten ↔
          ¬ (program.Forces policy earlier first ∧ program.Waits policy earlier second)) ∧
        (program.Forces policy earlier first → program.Waits policy earlier second →
          level = [first.id] ∧ second.id ∈ later.flatten ∧
          ∃ member, Relation.ReflTransGen (program.Imports policy) second member ∧
            Relation.TransGen (program.Imports policy) member member) :=
  ⟨imports_second, indexed.mem_earlier_iff_not_forced imports_second⟩

end Program.besideCycle

end ErrorWrapping
