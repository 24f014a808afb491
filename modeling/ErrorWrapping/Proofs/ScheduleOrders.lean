import ErrorWrapping.Proofs.RenamedRuns
import ErrorWrapping.Proofs.Schedules

/-
Schedules under other numbers.

A level is ordered by path, and whether a unit is ready depends only on which units wait. So the
schedule of a program depends neither on how its units are numbered nor on their order, as long as
their paths are different.
-/

namespace ErrorWrapping

namespace Schedule

/-- The same unit under its other number. -/
def Waiting.move (move : UnitId → UnitId) (unit : Waiting) : Waiting :=
  ⟨move unit.id, unit.path, unit.imports.map move⟩

/-! ### Other numbers -/

section

variable {move : UnitId → UnitId} (injective : Function.Injective move) (waiting : List Waiting)

include injective

theorem any_id_move (units : List Waiting) (id : UnitId) :
    (units.map (·.move move)).any (·.id == move id) = units.any (·.id == id) := by
  rw [Bool.eq_iff_iff]
  simp [Waiting.move, injective.eq_iff]

theorem isReady_move (unit : Waiting) :
    Waiting.isReady (waiting.map (·.move move)) (unit.move move) =
      Waiting.isReady waiting unit := by
  unfold Waiting.isReady
  change (unit.imports.map move).all _ = _
  rw [List.all_map]
  exact congrArg unit.imports.all (funext fun id =>
    congrArg Bool.not (any_id_move injective waiting id))

omit injective in
theorem mergeSort_move (units : List Waiting) :
    (units.map (·.move move)).mergeSort Waiting.before =
      (units.mergeSort Waiting.before).map (·.move move) :=
  (List.map_mergeSort (f := Waiting.move move) fun _ _ _ _ => rfl).symm

theorem nextLevel_move :
    (nextLevel (waiting.map (·.move move))).1 = (nextLevel waiting).1.map (·.move move) := by
  have ready : (waiting.map (·.move move)).filter
        (Waiting.isReady (waiting.map (·.move move))) =
      (waiting.filter (Waiting.isReady waiting)).map (·.move move) := by
    rw [List.filter_map]
    exact congrArg (fun ready => (waiting.filter ready).map _)
      (funext (isReady_move injective waiting))
  have least : Waiting.least? (waiting.map (·.move move)) =
      (Waiting.least? waiting).map (·.move move) := by
    rw [Waiting.least?, mergeSort_move, List.head?_map]
    rfl
  unfold nextLevel
  rw [ready, least]
  cases waiting.filter (Waiting.isReady waiting) with
  | nil => cases Waiting.least? waiting <;> rfl
  | cons first rest => exact mergeSort_move (first :: rest)

theorem remaining_move :
    remaining (waiting.map (·.move move)) = (remaining waiting).map (·.move move) := by
  unfold remaining
  rw [nextLevel_move injective, List.filter_map]
  refine congrArg (List.map _) (List.filter_congr fun unit _ => ?_)
  exact congrArg Bool.not (any_id_move injective (nextLevel waiting).1 unit.id)

theorem drain_move (rounds : Nat) :
    (drain rounds (waiting.map (·.move move))).1 =
      (drain rounds waiting).1.map (List.map move) := by
  induction rounds generalizing waiting with
  | zero => rfl
  | succ rounds ih =>
      by_cases waits : waiting = []
      · subst waits
        rfl
      · have waitsToo : waiting.map (·.move move) ≠ [] :=
          fun empty => waits (List.map_eq_nil_iff.mp empty)
        rw [drain_succ rounds waits, drain_succ rounds waitsToo, nextLevel_move injective,
          remaining_move injective, ih, List.map_cons, List.map_map, List.map_map]
        rfl

end

/-! ### Another order -/

section

variable {waiting others : List Waiting}

theorem isReady_of_perm (same : waiting.Perm others) :
    Waiting.isReady others = Waiting.isReady waiting := by
  funext unit
  rw [Bool.eq_iff_iff, mem_isReady_iff, mem_isReady_iff]
  simp only [same.mem_iff]

theorem nextLevel_of_perm (once : (waiting.map (·.path)).Nodup) (same : waiting.Perm others) :
    nextLevel others = nextLevel waiting := by
  have ready : (waiting.filter (Waiting.isReady waiting)).Perm
      (others.filter (Waiting.isReady others)) := by
    rw [isReady_of_perm same]
    exact same.filter _
  have readyOnce : ((waiting.filter (Waiting.isReady waiting)).map (·.path)).Nodup :=
    once.sublist (List.filter_sublist.map _)
  have least : Waiting.least? others = Waiting.least? waiting :=
    congrArg List.head? (mergeSort_of_perm Waiting.path once same)
  have sorted : (others.filter (Waiting.isReady others)).mergeSort Waiting.before =
      (waiting.filter (Waiting.isReady waiting)).mergeSort Waiting.before :=
    mergeSort_of_perm Waiting.path readyOnce ready
  unfold nextLevel
  rw [least]
  generalize others.filter (Waiting.isReady others) = right at ready sorted ⊢
  generalize waiting.filter (Waiting.isReady waiting) = left at ready sorted ⊢
  cases left with
  | nil =>
      cases List.nil_perm.mp ready
      rfl
  | cons first rest =>
      cases right with
      | nil => exact absurd (List.perm_nil.mp ready) (List.cons_ne_nil first rest)
      | cons other more => exact Prod.ext sorted rfl

theorem drain_of_perm (rounds : Nat) (once : (waiting.map (·.path)).Nodup)
    (same : waiting.Perm others) : (drain rounds others).1 = (drain rounds waiting).1 := by
  induction rounds generalizing waiting others with
  | zero => rfl
  | succ rounds ih =>
      by_cases waits : waiting = []
      · subst waits
        cases List.nil_perm.mp same
        rfl
      · have waitsToo : others ≠ [] := by
          intro empty
          subst empty
          exact waits (List.perm_nil.mp same)
        have rest : (remaining waiting).Perm (remaining others) := by
          unfold remaining
          rw [nextLevel_of_perm once same]
          exact same.filter _
        have restOnce : ((remaining waiting).map (·.path)).Nodup :=
          once.sublist (List.filter_sublist.map _)
        rw [drain_succ rounds waits, drain_succ rounds waitsToo, nextLevel_of_perm once same,
          ih restOnce rest]

end

end Schedule

/-! ### Programs -/

namespace Program

variable {program other : Program} {policy : Policy} {rename : SymbolId → SymbolId}

variable {move : Equiv.Perm UnitId} (programs : program.Renames rename move other)
  (indexed : program.Indexed) (otherIndexed : other.Indexed)

include programs

/-- Every unit of the other program is the double of a unit. -/
theorem Renames.exists_unit {id : UnitId} {double : Package}
    (found : other.unit? id = some double) :
    ∃ unit, program.unit? (move.symm id) = some unit ∧
      unit.Renames rename program.types other.types double := by
  have rel := programs.units (move.symm id)
  rw [Equiv.apply_symm_apply, found] at rel
  generalize program.unit? (move.symm id) = unit? at rel ⊢
  cases rel with
  | some same => exact ⟨_, rfl, same⟩

theorem Renames.exists_double {id : UnitId} {unit : Package}
    (found : program.unit? id = some unit) :
    ∃ double, other.unit? (move id) = some double ∧
      unit.Renames rename program.types other.types double := by
  have rel := programs.units id
  rw [found] at rel
  generalize other.unit? (move id) = unit? at rel ⊢
  cases rel with
  | some same => exact ⟨_, rfl, same⟩

include indexed otherIndexed

theorem Renames.unitInScope? (path : String) :
    Schedule.unitInScope? policy other.units.toList path =
      (Schedule.unitInScope? policy program.units.toList path).map move := by
  refine Option.ext fun id => ?_
  rw [otherIndexed.unitInScope?_eq_some_iff, Option.map_eq_some_iff]
  constructor
  · rintro ⟨double, found, rfl, inScope⟩
    obtain ⟨unit, here, same⟩ := programs.exists_unit found
    have known := indexed.unitInScope?_eq_some_iff.mpr ⟨unit, here, same.path.symm, inScope⟩
    exact ⟨move.symm id, known, move.apply_symm_apply id⟩
  · rintro ⟨id, known, rfl⟩
    obtain ⟨unit, found, rfl, inScope⟩ := indexed.unitInScope?_eq_some_iff.mp known
    obtain ⟨double, there, same⟩ := programs.exists_double found
    exact ⟨double, there, same.path, inScope⟩

theorem Renames.waitingOf {unit double : Package}
    (same : unit.Renames rename program.types other.types double)
    (number : double.id = move unit.id) :
    Schedule.waitingOf policy other.units.toList double =
      (Schedule.waitingOf policy program.units.toList unit).move move := by
  have imports : double.imports.filterMap (Schedule.unitInScope? policy other.units.toList) =
      (unit.imports.filterMap (Schedule.unitInScope? policy program.units.toList)).map move := by
    rw [same.imports, List.map_filterMap]
    exact congrArg (List.filterMap · unit.imports)
      (funext (programs.unitInScope? indexed otherIndexed))
  unfold Schedule.waitingOf Schedule.Waiting.move
  rw [imports, number, same.path]
  refine congrArg (Schedule.Waiting.mk (move unit.id) unit.path) ?_
  rw [List.filter_map]
  refine congrArg (List.map move) (List.filter_congr fun id _ => ?_)
  rw [Function.comp, Bool.eq_iff_iff]
  simp

theorem Renames.waiting_perm (policy : Policy) :
    (((program.checked policy).map
        (Schedule.waitingOf policy program.units.toList)).map (·.move move)).Perm
      ((other.checked policy).map (Schedule.waitingOf policy other.units.toList)) := by
  have once : (((program.checked policy).map
      (Schedule.waitingOf policy program.units.toList)).map (·.move move)).Nodup := by
    refine List.Nodup.of_map (·.id) ?_
    have ids := (indexed.nodup_waiting policy).map move.injective
    rw [List.map_map] at ids ⊢
    exact ids
  refine (List.perm_ext_iff_of_nodup once (otherIndexed.nodup_waiting policy).of_map).mpr
    fun waiting => ⟨fun member => ?_, fun member => ?_⟩
  · obtain ⟨_, listed, rfl⟩ := List.mem_map.mp member
    obtain ⟨unit, isChecked, rfl⟩ := List.mem_map.mp listed
    obtain ⟨inUnits, inScope⟩ := mem_checked_iff.mp isChecked
    obtain ⟨double, there, same⟩ := programs.exists_double (indexed.unit?_of_mem inUnits)
    refine List.mem_map.mpr ⟨double, mem_checked_iff.mpr ⟨mem_of_unit? there, ?_⟩, ?_⟩
    · rw [same.path]
      exact inScope
    · exact programs.waitingOf indexed otherIndexed same (otherIndexed.id_of_unit? there)
  · obtain ⟨double, isChecked, rfl⟩ := List.mem_map.mp member
    obtain ⟨inUnits, inScope⟩ := mem_checked_iff.mp isChecked
    obtain ⟨unit, here, same⟩ := programs.exists_unit (otherIndexed.unit?_of_mem inUnits)
    have number : double.id = move unit.id := by
      rw [indexed.id_of_unit? here, Equiv.apply_symm_apply]
    rw [programs.waitingOf indexed otherIndexed same number]
    refine List.mem_map_of_mem (List.mem_map_of_mem (mem_checked_iff.mpr ⟨mem_of_unit? here, ?_⟩))
    rw [← same.path]
    exact inScope

/-- The levels are the same, each unit under its other number. -/
theorem Renames.levels_build (policy : Policy) :
    (Schedule.build other policy).1.levels =
      (Schedule.build program policy).1.levels.map (List.map move) := by
  have perm := programs.waiting_perm indexed otherIndexed policy
  have paths : ((((program.checked policy).map
      (Schedule.waitingOf policy program.units.toList)).map (·.move move)).map (·.path)).Nodup := by
    rw [List.map_map, List.map_map]
    exact indexed.distinct.sublist (List.filter_sublist.map _)
  have count : (other.checked policy).length = (program.checked policy).length := by
    have lengths := perm.length_eq
    rw [List.length_map, List.length_map, List.length_map] at lengths
    exact lengths.symm
  rw [otherIndexed.levels_build, indexed.levels_build, count, Schedule.drain_of_perm _ paths perm,
    Schedule.drain_move move.injective]

end Program

end ErrorWrapping
