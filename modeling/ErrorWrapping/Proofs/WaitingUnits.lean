import ErrorWrapping.Proofs.Programs
import ErrorWrapping.Schedule
import Mathlib.Data.List.Nodup

/-
Levels taken from the units that wait.

A level is taken from the units that wait at that point: it holds units none of whose imports
waits, or a single unit when all others wait for each other. So no unit of a level imports
another unit of it, and taking one level after the other takes every unit once.
-/

namespace ErrorWrapping

namespace Schedule

/-- A unit in scope, and the units in scope that it imports, itself left out. -/
structure Waiting where
  id : UnitId
  path : String
  imports : List UnitId
  deriving DecidableEq, Inhabited

namespace Waiting

def before (left right : Waiting) : Bool :=
  decide (left.path ≤ right.path)

/-- Whether no import of a unit is among those that wait. -/
def isReady (waiting : List Waiting) (unit : Waiting) : Bool :=
  unit.imports.all fun id => !waiting.any (·.id == id)

/-- The waiting unit of least path. -/
def least? (waiting : List Waiting) : Option Waiting :=
  (waiting.mergeSort before).head?

end Waiting

/-- The next level: the units that are ready, or the unit at which a cycle is broken. -/
def nextLevel (waiting : List Waiting) : List Waiting × List Warning :=
  match waiting.filter (Waiting.isReady waiting) with
  | [] =>
    match Waiting.least? waiting with
    | none => ([], [])
    | some unit => ([unit], [.importCycle unit.path])
  | ready => (ready.mergeSort Waiting.before, [])

/-- Takes one level after the other until no unit waits, at most `rounds` times. -/
def drain : Nat → List Waiting → List (List UnitId) × List Warning
  | 0, _ => ([], [])
  | _ + 1, [] => ([], [])
  | rounds + 1, waiting =>
    let (level, warnings) := nextLevel waiting
    let rest := waiting.filter fun unit => !level.any (·.id == unit.id)
    let (levels, later) := drain rounds rest
    (level.map (·.id) :: levels, warnings ++ later)

/-- The unit in scope of a path; the last one counts. -/
def unitInScope? (policy : Policy) (units : List Package) (path : String) : Option UnitId :=
  (units.reverse.find? fun unit => unit.path == path && policy.inScope unit.path).map (·.id)

def waitingOf (policy : Policy) (units : List Package) (unit : Package) : Waiting :=
  let imports := unit.imports.filterMap (unitInScope? policy units)
  ⟨unit.id, unit.path, imports.filter (· != unit.id)⟩

variable {waiting : List Waiting} {unit : Waiting}

/-! ### One level -/

theorem mem_isReady_iff :
    Waiting.isReady waiting unit = true ↔
      ∀ id ∈ unit.imports, ∀ other ∈ waiting, other.id ≠ id := by
  simp [Waiting.isReady]

/-- A level holds all units that are ready, or the least unit when none is. -/
theorem nextLevel_cases (waiting : List Waiting) :
    (waiting.filter (Waiting.isReady waiting) ≠ [] ∧
      (nextLevel waiting).1.Perm (waiting.filter (Waiting.isReady waiting))) ∨
    (waiting.filter (Waiting.isReady waiting) = [] ∧
      (nextLevel waiting).1 = (Waiting.least? waiting).toList) := by
  unfold nextLevel
  split
  · rename_i none
    refine Or.inr ⟨none, ?_⟩
    split
    · rename_i nothing
      rw [nothing]
      rfl
    · rename_i least found
      rw [found]
      rfl
  · rename_i some
    exact Or.inl ⟨some, List.mergeSort_perm _ _⟩

theorem exists_least? (waits : waiting ≠ []) :
    ∃ least ∈ waiting, Waiting.least? waiting = some least := by
  unfold Waiting.least?
  cases sorted : waiting.mergeSort Waiting.before with
  | nil =>
      have empty := congrArg List.length sorted
      rw [List.length_mergeSort, List.length_nil] at empty
      exact absurd (List.length_eq_zero_iff.mp empty) waits
  | cons least rest =>
      refine ⟨least, ?_, rfl⟩
      have inSorted : least ∈ waiting.mergeSort Waiting.before := by
        rw [sorted]
        exact List.mem_cons_self ..
      exact List.mem_mergeSort.mp inSorted

section

variable {α : Type} (path : α → String)

theorem path_le_trans (left middle right : α) (first : decide (path left ≤ path middle) = true)
    (second : decide (path middle ≤ path right) = true) :
    decide (path left ≤ path right) = true := by
  rw [decide_eq_true_iff] at *
  exact String.le_trans first second

theorem path_le_total (left right : α) :
    (decide (path left ≤ path right) || decide (path right ≤ path left)) = true := by
  rw [Bool.or_eq_true, decide_eq_true_iff, decide_eq_true_iff]
  exact String.le_total (path left) (path right)

/-- Entries with different paths are sorted alike, whatever order they come in. -/
theorem mergeSort_of_perm {left right : List α} (once : (left.map path).Nodup)
    (same : left.Perm right) :
    right.mergeSort (fun one other => decide (path one ≤ path other)) =
      left.mergeSort (fun one other => decide (path one ≤ path other)) := by
  have sorted : (right.mergeSort fun one other => decide (path one ≤ path other)).Perm
      (left.mergeSort fun one other => decide (path one ≤ path other)) :=
    (List.mergeSort_perm right _).trans (same.symm.trans (List.mergeSort_perm left _).symm)
  refine sorted.eq_of_pairwise ?_
    (List.pairwise_mergeSort (path_le_trans path) (path_le_total path) right)
    (List.pairwise_mergeSort (path_le_trans path) (path_le_total path) left)
  intro one other inRight inLeft ahead behind
  exact List.inj_on_of_nodup_map once (same.mem_iff.mpr (List.mem_mergeSort.mp inRight))
    (List.mem_mergeSort.mp inLeft)
    (String.le_antisymm (of_decide_eq_true ahead) (of_decide_eq_true behind))

end

theorem before_trans (left middle right : Waiting) :
    left.before middle = true → middle.before right = true → left.before right = true :=
  path_le_trans Waiting.path left middle right

theorem before_total (left right : Waiting) : (left.before right || right.before left) = true :=
  path_le_total Waiting.path left right

theorem path_le_of_least? {least other : Waiting} (found : Waiting.least? waiting = some least)
    (member : other ∈ waiting) : least.path ≤ other.path := by
  have sorted := List.pairwise_mergeSort before_trans before_total waiting
  have inSorted : other ∈ waiting.mergeSort Waiting.before := List.mem_mergeSort.mpr member
  obtain ⟨rest, same⟩ := List.head?_eq_some_iff.mp found
  rw [same] at sorted inSorted
  rcases List.mem_cons.mp inSorted with rfl | later
  · exact String.le_refl _
  · exact of_decide_eq_true (List.rel_of_pairwise_cons sorted later)

theorem mem_of_mem_nextLevel (member : unit ∈ (nextLevel waiting).1) : unit ∈ waiting := by
  rcases nextLevel_cases waiting with ⟨_, same⟩ | ⟨_, same⟩
  · exact List.mem_of_mem_filter (same.mem_iff.mp member)
  · rw [same, Option.mem_toList, Waiting.least?] at member
    have inSorted := List.mem_of_mem_head? member
    exact List.mem_mergeSort.mp inSorted

theorem exists_mem_nextLevel (waits : waiting ≠ []) : ∃ unit, unit ∈ (nextLevel waiting).1 := by
  rcases nextLevel_cases waiting with ⟨some, same⟩ | ⟨_, same⟩
  · obtain ⟨unit, member⟩ := List.exists_mem_of_ne_nil _ some
    exact ⟨unit, same.mem_iff.mpr member⟩
  · obtain ⟨least, _, found⟩ := exists_least? waits
    exact ⟨least, by rw [same, found]; exact List.mem_singleton.mpr rfl⟩

theorem nodup_nextLevel (once : waiting.Nodup) : (nextLevel waiting).1.Nodup := by
  rcases nextLevel_cases waiting with ⟨_, same⟩ | ⟨_, same⟩
  · exact same.nodup_iff.mpr (once.filter _)
  · rw [same]
    cases Waiting.least? waiting <;> simp

theorem not_mem_imports_of_nextLevel {other : Waiting} (member : unit ∈ (nextLevel waiting).1)
    (also : other ∈ (nextLevel waiting).1) (different : other.id ≠ unit.id) :
    other.id ∉ unit.imports := by
  intro imported
  rcases nextLevel_cases waiting with ⟨_, same⟩ | ⟨_, same⟩
  · have ready := (List.mem_filter.mp (same.mem_iff.mp member)).2
    exact mem_isReady_iff.mp ready _ imported other (mem_of_mem_nextLevel also) rfl
  · rw [same] at member also
    cases found : Waiting.least? waiting with
    | none =>
        rw [found] at member
        cases member
    | some least =>
        rw [found] at member also
        cases List.mem_singleton.mp member
        cases List.mem_singleton.mp also
        exact different rfl

/-! ### All levels -/

/-- What waits after a level is taken. -/
def remaining (waiting : List Waiting) : List Waiting :=
  waiting.filter fun unit => !(nextLevel waiting).1.any (·.id == unit.id)

theorem drain_succ (rounds : Nat) (waits : waiting ≠ []) :
    (drain (rounds + 1) waiting).1 =
      (nextLevel waiting).1.map (·.id) :: (drain rounds (remaining waiting)).1 := by
  cases waiting with
  | nil => exact absurd rfl waits
  | cons first rest => rfl

theorem mem_remaining_iff :
    unit ∈ remaining waiting ↔
      unit ∈ waiting ∧ unit.id ∉ (nextLevel waiting).1.map (·.id) := by
  simp [remaining]

/-- Every level is the next level of what waits when those before it are taken. -/
theorem drain_split {rounds : Nat} {earlier later : List (List UnitId)} {level : List UnitId}
    (split : (drain rounds waiting).1 = earlier ++ level :: later) :
    ∃ rest : List Waiting, rest.Sublist waiting ∧ rest ≠ [] ∧
      level = (nextLevel rest).1.map (·.id) ∧
      ∀ unit ∈ waiting, unit ∈ rest ↔ unit.id ∉ earlier.flatten := by
  induction rounds generalizing waiting earlier with
  | zero => cases earlier <;> cases split
  | succ rounds ih =>
      by_cases waits : waiting = []
      · subst waits
        cases earlier <;> cases split
      · rw [drain_succ rounds waits] at split
        cases earlier with
        | nil =>
            refine ⟨waiting, List.Sublist.refl _, waits, ?_, ?_⟩
            · exact (List.cons.inj split).1.symm
            · intro unit member
              simp [member]
        | cons first earlier =>
            obtain ⟨same, deeper⟩ := List.cons.inj split
            obtain ⟨rest, sublist, nonempty, isNext, rest_iff⟩ := ih deeper
            refine ⟨rest, sublist.trans List.filter_sublist, nonempty, isNext, ?_⟩
            intro unit member
            rw [List.flatten_cons, List.mem_append, not_or, ← same]
            constructor
            · intro inRest
              have remains := sublist.subset inRest
              exact ⟨(mem_remaining_iff.mp remains).2, (rest_iff unit remains).mp inRest⟩
            · intro untaken
              have remains := mem_remaining_iff.mpr ⟨member, untaken.1⟩
              exact (rest_iff unit remains).mpr untaken.2

theorem length_remaining_lt (waits : waiting ≠ []) :
    (remaining waiting).length < waiting.length := by
  obtain ⟨unit, member⟩ := exists_mem_nextLevel waits
  refine List.length_filter_lt_length_iff_exists.mpr ⟨unit, mem_of_mem_nextLevel member, ?_⟩
  simp only [Bool.not_eq_true, Bool.not_eq_false', List.any_eq_true]
  exact ⟨unit, member, BEq.rfl⟩

/-- Taking a level loses no unit and doubles none. -/
theorem nextLevel_append_remaining_perm (once : (waiting.map (·.id)).Nodup) :
    ((nextLevel waiting).1 ++ remaining waiting).Perm waiting := by
  have apart : ∀ taken ∈ (nextLevel waiting).1, ∀ left ∈ remaining waiting, taken ≠ left := by
    intro taken inLevel left remains same
    subst same
    exact (mem_remaining_iff.mp remains).2 (List.mem_map.mpr ⟨taken, inLevel, rfl⟩)
  have onceBoth : ((nextLevel waiting).1 ++ remaining waiting).Nodup :=
    List.nodup_append.mpr
      ⟨nodup_nextLevel (once.of_map _), (once.of_map _).sublist List.filter_sublist, apart⟩
  refine (List.perm_ext_iff_of_nodup onceBoth (once.of_map _)).mpr fun unit => ?_
  rw [List.mem_append, mem_remaining_iff]
  constructor
  · intro either
    rcases either with inLevel | remains
    · exact mem_of_mem_nextLevel inLevel
    · exact remains.1
  · intro member
    by_cases taken : unit.id ∈ (nextLevel waiting).1.map (·.id)
    · obtain ⟨other, inLevel, same⟩ := List.mem_map.mp taken
      have equal := List.inj_on_of_nodup_map once (mem_of_mem_nextLevel inLevel) member same
      exact Or.inl (equal ▸ inLevel)
    · exact Or.inr ⟨member, taken⟩

theorem drain_perm {rounds : Nat} (enough : waiting.length ≤ rounds)
    (once : (waiting.map (·.id)).Nodup) :
    (drain rounds waiting).1.flatten.Perm (waiting.map (·.id)) := by
  induction rounds generalizing waiting with
  | zero =>
      cases List.length_eq_zero_iff.mp (Nat.le_zero.mp enough)
      exact .refl _
  | succ rounds ih =>
      by_cases waits : waiting = []
      · subst waits
        exact .refl _
      · have shorter := length_remaining_lt waits
        have restOnce : ((remaining waiting).map (·.id)).Nodup :=
          once.sublist (List.filter_sublist.map _)
        have later := ih (by omega) restOnce
        rw [drain_succ rounds waits, List.flatten_cons]
        refine (later.append_left _).trans ?_
        rw [← List.map_append]
        exact (nextLevel_append_remaining_perm once).map _

end Schedule

namespace Program

variable {program : Program} {policy : Policy} {unit other : Package}

/-- A unit of the program that is checked. -/
def Checks (program : Program) (policy : Policy) (unit : Package) : Prop :=
  unit ∈ program.units ∧ policy.inScope unit.path = true

/-- A checked unit imports another one. -/
def Imports (program : Program) (policy : Policy) (unit other : Package) : Prop :=
  program.Checks policy unit ∧ program.Checks policy other ∧ other ≠ unit ∧
    other.path ∈ unit.imports

theorem Indexed.unit?_of_mem (indexed : program.Indexed) (member : unit ∈ program.units) :
    program.unit? unit.id = some unit := by
  obtain ⟨index, found⟩ := Array.mem_iff_getElem?.mp member
  rw [unit?, indexed.numbered index unit found]
  exact found

theorem mem_of_unit? {id : UnitId} (found : program.unit? id = some unit) :
    unit ∈ program.units :=
  Array.mem_of_getElem? found

theorem Indexed.id_of_unit? (indexed : program.Indexed) {id : UnitId}
    (found : program.unit? id = some unit) : unit.id = id :=
  indexed.numbered id.index unit found

theorem Indexed.eq_of_id (indexed : program.Indexed) (member : unit ∈ program.units)
    (also : other ∈ program.units) (same : unit.id = other.id) : unit = other := by
  have found := indexed.unit?_of_mem member
  rw [same, indexed.unit?_of_mem also] at found
  exact (Option.some.inj found).symm

theorem Indexed.eq_of_path (indexed : program.Indexed) (member : unit ∈ program.units)
    (also : other ∈ program.units) (same : unit.path = other.path) : unit = other :=
  List.inj_on_of_nodup_map indexed.distinct (Array.mem_toList_iff.mpr member)
    (Array.mem_toList_iff.mpr also) same

/-! ### The units that wait at first -/

/-- The checked units in the order of the program. -/
def checked (program : Program) (policy : Policy) : List Package :=
  program.units.toList.filter fun unit => policy.inScope unit.path

theorem mem_checked_iff : unit ∈ program.checked policy ↔ program.Checks policy unit := by
  simp [checked, Checks]

theorem Indexed.nodup_waiting (indexed : program.Indexed) (policy : Policy) :
    (((program.checked policy).map (Schedule.waitingOf policy program.units.toList)).map
      (·.id)).Nodup := by
  rw [List.map_map]
  have paths : ((program.checked policy).map (·.path)).Nodup :=
    indexed.distinct.sublist (List.filter_sublist.map _)
  refine (paths.of_map _).map_on fun unit member other also same => ?_
  exact indexed.eq_of_id (mem_checked_iff.mp member).1 (mem_checked_iff.mp also).1 same

/-- A path stands for the only unit in scope that has it. -/
theorem Indexed.unitInScope?_eq_some_iff (indexed : program.Indexed) {path : String}
    {id : UnitId} :
    Schedule.unitInScope? policy program.units.toList path = some id ↔
      ∃ unit, program.unit? id = some unit ∧ unit.path = path ∧ policy.inScope path = true := by
  constructor
  · intro known
    obtain ⟨unit, last, rfl⟩ := Option.map_eq_some_iff.mp known
    have holds := List.find?_some last
    rw [Bool.and_eq_true, beq_iff_eq] at holds
    have member := List.mem_reverse.mp (List.mem_of_find?_eq_some last)
    exact ⟨unit, indexed.unit?_of_mem (Array.mem_toList_iff.mp member), holds.1,
      holds.1 ▸ holds.2⟩
  · rintro ⟨unit, found, rfl, inScope⟩
    have member := mem_of_unit? found
    have isLast : (program.units.toList.reverse.find? fun candidate =>
        candidate.path == unit.path && policy.inScope candidate.path) = some unit := by
      cases last : program.units.toList.reverse.find? fun candidate =>
          candidate.path == unit.path && policy.inScope candidate.path with
      | none =>
          have missing := List.find?_eq_none.mp last unit
            (List.mem_reverse.mpr (Array.mem_toList_iff.mpr member))
          simp [inScope] at missing
      | some candidate =>
          have holds := List.find?_some last
          rw [Bool.and_eq_true, beq_iff_eq] at holds
          have inUnits := List.mem_reverse.mp (List.mem_of_find?_eq_some last)
          exact congrArg some (indexed.eq_of_path (Array.mem_toList_iff.mp inUnits) member holds.1)
    rw [Schedule.unitInScope?, isLast, Option.map_some, indexed.id_of_unit? found]

theorem Indexed.mem_imports_iff (indexed : program.Indexed) (checks : program.Checks policy unit)
    (also : program.Checks policy other) :
    other.id ∈ (Schedule.waitingOf policy program.units.toList unit).imports ↔
      program.Imports policy unit other := by
  simp only [Schedule.waitingOf, List.mem_filter, List.mem_filterMap, bne_iff_ne,
    indexed.unitInScope?_eq_some_iff]
  constructor
  · rintro ⟨⟨path, imported, target, found, rfl, _⟩, differs⟩
    cases indexed.eq_of_id (mem_of_unit? found) also.1 (indexed.id_of_unit? found)
    exact ⟨checks, also, fun same => differs (congrArg _ same), imported⟩
  · rintro ⟨_, _, differs, imported⟩
    exact ⟨⟨other.path, imported, other, indexed.unit?_of_mem also.1, rfl, also.2⟩,
      fun same => differs (indexed.eq_of_id also.1 checks.1 same)⟩

/-- A checked unit is ready when it imports none of the checked units that wait. -/
theorem Indexed.isReady_iff (indexed : program.Indexed) {rest : List Package}
    (checks : ∀ unit ∈ rest, program.Checks policy unit) (isChecked : program.Checks policy unit) :
    Schedule.Waiting.isReady (rest.map (Schedule.waitingOf policy program.units.toList))
        (Schedule.waitingOf policy program.units.toList unit) = true ↔
      ∀ other ∈ rest, ¬ program.Imports policy unit other := by
  rw [Schedule.mem_isReady_iff]
  constructor
  · intro ready other inRest imports
    exact ready other.id ((indexed.mem_imports_iff isChecked (checks other inRest)).mpr imports)
      _ (List.mem_map_of_mem inRest) rfl
  · intro importsNone id imported entry inRest sameId
    obtain ⟨other, alsoInRest, rfl⟩ := List.mem_map.mp inRest
    cases sameId
    exact importsNone other alsoInRest
      ((indexed.mem_imports_iff isChecked (checks other alsoInRest)).mp imported)

end Program

end ErrorWrapping
