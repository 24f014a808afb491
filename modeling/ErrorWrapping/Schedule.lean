import ErrorWrapping.Policy
import ErrorWrapping.Program
import ErrorWrapping.Sorted
import ErrorWrapping.Warning

/-
The order in which units are checked.

Units in scope are put into levels. Every unit that waits has a count of its imports in scope that
wait too; each level takes all units whose count is zero, ordered by path, and lowers the counts
of the units that import them. When units wait and no count is zero, their imports form a cycle,
and the waiting unit with the least path is taken alone.
-/

namespace ErrorWrapping

structure Schedule where
  levels : List (List UnitId)
  skipped : List UnitId
  deriving DecidableEq, Inhabited

namespace Schedule

/-- All scheduled units, level by level. -/
def units (schedule : Schedule) : List UnitId := schedule.levels.flatten

def size (schedule : Schedule) : Nat := schedule.units.length

def isEmpty (schedule : Schedule) : Bool := schedule.levels.all (·.isEmpty)

/-! ### Units in scope -/

/-- The units in scope: the path of each, and the unit of each path, of which the last counts. -/
structure Scope where
  paths : Std.HashMap UnitId String := ∅
  byPath : Std.HashMap String UnitId := ∅
  skipped : Array UnitId := #[]

namespace Scope

def add (policy : Policy) (scope : Scope) (unit : Package) : Scope :=
  if policy.inScope unit.path then
    { scope with
      paths := scope.paths.insert unit.id unit.path
      byPath := scope.byPath.insert unit.path unit.id }
  else { scope with skipped := scope.skipped.push unit.id }

def ofUnits (policy : Policy) (units : List Package) : Scope :=
  units.foldl (add policy) {}

def pathOf (scope : Scope) (id : UnitId) : String :=
  scope.paths.getD id ""

def before (scope : Scope) (left right : UnitId) : Bool :=
  decide (scope.pathOf left ≤ scope.pathOf right)

/-- The units in scope that a unit imports, each once and itself left out. -/
def importsOf (scope : Scope) (unit : Package) : List UnitId :=
  let found := (unit.imports.filterMap (scope.byPath[·]?)).filter (· != unit.id)
  Sorted.dropRepeats (found.mergeSort fun left right => left.index ≤ right.index)

end Scope

/-! ### Units that wait -/

/-- How many imports of each waiting unit wait, and which units import a unit. -/
structure Waitlist where
  counts : Std.ExtTreeMap Nat Nat compare := ∅
  dependents : Std.HashMap UnitId (List UnitId) := ∅

namespace Waitlist

def enroll (scope : Scope) (waitlist : Waitlist) (unit : Package) : Waitlist :=
  if scope.paths.contains unit.id then
    let imports := scope.importsOf unit
    { counts := waitlist.counts.insert unit.id.index imports.length
      dependents := imports.foldl (fun dependents id =>
        dependents.insert id (dependents.getD id [] ++ [unit.id])) waitlist.dependents }
  else waitlist

def ofUnits (scope : Scope) (units : List Package) : Waitlist :=
  units.foldl (enroll scope) {}

def waiting (waitlist : Waitlist) : List UnitId :=
  waitlist.counts.keys.map .mk

def ready (waitlist : Waitlist) : List UnitId :=
  (waitlist.counts.toList.filter (·.2 == 0)).map (⟨·.1⟩)

/-- Takes a unit and lowers the count of every waiting unit that imports it. -/
def release (waitlist : Waitlist) (id : UnitId) : Waitlist :=
  { waitlist with
    counts := (waitlist.dependents.getD id []).foldl
      (fun counts dependent => counts.modify dependent.index (· - 1))
      (waitlist.counts.erase id.index) }

/-- The next level: the units that are ready, or the unit at which a cycle is broken. -/
def nextLevel (scope : Scope) (waitlist : Waitlist) : List UnitId × List Warning :=
  match waitlist.ready with
  | [] =>
    match (waitlist.waiting.mergeSort scope.before).head? with
    | none => ([], [])
    | some forced => ([forced], [.importCycle (scope.pathOf forced)])
  | ready => (ready.mergeSort scope.before, [])

theorem size_foldl_modify (units : List UnitId) (counts : Std.ExtTreeMap Nat Nat compare) :
    (units.foldl (fun counts unit => counts.modify unit.index (· - 1)) counts).size =
      counts.size := by
  induction units generalizing counts with
  | nil => rfl
  | cons unit rest ih => rw [List.foldl_cons, ih, Std.ExtTreeMap.size_modify]

theorem size_release (waitlist : Waitlist) (id : UnitId) :
    (waitlist.release id).counts.size = (waitlist.counts.erase id.index).size :=
  size_foldl_modify _ _

theorem size_foldl_release_le (level : List UnitId) (waitlist : Waitlist) :
    (level.foldl release waitlist).counts.size ≤ waitlist.counts.size := by
  induction level generalizing waitlist with
  | nil => exact Nat.le_refl _
  | cons id rest ih =>
    refine Nat.le_trans (ih (waitlist.release id)) ?_
    rw [size_release]
    exact Std.ExtTreeMap.size_erase_le

theorem mem_waiting_iff {waitlist : Waitlist} {id : UnitId} :
    id ∈ waitlist.waiting ↔ id.index ∈ waitlist.counts := by
  simp only [waiting, List.mem_map, Std.ExtTreeMap.mem_keys]
  exact ⟨fun ⟨_, member, same⟩ => same ▸ member, fun member => ⟨_, member, rfl⟩⟩

theorem mem_ready_iff {waitlist : Waitlist} {id : UnitId} :
    id ∈ waitlist.ready ↔ waitlist.counts[id.index]? = some 0 := by
  simp only [ready, List.mem_map, List.mem_filter, Prod.exists,
    Std.ExtTreeMap.mem_toList_iff_getElem?_eq_some, beq_iff_eq]
  constructor
  · rintro ⟨_, _, ⟨found, rfl⟩, rfl⟩
    exact found
  · exact fun found => ⟨_, _, ⟨found, rfl⟩, rfl⟩

theorem mem_of_mem_nextLevel (scope : Scope) {waitlist : Waitlist} {id : UnitId}
    (member : id ∈ (waitlist.nextLevel scope).1) : id.index ∈ waitlist.counts := by
  unfold nextLevel at member
  split at member
  · split at member
    · cases member
    · rename_i forced first
      cases List.mem_singleton.mp member
      exact mem_waiting_iff.mp (List.mem_mergeSort.mp (List.mem_of_mem_head? first))
  · have isReady := mem_ready_iff.mp (List.mem_mergeSort.mp member)
    exact Std.ExtTreeMap.isSome_getElem?_iff_mem.mp (by rw [isReady]; rfl)

theorem nextLevel_ne_nil (scope : Scope) {waitlist : Waitlist}
    (waits : waitlist.counts.isEmpty = false) : (waitlist.nextLevel scope).1 ≠ [] := by
  unfold nextLevel
  split
  · split
    · rename_i none
      rw [List.head?_eq_none_iff] at none
      have empty := congrArg List.length none
      rw [List.length_mergeSort, waiting, List.length_map, Std.ExtTreeMap.length_keys] at empty
      rw [Std.ExtTreeMap.isEmpty_eq_size_beq_zero, empty] at waits
      cases waits
    · exact List.cons_ne_nil _ _
  · rename_i some
    intro none
    have empty := congrArg List.length none
    rw [List.length_mergeSort] at empty
    exact some (List.length_eq_zero_iff.mp empty)

theorem size_foldl_nextLevel_lt (scope : Scope) {waitlist : Waitlist}
    (waits : waitlist.counts.isEmpty = false) :
    ((waitlist.nextLevel scope).1.foldl release waitlist).counts.size < waitlist.counts.size := by
  cases taken : (waitlist.nextLevel scope).1 with
  | nil => exact absurd taken (nextLevel_ne_nil scope waits)
  | cons first rest =>
    have member : first.index ∈ waitlist.counts :=
      mem_of_mem_nextLevel scope (taken ▸ List.mem_cons_self)
    have positive : waitlist.counts.size ≠ 0 := fun none => by
      rw [Std.ExtTreeMap.isEmpty_eq_size_beq_zero, none] at waits
      cases waits
    refine Nat.lt_of_le_of_lt (size_foldl_release_le rest _) ?_
    rw [size_release, Std.ExtTreeMap.size_erase, if_pos (Std.ExtTreeMap.contains_iff_mem.mpr member)]
    omega

/-- Takes one level after the other until no unit waits. -/
def levels (scope : Scope) (waitlist : Waitlist) : List (List UnitId) × List Warning :=
  if _ : waitlist.counts.isEmpty then ([], [])
  else
    let taken := waitlist.nextLevel scope
    let later := levels scope (taken.1.foldl release waitlist)
    (taken.1 :: later.1, taken.2 ++ later.2)
termination_by waitlist.counts.size
decreasing_by
  rename_i waits
  exact size_foldl_nextLevel_lt scope (Bool.not_eq_true _ ▸ waits)

end Waitlist

/-- The schedule of a program, and warnings about import cycles. -/
def build (program : Program) (policy : Policy) : Schedule × List Warning :=
  let units := program.units.toList
  let scope := Scope.ofUnits policy units
  let (levels, warnings) := (Waitlist.ofUnits scope units).levels scope
  (⟨levels, scope.skipped.toList⟩, warnings)

end Schedule

end ErrorWrapping
