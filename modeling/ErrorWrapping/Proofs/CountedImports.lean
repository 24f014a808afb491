import ErrorWrapping.Proofs.SortedEntries
import ErrorWrapping.Proofs.WaitingUnits
import Mathlib.Data.List.Induction

/-
Counts of imports that wait.

The count of a waiting unit is the number of waiting units that it imports, and stays so whichever
unit is taken next, since that unit is listed once among the dependents of each unit it imports. So
a count is zero exactly when no import waits, and the levels taken by counts are the levels taken
from the units that wait.
-/

namespace ErrorWrapping

namespace Schedule

/-- How many of the waiting units a unit imports. -/
def Waiting.pending (waiting : List Waiting) (unit : Waiting) : Nat :=
  waiting.countP fun other => unit.imports.contains other.id

theorem Waiting.isReady_iff_pending {waiting : List Waiting} {unit : Waiting} :
    isReady waiting unit = true ↔ pending waiting unit = 0 := by
  rw [mem_isReady_iff, pending, List.countP_eq_zero]
  simp only [List.contains_iff_mem]
  exact ⟨fun free other waits imported => free other.id imported other waits rfl,
    fun free id imported other waits same => free other waits (same ▸ imported)⟩

/-! ### Counting down -/

namespace Waitlist

/-- Every unit that waits has its path, the count of its imports that wait, and stands once among
the dependents of each unit that it imports. -/
structure Tracks (scope : Scope) (waitlist : Waitlist) (waiting : List Waiting) : Prop where
  once : (waiting.map (·.id)).Nodup
  apart : (waiting.map (·.path)).Nodup
  path : ∀ unit ∈ waiting, scope.pathOf unit.id = unit.path
  only : ∀ id : UnitId, id.index ∈ waitlist.counts → ∃ unit ∈ waiting, unit.id = id
  counted : ∀ unit ∈ waiting, waitlist.counts[unit.id.index]? = some (unit.pending waiting)
  listed : ∀ unit ∈ waiting, ∀ id,
    (waitlist.dependents.getD id []).count unit.id = if id ∈ unit.imports then 1 else 0

variable {scope : Scope} {waitlist : Waitlist} {waiting : List Waiting} {unit other : Waiting}

theorem compare_index_eq_iff {one other : UnitId} :
    compare one.index other.index = .eq ↔ one = other :=
  Std.LawfulEqCmp.compare_eq_iff_eq.trans ⟨congrArg UnitId.mk, congrArg UnitId.index⟩

theorem getElem?_foldl_modify (units : List UnitId) (counts : Std.ExtTreeMap Nat Nat compare)
    (id : UnitId) :
    (units.foldl (fun counts unit => counts.modify unit.index (· - 1)) counts)[id.index]? =
      counts[id.index]?.map (· - units.count id) := by
  induction units generalizing counts with
  | nil => simp
  | cons unit rest ih =>
      rw [List.foldl_cons, ih, Std.ExtTreeMap.getElem?_modify]
      simp only [compare_index_eq_iff]
      by_cases same : unit = id
      · subst same
        rw [if_pos rfl, Option.map_map, List.count_cons_self]
        congr 1
        funext count
        simp only [Function.comp]
        omega
      · rw [if_neg same, List.count_cons_of_ne same]

theorem getElem?_release (id : UnitId) (other : UnitId) :
    (waitlist.release id).counts[other.index]? =
      if id = other then none
      else waitlist.counts[other.index]?.map
        (· - (waitlist.dependents.getD id []).count other) := by
  rw [release, getElem?_foldl_modify, Std.ExtTreeMap.getElem?_erase]
  simp only [compare_index_eq_iff]
  split <;> rfl

/-- The units that are left when one is taken. -/
def left (waiting : List Waiting) (id : UnitId) : List Waiting :=
  waiting.filter (·.id != id)

theorem mem_left_iff {id : UnitId} : other ∈ left waiting id ↔ other ∈ waiting ∧ other.id ≠ id := by
  rw [left, List.mem_filter, bne_iff_ne]

theorem perm_cons_left (once : (waiting.map (·.id)).Nodup) (member : unit ∈ waiting) :
    waiting.Perm (unit :: left waiting unit.id) := by
  have notLeft : unit ∉ left waiting unit.id := fun again => (mem_left_iff.mp again).2 rfl
  refine (List.perm_ext_iff_of_nodup once.of_map
    (List.nodup_cons.mpr ⟨notLeft, once.of_map.filter _⟩)).mpr fun other => ?_
  rw [List.mem_cons, mem_left_iff]
  constructor
  · intro waits
    by_cases same : other.id = unit.id
    · exact .inl (List.inj_on_of_nodup_map once waits member same)
    · exact .inr ⟨waits, same⟩
  · rintro (rfl | waits)
    · exact member
    · exact waits.1

/-- A unit that is taken is one import less for the units that import it. -/
theorem pending_left (once : (waiting.map (·.id)).Nodup) (member : unit ∈ waiting) :
    other.pending (left waiting unit.id) =
      other.pending waiting - if unit.id ∈ other.imports then 1 else 0 := by
  rw [Waiting.pending, Waiting.pending, (perm_cons_left once member).countP_eq,
    List.countP_cons]
  simp

/-- Taking a unit keeps every count equal to the number of imports that wait. -/
theorem Tracks.release (tracks : Tracks scope waitlist waiting) (member : unit ∈ waiting) :
    Tracks scope (waitlist.release unit.id) (left waiting unit.id) where
  once := tracks.once.sublist (List.filter_sublist.map _)
  apart := tracks.apart.sublist (List.filter_sublist.map _)
  path other inLeft := tracks.path other (mem_left_iff.mp inLeft).1
  only id counted := by
    have found := Std.ExtTreeMap.isSome_getElem?_iff_mem.mpr counted
    rw [getElem?_release] at found
    by_cases same : unit.id = id
    · rw [if_pos same] at found
      cases found
    · rw [if_neg same, Option.isSome_map] at found
      obtain ⟨other, waits, rfl⟩ :=
        tracks.only id (Std.ExtTreeMap.isSome_getElem?_iff_mem.mp found)
      exact ⟨other, mem_left_iff.mpr ⟨waits, Ne.symm same⟩, rfl⟩
  counted other inLeft := by
    obtain ⟨waits, differs⟩ := mem_left_iff.mp inLeft
    rw [getElem?_release, if_neg (Ne.symm differs), tracks.counted other waits,
      tracks.listed other waits, pending_left tracks.once member, Option.map_some]
  listed other inLeft := tracks.listed other (mem_left_iff.mp inLeft).1

/-- Taking all units of a level, in whatever order. -/
theorem Tracks.foldl_release {level : List UnitId} (tracks : Tracks scope waitlist waiting)
    (once : level.Nodup) (member : ∀ id ∈ level, ∃ unit ∈ waiting, unit.id = id) :
    Tracks scope (level.foldl Waitlist.release waitlist)
      (waiting.filter fun unit => !level.contains unit.id) := by
  induction level generalizing waitlist waiting with
  | nil =>
      have all : waiting.filter (fun unit => !([] : List UnitId).contains unit.id) = waiting :=
        List.filter_eq_self.mpr fun _ _ => rfl
      rw [all]
      exact tracks
  | cons id rest ih =>
      obtain ⟨fresh, later⟩ := List.nodup_cons.mp once
      obtain ⟨unit, waits, rfl⟩ := member id List.mem_cons_self
      have stillWaits : ∀ id ∈ rest, ∃ other ∈ left waiting unit.id, other.id = id := by
        intro id inRest
        obtain ⟨other, alsoWaits, rfl⟩ := member id (List.mem_cons_of_mem _ inRest)
        exact ⟨other, mem_left_iff.mpr ⟨alsoWaits, fun same => fresh (same ▸ inRest)⟩, rfl⟩
      have done := ih (tracks.release waits) later stillWaits
      rw [left, List.filter_filter] at done
      have same : (fun other : Waiting => !(unit.id :: rest).contains other.id) =
          fun other => !rest.contains other.id && other.id != unit.id := by
        funext other
        rw [List.contains_cons, Bool.not_or, Bool.and_comm]
        rfl
      rw [List.foldl_cons, same]
      exact done

/-! ### The same levels -/

theorem Tracks.mem_counts_iff (tracks : Tracks scope waitlist waiting) {id : UnitId} :
    id.index ∈ waitlist.counts ↔ ∃ unit ∈ waiting, unit.id = id := by
  refine ⟨tracks.only id, ?_⟩
  rintro ⟨unit, waits, rfl⟩
  exact Std.ExtTreeMap.isSome_getElem?_iff_mem.mp (by rw [tracks.counted unit waits]; rfl)

theorem Tracks.isEmpty_iff (tracks : Tracks scope waitlist waiting) :
    waitlist.counts.isEmpty = true ↔ waiting = [] := by
  rw [Std.ExtTreeMap.isEmpty_iff, Std.ExtTreeMap.eq_empty_iff_forall_not_mem]
  constructor
  · intro none
    refine List.eq_nil_iff_forall_not_mem.mpr fun unit waits => ?_
    exact none _ (tracks.mem_counts_iff.mpr ⟨unit, waits, rfl⟩)
  · rintro rfl index counted
    obtain ⟨_, impossible, _⟩ := tracks.only ⟨index⟩ counted
    cases impossible

theorem nodup_waiting (waitlist : Waitlist) : waitlist.waiting.Nodup := by
  refine List.Nodup.map (fun one other same => ?_) Std.ExtTreeMap.nodup_keys
  exact congrArg UnitId.index same

theorem nodup_ready (waitlist : Waitlist) : waitlist.ready.Nodup := by
  have keys : (waitlist.counts.toList.map (·.1)).Nodup := by
    rw [Std.ExtTreeMap.map_fst_toList_eq_keys]
    exact Std.ExtTreeMap.nodup_keys
  have indices := (keys.sublist (List.filter_sublist.map _)).map (f := UnitId.mk)
    (l := (waitlist.counts.toList.filter (·.2 == 0)).map (·.1))
    fun one other same => congrArg UnitId.index same
  rw [List.map_map] at indices
  exact indices

theorem Tracks.waiting_perm (tracks : Tracks scope waitlist waiting) :
    (waiting.map (·.id)).Perm waitlist.waiting := by
  refine (List.perm_ext_iff_of_nodup tracks.once (nodup_waiting _)).mpr fun id => ?_
  rw [mem_waiting_iff, tracks.mem_counts_iff, List.mem_map]

/-- A count is zero where no import waits. -/
theorem Tracks.ready_perm (tracks : Tracks scope waitlist waiting) :
    ((waiting.filter (Waiting.isReady waiting)).map (·.id)).Perm waitlist.ready := by
  refine (List.perm_ext_iff_of_nodup (tracks.once.sublist (List.filter_sublist.map _))
    (nodup_ready _)).mpr fun id => ?_
  rw [mem_ready_iff, List.mem_map]
  constructor
  · rintro ⟨unit, isReady, rfl⟩
    obtain ⟨waits, free⟩ := List.mem_filter.mp isReady
    rw [tracks.counted unit waits, Waiting.isReady_iff_pending.mp free]
  · intro zero
    obtain ⟨unit, waits, rfl⟩ :=
      tracks.only id (Std.ExtTreeMap.isSome_getElem?_iff_mem.mp (by rw [zero]; rfl))
    rw [tracks.counted unit waits, Option.some.injEq] at zero
    exact ⟨unit, List.mem_filter.mpr ⟨waits, Waiting.isReady_iff_pending.mpr zero⟩, rfl⟩

/-- Sorting numbers of units by path is sorting the units by path. -/
theorem Tracks.mergeSort_before (tracks : Tracks scope waitlist waiting) {units : List Waiting}
    (sublist : units.Sublist waiting) {ids : List UnitId} (same : (units.map (·.id)).Perm ids) :
    ids.mergeSort scope.before = (units.mergeSort Waiting.before).map (·.id) := by
  have path : ∀ unit ∈ units, scope.pathOf unit.id = unit.path :=
    fun unit member => tracks.path unit (sublist.subset member)
  have paths : ((units.map (·.id)).map scope.pathOf).Nodup := by
    have same : (units.map (·.id)).map scope.pathOf = units.map (·.path) := by
      rw [List.map_map]
      exact List.map_congr_left path
    rw [same]
    exact tracks.apart.sublist (sublist.map _)
  have sorted : ids.mergeSort scope.before = (units.map (·.id)).mergeSort scope.before :=
    mergeSort_of_perm scope.pathOf paths same
  rw [sorted]
  refine (List.map_mergeSort fun one inUnits other alsoInUnits => ?_).symm
  rw [Waiting.before, Scope.before, path one inUnits, path other alsoInUnits]

theorem Tracks.nextLevel (tracks : Tracks scope waitlist waiting) :
    waitlist.nextLevel scope =
      ((Schedule.nextLevel waiting).1.map (·.id), (Schedule.nextLevel waiting).2) := by
  have ready := tracks.ready_perm
  have sorted := tracks.mergeSort_before List.filter_sublist ready
  have least := tracks.mergeSort_before (List.Sublist.refl _) tracks.waiting_perm
  unfold Waitlist.nextLevel Schedule.nextLevel Waiting.least?
  rw [least, List.head?_map]
  generalize waitlist.ready = ids at ready sorted
  generalize waiting.filter (Waiting.isReady waiting) = units at ready sorted
  cases units with
  | nil =>
      cases List.nil_perm.mp ready
      cases first : (waiting.mergeSort Waiting.before).head? with
      | none => rfl
      | some forced =>
          have waits := List.mem_mergeSort.mp (List.mem_of_mem_head? first)
          simp [tracks.path forced waits]
  | cons unit rest =>
      cases ids with
      | nil => exact absurd (List.perm_nil.mp ready) (List.cons_ne_nil _ _)
      | cons id more => exact Prod.ext sorted rfl

/-- What the counts say of the units that wait, they say of the units that wait after a level. -/
theorem Tracks.remaining (tracks : Tracks scope waitlist waiting) :
    Tracks scope ((waitlist.nextLevel scope).1.foldl Waitlist.release waitlist)
      (Schedule.remaining waiting) := by
  have level : (waitlist.nextLevel scope).1 = (Schedule.nextLevel waiting).1.map (·.id) :=
    congrArg Prod.fst tracks.nextLevel
  have once : ((Schedule.nextLevel waiting).1.map (·.id)).Nodup :=
    (nodup_nextLevel tracks.once.of_map).map_on fun one inLevel other alsoInLevel same =>
      List.inj_on_of_nodup_map tracks.once (Schedule.mem_of_mem_nextLevel inLevel)
        (Schedule.mem_of_mem_nextLevel alsoInLevel) same
  have taken := tracks.foldl_release once fun id member => by
    obtain ⟨unit, inLevel, rfl⟩ := List.mem_map.mp member
    exact ⟨unit, Schedule.mem_of_mem_nextLevel inLevel, rfl⟩
  have same : (Schedule.remaining waiting) =
      waiting.filter fun unit => !((Schedule.nextLevel waiting).1.map (·.id)).contains unit.id := by
    refine List.filter_congr fun unit _ => ?_
    rw [Bool.eq_iff_iff]
    simp
  rw [level, same]
  exact taken

/-- Counting takes the same levels, and breaks the same cycles, as looking at what waits. -/
theorem Tracks.levels_eq_drain (tracks : Tracks scope waitlist waiting) {rounds : Nat}
    (enough : waiting.length ≤ rounds) : waitlist.levels scope = drain rounds waiting := by
  induction rounds generalizing waitlist waiting with
  | zero =>
      have none := List.length_eq_zero_iff.mp (Nat.le_zero.mp enough)
      rw [levels, dif_pos (tracks.isEmpty_iff.mpr none)]
      rfl
  | succ rounds ih =>
      rw [levels]
      by_cases none : waiting = []
      · rw [dif_pos (tracks.isEmpty_iff.mpr none), none]
        rfl
      · have shorter := length_remaining_lt none
        rw [dif_neg (mt tracks.isEmpty_iff.mp none)]
        simp only
        rw [ih tracks.remaining (by omega), tracks.nextLevel]
        cases waiting with
        | nil => exact absurd rfl none
        | cons first rest => rfl

end Waitlist

/-! ### The counts at first -/

namespace Scope

variable {policy : Policy} {units : List Package} {unit : Package} {id : UnitId}

theorem byPath_ofUnits (path : String) :
    (ofUnits policy units).byPath[path]? = unitInScope? policy units path := by
  induction units using List.reverseRecOn with
  | nil => simp [ofUnits, unitInScope?]
  | append_singleton front last ih =>
      rw [ofUnits, List.foldl_append, ← ofUnits, List.foldl_cons, List.foldl_nil, add,
        unitInScope?, List.reverse_concat, List.find?_cons]
      by_cases inScope : policy.inScope last.path = true
      · rw [if_pos inScope, Std.HashMap.getElem?_insert, inScope, Bool.and_true]
        by_cases here : last.path = path
        · simp [here]
        · simp [beq_false_of_ne here, ih, unitInScope?]
      · simp [inScope, ih, unitInScope?]

theorem paths_ofUnits (id : UnitId) :
    (ofUnits policy units).paths[id]? =
      (units.reverse.find? fun unit => unit.id == id && policy.inScope unit.path).map (·.path) := by
  induction units using List.reverseRecOn with
  | nil => simp [ofUnits]
  | append_singleton front last ih =>
      rw [ofUnits, List.foldl_append, ← ofUnits, List.foldl_cons, List.foldl_nil, add,
        List.reverse_concat, List.find?_cons]
      by_cases inScope : policy.inScope last.path = true
      · rw [if_pos inScope, Std.HashMap.getElem?_insert, inScope, Bool.and_true]
        by_cases here : last.id = id
        · simp [here]
        · simp [beq_false_of_ne here, ih]
      · simp [inScope, ih]

theorem skipped_ofUnits (policy : Policy) (units : List Package) :
    (ofUnits policy units).skipped.toList =
      (units.filter fun unit => !policy.inScope unit.path).map (·.id) := by
  induction units using List.reverseRecOn with
  | nil => simp [ofUnits]
  | append_singleton front last ih =>
      rw [ofUnits, List.foldl_append, ← ofUnits, List.foldl_cons, List.foldl_nil, add,
        List.filter_append]
      by_cases inScope : policy.inScope last.path = true <;> simp [inScope, ih]

theorem nodup_importsOf (scope : Scope) (unit : Package) : (scope.importsOf unit).Nodup := by
  have sorted (ids : List UnitId) :
      (ids.mergeSort (·.index ≤ ·.index)).Pairwise fun left right => left.index ≤ right.index := by
    refine (List.pairwise_mergeSort ?_ ?_ ids).imp of_decide_eq_true
    · intro left middle right first second
      exact decide_eq_true (Nat.le_trans (of_decide_eq_true first) (of_decide_eq_true second))
    · intro left right
      simpa using Nat.le_total left.index right.index
  exact Sorted.nodup_dropRepeats (sorted _) fun left right below above =>
    congrArg UnitId.mk (Nat.le_antisymm below above)

theorem mem_importsOf_iff :
    id ∈ (ofUnits policy units).importsOf unit ↔ id ∈ (waitingOf policy units unit).imports := by
  have same : ((ofUnits policy units).byPath[·]?) = unitInScope? policy units :=
    funext byPath_ofUnits
  rw [importsOf, Sorted.mem_dropRepeats, List.mem_mergeSort, same]
  rfl

end Scope

namespace Waitlist

variable {scope : Scope} {units : List Package}

theorem counts_ofUnits (id : UnitId) :
    (ofUnits scope units).counts[id.index]? =
      (units.reverse.find? fun unit => unit.id == id && scope.paths.contains unit.id).map
        fun unit => (scope.importsOf unit).length := by
  induction units using List.reverseRecOn with
  | nil => simp [ofUnits]
  | append_singleton front last ih =>
      rw [ofUnits, List.foldl_append, ← ofUnits, List.foldl_cons, List.foldl_nil, enroll,
        List.reverse_concat, List.find?_cons]
      by_cases known : scope.paths.contains last.id = true
      · rw [if_pos known, Std.ExtTreeMap.getElem?_insert, known, Bool.and_true]
        simp only [compare_index_eq_iff]
        by_cases here : last.id = id
        · simp [here]
        · simp [beq_false_of_ne here, here, ih]
      · simp [known, ih]

theorem getD_foldl_insert {imports : List UnitId} (once : imports.Nodup) (importer id : UnitId)
    (dependents : Std.HashMap UnitId (List UnitId)) :
    (imports.foldl (fun dependents id =>
        dependents.insert id (dependents.getD id [] ++ [importer])) dependents).getD id [] =
      dependents.getD id [] ++ if id ∈ imports then [importer] else [] := by
  induction imports generalizing dependents with
  | nil => simp
  | cons first rest ih =>
      obtain ⟨fresh, later⟩ := List.nodup_cons.mp once
      rw [List.foldl_cons, ih later, Std.HashMap.getD_insert]
      by_cases here : first = id
      · subst here
        simp [fresh]
      · simp [here, Ne.symm here]

theorem dependents_ofUnits (id : UnitId) :
    (ofUnits scope units).dependents.getD id [] =
      (units.filter fun unit =>
        scope.paths.contains unit.id && (scope.importsOf unit).contains id).map (·.id) := by
  induction units using List.reverseRecOn with
  | nil => simp [ofUnits]
  | append_singleton front last ih =>
      rw [ofUnits, List.foldl_append, ← ofUnits, List.foldl_cons, List.foldl_nil, enroll,
        List.filter_append, List.map_append, ← ih]
      by_cases known : scope.paths.contains last.id = true
      · rw [if_pos known, getD_foldl_insert (scope.nodup_importsOf last)]
        by_cases imported : id ∈ scope.importsOf last <;> simp [known, imported]
      · simp [known]

end Waitlist

end Schedule

namespace Program

open Schedule

variable {program : Program} {policy : Policy} {unit other : Package}

/-- The units in scope, as the counting starts with them. -/
def scope (program : Program) (policy : Policy) : Scope :=
  .ofUnits policy program.units.toList

theorem Indexed.find?_id (indexed : program.Indexed) (member : unit ∈ program.units)
    (test : Package → Bool) :
    (program.units.toList.reverse.find? fun other => other.id == unit.id && test other) =
      if test unit then some unit else none := by
  have same : ∀ other ∈ program.units.toList.reverse, other.id = unit.id → other = unit :=
    fun other inUnits => indexed.eq_of_id (Array.mem_toList_iff.mp (List.mem_reverse.mp inUnits))
      member
  have here : unit ∈ program.units.toList.reverse :=
    List.mem_reverse.mpr (Array.mem_toList_iff.mpr member)
  cases found : program.units.toList.reverse.find? fun other =>
      other.id == unit.id && test other with
  | none =>
      have fails := List.find?_eq_none.mp found unit here
      rw [beq_self_eq_true, Bool.true_and] at fails
      rw [if_neg fails]
  | some other =>
      have holds := List.find?_some found
      rw [Bool.and_eq_true, beq_iff_eq] at holds
      obtain rfl := same other (List.mem_of_find?_eq_some found) holds.1
      rw [if_pos holds.2]

theorem Indexed.paths_scope (indexed : program.Indexed) (member : unit ∈ program.units) :
    (program.scope policy).paths[unit.id]? =
      if policy.inScope unit.path then some unit.path else none := by
  rw [scope, Scope.paths_ofUnits, indexed.find?_id member fun unit => policy.inScope unit.path]
  split <;> rfl

theorem Indexed.contains_scope (indexed : program.Indexed) (member : unit ∈ program.units) :
    (program.scope policy).paths.contains unit.id = policy.inScope unit.path := by
  rw [Std.HashMap.contains_eq_isSome_getElem?, indexed.paths_scope member]
  cases policy.inScope unit.path <;> rfl

/-- What a checked unit imports in scope is a checked unit. -/
theorem Indexed.exists_of_mem_imports (indexed : program.Indexed) {id : UnitId}
    (imported : id ∈ (waitingOf policy program.units.toList unit).imports) :
    ∃ other, program.Checks policy other ∧ other.id = id := by
  obtain ⟨path, _, known⟩ := List.mem_filterMap.mp (List.mem_of_mem_filter imported)
  obtain ⟨other, found, rfl, inScope⟩ := indexed.unitInScope?_eq_some_iff.mp known
  exact ⟨other, ⟨mem_of_unit? found, inScope⟩, indexed.id_of_unit? found⟩

/-- At first a unit has as many imports that wait as it imports units in scope. -/
theorem Indexed.pending_checked (indexed : program.Indexed) (unit : Package) :
    (waitingOf policy program.units.toList unit).pending
        ((program.checked policy).map (waitingOf policy program.units.toList)) =
      ((program.scope policy).importsOf unit).length := by
  have once := indexed.nodup_waiting policy
  rw [Waiting.pending, List.countP_eq_length_filter, ← List.length_map (·.id)]
  refine List.Perm.length_eq ((List.perm_ext_iff_of_nodup
    (once.sublist (List.filter_sublist.map _)) (Scope.nodup_importsOf _ unit)).mpr fun id => ?_)
  rw [scope, Scope.mem_importsOf_iff]
  simp only [List.mem_map, List.mem_filter, List.contains_iff_mem]
  constructor
  · rintro ⟨_, ⟨_, imported⟩, rfl⟩
    exact imported
  · intro imported
    obtain ⟨other, checks, rfl⟩ := indexed.exists_of_mem_imports imported
    exact ⟨_, ⟨⟨other, mem_checked_iff.mpr checks, rfl⟩, imported⟩, rfl⟩

theorem Indexed.nodup_ids (indexed : program.Indexed) : (program.units.toList.map (·.id)).Nodup :=
  (indexed.distinct.of_map _).map_on fun _ member _ also same =>
    indexed.eq_of_id (Array.mem_toList_iff.mp member) (Array.mem_toList_iff.mp also) same

/-- At first a checked unit stands once among the dependents of each unit that it imports. -/
theorem Indexed.count_dependents (indexed : program.Indexed) (checks : program.Checks policy unit)
    (id : UnitId) :
    ((Waitlist.ofUnits (program.scope policy) program.units.toList).dependents.getD id []).count
        unit.id =
      if id ∈ (waitingOf policy program.units.toList unit).imports then 1 else 0 := by
  rw [Waitlist.dependents_ofUnits]
  have once := indexed.nodup_ids.sublist ((List.filter_sublist (p := fun unit =>
    (program.scope policy).paths.contains unit.id &&
      ((program.scope policy).importsOf unit).contains id)).map _)
  rw [once.count]
  refine if_congr ?_ rfl rfl
  rw [← Scope.mem_importsOf_iff, ← scope, List.mem_map]
  constructor
  · rintro ⟨other, inUnits, same⟩
    obtain ⟨inUnits, holds⟩ := List.mem_filter.mp inUnits
    obtain rfl := indexed.eq_of_id (Array.mem_toList_iff.mp inUnits) checks.1 same
    exact List.contains_iff_mem.mp (Bool.and_eq_true_iff.mp holds).2
  · intro imported
    refine ⟨unit, List.mem_filter.mpr ⟨Array.mem_toList_iff.mpr checks.1, ?_⟩, rfl⟩
    rw [indexed.contains_scope checks.1, checks.2, Bool.true_and]
    exact List.contains_iff_mem.mpr imported

theorem Indexed.tracks_checked (indexed : program.Indexed) (policy : Policy) :
    Waitlist.Tracks (program.scope policy)
      (.ofUnits (program.scope policy) program.units.toList)
      ((program.checked policy).map (waitingOf policy program.units.toList)) where
  once := indexed.nodup_waiting policy
  apart := by
    rw [List.map_map]
    exact indexed.distinct.sublist (List.filter_sublist.map _)
  path := by
    refine List.forall_mem_map.mpr fun unit member => ?_
    have checks := mem_checked_iff.mp member
    have path : (program.scope policy).paths[unit.id]? = _ := indexed.paths_scope checks.1
    rw [if_pos checks.2] at path
    rw [Scope.pathOf, Std.HashMap.getD_eq_getD_getElem?, waitingOf, path]
    rfl
  only id counted := by
    have found := Std.ExtTreeMap.isSome_getElem?_iff_mem.mpr counted
    rw [Waitlist.counts_ofUnits, Option.isSome_map, List.find?_isSome] at found
    obtain ⟨unit, inUnits, holds⟩ := found
    rw [Bool.and_eq_true, beq_iff_eq] at holds
    have member := Array.mem_toList_iff.mp (List.mem_reverse.mp inUnits)
    rw [indexed.contains_scope member] at holds
    exact ⟨_, List.mem_map_of_mem (mem_checked_iff.mpr ⟨member, holds.2⟩), holds.1⟩
  counted := by
    refine List.forall_mem_map.mpr fun unit member => ?_
    have checks := mem_checked_iff.mp member
    rw [indexed.pending_checked, waitingOf, Waitlist.counts_ofUnits,
      indexed.find?_id checks.1 fun unit => (program.scope policy).paths.contains unit.id,
      indexed.contains_scope checks.1, if_pos checks.2]
    rfl
  listed := by
    refine List.forall_mem_map.mpr fun unit member => ?_
    exact indexed.count_dependents (mem_checked_iff.mp member)

/-- The levels of a schedule, and its warnings, are those of taking what waits level by level. -/
theorem Indexed.drain_checked (indexed : program.Indexed) (policy : Policy) {rounds : Nat}
    (enough : (program.checked policy).length ≤ rounds) :
    drain rounds ((program.checked policy).map (waitingOf policy program.units.toList)) =
      ((build program policy).1.levels, (build program policy).2) := by
  have counted := (indexed.tracks_checked policy).levels_eq_drain
    (Nat.le_trans (Nat.le_of_eq (List.length_map _)) enough)
  rw [← counted]
  rfl

end Program

end ErrorWrapping
