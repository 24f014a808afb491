import ErrorWrapping.Analysis.Report
import ErrorWrapping.Proofs.Escapes
import Std.Data.HashMap.Lemmas

/-
The workload of a unit whose tree can be walked.

Such a unit can always be summarized. Its workload lists the declared functions and the literals
that occur, each with its symbol, whether it has an error result, and its error sources; and it
knows for each symbol a function that declares it.
-/

namespace ErrorWrapping

section Tables

variable {α κ β : Type} [BEq κ] [Hashable κ] [LawfulBEq κ] [LawfulHashable κ]
  {key : α → Option κ} {value : α → β} {step : Std.HashMap κ β → α → Std.HashMap κ β}

/-- A table filled from a list holds for each key the last entry of that key. -/
theorem getElem?_foldl_insert
    (steps : ∀ table entry, step table entry =
      match key entry with
      | some k => table.insert k (value entry)
      | none => table)
    (entries : List α) (table : Std.HashMap κ β) (k : κ) :
    (entries.foldl step table)[k]? =
      ((entries.reverse.find? fun entry => key entry == some k).map value).or table[k]? := by
  induction entries generalizing table with
  | nil => rfl
  | cons entry rest ih =>
      rw [List.foldl_cons, ih, List.reverse_cons, List.find?_append, steps]
      cases rest.reverse.find? fun entry => key entry == some k with
      | some last => rfl
      | none =>
          cases named : key entry with
          | none => simp [named]
          | some own =>
              by_cases same : own = k
              · simp [named, same]
              · simp [named, same, Std.HashMap.getElem?_insert]

theorem exists_of_getElem?_foldl_insert (key : α → Option κ) (value : α → β)
    (steps : ∀ table entry, step table entry =
      match key entry with
      | some k => table.insert k (value entry)
      | none => table)
    {entries : List α} {k : κ} {v : β} (found : (entries.foldl step ∅)[k]? = some v) :
    ∃ entry ∈ entries, key entry = some k ∧ value entry = v := by
  rw [getElem?_foldl_insert steps, Std.HashMap.getElem?_empty, Option.or_none] at found
  obtain ⟨entry, last, same⟩ := Option.map_eq_some_iff.mp found
  refine ⟨entry, List.mem_reverse.mp (List.mem_of_find?_eq_some last), ?_, same⟩
  exact eq_of_beq (List.find?_some (p := fun entry => key entry == some k) last)

theorem exists_getElem?_foldl_insert (key : α → Option κ) (value : α → β)
    (steps : ∀ table entry, step table entry =
      match key entry with
      | some k => table.insert k (value entry)
      | none => table)
    {entries : List α} {entry : α} {k : κ} (member : entry ∈ entries)
    (named : key entry = some k) : ∃ v, (entries.foldl step ∅)[k]? = some v := by
  rw [getElem?_foldl_insert steps, Std.HashMap.getElem?_empty, Option.or_none]
  cases last : entries.reverse.find? fun entry => key entry == some k with
  | some found => exact ⟨value found, rfl⟩
  | none =>
      have differs := List.find?_eq_none.mp last entry (List.mem_reverse.mpr member)
      exact absurd (beq_iff_eq.mpr named) differs

end Tables

/-- A function of a unit: a declared one, or a literal that occurs in it. -/
def Package.Has (unit : Package) (func : FuncId) : Prop :=
  func ∈ unit.decls ∨ unit.Occurs (.literal func)

namespace UnitView

variable {view : UnitView} {nodes : List NodeRef} {index : DefinitionIndex}

/-- A function of a unit and what its tree says of it. -/
structure Describes (view : UnitView) (func : FuncId) (function : Function) (subject : Subject) :
    Prop where
  has : view.unit.Has func
  found : view.arena.function? func = some function
  symbol : subject.symbol = function.symbol
  hasError : subject.hasError = function.returnsError view.types
  escapes : ∀ source : Option CallTarget, source ∈ subject.escapes.map (·.target) ↔
    subject.hasError = true ∧ view.Source function source

/-- A workload that lists the functions of a unit as they are. -/
structure Mirrors (view : UnitView) (work : Workload) : Prop where
  order : ∀ func, func ∈ work.order ↔ view.unit.Has func
  listed : ∀ func, view.unit.Has func → ∃ subject, work.subjects[func]? = some subject
  describes : ∀ (func : FuncId) (subject : Subject), work.subjects[func]? = some subject →
    ∃ function, view.Describes func function subject
  declared : ∀ (id : SymbolId) (func : FuncId), work.declared[id]? = some func →
    func ∈ view.unit.decls ∧ view.unit.symbolOf? func = some id
  known : ∀ (id : SymbolId) (func : FuncId), func ∈ view.unit.decls →
    view.unit.symbolOf? func = some id → ∃ other, work.declared[id]? = some other

/-! ### The order of functions -/

theorem mem_nameLiterals_iff {outer : String} {nodes : List NodeRef} {func : FuncId} :
    (∃ name, (func, name) ∈ nameLiterals outer nodes) ↔ NodeRef.literal func ∈ nodes := by
  have firsts : (∃ name, (func, name) ∈ nameLiterals outer nodes) ↔
      func ∈ (nameLiterals outer nodes).map Prod.fst := by
    simp only [List.mem_map, Prod.exists, exists_and_right, exists_eq_right]
  rw [firsts, nameLiterals, List.map_map]
  -- Numbering the literals does not change which they are.
  change func ∈ List.map Prod.fst (List.zipIdx _) ↔ _
  rw [List.zipIdx_map_fst, List.mem_filterMap]
  constructor
  · intro found
    obtain ⟨node, member, same⟩ := found
    cases node with
    | literal id =>
        cases same
        exact member
    | _ => cases same
  · intro member
    exact ⟨_, member, rfl⟩

theorem exists_functionOrder? (walked : view.unit.allNodes? = some nodes) :
    ∃ order, view.functionOrder? = some order := by
  have defined : ∀ decl ∈ view.unit.decls, ∃ entries, view.declOrder? decl = some entries := by
    intro decl declared
    obtain ⟨function, roots, body, found, listed, walkedBody, _⟩ :=
      Package.exists_body_of_decl walked declared
    refine ⟨(decl, function.name) :: nameLiterals function.name body, ?_⟩
    simp only [declOrder?, arena, found, listed, walkedBody, Option.bind_eq_bind, Option.bind_some,
      Option.pure_def]
  obtain ⟨declared, all⟩ := exists_mapM_eq_some defined
  obtain ⟨_, globals, _, walkedGlobals, _⟩ := Package.allNodes?_eq_some walked
  refine ⟨declared.flatten ++ nameLiterals "glob" globals, ?_⟩
  rw [Package.globalNodes?] at walkedGlobals
  simp only [functionOrder?, arena, all, walkedGlobals, Option.bind_eq_bind, Option.bind_some,
    Option.pure_def]

theorem mem_functionOrder?_iff {order : List (FuncId × String)}
    (listed : view.functionOrder? = some order) {func : FuncId} :
    (∃ name, (func, name) ∈ order) ↔ view.unit.Has func := by
  obtain ⟨declared, all, rest⟩ := Option.bind_eq_some_iff.mp listed
  obtain ⟨globals, walkedGlobals, same⟩ := Option.bind_eq_some_iff.mp rest
  cases same
  simp only [List.mem_append, exists_or, mem_nameLiterals_iff, Package.Has, Package.Occurs,
    Arena.mem_walk_iff walkedGlobals, ← or_assoc]
  apply or_congr_left
  constructor
  · intro found
    obtain ⟨name, member⟩ := found
    obtain ⟨decl, inDecls, entries, known, inEntries⟩ := (mem_flatten_of_mapM all).mp member
    obtain ⟨function, found, rest⟩ := Option.bind_eq_some_iff.mp known
    obtain ⟨roots, refs, rest⟩ := Option.bind_eq_some_iff.mp rest
    obtain ⟨body, walkedBody, same⟩ := Option.bind_eq_some_iff.mp rest
    cases same
    rcases List.mem_cons.mp inEntries with itself | inside
    · cases itself
      exact Or.inl inDecls
    · refine Or.inr ⟨decl, inDecls, function, roots, found, refs, ?_⟩
      exact (Arena.mem_walk_iff walkedBody).mp (mem_nameLiterals_iff.mp ⟨name, inside⟩)
  · intro has
    have entriesOf : ∀ decl ∈ view.unit.decls, ∃ function roots body,
        view.arena.function? decl = some function ∧
        view.arena.bodyRefs? function = some roots ∧
        view.arena.walk .whole roots = some body ∧
        ∀ entry ∈ (decl, function.name) :: nameLiterals function.name body,
          entry ∈ declared.flatten := by
      intro decl inDecls
      obtain ⟨entries, inLists, known⟩ := mem_of_forall₂_left (mapM_eq_some_iff.mp all) inDecls
      obtain ⟨function, found, rest⟩ := Option.bind_eq_some_iff.mp known
      obtain ⟨roots, refs, rest⟩ := Option.bind_eq_some_iff.mp rest
      obtain ⟨body, walkedBody, same⟩ := Option.bind_eq_some_iff.mp rest
      cases same
      exact ⟨function, roots, body, found, refs, walkedBody, fun entry inEntries =>
        List.mem_flatten_of_mem inLists inEntries⟩
    rcases has with inDecls | ⟨decl, inDecls, function, roots, found, refs, met⟩
    · obtain ⟨function, _, _, _, _, _, inside⟩ := entriesOf func inDecls
      exact ⟨function.name, inside _ (List.mem_cons_self ..)⟩
    · obtain ⟨function', roots', body, found', refs', walkedBody, inside⟩ := entriesOf decl inDecls
      cases found.symm.trans found'
      cases refs.symm.trans refs'
      obtain ⟨name, member⟩ := mem_nameLiterals_iff.mpr ((Arena.mem_walk_iff walkedBody).mpr met)
      exact ⟨name, inside _ (List.mem_cons_of_mem _ member)⟩

/-! ### Subjects -/

theorem exists_body_of_has (walked : view.unit.allNodes? = some nodes) {func : FuncId}
    (has : view.unit.Has func) :
    ∃ function roots body, view.arena.function? func = some function ∧
      view.arena.bodyRefs? function = some roots ∧ view.arena.walk .whole roots = some body ∧
      ∀ node ∈ body, node ∈ nodes := by
  rcases has with declared | occurs
  · exact Package.exists_body_of_decl walked declared
  · exact Package.exists_body_of_literal walked ((Package.mem_allNodes_iff walked).mpr occurs)

theorem exists_subject? (walked : view.unit.allNodes? = some nodes)
    (indexed : view.definitionIndex? nodes = some index) {entry : FuncId × String}
    (has : view.unit.Has entry.1) : ∃ subject, view.subject? index entry = some subject := by
  obtain ⟨function, roots, body, found, listed, walkedBody, inside⟩ :=
    exists_body_of_has walked has
  obtain ⟨escapes, computed⟩ := exists_escapes? (Package.closed_allNodes walked) indexed listed
    walkedBody inside
  unfold subject?
  rw [found, Option.bind_eq_bind, Option.bind_some]
  dsimp only
  split
  · rw [computed]
    exact ⟨_, rfl⟩
  · exact ⟨_, rfl⟩

theorem subject?_eq_some {entry : FuncId × String} {subject : Subject}
    (made : view.subject? index entry = some subject) :
    ∃ function, view.arena.function? entry.1 = some function ∧
      subject = ⟨entry.1, entry.2, function.symbol, function.span,
        (ErrorShape.ofFunction view.types function).hasError, subject.escapes⟩ ∧
      (subject.hasError = true → view.escapes? index function = some subject.escapes) := by
  obtain ⟨function, found, rest⟩ := Option.bind_eq_some_iff.mp made
  refine ⟨function, found, ?_⟩
  dsimp only at rest
  split at rest
  · obtain ⟨escapes, computed, same⟩ := Option.bind_eq_some_iff.mp rest
    cases same
    exact ⟨rfl, fun _ => computed⟩
  · rename_i infallible
    cases rest
    exact ⟨rfl, fun fallible => absurd fallible infallible⟩

theorem describes_of_subject? (walked : view.unit.allNodes? = some nodes)
    (indexed : view.definitionIndex? nodes = some index) {entry : FuncId × String}
    {subject : Subject} (has : view.unit.Has entry.1)
    (made : view.subject? index entry = some subject) :
    subject.func = entry.1 ∧ ∃ function, view.Describes entry.1 function subject := by
  obtain ⟨function, found, rest⟩ := Option.bind_eq_some_iff.mp made
  dsimp only at rest
  split at rest
  · obtain ⟨escapes, computed, same⟩ := Option.bind_eq_some_iff.mp rest
    cases same
    refine ⟨rfl, function, has, found, rfl, ErrorShape.hasError_ofFunction _ _, fun source => ?_⟩
    rw [mem_escapes?_iff walked indexed computed, and_iff_right]
    assumption
  · rename_i infallible
    cases rest
    refine ⟨rfl, function, has, found, rfl, ErrorShape.hasError_ofFunction _ _, fun source => ?_⟩
    constructor
    · intro impossible
      cases impossible
    · intro fallible
      exact absurd fallible.1 infallible

/-! ### Workloads -/

theorem exists_workload? (walked : view.unit.allNodes? = some nodes)
    (indexed : view.definitionIndex? nodes = some index) :
    ∃ work, view.workload? index = some work := by
  obtain ⟨order, listed⟩ := exists_functionOrder? walked
  have defined : ∀ entry ∈ order, ∃ subject, view.subject? index entry = some subject := by
    intro entry member
    exact exists_subject? walked indexed ((mem_functionOrder?_iff listed).mp ⟨entry.2, member⟩)
  obtain ⟨subjects, all⟩ := exists_mapM_eq_some defined
  have found : ∀ decl ∈ view.unit.decls, ∃ entry,
      ((view.arena.function? decl).bind fun function => some (decl, function.symbol)) =
        some entry := by
    intro decl declared
    obtain ⟨function, _, _, found, _⟩ := Package.exists_body_of_decl walked declared
    exact ⟨(decl, function.symbol), by rw [arena, found, Option.bind_some]⟩
  obtain ⟨declared, also⟩ := exists_mapM_eq_some found
  unfold workload?
  rw [listed, Option.bind_eq_bind, Option.bind_some, all, Option.bind_eq_bind, Option.bind_some]
  exact ⟨_, Option.bind_eq_some_iff.mpr ⟨declared, also, rfl⟩⟩

theorem mirrors_of_workload? (walked : view.unit.allNodes? = some nodes)
    (indexed : view.definitionIndex? nodes = some index) {work : Workload}
    (made : view.workload? index = some work) : view.Mirrors work := by
  obtain ⟨order, listed, rest⟩ := Option.bind_eq_some_iff.mp made
  obtain ⟨subjects, all, rest⟩ := Option.bind_eq_some_iff.mp rest
  obtain ⟨declared, also, same⟩ := Option.bind_eq_some_iff.mp rest
  cases same
  have related := mapM_eq_some_iff.mp all
  have declaredRelated := mapM_eq_some_iff.mp also
  have described : ∀ subject ∈ subjects, ∃ function,
      view.Describes subject.func function subject := by
    intro subject member
    obtain ⟨entry, inOrder, madeHere⟩ := mem_of_forall₂_right related member
    obtain ⟨same, function, describes⟩ := describes_of_subject? walked indexed
      ((mem_functionOrder?_iff listed).mp ⟨entry.2, inOrder⟩) madeHere
    exact ⟨function, same ▸ describes⟩
  refine ⟨?_, ?_, ?_, ?_, ?_⟩
  · intro func
    rw [← mem_functionOrder?_iff listed, List.mem_map]
    constructor
    · intro member
      obtain ⟨entry, inOrder, rfl⟩ := member
      exact ⟨entry.2, inOrder⟩
    · intro member
      obtain ⟨name, inOrder⟩ := member
      exact ⟨_, inOrder, rfl⟩
  · intro func has
    obtain ⟨name, inOrder⟩ := (mem_functionOrder?_iff listed).mpr has
    obtain ⟨subject, inSubjects, madeHere⟩ := mem_of_forall₂_left related inOrder
    have same := (describes_of_subject? walked indexed has madeHere).1
    exact exists_getElem?_foldl_insert (fun subject : Subject => some subject.func) id
      (by intro _ _; rfl) inSubjects (congrArg some same)
  · intro func subject found
    obtain ⟨entry, member, named, rfl⟩ := exists_of_getElem?_foldl_insert
      (fun subject : Subject => some subject.func) id (by intro _ _; rfl) found
    cases named
    exact described entry member
  · intro id func found
    obtain ⟨entry, member, named, rfl⟩ := exists_of_getElem?_foldl_insert
      (fun entry : FuncId × Option SymbolId => entry.2) (·.1) (by rintro _ ⟨_, _ | _⟩ <;> rfl) found
    obtain ⟨decl, inDecls, madeHere⟩ := mem_of_forall₂_right declaredRelated member
    obtain ⟨function, known, same⟩ := Option.bind_eq_some_iff.mp madeHere
    cases same
    exact ⟨inDecls, Option.bind_eq_some_iff.mpr ⟨function, known, named⟩⟩
  · intro id func inDecls named
    obtain ⟨entry, member, madeHere⟩ := mem_of_forall₂_left declaredRelated inDecls
    obtain ⟨function, found, same⟩ := Option.bind_eq_some_iff.mp madeHere
    cases same
    have symbol : function.symbol = some id := by
      obtain ⟨function', found', symbol⟩ := Option.bind_eq_some_iff.mp named
      cases found.symm.trans found'
      exact symbol
    exact exists_getElem?_foldl_insert (fun entry : FuncId × Option SymbolId => entry.2) (·.1)
      (by rintro _ ⟨_, _ | _⟩ <;> rfl) member symbol

/-- The subjects of a workload are those of the functions in their order. -/
theorem subject?_of_workload? {work : Workload} (made : view.workload? index = some work)
    {order : List (FuncId × String)} (listed : view.functionOrder? = some order) {func : FuncId}
    {subject : Subject} (stored : work.subjects[func]? = some subject) :
    ∃ name, (func, name) ∈ order ∧ view.subject? index (func, name) = some subject := by
  obtain ⟨order', listed', rest⟩ := Option.bind_eq_some_iff.mp made
  cases listed.symm.trans listed'
  obtain ⟨subjects, all, rest⟩ := Option.bind_eq_some_iff.mp rest
  obtain ⟨declared, also, same⟩ := Option.bind_eq_some_iff.mp rest
  cases same
  obtain ⟨entry, member, named, rfl⟩ := exists_of_getElem?_foldl_insert
    (fun subject : Subject => some subject.func) id (by intro _ _; rfl) stored
  obtain ⟨⟨other, name⟩, inOrder, madeHere⟩ :=
    mem_of_forall₂_right (mapM_eq_some_iff.mp all) member
  obtain ⟨_, _, described, _⟩ := subject?_eq_some madeHere
  have sameFunc : other = func := by
    have owner := congrArg Subject.func described
    exact owner.symm.trans (Option.some.inj named)
  cases sameFunc
  exact ⟨name, inOrder, madeHere⟩

theorem summarize?_of_workload? (walked : view.unit.allNodes? = some nodes)
    (indexed : view.definitionIndex? nodes = some index) {work : Workload}
    (made : view.workload? index = some work) {σ : Type} [FactStore σ] (policy : Policy)
    (facts : σ) :
    ∃ outcome, view.summarize? policy facts = some outcome ∧
      outcome.value = (work.run view.symbols policy facts).sorted ∧
      outcome.facts = (work.run view.symbols policy facts).facts := by
  unfold summarize?
  rw [walked, Option.bind_eq_bind, Option.bind_some, indexed, Option.bind_eq_bind,
    Option.bind_some, made]
  exact ⟨_, rfl, rfl, rfl⟩

/-- A unit whose tree can be walked is summarized by running a workload that mirrors it, and the
workload does not depend on the facts. -/
theorem exists_summarize? (walked : view.unit.allNodes? = some nodes) :
    ∃ work, view.Mirrors work ∧ ∀ {σ : Type} [FactStore σ] (policy : Policy) (facts : σ),
      ∃ outcome, view.summarize? policy facts = some outcome ∧
        outcome.value = (work.run view.symbols policy facts).sorted ∧
        outcome.facts = (work.run view.symbols policy facts).facts := by
  obtain ⟨index, indexed⟩ := exists_definitionIndex? (Package.closed_allNodes walked)
  obtain ⟨work, made⟩ := exists_workload? walked indexed
  exact ⟨work, mirrors_of_workload? walked indexed made,
    summarize?_of_workload? walked indexed made⟩

end UnitView

end ErrorWrapping
