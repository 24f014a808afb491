import ErrorWrapping.Proofs.Levels

/-
Every order that respects imports gives the same outcome.

When a unit is checked after all units that it imports, its report and the verdicts on its
functions depend on the verdicts on what it calls only, and these are final by then. So the facts
at the end explain each unit: checked against the verdicts on all other functions, it gives its
report and the verdicts on its own. There is one such table of facts, since along the order each
unit is determined by those before it.
-/

namespace ErrorWrapping

namespace Program

variable {program : Program} {policy : Policy} {unit other : Package}

/-- An order of the checked units in which each of them comes after all that it imports. -/
structure Orders (program : Program) (policy : Policy) (order : List UnitId) : Prop where
  once : order.Nodup
  members : ∀ id, id ∈ order ↔ ∃ unit, program.Checks policy unit ∧ unit.id = id
  respects : ∀ before (unit : Package) after, order = before ++ unit.id :: after →
    ∀ other, program.Imports policy unit other → other.id ∈ before

/-! ### Orders -/

theorem Orders.mem_before_of_reaches {order : List UnitId} (orders : program.Orders policy order)
    (reaches : Relation.TransGen (program.Imports policy) unit other) {before after : List UnitId}
    (split : order = before ++ unit.id :: after) : other.id ∈ before := by
  induction reaches using Relation.TransGen.head_induction_on generalizing before after with
  | single imports => exact orders.respects before _ after split _ imports
  | head imports _ ih =>
      have isBefore := orders.respects before _ after split _ imports
      obtain ⟨earlier, between, splitBefore⟩ := List.append_of_mem isBefore
      rw [splitBefore, List.append_assoc] at split
      rw [splitBefore]
      exact List.mem_append_left _ (ih split)

/-- Only imports without cycles can be respected. -/
theorem Orders.acyclic {order : List UnitId} (orders : program.Orders policy order)
    (unit : Package) : ¬ Relation.TransGen (program.Imports policy) unit unit := by
  intro cycle
  obtain ⟨_, imports, _⟩ := Relation.TransGen.head'_iff.mp cycle
  obtain ⟨before, after, split⟩ :=
    List.append_of_mem ((orders.members unit.id).mpr ⟨unit, imports.1, rfl⟩)
  have twice := orders.mem_before_of_reaches cycle split
  have once := orders.once
  rw [split] at once
  exact (List.nodup_append.mp once).2.2 _ twice _ (List.mem_cons_self ..) rfl

theorem Indexed.orders_build (indexed : program.Indexed)
    (acyclic : ∀ unit, ¬ Relation.TransGen (program.Imports policy) unit unit) :
    program.Orders policy (Schedule.build program policy).1.units :=
  ⟨indexed.nodup_units policy, fun _ => indexed.mem_units_iff,
    fun _ _ _ split _ imports => indexed.mem_before_of_imports acyclic split imports⟩

/-! ### Facts that explain reports -/

/-- The report on a unit and the verdicts on its functions are those of a check against the
verdicts on all other functions. -/
def Explained (program : Program) (policy : Policy) (facts : FactTable) (unit : Package)
    (report : UnitReport) : Prop :=
  ∃ (base : FactTable) (outcome : Outcome FactTable UnitReport),
    checkUnit? program unit.id policy base = some outcome ∧ outcome.value = report ∧
    (∀ id, unit.Declares id →
      base.verdict? id = none ∧ outcome.facts.verdict? id = facts.verdict? id) ∧
    ∀ id, program.Mentions unit id → ¬ unit.Declares id → base.verdict? id = facts.verdict? id

/-- The facts are on functions of the units that are done, and explain the reports on these. -/
structure Explains (program : Program) (policy : Policy) (done : List UnitId) (facts : FactTable)
    (report : UnitId → UnitReport) : Prop where
  foreign : ∀ id, (∀ unit, program.Checks policy unit → unit.id ∈ done → ¬ unit.Declares id) →
    facts.verdict? id = none
  explained : ∀ unit, program.Checks policy unit → unit.id ∈ done →
    program.Explained policy facts unit (report unit.id)

theorem explains_start (report : UnitId → UnitReport) :
    program.Explains policy [] Run.start.facts report := by
  constructor
  · intro id _
    exact FactTable.verdict?_empty id
  · intro unit _ impossible
    cases impossible

theorem Explained.frame {before after : FactTable} {report : UnitReport}
    (explained : program.Explained policy before unit report)
    (kept : ∀ id, program.Mentions unit id → after.verdict? id = before.verdict? id) :
    program.Explained policy after unit report := by
  obtain ⟨base, outcome, made, value, own, elsewhere⟩ := explained
  refine ⟨base, outcome, made, value, fun id declares => ?_, fun id mentions foreign => ?_⟩
  · rw [kept id (Or.inl declares)]
    exact own id declares
  · rw [kept id mentions]
    exact elsewhere id mentions foreign

/-- Facts that agree on what a unit calls in other units explain one report and the same verdicts
on its functions. -/
theorem Lowered.explained_unique (lowered : program.Lowered) (checks : program.Checks policy unit)
    {left right : FactTable} {leftReport rightReport : UnitReport}
    (explained : program.Explained policy left unit leftReport)
    (alsoExplained : program.Explained policy right unit rightReport)
    (agree : ∀ id, program.Mentions unit id → ¬ unit.Declares id →
      left.verdict? id = right.verdict? id) :
    leftReport = rightReport ∧
      ∀ id, unit.Declares id → left.verdict? id = right.verdict? id := by
  obtain ⟨base, outcome, made, rfl, own, elsewhere⟩ := explained
  obtain ⟨base', outcome', made', rfl, own', elsewhere'⟩ := alsoExplained
  have planted := lowered.planted unit checks.1
  obtain ⟨work, mirrors, checksBy⟩ := lowered.exists_checksBy checks
  obtain ⟨checked, madeHere, value, stored⟩ := checksBy base
  obtain ⟨checked', madeThere, value', stored'⟩ := checksBy base'
  cases made.symm.trans madeHere
  cases made'.symm.trans madeThere
  have sameBase : ∀ id, program.Mentions unit id → base.verdict? id = base'.verdict? id := by
    intro id mentions
    by_cases declares : unit.Declares id
    · rw [(own id declares).1, (own' id declares).1]
    · rw [elsewhere id mentions declares, elsewhere' id mentions declares]
      exact agree id mentions declares
  have agrees : (work.run program.symbols policy base).Agrees work.Mentions
      (work.run program.symbols policy base') :=
    Workload.run_agrees fun id mentions =>
      sameBase id (mentions_of_work planted mirrors mentions)
  refine ⟨?_, fun id declares => ?_⟩
  · rw [value, value', Progress.sorted, Progress.sorted, agrees.summaries]
  · rw [← (own id declares).2, ← (own' id declares).2, stored, stored']
    by_cases owns : work.Owns id
    · exact agrees.verdicts id (Or.inl owns)
    · have unchanged : ∀ facts : FactTable,
          (work.run program.symbols policy facts).facts.verdict? id = facts.verdict? id :=
        fun facts => Workload.verdict?_run_of_not_owns facts owns
      rw [unchanged, unchanged]
      exact sameBase id (Or.inl declares)

/-! ### One order -/

/-- Checking one more unit, which no unit that is done imports. -/
theorem Lowered.explains_check (lowered : program.Lowered) (separate : program.Separate policy)
    (follows : program.FollowsImports policy) (checks : program.Checks policy unit)
    {done : List UnitId} (fresh : unit.id ∉ done)
    (imported : ∀ earlier, program.Checks policy earlier → earlier.id ∈ done → ∀ other,
      program.Imports policy earlier other → other.id ∈ done)
    {run : Run} {report : UnitId → UnitReport}
    (explains : program.Explains policy done run.facts report)
    (reported : run.result.reports = done.map report) :
    ∃ next report', Run.checkDirect? program policy run unit.id = some next ∧
      program.Explains policy (done ++ [unit.id]) next.facts report' ∧
      next.result.reports = (done ++ [unit.id]).map report' := by
  obtain ⟨work, mirrors, checksBy⟩ := lowered.exists_checksBy checks
  obtain ⟨outcome, made, _, stored⟩ := checksBy run.facts
  have planted := lowered.planted unit checks.1
  have notHere : ∀ {id : UnitId}, id ∈ done → id ≠ unit.id :=
    fun member same => fresh (same ▸ member)
  have differs : ∀ {earlier : Package}, earlier.id ∈ done → unit ≠ earlier :=
    fun member same => fresh (same ▸ member)
  have kept : ∀ id, ¬ unit.Declares id → outcome.facts.verdict? id = run.facts.verdict? id := by
    intro id foreign
    rw [stored]
    exact verdict?_run_of_not_declares planted mirrors run.facts foreign
  refine ⟨_, Function.update report unit.id outcome.value, Run.checkDirect?_eq_some made, ⟨?_, ?_⟩,
    ?_⟩
  · intro id foreign
    have undeclared := foreign unit checks (List.mem_append_right _ (List.mem_singleton.mpr rfl))
    refine (kept id undeclared).trans (explains.foreign id fun earlier earlierChecks member => ?_)
    exact foreign earlier earlierChecks (List.mem_append_left _ member)
  · intro later laterChecks member
    by_cases isDone : later.id ∈ done
    · rw [Function.update_of_ne (notHere isDone)]
      refine (explains.explained later laterChecks isDone).frame fun id mentions => ?_
      -- A unit that is done does not mention this one, since what it imports is done.
      refine kept id fun declares => ?_
      refine not_mentions_of_not_imports separate follows laterChecks checks (differs isDone)
        (fun imports => ?_) declares mentions
      exact fresh (imported later laterChecks isDone unit imports)
    · have isUnit : later = unit := by
        rcases List.mem_append.mp member with inDone | isLast
        · exact absurd inDone isDone
        · exact lowered.eq_of_id laterChecks.1 checks.1 (List.mem_singleton.mp isLast)
      subst isUnit
      rw [Function.update_self]
      refine ⟨run.facts, outcome, made, rfl, fun id declares => ⟨?_, rfl⟩, fun id _ foreign => ?_⟩
      · apply explains.foreign id
        intro earlier earlierChecks isEarlier declaresToo
        exact differs isEarlier
          (separate later earlier checks earlierChecks id declares declaresToo)
      · exact (kept id foreign).symm
  · have unchanged : done.map (Function.update report unit.id outcome.value) = done.map report :=
      List.map_congr_left fun id member =>
        Function.update_of_ne (notHere member) _ _
    have extended :
        (outcome.value :: run.reports).reverse = run.result.reports ++ [outcome.value] :=
      List.reverse_cons
    change (outcome.value :: run.reports).reverse = _
    rw [extended, reported, List.map_append, unchanged, List.map_singleton, Function.update_self]

theorem Lowered.explains_units (lowered : program.Lowered) (separate : program.Separate policy)
    (follows : program.FollowsImports policy) {done : List UnitId} (rest : List UnitId)
    (orders : program.Orders policy (done ++ rest)) {run : Run} {report : UnitId → UnitReport}
    (explains : program.Explains policy done run.facts report)
    (reported : run.result.reports = done.map report) :
    ∃ final report', rest.foldlM (Run.checkDirect? program policy) run = some final ∧
      program.Explains policy (done ++ rest) final.facts report' ∧
      final.result.reports = (done ++ rest).map report' := by
  induction rest generalizing done run report with
  | nil =>
      rw [List.append_nil]
      exact ⟨run, report, rfl, explains, reported⟩
  | cons first rest ih =>
      obtain ⟨unit, checks, rfl⟩ := (orders.members first).mp
        (List.mem_append_right _ (List.mem_cons_self ..))
      have fresh : unit.id ∉ done := fun again =>
        (List.nodup_append.mp orders.once).2.2 _ again _ (List.mem_cons_self ..) rfl
      have imported : ∀ earlier, program.Checks policy earlier → earlier.id ∈ done → ∀ other,
          program.Imports policy earlier other → other.id ∈ done := by
        intro earlier _ member other imports
        obtain ⟨before, after, split⟩ := List.append_of_mem member
        have isBefore := orders.respects before earlier (after ++ unit.id :: rest)
          (by rw [split, List.append_assoc]; rfl) other imports
        rw [split]
        exact List.mem_append_left _ isBefore
      obtain ⟨next, report', checked, explainsNext, reportedNext⟩ :=
        lowered.explains_check separate follows checks fresh imported explains reported
      have regroup : done ++ unit.id :: rest = (done ++ [unit.id]) ++ rest := by
        rw [List.append_assoc]
        rfl
      rw [regroup] at orders ⊢
      obtain ⟨final, report'', folded, explainsFinal, reportedFinal⟩ :=
        ih orders explainsNext reportedNext
      refine ⟨final, report'', ?_, explainsFinal, reportedFinal⟩
      rw [List.foldlM_cons, checked]
      exact folded

/-! ### Two orders -/

/-- What a unit mentions in other units is declared by units that it imports, or by none. -/
theorem undeclared_or_imports (separate : program.Separate policy)
    (follows : program.FollowsImports policy) (checks : program.Checks policy unit) {id : SymbolId}
    (mentions : program.Mentions unit id) (foreign : ¬ unit.Declares id) :
    (∀ other, program.Checks policy other → ¬ other.Declares id) ∨
      ∃ other, program.Imports policy unit other ∧ other.Declares id := by
  by_cases declared : ∃ other, program.Checks policy other ∧ other.Declares id
  · obtain ⟨other, otherChecks, declares⟩ := declared
    have differs : other ≠ unit := fun same => foreign (same ▸ declares)
    refine Or.inr ⟨other, ?_, declares⟩
    by_contra apart
    exact not_mentions_of_not_imports separate follows checks otherChecks differs apart declares
      mentions
  · exact Or.inl fun other otherChecks declares => declared ⟨other, otherChecks, declares⟩

/-- Along an order, each unit is determined by those before it. -/
theorem Lowered.explains_unique (lowered : program.Lowered) (separate : program.Separate policy)
    (follows : program.FollowsImports policy) {order leftDone rightDone : List UnitId}
    (orders : program.Orders policy order) {left right : FactTable}
    {leftReport rightReport : UnitId → UnitReport}
    (explains : program.Explains policy leftDone left leftReport)
    (alsoExplains : program.Explains policy rightDone right rightReport)
    (leftAll : ∀ id, id ∈ leftDone ↔ id ∈ order) (rightAll : ∀ id, id ∈ rightDone ↔ id ∈ order)
    {before after : List UnitId} (split : order = before ++ after) :
    ∀ unit, program.Checks policy unit → unit.id ∈ before →
      leftReport unit.id = rightReport unit.id ∧
        ∀ id, unit.Declares id → left.verdict? id = right.verdict? id := by
  induction before using List.reverseRecOn generalizing after with
  | nil =>
      intro unit _ impossible
      cases impossible
  | append_singleton before last ih =>
      rw [List.append_assoc] at split
      have earlier := ih split
      intro unit checks member
      rcases List.mem_append.mp member with isEarlier | isLast
      · exact earlier unit checks isEarlier
      · cases List.mem_singleton.mp isLast
        have inOrder := (orders.members unit.id).mpr ⟨unit, checks, rfl⟩
        refine lowered.explained_unique checks
          (explains.explained unit checks ((leftAll _).mpr inOrder))
          (alsoExplains.explained unit checks ((rightAll _).mpr inOrder))
          fun id mentions foreign => ?_
        rcases undeclared_or_imports separate follows checks mentions foreign with
          undeclared | ⟨other, imports, declares⟩
        · rw [explains.foreign id fun other checks _ => undeclared other checks,
            alsoExplains.foreign id fun other checks _ => undeclared other checks]
        · exact (earlier other imports.2.1
            (orders.respects before unit after split other imports)).2 id declares

theorem Lowered.same_outcome (lowered : program.Lowered) (separate : program.Separate policy)
    (follows : program.FollowsImports policy) {order leftDone rightDone : List UnitId}
    (orders : program.Orders policy order) {left right : FactTable}
    {leftReport rightReport : UnitId → UnitReport}
    (explains : program.Explains policy leftDone left leftReport)
    (alsoExplains : program.Explains policy rightDone right rightReport)
    (leftAll : ∀ id, id ∈ leftDone ↔ id ∈ order) (rightAll : ∀ id, id ∈ rightDone ↔ id ∈ order) :
    left = right ∧ ∀ id ∈ order, leftReport id = rightReport id := by
  have unique := lowered.explains_unique separate follows orders explains alsoExplains leftAll
    rightAll (List.append_nil order).symm
  refine ⟨FactTable.ext_verdict? fun id => ?_, fun id member => ?_⟩
  · by_cases declared : ∃ unit, program.Checks policy unit ∧ unit.Declares id
    · obtain ⟨unit, checks, declares⟩ := declared
      exact (unique unit checks ((orders.members _).mpr ⟨unit, checks, rfl⟩)).2 id declares
    · have undeclared : ∀ unit, program.Checks policy unit → ¬ unit.Declares id :=
        fun unit checks declares => declared ⟨unit, checks, declares⟩
      rw [explains.foreign id fun unit checks _ => undeclared unit checks,
        alsoExplains.foreign id fun unit checks _ => undeclared unit checks]
  · obtain ⟨unit, checks, rfl⟩ := (orders.members id).mp member
    exact (unique unit checks member).1

end Program

/-- A run by any number of jobs is, but for its warnings, one unit after the other. -/
theorem Run.exists_same_check? {program : Program} {policy : Policy} (lowered : program.Lowered)
    (separate : program.Separate policy) (follows : program.FollowsImports policy) (jobs : Nat)
    (pool : ThreadPool) :
    ∃ left right, sequential? program policy (Schedule.build program policy).1 = some left ∧
      check? program policy (Schedule.build program policy).1 jobs pool = some right ∧
      left.Same right := by
  obtain ⟨left, right, sequential, byLevels, same⟩ := exists_same_runs lowered separate follows
  have checked : ∃ run, check? program policy (Schedule.build program policy).1 jobs pool =
      some run ∧ left.Same run :=
    exists_check?_of ⟨left, sequential, rfl, rfl⟩ ⟨right, byLevels, same⟩
      fun _ _ same => ⟨same.reports, same.facts⟩
  obtain ⟨run, checked, sameRun⟩ := checked
  exact ⟨left, run, sequential, checked, sameRun⟩

/-- When no symbol is declared by two units and calls follow imports, checking the units one after
the other in any order that respects imports gives the reports and the facts of a run, whatever
the number of jobs and what came of the threads. -/
theorem check?_of_orders {dump : Dump} {program : Program} {warnings : List Warning}
    (accepted : dump.lower = .ok (program, warnings)) {policy : Policy}
    (separate : program.Separate policy) (follows : program.FollowsImports policy)
    {order : List UnitId} (orders : program.Orders policy order) (jobs : Nat) (pool : ThreadPool) :
    ∃ run own report,
      Run.check? program policy (Schedule.build program policy).1 jobs pool = some run ∧
      order.foldlM (Run.checkDirect? program policy) Run.start = some own ∧
      run.result.reports = (Schedule.build program policy).1.units.map report ∧
      own.result.reports = order.map report ∧ own.facts = run.facts := by
  have lowered := Dump.lowered_of_lower accepted
  have schedule := lowered.orders_build orders.acyclic
  have sameUnits : ∀ id, id ∈ (Schedule.build program policy).1.units ↔ id ∈ order :=
    fun id => (schedule.members id).trans (orders.members id).symm
  obtain ⟨own, report, folded, explains, reported⟩ :=
    lowered.explains_units separate follows order
      (show program.Orders policy ([] ++ order) from orders)
      (Program.explains_start fun _ => default) rfl
  obtain ⟨final, report', scheduled, explains', reported'⟩ :=
    lowered.explains_units separate follows (Schedule.build program policy).1.units
      (show program.Orders policy ([] ++ _) from schedule)
      (Program.explains_start fun _ => default) rfl
  obtain ⟨facts, reports⟩ := lowered.same_outcome separate follows orders explains explains'
    (fun _ => Iff.rfl) sameUnits
  obtain ⟨left, run, sequential, checked, same⟩ :=
    Run.exists_same_check? lowered separate follows jobs pool
  cases scheduled.symm.trans sequential
  refine ⟨run, own, report, checked, folded, ?_, reported, facts.trans same.facts⟩
  rw [← same.result, reported']
  exact List.map_congr_left fun id member => (reports id ((sameUnits id).mp member)).symm

/-! ### Two units without imports -/

/-- Two units that do not import each other, one of them naked, and a unit that imports both. -/
def Dump.fork : Dump :=
  { files := []
    types := []
    symbols := [⟨"e", "Wrap", none, "Wrap", ["error"]⟩, ⟨"e", "Raw", none, "Raw", ["error"]⟩]
    units :=
      [{ path := "m/a"
         files := []
         imports := []
         vars := []
         functions :=
           [.mk ⟨"Safe", none, some "Safe", none, none, [], [⟨"error", none⟩]⟩
              (some [.ret [.call (.func "e.Wrap" none) [] none none] none])]
         globals := [] },
       { path := "m/b"
         files := []
         imports := []
         vars := []
         functions :=
           [.mk ⟨"Read", none, some "Read", none, none, [], [⟨"error", none⟩]⟩
              (some [.ret [.call (.func "e.Raw" none) [] none none] none])]
         globals := [] },
       { path := "m"
         files := []
         imports := ["m/a", "m/b"]
         vars := []
         functions :=
           [.mk ⟨"Run", none, some "Run", none, none, [], [⟨"error", none⟩]⟩
              (some [.ret [.call (.func "m/a.Safe" none) [] none none] none,
                .ret [.call (.func "m/b.Read" none) [] none none] none])]
         globals := [] }] }

namespace Dump.fork

def program : Program := fork.toProgram.1

def policy : Policy := ⟨"m", ["Wrap"]⟩

theorem accepted : fork.lower = .ok (program, fork.toProgram.2) :=
  lower_of_fault? (by decide)

theorem units_eq : program.units.toList.map (fun unit => (unit.id, unit.path, unit.imports,
      unit.declared, (program.view unit).calls?, decide (unit.Distinct program.symbols))) =
    [(⟨0⟩, "m/a", [], [⟨2⟩], some [⟨some ⟨0⟩, false⟩], true),
      (⟨1⟩, "m/b", [], [⟨3⟩], some [⟨some ⟨1⟩, false⟩], true),
      (⟨2⟩, "m", ["m/a", "m/b"], [⟨4⟩], some [⟨some ⟨2⟩, false⟩, ⟨some ⟨3⟩, false⟩], true)] := by
  cbv

theorem unit_cases {unit : Package} (member : unit ∈ program.units) :
    (unit.id = ⟨0⟩ ∧ unit.path = "m/a" ∧ unit.imports = [] ∧ unit.declared = [⟨2⟩] ∧
      (program.view unit).calls? = some [⟨some ⟨0⟩, false⟩] ∧ unit.Distinct program.symbols) ∨
    (unit.id = ⟨1⟩ ∧ unit.path = "m/b" ∧ unit.imports = [] ∧ unit.declared = [⟨3⟩] ∧
      (program.view unit).calls? = some [⟨some ⟨1⟩, false⟩] ∧ unit.Distinct program.symbols) ∨
    (unit.id = ⟨2⟩ ∧ unit.path = "m" ∧ unit.imports = ["m/a", "m/b"] ∧ unit.declared = [⟨4⟩] ∧
      (program.view unit).calls? = some [⟨some ⟨2⟩, false⟩, ⟨some ⟨3⟩, false⟩] ∧
      unit.Distinct program.symbols) := by
  have listed := List.mem_map_of_mem (f := fun unit : Package => (unit.id, unit.path, unit.imports,
    unit.declared, (program.view unit).calls?, decide (unit.Distinct program.symbols)))
    (Array.mem_toList_iff.mpr member)
  rw [units_eq] at listed
  simpa using listed

theorem exists_unit {id : UnitId} (listed : id ∈ [(⟨1⟩ : UnitId), ⟨0⟩, ⟨2⟩]) :
    ∃ unit, program.Checks policy unit ∧ unit.id = id := by
  have ids : program.units.toList.map (·.id) = [⟨0⟩, ⟨1⟩, ⟨2⟩] := by
    have firsts := congrArg (List.map (·.1)) units_eq
    rw [List.map_map] at firsts
    exact firsts
  have member : id ∈ program.units.toList.map (·.id) := by
    rw [ids]
    simpa [or_left_comm] using listed
  obtain ⟨unit, inUnits, same⟩ := List.mem_map.mp member
  have isUnit := Array.mem_toList_iff.mp inUnits
  refine ⟨unit, ⟨isUnit, ?_⟩, same⟩
  rcases unit_cases isUnit with ⟨_, path, _⟩ | ⟨_, path, _⟩ | ⟨_, path, _⟩ <;> rw [path] <;> decide

theorem separate : program.Separate policy := by
  refine (lowered_of_lower accepted).separate fun unit checks => ?_
  rcases unit_cases checks.1 with
    ⟨_, _, _, _, _, distinct⟩ | ⟨_, _, _, _, _, distinct⟩ | ⟨_, _, _, _, _, distinct⟩ <;>
  exact distinct

/-- The last unit imports all other units, and the others call none of them. -/
theorem follows : program.FollowsImports policy := by
  intro unit other checks otherChecks different target id calls named declares
  have planted := (lowered_of_lower accepted).planted unit checks.1
  rw [← Package.mem_declared_iff] at declares
  have otherPath : other.path = "m/a" ∨ other.path = "m/b" ∨ other.path = "m" := by
    rcases unit_cases otherChecks.1 with ⟨_, path, _⟩ | ⟨_, path, _⟩ | ⟨_, path, _⟩ <;> simp [path]
  have late : 2 ≤ id.index := by
    rcases unit_cases otherChecks.1 with
      ⟨_, _, _, listed, _⟩ | ⟨_, _, _, listed, _⟩ | ⟨_, _, _, listed, _⟩ <;>
    · rw [listed, List.mem_singleton] at declares
      simp [declares]
  rcases unit_cases checks.1 with
    ⟨_, _, _, _, listed, _⟩ | ⟨_, _, _, _, listed, _⟩ | ⟨_, path, imports, _, listed, _⟩
  · have member := (UnitView.mem_calls?_iff planted listed).mpr calls
    cases List.mem_singleton.mp member
    cases named
    exact absurd late (by decide)
  · have member := (UnitView.mem_calls?_iff planted listed).mpr calls
    cases List.mem_singleton.mp member
    cases named
    exact absurd late (by decide)
  · rw [imports]
    rcases otherPath with isFirst | isSecond | isThird
    · simp [isFirst]
    · simp [isSecond]
    · exact absurd ((lowered_of_lower accepted).eq_of_path otherChecks.1 checks.1
        (isThird.trans path.symm)) different

/-- The order in which the second unit is checked first; a schedule starts with the first one. -/
theorem orders : program.Orders policy [⟨1⟩, ⟨0⟩, ⟨2⟩] := by
  refine ⟨by decide, fun id => ⟨exists_unit, ?_⟩, ?_⟩
  · rintro ⟨unit, checks, rfl⟩
    rcases unit_cases checks.1 with ⟨id, _⟩ | ⟨id, _⟩ | ⟨id, _⟩ <;> simp [id]
  · intro before unit after split other imports
    obtain ⟨checks, otherChecks, different, path⟩ := imports
    -- Only the last unit has imports, and all that comes before it is the rest.
    rcases unit_cases checks.1 with
      ⟨_, _, imports, _⟩ | ⟨_, _, imports, _⟩ | ⟨id, _, imports, _⟩
    · rw [imports] at path
      cases path
    · rw [imports] at path
      cases path
    · have isBefore : before = [⟨1⟩, ⟨0⟩] := by
        rw [id] at split
        rcases before with _ | ⟨first, _ | ⟨second, _ | ⟨third, before⟩⟩⟩ <;> simp at split
        rw [split.1, split.2.1]
      rw [isBefore]
      rcases unit_cases otherChecks.1 with ⟨otherId, _⟩ | ⟨otherId, _⟩ | ⟨otherId, _⟩
      · simp [otherId]
      · simp [otherId]
      · exact absurd ((lowered_of_lower accepted).eq_of_id otherChecks.1 checks.1
          (otherId.trans id.symm)) different

end Dump.fork

theorem check?_fork :
    Dump.fork.program.Separate Dump.fork.policy ∧
      Dump.fork.program.FollowsImports Dump.fork.policy ∧
      Dump.fork.program.Orders Dump.fork.policy [⟨1⟩, ⟨0⟩, ⟨2⟩] ∧
      ∃ run own report, Run.check? Dump.fork.program Dump.fork.policy
          (Schedule.build Dump.fork.program Dump.fork.policy).1 2 = some run ∧
        [(⟨1⟩ : UnitId), ⟨0⟩, ⟨2⟩].foldlM
          (Run.checkDirect? Dump.fork.program Dump.fork.policy) Run.start = some own ∧
        run.result.reports =
          (Schedule.build Dump.fork.program Dump.fork.policy).1.units.map report ∧
        own.result.reports = [(⟨1⟩ : UnitId), ⟨0⟩, ⟨2⟩].map report ∧ own.facts = run.facts :=
  ⟨Dump.fork.separate, Dump.fork.follows, Dump.fork.orders,
    check?_of_orders Dump.fork.accepted Dump.fork.separate Dump.fork.follows Dump.fork.orders 2
      .built⟩

end ErrorWrapping
