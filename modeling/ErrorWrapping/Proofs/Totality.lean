import ErrorWrapping.Proofs.Grounding
import ErrorWrapping.Proofs.Runs

/-
Accepted dumps are checked to the end.

A dump is refused only for a repeated unit path or variable. Otherwise every reference in its
program is to an entry that is there, the walk of a unit meets each of its nodes once, and no
look-up on the way from the walk to the report of a unit fails, whatever the dump left undefined.
-/

namespace ErrorWrapping

namespace Package

/-- The walk of the declared bodies and the package-level statements ends and meets every
expression, every statement and every function literal of the unit once. -/
structure VisitsOnce (unit : Package) (nodes : List NodeRef) : Prop where
  walked : unit.allNodes? = some nodes
  once : nodes.Nodup
  exprs : ∀ id : ExprId, .expr id ∈ nodes ↔ id.index < unit.arena.exprs.size
  stmts : ∀ id : StmtId, .stmt id ∈ nodes ↔ id.index < unit.arena.stmts.size
  literals : ∀ id : FuncId, .literal id ∈ nodes ↔
    id.index < unit.arena.functions.size ∧ id ∉ unit.decls

theorem Planted.visitsOnce {unit : Package} (planted : unit.Planted) :
    ∃ nodes, unit.VisitsOnce nodes := by
  obtain ⟨nodes, walked, once, all⟩ := planted.allNodes?
  obtain ⟨_, nodesOnce, apart⟩ := List.nodup_append.mp once
  refine ⟨nodes, walked, nodesOnce, fun id => ?_, fun id => ?_, fun id => ?_⟩
  · rw [show id.index < unit.arena.exprs.size ↔ unit.arena.Holds (.expr id) from Iff.rfl, ← all]
    simp
  · rw [show id.index < unit.arena.stmts.size ↔ unit.arena.Holds (.stmt id) from Iff.rfl, ← all]
    simp
  · rw [show id.index < unit.arena.functions.size ↔ unit.arena.Holds (.literal id) from Iff.rfl,
      ← all]
    constructor
    · intro member
      refine ⟨List.mem_append_right _ member, fun declared => ?_⟩
      exact apart _ (List.mem_map.mpr ⟨id, declared, rfl⟩) _ member rfl
    · intro held
      refine (List.mem_append.mp held.1).resolve_left fun inDecls => ?_
      obtain ⟨decl, declared, same⟩ := List.mem_map.mp inDecls
      cases same
      exact held.2 declared

end Package

/-- Definitions, the order of functions, what escapes from them and their summaries can all be
computed from the nodes of a unit. -/
structure UnitView.Answers (view : UnitView) (nodes : List NodeRef) : Prop where
  definitions : ∃ index, view.definitionIndex? nodes = some index ∧
    ∃ work, view.workload? index = some work
  order : ∃ order, view.functionOrder? = some order
  summaries : ∀ {σ : Type} [FactStore σ] (policy : Policy) (facts : σ),
    ∃ outcome, view.summarize? policy facts = some outcome

theorem UnitView.answers_of_walked {view : UnitView} {nodes : List NodeRef}
    (walked : view.unit.allNodes? = some nodes) : view.Answers nodes := by
  obtain ⟨index, indexed⟩ := exists_definitionIndex? (Package.closed_allNodes walked)
  refine ⟨⟨index, indexed, exists_workload? walked indexed⟩, exists_functionOrder? walked, ?_⟩
  intro σ _ policy facts
  obtain ⟨_, _, summarized⟩ := exists_summarize? walked
  obtain ⟨outcome, made, _⟩ := summarized policy facts
  exact ⟨outcome, made⟩

theorem Program.Lowered.exists_checkUnit? {program : Program} (lowered : program.Lowered)
    {σ : Type} [FactStore σ] (id : UnitId) (policy : Policy) (facts : σ) :
    ∃ outcome, checkUnit? program id policy facts = some outcome := by
  by_cases isChecked : ∃ unit, program.Checks policy unit ∧ unit.id = id
  · obtain ⟨unit, checks, rfl⟩ := isChecked
    obtain ⟨_, _, checksBy⟩ := lowered.exists_checksBy checks
    obtain ⟨outcome, made, _⟩ := checksBy facts
    exact ⟨outcome, made⟩
  · obtain ⟨outcome, made, _⟩ := lowered.exists_report_of_not_checks
      (fun unit checks same => isChecked ⟨unit, checks, same⟩) facts
    exact ⟨outcome, made⟩

namespace Dump

theorem exists_fault_iff (dump : Dump) :
    (∃ fault, dump.lower = .error fault) ↔
      ¬ (dump.units.map (·.path)).Nodup ∨
        ∃ unit ∈ dump.units, ¬ (unit.vars.map (·.id)).Nodup := by
  have faultless : fault? [] dump.units = none ↔ (dump.units.map (·.path)).Nodup ∧
      ∀ unit ∈ dump.units, (unit.vars.map (·.id)).Nodup := by
    simp [fault?_eq_none_iff]
  rw [lower]
  cases found : fault? [] dump.units with
  | none =>
      obtain ⟨paths, vars⟩ := faultless.mp found
      constructor
      · intro impossible
        obtain ⟨_, same⟩ := impossible
        cases same
      · rintro (twice | ⟨unit, member, twice⟩)
        · exact absurd paths twice
        · exact absurd (vars unit member) twice
  | some fault =>
      refine ⟨fun _ => ?_, fun _ => ⟨fault, rfl⟩⟩
      by_contra neither
      rw [not_or, not_not, not_exists] at neither
      have none : fault? [] dump.units = none := by
        refine faultless.mpr ⟨neither.1, fun unit member => ?_⟩
        by_contra twice
        exact neither.2 unit ⟨member, twice⟩
      rw [none] at found
      cases found

/-- A dump is refused exactly when a unit path or a variable of a unit is repeated. Otherwise its
program refers to nothing that is not there, each unit is walked node by node, and every unit can
be checked, from every store of facts. -/
theorem lower_grounded (dump : Dump) :
    ((∃ fault, dump.lower = .error fault) ↔
      ¬ (dump.units.map (·.path)).Nodup ∨
        ∃ unit ∈ dump.units, ¬ (unit.vars.map (·.id)).Nodup) ∧
    ∀ program warnings, dump.lower = .ok (program, warnings) →
      program.Grounded ∧
      (∀ unit ∈ program.units,
        ∃ nodes, unit.VisitsOnce nodes ∧ (program.view unit).Answers nodes) ∧
      ∀ {σ : Type} [FactStore σ] (id : UnitId) (policy : Policy) (facts : σ),
        ∃ outcome, checkUnit? program id policy facts = some outcome := by
  refine ⟨exists_fault_iff dump, fun program warnings accepted => ?_⟩
  have lowered := lowered_of_lower accepted
  refine ⟨?_, fun unit member => ?_, lowered.exists_checkUnit?⟩
  · have same : dump.toProgram.1 = program := congrArg Prod.fst (fault?_of_lower accepted).2
    rw [← same]
    exact grounded_toProgram dump
  · obtain ⟨nodes, visits⟩ := (lowered.planted unit member).visitsOnce
    exact ⟨nodes, visits, UnitView.answers_of_walked visits.walked⟩

theorem pingPong.grounded :
    pingPong.program.Grounded ∧
      (∀ unit ∈ pingPong.program.units,
        ∃ nodes, unit.VisitsOnce nodes ∧ (pingPong.program.view unit).Answers nodes) ∧
      ∃ outcome,
        checkUnit? pingPong.program ⟨0⟩ pingPong.policy FactTable.empty = some outcome := by
  obtain ⟨grounded, visits, checked⟩ := (lower_grounded pingPong).2 _ _ pingPong.accepted
  exact ⟨grounded, visits, checked ⟨0⟩ pingPong.policy FactTable.empty⟩

end Dump

end ErrorWrapping
