import ErrorWrapping.Proofs.LeastSets

/-
Summaries of a unit are exact.

The verdicts that one pass over a unit gives are those of the least set of wrapped functions,
whatever functions call each other. A call back into a function whose summary is under way is
naked, and rightly so: the least set holds no function that is wrapped only if it is.
-/

namespace ErrorWrapping

namespace UnitView

theorem mem_sorted {σ : Type} {progress : Progress σ} {summary : Summary} :
    summary ∈ progress.sorted ↔ summary ∈ progress.summaries := by
  rw [Progress.sorted, List.mem_mergeSort, List.mem_reverse]

variable {view : UnitView} {work : Workload} {policy : Policy} {σ : Type} [FactStore σ]

/-- Every function of a unit with an error result gets a summary, and its verdict is wrapped
exactly when the function is in the least set. -/
theorem Mirrors.verdicts_exact [LawfulFactStore σ] (mirrors : view.Mirrors work)
    (planted : view.unit.Planted) (distinct : view.unit.Distinct view.symbols) {facts : σ}
    (plain : work.Plain view.symbols policy (FactStore.verdict? facts)) {func : FuncId}
    {function : Function} (fallible : view.Fallible func function) :
    (∃ summary ∈ (work.run view.symbols policy facts).sorted, summary.func = func) ∧
      ∀ summary ∈ (work.run view.symbols policy facts).sorted, summary.func = func →
        summary.verdict.Reflects
          (view.Derives policy (Workload.Recorded (FactStore.verdict? facts)) func) := by
  obtain ⟨invariant, done⟩ := Workload.run_exact plain
  obtain ⟨subject, found, hasError, _⟩ := mirrors.exists_subject planted fallible
  constructor
  · obtain ⟨summary, member, same⟩ := invariant.summarized func ⟨subject, found, hasError⟩
      (done func ((mirrors.order func).mpr (planted.has fallible.1)))
    exact ⟨summary, mem_sorted.mpr member, same⟩
  · intro summary member same
    have reflects := invariant.exact plain (mem_sorted.mp member)
    rw [same] at reflects
    exact reflects.trans (mirrors.derivable_iff planted distinct)

end UnitView

/-- In a unit of a lowered dump whose functions have symbols of their own, none of them recorded
yet or called through an interface, a function with an error result gets the verdict wrapped
exactly when it is in the least set of the unit. -/
theorem summarize?_wrapped_iff_derives {dump : Dump} {program : Program}
    {warnings : List Warning} (accepted : dump.lower = .ok (program, warnings))
    {policy : Policy} {unit : Package} (checks : program.Checks policy unit)
    (distinct : unit.Distinct program.symbols) {facts : FactTable}
    (unrecorded : ∀ id, unit.Declares id → facts.verdict? id = none)
    (direct : (program.view unit).Direct) :
    ∃ outcome, (program.view unit).summarize? policy facts = some outcome ∧
      ∀ func function, (program.view unit).Fallible func function →
        (∃ summary ∈ outcome.value, summary.func = func) ∧
        ∀ summary ∈ outcome.value, summary.func = func →
          (summary.verdict = .wrapped ↔ (program.view unit).Derives policy
            (fun id => facts.verdict? id = some .wrapped) func) := by
  have planted : (program.view unit).unit.Planted :=
    (Dump.lowered_of_lower accepted).planted unit checks.1
  obtain ⟨nodes, walked⟩ := planted.exists_allNodes?
  obtain ⟨work, mirrors, summarized⟩ := UnitView.exists_summarize? walked
  obtain ⟨outcome, made, value, _⟩ := summarized policy facts
  refine ⟨outcome, made, fun func function fallible => ?_⟩
  rw [value]
  have plain := mirrors.plain planted checks.2 distinct direct unrecorded
  exact mirrors.verdicts_exact planted distinct plain fallible

theorem summarize?_pingPong :
    ∃ unit, Dump.pingPong.program.Checks Dump.pingPong.policy unit ∧ unit.path = "m/io" ∧
      ∃ outcome, (Dump.pingPong.program.view unit).summarize? Dump.pingPong.policy
          FactTable.empty = some outcome ∧
        ∀ func function, (Dump.pingPong.program.view unit).Fallible func function →
          (∃ summary ∈ outcome.value, summary.func = func) ∧
          ∀ summary ∈ outcome.value, summary.func = func →
            (summary.verdict = .wrapped ↔ (Dump.pingPong.program.view unit).Derives
              Dump.pingPong.policy (fun id => FactTable.empty.verdict? id = some .wrapped)
              func) := by
  obtain ⟨unit, checks, path⟩ := Dump.pingPong.exists_unit
  refine ⟨unit, checks, path, ?_⟩
  exact summarize?_wrapped_iff_derives Dump.pingPong.accepted checks
    (Dump.pingPong.distinct checks) (fun id _ => FactTable.verdict?_empty id)
    (Dump.pingPong.direct checks)

end ErrorWrapping
