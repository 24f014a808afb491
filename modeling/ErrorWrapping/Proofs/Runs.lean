import ErrorWrapping.Proofs.LeastSets
import ErrorWrapping.Run

/-
Runs over lowered programs.

Checking a unit of a lowered program always gives an outcome, whatever store of facts it starts
from, so a run always ends with reports and facts. What checking a unit preserves therefore holds
at the end of every run, unit by unit or level by level.
-/

namespace ErrorWrapping

/-- A fold whose steps succeed and preserve a property succeeds and has it at the end. -/
theorem exists_foldlM {α β : Type} {f : β → α → Option β} {P : β → Prop} (entries : List α)
    (step : ∀ state, ∀ entry ∈ entries, P state → ∃ next, f state entry = some next ∧ P next)
    {start : β} (holds : P start) : ∃ final, entries.foldlM f start = some final ∧ P final := by
  induction entries generalizing start with
  | nil => exact ⟨start, rfl, holds⟩
  | cons entry rest ih =>
      obtain ⟨next, stepped, holdsNext⟩ := step start entry (List.mem_cons_self ..) holds
      obtain ⟨final, folded, holdsFinal⟩ := ih
        (fun state other member => step state other (List.mem_cons_of_mem _ member)) holdsNext
      refine ⟨final, ?_, holdsFinal⟩
      rw [List.foldlM_cons, stepped]
      exact folded

theorem Summary.verdict_eq_wrapped_iff {summary : Summary} :
    summary.verdict = .wrapped ↔
      ∀ source ∈ summary.sources, source.classification.isWrapped = true :=
  Verdict.ofWrapped_reflects List.all_eq_true

namespace Program

variable {program : Program} {policy : Policy} {σ : Type} [FactStore σ]

/-! ### Checking one unit -/

/-- Checking a unit runs a workload of it and reports the summaries. -/
def ChecksBy (program : Program) (policy : Policy) (id : UnitId) (unit : Package)
    (work : Workload) : Prop :=
  ∀ {σ : Type} [FactStore σ] (facts : σ), ∃ outcome,
    checkUnit? program id policy facts = some outcome ∧
      outcome.value = .ofSummaries (program.view unit) policy
        (work.run program.symbols policy facts).sorted ∧
      outcome.facts = (work.run program.symbols policy facts).facts

theorem checkUnit?_of_summarize? {id : UnitId} {unit : Package}
    (found : program.unit? id = some unit) (inScope : policy.inScope unit.path = true)
    {facts : σ} {outcome : Outcome σ (List Summary)}
    (made : (program.view unit).summarize? policy facts = some outcome) :
    checkUnit? program id policy facts =
      some { outcome with value := .ofSummaries (program.view unit) policy outcome.value } := by
  rw [checkUnit?, found]
  dsimp only
  rw [if_pos inScope, show (⟨program, unit⟩ : UnitView) = program.view unit from rfl, made]
  rfl

theorem checksBy_of_summarize? {id : UnitId} {unit : Package} {work : Workload}
    (found : program.unit? id = some unit) (inScope : policy.inScope unit.path = true)
    (summarized : ∀ {σ : Type} [FactStore σ] (facts : σ), ∃ outcome,
      (program.view unit).summarize? policy facts = some outcome ∧
        outcome.value = (work.run program.symbols policy facts).sorted ∧
        outcome.facts = (work.run program.symbols policy facts).facts) :
    program.ChecksBy policy id unit work := by
  intro σ _ facts
  obtain ⟨outcome, made, value, stored⟩ := summarized facts
  exact ⟨_, checkUnit?_of_summarize? found inScope made,
    congrArg (UnitReport.ofSummaries (program.view unit) policy) value, stored⟩

/-- One workload serves every policy with the unit in scope. -/
theorem Lowered.exists_workload (lowered : program.Lowered) {unit : Package}
    (member : unit ∈ program.units) :
    ∃ work, (program.view unit).Mirrors work ∧ ∀ policy, policy.inScope unit.path = true →
      program.ChecksBy policy unit.id unit work := by
  obtain ⟨nodes, walked⟩ := (lowered.planted unit member).exists_allNodes?
  have walkedView : (program.view unit).unit.allNodes? = some nodes := walked
  obtain ⟨work, mirrors, summarized⟩ := UnitView.exists_summarize? walkedView
  exact ⟨work, mirrors, fun policy inScope =>
    checksBy_of_summarize? (lowered.unit?_of_mem member) inScope (summarized policy)⟩

theorem Lowered.exists_checksBy (lowered : program.Lowered) {unit : Package}
    (checks : program.Checks policy unit) :
    ∃ work, (program.view unit).Mirrors work ∧ program.ChecksBy policy unit.id unit work := by
  obtain ⟨work, mirrors, checksBy⟩ := lowered.exists_workload checks.1
  exact ⟨work, mirrors, checksBy policy checks.2⟩

/-- A unit that is not checked has an empty report and no influence. -/
theorem Lowered.exists_report_of_not_checks (lowered : program.Lowered) {id : UnitId}
    (passed : ∀ unit, program.Checks policy unit → unit.id ≠ id) (facts : σ) :
    ∃ outcome, checkUnit? program id policy facts = some outcome ∧ outcome.facts = facts := by
  unfold checkUnit?
  split
  · exact ⟨_, rfl, rfl⟩
  · rename_i unit found
    split
    · rename_i inScope
      exact absurd (lowered.id_of_unit? found) (passed unit ⟨mem_of_unit? found, inScope⟩)
    · exact ⟨_, rfl, rfl⟩

/-! ### Soundness of facts -/

/-- Every symbol with the verdict wrapped is in the least set. -/
def Sound (program : Program) (policy : Policy) (facts : σ) : Prop :=
  ∀ id, FactStore.verdict? facts id = some .wrapped → program.Wraps policy id

theorem wraps_of_trusted {unit : Package} (checks : program.Checks policy unit) {func : FuncId}
    {function : Function} {symbol : SymbolId}
    (fallible : (program.view unit).Fallible func function)
    (named : function.symbol = some symbol)
    (trusted : (program.view unit).Trusted policy (program.Wraps policy) function) :
    program.Wraps policy symbol := by
  intro members closed
  refine closed unit checks func function symbol fallible named fun source comes => ?_
  obtain ⟨target, id, called, invoked, reason⟩ := trusted source comes
  refine ⟨target, id, called, invoked, ?_⟩
  rcases reason with listed | wraps
  · exact Or.inl listed
  · exact Or.inr (wraps members closed)

theorem trusted_of_classified {view : UnitView} {function : Function} {escapes : List Escape}
    {sources : List ErrorSource}
    (listed : ∀ source, view.Source function source → source ∈ escapes.map (·.target))
    (classified : Workload.ClassifiedIn view.symbols policy (fun progress : Progress σ =>
      program.Sound policy progress.facts) escapes sources)
    (wrapped : ∀ source ∈ sources, source.classification.isWrapped = true) :
    view.Trusted policy (program.Wraps policy) function := by
  intro origin comes
  obtain ⟨escape, member, rfl⟩ := List.mem_map.mp (listed origin comes)
  obtain ⟨source, inSources, progress, sound, rfl⟩ := mem_of_forall₂_left classified member
  have isWrapped := wrapped _ inSources
  cases called : escape.target with
  | none => simp [Workload.sourceOf, called, Classification.isWrapped] at isWrapped
  | some target =>
      simp only [Workload.sourceOf, called, classify_isWrapped_iff] at isWrapped
      obtain ⟨id, symbol, named, entry, reason⟩ := isWrapped
      refine ⟨target, id, rfl, named, ?_⟩
      rcases reason with onList | recorded
      · exact Or.inl ⟨symbol, entry, onList⟩
      · exact Or.inr (sound id recorded)

theorem sound_run [LawfulFactStore σ] {unit : Package} {work : Workload}
    (checks : program.Checks policy unit) (mirrors : (program.view unit).Mirrors work) {facts : σ}
    (sound : program.Sound policy facts) :
    program.Sound policy (work.run program.symbols policy facts).facts := by
  apply Workload.run_induct (P := fun progress : Progress σ => program.Sound policy progress.facts)
  · intro func progress holds
    exact holds
  · intro func subject sources progress holds found fallible classified id recorded
    rw [Progress.verdict?_conclude] at recorded
    cases known : FactStore.verdict? progress.facts id with
    | some verdict =>
        rw [known] at recorded
        cases recorded
        exact holds id known
    | none =>
        simp only [known, Option.orElse_eq_orElse, Option.orElse_eq_or, Option.none_or,
          Option.ite_none_right_eq_some, Option.some.injEq] at recorded
        obtain ⟨named, isWrapped⟩ := recorded
        obtain ⟨function, describes⟩ := mirrors.describes func subject found
        have listed : ∀ source, (program.view unit).Source function source →
            source ∈ subject.escapes.map (·.target) :=
          fun source comes => (describes.escapes source).mpr ⟨fallible, comes⟩
        have trusted := trusted_of_classified listed classified
          (Summary.verdict_eq_wrapped_iff.mp isWrapped)
        exact wraps_of_trusted checks ⟨describes.found, describes.hasError ▸ fallible⟩
          (describes.symbol ▸ named) trusted
  · exact sound

theorem Lowered.exists_sound_check [LawfulFactStore σ] (lowered : program.Lowered)
    (id : UnitId) {facts : σ} (sound : program.Sound policy facts) :
    ∃ outcome, checkUnit? program id policy facts = some outcome ∧
      program.Sound policy outcome.facts := by
  by_cases checked : ∃ unit, program.Checks policy unit ∧ unit.id = id
  · obtain ⟨unit, checks, rfl⟩ := checked
    obtain ⟨work, mirrors, checksBy⟩ := lowered.exists_checksBy checks
    obtain ⟨outcome, made, _, stored⟩ := checksBy facts
    exact ⟨outcome, made, stored ▸ sound_run checks mirrors sound⟩
  · obtain ⟨outcome, made, stored⟩ := lowered.exists_report_of_not_checks
      (fun unit checks same => checked ⟨unit, checks, same⟩) facts
    exact ⟨outcome, made, stored ▸ sound⟩

end Program

/-! ### Soundness of runs -/

namespace Run

variable {program : Program} {policy : Policy}

theorem checkDirect?_eq_some {run : Run} {id : UnitId} {outcome : Outcome FactTable UnitReport}
    (made : checkUnit? program id policy run.facts = some outcome) :
    checkDirect? program policy run id =
      some ⟨outcome.value :: run.reports, outcome.facts, outcome.warnings ++ run.warnings⟩ := by
  rw [checkDirect?, made]
  rfl

theorem checkLayered?_eq_some {table : FactTable} {id : UnitId}
    {outcome : Outcome FactLayer UnitReport}
    (made : checkUnit? program id policy (FactLayer.ofTable table) = some outcome) :
    checkLayered? program policy table id =
      some { outcome with facts := outcome.facts.added } := by
  rw [checkLayered?, made]
  rfl

theorem sound_start : program.Sound policy Run.start.facts := by
  intro id recorded
  rw [show FactStore.verdict? Run.start.facts id = none from FactTable.verdict?_empty id]
    at recorded
  cases recorded

theorem exists_sound_checkDirect? (lowered : program.Lowered) (id : UnitId) (run : Run)
    (sound : program.Sound policy run.facts) :
    ∃ next, checkDirect? program policy run id = some next ∧
      program.Sound policy next.facts := by
  obtain ⟨outcome, made, soundAfter⟩ := lowered.exists_sound_check id sound
  exact ⟨_, checkDirect?_eq_some made, soundAfter⟩

theorem exists_sound_checkLayered? (lowered : program.Lowered) (id : UnitId) {table : FactTable}
    (sound : program.Sound policy table) :
    ∃ outcome, checkLayered? program policy table id = some outcome ∧
      program.Sound policy outcome.facts := by
  have soundLayer : program.Sound policy (FactLayer.ofTable table) := by
    intro id recorded
    exact sound id ((FactLayer.verdict?_ofTable table id).symm.trans recorded)
  obtain ⟨outcome, made, soundAfter⟩ := lowered.exists_sound_check id soundLayer
  refine ⟨_, checkLayered?_eq_some made, fun id recorded => ?_⟩
  apply soundAfter
  have added : outcome.facts.added.verdict? id = some .wrapped := recorded
  change outcome.facts.verdict? id = some .wrapped
  rw [FactLayer.verdict?_eq_or, added]
  rfl

theorem sound_absorb {run : Run} {outcome : Outcome FactTable UnitReport}
    (sound : program.Sound policy run.facts) (added : program.Sound policy outcome.facts) :
    program.Sound policy (run.absorb outcome).facts := by
  intro id recorded
  change (run.facts.merge outcome.facts).1.verdict? id = some .wrapped at recorded
  rw [FactTable.verdict?_merge] at recorded
  cases known : run.facts.verdict? id with
  | some verdict =>
      rw [known] at recorded
      cases recorded
      exact sound id known
  | none =>
      rw [known] at recorded
      exact added id recorded

theorem exists_sound_checkLevel? (lowered : program.Lowered) (run : Run) (level : List UnitId)
    (sound : program.Sound policy run.facts) :
    ∃ next, checkLevel? program policy run level = some next ∧
      program.Sound policy next.facts := by
  obtain ⟨outcomes, all⟩ := exists_mapM_eq_some fun id (_ : id ∈ level) =>
    (exists_sound_checkLayered? lowered id sound).imp fun _ checked => checked.1
  refine ⟨outcomes.foldl absorb run, ?_, ?_⟩
  · rw [checkLevel?, all]
    rfl
  · apply List.foldlRecOn (motive := fun run : Run => program.Sound policy run.facts)
      outcomes absorb sound
    intro later soundLater outcome member
    obtain ⟨id, _, made⟩ := mem_of_forall₂_right (mapM_eq_some_iff.mp all) member
    obtain ⟨outcome', made', added⟩ := exists_sound_checkLayered? lowered id sound
    cases made.symm.trans made'
    exact sound_absorb soundLater added

/-- What holds of units checked in order, and of levels, holds of a run, provided that a warning
about threads does not matter. -/
theorem exists_check?_of {P : Run → Prop} {schedule : Schedule} {jobs : Nat} {pool : ThreadPool}
    (direct : ∃ run, sequential? program policy schedule = some run ∧ P run)
    (layered : ∃ run, byLevels? program policy schedule = some run ∧ P run)
    (warned : ∀ run cause, P run → P (run.warnFirst (.noThreadPool cause))) :
    ∃ run, check? program policy schedule jobs pool = some run ∧ P run := by
  unfold check?
  split
  · exact direct
  · cases pool with
    | built => exact layered
    | failed cause =>
        obtain ⟨run, checked, holds⟩ := direct
        exact ⟨_, congrArg (Option.map _) checked, warned run cause holds⟩

theorem exists_sound_check? (lowered : program.Lowered) (policy : Policy) (schedule : Schedule)
    (jobs : Nat) (pool : ThreadPool) :
    ∃ run, check? program policy schedule jobs pool = some run ∧
      program.Sound policy run.facts := by
  refine exists_check?_of ?_ ?_ fun _ _ sound => sound
  · exact exists_foldlM (P := fun run : Run => program.Sound policy run.facts) schedule.units
      (fun run id _ sound => exists_sound_checkDirect? lowered id run sound) sound_start
  · exact exists_foldlM (P := fun run : Run => program.Sound policy run.facts) schedule.levels
      (fun run level _ sound => exists_sound_checkLevel? lowered run level sound) sound_start

end Run

/-- A run over an accepted dump ends, and every symbol that it records as wrapped is in the least
set of the program, whatever the policy, the number of jobs and what came of the threads. -/
theorem check?_wrapped_wraps {dump : Dump} {program : Program} {warnings : List Warning}
    (accepted : dump.lower = .ok (program, warnings)) (policy : Policy) (jobs : Nat)
    (pool : ThreadPool) :
    ∃ run, Run.check? program policy (Schedule.build program policy).1 jobs pool = some run ∧
      ∀ symbol, run.facts.verdict? symbol = some .wrapped → program.Wraps policy symbol :=
  Run.exists_sound_check? (Dump.lowered_of_lower accepted) policy _ jobs pool

theorem check?_pingPong :
    Dump.pingPong.lower = .ok (Dump.pingPong.program, Dump.pingPong.toProgram.2) ∧
      ∃ run, Run.check? Dump.pingPong.program Dump.pingPong.policy
          (Schedule.build Dump.pingPong.program Dump.pingPong.policy).1 2 = some run ∧
        ∀ symbol, run.facts.verdict? symbol = some .wrapped →
          Dump.pingPong.program.Wraps Dump.pingPong.policy symbol :=
  ⟨Dump.pingPong.accepted,
    check?_wrapped_wraps Dump.pingPong.accepted Dump.pingPong.policy 2 .built⟩

end ErrorWrapping
