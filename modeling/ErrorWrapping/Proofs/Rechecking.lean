import ErrorWrapping.Proofs.Coverage
import ErrorWrapping.Proofs.DeclarationOrder

/-
Checking a unit again.

The first run leaves a verdict for every function of the unit that has a symbol and an error
result. A run that starts with these verdicts records nothing and summarizes nothing on demand:
every call is answered by the verdicts it starts with. They are those of the least set, so the run
ends in a state in which the first one could have ended.
-/

namespace ErrorWrapping

namespace Workload

variable {work : Workload} {symbols : SymbolTable} {policy : Policy}
  {base : SymbolId → Option Verdict} {σ : Type} [FactStore σ]

/-- The functions with a symbol and an error result all have a verdict. -/
def Answered (work : Workload) (facts : σ) : Prop :=
  ∀ (func : FuncId) (subject : Subject) (id : SymbolId), work.subjects[func]? = some subject →
    subject.hasError = true → subject.symbol = some id →
    ∃ verdict, FactStore.verdict? facts id = some verdict

theorem sourceOf_eq_of_verdicts {first second : σ}
    (same : ∀ id, FactStore.verdict? first id = FactStore.verdict? second id) (escape : Escape) :
    sourceOf symbols policy first escape = sourceOf symbols policy second escape := by
  cases called : escape.target with
  | none => simp only [sourceOf, called]
  | some target =>
      have alike : classify symbols policy first target = classify symbols policy second target :=
        classify_congr fun id _ => same id
      simp only [sourceOf, called, alike]

/-- Facts are as they were, and the sources of every summary are classified by them. -/
structure Reads (work : Workload) (symbols : SymbolTable) (policy : Policy) (facts : σ)
    (progress : Progress σ) : Prop where
  facts_eq : ∀ id, FactStore.verdict? progress.facts id = FactStore.verdict? facts id
  summaries : ∀ summary ∈ progress.summaries, ∃ subject : Subject,
    work.subjects[summary.func]? = some subject ∧ subject.hasError = true ∧
    summary = subject.summary summary.func (subject.escapes.map (sourceOf symbols policy facts))

theorem ClassifiedIn.eq_map {facts : σ} {escapes : List Escape} {sources : List ErrorSource}
    (classified : ClassifiedIn symbols policy (work.Reads symbols policy facts) escapes sources) :
    sources = escapes.map (sourceOf symbols policy facts) := by
  induction classified with
  | nil => rfl
  | cons judged _ ih =>
      obtain ⟨progress, reads, rfl⟩ := judged
      rw [List.map_cons, ← ih, sourceOf_eq_of_verdicts reads.facts_eq]

theorem Reads.conclude [LawfulFactStore σ] {facts : σ} (answered : work.Answered facts)
    {progress : Progress σ} (reads : work.Reads symbols policy facts progress) {func : FuncId}
    {subject : Subject} (found : work.subjects[func]? = some subject)
    (fallible : subject.hasError = true) :
    work.Reads symbols policy facts (progress.conclude
      (subject.summary func (subject.escapes.map (sourceOf symbols policy facts)))) := by
  constructor
  · intro id
    rw [Progress.verdict?_conclude, reads.facts_eq]
    by_cases named : subject.symbol = some id
    · obtain ⟨verdict, stored⟩ := answered func subject id found fallible named
      rw [stored]
      rfl
    · have other : (subject.summary func
          (subject.escapes.map (sourceOf symbols policy facts))).symbol ≠ some id := named
      rw [if_neg other]
      cases FactStore.verdict? facts id <;> rfl
  · intro summary member
    rw [Progress.summaries_conclude] at member
    rcases List.mem_cons.mp member with rfl | earlier
    · exact ⟨subject, found, fallible, rfl⟩
    · exact reads.summaries summary earlier

/-- A run that starts with all the verdicts only reads them. -/
theorem Answered.reads_run [LawfulFactStore σ] {facts : σ} (answered : work.Answered facts) :
    work.Reads symbols policy facts (work.run symbols policy facts) := by
  refine run_induct (P := work.Reads symbols policy facts) ?_ ?_ ?_
  · intro func progress reads
    exact ⟨reads.facts_eq, reads.summaries⟩
  · intro func subject sources progress reads found fallible classified
    rw [classified.eq_map]
    exact reads.conclude answered found fallible
  · refine ⟨fun _ => rfl, fun summary member => ?_⟩
    cases member

variable {first : Progress σ}

theorem Concluded.answered (concluded : work.Concluded symbols policy base first)
    (plain : work.Plain symbols policy base) : work.Answered first.facts := by
  intro func subject id found fallible named
  have declared : work.declared[id]? = some func :=
    (plain.declared_iff id func).mpr ⟨subject, found, named⟩
  obtain ⟨verdict, stored, _⟩ := concluded.recorded id func declared ⟨subject, found, fallible⟩
    (concluded.all func ⟨subject, found, fallible⟩)
  exact ⟨verdict, stored⟩

theorem Concluded.judges (concluded : work.Concluded symbols policy base first)
    (escape : Escape) : work.Judges symbols policy base escape first.facts := by
  refine ⟨concluded.accurate, ?_⟩
  intro target id callee _ _ declared _ fallible unknown
  obtain ⟨verdict, stored, _⟩ :=
    concluded.recorded id callee declared fallible (concluded.all callee fallible)
  rw [unknown] at stored
  cases stored

/-- The run that starts with the verdicts of a finished run is finished in the same way. -/
theorem Concluded.again [LawfulFactStore σ] (concluded : work.Concluded symbols policy base first)
    (plain : work.Plain symbols policy base)
    (listed : ∀ func, work.Fallible func → func ∈ work.order) :
    work.Concluded symbols policy base (work.run symbols policy first.facts) := by
  have reads : work.Reads symbols policy first.facts (work.run symbols policy first.facts) :=
    (concluded.answered plain).reads_run
  have all : ∀ func, work.Fallible func →
      (work.run symbols policy first.facts).Done [] func := by
    intro func fallible
    exact ⟨visited_foldl_settle (listed func fallible) _, List.not_mem_nil⟩
  refine ⟨⟨?_, ?_, ?_, ?_, ?_, ?_, nodup_funcs_run first.facts, ?_⟩, all⟩
  · intro func member
    cases member
  · intro id foreign
    rw [reads.facts_eq, concluded.foreign id foreign]
  · intro id func declared fallible _
    rw [reads.facts_eq]
    exact concluded.recorded id func declared fallible (concluded.all func fallible)
  · intro id func verdict declared stored
    rw [reads.facts_eq] at stored
    have fallible := (concluded.owner id func verdict declared stored).1
    exact ⟨fallible, all func fallible⟩
  · intro func fallible _
    exact exists_summary_of_mem_order first.facts (listed func fallible) fallible
  · intro summary member
    obtain ⟨subject, found, fallible, _⟩ := reads.summaries summary member
    exact all summary.func ⟨subject, found, fallible⟩
  · intro summary member
    obtain ⟨subject, found, fallible, same⟩ := reads.summaries summary member
    refine ⟨subject, found, fallible, ?_, ?_⟩
    · rw [same]
      rfl
    · rw [same]
      refine List.forall₂_map_right_iff.mpr (List.forall₂_same.mpr fun escape _ => ?_)
      exact ⟨first.facts, concluded.judges escape, rfl⟩

end Workload

/-- In a unit of a lowered dump whose functions have symbols of their own, none of them recorded
yet or called through an interface, checking the unit again on the table that the first check
left changes nothing: the table and the verdicts stay the same, and so do the diagnostics but for
notes on calls of recursive functions. -/
theorem checkUnit?_again {dump : Dump} {program : Program} {warnings : List Warning}
    (accepted : dump.lower = .ok (program, warnings)) {policy : Policy} {unit : Package}
    (checks : program.Checks policy unit) (distinct : unit.Distinct program.symbols)
    {facts : FactTable} (unrecorded : ∀ id, unit.Declares id → facts.verdict? id = none)
    (direct : (program.view unit).Direct) :
    ∃ outcome again, checkUnit? program unit.id policy facts = some outcome ∧
      checkUnit? program unit.id policy outcome.facts = some again ∧
      again.facts = outcome.facts ∧
      again.value.unit = outcome.value.unit ∧
      again.value.verdicts = outcome.value.verdicts ∧
      List.Forall₂ (Diagnostic.Alike policy.scope
          ((program.view unit).RecursiveNaked outcome.facts))
        outcome.value.diagnostics again.value.diagnostics := by
  have lowered := Dump.lowered_of_lower accepted
  have planted : (program.view unit).unit.Planted := lowered.planted unit checks.1
  obtain ⟨work, mirrors, checksBy⟩ := lowered.exists_checksBy checks
  have plain : work.Plain program.symbols policy (FactStore.verdict? facts) :=
    mirrors.plain planted checks.2 distinct direct unrecorded
  have listed : ∀ func, work.Fallible func → func ∈ work.order := by
    rintro func ⟨subject, found, _⟩
    obtain ⟨function, describes⟩ := mirrors.describes func subject found
    exact (mirrors.order func).mpr describes.has
  have concluded := (Workload.Like.refl work).concluded plain listed
  have concludedAgain := concluded.again plain listed
  obtain ⟨outcome, made, value, stored⟩ := checksBy facts
  obtain ⟨again, madeAgain, valueAgain, storedAgain⟩ := checksBy outcome.facts
  rw [stored] at valueAgain storedAgain
  obtain ⟨verdicts, diagnostics⟩ := ofSummaries_alike
    (fun _ loops => mirrors.recursiveNaked_of_loops plain concluded loops)
    (concluded.sorted_alike concludedAgain plain)
  refine ⟨outcome, again, made, madeAgain, ?_, ?_, ?_, ?_⟩
  · rw [stored, storedAgain]
    exact FactTable.ext_verdict? fun id => (concluded.verdict?_eq concludedAgain id).symm
  · rw [value, valueAgain, unit_ofSummaries, unit_ofSummaries]
  · rw [value, valueAgain]
    exact verdicts.symm
  · rw [value, valueAgain, stored]
    exact diagnostics

theorem checkUnit?_pingPong_again :
    ∃ unit, Dump.pingPong.program.Checks Dump.pingPong.policy unit ∧ unit.path = "m/io" ∧
      ∃ outcome again,
        checkUnit? Dump.pingPong.program unit.id Dump.pingPong.policy FactTable.empty =
          some outcome ∧
        checkUnit? Dump.pingPong.program unit.id Dump.pingPong.policy outcome.facts =
          some again ∧
        again.facts = outcome.facts ∧ again.value.unit = outcome.value.unit ∧
        again.value.verdicts = outcome.value.verdicts ∧
        List.Forall₂ (Diagnostic.Alike Dump.pingPong.policy.scope
            ((Dump.pingPong.program.view unit).RecursiveNaked outcome.facts))
          outcome.value.diagnostics again.value.diagnostics := by
  obtain ⟨unit, checks, path⟩ := Dump.pingPong.exists_unit
  refine ⟨unit, checks, path, ?_⟩
  exact checkUnit?_again Dump.pingPong.accepted checks (Dump.pingPong.distinct checks)
    (fun id _ => FactTable.verdict?_empty id) (Dump.pingPong.direct checks)

end ErrorWrapping
