import ErrorWrapping.Proofs.DeclarationOrder
import ErrorWrapping.Proofs.Levels

/-
More wrappers never make a function naked.

A larger list of wrappers changes which functions are summarized on demand, and so what is under
way when a call is judged. The verdicts are nevertheless those of least sets, and these only grow
with the list and with what was recorded before. So along two runs, unit by unit or level by level,
the symbols recorded as wrapped by one are so by the other, and no source turns naked.
-/

namespace ErrorWrapping

/-- A policy with the scope of another one and all of its wrappers. -/
structure Policy.Extends (wider policy : Policy) : Prop where
  scope : wider.scope = policy.scope
  wrappers : ∀ signature ∈ policy.wrappers, signature ∈ wider.wrappers

namespace Policy.Extends

variable {policy wider : Policy} {program : Program}

theorem inScope_eq (extended : wider.Extends policy) : wider.inScope = policy.inScope := by
  funext path
  simp only [inScope, extended.scope]

theorem checks_iff (extended : wider.Extends policy) {unit : Package} :
    program.Checks wider unit ↔ program.Checks policy unit := by
  rw [Program.Checks, Program.Checks, extended.inScope_eq]

theorem allowListed (extended : wider.Extends policy) {symbols : SymbolTable} {id : SymbolId}
    (listed : AllowListed symbols policy id) : AllowListed symbols wider id := by
  obtain ⟨symbol, entry, isWrapper⟩ := listed
  refine ⟨symbol, entry, ?_⟩
  rw [Policy.isWrapper, List.contains_iff_mem] at isWrapper ⊢
  exact extended.wrappers _ isWrapper

/-- The order in which units are checked depends on the scope alone. -/
theorem build_eq (extended : wider.Extends policy) :
    Schedule.build program wider = Schedule.build program policy := by
  have sameScope : Schedule.Scope.add wider = Schedule.Scope.add policy := by
    funext scope unit
    simp only [Schedule.Scope.add, extended.inScope_eq]
  simp only [Schedule.build, Schedule.Scope.ofUnits, sameScope]

end Policy.Extends

/-! ### Sources and summaries -/

/-- A source that is wrapped stays so. -/
def ErrorSource.Improves (before after : ErrorSource) : Prop :=
  before.classification.isWrapped = true → after.classification.isWrapped = true

/-- The same function, wrapped if it was so, and with no more naked sources. -/
structure Summary.Improves (before after : Summary) : Prop where
  outline : before.outline = after.outline
  verdict : before.verdict = .wrapped → after.verdict = .wrapped
  naked : after.nakedSources.length ≤ before.nakedSources.length

theorem ErrorSource.all_improves {before after : List ErrorSource}
    (improves : List.Forall₂ Improves before after)
    (wrapped : ∀ source ∈ before, source.classification.isWrapped = true) :
    ∀ source ∈ after, source.classification.isWrapped = true := by
  intro source member
  obtain ⟨earlier, isEarlier, improved⟩ := mem_of_forall₂_right improves member
  exact improved (wrapped earlier isEarlier)

theorem ErrorSource.length_naked_le {before after : List ErrorSource}
    (improves : List.Forall₂ Improves before after) :
    (after.filter (!·.classification.isWrapped)).length ≤
      (before.filter (!·.classification.isWrapped)).length := by
  induction improves with
  | nil => exact Nat.le_refl 0
  | @cons source other rest later improved _ ih =>
      rw [List.filter_cons, List.filter_cons]
      cases was : source.classification.isWrapped with
      | true =>
          rw [improved was]
          exact ih
      | false =>
          cases other.classification.isWrapped with
          | true => exact Nat.le_succ_of_le ih
          | false => exact Nat.succ_le_succ ih

theorem Summary.improves_of_sources {before after : Summary}
    (outline : before.outline = after.outline)
    (improves : List.Forall₂ ErrorSource.Improves before.sources after.sources) :
    before.Improves after := by
  refine ⟨outline, fun wrapped => ?_, ErrorSource.length_naked_le improves⟩
  rw [Summary.verdict_eq_wrapped_iff] at wrapped ⊢
  exact ErrorSource.all_improves improves wrapped

/-! ### One unit -/

namespace Workload

variable {work : Workload} {symbols : SymbolTable} {policy wider : Policy}

theorem Trusts.mono {known known' : SymbolId → Prop} {members members' : FuncId → Prop}
    {escape : Escape} (extended : wider.Extends policy) (recorded : ∀ id, known id → known' id)
    (included : ∀ func, members func → members' func)
    (trusts : work.Trusts symbols policy known members escape) :
    work.Trusts symbols wider known' members' escape := by
  obtain ⟨target, id, called, named, reason⟩ := trusts
  refine ⟨target, id, called, named, ?_⟩
  rcases reason with listed | wasKnown | ⟨callee, declared, member⟩
  · exact Or.inl (extended.allowListed listed)
  · exact Or.inr (Or.inl (recorded id wasKnown))
  · exact Or.inr (Or.inr ⟨callee, declared, included callee member⟩)

/-- Derivations stay valid with more wrappers and more verdicts from elsewhere. -/
theorem Derivable.mono {known known' : SymbolId → Prop} (extended : wider.Extends policy)
    (recorded : ∀ id, known id → known' id) {func : FuncId}
    (derivable : work.Derivable symbols policy known func) :
    work.Derivable symbols wider known' func := by
  induction derivable with
  | intro grounded _ ih =>
      obtain ⟨subject, found, fallible, trusted⟩ := grounded
      rw [derivable_iff found fallible]
      intro escape member
      exact ((trusted escape member).of_needed found member ih).mono extended recorded
        fun _ derived => derived

variable {base base' : SymbolId → Option Verdict} {σ : Type} [FactStore σ]

/-- Escapes that are judged by both policies give sources that stay wrapped. -/
theorem Judged.improves (extended : wider.Extends policy)
    (recorded : ∀ id, base id = some .wrapped → base' id = some .wrapped)
    (plain : work.Plain symbols policy base) (plainWider : work.Plain symbols wider base')
    {func : FuncId} {subject : Subject} (found : work.subjects[func]? = some subject)
    {escapes : List Escape} {before after : List ErrorSource}
    (judged : Judged σ work symbols policy base escapes before)
    (judgedWider : Judged σ work symbols wider base' escapes after)
    (listed : ∀ escape ∈ escapes, escape ∈ subject.escapes) :
    List.Forall₂ ErrorSource.Improves before after := by
  induction judged generalizing after with
  | nil =>
      cases judgedWider
      exact .nil
  | @cons escape source rest later judgement _ ih =>
      cases judgedWider with
      | cons judgementWider restWider =>
          have member := listed escape (List.mem_cons_self ..)
          obtain ⟨facts, judges, rfl⟩ := judgement
          obtain ⟨otherFacts, judgesWider, rfl⟩ := judgementWider
          refine .cons (fun wrapped => ?_)
            (ih restWider fun other inRest => listed other (List.mem_cons_of_mem _ inRest))
          rw [source_isWrapped_iff plain judges found member] at wrapped
          rw [source_isWrapped_iff plainWider judgesWider found member]
          exact wrapped.mono extended recorded fun _ derivable => derivable.mono extended recorded

variable {first second : Progress σ}

theorem Concluded.improves (extended : wider.Extends policy)
    (recorded : ∀ id, base id = some .wrapped → base' id = some .wrapped)
    (plain : work.Plain symbols policy base) (plainWider : work.Plain symbols wider base')
    (concluded : work.Concluded symbols policy base first)
    (concludedWider : work.Concluded symbols wider base' second) {summary other : Summary}
    (member : summary ∈ first.summaries) (memberWider : other ∈ second.summaries)
    (same : summary.func = other.func) : summary.Improves other := by
  obtain ⟨subject, found, _, made, judged⟩ := concluded.judged summary member
  obtain ⟨subject', found', _, madeWider, judgedWider⟩ := concludedWider.judged other memberWider
  rw [← same] at found'
  cases found.symm.trans found'
  apply Summary.improves_of_sources
  · rw [made, madeWider, same]
    rfl
  · exact judged.improves extended recorded plain plainWider found judgedWider
      fun _ inEscapes => inEscapes

theorem Concluded.sorted_improves (extended : wider.Extends policy)
    (recorded : ∀ id, base id = some .wrapped → base' id = some .wrapped)
    (plain : work.Plain symbols policy base) (plainWider : work.Plain symbols wider base')
    (concluded : work.Concluded symbols policy base first)
    (concludedWider : work.Concluded symbols wider base' second) :
    List.Forall₂ Summary.Improves first.sorted second.sorted := by
  have improves : ∀ summary ∈ first.summaries, ∀ other ∈ second.summaries,
      summary.func = other.func → summary.Improves other := by
    intro summary member other memberWider same
    exact concluded.improves extended recorded plain plainWider concludedWider member memberWider
      same
  apply Progress.sorted_forall₂ concluded.once concludedWider.once
  · intro func
    rw [concluded.mem_funcs_iff, concludedWider.mem_funcs_iff]
  · intro summary member other memberWider same
    exact (improves summary member other memberWider same).outline
  · exact improves

/-- A symbol of the unit that is recorded as wrapped is so with more wrappers. -/
theorem Concluded.wrapped_of_declared (extended : wider.Extends policy)
    (recorded : ∀ id, base id = some .wrapped → base' id = some .wrapped)
    (concluded : work.Concluded symbols policy base first)
    (concludedWider : work.Concluded symbols wider base' second) {id : SymbolId} {callee : FuncId}
    (declared : work.declared[id]? = some callee)
    (wrapped : FactStore.verdict? first.facts id = some .wrapped) :
    FactStore.verdict? second.facts id = some .wrapped := by
  obtain ⟨fallible, reflects⟩ := concluded.accurate.own id callee .wrapped declared wrapped
  obtain ⟨verdict, stored, reflectsWider⟩ :=
    concludedWider.recorded id callee declared fallible (concludedWider.all callee fallible)
  have derivable := (reflects.mp rfl).mono extended recorded
  rw [stored, reflectsWider.mpr derivable]

end Workload

theorem Progress.sorted_perm {σ : Type} (progress : Progress σ) :
    progress.sorted.Perm progress.summaries :=
  (List.mergeSort_perm _ _).trans (List.reverse_perm _)

/-! ### Layers of one unit -/

namespace Program

variable {program : Program} {policy wider : Policy} {unit : Package}

/-- Reports on one unit: each of its functions with an error result has one summary, and the
summary by the second policy improves on it. -/
def Improves (program : Program) (policy wider : Policy) (before after : UnitReport) : Prop :=
  ∃ unit summaries summaries', program.Checks policy unit ∧
    before = .ofSummaries (program.view unit) policy summaries ∧
    after = .ofSummaries (program.view unit) wider summaries' ∧
    (summaries.map (·.func)).Nodup ∧
    (∀ func, func ∈ summaries.map (·.func) ↔
      ∃ function, (program.view unit).Fallible func function) ∧
    List.Forall₂ Summary.Improves summaries summaries'

/-- Outcomes of checking one unit over layers: the report improves, and the facts are on symbols
of the unit and stay wrapped. -/
structure ImprovesOn (program : Program) (policy wider : Policy) (unit : Package)
    (before after : Outcome FactTable UnitReport) : Prop where
  report : program.Improves policy wider before.value after.value
  own : ∀ id, ¬ unit.Declares id →
    before.facts.verdict? id = none ∧ after.facts.verdict? id = none
  wrapped : ∀ id, before.facts.verdict? id = some .wrapped →
    after.facts.verdict? id = some .wrapped

theorem fallible_iff {work : Workload} (planted : unit.Planted)
    (mirrors : (program.view unit).Mirrors work) {func : FuncId} :
    work.Fallible func ↔ ∃ function, (program.view unit).Fallible func function := by
  constructor
  · rintro ⟨subject, found, fallible⟩
    obtain ⟨function, describes⟩ := mirrors.describes func subject found
    exact ⟨function, describes.found, describes.hasError ▸ fallible⟩
  · rintro ⟨function, fallible⟩
    obtain ⟨subject, found, hasError, _⟩ := mirrors.exists_subject planted fallible
    exact ⟨subject, found, hasError⟩

/-- Where the table below has no verdict, a layer answers by what was added. -/
theorem added_run {work : Workload} {base : FactTable} {id : SymbolId}
    (free : base.verdict? id = none) :
    (work.run program.symbols policy (FactLayer.ofTable base)).facts.added.verdict? id =
      FactStore.verdict? (work.run program.symbols policy (FactLayer.ofTable base)).facts id := by
  have same : (work.run program.symbols policy (FactLayer.ofTable base)).facts.base = base :=
    (Workload.run_layer_apart base).1
  change _ = FactLayer.verdict? _ id
  rw [FactLayer.verdict?_eq_or, same, free, Option.orElse_eq_orElse, Option.orElse_eq_or,
    Option.or_none]

theorem added_run_of_not_declares {work : Workload} (planted : unit.Planted)
    (mirrors : (program.view unit).Mirrors work) (base : FactTable) {id : SymbolId}
    (foreign : ¬ unit.Declares id) :
    (work.run program.symbols policy (FactLayer.ofTable base)).facts.added.verdict? id = none :=
  Workload.added_of_not_owns fun owns => foreign (declares_of_owns planted mirrors owns)

/-- Checking a unit with more wrappers over a table with more wrapped symbols. -/
theorem Lowered.improves_check (lowered : program.Lowered) (extended : wider.Extends policy)
    (checks : program.Checks policy unit) (distinct : unit.Distinct program.symbols)
    (direct : (program.view unit).Direct) {base base' : FactTable}
    (recorded : ∀ id, base.verdict? id = some .wrapped → base'.verdict? id = some .wrapped)
    (free : ∀ id, unit.Declares id → base.verdict? id = none)
    (freeWider : ∀ id, unit.Declares id → base'.verdict? id = none) :
    ∃ outcome outcome', Run.checkLayered? program policy base unit.id = some outcome ∧
      Run.checkLayered? program wider base' unit.id = some outcome' ∧
      program.ImprovesOn policy wider unit outcome outcome' := by
  have planted := lowered.planted unit checks.1
  obtain ⟨work, mirrors, checksBy⟩ := lowered.exists_workload checks.1
  have checksWider := extended.checks_iff.mpr checks
  obtain ⟨outcome, made, value, stored⟩ := checksBy policy checks.2 (FactLayer.ofTable base)
  obtain ⟨outcome', made', value', stored'⟩ :=
    checksBy wider checksWider.2 (FactLayer.ofTable base')
  have plain : work.Plain program.symbols policy (FactStore.verdict? (FactLayer.ofTable base)) :=
    mirrors.plain planted checks.2 distinct direct fun id declares =>
      (FactLayer.verdict?_ofTable base id).trans (free id declares)
  have plainWider :
      work.Plain program.symbols wider (FactStore.verdict? (FactLayer.ofTable base')) :=
    mirrors.plain planted checksWider.2 distinct direct fun id declares =>
      (FactLayer.verdict?_ofTable base' id).trans (freeWider id declares)
  have recordedLayer : ∀ id, FactStore.verdict? (FactLayer.ofTable base) id = some .wrapped →
      FactStore.verdict? (FactLayer.ofTable base') id = some .wrapped := by
    intro id wrapped
    exact (FactLayer.verdict?_ofTable base' id).trans
      (recorded id ((FactLayer.verdict?_ofTable base id).symm.trans wrapped))
  have listed : ∀ func, work.Fallible func → func ∈ work.order := by
    rintro func ⟨subject, found, _⟩
    obtain ⟨function, describes⟩ := mirrors.describes func subject found
    exact (mirrors.order func).mpr describes.has
  have concluded := (Workload.Like.refl work).concluded plain listed
  have concludedWider := (Workload.Like.refl work).concluded plainWider listed
  refine ⟨_, _, Run.checkLayered?_eq_some made, Run.checkLayered?_eq_some made', ?_, ?_, ?_⟩
  · refine ⟨unit, _, _, checks, value, value', ?_, fun func => ?_,
      concluded.sorted_improves extended recordedLayer plain plainWider concludedWider⟩
    · exact (Progress.sorted_perm _).map (·.func) |>.nodup_iff.mpr concluded.once
    · rw [((Progress.sorted_perm _).map (·.func)).mem_iff, concluded.mem_funcs_iff]
      exact fallible_iff planted mirrors
  · intro id foreign
    rw [stored, stored']
    exact ⟨added_run_of_not_declares planted mirrors base foreign,
      added_run_of_not_declares planted mirrors base' foreign⟩
  · intro id wrapped
    dsimp only at wrapped ⊢
    rw [stored] at wrapped
    rw [stored']
    have declares : unit.Declares id := by
      by_contra foreign
      rw [added_run_of_not_declares planted mirrors base foreign] at wrapped
      cases wrapped
    obtain ⟨decl, isDecl, named⟩ := declares
    obtain ⟨callee, declared⟩ := mirrors.known id decl isDecl named
    rw [added_run (free id ⟨decl, isDecl, named⟩)] at wrapped
    rw [added_run (freeWider id ⟨decl, isDecl, named⟩)]
    exact concluded.wrapped_of_declared extended recordedLayer concludedWider declared wrapped

end Program

/-! ### Runs side by side -/

namespace Run

variable {program : Program} {policy wider : Policy} {done : List UnitId} {left right : Run}

/-- Two runs over the units that are done: their facts are on symbols of these, and the second
improves on the first. -/
structure Widens (program : Program) (policy wider : Policy) (done : List UnitId)
    (left right : Run) : Prop where
  foreign : ∀ id, (∀ unit, program.Checks policy unit → unit.id ∈ done → ¬ unit.Declares id) →
    left.facts.verdict? id = none ∧ right.facts.verdict? id = none
  wrapped : ∀ id, left.facts.verdict? id = some .wrapped →
    right.facts.verdict? id = some .wrapped
  reports : List.Forall₂ (program.Improves policy wider) left.reports right.reports

theorem widens_start : Widens program policy wider [] start start :=
  ⟨fun id _ => ⟨FactTable.verdict?_empty id, FactTable.verdict?_empty id⟩, fun _ wrapped => wrapped,
    .nil⟩

theorem Widens.of_same {left' right' : Run} (widens : Widens program policy wider done left right)
    (same : left'.Same left) (sameToo : right'.Same right) :
    Widens program policy wider done left' right' := by
  constructor
  · rw [same.facts, sameToo.facts]
    exact widens.foreign
  · rw [same.facts, sameToo.facts]
    exact widens.wrapped
  · rw [same.reports, sameToo.reports]
    exact widens.reports

/-- Neither run has a verdict on a symbol of a unit that is not done. -/
theorem Widens.free (widens : Widens program policy wider done left right)
    (separate : program.Separate policy) {unit : Package} (checks : program.Checks policy unit)
    (fresh : unit.id ∉ done) {id : SymbolId} (declares : unit.Declares id) :
    left.facts.verdict? id = none ∧ right.facts.verdict? id = none := by
  apply widens.foreign
  intro earlier earlierChecks isDone declaresToo
  have same := separate unit earlier checks earlierChecks id declares declaresToo
  exact fresh (same ▸ isDone)

theorem Widens.absorb (widens : Widens program policy wider done left right)
    (separate : program.Separate policy) {unit : Package} (checks : program.Checks policy unit)
    (fresh : unit.id ∉ done) {outcome outcome' : Outcome FactTable UnitReport}
    (improves : program.ImprovesOn policy wider unit outcome outcome') :
    Widens program policy wider (done ++ [unit.id]) (left.absorb outcome)
      (right.absorb outcome') := by
  have merged : ∀ (run : Run) (outcome : Outcome FactTable UnitReport) (id : SymbolId),
      (run.absorb outcome).facts.verdict? id =
        (run.facts.verdict? id <|> outcome.facts.verdict? id) :=
    fun run outcome id => FactTable.verdict?_merge run.facts outcome.facts id
  constructor
  · intro id foreign
    have undeclared := foreign unit checks (List.mem_append_right _ (List.mem_singleton.mpr rfl))
    obtain ⟨leftNone, rightNone⟩ := widens.foreign id fun earlier earlierChecks isDone =>
      foreign earlier earlierChecks (List.mem_append_left _ isDone)
    obtain ⟨beforeNone, afterNone⟩ := improves.own id undeclared
    rw [merged, merged, leftNone, rightNone, beforeNone, afterNone]
    exact ⟨rfl, rfl⟩
  · intro id wrapped
    rw [merged] at wrapped ⊢
    by_cases declares : unit.Declares id
    · obtain ⟨leftNone, rightNone⟩ := widens.free separate checks fresh declares
      rw [leftNone] at wrapped
      rw [rightNone]
      exact improves.wrapped id wrapped
    · obtain ⟨beforeNone, afterNone⟩ := improves.own id declares
      rw [beforeNone, Option.orElse_eq_orElse, Option.orElse_eq_or, Option.or_none] at wrapped
      rw [widens.wrapped id wrapped]
      rfl
  · exact .cons improves.report widens.reports

/-- The units of a level side by side, each over a layer on the tables that the level started
from. -/
theorem Widens.absorbAll (lowered : program.Lowered) (extended : wider.Extends policy)
    (distinct : ∀ unit, program.Checks policy unit → unit.Distinct program.symbols)
    (direct : ∀ unit, program.Checks policy unit → (program.view unit).Direct)
    {base base' : FactTable}
    (recorded : ∀ id, base.verdict? id = some .wrapped → base'.verdict? id = some .wrapped)
    (level : List UnitId) (once : (done ++ level).Nodup)
    (scheduled : ∀ id ∈ level, ∃ unit, program.Checks policy unit ∧ unit.id = id)
    (free : ∀ unit, program.Checks policy unit → unit.id ∈ level → ∀ id, unit.Declares id →
      base.verdict? id = none ∧ base'.verdict? id = none)
    (widens : Widens program policy wider done left right) :
    ∃ outcomes outcomes', level.mapM (checkLayered? program policy base) = some outcomes ∧
      level.mapM (checkLayered? program wider base') = some outcomes' ∧
      Widens program policy wider (done ++ level) (outcomes.foldl Run.absorb left)
        (outcomes'.foldl Run.absorb right) := by
  induction level generalizing done left right with
  | nil =>
      rw [List.append_nil]
      exact ⟨[], [], rfl, rfl, widens⟩
  | cons first rest ih =>
      obtain ⟨unit, checks, rfl⟩ := scheduled first (List.mem_cons_self ..)
      have fresh : unit.id ∉ done := fun again =>
        (List.nodup_append.mp once).2.2 _ again _ (List.mem_cons_self ..) rfl
      have freeHere := free unit checks (List.mem_cons_self ..)
      obtain ⟨outcome, outcome', made, made', improves⟩ :=
        lowered.improves_check extended checks (distinct unit checks) (direct unit checks) recorded
          (fun id declares => (freeHere id declares).1) fun id declares => (freeHere id declares).2
      have next := widens.absorb (lowered.separate distinct) checks fresh improves
      have regroup : done ++ unit.id :: rest = (done ++ [unit.id]) ++ rest := by
        rw [List.append_assoc]
        rfl
      rw [regroup] at once ⊢
      obtain ⟨outcomes, outcomes', collected, collected', after⟩ := ih once
        (fun id member => scheduled id (List.mem_cons_of_mem _ member))
        (fun unit checks member => free unit checks (List.mem_cons_of_mem _ member)) next
      refine ⟨outcome :: outcomes, outcome' :: outcomes', ?_, ?_, after⟩
      · exact mapM_eq_some_iff.mpr (.cons made (mapM_eq_some_iff.mp collected))
      · exact mapM_eq_some_iff.mpr (.cons made' (mapM_eq_some_iff.mp collected'))

theorem Widens.checkLevel (lowered : program.Lowered) (extended : wider.Extends policy)
    (distinct : ∀ unit, program.Checks policy unit → unit.Distinct program.symbols)
    (direct : ∀ unit, program.Checks policy unit → (program.view unit).Direct)
    (level : List UnitId) (once : (done ++ level).Nodup)
    (scheduled : ∀ id ∈ level, ∃ unit, program.Checks policy unit ∧ unit.id = id)
    (widens : Widens program policy wider done left right) :
    ∃ next next', checkLevel? program policy left level = some next ∧
      checkLevel? program wider right level = some next' ∧
      Widens program policy wider (done ++ level) next next' := by
  have free : ∀ unit, program.Checks policy unit → unit.id ∈ level → ∀ id, unit.Declares id →
      left.facts.verdict? id = none ∧ right.facts.verdict? id = none := by
    intro unit checks member id declares
    refine widens.free (lowered.separate distinct) checks (fun again => ?_) declares
    exact (List.nodup_append.mp once).2.2 _ again _ member rfl
  obtain ⟨outcomes, outcomes', collected, collected', after⟩ :=
    widens.absorbAll lowered extended distinct direct widens.wrapped level once scheduled free
  refine ⟨_, _, ?_, ?_, after⟩
  · rw [checkLevel?, collected]
    rfl
  · rw [checkLevel?, collected']
    rfl

/-- A unit that is checked against the table itself is a level of its own. -/
theorem exists_same_checkDirect? (lowered : program.Lowered) {unit : Package}
    (checks : program.Checks policy unit) {next : Run}
    (checked : checkLevel? program policy left [unit.id] = some next) :
    ∃ own, checkDirect? program policy left unit.id = some own ∧ own.Same next := by
  obtain ⟨own, outcome, direct, layered, same, _⟩ :=
    same_check lowered checks ⟨rfl, rfl⟩ fun id _ => (rfl : left.facts.verdict? id = _)
  have collected : [unit.id].mapM (checkLayered? program policy left.facts) = some [outcome] :=
    mapM_eq_some_iff.mpr (.cons layered .nil)
  rw [checkLevel?, collected] at checked
  cases checked
  exact ⟨own, direct, same⟩

theorem Widens.checkDirect (lowered : program.Lowered) (extended : wider.Extends policy)
    (distinct : ∀ unit, program.Checks policy unit → unit.Distinct program.symbols)
    (direct : ∀ unit, program.Checks policy unit → (program.view unit).Direct)
    (id : UnitId) (once : (done ++ [id]).Nodup)
    (scheduled : ∀ other ∈ [id], ∃ unit, program.Checks policy unit ∧ unit.id = other)
    (widens : Widens program policy wider done left right) :
    ∃ next next', checkDirect? program policy left id = some next ∧
      checkDirect? program wider right id = some next' ∧
      Widens program policy wider (done ++ [id]) next next' := by
  obtain ⟨next, next', checked, checked', after⟩ :=
    widens.checkLevel lowered extended distinct direct [id] once scheduled
  obtain ⟨unit, checks, rfl⟩ := scheduled id (List.mem_singleton.mpr rfl)
  obtain ⟨own, made, same⟩ := exists_same_checkDirect? lowered checks checked
  obtain ⟨own', made', same'⟩ :=
    exists_same_checkDirect? lowered (extended.checks_iff.mpr checks) checked'
  exact ⟨own, own', made, made', after.of_same same same'⟩

/-- What checking one more entry preserves, for entries that stand for some units each, holds at
the end. -/
theorem Widens.fold {α : Type} {check check' : Run → α → Option Run} (units : α → List UnitId)
    (step : ∀ (done : List UnitId) (left right : Run) (entry : α), (done ++ units entry).Nodup →
      (∀ id ∈ units entry, ∃ unit, program.Checks policy unit ∧ unit.id = id) →
      Widens program policy wider done left right →
      ∃ next next', check left entry = some next ∧ check' right entry = some next' ∧
        Widens program policy wider (done ++ units entry) next next')
    (entries : List α) (once : (done ++ entries.flatMap units).Nodup)
    (scheduled : ∀ id ∈ entries.flatMap units,
      ∃ unit, program.Checks policy unit ∧ unit.id = id)
    (widens : Widens program policy wider done left right) :
    ∃ final final', entries.foldlM check left = some final ∧
      entries.foldlM check' right = some final' ∧
      Widens program policy wider (done ++ entries.flatMap units) final final' := by
  induction entries generalizing done left right with
  | nil =>
      rw [List.flatMap_nil, List.append_nil]
      exact ⟨left, right, rfl, rfl, widens⟩
  | cons entry rest ih =>
      rw [List.flatMap_cons, ← List.append_assoc] at once ⊢
      rw [List.flatMap_cons] at scheduled
      obtain ⟨next, next', checked, checked', after⟩ := step done left right entry
        (List.nodup_append.mp once).1
        (fun id member => scheduled id (List.mem_append_left _ member)) widens
      obtain ⟨final, final', folded, folded', widensFinal⟩ := ih once
        (fun id member => scheduled id (List.mem_append_right _ member)) after
      refine ⟨final, final', ?_, ?_, widensFinal⟩
      · rw [List.foldlM_cons, checked]
        exact folded
      · rw [List.foldlM_cons, checked']
        exact folded'

theorem exists_widens (lowered : program.Lowered) (extended : wider.Extends policy)
    (distinct : ∀ unit, program.Checks policy unit → unit.Distinct program.symbols)
    (direct : ∀ unit, program.Checks policy unit → (program.view unit).Direct) (jobs : Nat)
    (pool : ThreadPool) :
    ∃ run run', check? program policy (Schedule.build program policy).1 jobs pool = some run ∧
      check? program wider (Schedule.build program wider).1 jobs pool = some run' ∧
      Widens program policy wider (Schedule.build program policy).1.units run run' := by
  have once := lowered.nodup_units policy
  have scheduled : ∀ id ∈ (Schedule.build program policy).1.units,
      ∃ unit, program.Checks policy unit ∧ unit.id = id := fun id => lowered.mem_units_iff.mp
  rw [extended.build_eq]
  have inOrder : ∃ run run',
      sequential? program policy (Schedule.build program policy).1 = some run ∧
      sequential? program wider (Schedule.build program policy).1 = some run' ∧
      Widens program policy wider (Schedule.build program policy).1.units run run' := by
    have each : (Schedule.build program policy).1.units.flatMap (fun id => [id]) =
        (Schedule.build program policy).1.units := List.flatMap_singleton' _
    obtain ⟨run, run', folded, folded', widens⟩ := Widens.fold (fun id => [id])
      (fun _ _ _ id once scheduled widens =>
        widens.checkDirect lowered extended distinct direct id once scheduled)
      (Schedule.build program policy).1.units (by rwa [each]) (by rwa [each]) widens_start
    rw [each] at widens
    exact ⟨run, run', folded, folded', widens⟩
  have byLevel : ∃ run run',
      byLevels? program policy (Schedule.build program policy).1 = some run ∧
      byLevels? program wider (Schedule.build program policy).1 = some run' ∧
      Widens program policy wider (Schedule.build program policy).1.units run run' := by
    have each : (Schedule.build program policy).1.levels.flatMap id =
        (Schedule.build program policy).1.units := List.flatMap_id
    obtain ⟨run, run', folded, folded', widens⟩ := Widens.fold id
      (fun _ _ _ level once scheduled widens =>
        widens.checkLevel lowered extended distinct direct level once scheduled)
      (Schedule.build program policy).1.levels (by rwa [each]) (by rwa [each]) widens_start
    rw [each] at widens
    exact ⟨run, run', folded, folded', widens⟩
  unfold check?
  split
  · exact inOrder
  · cases pool with
    | built => exact byLevel
    | failed cause =>
        obtain ⟨run, run', checked, checked', widens⟩ := inOrder
        exact ⟨_, _, congrArg (Option.map _) checked, congrArg (Option.map _) checked',
          widens.foreign, widens.wrapped, widens.reports⟩

end Run

/-- When declared functions have symbols of their own and none of them is called through an
interface, more wrappers in the same scope only improve a run, whatever the number of jobs, what
came of the threads, and whatever functions call and units import each other: the same functions
are reported in the same reports, those that were wrapped stay so, and none gets more diagnostics. -/
theorem check?_of_more_wrappers {dump : Dump} {program : Program} {warnings : List Warning}
    (accepted : dump.lower = .ok (program, warnings)) {policy wider : Policy}
    (extended : wider.Extends policy)
    (distinct : ∀ unit, program.Checks policy unit → unit.Distinct program.symbols)
    (direct : ∀ unit, program.Checks policy unit → (program.view unit).Direct) (jobs : Nat)
    (pool : ThreadPool) :
    ∃ run run', Run.check? program policy (Schedule.build program policy).1 jobs pool = some run ∧
      Run.check? program wider (Schedule.build program wider).1 jobs pool = some run' ∧
      List.Forall₂ (program.Improves policy wider) run.result.reports run'.result.reports := by
  obtain ⟨run, run', checked, checked', widens⟩ :=
    Run.exists_widens (Dump.lowered_of_lower accepted) extended distinct direct jobs pool
  exact ⟨run, run', checked, checked', List.rel_reverse widens.reports⟩

/-- With one of two functions that call each other on the list, both are wrapped. -/
def Dump.pingPong.wider : Policy := ⟨"m", ["Wrap", "Ping"]⟩

theorem Dump.pingPong.wider_extends : wider.Extends policy :=
  ⟨rfl, fun _ listed => List.mem_cons.mpr (Or.inl (List.mem_singleton.mp listed))⟩

theorem check?_pingPong_wider :
    Dump.pingPong.wider.Extends Dump.pingPong.policy ∧
      (∀ unit, Dump.pingPong.program.Checks Dump.pingPong.policy unit →
        unit.Distinct Dump.pingPong.program.symbols ∧
          (Dump.pingPong.program.view unit).Direct) ∧
      ∃ run run', Run.check? Dump.pingPong.program Dump.pingPong.policy
          (Schedule.build Dump.pingPong.program Dump.pingPong.policy).1 2 = some run ∧
        Run.check? Dump.pingPong.program Dump.pingPong.wider
          (Schedule.build Dump.pingPong.program Dump.pingPong.wider).1 2 = some run' ∧
        List.Forall₂ (Dump.pingPong.program.Improves Dump.pingPong.policy Dump.pingPong.wider)
          run.result.reports run'.result.reports :=
  ⟨Dump.pingPong.wider_extends,
    fun _ checks => ⟨Dump.pingPong.distinct checks, Dump.pingPong.direct checks⟩,
    check?_of_more_wrappers Dump.pingPong.accepted Dump.pingPong.wider_extends
      (fun _ checks => Dump.pingPong.distinct checks)
      (fun _ checks => Dump.pingPong.direct checks) 2 .built⟩

end ErrorWrapping
