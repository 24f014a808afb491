import ErrorWrapping.Proofs.Reordering
import ErrorWrapping.Proofs.Runs
import ErrorWrapping.Proofs.UnitExactness

/-
The order of declarations does not matter.

Runs over alike workloads end with the same verdicts, since these are those of the least set. What
is under way when an escape is judged does depend on the order. It shows only in calls of functions
that need themselves: such a call is pending in one run and a call of a naked function in another.
-/

namespace ErrorWrapping

theorem Verdict.Reflects.unique {condition : Prop} {one other : Verdict}
    (reflects : one.Reflects condition) (alsoReflects : other.Reflects condition) :
    one = other := by
  have same : one = .wrapped ↔ other = .wrapped := reflects.trans alsoReflects.symm
  cases one <;> cases other <;> simp_all

/-- The call of a function that needs itself was judged before its verdict or after it. -/
inductive ErrorSource.Alike (loops : SymbolId → Prop) : ErrorSource → ErrorSource → Prop
  | same (source : ErrorSource) : Alike loops source source
  | before {id : SymbolId} (looping : loops id) (site : Span) (origin : Option Span) :
      Alike loops ⟨some id, .naked .pending, site, origin⟩
        ⟨some id, .naked .calleeNaked, site, origin⟩
  | after {id : SymbolId} (looping : loops id) (site : Span) (origin : Option Span) :
      Alike loops ⟨some id, .naked .calleeNaked, site, origin⟩
        ⟨some id, .naked .pending, site, origin⟩

theorem ErrorSource.Alike.symm {loops : SymbolId → Prop} {left right : ErrorSource}
    (alike : left.Alike loops right) : right.Alike loops left := by
  cases alike with
  | same => exact .same left
  | before looping site origin => exact .after looping site origin
  | after looping site origin => exact .before looping site origin

theorem ErrorSource.Alike.isWrapped {loops : SymbolId → Prop} {left right : ErrorSource}
    (alike : left.Alike loops right) :
    left.classification.isWrapped = right.classification.isWrapped := by
  cases alike <;> rfl

/-- A summary without its sources. -/
def Summary.outline (summary : Summary) : Summary :=
  { summary with sources := [] }

structure Summary.Alike (loops : SymbolId → Prop) (left right : Summary) : Prop where
  outline : left.outline = right.outline
  sources : List.Forall₂ (ErrorSource.Alike loops) left.sources right.sources

/-! ### Sorted summaries -/

namespace Progress

variable {σ τ : Type} {first : Progress σ} {second : Progress τ}

theorem map_outline_sorted (progress : Progress σ) :
    progress.sorted.map (·.outline) =
      (progress.summaries.map (·.outline)).reverse.mergeSort Summary.before := by
  rw [← List.map_reverse]
  exact List.map_mergeSort fun _ _ _ _ => rfl

/-- Summaries of the same functions with the same outlines are sorted alike. -/
theorem map_outline_sorted_eq (once : (first.summaries.map (·.func)).Nodup)
    (onceToo : (second.summaries.map (·.func)).Nodup)
    (funcs : ∀ func, func ∈ first.summaries.map (·.func) ↔ func ∈ second.summaries.map (·.func))
    (outline : ∀ summary ∈ first.summaries, ∀ other ∈ second.summaries,
      summary.func = other.func → summary.outline = other.outline) :
    first.sorted.map (·.outline) = second.sorted.map (·.outline) := by
  have onceOutlines : ∀ {summaries : List Summary}, (summaries.map (·.func)).Nodup →
      (summaries.map (·.outline)).Nodup := by
    intro summaries distinct
    refine List.Nodup.of_map (·.func) ?_
    rw [List.map_map]
    exact distinct
  have perm : (first.summaries.map (·.outline)).Perm (second.summaries.map (·.outline)) := by
    refine (List.perm_ext_iff_of_nodup (onceOutlines once) (onceOutlines onceToo)).mpr
      fun entry => ⟨fun member => ?_, fun member => ?_⟩
    · obtain ⟨summary, inFirst, rfl⟩ := List.mem_map.mp member
      obtain ⟨other, inSecond, same⟩ :=
        List.mem_map.mp ((funcs summary.func).mp (List.mem_map_of_mem inFirst))
      exact List.mem_map.mpr
        ⟨other, inSecond, (outline summary inFirst other inSecond same.symm).symm⟩
    · obtain ⟨other, inSecond, rfl⟩ := List.mem_map.mp member
      obtain ⟨summary, inFirst, same⟩ :=
        List.mem_map.mp ((funcs other.func).mpr (List.mem_map_of_mem inSecond))
      exact List.mem_map.mpr ⟨summary, inFirst, outline summary inFirst other inSecond same⟩
  rw [map_outline_sorted, map_outline_sorted]
  refine mergeSort_eq_of_perm (·.span.start) (·.func.index) (by simp [Summary.before]) ?_
    ((List.reverse_perm _).trans (perm.trans (List.reverse_perm _).symm))
  intro one inFirst other inFirstToo sameFunc
  have onceReversed : (((first.summaries.map (·.outline)).reverse).map (·.func)).Nodup := by
    rw [List.map_reverse, List.nodup_reverse, List.map_map]
    exact once
  exact List.inj_on_of_nodup_map onceReversed inFirst inFirstToo (congrArg FuncId.mk sameFunc)

/-- The order depends on outlines alone, so summaries with the same outlines pair up. -/
theorem sorted_forall₂ {R : Summary → Summary → Prop}
    (once : (first.summaries.map (·.func)).Nodup)
    (onceToo : (second.summaries.map (·.func)).Nodup)
    (funcs : ∀ func, func ∈ first.summaries.map (·.func) ↔ func ∈ second.summaries.map (·.func))
    (outline : ∀ summary ∈ first.summaries, ∀ other ∈ second.summaries,
      summary.func = other.func → summary.outline = other.outline)
    (related : ∀ summary ∈ first.summaries, ∀ other ∈ second.summaries,
      summary.func = other.func → R summary other) :
    List.Forall₂ R first.sorted second.sorted := by
  have outlines := map_outline_sorted_eq once onceToo funcs outline
  rw [← List.forall₂_eq_eq_eq, List.forall₂_map_left_iff, List.forall₂_map_right_iff,
    List.forall₂_iff_zip] at outlines
  refine List.forall₂_iff_zip.mpr ⟨outlines.1, fun {summary other} paired => ?_⟩
  obtain ⟨inFirst, inSecond⟩ := List.of_mem_zip paired
  have sameFunc : summary.outline.func = other.outline.func :=
    congrArg Summary.func (outlines.2 paired)
  exact related summary (UnitView.mem_sorted.mp inFirst) other (UnitView.mem_sorted.mp inSecond)
    sameFunc

end Progress

namespace Workload

section

variable {left right : Workload} {symbols : SymbolTable} {policy : Policy}
  {known : SymbolId → Prop} {base : SymbolId → Option Verdict} {σ : Type} [FactStore σ]

theorem Like.symm (alike : left.Like right) : right.Like left :=
  ⟨alike.order.symm, fun func => (alike.subjects func).symm, fun id => (alike.declared id).symm⟩

theorem Like.fallible (alike : left.Like right) : right.Fallible = left.Fallible := by
  funext func
  simp only [Fallible, alike.subjects]

theorem Like.needs (alike : left.Like right) :
    right.Needs symbols policy known = left.Needs symbols policy known := by
  funext func callee
  simp only [Needs, alike.subjects, alike.declared]

theorem Like.derivable_of (alike : left.Like right) {func : FuncId}
    (derivable : left.Derivable symbols policy known func) :
    right.Derivable symbols policy known func := by
  induction derivable with
  | intro grounded _ ih =>
      refine .intro ?_ fun callee needs => ih callee ?_
      · simpa only [Grounded, Trusts, alike.subjects, alike.declared] using grounded
      · rw [alike.needs] at needs
        exact needs

theorem Like.derivable (alike : left.Like right) :
    right.Derivable symbols policy known = left.Derivable symbols policy known :=
  funext fun _ => propext ⟨alike.symm.derivable_of, alike.derivable_of⟩

theorem Like.plain (alike : left.Like right) (plain : left.Plain symbols policy base) :
    right.Plain symbols policy base := by
  constructor
  · intro func member
    rw [alike.subjects]
    exact plain.listed func (alike.order.mem_iff.mp member)
  · simpa only [alike.subjects, alike.declared] using plain.declared_iff
  · simpa only [alike.declared] using plain.inScope
  · simpa only [alike.declared] using plain.unrecorded
  · simpa only [alike.subjects] using plain.resolved
  · simpa only [alike.subjects, alike.declared] using plain.direct

theorem Like.judged (alike : left.Like right) {escapes : List Escape}
    {sources : List ErrorSource} (judged : Judged σ right symbols policy base escapes sources) :
    Judged σ left symbols policy base escapes sources := by
  refine judged.imp ?_
  rintro escape source ⟨facts, judges, same⟩
  refine ⟨facts, ⟨⟨?_, ?_⟩, ?_⟩, same⟩
  · simpa only [alike.declared] using judges.foreign
  · simpa only [alike.declared, alike.fallible, alike.derivable] using judges.own
  · simpa only [alike.declared, alike.fallible, alike.needs] using judges.settled

theorem Like.invariant (alike : left.Like right) {under : List FuncId} {progress : Progress σ}
    (invariant : right.Invariant symbols policy base under progress) :
    left.Invariant symbols policy base under progress := by
  refine ⟨invariant.marked, ?_, ?_, ?_, ?_, invariant.done, invariant.once, ?_⟩
  · simpa only [alike.declared] using invariant.foreign
  · simpa only [alike.declared, alike.fallible, alike.derivable] using invariant.recorded
  · simpa only [alike.declared, alike.fallible] using invariant.owner
  · simpa only [alike.fallible] using invariant.summarized
  · intro summary member
    obtain ⟨subject, found, fallible, same, judged⟩ := invariant.judged summary member
    exact ⟨subject, (alike.subjects _).symm.trans found, fallible, same, alike.judged judged⟩

end

/-! ### One escape, judged twice -/

/-- The symbol of a function with an error result that needs itself. -/
def Loops (work : Workload) (symbols : SymbolTable) (policy : Policy)
    (base : SymbolId → Option Verdict) (id : SymbolId) : Prop :=
  ∃ callee, work.declared[id]? = some callee ∧ work.Fallible callee ∧
    Relation.TransGen (work.Needs symbols policy (Recorded base)) callee callee

variable {work : Workload} {symbols : SymbolTable} {policy : Policy}
  {base : SymbolId → Option Verdict} {σ : Type} [FactStore σ] {func : FuncId} {subject : Subject}
  {escape : Escape}

theorem sourceOf_eq_of_verdict {first second : σ} {target : CallTarget} {id : SymbolId}
    (called : escape.target = some target) (named : target.symbol = some id)
    (same : FactStore.verdict? first id = FactStore.verdict? second id) :
    sourceOf symbols policy first escape = sourceOf symbols policy second escape := by
  have alike : classify symbols policy first target = classify symbols policy second target := by
    refine classify_congr fun other named' => ?_
    cases named.symm.trans named'
    exact same
  simp only [sourceOf, called, alike]

/-- The function that is called has its verdict by some facts and not by others. -/
theorem sourceOf_alike_of_unknown {first second : σ} (plain : work.Plain symbols policy base)
    (found : work.subjects[func]? = some subject) (fallible : subject.hasError = true)
    (member : escape ∈ subject.escapes) (judges : work.Judges symbols policy base escape first)
    (judgesToo : work.Judges symbols policy base escape second) {target : CallTarget}
    {id : SymbolId} {callee : FuncId} {verdict : Verdict} (called : escape.target = some target)
    (named : target.symbol = some id) (declared : work.declared[id]? = some callee)
    (unlisted : ¬ AllowListed symbols policy id)
    (stored : FactStore.verdict? first id = some verdict)
    (unknown : FactStore.verdict? second id = none) :
    (sourceOf symbols policy first escape).Alike (work.Loops symbols policy base)
      (sourceOf symbols policy second escape) := by
  obtain ⟨calleeFallible, reflects⟩ := judges.own id callee verdict declared stored
  -- Only a function that needs itself lacks its verdict, and such a function is not derivable.
  have cycle := judgesToo.settled target id callee called named declared unlisted calleeFallible
    unknown
  obtain ⟨symbol, entry, within⟩ := plain.inScope id callee declared
  have notWrapper : policy.isWrapper symbol.signature = false := by
    cases isWrapper : policy.isWrapper symbol.signature with
    | false => rfl
    | true => exact absurd ⟨symbol, entry, isWrapper⟩ unlisted
  have direct : target.throughInterface = false :=
    plain.direct func callee subject escape target id found fallible member called named declared
  have pending : classify symbols policy second target = .naked .pending :=
    (classify_eq_pending_iff second target).mpr
      ⟨id, symbol, named, entry, notWrapper, unknown, direct, within⟩
  cases verdict with
  | wrapped => exact absurd cycle (reflects.mp rfl).not_cycle
  | naked =>
      have naked : classify symbols policy first target = .naked .calleeNaked := by
        simp [classify, named, entry, notWrapper, stored, Verdict.inherited]
      simp only [sourceOf, called, named, naked, pending]
      exact .after ⟨callee, declared, calleeFallible, cycle⟩ escape.site escape.origin

/-- Facts that judge an escape give it sources that are alike. -/
theorem Judges.alike {first second : σ} (judges : work.Judges symbols policy base escape first)
    (judgesToo : work.Judges symbols policy base escape second)
    (plain : work.Plain symbols policy base) (found : work.subjects[func]? = some subject)
    (fallible : subject.hasError = true) (member : escape ∈ subject.escapes) :
    (sourceOf symbols policy first escape).Alike (work.Loops symbols policy base)
      (sourceOf symbols policy second escape) := by
  cases called : escape.target with
  | none =>
      simp only [sourceOf, called]
      exact .same _
  | some target =>
      cases named : target.symbol with
      | none =>
          simp only [sourceOf, called, classify, named]
          exact .same _
      | some id =>
          by_cases listed : AllowListed symbols policy id
          · obtain ⟨symbol, entry, isWrapper⟩ := listed
            simp only [sourceOf, called, classify, named, entry, isWrapper, if_true]
            exact .same _
          cases declared : work.declared[id]? with
          | none =>
              have same := (judges.foreign id declared).trans (judgesToo.foreign id declared).symm
              rw [sourceOf_eq_of_verdict called named same]
              exact .same _
          | some callee =>
              cases stored : FactStore.verdict? first id with
              | none =>
                  cases storedToo : FactStore.verdict? second id with
                  | none =>
                      rw [sourceOf_eq_of_verdict called named (stored.trans storedToo.symm)]
                      exact .same _
                  | some verdict =>
                      exact (sourceOf_alike_of_unknown plain found fallible member judgesToo
                        judges called named declared listed storedToo stored).symm
              | some verdict =>
                  cases storedToo : FactStore.verdict? second id with
                  | none =>
                      exact sourceOf_alike_of_unknown plain found fallible member judges
                        judgesToo called named declared listed stored storedToo
                  | some other =>
                      have same := (judges.own id callee verdict declared stored).2.unique
                        (judgesToo.own id callee other declared storedToo).2
                      rw [← same] at storedToo
                      rw [sourceOf_eq_of_verdict called named (stored.trans storedToo.symm)]
                      exact .same _

theorem Judged.alike (plain : work.Plain symbols policy base)
    (found : work.subjects[func]? = some subject) (fallible : subject.hasError = true)
    {escapes : List Escape} {first second : List ErrorSource}
    (judged : Judged σ work symbols policy base escapes first)
    (judgedToo : Judged σ work symbols policy base escapes second)
    (listed : ∀ escape ∈ escapes, escape ∈ subject.escapes) :
    List.Forall₂ (ErrorSource.Alike (work.Loops symbols policy base)) first second := by
  induction judged generalizing second with
  | nil =>
      cases judgedToo
      exact .nil
  | @cons escape source rest later judgement _ ih =>
      cases judgedToo with
      | @cons _ other _ laterToo judgementToo restToo =>
          obtain ⟨facts, judges, rfl⟩ := judgement
          obtain ⟨otherFacts, judgesToo, rfl⟩ := judgementToo
          refine .cons ?_ (ih restToo fun other inRest => listed other ?_)
          · exact judges.alike judgesToo plain found fallible
              (listed escape (List.mem_cons_self ..))
          · exact List.mem_cons_of_mem _ inRest

/-! ### Two runs -/

/-- A state in which all functions with an error result are done. -/
structure Concluded (work : Workload) (symbols : SymbolTable) (policy : Policy)
    (base : SymbolId → Option Verdict) (progress : Progress σ) : Prop
    extends work.Invariant symbols policy base [] progress where
  all : ∀ func, work.Fallible func → progress.Done [] func

variable {first second : Progress σ}

theorem Concluded.alike (concluded : work.Concluded symbols policy base first)
    (concludedToo : work.Concluded symbols policy base second)
    (plain : work.Plain symbols policy base) {summary other : Summary}
    (member : summary ∈ first.summaries) (memberToo : other ∈ second.summaries)
    (same : summary.func = other.func) :
    summary.Alike (work.Loops symbols policy base) other := by
  obtain ⟨subject, found, fallible, made, judged⟩ := concluded.judged summary member
  obtain ⟨subject', found', _, madeToo, judgedToo⟩ := concludedToo.judged other memberToo
  rw [← same] at found'
  cases found.symm.trans found'
  refine ⟨?_, judged.alike plain found fallible judgedToo fun _ member => member⟩
  rw [made, madeToo, same]
  rfl

theorem Concluded.mem_funcs_iff (concluded : work.Concluded symbols policy base first)
    {func : FuncId} : func ∈ first.summaries.map (·.func) ↔ work.Fallible func := by
  constructor
  · intro member
    obtain ⟨summary, inFirst, rfl⟩ := List.mem_map.mp member
    obtain ⟨subject, found, fallible, _⟩ := concluded.judged summary inFirst
    exact ⟨subject, found, fallible⟩
  · intro fallible
    obtain ⟨summary, inFirst, same⟩ := concluded.summarized func fallible (concluded.all _ fallible)
    exact List.mem_map.mpr ⟨summary, inFirst, same⟩

theorem Concluded.sorted_alike (concluded : work.Concluded symbols policy base first)
    (concludedToo : work.Concluded symbols policy base second)
    (plain : work.Plain symbols policy base) :
    List.Forall₂ (Summary.Alike (work.Loops symbols policy base)) first.sorted second.sorted := by
  apply Progress.sorted_forall₂ concluded.once concludedToo.once
  · intro func
    rw [concluded.mem_funcs_iff, concludedToo.mem_funcs_iff]
  · intro summary member other memberToo same
    exact (concluded.alike concludedToo plain member memberToo same).outline
  · intro summary member other memberToo same
    exact concluded.alike concludedToo plain member memberToo same

theorem Concluded.verdict?_eq (concluded : work.Concluded symbols policy base first)
    (concludedToo : work.Concluded symbols policy base second) (id : SymbolId) :
    FactStore.verdict? first.facts id = FactStore.verdict? second.facts id := by
  cases declared : work.declared[id]? with
  | none => exact (concluded.foreign id declared).trans (concludedToo.foreign id declared).symm
  | some callee =>
      by_cases fallible : work.Fallible callee
      · obtain ⟨verdict, stored, reflects⟩ :=
          concluded.recorded id callee declared fallible (concluded.all callee fallible)
        obtain ⟨other, storedToo, reflectsToo⟩ :=
          concludedToo.recorded id callee declared fallible (concludedToo.all callee fallible)
        rw [stored, storedToo, reflects.unique reflectsToo]
      · have unrecorded : ∀ {progress : Progress σ}, work.Concluded symbols policy base progress →
            FactStore.verdict? progress.facts id = none := by
          intro progress ended
          cases stored : FactStore.verdict? progress.facts id with
          | none => rfl
          | some verdict => exact absurd (ended.owner id callee verdict declared stored).1 fallible
        rw [unrecorded concluded, unrecorded concludedToo]

/-- A function that needs itself is naked in the end. -/
theorem Concluded.naked_of_loops (concluded : work.Concluded symbols policy base first)
    {id : SymbolId} (loops : work.Loops symbols policy base id) :
    FactStore.verdict? first.facts id = some .naked := by
  obtain ⟨callee, declared, fallible, cycle⟩ := loops
  obtain ⟨verdict, stored, reflects⟩ :=
    concluded.recorded id callee declared fallible (concluded.all callee fallible)
  cases verdict with
  | naked => exact stored
  | wrapped => exact absurd cycle (reflects.mp rfl).not_cycle

/-- A run over a workload that is alike does all of this one. -/
theorem Like.concluded [LawfulFactStore σ] {left right : Workload} (alike : left.Like right)
    {facts : σ} (plain : left.Plain symbols policy (FactStore.verdict? facts))
    (listed : ∀ func, left.Fallible func → func ∈ left.order) :
    left.Concluded symbols policy (FactStore.verdict? facts) (right.run symbols policy facts) := by
  obtain ⟨invariant, done⟩ := run_exact (alike.plain plain)
  refine ⟨alike.invariant invariant, fun func fallible => done func ?_⟩
  exact alike.order.mem_iff.mpr (listed func fallible)

theorem Like.refl (work : Workload) : work.Like work :=
  ⟨.refl _, fun _ => rfl, fun _ => rfl⟩

end Workload

/-! ### Reports -/

/-- Diagnostics that differ at most in the note on a call of a recursive function: it has no
verdict yet by one of them and is naked by the other. -/
structure Diagnostic.Alike (scope : String) (recursive : String → Prop)
    (left right : Diagnostic) : Prop where
  code : left.code = right.code
  severity : left.severity = right.severity
  message : left.message = right.message
  labels : left.labels = right.labels
  suggestions : left.suggestions = right.suggestions
  notes : left.notes = right.notes ∨ ∃ heading callee, recursive callee ∧
    ((left.notes = [heading, NakedReason.pending.explain scope callee] ∧
        right.notes = [heading, NakedReason.calleeNaked.explain scope callee]) ∨
      (left.notes = [heading, NakedReason.calleeNaked.explain scope callee] ∧
        right.notes = [heading, NakedReason.pending.explain scope callee]))

section Reports

variable {view : UnitView} {policy : Policy} {loops : SymbolId → Prop} {recursive : String → Prop}

theorem Summary.Alike.functionVerdict {left right : Summary} (alike : left.Alike loops right) :
    left.functionVerdict = right.functionVerdict := by
  have sources : left.sources.all (·.classification.isWrapped) =
      right.sources.all (·.classification.isWrapped) := by
    have flags : left.sources.map (·.classification.isWrapped) =
        right.sources.map (·.classification.isWrapped) := by
      rw [← List.forall₂_eq_eq_eq, List.forall₂_map_left_iff, List.forall₂_map_right_iff]
      exact alike.sources.imp fun _ _ same => same.isWrapped
    have all := congrArg (List.all · id) flags
    simpa only [List.all_map, Function.id_comp] using all
  have outline := alike.outline
  simp only [Summary.outline, Summary.mk.injEq] at outline
  obtain ⟨_, name, symbol, span, _⟩ := outline
  simp only [Summary.functionVerdict, Summary.verdict, name, symbol, span, sources]

theorem unit_ofSummaries (summaries : List Summary) :
    (UnitReport.ofSummaries view policy summaries).unit = view.unit.path :=
  rfl

theorem notes_sourceDiagnostic {summary : Summary} {id : SymbolId} {callee : String}
    (qualified : view.qualified? id = some callee) (reason : NakedReason) (site : Span)
    (origin : Option Span) :
    (sourceDiagnostic view policy summary ⟨some id, .naked reason, site, origin⟩).notes =
      ["in function `" ++ summary.name ++ "`", reason.explain policy.scope callee] := by
  simp [sourceDiagnostic, qualified, Classification.nakedReason?]

theorem sourceDiagnostic_alike {left right : Summary} (sameName : left.name = right.name)
    (known : ∀ id, loops id → ∃ callee, view.qualified? id = some callee ∧ recursive callee)
    {source other : ErrorSource} (alike : source.Alike loops other) :
    (sourceDiagnostic view policy left source).Alike policy.scope recursive
      (sourceDiagnostic view policy right other) := by
  cases alike with
  | same =>
      rw [sourceDiagnostic, sourceDiagnostic, sameName]
      exact ⟨rfl, rfl, rfl, rfl, rfl, Or.inl rfl⟩
  | @before id looping site origin =>
      obtain ⟨callee, qualified, isRecursive⟩ := known id looping
      refine ⟨rfl, rfl, rfl, rfl, rfl, Or.inr ⟨"in function `" ++ right.name ++ "`", callee,
        isRecursive, Or.inl ⟨?_, notes_sourceDiagnostic qualified ..⟩⟩⟩
      rw [← sameName]
      exact notes_sourceDiagnostic qualified ..
  | @after id looping site origin =>
      obtain ⟨callee, qualified, isRecursive⟩ := known id looping
      refine ⟨rfl, rfl, rfl, rfl, rfl, Or.inr ⟨"in function `" ++ right.name ++ "`", callee,
        isRecursive, Or.inr ⟨?_, notes_sourceDiagnostic qualified ..⟩⟩⟩
      rw [← sameName]
      exact notes_sourceDiagnostic qualified ..

theorem ofSummaries_alike {left right : List Summary}
    (known : ∀ id, loops id → ∃ callee, view.qualified? id = some callee ∧ recursive callee)
    (alike : List.Forall₂ (Summary.Alike loops) left right) :
    (UnitReport.ofSummaries view policy left).verdicts =
        (UnitReport.ofSummaries view policy right).verdicts ∧
      List.Forall₂ (Diagnostic.Alike policy.scope recursive)
        (UnitReport.ofSummaries view policy left).diagnostics
        (UnitReport.ofSummaries view policy right).diagnostics := by
  constructor
  · simp only [UnitReport.ofSummaries]
    rw [← List.forall₂_eq_eq_eq, List.forall₂_map_left_iff, List.forall₂_map_right_iff]
    exact alike.imp fun _ _ same => same.functionVerdict
  · refine List.rel_flatMap alike fun summary other same => ?_
    have sameName : summary.outline.name = other.outline.name :=
      congrArg Summary.name same.outline
    have naked : List.Forall₂ (ErrorSource.Alike loops) summary.nakedSources
        other.nakedSources := by
      refine List.rel_filter (fun source source' sameSource => ?_) same.sources
      simp only [sameSource.isWrapped]
    refine List.rel_map (fun source source' sameSource => ?_) naked
    exact sourceDiagnostic_alike sameName known sameSource

end Reports

namespace UnitView

variable {view : UnitView} {work : Workload} {policy : Policy}

/-- A function has an error source that calls a declared function of the unit. -/
def Relays (view : UnitView) (func callee : FuncId) : Prop :=
  ∃ (function : Function) (target : CallTarget) (id : SymbolId), view.Fallible func function ∧
    view.Source function (some target) ∧ target.symbol = some id ∧
    callee ∈ view.unit.decls ∧ view.unit.symbolOf? callee = some id

/-- The name of a declared function that is naked and calls itself, directly or through others. -/
def RecursiveNaked (view : UnitView) (facts : FactTable) (name : String) : Prop :=
  ∃ callee ∈ view.unit.decls, ∃ (id : SymbolId) (symbol : Symbol),
    view.unit.symbolOf? callee = some id ∧ view.symbols.get? id = some symbol ∧
    symbol.qualified = name ∧ facts.verdict? id = some .naked ∧
    Relation.TransGen view.Relays callee callee

theorem Mirrors.relays_of_needs (mirrors : view.Mirrors work) {known : SymbolId → Prop}
    {func callee : FuncId} (needs : work.Needs view.symbols policy known func callee) :
    view.Relays func callee := by
  obtain ⟨subject, escape, target, id, found, member, called, named, _, _, declared⟩ := needs
  obtain ⟨function, fallible, source⟩ := mirrors.source_of_escape found member
  obtain ⟨isDecl, symbol⟩ := mirrors.declared id callee declared
  exact ⟨function, target, id, fallible, called ▸ source, named, isDecl, symbol⟩

theorem Mirrors.recursiveNaked_of_loops (mirrors : view.Mirrors work) {facts : FactTable}
    (plain : work.Plain view.symbols policy facts.verdict?)
    {progress : Progress FactTable}
    (concluded : work.Concluded view.symbols policy facts.verdict? progress) {id : SymbolId}
    (loops : work.Loops view.symbols policy facts.verdict? id) :
    ∃ callee, view.qualified? id = some callee ∧ view.RecursiveNaked progress.facts callee := by
  have naked := concluded.naked_of_loops loops
  obtain ⟨callee, declared, _, cycle⟩ := loops
  obtain ⟨symbol, entry, _⟩ := plain.inScope id callee declared
  obtain ⟨isDecl, symbolOf⟩ := mirrors.declared id callee declared
  refine ⟨symbol.qualified, by rw [qualified?, entry]; rfl, callee, isDecl, id, symbol, symbolOf,
    entry, rfl, naked, ?_⟩
  exact Relation.TransGen.mono (fun _ _ needs => mirrors.relays_of_needs needs) _ _ cycle

end UnitView

namespace Program

variable {program : Program} {policy : Policy} {unit : Package} {decls : List FuncId}

theorem unit?_withDecls (found : program.unit? unit.id = some unit) (decls : List FuncId) :
    (program.withDecls unit.id decls).unit? unit.id = some { unit with decls } := by
  rw [unit?, withDecls, Array.getElem?_modify, if_pos rfl]
  rw [unit?] at found
  rw [found]
  rfl

theorem symbols_withDecls (id : UnitId) (decls : List FuncId) :
    (program.withDecls id decls).symbols = program.symbols :=
  rfl

theorem ofSummaries_withDecls (summaries : List Summary) :
    UnitReport.ofSummaries ((program.withDecls unit.id decls).view { unit with decls }) policy
      summaries = .ofSummaries (program.view unit) policy summaries :=
  rfl

/-- Checking a unit runs a workload of it, and one that is alike with its declarations in another
order. -/
theorem Lowered.exists_checksBy_withDecls (lowered : program.Lowered)
    (checks : program.Checks policy unit) (distinct : unit.Distinct program.symbols)
    (same : decls.Perm unit.decls) :
    ∃ work work', (program.view unit).Mirrors work ∧ work.Like work' ∧
      program.ChecksBy policy unit.id unit work ∧
      (program.withDecls unit.id decls).ChecksBy policy unit.id { unit with decls } work' := by
  obtain ⟨nodes, walked, once, _⟩ := (lowered.planted unit checks.1).allNodes?
  have walkedView : (program.view unit).unit.allNodes? = some nodes := walked
  obtain ⟨index, indexed⟩ := UnitView.exists_definitionIndex? (Package.closed_allNodes walkedView)
  obtain ⟨work, made⟩ := UnitView.exists_workload? walkedView indexed
  obtain ⟨nodes', index', work', walked', indexed', made', alike⟩ :=
    UnitView.exists_workload?_of_perm same walkedView once indexed distinct.apart made
  have found := lowered.unit?_of_mem checks.1
  refine ⟨work, work', UnitView.mirrors_of_workload? walkedView indexed made, alike, ?_, ?_⟩
  · exact checksBy_of_summarize? found checks.2
      (UnitView.summarize?_of_workload? walkedView indexed made policy)
  · exact checksBy_of_summarize? (unit?_withDecls found decls) checks.2
      (UnitView.summarize?_of_workload? walked' indexed' made' policy)

end Program

/-- In a unit of a lowered dump whose functions have symbols of their own, none of them recorded
yet or called through an interface, the order of the declarations does not matter: verdicts and
facts are the same, and so are the diagnostics but for notes on calls of recursive functions. -/
theorem checkUnit?_withDecls {dump : Dump} {program : Program} {warnings : List Warning}
    (accepted : dump.lower = .ok (program, warnings)) {policy : Policy} {unit : Package}
    (checks : program.Checks policy unit) (distinct : unit.Distinct program.symbols)
    {facts : FactTable} (unrecorded : ∀ id, unit.Declares id → facts.verdict? id = none)
    (direct : (program.view unit).Direct) {decls : List FuncId} (same : decls.Perm unit.decls) :
    ∃ outcome reordered, checkUnit? program unit.id policy facts = some outcome ∧
      checkUnit? (program.withDecls unit.id decls) unit.id policy facts = some reordered ∧
      reordered.value.unit = outcome.value.unit ∧
      reordered.value.verdicts = outcome.value.verdicts ∧ reordered.facts = outcome.facts ∧
      List.Forall₂ (Diagnostic.Alike policy.scope
          ((program.view unit).RecursiveNaked outcome.facts))
        outcome.value.diagnostics reordered.value.diagnostics := by
  have lowered := Dump.lowered_of_lower accepted
  have planted : (program.view unit).unit.Planted := lowered.planted unit checks.1
  obtain ⟨work, work', mirrors, alike, checksBy, checksByToo⟩ :=
    lowered.exists_checksBy_withDecls checks distinct same
  obtain ⟨outcome, made, value, stored⟩ := checksBy facts
  obtain ⟨reordered, madeToo, valueToo, storedToo⟩ := checksByToo facts
  rw [Program.symbols_withDecls] at valueToo storedToo
  rw [Program.ofSummaries_withDecls] at valueToo
  have plain : work.Plain program.symbols policy (FactStore.verdict? facts) :=
    mirrors.plain planted checks.2 distinct direct unrecorded
  have listed : ∀ func, work.Fallible func → func ∈ work.order := by
    rintro func ⟨subject, found, _⟩
    obtain ⟨function, describes⟩ := mirrors.describes func subject found
    exact (mirrors.order func).mpr describes.has
  have concluded := (Workload.Like.refl work).concluded plain listed
  have concludedToo := alike.concluded plain listed
  obtain ⟨verdicts, diagnostics⟩ := ofSummaries_alike
    (fun _ loops => mirrors.recursiveNaked_of_loops plain concluded loops)
    (concluded.sorted_alike concludedToo plain)
  refine ⟨outcome, reordered, made, madeToo, ?_, ?_, ?_, ?_⟩
  · rw [value, valueToo, unit_ofSummaries, unit_ofSummaries]
  · rw [value, valueToo]
    exact verdicts.symm
  · rw [stored, storedToo]
    exact FactTable.ext_verdict? fun id => (concluded.verdict?_eq concludedToo id).symm
  · rw [value, valueToo, stored]
    exact diagnostics

theorem checkUnit?_pingPong_withDecls :
    ∃ unit, Dump.pingPong.program.Checks Dump.pingPong.policy unit ∧ unit.path = "m/io" ∧
      ∃ outcome reordered,
        checkUnit? Dump.pingPong.program unit.id Dump.pingPong.policy FactTable.empty =
          some outcome ∧
        checkUnit? (Dump.pingPong.program.withDecls unit.id unit.decls.reverse) unit.id
          Dump.pingPong.policy FactTable.empty = some reordered ∧
        reordered.value.unit = outcome.value.unit ∧
        reordered.value.verdicts = outcome.value.verdicts ∧ reordered.facts = outcome.facts ∧
        List.Forall₂ (Diagnostic.Alike Dump.pingPong.policy.scope
            ((Dump.pingPong.program.view unit).RecursiveNaked outcome.facts))
          outcome.value.diagnostics reordered.value.diagnostics := by
  obtain ⟨unit, checks, path⟩ := Dump.pingPong.exists_unit
  refine ⟨unit, checks, path, ?_⟩
  exact checkUnit?_withDecls Dump.pingPong.accepted checks (Dump.pingPong.distinct checks)
    (fun id _ => FactTable.verdict?_empty id) (Dump.pingPong.direct checks)
    (List.reverse_perm unit.decls)

end ErrorWrapping
