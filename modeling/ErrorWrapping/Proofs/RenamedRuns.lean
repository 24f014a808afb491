import ErrorWrapping.Proofs.RenamedChecks
import ErrorWrapping.Proofs.Runs

/-
Checks under other numbers.

Checking a unit reads and records verdicts by symbol. When two stores have the same verdicts, each
symbol under its other number, a unit and its double are classified step by step alike. They get the
same report up to the numbers of symbols, with the same diagnostics, and the stores stay in step.
-/

namespace ErrorWrapping

/-! ### Reports and what they are made of -/

def ErrorSource.rename (rename : SymbolId → SymbolId) (source : ErrorSource) : ErrorSource :=
  { source with producer := source.producer.map rename }

def Summary.rename (rename : SymbolId → SymbolId) (summary : Summary) : Summary :=
  { summary with
    symbol := summary.symbol.map rename
    sources := summary.sources.map (·.rename rename) }

def FunctionVerdict.rename (rename : SymbolId → SymbolId) (verdict : FunctionVerdict) :
    FunctionVerdict :=
  { verdict with symbol := verdict.symbol.map rename }

def UnitReport.rename (rename : SymbolId → SymbolId) (report : UnitReport) : UnitReport :=
  { report with verdicts := report.verdicts.map (·.rename rename) }

/-! ### Workloads -/

structure Workload.Renames (rename : SymbolId → SymbolId) (work other : Workload) : Prop where
  order : other.order = work.order
  size : other.subjects.size = work.subjects.size
  subjects : ∀ func : FuncId, other.subjects[func]? = (work.subjects[func]?).map (·.rename rename)
  declared : ∀ symbol : SymbolId, other.declared[rename symbol]? = work.declared[symbol]?

section

variable {rename : SymbolId → SymbolId}

theorem foldl_subjects (subjects : List Subject) {table other : Std.HashMap FuncId Subject}
    (size : other.size = table.size)
    (same : ∀ func : FuncId, other[func]? = (table[func]?).map (·.rename rename)) :
    let add (table : Std.HashMap FuncId Subject) (subject : Subject) :=
      table.insert subject.func subject
    let made := subjects.foldl add table
    let made' := (subjects.map (·.rename rename)).foldl add other
    made'.size = made.size ∧
      ∀ func : FuncId, made'[func]? = (made[func]?).map (·.rename rename) := by
  induction subjects generalizing table other with
  | nil => exact ⟨size, same⟩
  | cons subject rest ih =>
      refine ih ?_ fun func => ?_
      · have known : (subject.rename rename).func ∈ other ↔ subject.func ∈ table := by
          rw [Std.HashMap.mem_iff_isSome_getElem?, Std.HashMap.mem_iff_isSome_getElem?, same,
            Option.isSome_map]
          rfl
        rw [Std.HashMap.size_insert, Std.HashMap.size_insert, size]
        simp only [known]
      · rw [Std.HashMap.getElem?_insert, Std.HashMap.getElem?_insert, same]
        change (if subject.func == func then _ else _) = _
        split <;> rfl

theorem foldl_declared (injective : Function.Injective rename)
    (declared : List (FuncId × Option SymbolId)) {table other : Std.HashMap SymbolId FuncId}
    (same : ∀ symbol : SymbolId, other[rename symbol]? = table[symbol]?) (symbol : SymbolId) :
    let add (table : Std.HashMap SymbolId FuncId) (entry : FuncId × Option SymbolId) :=
      match entry.2 with
      | some symbol => table.insert symbol entry.1
      | none => table
    ((declared.map fun entry => (entry.1, entry.2.map rename)).foldl add other)[rename symbol]? =
      (declared.foldl add table)[symbol]? := by
  induction declared generalizing table other with
  | nil => exact same symbol
  | cons entry rest ih =>
      refine ih fun symbol => ?_
      obtain ⟨decl, named⟩ := entry
      cases named with
      | none => exact same symbol
      | some own =>
          have equal : (rename own == rename symbol) = (own == symbol) :=
            Bool.eq_iff_iff.mpr (by simp [injective.eq_iff])
          simp only [Option.map_some, Std.HashMap.getElem?_insert, same, equal]

theorem UnitView.Renames.workload? {view other : UnitView} (renames : view.Renames rename other)
    (injective : Function.Injective rename) (index : DefinitionIndex) :
    Option.Rel (Workload.Renames rename) (view.workload? index) (other.workload? index) := by
  have declared : view.unit.decls.mapM (fun decl => do
        return (decl, (← other.arena.function? decl).symbol)) =
      (view.unit.decls.mapM (fun decl => do
        return (decl, (← view.arena.function? decl).symbol))).map
          (List.map fun entry : FuncId × Option SymbolId => (entry.1, entry.2.map rename)) :=
    mapM_map fun decl _ => bind_of_rel (renames.arena.function? decl)
      fun function function' same => by rw [same.symbol]; rfl
  unfold UnitView.workload?
  rw [renames.functionOrder?, renames.unit.decls, declared]
  cases view.functionOrder? with
  | none => exact .none
  | some order =>
      have subjects : order.mapM (other.subject? index) =
          (order.mapM (view.subject? index)).map (List.map (·.rename rename)) :=
        mapM_map fun entry _ => renames.subject? index entry
      simp only [Option.bind_eq_bind, Option.bind_some, subjects]
      cases order.mapM (view.subject? index) with
      | none => exact .none
      | some subjects =>
          simp only [Option.map_some, Option.bind_some]
          cases view.unit.decls.mapM (m := Option) fun decl => do
            return (decl, (← view.arena.function? decl).symbol) with
          | none => exact .none
          | some declared =>
              obtain ⟨size, same⟩ := @foldl_subjects rename subjects ∅ ∅ rfl (by simp)
              exact .some ⟨rfl, size, same, foldl_declared injective declared (by simp)⟩

end

/-! ### Stores -/

section

variable {rename : SymbolId → SymbolId}

/-- The same verdicts, each symbol under its other number. -/
def FactTable.Renames (rename : SymbolId → SymbolId) (table other : FactTable) : Prop :=
  ∀ symbol, other.verdict? (rename symbol) = table.verdict? symbol

structure FactLayer.Renames (rename : SymbolId → SymbolId) (layer other : FactLayer) : Prop where
  base : layer.base.Renames rename other.base
  added : layer.added.Renames rename other.added

/-- Two attempts to record: both succeed, with related stores after them, or both are refused. -/
inductive RecordsAlike {σ : Type} (related : σ → σ → Prop) :
    Except FactError σ → Except FactError σ → Prop
  | ok {after after' : σ} (same : related after after') :
      RecordsAlike related (.ok after) (.ok after')
  | error {refusal refusal' : FactError} : RecordsAlike related (.error refusal) (.error refusal')

/-- Related stores have the same verdicts, and stay related whatever is recorded. -/
structure Respects {σ : Type} [FactStore σ] (rename : SymbolId → SymbolId)
    (related : σ → σ → Prop) : Prop where
  verdict? : ∀ {facts other : σ}, related facts other → ∀ symbol,
    FactStore.verdict? other (rename symbol) = FactStore.verdict? facts symbol
  record : ∀ {facts other : σ}, related facts other → ∀ symbol verdict,
    RecordsAlike related (FactStore.record facts symbol verdict)
      (FactStore.record other (rename symbol) verdict)

theorem FactTable.Renames.record (injective : Function.Injective rename) {table other : FactTable}
    (renames : table.Renames rename other) (symbol : SymbolId) (verdict : Verdict) :
    RecordsAlike (FactTable.Renames rename) (table.record symbol verdict)
      (other.record (rename symbol) verdict) := by
  cases known : table.verdict? symbol with
  | some existing =>
      rw [record_of_some verdict known,
        record_of_some verdict ((renames symbol).trans known)]
      exact .error
  | none =>
      rw [record_of_none verdict known, record_of_none verdict ((renames symbol).trans known)]
      refine .ok fun asked => ?_
      rw [verdict?_insert, verdict?_insert, renames asked]
      simp only [injective.eq_iff]

theorem respects_table (injective : Function.Injective rename) :
    Respects rename (FactTable.Renames rename) :=
  ⟨fun renames => renames, fun renames => renames.record injective⟩

theorem respects_layer (injective : Function.Injective rename) :
    Respects rename (FactLayer.Renames rename) where
  verdict? {layer other} renames symbol := by
    change (other.added.verdict? (rename symbol) <|> other.base.verdict? (rename symbol)) =
      (layer.added.verdict? symbol <|> layer.base.verdict? symbol)
    rw [renames.added symbol, renames.base symbol]
  record {layer other} renames symbol verdict := by
    change RecordsAlike _ (layer.record symbol verdict) (other.record (rename symbol) verdict)
    cases known : layer.base.verdict? symbol with
    | some existing =>
        rw [FactLayer.record_of_base verdict known,
          FactLayer.record_of_base verdict ((renames.base symbol).trans known)]
        exact .error
    | none =>
        rw [FactLayer.record_of_free verdict known,
          FactLayer.record_of_free verdict ((renames.base symbol).trans known)]
        have added := renames.added.record injective symbol verdict
        generalize layer.added.record symbol verdict = recorded,
          other.added.record (rename symbol) verdict = recorded' at added ⊢
        cases added with
        | ok same => exact .ok ⟨renames.base, same⟩
        | error => exact .error

end

/-! ### Settling -/

section

variable {rename : SymbolId → SymbolId} {left right : TypeTable} {symbols others : SymbolTable}
  {policy : Policy} {σ : Type} [FactStore σ] {related : σ → σ → Prop}

theorem classify_rename (known : symbols.Renames rename left right others)
    (respects : Respects rename related) {facts other : σ} (same : related facts other)
    (target : CallTarget) :
    classify others policy other (target.rename rename) = classify symbols policy facts target := by
  unfold classify CallTarget.rename
  cases target.symbol with
  | none => rfl
  | some id =>
      have rel := known id
      dsimp only [Option.map_some]
      rw [respects.verdict? same]
      generalize symbols.get? id = found, others.get? (rename id) = found' at rel
      cases rel with
      | none => rfl
      | some symbol =>
          dsimp only
          rw [symbol.signature, symbol.package]

theorem sourceOf_rename (known : symbols.Renames rename left right others)
    (respects : Respects rename related) {facts other : σ} (same : related facts other)
    (escape : Escape) :
    Workload.sourceOf others policy other (escape.rename rename) =
      (Workload.sourceOf symbols policy facts escape).rename rename := by
  unfold Workload.sourceOf Escape.rename
  cases escape.target with
  | none => rfl
  | some target =>
      dsimp only [Option.map_some]
      rw [classify_rename known respects same]
      rfl

structure Progress.Renames (rename : SymbolId → SymbolId) (related : σ → σ → Prop)
    (progress other : Progress σ) : Prop where
  facts : related progress.facts other.facts
  visited : other.visited = progress.visited
  summaries : other.summaries = progress.summaries.map (·.rename rename)

theorem verdict_rename (summary : Summary) :
    (summary.rename rename).verdict = summary.verdict := by
  unfold Summary.verdict Summary.rename
  rw [List.all_map]
  rfl

theorem nakedSources_rename (summary : Summary) :
    (summary.rename rename).nakedSources = summary.nakedSources.map (·.rename rename) := by
  unfold Summary.nakedSources Summary.rename
  rw [List.filter_map]
  rfl

namespace Progress.Renames

variable {progress other : Progress σ} (renames : progress.Renames rename related other)

include renames

omit [FactStore σ] in
theorem visit (func : FuncId) :
    (progress.visit func).Renames rename related (other.visit func) :=
  ⟨renames.facts, congrArg (·.insert func) renames.visited, renames.summaries⟩

theorem conclude (respects : Respects rename related) (summary : Summary) :
    (progress.conclude summary).Renames rename related
      (other.conclude (summary.rename rename)) := by
  refine ⟨?_, ?_, ?_⟩
  · unfold Progress.conclude
    cases named : summary.symbol with
    | none =>
        have otherNamed : (summary.rename rename).symbol = none := by
          rw [Summary.rename, named]
          rfl
        rw [otherNamed]
        exact renames.facts
    | some symbol =>
        have otherNamed : (summary.rename rename).symbol = some (rename symbol) := by
          rw [Summary.rename, named]
          rfl
        have after := respects.record renames.facts symbol summary.verdict
        rw [otherNamed, verdict_rename]
        dsimp only
        generalize FactStore.record progress.facts symbol summary.verdict = recorded,
          FactStore.record other.facts (rename symbol) summary.verdict = recorded' at after ⊢
        cases after with
        | ok same => exact same
        | error => exact renames.facts
  · rw [Progress.visited_conclude, Progress.visited_conclude, renames.visited]
  · rw [Progress.summaries_conclude, Progress.summaries_conclude, renames.summaries, List.map_cons]

theorem concludeSubject (respects : Respects rename related) (func : FuncId) (subject : Subject)
    {sources sources' : List ErrorSource} (same : sources' = sources.map (·.rename rename)) :
    (progress.conclude (subject.summary func sources)).Renames rename related
      (other.conclude ((subject.rename rename).summary func sources')) := by
  rw [same]
  exact renames.conclude respects (subject.summary func sources)

omit [FactStore σ] in
theorem sorted : other.sorted = progress.sorted.map (·.rename rename) := by
  unfold Progress.sorted
  rw [renames.summaries, ← List.map_reverse]
  exact (List.map_mergeSort (f := Summary.rename rename) fun _ _ _ _ => rfl).symm

end Progress.Renames

namespace Workload.Renames

variable {work other : Workload} (renames : work.Renames rename other)
  (known : symbols.Renames rename left right others) (respects : Respects rename related)

include renames

omit [FactStore σ] in
theorem awaited? {progress progress' : Progress σ}
    (same : progress.Renames rename related progress') (target : CallTarget) :
    other.awaited? progress' (target.rename rename) = work.awaited? progress target := by
  unfold Workload.awaited? CallTarget.rename
  rw [same.visited]
  cases target.symbol with
  | none => rfl
  | some symbol =>
      dsimp only [Option.map_some, Option.bind_some]
      rw [renames.declared]

variable (policy)

include known respects

theorem prepare {settle settle' : FuncId → Progress σ → Progress σ}
    (settles : ∀ func progress progress', progress.Renames rename related progress' →
      (settle func progress).Renames rename related (settle' func progress'))
    {progress progress' : Progress σ} (same : progress.Renames rename related progress')
    (escape : Escape) :
    (work.prepare symbols policy settle progress escape).Renames rename related
      (other.prepare others policy settle' progress' (escape.rename rename)) := by
  unfold Workload.prepare Escape.rename
  cases escape.target with
  | none => exact same
  | some target =>
      dsimp only [Option.map_some]
      rw [classify_rename known respects same.facts, renames.awaited? same]
      split
      · exact same
      · exact settles _ _ _ same

theorem classifyAll {settle settle' : FuncId → Progress σ → Progress σ}
    (settles : ∀ func progress progress', progress.Renames rename related progress' →
      (settle func progress).Renames rename related (settle' func progress'))
    (escapes : List Escape) {progress progress' : Progress σ}
    (same : progress.Renames rename related progress') :
    let result := work.classifyAll symbols policy settle progress escapes
    let result' := other.classifyAll others policy settle' progress'
      (escapes.map (·.rename rename))
    result.1.Renames rename related result'.1 ∧ result'.2 = result.2.map (·.rename rename) := by
  induction escapes generalizing progress progress' with
  | nil => exact ⟨same, rfl⟩
  | cons escape rest ih =>
      have ready : (work.prepare symbols policy settle progress escape).Renames rename related
          (other.prepare others policy settle' progress' (escape.rename rename)) :=
        renames.prepare policy known respects settles same escape
      obtain ⟨after, sources⟩ := ih ready
      refine ⟨after, ?_⟩
      rw [List.map_cons, Workload.classifyAll, Workload.classifyAll, sources,
        sourceOf_rename known respects ready.facts, List.map_cons]

theorem settle (depth : Nat) (func : FuncId) {progress progress' : Progress σ}
    (same : progress.Renames rename related progress') :
    (work.settle symbols policy depth func progress).Renames rename related
      (other.settle others policy depth func progress') := by
  induction depth generalizing func progress progress' with
  | zero => exact same
  | succ depth ih =>
      cases visited : progress.visited.contains func with
      | true =>
          rw [settle_of_visited visited, settle_of_visited (same.visited ▸ visited)]
          exact same
      | false =>
          have visited' : progress'.visited.contains func = false := same.visited ▸ visited
          rcases work.fallible_or_passed func with ⟨subject, found, fallible⟩ | passed
          · have found' : other.subjects[func]? = some (subject.rename rename) := by
              rw [renames.subjects, found]
              rfl
            rw [settle_of_fallible visited found fallible,
              settle_of_fallible visited' found' fallible]
            obtain ⟨after, sources⟩ := renames.classifyAll policy known respects
              (fun func _ _ => ih func) subject.escapes (same.visit func)
            exact after.concludeSubject respects func subject sources
          · have passed' : ∀ subject, other.subjects[func]? = some subject →
                subject.hasError = false := by
              intro subject found
              rw [renames.subjects] at found
              obtain ⟨original, listed, rfl⟩ := Option.map_eq_some_iff.mp found
              exact passed original listed
            rw [settle_of_passed visited passed, settle_of_passed visited' passed']
            exact same.visit func

theorem run {facts facts' : σ} (same : related facts facts') :
    (work.run symbols policy facts).Renames rename related (other.run others policy facts') := by
  unfold Workload.run
  rw [renames.order, renames.size]
  refine List.foldl_rel ⟨same, rfl, rfl⟩ fun func _ progress progress' same => ?_
  exact renames.settle policy known respects _ func same

end Workload.Renames

end

/-! ### Reports -/

theorem Symbol.Renames.qualified {left right : TypeTable} {symbol other : Symbol}
    (renames : symbol.Renames left right other) : other.qualified = symbol.qualified := by
  unfold Symbol.qualified
  rw [renames.package, renames.name, renames.receiver]

namespace UnitView.Renames

variable {rename : SymbolId → SymbolId} {view other : UnitView}
  (renames : view.Renames rename other)

include renames

theorem qualified? (symbol : SymbolId) :
    other.qualified? (rename symbol) = view.qualified? symbol := by
  have rel := renames.symbols symbol
  unfold UnitView.qualified?
  generalize view.symbols.get? symbol = found, other.symbols.get? (rename symbol) = found' at rel
  cases rel with
  | none => rfl
  | some same => exact congrArg some same.qualified

theorem sourceDiagnostic (policy : Policy) (summary : Summary) (source : ErrorSource) :
    sourceDiagnostic other policy (summary.rename rename) (source.rename rename) =
      sourceDiagnostic view policy summary source := by
  have callee : ((source.rename rename).producer.bind other.qualified?) =
      source.producer.bind view.qualified? := by
    unfold ErrorSource.rename
    cases source.producer with
    | none => rfl
    | some symbol => exact renames.qualified? symbol
  unfold ErrorWrapping.sourceDiagnostic
  rw [callee]
  rfl

theorem ofSummaries (policy : Policy) (summaries : List Summary) :
    UnitReport.ofSummaries other policy (summaries.map (·.rename rename)) =
      (UnitReport.ofSummaries view policy summaries).rename rename := by
  unfold UnitReport.ofSummaries UnitReport.rename
  congr 1
  · exact renames.unit.path
  · rw [List.map_map, List.map_map]
    refine List.map_congr_left fun summary _ => ?_
    change Summary.functionVerdict (summary.rename rename) =
      summary.functionVerdict.rename rename
    unfold Summary.functionVerdict
    rw [verdict_rename]
    rfl
  · rw [List.flatMap_map]
    refine List.flatMap_congr fun summary _ => ?_
    rw [nakedSources_rename, List.map_map]
    exact List.map_congr_left fun source _ => renames.sourceDiagnostic policy summary source

end UnitView.Renames

/-! ### Units -/

/-- Two outcomes with the same report and facts, each symbol under its other number. -/
structure Outcome.Renames {σ : Type} (rename : SymbolId → SymbolId) (related : σ → σ → Prop)
    (outcome other : Outcome σ UnitReport) : Prop where
  value : other.value = outcome.value.rename rename
  facts : related outcome.facts other.facts

/-- Two programs with the same files and, under other numbers, the same symbols and units. -/
structure Program.Renames (rename : SymbolId → SymbolId) (move : UnitId → UnitId)
    (program other : Program) : Prop where
  files : other.files = program.files
  symbols : program.symbols.Renames rename program.types other.types other.symbols
  units : ∀ id, Option.Rel (Package.Renames rename program.types other.types) (program.unit? id)
    (other.unit? (move id))

section

variable {rename : SymbolId → SymbolId} {move : UnitId → UnitId} {σ : Type} [FactStore σ]
  {related : σ → σ → Prop}

theorem UnitView.Renames.summarize? {view other : UnitView} (renames : view.Renames rename other)
    (injective : Function.Injective rename) (respects : Respects rename related) (policy : Policy)
    {facts facts' : σ} (same : related facts facts') :
    Option.Rel (fun (outcome outcome' : Outcome σ (List Summary)) =>
        outcome'.value = outcome.value.map (·.rename rename) ∧
          related outcome.facts outcome'.facts)
      (view.summarize? policy facts) (other.summarize? policy facts') := by
  unfold UnitView.summarize?
  rw [renames.unit.allNodes?]
  cases view.unit.allNodes? with
  | none => exact .none
  | some nodes =>
      simp only [Option.bind_eq_bind, Option.bind_some, renames.definitionIndex?]
      cases view.definitionIndex? nodes with
      | none => exact .none
      | some index =>
          have rel := renames.workload? injective index
          simp only [Option.bind_some]
          generalize view.workload? index = made, other.workload? index = made' at rel
          cases rel with
          | none => exact .none
          | some works =>
              have ran := works.run policy renames.symbols respects same
              exact .some ⟨ran.sorted, ran.facts⟩

theorem Program.Renames.checkUnit? {program other : Program}
    (renames : program.Renames rename move other) (injective : Function.Injective rename)
    (respects : Respects rename related) (policy : Policy) (id : UnitId) {facts facts' : σ}
    (same : related facts facts') :
    Option.Rel (Outcome.Renames rename related) (checkUnit? program id policy facts)
      (checkUnit? other (move id) policy facts') := by
  have rel := renames.units id
  unfold ErrorWrapping.checkUnit?
  generalize program.unit? id = found, other.unit? (move id) = found' at rel
  cases rel with
  | none => exact .some ⟨rfl, same⟩
  | @some unit unit' sameUnit =>
      dsimp only
      rw [sameUnit.path]
      split
      · have views : UnitView.Renames rename ⟨program, unit⟩ ⟨other, unit'⟩ :=
          ⟨sameUnit, renames.symbols⟩
        have rel := views.summarize? injective respects policy same
        generalize UnitView.summarize? ⟨program, unit⟩ policy facts = made,
          UnitView.summarize? ⟨other, unit'⟩ policy facts' = made' at rel
        cases rel with
        | none => exact .none
        | some outcomes =>
            refine .some ⟨?_, outcomes.2⟩
            change UnitReport.ofSummaries _ policy _ = _
            rw [outcomes.1]
            exact views.ofSummaries policy _
      · exact .some ⟨rfl, same⟩

end

/-! ### Runs -/

section

variable {α β γ δ : Type} {R : α → β → Prop} {S : γ → δ → Prop}

theorem rel_bind {x : Option α} {y : Option β} (rel : Option.Rel R x y) {f : α → Option γ}
    {g : β → Option δ} (next : ∀ a b, R a b → Option.Rel S (f a) (g b)) :
    Option.Rel S (x.bind f) (y.bind g) := by
  cases rel with
  | none => exact .none
  | some related => exact next _ _ related

theorem rel_map {x : Option α} {y : Option β} (rel : Option.Rel R x y) {f : α → γ} {g : β → δ}
    (next : ∀ a b, R a b → S (f a) (g b)) : Option.Rel S (x.map f) (y.map g) := by
  cases rel with
  | none => exact .none
  | some related => exact .some (next _ _ related)

theorem rel_foldlM {ε : Type} {move : ε → ε} {f : α → ε → Option α} {g : β → ε → Option β}
    (step : ∀ a b entry, R a b → Option.Rel R (f a entry) (g b (move entry))) (entries : List ε)
    {a : α} {b : β} (start : R a b) :
    Option.Rel R (entries.foldlM f a) ((entries.map move).foldlM g b) := by
  induction entries generalizing a b with
  | nil => exact .some start
  | cons entry rest ih =>
      rw [List.map_cons, List.foldlM_cons, List.foldlM_cons]
      exact rel_bind (step a b entry start) fun a b => ih

theorem rel_mapM {ε : Type} {move : ε → ε} {f : ε → Option α} {g : ε → Option β}
    (step : ∀ entry, Option.Rel R (f entry) (g (move entry))) (entries : List ε) :
    Option.Rel (List.Forall₂ R) (entries.mapM f) ((entries.map move).mapM g) := by
  induction entries with
  | nil => exact .some .nil
  | cons entry rest ih =>
      rw [List.map_cons, List.mapM_cons, List.mapM_cons]
      refine rel_bind (step entry) fun a b first => ?_
      exact rel_bind ih fun as bs later => .some (.cons first later)

end

namespace Run

/-- Two runs with the same reports and facts so far, each symbol under its other number. -/
structure Renames (rename : SymbolId → SymbolId) (run other : Run) : Prop where
  reports : other.reports = run.reports.map (·.rename rename)
  facts : run.facts.Renames rename other.facts

variable {rename : SymbolId → SymbolId} {move : UnitId → UnitId} {program other : Program}

theorem renames_start : Renames rename start start :=
  ⟨rfl, fun _ => (FactTable.verdict?_empty _).trans (FactTable.verdict?_empty _).symm⟩

theorem Renames.absorb {run run' : Run} (renames : run.Renames rename run')
    {outcome outcome' : Outcome FactTable UnitReport}
    (same : outcome.Renames rename (FactTable.Renames rename) outcome') :
    (run.absorb outcome).Renames rename (run'.absorb outcome') := by
  refine ⟨?_, fun symbol => ?_⟩
  · change outcome'.value :: run'.reports = (outcome.value :: run.reports).map _
    rw [same.value, renames.reports, List.map_cons]
  · change (run'.facts.merge outcome'.facts).1.verdict? (rename symbol) =
      (run.facts.merge outcome.facts).1.verdict? symbol
    rw [FactTable.verdict?_merge, FactTable.verdict?_merge, renames.facts symbol,
      same.facts symbol]

variable (programs : program.Renames rename move other) (injective : Function.Injective rename)
  (policy : Policy)

include programs injective

theorem Renames.checkDirect? {run run' : Run} (id : UnitId) (renames : run.Renames rename run') :
    Option.Rel (Renames rename) (checkDirect? program policy run id)
      (Run.checkDirect? other policy run' (move id)) := by
  refine rel_bind (programs.checkUnit? injective (respects_table injective) policy id renames.facts)
    fun outcome outcome' same => .some ⟨?_, same.facts⟩
  rw [same.value, renames.reports, List.map_cons]

theorem rel_checkLayered? {table table' : FactTable} (renames : table.Renames rename table')
    (id : UnitId) :
    Option.Rel (Outcome.Renames rename (FactTable.Renames rename))
      (checkLayered? program policy table id) (checkLayered? other policy table' (move id)) := by
  have layers : (FactLayer.ofTable table).Renames rename (FactLayer.ofTable table') :=
    ⟨renames, renames_start.facts⟩
  exact rel_bind (programs.checkUnit? injective (respects_layer injective) policy id layers)
    fun outcome outcome' same => .some ⟨same.value, same.facts.added⟩

theorem Renames.checkLevel? {run run' : Run} (level : List UnitId)
    (renames : run.Renames rename run') :
    Option.Rel (Renames rename) (checkLevel? program policy run level)
      (Run.checkLevel? other policy run' (level.map move)) := by
  refine rel_bind (rel_mapM (rel_checkLayered? programs injective policy renames.facts) level)
    fun outcomes outcomes' same => .some ?_
  induction same generalizing run run' with
  | nil => exact renames
  | cons first _ ih => exact ih (renames.absorb first)

/-- Runs over the same levels end alike, each symbol under its other number. -/
theorem rel_check? {schedule schedule' : Schedule}
    (levels : schedule'.levels = schedule.levels.map (List.map move)) (jobs : Nat)
    (pool : ThreadPool) :
    Option.Rel (Renames rename) (check? program policy schedule jobs pool)
      (check? other policy schedule' jobs pool) := by
  have inOrder : Option.Rel (Renames rename) (sequential? program policy schedule)
      (sequential? other policy schedule') := by
    have units : schedule'.units = schedule.units.map move := by
      rw [Schedule.units, levels, Schedule.units, List.map_flatten]
    unfold sequential?
    rw [units]
    exact rel_foldlM (fun _ _ id renames => renames.checkDirect? programs injective policy id) _
      renames_start
  unfold check?
  split
  · exact inOrder
  · cases pool with
    | built =>
        unfold byLevels?
        rw [levels]
        exact rel_foldlM
          (fun _ _ level renames => renames.checkLevel? programs injective policy level) _
          renames_start
    | failed cause => exact rel_map inOrder fun _ _ renames => ⟨renames.reports, renames.facts⟩

end Run

end ErrorWrapping
