import ErrorWrapping.Proofs.WiderPolicies

/-
How verdicts get into the table.

A check records verdicts in a table, or in a layer that is merged later. Both ways lead to the same
table, whatever verdicts were there before. When declared functions have different symbols, the
verdict on each of them is recorded once, at the end of its summary: a function under way has no
verdict yet, and every summary that is done is of another symbol. So no verdict is refused, and the
facts at the end are what the reports say.
-/

namespace ErrorWrapping

/-! ### Layers -/

theorem FactTable.merge_empty (table : FactTable) : table.merge .empty = (table, none) := by
  have free : ∀ symbol, FactTable.empty.verdict? symbol ≠ none → table.verdict? symbol = none :=
    fun symbol known => absurd (verdict?_empty symbol) known
  refine Prod.ext (ext_verdict? fun symbol => ?_) (merge_conflict_eq_none free)
  rw [verdict?_merge, verdict?_empty, Option.orElse_eq_orElse, Option.orElse_eq_or, Option.or_none]

namespace Program

variable {program : Program} {policy : Policy} {id : UnitId}

/-- Checking a unit runs a workload that mirrors it, or leaves every store as it is. Which of the
two does not depend on the store. -/
theorem mirrors_or_passed {σ : Type} [FactStore σ] {facts : σ} {outcome : Outcome σ UnitReport}
    (made : checkUnit? program id policy facts = some outcome) :
    (∃ unit work, program.unit? id = some unit ∧ (program.view unit).Mirrors work ∧
      program.ChecksBy policy id unit work) ∨
      ∃ report, ∀ {τ : Type} [FactStore τ] (store : τ), ∃ passed,
        checkUnit? program id policy store = some passed ∧ passed.value = report ∧
          passed.facts = store := by
  cases found : program.unit? id with
  | none =>
      refine Or.inr ⟨.empty "", fun store => ⟨⟨.empty "", store, [.unknownUnit]⟩, ?_, rfl, rfl⟩⟩
      rw [checkUnit?, found]
  | some unit =>
      cases inScope : policy.inScope unit.path with
      | false =>
          refine Or.inr ⟨.empty unit.path,
            fun store => ⟨⟨.empty unit.path, store, []⟩, ?_, rfl, rfl⟩⟩
          rw [checkUnit?, found]
          dsimp only
          rw [if_neg (by rw [inScope]; exact Bool.false_ne_true)]
      | true =>
          rw [checkUnit?, found] at made
          dsimp only at made
          rw [if_pos inScope] at made
          obtain ⟨_, summarized, _⟩ := Option.bind_eq_some_iff.mp made
          obtain ⟨nodes, walked, _⟩ := Option.bind_eq_some_iff.mp summarized
          obtain ⟨work, mirrors, runs⟩ := UnitView.exists_summarize? walked
          exact Or.inl ⟨unit, work, rfl, mirrors,
            checksBy_of_summarize? found inScope (runs policy)⟩

theorem checksBy_or_passed {σ : Type} [FactStore σ] {facts : σ} {outcome : Outcome σ UnitReport}
    (made : checkUnit? program id policy facts = some outcome) :
    (∃ unit work, program.ChecksBy policy id unit work) ∨
      ∃ report, ∀ {τ : Type} [FactStore τ] (store : τ), ∃ passed,
        checkUnit? program id policy store = some passed ∧ passed.value = report ∧
          passed.facts = store :=
  (mirrors_or_passed made).imp_left fun ⟨unit, work, _, _, checksBy⟩ => ⟨unit, work, checksBy⟩

end Program

/-- A unit that can be checked against a table can be checked over a layer on it. The report is the
same, the layer has no symbol of the table, and merging it gives, without conflict, the table that
the direct check leaves. -/
theorem checkLayered?_merge {program : Program} {id : UnitId} {policy : Policy} {base : FactTable}
    {direct : Outcome FactTable UnitReport}
    (made : checkUnit? program id policy base = some direct) :
    ∃ layered, Run.checkLayered? program policy base id = some layered ∧
      layered.value = direct.value ∧ base.merge layered.facts = (direct.facts, none) ∧
      ∀ symbol, layered.facts.verdict? symbol ≠ none → base.verdict? symbol = none := by
  rcases Program.checksBy_or_passed made with ⟨unit, work, checksBy⟩ | ⟨report, passes⟩
  · obtain ⟨outcome, madeDirect, value, stored⟩ := checksBy base
    cases made.symm.trans madeDirect
    obtain ⟨layered, madeLayered, layeredValue, layeredStored⟩ :=
      checksBy (FactLayer.ofTable base)
    obtain ⟨summaries, merged⟩ : (work.run program.symbols policy base).summaries =
          (work.run program.symbols policy (FactLayer.ofTable base)).summaries ∧
        (base.merge (work.run program.symbols policy (FactLayer.ofTable base)).facts.added).1 =
          (work.run program.symbols policy base).facts :=
      Workload.run_layer_merge fun _ _ => rfl
    obtain ⟨sameBase, apart⟩ :
        (work.run program.symbols policy (FactLayer.ofTable base)).facts.base = base ∧
          (work.run program.symbols policy (FactLayer.ofTable base)).facts.Apart :=
      Workload.run_layer_apart base
    have free : ∀ symbol, layered.facts.added.verdict? symbol ≠ none →
        base.verdict? symbol = none := by
      intro symbol added
      rw [layeredStored] at added
      rw [← sameBase]
      exact apart symbol added
    refine ⟨_, Run.checkLayered?_eq_some madeLayered, ?_, Prod.ext ?_ ?_, free⟩
    · change layered.value = direct.value
      rw [layeredValue, value, Progress.sorted, Progress.sorted, summaries]
    · change (base.merge layered.facts.added).1 = direct.facts
      rw [layeredStored, merged, stored]
    · exact FactTable.merge_conflict_eq_none free
  · obtain ⟨outcome, madeDirect, value, stored⟩ := passes base
    cases made.symm.trans madeDirect
    obtain ⟨layered, madeLayered, layeredValue, layeredStored⟩ := passes (FactLayer.ofTable base)
    refine ⟨_, Run.checkLayered?_eq_some madeLayered, layeredValue.trans value.symm, ?_, ?_⟩
    · change base.merge layered.facts.added = (direct.facts, none)
      rw [layeredStored, stored]
      exact base.merge_empty
    · intro symbol added
      change layered.facts.added.verdict? symbol ≠ none at added
      rw [layeredStored] at added
      exact absurd (FactTable.verdict?_empty symbol) added

/-- A table from elsewhere that has a verdict on the first function of `Dump.pingPong` already. -/
def Dump.pingPong.stale : FactTable :=
  ⟨(∅ : Std.ExtTreeMap Nat Verdict compare).insert 1 .wrapped⟩

theorem checkLayered?_pingPong_stale :
    Dump.pingPong.stale.verdict? ⟨1⟩ = some .wrapped ∧
      ∃ unit direct, Dump.pingPong.program.Checks Dump.pingPong.policy unit ∧ unit.Declares ⟨1⟩ ∧
        checkUnit? Dump.pingPong.program unit.id Dump.pingPong.policy Dump.pingPong.stale =
          some direct ∧
        ∃ layered, Run.checkLayered? Dump.pingPong.program Dump.pingPong.policy
            Dump.pingPong.stale unit.id = some layered ∧
          layered.value = direct.value ∧
          Dump.pingPong.stale.merge layered.facts = (direct.facts, none) ∧
          ∀ symbol, layered.facts.verdict? symbol ≠ none →
            Dump.pingPong.stale.verdict? symbol = none := by
  refine ⟨FactTable.verdict?_insert .empty ⟨1⟩ ⟨1⟩ .wrapped, ?_⟩
  obtain ⟨unit, checks, path⟩ := Dump.pingPong.exists_unit
  obtain ⟨work, _, checksBy⟩ :=
    (Dump.lowered_of_lower Dump.pingPong.accepted).exists_checksBy checks
  obtain ⟨direct, made, _⟩ := checksBy Dump.pingPong.stale
  refine ⟨unit, direct, checks, ?_, made, checkLayered?_merge made⟩
  rw [← Package.mem_declared_iff]
  rcases Dump.pingPong.unit_cases checks.1 with ⟨_, _, declared, _⟩ | ⟨other, _⟩
  · rw [declared]
    exact List.mem_cons_self ..
  · rw [other] at path
    exact absurd path (by decide)

/-! ### One verdict for each function -/

/-- The verdicts that a list of entries carries for a symbol. -/
def verdictsOn (symbol : SymbolId) (entries : List FunctionVerdict) : List Verdict :=
  entries.filterMap fun entry => if entry.symbol = some symbol then some entry.verdict else none

theorem verdictsOn_append (symbol : SymbolId) (left right : List FunctionVerdict) :
    verdictsOn symbol (left ++ right) = verdictsOn symbol left ++ verdictsOn symbol right :=
  List.filterMap_append

theorem verdictsOn_cons (symbol : SymbolId) (entry : FunctionVerdict)
    (rest : List FunctionVerdict) :
    verdictsOn symbol (entry :: rest) =
      (if entry.symbol = some symbol then [entry.verdict] else []) ++ verdictsOn symbol rest := by
  by_cases named : entry.symbol = some symbol
  · simp [verdictsOn, named]
  · simp [verdictsOn, named]

theorem verdictsOn_eq_nil {symbol : SymbolId} {entries : List FunctionVerdict}
    (absent : ∀ entry ∈ entries, entry.symbol ≠ some symbol) : verdictsOn symbol entries = [] := by
  refine List.filterMap_eq_nil_iff.mpr fun entry member => ?_
  rw [if_neg (absent entry member)]

theorem Progress.refused_conclude {σ : Type} [FactStore σ] [LawfulFactStore σ]
    {progress : Progress σ} {summary : Summary}
    (free : ∀ symbol, summary.symbol = some symbol →
      FactStore.verdict? progress.facts symbol = none) :
    (progress.conclude summary).refused = progress.refused := by
  cases named : summary.symbol with
  | none => simp only [conclude, named]
  | some symbol =>
      obtain ⟨after, recorded, _⟩ :=
        LawfulFactStore.record_fresh progress.facts symbol summary.verdict (free symbol named)
      simp only [conclude, named, recorded]

namespace Workload

variable {σ : Type} [FactStore σ] {work : Workload} {symbols : SymbolTable} {policy : Policy}
  {base : SymbolId → Option Verdict} {under : List FuncId} {func : FuncId}
  {progress : Progress σ}

/-- Different functions have different symbols, and none of these has a verdict yet. -/
structure Unclaimed (work : Workload) (base : SymbolId → Option Verdict) : Prop where
  apart : ∀ {func other : FuncId} {subject otherSubject : Subject} {symbol : SymbolId},
    work.subjects[func]? = some subject → work.subjects[other]? = some otherSubject →
    subject.symbol = some symbol → otherSubject.symbol = some symbol → func = other
  free : ∀ symbol, work.Owns symbol → base symbol = none

/-- Every verdict of the store was there before or is that of one summary, and no verdict was
refused. -/
structure Tallied (work : Workload) (base : SymbolId → Option Verdict) (under : List FuncId)
    (progress : Progress σ) : Prop where
  marked : ∀ func ∈ under, progress.visited.contains func = true
  done : ∀ summary ∈ progress.summaries, progress.Done under summary.func
  named : ∀ summary ∈ progress.summaries, ∃ subject : Subject,
    work.subjects[summary.func]? = some subject ∧ summary.symbol = subject.symbol
  tally : ∀ symbol, (FactStore.verdict? progress.facts symbol).toList =
    verdictsOn symbol (progress.summaries.map (·.functionVerdict)) ++ (base symbol).toList
  accepted : progress.refused = []

theorem Tallied.visit (tallied : work.Tallied base under progress)
    (fresh : progress.visited.contains func = false) :
    work.Tallied base (func :: under) (progress.visit func) := by
  refine ⟨fun other member => ?_, fun summary member => ?_, tallied.named, tallied.tally,
    tallied.accepted⟩
  · rw [contains_visit]
    rcases List.mem_cons.mp member with rfl | further
    · rw [BEq.rfl, Bool.true_or]
    · rw [tallied.marked other further, Bool.or_true]
  · obtain ⟨visited, outside⟩ := tallied.done summary member
    refine ⟨?_, fun again => ?_⟩
    · rw [contains_visit, visited, Bool.or_true]
    · rcases List.mem_cons.mp again with same | further
      · rw [same, fresh] at visited
        cases visited
      · exact outside further

theorem Tallied.pass (tallied : work.Tallied base under progress) (func : FuncId) :
    work.Tallied base under (progress.visit func) := by
  refine ⟨fun other member => ?_, fun summary member => ?_, tallied.named, tallied.tally,
    tallied.accepted⟩
  · rw [contains_visit, tallied.marked other member, Bool.or_true]
  · obtain ⟨visited, outside⟩ := tallied.done summary member
    exact ⟨by rw [contains_visit, visited, Bool.or_true], outside⟩

/-- A function under way has no verdict: its symbol had none at the start, and every summary is of
another function and so of another symbol. -/
theorem Tallied.verdict?_eq_none (tallied : work.Tallied base (func :: under) progress)
    (unclaimed : work.Unclaimed base) {subject : Subject}
    (found : work.subjects[func]? = some subject) (fallible : subject.hasError = true)
    {symbol : SymbolId} (named : subject.symbol = some symbol) :
    FactStore.verdict? progress.facts symbol = none := by
  have noSummary : verdictsOn symbol (progress.summaries.map (·.functionVerdict)) = [] := by
    refine verdictsOn_eq_nil fun entry member same => ?_
    obtain ⟨summary, inSummaries, rfl⟩ := List.mem_map.mp member
    obtain ⟨other, foundOther, symbolOther⟩ := tallied.named summary inSummaries
    have isFunc : summary.func = func :=
      unclaimed.apart foundOther found (symbolOther.symm.trans same) named
    exact (tallied.done summary inSummaries).2 (isFunc ▸ List.mem_cons_self ..)
  have tally := tallied.tally symbol
  rw [noSummary, unclaimed.free symbol ⟨func, subject, found, fallible, named⟩] at tally
  exact Option.toList_eq_nil_iff.mp tally

theorem Tallied.conclude [LawfulFactStore σ]
    (tallied : work.Tallied base (func :: under) progress) (outside : func ∉ under)
    (unclaimed : work.Unclaimed base) {subject : Subject}
    (found : work.subjects[func]? = some subject) (fallible : subject.hasError = true)
    (sources : List ErrorSource) :
    work.Tallied base under (progress.conclude (subject.summary func sources)) := by
  have free : ∀ symbol, subject.symbol = some symbol →
      FactStore.verdict? progress.facts symbol = none :=
    fun symbol named => tallied.verdict?_eq_none unclaimed found fallible named
  refine ⟨fun other member => ?_, fun summary member => ?_, fun summary member => ?_,
    fun symbol => ?_, ?_⟩
  · rw [Progress.visited_conclude]
    exact tallied.marked other (List.mem_cons_of_mem _ member)
  · rw [Progress.summaries_conclude] at member
    simp only [Progress.Done, Progress.visited_conclude]
    rcases List.mem_cons.mp member with rfl | earlier
    · exact ⟨tallied.marked func (List.mem_cons_self ..), outside⟩
    · obtain ⟨visited, apart⟩ := tallied.done summary earlier
      exact ⟨visited, fun further => apart (List.mem_cons_of_mem _ further)⟩
  · rw [Progress.summaries_conclude] at member
    rcases List.mem_cons.mp member with rfl | earlier
    · exact ⟨subject, found, rfl⟩
    · exact tallied.named summary earlier
  · have tally := tallied.tally symbol
    rw [Progress.verdict?_conclude, Progress.summaries_conclude, List.map_cons, verdictsOn_cons,
      List.append_assoc, ← tally]
    by_cases named : subject.symbol = some symbol
    · rw [free symbol named]
      simp [Subject.summary, Summary.functionVerdict, named]
    · simp [Subject.summary, Summary.functionVerdict, named]
  · rw [Progress.refused_conclude free]
    exact tallied.accepted

theorem Tallied.settle [LawfulFactStore σ] (unclaimed : work.Unclaimed base) (depth : Nat)
    (tallied : work.Tallied base under progress) (func : FuncId) :
    work.Tallied base under (work.settle symbols policy depth func progress) := by
  induction depth generalizing under func progress with
  | zero => exact tallied
  | succ depth ih =>
      cases visited : progress.visited.contains func with
      | true =>
          rw [settle_of_visited visited]
          exact tallied
      | false =>
          rcases work.fallible_or_passed func with ⟨subject, found, fallible⟩ | passed
          · rw [settle_of_fallible visited found fallible]
            have outside : func ∉ under := by
              intro underWay
              rw [tallied.marked func underWay] at visited
              cases visited
            refine Tallied.conclude (classifyAll_induct (P := work.Tallied base (func :: under))
              ?_ subject.escapes (tallied.visit visited)).1 outside unclaimed found fallible _
            exact fun other _ holds => ih holds other
          · rw [settle_of_passed visited passed]
            exact tallied.pass func

/-- After a run, every verdict was there before or is that of one summary. -/
theorem Unclaimed.tallied_run [LawfulFactStore σ] {facts : σ}
    (unclaimed : work.Unclaimed (FactStore.verdict? facts)) :
    work.Tallied (FactStore.verdict? facts) [] (work.run symbols policy facts) := by
  refine foldl_settle_induct (P := work.Tallied (FactStore.verdict? facts) [])
    (fun func _ holds => holds.settle unclaimed _ func) work.order ?_
  refine ⟨fun _ impossible => ?_, fun _ impossible => ?_, fun _ impossible => ?_, fun _ => rfl, rfl⟩
  · cases impossible
  · cases impossible
  · cases impossible

end Workload

/-! ### Warnings of a check -/

/-- A warning about a reference to nothing, or about threads; no fact is lost with it. -/
def Warning.KeepsFacts : Warning → Prop
  | .danglingSymbol _ _ => True
  | .danglingVariable _ _ => True
  | .noThreadPool _ => True
  | _ => False

namespace UnitView

variable {view : UnitView} {nodes : List NodeRef} {index : DefinitionIndex} {warning : Warning}

theorem keepsFacts_of_varWarnings {expr : Expr} (member : warning ∈ view.varWarnings expr) :
    warning.KeepsFacts := by
  unfold varWarnings at member
  split at member
  · split at member
    · cases member
    · cases List.mem_singleton.mp member
      exact trivial
  · cases member

theorem keepsFacts_of_symbolWarnings {expr : Expr} (member : warning ∈ view.symbolWarnings expr) :
    warning.KeepsFacts := by
  unfold symbolWarnings at member
  split at member
  · split at member
    · cases member
    · cases List.mem_singleton.mp member
      exact trivial
  · cases member

theorem keepsFacts_of_targetWarnings {ref : NodeRef} (member : warning ∈ view.targetWarnings ref) :
    warning.KeepsFacts := by
  unfold targetWarnings at member
  split at member
  · obtain ⟨node, _, inNode⟩ := List.mem_flatMap.mp member
    split at inNode
    · exact keepsFacts_of_varWarnings inNode
    · cases inNode
  · cases member

theorem keepsFacts_of_subjectWarnings {order : List FuncId}
    (member : warning ∈ view.subjectWarnings index order) : warning.KeepsFacts := by
  obtain ⟨function, _, inFunction⟩ := List.mem_flatMap.mp member
  split at inFunction
  · rcases List.mem_append.mp inFunction with returned | origin
    · obtain ⟨expr, _, inExpr⟩ := List.mem_flatMap.mp returned
      split at inExpr <;> split at inExpr
      · exact keepsFacts_of_symbolWarnings inExpr
      · cases inExpr
      · exact keepsFacts_of_varWarnings inExpr
      · cases inExpr
    · obtain ⟨var, _, inVar⟩ := List.mem_flatMap.mp origin
      obtain ⟨expr, _, inExpr⟩ := List.mem_flatMap.mp inVar
      exact keepsFacts_of_symbolWarnings inExpr
  · cases inFunction

/-- A check warns of the verdicts that were refused and of references to nothing. -/
theorem exists_summarize?_warnings (walked : view.unit.allNodes? = some nodes) :
    ∃ work, view.Mirrors work ∧ ∀ {σ : Type} [FactStore σ] (policy : Policy) (facts : σ),
      ∃ outcome, view.summarize? policy facts = some outcome ∧
        outcome.value = (work.run view.symbols policy facts).sorted ∧
        outcome.facts = (work.run view.symbols policy facts).facts ∧
        ∀ warning ∈ outcome.warnings, warning.KeepsFacts ∨
          ∃ refused ∈ (work.run view.symbols policy facts).refused,
            warning = .verdictRefused refused.1 refused.2 := by
  obtain ⟨index, indexed⟩ := exists_definitionIndex? (Package.closed_allNodes walked)
  obtain ⟨work, made⟩ := exists_workload? walked indexed
  refine ⟨work, mirrors_of_workload? walked indexed made, fun policy facts => ?_⟩
  unfold summarize?
  rw [walked, Option.bind_eq_bind, Option.bind_some, indexed, Option.bind_eq_bind,
    Option.bind_some, made]
  refine ⟨_, rfl, rfl, rfl, fun warning member => ?_⟩
  rcases List.mem_append.mp member with refused | dangling
  · obtain ⟨refusal, inRefused, rfl⟩ := List.mem_map.mp refused
    exact Or.inr ⟨refusal, inRefused, rfl⟩
  · rcases List.mem_append.mp dangling with target | subject
    · obtain ⟨node, _, inNode⟩ := List.mem_flatMap.mp target
      exact Or.inl (keepsFacts_of_targetWarnings inNode)
    · exact Or.inl (keepsFacts_of_subjectWarnings subject)

end UnitView

/-! ### Checking one unit -/

namespace Program

variable {program : Program} {policy : Policy} {unit : Package}

/-- No two declared functions have the same symbol. -/
def SymbolsApart (program : Program) : Prop :=
  ∀ unit ∈ program.units, ∀ other ∈ program.units, ∀ decl ∈ unit.decls,
    ∀ otherDecl ∈ other.decls, ∀ id, unit.symbolOf? decl = some id →
    other.symbolOf? otherDecl = some id → unit = other ∧ decl = otherDecl

theorem SymbolsApart.eq_of_declares (apart : program.SymbolsApart) {other : Package}
    (member : unit ∈ program.units) (also : other ∈ program.units) {id : SymbolId}
    (declares : unit.Declares id) (declaresToo : other.Declares id) : unit = other := by
  obtain ⟨decl, isDecl, named⟩ := declares
  obtain ⟨otherDecl, otherIsDecl, otherNamed⟩ := declaresToo
  exact (apart unit member other also decl isDecl otherDecl otherIsDecl id named otherNamed).1

theorem SymbolsApart.unclaimed (apart : program.SymbolsApart) (member : unit ∈ program.units)
    (planted : unit.Planted) {work : Workload} (mirrors : (program.view unit).Mirrors work)
    {base : SymbolId → Option Verdict} (free : ∀ id, unit.Declares id → base id = none) :
    work.Unclaimed base := by
  refine ⟨fun {func other subject otherSubject symbol} found foundOther named namedOther => ?_,
    fun symbol owns => free symbol (declares_of_owns planted mirrors owns)⟩
  obtain ⟨function, describes⟩ := mirrors.describes func subject found
  obtain ⟨otherFunction, otherDescribes⟩ := mirrors.describes other otherSubject foundOther
  obtain ⟨isDecl, symbolOf⟩ :=
    planted.decl_of_symbol describes.found (describes.symbol.symm.trans named)
  obtain ⟨otherIsDecl, otherSymbolOf⟩ :=
    planted.decl_of_symbol otherDescribes.found (otherDescribes.symbol.symm.trans namedOther)
  exact (apart unit member unit member func isDecl other otherIsDecl symbol symbolOf
    otherSymbolOf).2

/-- The outcome of checking a unit whose symbols had no verdict: what is new in the store is what
the report says, and no verdict was refused. -/
structure Files {σ : Type} [FactStore σ] (unit : Package) (facts : σ)
    (outcome : Outcome σ UnitReport) : Prop where
  tally : ∀ symbol, (verdictsOn symbol outcome.value.verdicts ++
    (FactStore.verdict? facts symbol).toList).Perm (FactStore.verdict? outcome.facts symbol).toList
  own : ∀ symbol, ¬ unit.Declares symbol →
    FactStore.verdict? outcome.facts symbol = FactStore.verdict? facts symbol
  accepted : ∀ warning ∈ outcome.warnings, warning.KeepsFacts

theorem Lowered.exists_files {σ : Type} [FactStore σ] [LawfulFactStore σ]
    (lowered : program.Lowered) (apart : program.SymbolsApart)
    (checks : program.Checks policy unit) {facts : σ}
    (free : ∀ id, unit.Declares id → FactStore.verdict? facts id = none) :
    ∃ outcome, checkUnit? program unit.id policy facts = some outcome ∧
      Files unit facts outcome := by
  have planted := lowered.planted unit checks.1
  obtain ⟨nodes, walked⟩ := planted.exists_allNodes?
  have walkedView : (program.view unit).unit.allNodes? = some nodes := walked
  obtain ⟨work, mirrors, runs⟩ := UnitView.exists_summarize?_warnings walkedView
  obtain ⟨outcome, made, value, stored, warned⟩ := runs policy facts
  have tallied : work.Tallied (FactStore.verdict? facts) []
      (work.run program.symbols policy facts) :=
    (apart.unclaimed checks.1 planted mirrors free).tallied_run
  refine ⟨{ outcome with value := .ofSummaries (program.view unit) policy outcome.value }, ?_,
    fun symbol => ?_, fun symbol foreign => ?_, fun warning member => ?_⟩
  · rw [checkUnit?, lowered.unit?_of_mem checks.1]
    dsimp only
    rw [if_pos checks.2, show (⟨program, unit⟩ : UnitView) = program.view unit from rfl, made]
    rfl
  · have tally := tallied.tally symbol
    change (verdictsOn symbol (outcome.value.map (·.functionVerdict)) ++ _).Perm
      (FactStore.verdict? outcome.facts symbol).toList
    rw [stored, show (program.view unit).symbols = program.symbols from rfl, tally, value]
    exact (((Progress.sorted_perm _).map _).filterMap _).append_right _
  · change FactStore.verdict? outcome.facts symbol = FactStore.verdict? facts symbol
    rw [stored]
    exact verdict?_run_of_not_declares planted mirrors facts foreign
  · rcases warned warning member with dangling | ⟨refused, inRefused, _⟩
    · exact dangling
    · rw [show (program.view unit).symbols = program.symbols from rfl, tallied.accepted]
        at inRefused
      cases inRefused

end Program

/-- The report does not mention symbols of other units. -/
theorem Program.Files.verdictsOn_eq_nil {σ : Type} [FactStore σ] {unit : Package} {facts : σ}
    {outcome : Outcome σ UnitReport} (files : Program.Files unit facts outcome)
    {symbol : SymbolId} (foreign : ¬ unit.Declares symbol) :
    verdictsOn symbol outcome.value.verdicts = [] := by
  have lengths := (files.tally symbol).length_eq
  rw [files.own symbol foreign, List.length_append] at lengths
  exact List.length_eq_zero_iff.mp (by omega)

/-! ### Runs -/

namespace Run

variable {program : Program} {policy : Policy} {done : List UnitId} {run : Run}

/-- A run over the units that are done: the facts are on symbols of these and are what the reports
say, and no verdict was refused. -/
structure Balanced (program : Program) (policy : Policy) (done : List UnitId) (run : Run) :
    Prop where
  foreign : ∀ id, (∀ unit, program.Checks policy unit → unit.id ∈ done → ¬ unit.Declares id) →
    run.facts.verdict? id = none
  tally : ∀ symbol, (verdictsOn symbol (run.reports.flatMap (·.verdicts))).Perm
    (run.facts.verdict? symbol).toList
  accepted : ∀ warning ∈ run.warnings, warning.KeepsFacts

theorem balanced_start : Balanced program policy [] start := by
  refine ⟨fun id _ => FactTable.verdict?_empty id, fun symbol => ?_, fun _ impossible => ?_⟩
  · rw [show start.facts.verdict? symbol = none from FactTable.verdict?_empty symbol]
    exact .nil
  · cases impossible

theorem Balanced.free (balanced : Balanced program policy done run)
    (apart : program.SymbolsApart) {unit : Package} (checks : program.Checks policy unit)
    (fresh : unit.id ∉ done) {id : SymbolId} (declares : unit.Declares id) :
    run.facts.verdict? id = none := by
  refine balanced.foreign id fun earlier earlierChecks isDone declaresToo => ?_
  have same := apart.eq_of_declares checks.1 earlierChecks.1 declares declaresToo
  exact fresh (same ▸ isDone)

/-- One more report and the facts that it tells of. -/
theorem Balanced.extend (balanced : Balanced program policy done run) {unit : Package}
    (checks : program.Checks policy unit) {next : Run} {report : UnitReport}
    (reports : next.reports = report :: run.reports)
    (tally : ∀ symbol, (verdictsOn symbol report.verdicts ++
      (run.facts.verdict? symbol).toList).Perm (next.facts.verdict? symbol).toList)
    (own : ∀ symbol, ¬ unit.Declares symbol →
      next.facts.verdict? symbol = run.facts.verdict? symbol)
    (accepted : ∀ warning ∈ next.warnings, warning.KeepsFacts) :
    Balanced program policy (done ++ [unit.id]) next := by
  refine ⟨fun id foreign => ?_, fun symbol => ?_, accepted⟩
  · have undeclared := foreign unit checks (List.mem_append_right _ (List.mem_singleton.mpr rfl))
    rw [own id undeclared]
    exact balanced.foreign id fun earlier earlierChecks isDone =>
      foreign earlier earlierChecks (List.mem_append_left _ isDone)
  · rw [reports, List.flatMap_cons, verdictsOn_append]
    exact ((balanced.tally symbol).append_left _).trans (tally symbol)

theorem Balanced.checkDirect (balanced : Balanced program policy done run)
    (lowered : program.Lowered) (apart : program.SymbolsApart) (id : UnitId)
    (once : (done ++ [id]).Nodup)
    (scheduled : ∀ other ∈ [id], ∃ unit, program.Checks policy unit ∧ unit.id = other) :
    ∃ next, checkDirect? program policy run id = some next ∧
      Balanced program policy (done ++ [id]) next := by
  obtain ⟨unit, checks, rfl⟩ := scheduled id (List.mem_singleton.mpr rfl)
  have fresh : unit.id ∉ done := fun again =>
    (List.nodup_append.mp once).2.2 _ again _ (List.mem_singleton.mpr rfl) rfl
  have free : ∀ id, unit.Declares id → FactStore.verdict? run.facts id = none :=
    fun id declares => balanced.free apart checks fresh declares
  obtain ⟨outcome, made, files⟩ := lowered.exists_files apart checks free
  refine ⟨_, checkDirect?_eq_some made, balanced.extend checks rfl files.tally files.own ?_⟩
  intro warning member
  rcases List.mem_append.mp member with new | earlier
  · exact files.accepted warning new
  · exact balanced.accepted warning earlier

/-- A layer on a table that lacks the symbols of the unit, merged into another such table. -/
theorem Balanced.absorb (balanced : Balanced program policy done run)
    (apart : program.SymbolsApart) {unit : Package} (checks : program.Checks policy unit)
    (fresh : unit.id ∉ done) {base : FactTable}
    (free : ∀ id, unit.Declares id → base.verdict? id = none)
    {layered : Outcome FactLayer UnitReport} (sameBase : layered.facts.base = base)
    (layerApart : layered.facts.Apart)
    (files : Program.Files unit (FactLayer.ofTable base) layered) :
    Balanced program policy (done ++ [unit.id])
      (run.absorb { layered with facts := layered.facts.added }) := by
  have inLayer : ∀ symbol, layered.facts.verdict? symbol =
      (layered.facts.added.verdict? symbol <|> base.verdict? symbol) := by
    intro symbol
    rw [FactLayer.verdict?_eq_or, sameBase]
  have foreign : ∀ symbol, ¬ unit.Declares symbol →
      layered.facts.added.verdict? symbol = none := by
    intro symbol undeclared
    have kept : layered.facts.verdict? symbol = base.verdict? symbol :=
      (files.own symbol undeclared).trans (FactLayer.verdict?_ofTable base symbol)
    cases added : layered.facts.added.verdict? symbol with
    | none => rfl
    | some verdict =>
        have none := layerApart symbol (by rw [added]; exact Option.some_ne_none verdict)
        rw [inLayer, added, ← sameBase, none] at kept
        cases kept
  have absent : ∀ symbol, layered.facts.added.verdict? symbol ≠ none →
      run.facts.verdict? symbol = none := by
    intro symbol added
    refine balanced.free apart checks fresh ?_
    by_contra undeclared
    exact added (foreign symbol undeclared)
  have merged : ∀ symbol, (run.facts.merge layered.facts.added).1.verdict? symbol =
      (run.facts.verdict? symbol <|> layered.facts.added.verdict? symbol) :=
    fun symbol => FactTable.verdict?_merge _ _ symbol
  refine balanced.extend checks rfl (fun symbol => ?_) (fun symbol undeclared => ?_) ?_
  · change (verdictsOn symbol layered.value.verdicts ++ _).Perm
      ((run.facts.merge layered.facts.added).1.verdict? symbol).toList
    rw [merged]
    by_cases declares : unit.Declares symbol
    · have tally := files.tally symbol
      rw [show FactStore.verdict? (FactLayer.ofTable base) symbol = none from
          (FactLayer.verdict?_ofTable base symbol).trans (free symbol declares),
        show FactStore.verdict? layered.facts symbol = layered.facts.added.verdict? symbol by
          change layered.facts.verdict? symbol = _
          rw [inLayer, free symbol declares, Option.orElse_eq_orElse, Option.orElse_eq_or,
            Option.or_none]] at tally
      rw [balanced.free apart checks fresh declares]
      exact tally
    · rw [files.verdictsOn_eq_nil declares, foreign symbol declares, Option.orElse_eq_orElse,
        Option.orElse_eq_or, Option.or_none]
      exact .refl _
  · change (run.facts.merge layered.facts.added).1.verdict? symbol = _
    rw [merged, foreign symbol undeclared, Option.orElse_eq_orElse, Option.orElse_eq_or,
      Option.or_none]
  · intro warning member
    change warning ∈ (run.facts.merge layered.facts.added).2.toList.map _ ++
      layered.warnings ++ run.warnings at member
    rw [FactTable.merge_conflict_eq_none absent] at member
    rcases List.mem_append.mp member with new | earlier
    · exact files.accepted warning new
    · exact balanced.accepted warning earlier

theorem Balanced.absorbAll (lowered : program.Lowered) (apart : program.SymbolsApart)
    {base : FactTable} (level : List UnitId) (once : (done ++ level).Nodup)
    (scheduled : ∀ id ∈ level, ∃ unit, program.Checks policy unit ∧ unit.id = id)
    (free : ∀ unit, program.Checks policy unit → unit.id ∈ level → ∀ id, unit.Declares id →
      base.verdict? id = none)
    (balanced : Balanced program policy done run) :
    ∃ outcomes, level.mapM (checkLayered? program policy base) = some outcomes ∧
      Balanced program policy (done ++ level) (outcomes.foldl Run.absorb run) := by
  induction level generalizing done run with
  | nil =>
      rw [List.append_nil]
      exact ⟨[], rfl, balanced⟩
  | cons first rest ih =>
      obtain ⟨unit, checks, rfl⟩ := scheduled first (List.mem_cons_self ..)
      have fresh : unit.id ∉ done := fun again =>
        (List.nodup_append.mp once).2.2 _ again _ (List.mem_cons_self ..) rfl
      have freeHere := free unit checks (List.mem_cons_self ..)
      have freeLayer : ∀ id, unit.Declares id →
          FactStore.verdict? (FactLayer.ofTable base) id = none :=
        fun id declares => (FactLayer.verdict?_ofTable base id).trans (freeHere id declares)
      obtain ⟨layered, made, files⟩ := lowered.exists_files apart checks freeLayer
      obtain ⟨work, _, checksBy⟩ := lowered.exists_checksBy checks
      obtain ⟨layered', made', _, stored⟩ := checksBy (FactLayer.ofTable base)
      cases made.symm.trans made'
      obtain ⟨sameBase, layerApart⟩ :
          (work.run program.symbols policy (FactLayer.ofTable base)).facts.base = base ∧
            (work.run program.symbols policy (FactLayer.ofTable base)).facts.Apart :=
        Workload.run_layer_apart base
      rw [← stored] at sameBase layerApart
      have next := balanced.absorb apart checks fresh freeHere sameBase layerApart files
      have regroup : done ++ unit.id :: rest = (done ++ [unit.id]) ++ rest := by
        rw [List.append_assoc]
        rfl
      rw [regroup] at once ⊢
      obtain ⟨outcomes, collected, after⟩ := ih once
        (fun id member => scheduled id (List.mem_cons_of_mem _ member))
        (fun unit checks member => free unit checks (List.mem_cons_of_mem _ member)) next
      exact ⟨_ :: outcomes, mapM_eq_some_iff.mpr
        (.cons (checkLayered?_eq_some made) (mapM_eq_some_iff.mp collected)), after⟩

theorem Balanced.checkLevel (balanced : Balanced program policy done run)
    (lowered : program.Lowered) (apart : program.SymbolsApart) (level : List UnitId)
    (once : (done ++ level).Nodup)
    (scheduled : ∀ id ∈ level, ∃ unit, program.Checks policy unit ∧ unit.id = id) :
    ∃ next, checkLevel? program policy run level = some next ∧
      Balanced program policy (done ++ level) next := by
  have free : ∀ unit, program.Checks policy unit → unit.id ∈ level → ∀ id, unit.Declares id →
      run.facts.verdict? id = none := by
    intro unit checks member id declares
    refine balanced.free apart checks (fun again => ?_) declares
    exact (List.nodup_append.mp once).2.2 _ again _ member rfl
  obtain ⟨outcomes, collected, after⟩ :=
    balanced.absorbAll lowered apart level once scheduled free
  refine ⟨_, ?_, after⟩
  rw [checkLevel?, collected]
  rfl

/-- What checking one more entry preserves, for entries that stand for some units each, holds at
the end. -/
theorem exists_foldlM_units {α : Type} {check : Run → α → Option Run}
    {P : List UnitId → Run → Prop} (units : α → List UnitId)
    (step : ∀ (done : List UnitId) (run : Run) (entry : α), (done ++ units entry).Nodup →
      (∀ id ∈ units entry, ∃ unit, program.Checks policy unit ∧ unit.id = id) → P done run →
      ∃ next, check run entry = some next ∧ P (done ++ units entry) next)
    (entries : List α) (once : (done ++ entries.flatMap units).Nodup)
    (scheduled : ∀ id ∈ entries.flatMap units, ∃ unit, program.Checks policy unit ∧ unit.id = id)
    (holds : P done run) :
    ∃ final, entries.foldlM check run = some final ∧
      P (done ++ entries.flatMap units) final := by
  induction entries generalizing done run with
  | nil =>
      rw [List.flatMap_nil, List.append_nil]
      exact ⟨run, rfl, holds⟩
  | cons entry rest ih =>
      rw [List.flatMap_cons, ← List.append_assoc] at once ⊢
      rw [List.flatMap_cons] at scheduled
      obtain ⟨next, checked, after⟩ := step done run entry (List.nodup_append.mp once).1
        (fun id member => scheduled id (List.mem_append_left _ member)) holds
      obtain ⟨final, folded, holdsFinal⟩ := ih once
        (fun id member => scheduled id (List.mem_append_right _ member)) after
      refine ⟨final, ?_, holdsFinal⟩
      rw [List.foldlM_cons, checked]
      exact folded

theorem Balanced.warnFirst (balanced : Balanced program policy done run) {warning : Warning}
    (keeps : warning.KeepsFacts) : Balanced program policy done (run.warnFirst warning) where
  foreign := balanced.foreign
  tally := balanced.tally
  accepted := List.forall_mem_append.mpr ⟨balanced.accepted, List.forall_mem_singleton.mpr keeps⟩

theorem exists_balanced (lowered : program.Lowered) (apart : program.SymbolsApart)
    (policy : Policy) (jobs : Nat) (pool : ThreadPool) :
    ∃ run, check? program policy (Schedule.build program policy).1 jobs pool = some run ∧
      Balanced program policy (Schedule.build program policy).1.units run := by
  have once := lowered.nodup_units policy
  have scheduled : ∀ id ∈ (Schedule.build program policy).1.units,
      ∃ unit, program.Checks policy unit ∧ unit.id = id := fun id => lowered.mem_units_iff.mp
  refine exists_check?_of ?_ ?_ fun run cause balanced => balanced.warnFirst trivial
  · have each : (Schedule.build program policy).1.units.flatMap (fun id => [id]) =
        (Schedule.build program policy).1.units := List.flatMap_singleton' _
    obtain ⟨run, folded, balanced⟩ := exists_foldlM_units (P := Balanced program policy)
      (fun id => [id])
      (fun _ _ id once scheduled balanced => balanced.checkDirect lowered apart id once scheduled)
      (Schedule.build program policy).1.units (by rwa [each]) (by rwa [each]) balanced_start
    rw [each] at balanced
    exact ⟨run, folded, balanced⟩
  · have each : (Schedule.build program policy).1.levels.flatMap id =
        (Schedule.build program policy).1.units := List.flatMap_id
    obtain ⟨run, folded, balanced⟩ := exists_foldlM_units (P := Balanced program policy) id
      (fun _ _ level once scheduled balanced =>
        balanced.checkLevel lowered apart level once scheduled)
      (Schedule.build program policy).1.levels (by rwa [each]) (by rwa [each]) balanced_start
    rw [each] at balanced
    exact ⟨run, folded, balanced⟩

end Run

/-- When declared functions have different symbols, the facts at the end of a run are what its
reports say: of all entries of all reports, the one that carries a symbol has the recorded verdict,
and a symbol without a fact is carried by none. No verdict is refused and no merge meets a
conflict, whatever the number of jobs and with or without threads for them. -/
theorem check?_verdicts_eq_facts {dump : Dump} {program : Program} {warnings : List Warning}
    (accepted : dump.lower = .ok (program, warnings)) (apart : program.SymbolsApart)
    (policy : Policy) (jobs : Nat) (pool : ThreadPool) :
    ∃ run, Run.check? program policy (Schedule.build program policy).1 jobs pool = some run ∧
      (∀ symbol, verdictsOn symbol (run.result.reports.flatMap (·.verdicts)) =
        (run.facts.verdict? symbol).toList) ∧
      (∀ function refusal, Warning.verdictRefused function refusal ∉ run.warnings) ∧
      ∀ unit conflict, Warning.mergeConflict unit conflict ∉ run.warnings := by
  obtain ⟨run, checked, balanced⟩ :=
    Run.exists_balanced (Dump.lowered_of_lower accepted) apart policy jobs pool
  refine ⟨run, checked, fun symbol => ?_, fun _ _ member => balanced.accepted _ member,
    fun _ _ member => balanced.accepted _ member⟩
  have reordered : (verdictsOn symbol (run.result.reports.flatMap (·.verdicts))).Perm
      (run.facts.verdict? symbol).toList :=
    (((List.reverse_perm run.reports).flatMap_right _).filterMap _).trans (balanced.tally symbol)
  cases known : run.facts.verdict? symbol with
  | none =>
      rw [known] at reordered
      exact reordered.eq_nil
  | some verdict =>
      rw [known] at reordered
      exact List.perm_singleton.mp reordered

theorem Dump.pingPong.symbolsApart : program.SymbolsApart := by
  intro unit member other also decl isDecl otherDecl otherIsDecl id named otherNamed
  have declared : id ∈ unit.declared := Package.mem_declared_iff.mpr ⟨decl, isDecl, named⟩
  have otherDeclared : id ∈ other.declared :=
    Package.mem_declared_iff.mpr ⟨otherDecl, otherIsDecl, otherNamed⟩
  have samePath : unit.path = other.path := by
    rcases unit_cases member with ⟨path, _, listed, _⟩ | ⟨path, _, listed, _⟩ <;>
      rcases unit_cases also with
        ⟨otherPath, _, otherListed, _⟩ | ⟨otherPath, _, otherListed, _⟩ <;>
      rw [listed] at declared <;> rw [otherListed] at otherDeclared
    · rw [path, otherPath]
    · cases List.mem_singleton.mp otherDeclared
      simp at declared
    · cases List.mem_singleton.mp declared
      simp at otherDeclared
    · rw [path, otherPath]
  cases (lowered_of_lower accepted).eq_of_path member also samePath
  have checks : program.Checks policy unit := by
    refine ⟨member, ?_⟩
    rcases unit_cases member with ⟨path, _⟩ | ⟨path, _⟩ <;> rw [path] <;> decide
  exact ⟨rfl, (distinct checks).apart decl isDecl otherDecl otherIsDecl
    (named.trans otherNamed.symm)⟩

theorem check?_pingPong_verdicts :
    Dump.pingPong.program.SymbolsApart ∧
      ∃ run, Run.check? Dump.pingPong.program Dump.pingPong.policy
          (Schedule.build Dump.pingPong.program Dump.pingPong.policy).1 2 = some run ∧
        (∀ symbol, verdictsOn symbol (run.result.reports.flatMap (·.verdicts)) =
          (run.facts.verdict? symbol).toList) ∧
        (∀ function refusal, Warning.verdictRefused function refusal ∉ run.warnings) ∧
        ∀ unit conflict, Warning.mergeConflict unit conflict ∉ run.warnings :=
  ⟨Dump.pingPong.symbolsApart, check?_verdicts_eq_facts Dump.pingPong.accepted
    Dump.pingPong.symbolsApart Dump.pingPong.policy 2 .built⟩

end ErrorWrapping
