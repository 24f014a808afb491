import ErrorWrapping.Proofs.Relevance
import ErrorWrapping.Proofs.Runs

/-
Running by levels changes nothing.

A unit reads and records verdicts of the symbols it declares and calls only. Units of one level
declare different symbols and do not call each other's functions, since none imports another. So
each of them sees the same verdicts whether or not the others have been checked, and merging
their layers gives the table that checking them in turn gives.
-/

namespace ErrorWrapping

/-! ### Layers that are merged -/

namespace Workload

variable {work : Workload} {symbols : SymbolTable} {policy : Policy}

/-- A run over a layer adds facts on functions of the unit only. -/
theorem added_of_not_owns {base : FactTable} {symbol : SymbolId}
    (foreign : ¬ work.Owns symbol) :
    (work.run symbols policy (FactLayer.ofTable base)).facts.added.verdict? symbol = none := by
  obtain ⟨sameBase, apart⟩ : (work.run symbols policy (FactLayer.ofTable base)).facts.base = base ∧
      (work.run symbols policy (FactLayer.ofTable base)).facts.Apart := run_layer_apart base
  have kept : (work.run symbols policy (FactLayer.ofTable base)).facts.verdict? symbol =
      base.verdict? symbol :=
    (verdict?_run_of_not_owns (FactLayer.ofTable base) foreign).trans
      (FactLayer.verdict?_ofTable base symbol)
  cases added : (work.run symbols policy (FactLayer.ofTable base)).facts.added.verdict? symbol with
  | none => rfl
  | some verdict =>
      have free := apart symbol (by rw [added]; exact Option.some_ne_none verdict)
      rw [sameBase] at free
      rw [FactLayer.verdict?_eq_or, added, free] at kept
      cases kept

/-- A run over a layer on a table, merged into a table with the same relevant facts, is a run
over the latter table. -/
theorem run_layer_merge {base table : FactTable}
    (agree : ∀ symbol, work.Mentions symbol → table.verdict? symbol = base.verdict? symbol) :
    (work.run symbols policy table).summaries =
        (work.run symbols policy (FactLayer.ofTable base)).summaries ∧
      (table.merge (work.run symbols policy (FactLayer.ofTable base)).facts.added).1 =
        (work.run symbols policy table).facts := by
  have agrees : (work.run symbols policy table).Agrees work.Mentions
      (work.run symbols policy (FactLayer.ofTable base)) := by
    apply run_agrees
    intro symbol mentioned
    exact (agree symbol mentioned).trans (FactLayer.verdict?_ofTable base symbol).symm
  obtain ⟨sameBase, apart⟩ : (work.run symbols policy (FactLayer.ofTable base)).facts.base = base ∧
      (work.run symbols policy (FactLayer.ofTable base)).facts.Apart := run_layer_apart base
  refine ⟨agrees.summaries, FactTable.ext_verdict? fun symbol => ?_⟩
  rw [FactTable.verdict?_merge]
  -- Verdicts on other symbols than the unit's own are recorded by neither run.
  by_cases owns : work.Owns symbol
  · have same : (work.run symbols policy table).facts.verdict? symbol =
        (work.run symbols policy (FactLayer.ofTable base)).facts.verdict? symbol :=
      agrees.verdicts symbol (Or.inl owns)
    rw [same, FactLayer.verdict?_eq_or, sameBase, agree symbol (Or.inl owns)]
    cases added :
      (work.run symbols policy (FactLayer.ofTable base)).facts.added.verdict? symbol with
    | none => cases base.verdict? symbol <;> rfl
    | some verdict =>
        have free := apart symbol (by rw [added]; exact Option.some_ne_none verdict)
        rw [sameBase] at free
        rw [free]
        rfl
  · have kept : (work.run symbols policy table).facts.verdict? symbol = table.verdict? symbol :=
      verdict?_run_of_not_owns table owns
    rw [kept, added_of_not_owns owns]
    cases table.verdict? symbol <;> rfl

end Workload

/-! ### Units that do not depend on each other -/

namespace Program

variable {program : Program} {policy : Policy} {unit other : Package}

/-- No symbol is declared by two checked units. -/
def Separate (program : Program) (policy : Policy) : Prop :=
  ∀ unit other, program.Checks policy unit → program.Checks policy other → ∀ id,
    unit.Declares id → other.Declares id → unit = other

/-- An error source that calls a function of another checked unit comes from a unit that imports
it. -/
def FollowsImports (program : Program) (policy : Policy) : Prop :=
  ∀ unit other, program.Checks policy unit → program.Checks policy other → other ≠ unit →
    ∀ target id, (program.view unit).Calls target → target.symbol = some id → other.Declares id →
    other.path ∈ unit.imports

/-- Symbols of the unit's own package are declared by no other unit. -/
theorem Lowered.separate (lowered : program.Lowered)
    (distinct : ∀ unit, program.Checks policy unit → unit.Distinct program.symbols) :
    program.Separate policy := by
  intro unit other checks otherChecks id declares also
  obtain ⟨decl, isDecl, named⟩ := declares
  obtain ⟨otherDecl, otherIsDecl, otherNamed⟩ := also
  obtain ⟨own, symbol, ownNamed, entry, package⟩ := (distinct unit checks).own decl isDecl
  obtain ⟨otherOwn, otherSymbol, otherOwnNamed, otherEntry, otherPackage⟩ :=
    (distinct other otherChecks).own otherDecl otherIsDecl
  cases named.symm.trans ownNamed
  cases otherNamed.symm.trans otherOwnNamed
  cases entry.symm.trans otherEntry
  exact lowered.eq_of_path checks.1 otherChecks.1 (package.symm.trans otherPackage)

/-- A symbol that a unit declares or that its error sources call. -/
def Mentions (program : Program) (unit : Package) (id : SymbolId) : Prop :=
  unit.Declares id ∨ ∃ target, (program.view unit).Calls target ∧ target.symbol = some id

theorem declares_of_owns {work : Workload} (planted : unit.Planted)
    (mirrors : (program.view unit).Mirrors work) {id : SymbolId} (owns : work.Owns id) :
    unit.Declares id := by
  obtain ⟨func, subject, found, _, named⟩ := owns
  obtain ⟨function, describes⟩ := mirrors.describes func subject found
  exact ⟨func, planted.decl_of_symbol describes.found (describes.symbol.symm.trans named)⟩

theorem mentions_of_work {work : Workload} (planted : unit.Planted)
    (mirrors : (program.view unit).Mirrors work) {id : SymbolId} (mentions : work.Mentions id) :
    program.Mentions unit id := by
  rcases mentions with owns | calls
  · exact Or.inl (declares_of_owns planted mirrors owns)
  · obtain ⟨func, subject, found, _, escape, member, target, called, named⟩ := calls
    obtain ⟨function, fallible, source⟩ := mirrors.source_of_escape found member
    rw [called] at source
    exact Or.inr ⟨target, ⟨func, function, fallible, source⟩, named⟩

theorem verdict?_run_of_not_declares {σ : Type} [FactStore σ] [LawfulFactStore σ]
    {work : Workload} (planted : unit.Planted) (mirrors : (program.view unit).Mirrors work)
    (facts : σ) {id : SymbolId} (foreign : ¬ unit.Declares id) :
    FactStore.verdict? (work.run program.symbols policy facts).facts id =
      FactStore.verdict? facts id := by
  apply Workload.verdict?_run_of_not_owns
  intro owns
  exact foreign (declares_of_owns planted mirrors owns)

/-- A unit does not mention what a unit that it does not import declares. -/
theorem not_mentions_of_not_imports (separate : program.Separate policy)
    (follows : program.FollowsImports policy) (checks : program.Checks policy unit)
    (otherChecks : program.Checks policy other) (different : other ≠ unit)
    (apart : ¬ program.Imports policy unit other) {id : SymbolId} (declares : other.Declares id) :
    ¬ program.Mentions unit id := by
  intro mentions
  rcases mentions with declaresToo | ⟨target, calls, named⟩
  · exact different (separate other unit otherChecks checks id declares declaresToo)
  · have imported := follows unit other checks otherChecks different target id calls named declares
    exact apart ⟨checks, otherChecks, different, imported⟩

end Program

/-! ### Levels -/

namespace Run

variable {program : Program} {policy : Policy}

/-- Runs that differ in their warnings only. -/
structure Same (left right : Run) : Prop where
  reports : left.reports = right.reports
  facts : left.facts = right.facts

theorem Same.result {left right : Run} (same : left.Same right) : left.result = right.result := by
  rw [Run.result, Run.result, same.reports, same.facts]

/-- Checking a unit against a table, and over a layer on another table with the same relevant
facts, give the same run. -/
theorem same_check (lowered : program.Lowered) {unit : Package}
    (checks : program.Checks policy unit) {left right : Run} (same : left.Same right)
    {base : FactTable}
    (agree : ∀ id, program.Mentions unit id → left.facts.verdict? id = base.verdict? id) :
    ∃ next outcome, checkDirect? program policy left unit.id = some next ∧
      checkLayered? program policy base unit.id = some outcome ∧
      next.Same (right.absorb outcome) ∧
      ∀ id, ¬ unit.Declares id → next.facts.verdict? id = left.facts.verdict? id := by
  obtain ⟨work, mirrors, checksBy⟩ := lowered.exists_checksBy checks
  have planted := lowered.planted unit checks.1
  obtain ⟨direct, madeDirect, directValue, directFacts⟩ := checksBy left.facts
  obtain ⟨layered, madeLayered, layeredValue, layeredFacts⟩ := checksBy (FactLayer.ofTable base)
  obtain ⟨summaries, merged⟩ : (work.run program.symbols policy left.facts).summaries =
        (work.run program.symbols policy (FactLayer.ofTable base)).summaries ∧
      (left.facts.merge (work.run program.symbols policy (FactLayer.ofTable base)).facts.added).1 =
        (work.run program.symbols policy left.facts).facts :=
    Workload.run_layer_merge fun id mentions =>
      agree id (Program.mentions_of_work planted mirrors mentions)
  have sameValue : direct.value = layered.value := by
    rw [directValue, layeredValue, Progress.sorted, Progress.sorted, summaries]
  refine ⟨_, _, checkDirect?_eq_some madeDirect, checkLayered?_eq_some madeLayered, ⟨?_, ?_⟩, ?_⟩
  · change direct.value :: left.reports = layered.value :: right.reports
    rw [sameValue, same.reports]
  · change direct.facts = (right.facts.merge layered.facts.added).1
    rw [directFacts, layeredFacts, ← same.facts, merged]
  · intro id foreign
    change direct.facts.verdict? id = left.facts.verdict? id
    rw [directFacts]
    exact Program.verdict?_run_of_not_declares planted mirrors left.facts foreign

/-- The units of a level, one after the other and side by side. The units still to come see in
the table of the first run what the level started from. -/
theorem same_level (lowered : program.Lowered) (base : FactTable) (level : List UnitId)
    (once : level.Nodup)
    (scheduled : ∀ id ∈ level, ∃ unit, program.Checks policy unit ∧ unit.id = id)
    (apart : ∀ unit other, program.Checks policy unit → program.Checks policy other →
      unit.id ∈ level → other.id ∈ level → other ≠ unit → ∀ id, other.Declares id →
      ¬ program.Mentions unit id)
    {left right : Run} (same : left.Same right)
    (agree : ∀ unit, program.Checks policy unit → unit.id ∈ level → ∀ id,
      program.Mentions unit id → left.facts.verdict? id = base.verdict? id) :
    ∃ next outcomes, level.foldlM (checkDirect? program policy) left = some next ∧
      level.mapM (checkLayered? program policy base) = some outcomes ∧
      next.Same (outcomes.foldl absorb right) := by
  induction level generalizing left right with
  | nil => exact ⟨left, [], rfl, rfl, same⟩
  | cons first rest ih =>
      obtain ⟨unit, checks, rfl⟩ := scheduled first (List.mem_cons_self ..)
      obtain ⟨next, outcome, direct, layered, sameNext, kept⟩ :=
        same_check lowered checks same (agree unit checks (List.mem_cons_self ..))
      have later := ih (List.nodup_cons.mp once).2
        (fun id member => scheduled id (List.mem_cons_of_mem _ member))
        (fun unit other checks otherChecks member also => apart unit other checks otherChecks
          (List.mem_cons_of_mem _ member) (List.mem_cons_of_mem _ also))
        sameNext ?_
      · obtain ⟨final, outcomes, folded, collected, sameFinal⟩ := later
        refine ⟨final, outcome :: outcomes, ?_, ?_, sameFinal⟩
        · rw [List.foldlM_cons, direct]
          exact folded
        · exact mapM_eq_some_iff.mpr (.cons layered (mapM_eq_some_iff.mp collected))
      · intro other otherChecks inRest id mentions
        have different : unit ≠ other := by
          intro equal
          exact (List.nodup_cons.mp once).1 (equal ▸ inRest)
        have foreign : ¬ unit.Declares id := fun declares =>
          apart other unit otherChecks checks (List.mem_cons_of_mem _ inRest)
            (List.mem_cons_self ..) different id declares mentions
        rw [kept id foreign]
        exact agree other otherChecks (List.mem_cons_of_mem _ inRest) id mentions

theorem same_levels (lowered : program.Lowered) (separate : program.Separate policy)
    (follows : program.FollowsImports policy) (levels : List (List UnitId))
    (scheduled : ∀ level ∈ levels, level ∈ (Schedule.build program policy).1.levels)
    {left right : Run} (same : left.Same right) :
    ∃ next final, levels.flatten.foldlM (checkDirect? program policy) left = some next ∧
      levels.foldlM (checkLevel? program policy) right = some final ∧ next.Same final := by
  induction levels generalizing left right with
  | nil => exact ⟨left, right, rfl, rfl, same⟩
  | cons level rest ih =>
      have isLevel := scheduled level (List.mem_cons_self ..)
      obtain ⟨next, outcomes, folded, collected, sameNext⟩ :=
        same_level lowered right.facts level (lowered.nodup_level isLevel)
          (fun id member => lowered.mem_units_iff.mp (List.mem_flatten_of_mem isLevel member))
          (fun unit other checks otherChecks inLevel also different id declares =>
            Program.not_mentions_of_not_imports separate follows checks otherChecks different
              (lowered.not_imports_of_level isLevel inLevel also) declares)
          same (fun _ _ _ id _ => by rw [same.facts])
      obtain ⟨later, final, laterFolded, levelsFolded, sameFinal⟩ :=
        ih (fun level member => scheduled level (List.mem_cons_of_mem _ member)) sameNext
      refine ⟨later, final, ?_, ?_, sameFinal⟩
      · rw [List.flatten_cons, List.foldlM_append, folded]
        exact laterFolded
      · rw [List.foldlM_cons, checkLevel?, collected]
        exact levelsFolded

theorem exists_same_runs (lowered : program.Lowered) (separate : program.Separate policy)
    (follows : program.FollowsImports policy) :
    ∃ left right, sequential? program policy (Schedule.build program policy).1 = some left ∧
      byLevels? program policy (Schedule.build program policy).1 = some right ∧
      left.Same right :=
  same_levels lowered separate follows _ (fun _ member => member) ⟨rfl, rfl⟩

end Run

/-- When no symbol is declared by two units and calls follow imports, a run by levels and a run
unit by unit end with the same reports and facts, whatever units import each other. -/
theorem byLevels?_eq_sequential? {dump : Dump} {program : Program} {warnings : List Warning}
    (accepted : dump.lower = .ok (program, warnings)) {policy : Policy}
    (separate : program.Separate policy) (follows : program.FollowsImports policy) :
    ∃ left right, Run.sequential? program policy (Schedule.build program policy).1 = some left ∧
      Run.byLevels? program policy (Schedule.build program policy).1 = some right ∧
      left.result = right.result := by
  obtain ⟨left, right, sequential, byLevels, same⟩ :=
    Run.exists_same_runs (Dump.lowered_of_lower accepted) separate follows
  exact ⟨left, right, sequential, byLevels, same.result⟩

namespace Dump.pingPong

theorem separate : program.Separate policy :=
  (lowered_of_lower accepted).separate fun _ checks => distinct checks

theorem follows : program.FollowsImports policy := by
  intro unit other checks otherChecks different target id calls named declares
  have planted := (lowered_of_lower accepted).planted unit checks.1
  rw [← Package.mem_declared_iff] at declares
  rcases unit_cases checks.1 with ⟨path, _, _, listed, _⟩ | ⟨path, imports, _⟩ <;>
    rcases unit_cases otherChecks.1 with ⟨otherPath, _⟩ | ⟨otherPath, _, otherListed, _⟩
  · exact absurd ((lowered_of_lower accepted).eq_of_path otherChecks.1 checks.1
      (otherPath.trans path.symm)) different
  · have member := (UnitView.mem_calls?_iff planted listed).mpr calls
    rw [otherListed, List.mem_singleton] at declares
    simp only [List.mem_cons, List.not_mem_nil, or_false] at member
    rcases member with rfl | rfl | rfl <;> cases named <;> cases declares
  · rw [otherPath, imports]
    exact List.mem_singleton.mpr rfl
  · exact absurd ((lowered_of_lower accepted).eq_of_path otherChecks.1 checks.1
      (otherPath.trans path.symm)) different

end Dump.pingPong

theorem byLevels?_pingPong :
    Dump.pingPong.program.Separate Dump.pingPong.policy ∧
      Dump.pingPong.program.FollowsImports Dump.pingPong.policy ∧
      ∃ left right, Run.sequential? Dump.pingPong.program Dump.pingPong.policy
          (Schedule.build Dump.pingPong.program Dump.pingPong.policy).1 = some left ∧
        Run.byLevels? Dump.pingPong.program Dump.pingPong.policy
          (Schedule.build Dump.pingPong.program Dump.pingPong.policy).1 = some right ∧
        left.result = right.result :=
  ⟨Dump.pingPong.separate, Dump.pingPong.follows,
    byLevels?_eq_sequential? Dump.pingPong.accepted Dump.pingPong.separate Dump.pingPong.follows⟩

end ErrorWrapping
