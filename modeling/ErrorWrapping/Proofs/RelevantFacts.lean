import ErrorWrapping.Proofs.Recording

/-
Which facts a check of a unit depends on.

Checking a unit looks up verdicts on the functions that its error sources call and on its own
functions, and records verdicts on the latter. What is looked up next depends on verdicts found
before, but two tables that agree on all these symbols lead to the same report and gain the same
facts. Nothing is asked of the program, except that its unit can be checked at all.
-/

namespace ErrorWrapping

/-- A table after it gained facts on symbols that it had no verdicts on. -/
structure FactTable.Gains (before added after : FactTable) : Prop where
  fresh : ∀ symbol, added.verdict? symbol ≠ none → before.verdict? symbol = none
  verdicts : ∀ symbol, after.verdict? symbol =
    (before.verdict? symbol <|> added.verdict? symbol)

theorem FactTable.gains_empty (table : FactTable) : table.Gains .empty table := by
  refine ⟨fun symbol added => absurd (FactTable.verdict?_empty symbol) added, fun symbol => ?_⟩
  rw [FactTable.verdict?_empty]
  cases table.verdict? symbol <;> rfl

/-! ### What a unit looks up -/

namespace UnitView

/-- The symbol of a function of the unit with an error result. -/
def Decides (view : UnitView) (symbol : SymbolId) : Prop :=
  ∃ func function, view.unit.Has func ∧ view.Fallible func function ∧
    function.symbol = some symbol

/-- The symbol of a function that an error source of a function of the unit calls. -/
def Consults (view : UnitView) (symbol : SymbolId) : Prop :=
  ∃ func function target, view.unit.Has func ∧ view.Fallible func function ∧
    view.Source function (some target) ∧ target.symbol = some symbol

variable {view : UnitView} {work : Workload}

theorem Mirrors.decides_of_owns (mirrors : view.Mirrors work) {symbol : SymbolId}
    (owns : work.Owns symbol) : view.Decides symbol := by
  obtain ⟨func, subject, found, fallible, named⟩ := owns
  obtain ⟨function, describes⟩ := mirrors.describes func subject found
  exact ⟨func, function, describes.has, ⟨describes.found, describes.hasError ▸ fallible⟩,
    describes.symbol.symm.trans named⟩

theorem Mirrors.consults_of_calls (mirrors : view.Mirrors work) {symbol : SymbolId}
    (calls : work.Calls symbol) : view.Consults symbol := by
  obtain ⟨func, subject, found, fallible, escape, member, target, called, named⟩ := calls
  obtain ⟨function, describes⟩ := mirrors.describes func subject found
  have source := (describes.escapes escape.target).mp (List.mem_map_of_mem member)
  rw [called] at source
  exact ⟨func, function, target, describes.has, ⟨describes.found, describes.hasError ▸ fallible⟩,
    source.2, named⟩

end UnitView

/-! ### Two tables -/

namespace Workload

variable {work : Workload} {symbols : SymbolTable} {policy : Policy}

/-- A run on a table that agrees with the base of a layer gains what a run over the layer adds. -/
theorem gains_of_layer {base table : FactTable}
    (agree : ∀ symbol, work.Mentions symbol → table.verdict? symbol = base.verdict? symbol) :
    table.Gains (work.run symbols policy (FactLayer.ofTable base)).facts.added
      (work.run symbols policy table).facts := by
  obtain ⟨sameBase, apart⟩ : (work.run symbols policy (FactLayer.ofTable base)).facts.base = base ∧
      (work.run symbols policy (FactLayer.ofTable base)).facts.Apart := run_layer_apart base
  constructor
  · intro symbol added
    have owns : work.Owns symbol := by
      by_contra foreign
      exact added (added_of_not_owns foreign)
    rw [agree symbol (Or.inl owns), ← sameBase]
    exact apart symbol added
  · intro symbol
    have merged : (table.merge (work.run symbols policy (FactLayer.ofTable base)).facts.added).1 =
        (work.run symbols policy table).facts := (run_layer_merge agree).2
    rw [← merged]
    exact FactTable.verdict?_merge _ _ symbol

end Workload

/-- Checking a unit on two tables that agree on the functions of the unit and on those that its
error sources call gives equal reports. Both tables gain the same facts, which are on functions of
the unit without verdict, and keep all others. -/
theorem checkUnit?_of_agree {program : Program} {id : UnitId} {policy : Policy}
    {left right : FactTable} {outcome : Outcome FactTable UnitReport}
    (made : checkUnit? program id policy left = some outcome)
    (agree : ∀ unit, program.unit? id = some unit → ∀ symbol,
      (program.view unit).Decides symbol ∨ (program.view unit).Consults symbol →
      left.verdict? symbol = right.verdict? symbol) :
    ∃ other added, checkUnit? program id policy right = some other ∧
      other.value = outcome.value ∧ left.Gains added outcome.facts ∧
      right.Gains added other.facts ∧
      ∀ symbol, added.verdict? symbol ≠ none →
        ∃ unit, program.unit? id = some unit ∧ (program.view unit).Decides symbol := by
  rcases Program.mirrors_or_passed made with
    ⟨unit, work, found, mirrors, checksBy⟩ | ⟨report, passes⟩
  · have sameMentioned : ∀ symbol, work.Mentions symbol →
        right.verdict? symbol = left.verdict? symbol := by
      intro symbol mentions
      exact (agree unit found symbol
        (mentions.imp mirrors.decides_of_owns mirrors.consults_of_calls)).symm
    obtain ⟨here, madeHere, value, stored⟩ := checksBy left
    obtain ⟨other, madeThere, value', stored'⟩ := checksBy right
    cases made.symm.trans madeHere
    have agrees : (work.run program.symbols policy right).Agrees work.Mentions
        (work.run program.symbols policy left) := Workload.run_agrees sameMentioned
    refine ⟨other, (work.run program.symbols policy (FactLayer.ofTable left)).facts.added,
      madeThere, ?_, ?_, ?_, fun symbol added => ⟨unit, found, mirrors.decides_of_owns ?_⟩⟩
    · rw [value, value', Progress.sorted, Progress.sorted, agrees.summaries]
    · rw [stored]
      exact Workload.gains_of_layer fun _ _ => rfl
    · rw [stored']
      exact Workload.gains_of_layer sameMentioned
    · by_contra foreign
      exact added (Workload.added_of_not_owns foreign)
  · obtain ⟨here, madeHere, value, stored⟩ := passes left
    obtain ⟨other, madeThere, value', stored'⟩ := passes right
    cases made.symm.trans madeHere
    refine ⟨other, .empty, madeThere, value'.trans value.symm, ?_, ?_, fun symbol added => ?_⟩
    · rw [stored]
      exact left.gains_empty
    · rw [stored']
      exact right.gains_empty
    · exact absurd (FactTable.verdict?_empty symbol) added

/-! ### A fact on another unit -/

namespace Dump.pingPong

/-- A table with a verdict on the function of the last unit, which the first does not mention. -/
def unrelated : FactTable :=
  ⟨(∅ : Std.ExtTreeMap Nat Verdict compare).insert 4 .naked⟩

theorem verdict?_unrelated {symbol : SymbolId} (mentioned : symbol.index < 4) :
    unrelated.verdict? symbol = none := by
  refine (FactTable.verdict?_insert .empty ⟨4⟩ symbol .naked).trans ?_
  rw [if_neg fun same => Nat.lt_irrefl 4 (by rwa [same] at mentioned)]
  exact FactTable.verdict?_empty symbol

theorem index_lt_of_mentioned {unit : Package} (checks : program.Checks policy unit)
    (path : unit.path = "m/io") {symbol : SymbolId}
    (mentioned : (program.view unit).Decides symbol ∨ (program.view unit).Consults symbol) :
    symbol.index < 4 := by
  have planted := (lowered_of_lower accepted).planted unit checks.1
  rcases unit_cases checks.1 with ⟨_, _, declared, listed, _⟩ | ⟨other, _⟩
  · rcases mentioned with decides | consults
    · obtain ⟨func, function, _, fallible, named⟩ := decides
      have declares : unit.Declares symbol := ⟨func, planted.decl_of_symbol fallible.1 named⟩
      rw [← Package.mem_declared_iff, declared] at declares
      simp only [List.mem_cons, List.not_mem_nil, or_false] at declares
      rcases declares with rfl | rfl | rfl <;> decide
    · obtain ⟨func, function, target, _, fallible, source, named⟩ := consults
      have member := (UnitView.mem_calls?_iff planted listed).mpr ⟨func, function, fallible, source⟩
      simp only [List.mem_cons, List.not_mem_nil, or_false] at member
      rcases member with rfl | rfl | rfl <;> cases named <;> decide
  · exact absurd (path.symm.trans other) (by decide)

end Dump.pingPong

theorem checkUnit?_pingPong_unrelated :
    Dump.pingPong.unrelated ≠ .empty ∧
      ∃ unit outcome, Dump.pingPong.program.Checks Dump.pingPong.policy unit ∧
        checkUnit? Dump.pingPong.program unit.id Dump.pingPong.policy .empty = some outcome ∧
        (∀ same, Dump.pingPong.program.unit? unit.id = some same → ∀ symbol,
          (Dump.pingPong.program.view same).Decides symbol ∨
            (Dump.pingPong.program.view same).Consults symbol →
          FactTable.empty.verdict? symbol = Dump.pingPong.unrelated.verdict? symbol) ∧
        ∃ other added, checkUnit? Dump.pingPong.program unit.id Dump.pingPong.policy
            Dump.pingPong.unrelated = some other ∧
          other.value = outcome.value ∧ FactTable.empty.Gains added outcome.facts ∧
          Dump.pingPong.unrelated.Gains added other.facts ∧
          ∀ symbol, added.verdict? symbol ≠ none → ∃ same,
            Dump.pingPong.program.unit? unit.id = some same ∧
              (Dump.pingPong.program.view same).Decides symbol := by
  have lowered := Dump.lowered_of_lower Dump.pingPong.accepted
  obtain ⟨unit, checks, path⟩ := Dump.pingPong.exists_unit
  obtain ⟨work, _, checksBy⟩ := lowered.exists_checksBy checks
  obtain ⟨outcome, made, _⟩ := checksBy FactTable.empty
  have agree : ∀ same, Dump.pingPong.program.unit? unit.id = some same → ∀ symbol,
      (Dump.pingPong.program.view same).Decides symbol ∨
        (Dump.pingPong.program.view same).Consults symbol →
      FactTable.empty.verdict? symbol = Dump.pingPong.unrelated.verdict? symbol := by
    intro same found symbol mentioned
    cases found.symm.trans (lowered.unit?_of_mem checks.1)
    rw [FactTable.verdict?_empty, Dump.pingPong.verdict?_unrelated
      (Dump.pingPong.index_lt_of_mentioned checks path mentioned)]
  refine ⟨?_, unit, outcome, checks, made, agree, checkUnit?_of_agree made agree⟩
  intro same
  have missing : Dump.pingPong.unrelated.verdict? ⟨4⟩ = none := by
    rw [same]
    exact FactTable.verdict?_empty ⟨4⟩
  cases (FactTable.verdict?_insert .empty ⟨4⟩ ⟨4⟩ .naked).symm.trans missing

end ErrorWrapping
