import ErrorWrapping.Proofs.ScheduleOrders
import ErrorWrapping.Proofs.UnitOrders
import ErrorWrapping.Render

/-
The order of units in a dump.

Programs of the same units in different orders have the same schedules, their runs end with the same
reports up to the numbers of symbols, and what is rendered shows no numbers. So the order of units
in a dump shows nowhere, unless two units declare functions of one key.
-/

namespace ErrorWrapping

/-! ### Output -/

namespace RunResult

variable {rename : SymbolId → SymbolId} {result other : RunResult}

theorem diagnostics_of_rename (same : other.reports = result.reports.map (·.rename rename)) :
    other.diagnostics = result.diagnostics := by
  rw [diagnostics, same, List.flatMap_map]
  rfl

theorem listing_rename (report : UnitReport) : listing (report.rename rename) = listing report := by
  unfold listing UnitReport.rename
  rw [List.isEmpty_map, List.map_map]
  rfl

theorem reportRecords_rename (files : FileSet) (showFacts : Bool) (report : UnitReport) :
    reportRecords files showFacts (report.rename rename) =
      reportRecords files showFacts report := by
  unfold reportRecords UnitReport.rename
  rw [List.map_map]
  rfl

/-- Output shows no numbers of symbols. -/
theorem render_of_rename (same : other.reports = result.reports.map (·.rename rename))
    (files : FileSet) (options : RenderOptions) (serializer : Json.Serializer) :
    other.render files options serializer = result.render files options serializer := by
  have diagnostics := diagnostics_of_rename same
  unfold render
  cases options.format with
  | human =>
      have listings : other.reports.map listing = result.reports.map listing := by
        rw [same, List.map_map]
        exact List.map_congr_left fun report _ => listing_rename report
      dsimp only
      unfold renderHuman counts
      rw [diagnostics, listings]
  | json =>
      have records : other.reports.flatMap (reportRecords files options.showFacts) =
          result.reports.flatMap (reportRecords files options.showFacts) := by
        rw [same, List.flatMap_map]
        exact List.flatMap_congr fun report _ => reportRecords_rename files _ report
      dsimp only
      unfold renderJson counts
      rw [diagnostics, records]

end RunResult

/-! ### Schedules and runs -/

namespace Program

/-- The levels in which units are checked, each unit by its path. -/
def levelPaths (program : Program) (policy : Policy) : List (List (Option String)) :=
  (Schedule.build program policy).1.levels.map
    (List.map fun id => (program.unit? id).map (·.path))

variable {program other : Program} {rename : SymbolId → SymbolId} {move : Equiv.Perm UnitId}
  (programs : program.Renames rename move other)

include programs

theorem Renames.path? (id : UnitId) :
    (other.unit? (move id)).map (·.path) = (program.unit? id).map (·.path) := by
  have rel := programs.units id
  generalize program.unit? id = found, other.unit? (move id) = found' at rel
  cases rel with
  | none => rfl
  | some same => exact congrArg some same.path

theorem Renames.levelPaths (indexed : program.Indexed) (otherIndexed : other.Indexed)
    (policy : Policy) : other.levelPaths policy = program.levelPaths policy := by
  unfold Program.levelPaths
  rw [programs.levels_build indexed otherIndexed, List.map_map]
  refine List.map_congr_left fun level _ => ?_
  rw [Function.comp, List.map_map]
  exact List.map_congr_left fun id _ => programs.path? id

theorem Renames.exists_runs (lowered : program.Lowered) (otherLowered : other.Lowered)
    (injective : Function.Injective rename) (policy : Policy) (jobs : Nat) (pool : ThreadPool) :
    ∃ run run', Run.check? program policy (Schedule.build program policy).1 jobs pool = some run ∧
      Run.check? other policy (Schedule.build other policy).1 jobs pool = some run' ∧
      run.Renames rename run' := by
  obtain ⟨run, ran, _⟩ := Run.exists_sound_check? lowered policy (Schedule.build program policy).1
    jobs pool
  have rel := Run.rel_check? programs injective policy
    (programs.levels_build lowered.toIndexed otherLowered.toIndexed policy) jobs pool
  rw [ran] at rel
  generalize Run.check? other policy (Schedule.build other policy).1 jobs pool = ran' at rel
  cases rel with
  | some same => exact ⟨run, _, ran, rfl, same⟩

end Program

namespace Dump

/-- When no two units declare functions of one key, their order is irrelevant. The units in any
other order are accepted too and are checked in the same levels; there is a renaming of symbols
under which every run ends with the same reports and facts; and what is rendered is the same. -/
theorem lower_of_perm {dump : Dump} {program : Program} {warnings : List Warning}
    (accepted : dump.lower = .ok (program, warnings)) (apart : KeysApart dump.units)
    {units : List UnitEntry} (perm : dump.units.Perm units) :
    ∃ (other : Program) (warnings' : List Warning) (rename : Equiv.Perm SymbolId),
      ({ dump with units } : Dump).lower = .ok (other, warnings') ∧
      program.symbols.Renames rename program.types other.types other.symbols ∧
      ∀ policy : Policy, other.levelPaths policy = program.levelPaths policy ∧
        ∀ (jobs : Nat) (pool : ThreadPool), ∃ run run',
          Run.check? program policy (Schedule.build program policy).1 jobs pool = some run ∧
          Run.check? other policy (Schedule.build other policy).1 jobs pool = some run' ∧
          run'.result.reports = run.result.reports.map (·.rename rename) ∧
          (∀ symbol, run'.facts.verdict? (rename symbol) = run.facts.verdict? symbol) ∧
          ∀ options serializer, run'.result.render other.files options serializer =
            run.result.render program.files options serializer := by
  obtain ⟨noFault, same⟩ := fault?_of_lower accepted
  have isProgram : dump.toProgram.1 = program := congrArg Prod.fst same
  obtain ⟨once, _, vars⟩ := fault?_eq_none_iff.mp noFault
  have otherOnce : (units.map (·.path)).Nodup := (perm.map _).nodup_iff.mp once
  have noFault' : fault? [] units = none :=
    fault?_eq_none_iff.mpr ⟨otherOnce, fun _ _ => List.not_mem_nil,
      fun unit member => vars unit (perm.mem_iff.mpr member)⟩
  obtain ⟨rename, move, programs⟩ := exists_renames once apart perm
  have lowered := lowered_toProgram once
  have otherLowered : ({ dump with units } : Dump).toProgram.1.Lowered :=
    lowered_toProgram otherOnce
  rw [isProgram] at programs lowered
  refine ⟨_, _, rename, lower_of_fault? noFault', programs.symbols, fun policy =>
    ⟨programs.levelPaths lowered.toIndexed otherLowered.toIndexed policy, fun jobs pool => ?_⟩⟩
  obtain ⟨run, run', ran, ran', renames⟩ :=
    programs.exists_runs lowered otherLowered rename.injective policy jobs pool
  have reports : run'.result.reports = run.result.reports.map (·.rename rename) := by
    rw [Run.result, Run.result, renames.reports, List.map_reverse]
  refine ⟨run, run', ran, ran', reports, renames.facts, fun options serializer => ?_⟩
  rw [programs.files]
  exact RunResult.render_of_rename reports program.files options serializer

/-! ### Two units that import each other -/

/-- Two units that import and call each other. They use two types that are declared by each other,
each unit another one of them first. -/
def crossed : Dump :=
  { files := []
    types := [.named "A" "B", .named "B" "A"]
    symbols := []
    units :=
      [{ path := "m/a"
         files := []
         imports := ["m/b"]
         vars := [⟨"x", none, .local, "A", none⟩, ⟨"e", none, .local, "error", none⟩]
         functions :=
           [.mk ⟨"Ping", none, none, none, none, [], [⟨"A", none⟩, ⟨"error", none⟩]⟩
              (some [.define [.var "x" none, .var "e" none]
                  [.call (.func "m/b.Pong" none) [] none none] none,
                .ret [.var "x" none, .var "e" none] none])]
         globals := [] },
       { path := "m/b"
         files := []
         imports := ["m/a"]
         vars := [⟨"y", none, .local, "B", none⟩, ⟨"e", none, .local, "error", none⟩]
         functions :=
           [.mk ⟨"Pong", none, none, none, none, [], [⟨"B", none⟩, ⟨"error", none⟩]⟩
              (some [.define [.var "y" none, .var "e" none]
                  [.call (.func "m/a.Ping" none) [] none none] none,
                .ret [.var "y" none, .var "e" none] none])]
         globals := [] }] }

theorem crossed.accepted : crossed.lower = .ok (crossed.toProgram.1, crossed.toProgram.2) :=
  lower_of_fault? (by decide)

theorem crossed.keysApart : KeysApart crossed.units := by
  unfold KeysApart
  decide

theorem crossed.lower_reversed :
    crossed.lower = .ok (crossed.toProgram.1, crossed.toProgram.2) ∧ KeysApart crossed.units ∧
      crossed.units.Perm crossed.units.reverse ∧
      ∃ (other : Program) (warnings' : List Warning) (rename : Equiv.Perm SymbolId),
        ({ crossed with units := crossed.units.reverse } : Dump).lower = .ok (other, warnings') ∧
        crossed.toProgram.1.symbols.Renames rename crossed.toProgram.1.types other.types
          other.symbols ∧
        ∀ policy : Policy, other.levelPaths policy = crossed.toProgram.1.levelPaths policy ∧
          ∀ (jobs : Nat) (pool : ThreadPool), ∃ run run',
            Run.check? crossed.toProgram.1 policy
              (Schedule.build crossed.toProgram.1 policy).1 jobs pool = some run ∧
            Run.check? other policy (Schedule.build other policy).1 jobs pool = some run' ∧
            run'.result.reports = run.result.reports.map (·.rename rename) ∧
            (∀ symbol, run'.facts.verdict? (rename symbol) = run.facts.verdict? symbol) ∧
            ∀ options serializer, run'.result.render other.files options serializer =
              run.result.render crossed.toProgram.1.files options serializer :=
  ⟨crossed.accepted, crossed.keysApart, (List.reverse_perm _).symm,
    lower_of_perm crossed.accepted crossed.keysApart (List.reverse_perm _).symm⟩

end Dump

end ErrorWrapping
