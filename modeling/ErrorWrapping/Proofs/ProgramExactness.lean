import ErrorWrapping.Proofs.Levels
import ErrorWrapping.Proofs.UnitExactness

/-
Facts of a program are exact.

When imports have no cycle, a unit is checked after all units whose functions it calls. The facts
of the units checked so far are then closed under the rule for wrapped functions: what a checked
unit calls is recorded before, or in the same pass. At the end, the symbols recorded as wrapped
are closed under the rule for the whole program, and by soundness they are the least such set.
-/

namespace ErrorWrapping

namespace Program

variable {program : Program} {policy : Policy} {unit : Package}

/-- What makes checking unit by unit exact. -/
structure Tidy (program : Program) (policy : Policy) : Prop where
  distinct : ∀ unit, program.Checks policy unit → unit.Distinct program.symbols
  follows : program.FollowsImports policy
  direct : ∀ unit, program.Checks policy unit → (program.view unit).Direct

/-- All functions of a unit that have a symbol are recorded, and as wrapped when their error
sources are on the list of wrappers or recorded as wrapped. -/
structure Completes (program : Program) (policy : Policy) (unit : Package) (facts : FactTable) :
    Prop where
  recorded : ∀ func function symbol, (program.view unit).Fallible func function →
    function.symbol = some symbol → ∃ verdict, facts.verdict? symbol = some verdict
  closed : ∀ func function symbol, (program.view unit).Fallible func function →
    function.symbol = some symbol →
    (program.view unit).Trusted policy (fun id => facts.verdict? id = some .wrapped) function →
    facts.verdict? symbol = some .wrapped

/-- The facts are those of the units that are done. -/
structure Settled (program : Program) (policy : Policy) (done : List UnitId) (facts : FactTable) :
    Prop where
  foreign : ∀ id, (∀ unit, program.Checks policy unit → unit.id ∈ done → ¬ unit.Declares id) →
    facts.verdict? id = none
  complete : ∀ unit, program.Checks policy unit → unit.id ∈ done →
    program.Completes policy unit facts

theorem settled_start : program.Settled policy [] Run.start.facts := by
  constructor
  · intro id _
    exact FactTable.verdict?_empty id
  · intro unit _ impossible
    cases impossible

theorem Completes.frame (planted : unit.Planted) {before after : FactTable}
    (complete : program.Completes policy unit before)
    (kept : ∀ id, program.Mentions unit id → after.verdict? id = before.verdict? id) :
    program.Completes policy unit after := by
  have keptOwn : ∀ func function symbol, (program.view unit).Fallible func function →
      function.symbol = some symbol → after.verdict? symbol = before.verdict? symbol := by
    intro func function symbol fallible named
    exact kept symbol (Or.inl ⟨func, planted.decl_of_symbol fallible.1 named⟩)
  constructor
  · intro func function symbol fallible named
    obtain ⟨verdict, recorded⟩ := complete.recorded func function symbol fallible named
    exact ⟨verdict, (keptOwn func function symbol fallible named).trans recorded⟩
  · intro func function symbol fallible named trusted
    rw [keptOwn func function symbol fallible named]
    apply complete.closed func function symbol fallible named
    intro source comes
    obtain ⟨target, id, rfl, invoked, reason⟩ := trusted source comes
    refine ⟨target, id, rfl, invoked, reason.imp_right fun wrapped => ?_⟩
    have same := kept id (Or.inr ⟨target, ⟨func, function, fallible, comes⟩, invoked⟩)
    exact same.symm.trans wrapped

theorem completes_run {work : Workload} {base : FactTable} (planted : unit.Planted)
    (mirrors : (program.view unit).Mirrors work)
    (plain : work.Plain program.symbols policy (FactStore.verdict? base)) :
    program.Completes policy unit (work.run program.symbols policy base).facts := by
  obtain ⟨invariant, done⟩ := Workload.run_exact plain
  have recordedAs : ∀ func function symbol, (program.view unit).Fallible func function →
      function.symbol = some symbol → ∃ verdict,
        (work.run program.symbols policy base).facts.verdict? symbol = some verdict ∧
        verdict.Reflects (work.Derivable program.symbols policy
          (Workload.Recorded (FactStore.verdict? base)) func) := by
    intro func function symbol fallible named
    obtain ⟨subject, found, hasError, describes⟩ := mirrors.exists_subject planted fallible
    have declared : work.declared[symbol]? = some func :=
      (plain.declared_iff symbol func).mpr ⟨subject, found, describes.symbol.trans named⟩
    exact invariant.recorded symbol func declared ⟨subject, found, hasError⟩
      (done func ((mirrors.order func).mpr (planted.has fallible.1)))
  constructor
  · intro func function symbol fallible named
    obtain ⟨verdict, recorded, _⟩ := recordedAs func function symbol fallible named
    exact ⟨verdict, recorded⟩
  · intro func function symbol fallible named trusted
    obtain ⟨verdict, recorded, reflects⟩ := recordedAs func function symbol fallible named
    obtain ⟨subject, found, hasError, describes⟩ := mirrors.exists_subject planted fallible
    have derivable : work.Derivable program.symbols policy
        (Workload.Recorded (FactStore.verdict? base)) func := by
      rw [Workload.derivable_iff found hasError]
      intro escape member
      have source := ((describes.escapes escape.target).mp
        (List.mem_map.mpr ⟨escape, member, rfl⟩)).2
      obtain ⟨target, id, called, invoked, reason⟩ := trusted escape.target source
      exact ⟨target, id, called, invoked, reason.imp_right invariant.recorded_or_derivable⟩
    rw [reflects.mpr derivable] at recorded
    exact recorded

/-- Checking one more unit, which no unit that is done imports. -/
theorem Tidy.settled_check (tidy : program.Tidy policy) (lowered : program.Lowered)
    (checks : program.Checks policy unit) {done : List UnitId} (fresh : unit.id ∉ done)
    (imported : ∀ earlier, program.Checks policy earlier → earlier.id ∈ done → ∀ other,
      program.Imports policy earlier other → other.id ∈ done)
    {run : Run} (settled : program.Settled policy done run.facts) :
    ∃ next, Run.checkDirect? program policy run unit.id = some next ∧
      program.Settled policy (done ++ [unit.id]) next.facts := by
  obtain ⟨work, mirrors, checksBy⟩ := lowered.exists_checksBy checks
  obtain ⟨outcome, made, _, stored⟩ := checksBy run.facts
  have planted := lowered.planted unit checks.1
  have separate := lowered.separate tidy.distinct
  have differs : ∀ {earlier : Package}, earlier.id ∈ done → unit ≠ earlier :=
    fun member same => fresh (same ▸ member)
  have unrecorded : ∀ id, unit.Declares id → run.facts.verdict? id = none := by
    intro id declares
    apply settled.foreign id
    intro earlier earlierChecks member declaresToo
    exact differs member (separate unit earlier checks earlierChecks id declares declaresToo)
  have plain : work.Plain program.symbols policy (FactStore.verdict? run.facts) :=
    mirrors.plain planted checks.2 (tidy.distinct unit checks) (tidy.direct unit checks) unrecorded
  have kept : ∀ id, ¬ unit.Declares id → outcome.facts.verdict? id = run.facts.verdict? id := by
    intro id foreign
    rw [stored]
    exact verdict?_run_of_not_declares planted mirrors run.facts foreign
  refine ⟨_, Run.checkDirect?_eq_some made, ?_, ?_⟩
  · intro id foreign
    have notHere := foreign unit checks (List.mem_append_right _ (List.mem_singleton.mpr rfl))
    refine (kept id notHere).trans (settled.foreign id fun earlier earlierChecks member => ?_)
    exact foreign earlier earlierChecks (List.mem_append_left _ member)
  · intro later laterChecks member
    by_cases isDone : later.id ∈ done
    · apply (settled.complete later laterChecks isDone).frame (lowered.planted later laterChecks.1)
      intro id mentions
      -- A unit that is done does not mention this one, since what it imports is done.
      refine kept id fun declares => ?_
      refine not_mentions_of_not_imports separate tidy.follows laterChecks checks (differs isDone)
        (fun imports => ?_) declares mentions
      exact fresh (imported later laterChecks isDone unit imports)
    · have isUnit : later = unit := by
        rcases List.mem_append.mp member with inDone | isLast
        · exact absurd inDone isDone
        · exact lowered.eq_of_id laterChecks.1 checks.1 (List.mem_singleton.mp isLast)
      rw [isUnit]
      exact stored ▸ completes_run planted mirrors plain

theorem Tidy.settled_units (tidy : program.Tidy policy) (lowered : program.Lowered)
    {done : List UnitId} (rest : List UnitId) (once : (done ++ rest).Nodup)
    (scheduled : ∀ id ∈ rest, ∃ unit, program.Checks policy unit ∧ unit.id = id)
    (ordered : ∀ before (unit : Package) after, done ++ rest = before ++ unit.id :: after →
      ∀ other, program.Imports policy unit other → other.id ∈ before)
    {run : Run} (settled : program.Settled policy done run.facts) :
    ∃ final, rest.foldlM (Run.checkDirect? program policy) run = some final ∧
      program.Settled policy (done ++ rest) final.facts := by
  induction rest generalizing done run with
  | nil =>
      rw [List.append_nil]
      exact ⟨run, rfl, settled⟩
  | cons first rest ih =>
      obtain ⟨unit, checks, rfl⟩ := scheduled first (List.mem_cons_self ..)
      have fresh : unit.id ∉ done := fun again =>
        (List.nodup_append.mp once).2.2 _ again _ (List.mem_cons_self ..) rfl
      have imported : ∀ earlier, program.Checks policy earlier → earlier.id ∈ done → ∀ other,
          program.Imports policy earlier other → other.id ∈ done := by
        intro earlier _ member other imports
        obtain ⟨before, after, split⟩ := List.append_of_mem member
        have isBefore := ordered before earlier (after ++ unit.id :: rest)
          (by rw [split, List.append_assoc]; rfl) other imports
        rw [split]
        exact List.mem_append_left _ isBefore
      obtain ⟨next, checked, settledNext⟩ :=
        tidy.settled_check lowered checks fresh imported settled
      have regroup : done ++ unit.id :: rest = (done ++ [unit.id]) ++ rest := by
        rw [List.append_assoc]
        rfl
      rw [regroup] at once ordered ⊢
      obtain ⟨final, folded, settledFinal⟩ := ih once
        (fun id member => scheduled id (List.mem_cons_of_mem _ member)) ordered settledNext
      refine ⟨final, ?_, settledFinal⟩
      rw [List.foldlM_cons, checked]
      exact folded

/-- A run over a tidy program without cycles of imports settles all its checked units. -/
theorem Tidy.settled_check? (tidy : program.Tidy policy) (lowered : program.Lowered)
    (acyclic : ∀ unit, ¬ Relation.TransGen (program.Imports policy) unit unit) (jobs : Nat)
    (pool : ThreadPool) :
    ∃ run, Run.check? program policy (Schedule.build program policy).1 jobs pool = some run ∧
      program.Settled policy (Schedule.build program policy).1.units run.facts := by
  obtain ⟨final, folded, settled⟩ := tidy.settled_units lowered
    (Schedule.build program policy).1.units (lowered.nodup_units policy)
    (fun id member => lowered.mem_units_iff.mp member)
    (fun before unit after split other imports =>
      lowered.mem_before_of_imports acyclic split imports)
    settled_start
  refine Run.exists_check?_of ⟨final, folded, settled⟩ ?_ fun _ _ settled => settled
  · obtain ⟨left, right, sequential, byLevels, same⟩ :=
      Run.exists_same_runs lowered (lowered.separate tidy.distinct) tidy.follows
    cases folded.symm.trans sequential
    exact ⟨right, byLevels, same.facts ▸ settled⟩

end Program

/-- When declared functions have symbols of their own, imports have no cycle, calls follow imports
and no declared function is called through an interface, a run records for every declared function
with an error result whether it is in the least set of the program, whatever the number of jobs and
what came of the threads. -/
theorem check?_verdict_exact {dump : Dump} {program : Program} {warnings : List Warning}
    (accepted : dump.lower = .ok (program, warnings)) {policy : Policy}
    (tidy : program.Tidy policy)
    (acyclic : ∀ unit, ¬ Relation.TransGen (program.Imports policy) unit unit) (jobs : Nat)
    (pool : ThreadPool) :
    ∃ run, Run.check? program policy (Schedule.build program policy).1 jobs pool = some run ∧
      ∀ unit, program.Checks policy unit → ∀ decl ∈ unit.decls, ∀ function,
        (program.view unit).Fallible decl function → ∃ symbol, function.symbol = some symbol ∧
        (program.Wraps policy symbol → run.facts.verdict? symbol = some .wrapped) ∧
        (¬ program.Wraps policy symbol → run.facts.verdict? symbol = some .naked) := by
  have lowered := Dump.lowered_of_lower accepted
  obtain ⟨run, checked, settled⟩ := tidy.settled_check? lowered acyclic jobs pool
  refine ⟨run, checked, fun unit checks decl isDecl function fallible => ?_⟩
  obtain ⟨sound, checked', isSound⟩ :=
    Run.exists_sound_check? lowered policy (Schedule.build program policy).1 jobs pool
  cases checked.symm.trans checked'
  have scheduled : ∀ {unit : Package}, program.Checks policy unit →
      unit.id ∈ (Schedule.build program policy).1.units :=
    fun checks => lowered.mem_units_iff.mpr ⟨_, checks, rfl⟩
  obtain ⟨symbol, _, named, _⟩ := (tidy.distinct unit checks).own decl isDecl
  have hasSymbol : function.symbol = some symbol := by
    rw [Package.symbolOf?, show unit.arena.function? decl = some function from fallible.1] at named
    exact named
  obtain ⟨verdict, recorded⟩ :=
    (settled.complete unit checks (scheduled checks)).recorded decl function symbol fallible
      hasSymbol
  refine ⟨symbol, hasSymbol, fun wraps => ?_, fun outside => ?_⟩
  · apply wraps
    intro unit checks func function symbol fallible named trusted
    exact (settled.complete unit checks (scheduled checks)).closed func function symbol fallible
      named trusted
  · cases verdict with
    | naked => exact recorded
    | wrapped => exact absurd (isSound symbol recorded) outside

namespace Dump.pingPong

theorem tidy : program.Tidy policy :=
  ⟨fun _ checks => distinct checks, follows, fun _ checks => direct checks⟩

theorem acyclic (unit : Package) : ¬ Relation.TransGen (program.Imports policy) unit unit := by
  have importsNone : ∀ {unit other : Package}, program.Imports policy unit other →
      ∀ further, ¬ program.Imports policy other further := by
    intro unit other imports further more
    obtain ⟨checks, otherChecks, different, path⟩ := imports
    rcases unit_cases otherChecks.1 with ⟨_, imports, _⟩ | ⟨otherPath, _⟩
    · have nothing := more.2.2.2
      rw [imports] at nothing
      cases nothing
    · rcases unit_cases checks.1 with ⟨_, imports, _⟩ | ⟨_, imports, _⟩
      · rw [imports] at path
        cases path
      · rw [imports, otherPath, List.mem_singleton] at path
        exact absurd path (by decide)
  intro cycle
  obtain ⟨middle, first, rest⟩ := Relation.TransGen.head'_iff.mp cycle
  obtain ⟨further, again, _⟩ := Relation.TransGen.head'_iff.mp (.tail' rest first)
  exact importsNone first further again

end Dump.pingPong

theorem check?_verdict_pingPong :
    Dump.pingPong.program.Tidy Dump.pingPong.policy ∧
      ∃ run, Run.check? Dump.pingPong.program Dump.pingPong.policy
          (Schedule.build Dump.pingPong.program Dump.pingPong.policy).1 2 = some run ∧
        ∀ unit, Dump.pingPong.program.Checks Dump.pingPong.policy unit → ∀ decl ∈ unit.decls,
          ∀ function, (Dump.pingPong.program.view unit).Fallible decl function →
          ∃ symbol, function.symbol = some symbol ∧
            (Dump.pingPong.program.Wraps Dump.pingPong.policy symbol →
              run.facts.verdict? symbol = some .wrapped) ∧
            (¬ Dump.pingPong.program.Wraps Dump.pingPong.policy symbol →
              run.facts.verdict? symbol = some .naked) :=
  ⟨Dump.pingPong.tidy, check?_verdict_exact Dump.pingPong.accepted Dump.pingPong.tidy
    Dump.pingPong.acyclic 2 .built⟩

end ErrorWrapping
