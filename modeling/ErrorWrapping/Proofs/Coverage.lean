import ErrorWrapping.Proofs.UnitExactness

/-
Every function with an error result is summarized, and none twice.

This needs no assumption on the unit: a function is marked before it is summarized, and each one
that was marked is under way or has its summary. A summary lists the escapes of its function in
order, each classified by the facts of some moment of the run.
-/

namespace ErrorWrapping

namespace Workload

variable {σ : Type} [FactStore σ] {work : Workload} {symbols : SymbolTable} {policy : Policy}
  {func : FuncId} {progress : Progress σ}

/-- Functions with an error result that were visited are under way or have a summary. -/
def Accounted (work : Workload) (under : List FuncId) (progress : Progress σ) : Prop :=
  ∀ func, work.Fallible func → progress.visited.contains func = true →
    func ∈ under ∨ ∃ summary ∈ progress.summaries, summary.func = func

omit [FactStore σ] in
theorem Accounted.visit {under : List FuncId} (accounted : work.Accounted under progress)
    (func : FuncId) : work.Accounted (func :: under) (progress.visit func) := by
  intro other fallible visited
  rw [contains_visit, Bool.or_eq_true, beq_iff_eq] at visited
  rcases visited with rfl | already
  · exact Or.inl (List.mem_cons_self ..)
  · exact (accounted other fallible already).imp_left (List.mem_cons_of_mem _)

theorem Accounted.conclude {under : List FuncId} {subject : Subject}
    (accounted : work.Accounted (func :: under) progress) (sources : List ErrorSource) :
    work.Accounted under (progress.conclude (subject.summary func sources)) := by
  intro other fallible visited
  rw [Progress.visited_conclude] at visited
  rw [Progress.summaries_conclude]
  rcases accounted other fallible visited with underWay | ⟨summary, member, same⟩
  · rcases List.mem_cons.mp underWay with rfl | further
    · exact Or.inr ⟨_, List.mem_cons_self .., rfl⟩
    · exact Or.inl further
  · exact Or.inr ⟨summary, List.mem_cons_of_mem _ member, same⟩

theorem Accounted.settle (depth : Nat) {under : List FuncId}
    (accounted : work.Accounted under progress) (func : FuncId) :
    work.Accounted under (work.settle symbols policy depth func progress) := by
  induction depth generalizing under func progress with
  | zero => exact accounted
  | succ depth ih =>
      cases visited : progress.visited.contains func with
      | true =>
          rw [settle_of_visited visited]
          exact accounted
      | false =>
          rcases work.fallible_or_passed func with ⟨subject, found, fallible⟩ | passed
          · rw [settle_of_fallible visited found fallible]
            -- The function is under way while its escapes are classified.
            refine Accounted.conclude (classifyAll_induct (P := work.Accounted (func :: under)) ?_
              subject.escapes (accounted.visit func)).1 _
            exact fun other _ holds => ih holds other
          · rw [settle_of_passed visited passed]
            intro other fallible marked
            rcases accounted.visit func other fallible marked with underWay | summarized
            · rcases List.mem_cons.mp underWay with rfl | further
              · obtain ⟨subject, found, hasError⟩ := fallible
                rw [passed subject found] at hasError
                cases hasError
              · exact Or.inl further
            · exact Or.inr summarized

theorem visited_settle_of_visited (depth : Nat) (func : FuncId) {other : FuncId}
    (visited : progress.visited.contains other = true) :
    (work.settle symbols policy depth func progress).visited.contains other = true := by
  refine settle_induct (P := fun progress => progress.visited.contains other = true) ?_ ?_ depth
    func progress visited
  · intro func progress already
    rw [contains_visit, already, Bool.or_true]
  · intro func subject sources progress already _ _ _
    rw [Progress.visited_conclude]
    exact already

theorem visited_settle (depth : Nat) (func : FuncId) (progress : Progress σ) :
    (work.settle symbols policy (depth + 1) func progress).visited.contains func = true := by
  have marked : (progress.visit func).visited.contains func = true := by
    rw [contains_visit, BEq.rfl, Bool.true_or]
  cases visited : progress.visited.contains func with
  | true =>
      rw [settle_of_visited visited]
      exact visited
  | false =>
      rcases work.fallible_or_passed func with ⟨subject, found, fallible⟩ | passed
      · rw [settle_of_fallible visited found fallible, Progress.visited_conclude]
        exact (classifyAll_induct (P := fun progress => progress.visited.contains func = true)
          (fun other _ already => visited_settle_of_visited depth other already) subject.escapes
          marked).1
      · rw [settle_of_passed visited passed]
        exact marked

theorem visited_foldl_settle {depth : Nat} {order : List FuncId} (listed : func ∈ order)
    (progress : Progress σ) :
    (order.foldl (fun progress func => work.settle symbols policy (depth + 1) func progress)
      progress).visited.contains func = true := by
  induction order generalizing progress with
  | nil => cases listed
  | cons head rest ih =>
      rcases List.mem_cons.mp listed with rfl | later
      · exact foldl_settle_induct (P := fun progress => progress.visited.contains func = true)
          (fun other _ already => visited_settle_of_visited _ other already) rest
          (visited_settle depth func progress)
      · exact ih later _

/-- Every function of the order with an error result has a summary in the end. -/
theorem exists_summary_of_mem_order (facts : σ) (listed : func ∈ work.order)
    (fallible : work.Fallible func) :
    ∃ summary ∈ (work.run symbols policy facts).summaries, summary.func = func := by
  have accounted : work.Accounted [] (work.run symbols policy facts) := by
    refine foldl_settle_induct (P := work.Accounted [])
      (fun other _ holds => Accounted.settle _ holds other) work.order ?_
    intro other _ visited
    simp at visited
  rcases accounted func fallible (visited_foldl_settle listed _) with impossible | summarized
  · cases impossible
  · exact summarized

/-- Functions with a summary are done, and no function has two. Those under way are told apart. -/
structure Once (under : List FuncId) (progress : Progress σ) : Prop where
  marked : ∀ func ∈ under, progress.visited.contains func = true
  done : ∀ summary ∈ progress.summaries, progress.Done under summary.func
  once : (progress.summaries.map (·.func)).Nodup

omit [FactStore σ] in
theorem Once.visit {under : List FuncId} (single : Once under progress)
    (fresh : progress.visited.contains func = false) :
    Once (func :: under) (progress.visit func) := by
  refine ⟨fun other member => ?_, fun summary member => ⟨?_, ?_⟩, single.once⟩
  · rw [contains_visit]
    rcases List.mem_cons.mp member with rfl | member
    · rw [BEq.rfl, Bool.true_or]
    · rw [single.marked other member, Bool.or_true]
  · rw [contains_visit, (single.done summary member).1, Bool.or_true]
  · intro underWay
    rcases List.mem_cons.mp underWay with same | further
    · rw [← same, (single.done summary member).1] at fresh
      cases fresh
    · exact (single.done summary member).2 further

omit [FactStore σ] in
theorem Once.pass {under : List FuncId} (single : Once (func :: under) progress) :
    Once under progress := by
  refine ⟨fun other member => single.marked other (List.mem_cons_of_mem _ member), ?_, single.once⟩
  intro summary member
  have done := single.done summary member
  exact ⟨done.1, fun further => done.2 (List.mem_cons_of_mem _ further)⟩

theorem Once.conclude {under : List FuncId} {subject : Subject}
    (single : Once (func :: under) progress) (outside : func ∉ under)
    (sources : List ErrorSource) :
    Once under (progress.conclude (subject.summary func sources)) := by
  have own : progress.visited.contains func = true :=
    single.marked func (List.mem_cons_self ..)
  refine ⟨fun other member => ?_, fun summary member => ?_, ?_⟩
  · rw [Progress.visited_conclude]
    exact single.pass.marked other member
  · rw [Progress.summaries_conclude] at member
    rw [Progress.Done, Progress.visited_conclude]
    rcases List.mem_cons.mp member with rfl | earlier
    · exact ⟨own, outside⟩
    · exact single.pass.done summary earlier
  · rw [Progress.summaries_conclude, List.map_cons, List.nodup_cons]
    refine ⟨fun repeated => ?_, single.once⟩
    obtain ⟨summary, member, same⟩ := List.mem_map.mp repeated
    apply (single.done summary member).2
    rw [same]
    exact List.mem_cons_self ..

theorem Once.settle (depth : Nat) {under : List FuncId} (single : Once under progress)
    (func : FuncId) : Once under (work.settle symbols policy depth func progress) := by
  induction depth generalizing under func progress with
  | zero => exact single
  | succ depth ih =>
      cases visited : progress.visited.contains func with
      | true =>
          rw [settle_of_visited visited]
          exact single
      | false =>
          rcases work.fallible_or_passed func with ⟨subject, found, fallible⟩ | passed
          · rw [settle_of_fallible visited found fallible]
            -- What is under way was marked before, so the function is not among it.
            have outside : func ∉ under := by
              intro underWay
              rw [single.marked func underWay] at visited
              cases visited
            refine Once.conclude (classifyAll_induct (P := Once (func :: under)) ?_
              subject.escapes (single.visit visited)).1 outside _
            exact fun other _ holds => ih holds other
          · rw [settle_of_passed visited passed]
            exact (single.visit visited).pass

/-- No function is summarized twice, whatever calls what. -/
theorem nodup_funcs_run (facts : σ) :
    ((work.run symbols policy facts).summaries.map (·.func)).Nodup := by
  have single : Once [] (work.run symbols policy facts) := by
    refine foldl_settle_induct (P := Once []) (fun other _ holds => Once.settle _ holds other)
      work.order ⟨?_, ?_, List.nodup_nil⟩
    · intro other member
      cases member
    · intro summary member
      cases member
  exact single.once

/-- A summary lists the escapes of its function, each classified by some facts of a store. -/
def Summarizes (σ : Type) [FactStore σ] (work : Workload) (symbols : SymbolTable)
    (policy : Policy) (summary : Summary) : Prop :=
  ∃ subject : Subject, work.subjects[summary.func]? = some subject ∧ subject.hasError = true ∧
    summary = subject.summary summary.func summary.sources ∧
    List.Forall₂ (fun escape source => ∃ known : σ,
      source = sourceOf symbols policy known escape) subject.escapes summary.sources

theorem summarizes_of_mem_run (facts : σ) :
    ∀ summary ∈ (work.run symbols policy facts).summaries,
      Summarizes σ work symbols policy summary := by
  refine run_induct (P := fun progress => ∀ summary ∈ progress.summaries,
    Summarizes σ work symbols policy summary) ?_ ?_ ?_
  · intro func progress before
    exact before
  · intro func subject sources progress before found fallible classified summary member
    rw [Progress.summaries_conclude] at member
    rcases List.mem_cons.mp member with rfl | earlier
    · refine ⟨subject, found, fallible, rfl, classified.imp ?_⟩
      rintro escape source ⟨moment, _, same⟩
      exact ⟨moment.facts, same⟩
    · exact before summary earlier
  · intro summary impossible
    cases impossible

end Workload

namespace UnitView

variable {view : UnitView} {work : Workload} {policy : Policy} {σ : Type} [FactStore σ]
  {func : FuncId} {function : Function}

theorem Mirrors.exists_summary (mirrors : view.Mirrors work) (planted : view.unit.Planted)
    (fallible : view.Fallible func function) (facts : σ) :
    ∃ summary ∈ (work.run view.symbols policy facts).sorted, summary.func = func := by
  obtain ⟨subject, found, hasError, describes⟩ := mirrors.exists_subject planted fallible
  obtain ⟨summary, member, same⟩ := Workload.exists_summary_of_mem_order facts
    ((mirrors.order func).mpr describes.has) ⟨subject, found, hasError⟩
  exact ⟨summary, mem_sorted.mpr member, same⟩

end UnitView

end ErrorWrapping
