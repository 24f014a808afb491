import ErrorWrapping.Analysis.Summary
import ErrorWrapping.Proofs.Stores
import Mathlib.Data.List.Forall2

/-
How the work on a unit proceeds.

Classifying a call has three outcomes that matter later: wrapped, pending, and anything else.
Settling a function prepares each escape in turn, classifies it against the facts found then, and
concludes with the verdict. What every such step preserves holds of the whole run; that argument
is made once here, and later results only name what they preserve.
-/

namespace ErrorWrapping

/-- The signature of a symbol is on the list of wrappers. -/
def AllowListed (symbols : SymbolTable) (policy : Policy) (id : SymbolId) : Prop :=
  ∃ symbol, symbols.get? id = some symbol ∧ policy.isWrapper symbol.signature = true

/-! ### Classification -/

section Classification

variable {σ τ : Type} [FactStore σ] [FactStore τ] {symbols : SymbolTable} {policy : Policy}

/-- A call is wrapped exactly when its function is on the list or has the verdict wrapped. -/
theorem classify_isWrapped_iff (facts : σ) (target : CallTarget) :
    (classify symbols policy facts target).isWrapped = true ↔
      ∃ id symbol, target.symbol = some id ∧ symbols.get? id = some symbol ∧
        (policy.isWrapper symbol.signature = true ∨
          FactStore.verdict? facts id = some .wrapped) := by
  cases named : target.symbol with
  | none =>
      simp only [classify, named, reduceCtorEq, false_and, exists_false, iff_false]
      split <;> simp [Classification.isWrapped]
  | some id =>
      cases known : symbols.get? id with
      | none => simp [classify, named, known, Classification.isWrapped]
      | some symbol =>
          by_cases listed : policy.isWrapper symbol.signature = true
          · simp [classify, named, known, listed, Classification.isWrapped]
          · cases recorded : FactStore.verdict? facts id with
            | none =>
                by_cases interface : target.throughInterface = true <;>
                  by_cases within : policy.inScope symbol.package = true <;>
                  simp [classify, named, known, listed, recorded, interface, within,
                    Classification.isWrapped]
            | some verdict =>
                cases verdict <;>
                  simp [classify, named, known, listed, recorded, Verdict.inherited,
                    Classification.isWrapped]

/-- A call is pending exactly when nothing but its place in the scope is known of its function. -/
theorem classify_eq_pending_iff (facts : σ) (target : CallTarget) :
    classify symbols policy facts target = .naked .pending ↔
      ∃ id symbol, target.symbol = some id ∧ symbols.get? id = some symbol ∧
        policy.isWrapper symbol.signature = false ∧ FactStore.verdict? facts id = none ∧
        target.throughInterface = false ∧ policy.inScope symbol.package = true := by
  cases named : target.symbol with
  | none =>
      simp only [classify, named, reduceCtorEq, false_and, exists_false, iff_false]
      split <;> simp
  | some id =>
      cases known : symbols.get? id with
      | none => simp [classify, named, known]
      | some symbol =>
          by_cases listed : policy.isWrapper symbol.signature = true
          · simp [classify, named, known, listed]
          · cases recorded : FactStore.verdict? facts id with
            | some verdict =>
                cases verdict <;>
                  simp [classify, named, known, listed, recorded, Verdict.inherited]
            | none =>
                cases interface : target.throughInterface with
                | true => simp [classify, named, known, listed, recorded, interface]
                | false =>
                    by_cases within : policy.inScope symbol.package = true <;>
                      simp [classify, named, known, listed, recorded, interface, within]

theorem classify_congr {left : σ} {right : τ} {target : CallTarget}
    (same : ∀ id, target.symbol = some id →
      FactStore.verdict? left id = FactStore.verdict? right id) :
    classify symbols policy left target = classify symbols policy right target := by
  cases named : target.symbol with
  | none => simp only [classify, named]
  | some id => simp only [classify, named, same id named]

end Classification

/-! ### Concluding -/

namespace Progress

def visit {σ : Type} (progress : Progress σ) (func : FuncId) : Progress σ :=
  { progress with visited := progress.visited.insert func }

variable {σ : Type} [FactStore σ]

@[simp]
theorem visited_conclude (progress : Progress σ) (summary : Summary) :
    (progress.conclude summary).visited = progress.visited := by
  simp only [conclude]
  cases summary.symbol with
  | none => rfl
  | some symbol =>
      dsimp only
      cases FactStore.record progress.facts symbol summary.verdict <;> rfl

@[simp]
theorem summaries_conclude (progress : Progress σ) (summary : Summary) :
    (progress.conclude summary).summaries = summary :: progress.summaries := by
  simp only [conclude]
  cases summary.symbol with
  | none => rfl
  | some symbol =>
      dsimp only
      cases FactStore.record progress.facts symbol summary.verdict <;> rfl

theorem facts_conclude_cases (progress : Progress σ) (summary : Summary) :
    (progress.conclude summary).facts = progress.facts ∨
      ∃ symbol, FactStore.record progress.facts symbol summary.verdict =
        .ok (progress.conclude summary).facts := by
  simp only [conclude]
  cases summary.symbol with
  | none => exact Or.inl rfl
  | some symbol =>
      dsimp only
      cases recorded : FactStore.record progress.facts symbol summary.verdict with
      | error refusal => exact Or.inl rfl
      | ok after => exact Or.inr ⟨symbol, recorded⟩

/-- The facts after a conclusion: the old ones, and the verdict where there was none. -/
theorem verdict?_conclude [LawfulFactStore σ] (progress : Progress σ) (summary : Summary)
    (symbol : SymbolId) :
    FactStore.verdict? (progress.conclude summary).facts symbol =
      (FactStore.verdict? progress.facts symbol <|>
        if summary.symbol = some symbol then some summary.verdict else none) := by
  cases named : summary.symbol with
  | none => simp [conclude, named]
  | some own =>
      cases known : FactStore.verdict? progress.facts own with
      | none =>
          obtain ⟨after, recorded, verdicts⟩ :=
            LawfulFactStore.record_fresh progress.facts own summary.verdict known
          simp only [conclude, named, recorded, verdicts]
          by_cases same : symbol = own
          · simp [same, known]
          · simp [same, Ne.symm same]
      | some existing =>
          obtain ⟨refusal, refused⟩ := LawfulFactStore.record_known progress.facts own
            summary.verdict (by rw [known]; exact Option.some_ne_none existing)
          simp only [conclude, named, refused]
          by_cases same : symbol = own
          · simp [same, known]
          · simp [Ne.symm same]

end Progress

def Subject.summary (subject : Subject) (func : FuncId) (sources : List ErrorSource) : Summary :=
  ⟨func, subject.name, subject.symbol, subject.span, sources⟩

/-! ### One function -/

namespace Workload

variable {σ : Type} [FactStore σ]

/-- An escape, classified against given facts. -/
def sourceOf (symbols : SymbolTable) (policy : Policy) (facts : σ) (escape : Escape) :
    ErrorSource :=
  match escape.target with
  | none => ⟨none, .naked .unresolved, escape.site, none⟩
  | some target => ⟨target.symbol, classify symbols policy facts target, escape.site,
      escape.origin⟩

/-- The state in which an escape is classified. -/
def prepare (work : Workload) (symbols : SymbolTable) (policy : Policy)
    (settle : FuncId → Progress σ → Progress σ) (progress : Progress σ) (escape : Escape) :
    Progress σ :=
  match escape.target with
  | none => progress
  | some target =>
    match if classify symbols policy progress.facts target = .naked .pending
      then work.awaited? progress target else none with
    | none => progress
    | some func => settle func progress

/-- The state after all escapes of a list, and their sources in order. -/
def classifyAll (work : Workload) (symbols : SymbolTable) (policy : Policy)
    (settle : FuncId → Progress σ → Progress σ) :
    Progress σ → List Escape → Progress σ × List ErrorSource
  | progress, [] => (progress, [])
  | progress, escape :: rest =>
    let ready := work.prepare symbols policy settle progress escape
    let later := classifyAll work symbols policy settle ready rest
    (later.1, sourceOf symbols policy ready.facts escape :: later.2)

variable {work : Workload} {symbols : SymbolTable} {policy : Policy}
  {settle : FuncId → Progress σ → Progress σ}

theorem classifyEscape_eq (progress : Progress σ) (sources : List ErrorSource) (escape : Escape) :
    work.classifyEscape symbols policy settle (progress, sources) escape =
      (work.prepare symbols policy settle progress escape,
        sourceOf symbols policy (work.prepare symbols policy settle progress escape).facts escape ::
          sources) := by
  cases known : escape.target with
  | none => simp only [classifyEscape, prepare, sourceOf, known]
  | some target =>
      simp only [classifyEscape, prepare, sourceOf, known]
      split <;> simp_all

theorem foldl_classifyEscape (progress : Progress σ) (sources : List ErrorSource)
    (escapes : List Escape) :
    escapes.foldl (work.classifyEscape symbols policy settle) (progress, sources) =
      ((work.classifyAll symbols policy settle progress escapes).1,
        (work.classifyAll symbols policy settle progress escapes).2.reverse ++ sources) := by
  induction escapes generalizing progress sources with
  | nil => rfl
  | cons escape rest ih =>
      rw [List.foldl_cons, classifyEscape_eq, ih]
      simp [classifyAll]

/-! ### Settling -/

theorem fallible_or_passed (work : Workload) (func : FuncId) :
    (∃ subject, work.subjects[func]? = some subject ∧ subject.hasError = true) ∨
      ∀ subject, work.subjects[func]? = some subject → subject.hasError = false := by
  cases found : work.subjects[func]? with
  | none => exact Or.inr fun subject listed => by cases listed
  | some subject =>
      cases hasError : subject.hasError with
      | true => exact Or.inl ⟨subject, rfl, hasError⟩
      | false =>
          refine Or.inr fun other same => ?_
          cases same
          exact hasError

def begin (facts : σ) : Progress σ := ⟨facts, ∅, [], []⟩

theorem settle_of_visited {depth : Nat} {func : FuncId} {progress : Progress σ}
    (visited : progress.visited.contains func = true) :
    work.settle symbols policy depth func progress = progress := by
  cases depth with
  | zero => rfl
  | succ depth => rw [settle, if_pos visited]

theorem settle_of_passed {depth : Nat} {func : FuncId} {progress : Progress σ}
    (fresh : progress.visited.contains func = false)
    (passed : ∀ subject, work.subjects[func]? = some subject → subject.hasError = false) :
    work.settle symbols policy (depth + 1) func progress = progress.visit func := by
  rw [settle, if_neg (by rw [fresh]; exact Bool.false_ne_true)]
  cases found : work.subjects[func]? with
  | none => rfl
  | some subject =>
      dsimp only
      rw [if_neg (by rw [passed subject found]; exact Bool.false_ne_true)]
      rfl

/-- A function with an error result is marked, its escapes are classified, and it is concluded. -/
theorem settle_of_fallible {depth : Nat} {func : FuncId} {progress : Progress σ}
    {subject : Subject} (fresh : progress.visited.contains func = false)
    (found : work.subjects[func]? = some subject) (fallible : subject.hasError = true) :
    work.settle symbols policy (depth + 1) func progress =
      let classified := work.classifyAll symbols policy (work.settle symbols policy depth)
        (progress.visit func) subject.escapes
      classified.1.conclude (subject.summary func classified.2) := by
  rw [settle, if_neg (by rw [fresh]; exact Bool.false_ne_true), found]
  dsimp only
  rw [if_pos fallible, foldl_classifyEscape]
  simp only [List.append_nil, List.reverse_reverse]
  rfl

/-! ### What every step preserves -/

/-- Each source is its escape, classified in some state with a property. -/
def ClassifiedIn (symbols : SymbolTable) (policy : Policy) (P : Progress σ → Prop)
    (escapes : List Escape) (sources : List ErrorSource) : Prop :=
  List.Forall₂ (fun escape source => ∃ progress : Progress σ, P progress ∧
    source = sourceOf symbols policy progress.facts escape) escapes sources

theorem prepare_induct {P : Progress σ → Prop}
    (settled : ∀ func progress, P progress → P (settle func progress))
    {progress : Progress σ} (start : P progress) (escape : Escape) :
    P (work.prepare symbols policy settle progress escape) := by
  unfold prepare
  split
  · exact start
  · split
    · exact start
    · exact settled _ _ start

theorem classifyAll_induct {P : Progress σ → Prop}
    (settled : ∀ func progress, P progress → P (settle func progress))
    (escapes : List Escape) {progress : Progress σ} (start : P progress) :
    P (work.classifyAll symbols policy settle progress escapes).1 ∧
      ClassifiedIn symbols policy P escapes
        (work.classifyAll symbols policy settle progress escapes).2 := by
  induction escapes generalizing progress with
  | nil => exact ⟨start, .nil⟩
  | cons escape rest ih =>
      have ready : P (work.prepare symbols policy settle progress escape) :=
        prepare_induct settled start escape
      obtain ⟨after, sources⟩ := ih ready
      exact ⟨after, .cons ⟨_, ready, rfl⟩ sources⟩

/-- What marking a function and concluding it preserve, settling preserves. -/
theorem settle_induct {P : Progress σ → Prop}
    (visit : ∀ func progress, P progress → P (progress.visit func))
    (conclude : ∀ (func : FuncId) (subject : Subject) (sources : List ErrorSource)
      (progress : Progress σ), P progress → work.subjects[func]? = some subject →
      subject.hasError = true → ClassifiedIn symbols policy P subject.escapes sources →
      P (progress.conclude (subject.summary func sources)))
    (depth : Nat) (func : FuncId) (progress : Progress σ) (start : P progress) :
    P (work.settle symbols policy depth func progress) := by
  induction depth generalizing func progress with
  | zero => exact start
  | succ depth ih =>
      cases visited : progress.visited.contains func with
      | true =>
          rw [settle_of_visited visited]
          exact start
      | false =>
          rcases work.fallible_or_passed func with ⟨subject, found, fallible⟩ | passed
          · rw [settle_of_fallible visited found fallible]
            obtain ⟨after, sources⟩ :=
              classifyAll_induct ih subject.escapes (visit func progress start)
            exact conclude func subject _ _ after found fallible sources
          · rw [settle_of_passed visited passed]
            exact visit func progress start

theorem foldl_settle_induct {P : Progress σ → Prop} {depth : Nat}
    (settled : ∀ func progress, P progress → P (work.settle symbols policy depth func progress))
    (order : List FuncId) {progress : Progress σ} (start : P progress) :
    P (order.foldl (fun progress func => work.settle symbols policy depth func progress)
      progress) := by
  induction order generalizing progress with
  | nil => exact start
  | cons func rest ih => exact ih (settled func progress start)

theorem run_induct {P : Progress σ → Prop}
    (visit : ∀ func progress, P progress → P (progress.visit func))
    (conclude : ∀ (func : FuncId) (subject : Subject) (sources : List ErrorSource)
      (progress : Progress σ), P progress → work.subjects[func]? = some subject →
      subject.hasError = true → ClassifiedIn symbols policy P subject.escapes sources →
      P (progress.conclude (subject.summary func sources)))
    {facts : σ} (start : P (begin facts)) : P (work.run symbols policy facts) :=
  foldl_settle_induct (settle_induct visit conclude _) work.order start

end Workload

end ErrorWrapping
