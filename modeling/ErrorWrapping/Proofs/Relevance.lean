import ErrorWrapping.Proofs.Settling

/-
Which facts the work on a unit depends on.

The work on a unit reads the verdicts on the functions that its error sources call, and records
verdicts on its own functions. Two stores that agree on these symbols lead to the same summaries
and agree on them afterwards; no other verdict changes.
-/

namespace ErrorWrapping

namespace Workload

/-- The symbol of a function that is summarized. -/
def Owns (work : Workload) (symbol : SymbolId) : Prop :=
  ∃ (func : FuncId) (subject : Subject), work.subjects[func]? = some subject ∧
    subject.hasError = true ∧ subject.symbol = some symbol

/-- The symbol of a function that an error source calls. -/
def Calls (work : Workload) (symbol : SymbolId) : Prop :=
  ∃ (func : FuncId) (subject : Subject), work.subjects[func]? = some subject ∧
    subject.hasError = true ∧ ∃ escape ∈ subject.escapes, ∃ target : CallTarget,
      escape.target = some target ∧ target.symbol = some symbol

/-- The symbols whose verdicts the work reads or records. -/
def Mentions (work : Workload) (symbol : SymbolId) : Prop :=
  work.Owns symbol ∨ work.Calls symbol

variable {work : Workload} {symbols : SymbolTable} {policy : Policy}

/-! ### Verdicts that stay as they are -/

section

variable {σ : Type} [FactStore σ] [LawfulFactStore σ]

/-- Only verdicts on functions of the unit are recorded. -/
theorem verdict?_run_of_not_owns (facts : σ) {symbol : SymbolId} (foreign : ¬ work.Owns symbol) :
    FactStore.verdict? (work.run symbols policy facts).facts symbol =
      FactStore.verdict? facts symbol := by
  apply run_induct (P := fun progress =>
    FactStore.verdict? progress.facts symbol = FactStore.verdict? facts symbol)
  · intro func progress unchanged
    exact unchanged
  · intro func subject sources progress unchanged found fallible _
    have differs : subject.symbol ≠ some symbol := by
      intro same
      exact foreign ⟨func, subject, found, fallible, same⟩
    rw [Progress.verdict?_conclude, unchanged]
    simp [Subject.summary, differs]
  · rfl

end

/-- A run over a layer leaves the base alone and adds no symbol of it. -/
theorem run_layer_apart (base : FactTable) :
    (work.run symbols policy (FactLayer.ofTable base)).facts.base = base ∧
      (work.run symbols policy (FactLayer.ofTable base)).facts.Apart := by
  apply run_induct (P := fun progress : Progress FactLayer =>
    progress.facts.base = base ∧ progress.facts.Apart)
  · intro func progress kept
    exact kept
  · intro func subject sources progress kept _ _ _
    rcases progress.facts_conclude_cases (subject.summary func sources) with same | recording
    · rw [same]
      exact kept
    · obtain ⟨symbol, recorded⟩ := recording
      exact ⟨(FactLayer.record_eq_ok recorded).2.1.trans kept.1, kept.2.record recorded⟩
  · exact ⟨rfl, FactLayer.apart_ofTable base⟩

end Workload

/-! ### Two runs side by side -/

section Agreement

variable {σ τ : Type} [FactStore σ] [FactStore τ]

/-- Two states of the work that differ at most in verdicts on symbols that do not matter. -/
structure Progress.Agrees (relevant : SymbolId → Prop) (left : Progress σ) (right : Progress τ) :
    Prop where
  verdicts : ∀ symbol, relevant symbol →
    FactStore.verdict? left.facts symbol = FactStore.verdict? right.facts symbol
  visited : left.visited = right.visited
  summaries : left.summaries = right.summaries

variable {relevant : SymbolId → Prop} {left : Progress σ} {right : Progress τ}

theorem Progress.Agrees.visit (agree : left.Agrees relevant right) (func : FuncId) :
    (left.visit func).Agrees relevant (right.visit func) := by
  refine ⟨agree.verdicts, ?_, agree.summaries⟩
  simp only [Progress.visit, agree.visited]

theorem Progress.Agrees.conclude [LawfulFactStore σ] [LawfulFactStore τ]
    (agree : left.Agrees relevant right) (summary : Summary) :
    (left.conclude summary).Agrees relevant (right.conclude summary) := by
  refine ⟨?_, ?_, ?_⟩
  · intro symbol matters
    rw [verdict?_conclude, verdict?_conclude, agree.verdicts symbol matters]
  · rw [visited_conclude, visited_conclude, agree.visited]
  · rw [summaries_conclude, summaries_conclude, agree.summaries]

namespace Workload

variable {work : Workload} {symbols : SymbolTable} {policy : Policy}
  {settleLeft : FuncId → Progress σ → Progress σ} {settleRight : FuncId → Progress τ → Progress τ}

/-- The function called by an escape is among the symbols that matter. -/
def EscapeWithin (relevant : SymbolId → Prop) (escape : Escape) : Prop :=
  ∀ target symbol, escape.target = some target → target.symbol = some symbol → relevant symbol

theorem awaited?_congr (agree : left.Agrees relevant right) (target : CallTarget) :
    work.awaited? left target = work.awaited? right target := by
  simp only [awaited?, agree.visited]

theorem prepare_agrees
    (settled : ∀ (func : FuncId) (left : Progress σ) (right : Progress τ),
      left.Agrees relevant right → (settleLeft func left).Agrees relevant (settleRight func right))
    (agree : left.Agrees relevant right) {escape : Escape} (within : EscapeWithin relevant escape) :
    (work.prepare symbols policy settleLeft left escape).Agrees relevant
      (work.prepare symbols policy settleRight right escape) := by
  cases known : escape.target with
  | none => simpa only [prepare, known] using agree
  | some target =>
      have sameClass : classify symbols policy left.facts target =
          classify symbols policy right.facts target :=
        classify_congr fun symbol named => agree.verdicts symbol (within target symbol known named)
      simp only [prepare, known, sameClass, awaited?_congr agree]
      split
      · exact agree
      · exact settled _ _ _ agree

theorem sourceOf_congr (agree : left.Agrees relevant right) {escape : Escape}
    (within : EscapeWithin relevant escape) :
    sourceOf symbols policy left.facts escape = sourceOf symbols policy right.facts escape := by
  cases known : escape.target with
  | none => simp only [sourceOf, known]
  | some target =>
      have sameClass : classify symbols policy left.facts target =
          classify symbols policy right.facts target :=
        classify_congr fun symbol named => agree.verdicts symbol (within target symbol known named)
      simp only [sourceOf, known, sameClass]

theorem classifyAll_agrees
    (settled : ∀ (func : FuncId) (left : Progress σ) (right : Progress τ),
      left.Agrees relevant right → (settleLeft func left).Agrees relevant (settleRight func right))
    (escapes : List Escape) (within : ∀ escape ∈ escapes, EscapeWithin relevant escape)
    {left : Progress σ} {right : Progress τ} (agree : left.Agrees relevant right) :
    (work.classifyAll symbols policy settleLeft left escapes).1.Agrees relevant
        (work.classifyAll symbols policy settleRight right escapes).1 ∧
      (work.classifyAll symbols policy settleLeft left escapes).2 =
        (work.classifyAll symbols policy settleRight right escapes).2 := by
  induction escapes generalizing left right with
  | nil => exact ⟨agree, rfl⟩
  | cons escape rest ih =>
      have here := within escape (List.mem_cons_self ..)
      have ready : (work.prepare symbols policy settleLeft left escape).Agrees relevant
          (work.prepare symbols policy settleRight right escape) :=
        prepare_agrees settled agree here
      obtain ⟨after, sources⟩ :=
        ih (fun later member => within later (List.mem_cons_of_mem _ member)) ready
      refine ⟨after, ?_⟩
      simp only [classifyAll, sources, sourceOf_congr ready here]

theorem settle_agrees [LawfulFactStore σ] [LawfulFactStore τ]
    (within : ∀ (func : FuncId) (subject : Subject), work.subjects[func]? = some subject →
      subject.hasError = true → ∀ escape ∈ subject.escapes, EscapeWithin relevant escape)
    (depth : Nat) (func : FuncId) (left : Progress σ) (right : Progress τ)
    (agree : left.Agrees relevant right) :
    (work.settle symbols policy depth func left).Agrees relevant
      (work.settle symbols policy depth func right) := by
  induction depth generalizing func left right with
  | zero => exact agree
  | succ depth ih =>
      cases visited : left.visited.contains func with
      | true =>
          have alsoVisited : right.visited.contains func = true := by
            rw [← agree.visited, visited]
          rw [settle_of_visited visited, settle_of_visited alsoVisited]
          exact agree
      | false =>
          have alsoFresh : right.visited.contains func = false := by
            rw [← agree.visited, visited]
          rcases work.fallible_or_passed func with ⟨subject, found, fallible⟩ | passed
          · rw [settle_of_fallible visited found fallible,
              settle_of_fallible alsoFresh found fallible]
            obtain ⟨after, sources⟩ := classifyAll_agrees ih subject.escapes
              (within func subject found fallible) (agree.visit func)
            dsimp only
            rw [sources]
            exact after.conclude _
          · rw [settle_of_passed visited passed, settle_of_passed alsoFresh passed]
            exact agree.visit func

/-- Stores that agree on the symbols a unit mentions lead to runs that agree on them. -/
theorem run_agrees [LawfulFactStore σ] [LawfulFactStore τ] {left : σ} {right : τ}
    (agree : ∀ symbol, work.Mentions symbol →
      FactStore.verdict? left symbol = FactStore.verdict? right symbol) :
    (work.run symbols policy left).Agrees work.Mentions (work.run symbols policy right) := by
  have within : ∀ (func : FuncId) (subject : Subject), work.subjects[func]? = some subject →
      subject.hasError = true → ∀ escape ∈ subject.escapes, EscapeWithin work.Mentions escape := by
    intro func subject found fallible escape member target symbol known named
    exact Or.inr ⟨func, subject, found, fallible, escape, member, target, known, named⟩
  have folded : ∀ (order : List FuncId) (depth : Nat) (left : Progress σ) (right : Progress τ),
      left.Agrees work.Mentions right →
      (order.foldl (fun progress func => work.settle symbols policy depth func progress)
        left).Agrees work.Mentions
        (order.foldl (fun progress func => work.settle symbols policy depth func progress)
          right) := by
    intro order
    induction order with
    | nil => exact fun _ _ _ agree => agree
    | cons func rest ih =>
        intro depth left right agree
        exact ih depth _ _ (settle_agrees within depth func left right agree)
  exact folded work.order _ _ _ ⟨agree, rfl, rfl⟩

end Workload

end Agreement

end ErrorWrapping
