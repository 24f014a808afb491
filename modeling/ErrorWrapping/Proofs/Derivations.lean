import ErrorWrapping.Proofs.Settling
import Mathlib.Logic.Relation

/-
Summaries of a unit as a least fixed point.

A function is derivable when each of its escapes is a call of a known function that is on the
list of wrappers, has the verdict wrapped from elsewhere, or is a derivable function of the unit.
Derivations are finite, so a function that needs itself, directly or through others, is not
derivable. This is why a single pass is exact: a call back into a function under way closes a
cycle of needs, and leaving it naked loses nothing.
-/

namespace ErrorWrapping

namespace Workload

/-- An escape is a call that can be trusted, given the functions of the unit that can. -/
def Trusts (work : Workload) (symbols : SymbolTable) (policy : Policy) (known : SymbolId → Prop)
    (members : FuncId → Prop) (escape : Escape) : Prop :=
  ∃ (target : CallTarget) (id : SymbolId), escape.target = some target ∧
    target.symbol = some id ∧
    (AllowListed symbols policy id ∨ known id ∨
      ∃ func, work.declared[id]? = some func ∧ members func)

/-- A function that can be wrapped only if another function of the unit is. -/
def Needs (work : Workload) (symbols : SymbolTable) (policy : Policy) (known : SymbolId → Prop)
    (func callee : FuncId) : Prop :=
  ∃ (subject : Subject) (escape : Escape) (target : CallTarget) (id : SymbolId),
    work.subjects[func]? = some subject ∧ escape ∈ subject.escapes ∧
    escape.target = some target ∧ target.symbol = some id ∧
    ¬ AllowListed symbols policy id ∧ ¬ known id ∧ work.declared[id]? = some callee

/-- A function whose escapes all can be trusted, if the functions it needs can. -/
def Grounded (work : Workload) (symbols : SymbolTable) (policy : Policy) (known : SymbolId → Prop)
    (func : FuncId) : Prop :=
  ∃ subject : Subject, work.subjects[func]? = some subject ∧ subject.hasError = true ∧
    ∀ escape ∈ subject.escapes, work.Trusts symbols policy known (fun _ => True) escape

/-- Functions with a finite derivation of the verdict wrapped. -/
inductive Derivable (work : Workload) (symbols : SymbolTable) (policy : Policy)
    (known : SymbolId → Prop) : FuncId → Prop
  | intro {func : FuncId} (grounded : work.Grounded symbols policy known func)
      (needed : ∀ callee, work.Needs symbols policy known func callee →
        Derivable work symbols policy known callee) :
      Derivable work symbols policy known func

variable {work : Workload} {symbols : SymbolTable} {policy : Policy} {known : SymbolId → Prop}

theorem Derivable.not_cycle {func : FuncId}
    (derivable : work.Derivable symbols policy known func) :
    ¬ Relation.TransGen (work.Needs symbols policy known) func func := by
  induction derivable with
  | intro _ _ ih =>
      intro cycle
      obtain ⟨callee, first, rest⟩ := Relation.TransGen.head'_iff.mp cycle
      exact ih callee first (Relation.TransGen.tail' rest first)

theorem Trusts.of_needed {func : FuncId} {subject : Subject} {escape : Escape}
    {members : FuncId → Prop} (found : work.subjects[func]? = some subject)
    (member : escape ∈ subject.escapes)
    (trusts : work.Trusts symbols policy known (fun _ => True) escape)
    (needed : ∀ callee, work.Needs symbols policy known func callee → members callee) :
    work.Trusts symbols policy known members escape := by
  obtain ⟨target, id, called, named, reason⟩ := trusts
  refine ⟨target, id, called, named, ?_⟩
  by_cases listed : AllowListed symbols policy id
  · exact Or.inl listed
  by_cases recorded : known id
  · exact Or.inr (Or.inl recorded)
  rcases reason with impossible | impossible | ⟨callee, declared, _⟩
  · exact absurd impossible listed
  · exact absurd impossible recorded
  · refine Or.inr (Or.inr ⟨callee, declared, needed callee ?_⟩)
    exact ⟨subject, escape, target, id, found, member, called, named, listed, recorded, declared⟩

theorem derivable_iff {func : FuncId} {subject : Subject}
    (found : work.subjects[func]? = some subject) (fallible : subject.hasError = true) :
    work.Derivable symbols policy known func ↔
      ∀ escape ∈ subject.escapes,
        work.Trusts symbols policy known (work.Derivable symbols policy known) escape := by
  constructor
  · rintro ⟨⟨other, alsoFound, _, trusted⟩, needed⟩ escape member
    rw [found] at alsoFound
    cases alsoFound
    exact (trusted escape member).of_needed found member needed
  · intro trusted
    refine .intro ⟨subject, found, fallible, ?_⟩ ?_
    · intro escape member
      obtain ⟨target, id, called, named, reason⟩ := trusted escape member
      refine ⟨target, id, called, named, ?_⟩
      rcases reason with listed | recorded | ⟨callee, declared, _⟩
      · exact Or.inl listed
      · exact Or.inr (Or.inl recorded)
      · exact Or.inr (Or.inr ⟨callee, declared, trivial⟩)
    · rintro callee ⟨other, escape, target, id, alsoFound, member, called, named, listed, recorded,
        declared⟩
      rw [found] at alsoFound
      cases alsoFound
      obtain ⟨target', id', called', named', reason⟩ := trusted escape member
      rw [called] at called'
      cases called'
      rw [named] at named'
      cases named'
      rcases reason with impossible | impossible | ⟨callee', declared', derivable⟩
      · exact absurd impossible listed
      · exact absurd impossible recorded
      · rw [declared] at declared'
        cases declared'
        exact derivable

theorem Derivable.fallible {func : FuncId} (derivable : work.Derivable symbols policy known func) :
    ∃ subject, work.subjects[func]? = some subject ∧ subject.hasError = true := by
  obtain ⟨⟨subject, found, hasError, _⟩, _⟩ := derivable
  exact ⟨subject, found, hasError⟩

/-! ### Units whose declarations are told apart -/

/-- What makes a single pass exact: each symbol belongs to one function, all declared symbols are
in scope and unrecorded, and none of them is called through an interface. -/
structure Plain (work : Workload) (symbols : SymbolTable) (policy : Policy)
    (base : SymbolId → Option Verdict) : Prop where
  listed : ∀ func ∈ work.order, ∃ subject, work.subjects[func]? = some subject
  declared_iff : ∀ (id : SymbolId) (func : FuncId), work.declared[id]? = some func ↔
    ∃ subject : Subject, work.subjects[func]? = some subject ∧ subject.symbol = some id
  inScope : ∀ (id : SymbolId) (func : FuncId), work.declared[id]? = some func →
    ∃ symbol, symbols.get? id = some symbol ∧ policy.inScope symbol.package = true
  unrecorded : ∀ (id : SymbolId) (func : FuncId), work.declared[id]? = some func → base id = none
  resolved : ∀ (func : FuncId) (subject : Subject) (escape : Escape) (target : CallTarget)
    (id : SymbolId), work.subjects[func]? = some subject → escape ∈ subject.escapes →
    escape.target = some target → target.symbol = some id → ∃ symbol, symbols.get? id = some symbol
  direct : ∀ (func callee : FuncId) (subject : Subject) (escape : Escape) (target : CallTarget)
    (id : SymbolId), work.subjects[func]? = some subject → subject.hasError = true →
    escape ∈ subject.escapes → escape.target = some target → target.symbol = some id →
    work.declared[id]? = some callee → target.throughInterface = false

end Workload

end ErrorWrapping
