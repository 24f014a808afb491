import ErrorWrapping.Analysis.View
import ErrorWrapping.Facts
import ErrorWrapping.Policy

/-
Whether a call wraps the error it returns.

The rules are tried in order. A call is wrapped when its signature is on the list of wrappers,
or when its function has the verdict wrapped; it is naked when its function has the verdict
naked, when it goes through an interface, when its function is unknown, when its function is in
scope but has no verdict yet, and when its function is out of scope.
-/

namespace ErrorWrapping

inductive WrapRule where
  | allowListed
  | inherited
  deriving DecidableEq, Inhabited

inductive NakedReason where
  | interface
  | external
  | calleeNaked
  /-- The function called is in scope and has no verdict yet. -/
  | pending
  /-- No call is known to have produced the error. -/
  | unresolved
  deriving DecidableEq, Inhabited

def WrapRule.describe : WrapRule → String
  | .allowListed => "allow-listed"
  | .inherited => "inherited"

def NakedReason.describe : NakedReason → String
  | .interface => "interface"
  | .external => "external"
  | .calleeNaked => "callee-naked"
  | .pending => "pending"
  | .unresolved => "unresolved"

inductive Classification where
  | wrapped (rule : WrapRule)
  | naked (reason : NakedReason)
  deriving DecidableEq, Inhabited

namespace Classification

def isWrapped : Classification → Bool
  | .wrapped _ => true
  | .naked _ => false

def verdict (classification : Classification) : Verdict :=
  .ofWrapped classification.isWrapped

def nakedReason? : Classification → Option NakedReason
  | .wrapped _ => none
  | .naked reason => some reason

def describe : Classification → String
  | .wrapped rule => "wrapped:" ++ rule.describe
  | .naked reason => "naked:" ++ reason.describe

end Classification

def Verdict.inherited : Verdict → Classification
  | .wrapped => .wrapped .inherited
  | .naked => .naked .calleeNaked

def classify {σ : Type} [FactStore σ] (symbols : SymbolTable) (policy : Policy) (facts : σ)
    (target : CallTarget) : Classification :=
  match target.symbol with
  | none => if target.throughInterface then .naked .interface else .naked .unresolved
  | some id =>
    match symbols.get? id with
    | none => .naked .unresolved
    | some symbol =>
      if policy.isWrapper symbol.signature then .wrapped .allowListed
      else
        match FactStore.verdict? facts id with
        | some verdict => verdict.inherited
        | none =>
          if target.throughInterface then .naked .interface
          else if policy.inScope symbol.package then .naked .pending
          else .naked .external

end ErrorWrapping
