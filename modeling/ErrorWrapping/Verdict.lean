/-
Verdicts.

The verdict on a function says whether every error that it returns is wrapped.
-/

namespace ErrorWrapping

inductive Verdict where
  | wrapped
  | naked
  deriving DecidableEq, Inhabited

namespace Verdict

def ofWrapped (isWrapped : Bool) : Verdict :=
  if isWrapped then .wrapped else .naked

def isWrapped : Verdict → Bool
  | .wrapped => true
  | .naked => false

/-- Naked if either side is. -/
def and : Verdict → Verdict → Verdict
  | .wrapped, verdict => verdict
  | .naked, _ => .naked

/-- Wrapped comes before naked. -/
def max : Verdict → Verdict → Verdict := and

def min : Verdict → Verdict → Verdict
  | .wrapped, _ => .wrapped
  | .naked, verdict => verdict

def describe : Verdict → String
  | .wrapped => "wrapped"
  | .naked => "naked"

@[simp]
theorem isWrapped_ofWrapped (isWrapped : Bool) : (ofWrapped isWrapped).isWrapped = isWrapped := by
  cases isWrapped <;> rfl

end Verdict

end ErrorWrapping
