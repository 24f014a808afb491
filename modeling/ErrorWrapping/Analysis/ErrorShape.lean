import ErrorWrapping.Tree.Node

/-
Where the results of a function hold errors.
-/

namespace ErrorWrapping

inductive ErrorShape where
  /-- No result is `error`; the function is not checked. -/
  | none
  | single (position : Nat)
  /-- Some of several results are `error`. -/
  | inTuple (positions : List Nat) (arity : Nat)
  deriving DecidableEq, Inhabited

namespace ErrorShape

def ofFunction (types : TypeTable) (function : Function) : ErrorShape :=
  let positions := TypeTable.positionsFrom (fun slot => types.isError slot.type) 0 function.results
  let arity := function.results.length
  match positions with
  | [] => .none
  | [position] => if arity = 1 then .single position else .inTuple [position] arity
  | positions => .inTuple positions arity

def hasError : ErrorShape → Bool
  | .none => false
  | _ => true

def positions : ErrorShape → List Nat
  | .none => []
  | .single position => [position]
  | .inTuple positions _ => positions

end ErrorShape

end ErrorWrapping
