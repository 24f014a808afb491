import ErrorWrapping.Text.Blank

/-
The policy of a run.

The scope is a package path: the units at or below it are checked. The wrappers are signatures;
a call of a function with such a signature wraps the error it returns.
-/

namespace ErrorWrapping

inductive PolicyError where
  | missingScope
  deriving DecidableEq

def PolicyError.message : PolicyError → String
  | .missingScope => "no analysis scope configured"

structure Policy where
  scope : String
  wrappers : List String
  deriving DecidableEq

namespace Policy

def distinct (entries : List String) : List String :=
  entries.foldl (fun kept entry => if entry ∈ kept then kept else kept ++ [entry]) []

/-- A scope without blanks around it and without slashes after it. -/
def normalScope (scope : String) : String :=
  String.ofList (Text.dropEnd (· == '/') (Text.trimChars scope.toList))

def make (scope : String) (wrappers : List String) : Except PolicyError Policy :=
  let scope := normalScope scope
  if scope = "" then .error .missingScope
  else .ok ⟨scope, distinct wrappers⟩

def dropStart? : List Char → List Char → Option (List Char)
  | [], text => some text
  | _ :: _, [] => none
  | c :: start, d :: text => if c = d then dropStart? start text else none

/-- Whether a package path is the scope or continues it after a slash. -/
def inScope (policy : Policy) (path : String) : Bool :=
  match dropStart? policy.scope.toList path.toList with
  | none => false
  | some [] => true
  | some (c :: _) => c == '/'

def isWrapper (policy : Policy) (signature : String) : Bool :=
  policy.wrappers.contains signature

end Policy

end ErrorWrapping
