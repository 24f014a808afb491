import ErrorWrapping.Diagnostic.Code
import ErrorWrapping.Source.Span

/-
Diagnostics.

A diagnostic has a code, a severity and a message, places with labels, notes and suggestions.
-/

namespace ErrorWrapping

inductive Severity where
  | error
  | warning
  | note
  | help
  deriving DecidableEq, Inhabited

def Severity.describe : Severity → String
  | .error => "error"
  | .warning => "warning"
  | .note => "note"
  | .help => "help"

/-- A place with a text; the primary one is where the fault is. -/
structure Label where
  span : Span
  message : String
  isPrimary : Bool
  deriving DecidableEq, Inhabited

structure Diagnostic where
  code : DiagnosticCode
  severity : Severity
  message : String
  labels : List Label
  notes : List String
  suggestions : List String
  deriving DecidableEq, Inhabited

namespace Diagnostic

def isError (diagnostic : Diagnostic) : Bool :=
  diagnostic.severity == .error

def primarySpan? (diagnostic : Diagnostic) : Option Span :=
  (diagnostic.labels.find? (·.isPrimary)).map (·.span)

def headline (diagnostic : Diagnostic) : String :=
  diagnostic.severity.describe ++ " [" ++ diagnostic.code.describe ++ "]: " ++ diagnostic.message

end Diagnostic

end ErrorWrapping
