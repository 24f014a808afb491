import ErrorWrapping.Text.Blank

/-
Diagnostic codes and their documentation.
-/

namespace ErrorWrapping

inductive DiagnosticCode where
  | e1001
  | e1002
  | e1003
  deriving DecidableEq, Inhabited

namespace DiagnosticCode

def all : List DiagnosticCode := [.e1001, .e1002, .e1003]

def describe : DiagnosticCode → String
  | .e1001 => "E1001"
  | .e1002 => "E1002"
  | .e1003 => "E1003"

def summary : DiagnosticCode → String
  | .e1001 => "error returned from an interface method is not wrapped"
  | .e1002 => "error returned from an external/unanalyzed unit is not wrapped"
  | .e1003 => "error returned is not wrapped"

/-- The code of a text, in either case and with blanks around it. -/
def ofText? (text : String) : Option DiagnosticCode :=
  let upper := String.ofList ((Text.trimChars text.toList).map Char.toUpper)
  all.find? (·.describe == upper)

/-- What to say of a text that is no code. -/
def unknownMessage (text : String) : String :=
  "unknown error code `" ++ text ++ "`"

/-! ### Documentation -/

def ofLines (lines : List String) : String :=
  String.join (lines.map (· ++ "\n"))

def documentation : DiagnosticCode → String
  | .e1001 => ofLines [
    "# E1001: Error From Interface Method Not Wrapped",
    "",
    "An error produced by a call through an interface is returned without being",
    "wrapped.",
    "",
    "The implementation behind an interface is chosen at run time, so the checker",
    "cannot know whether that implementation wraps its errors. Interface calls are",
    "always treated as unwrapped.",
    "",
    "## Example",
    "",
    "```go",
    "type Storer interface \x7b",
    "    Store() error",
    "\x7d",
    "",
    "func Save(s Storer) error \x7b",
    "    return s.Store() // error[E1001]",
    "\x7d",
    "```",
    "",
    "## Solution",
    "",
    "Wrap the error at the call site:",
    "",
    "```go",
    "func Save(s Storer) error \x7b",
    "    return errors.WithStack(s.Store())",
    "\x7d",
    "```"]
  | .e1002 => ofLines [
    "# E1002: Error From External Unit Not Wrapped",
    "",
    "An error produced by a function outside the analysis scope is returned",
    "without being wrapped.",
    "",
    "Packages outside the configured scope (the standard library, third-party",
    "modules) are never analyzed, so their errors carry no call-site context.",
    "",
    "## Example",
    "",
    "```go",
    "func do() error \x7b",
    "    _, err := json.Marshal(struct\x7b\x7d\x7b\x7d)",
    "    return err // error[E1002]",
    "\x7d",
    "```",
    "",
    "## Solution",
    "",
    "```go",
    "func do() error \x7b",
    "    _, err := json.Marshal(struct\x7b\x7d\x7b\x7d)",
    "    return errors.WithStack(err)",
    "\x7d",
    "```",
    "",
    "Functions listed in `wrappers` count as wrapping and are never reported."]
  | .e1003 => ofLines [
    "# E1003: Error Not Wrapped",
    "",
    "An error is returned without being wrapped, and the checker could not prove",
    "that it was wrapped earlier.",
    "",
    "This covers:",
    "",
    "- calls to in-scope functions whose own verdict is `naked`",
    "- calls to in-scope functions not yet summarized (recursion, import cycles)",
    "- errors whose origin cannot be resolved: parameters, variables declared",
    "  without an initializing call, field reads",
    "",
    "## Example",
    "",
    "```go",
    "func A() error \x7b",
    "    return fmt.Errorf(\"boom\") // error[E1002]",
    "\x7d",
    "",
    "func B() error \x7b",
    "    return A() // error[E1003]: A is naked",
    "\x7d",
    "```",
    "",
    "## Solution",
    "",
    "Wrap the error where it is first produced, so that every caller inherits a",
    "wrapped verdict:",
    "",
    "```go",
    "func A() error \x7b",
    "    return errors.WithStack(fmt.Errorf(\"boom\"))",
    "\x7d",
    "```"]

end DiagnosticCode

end ErrorWrapping
