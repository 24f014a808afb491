import ErrorWrapping.Diagnostic.Basic
import ErrorWrapping.Source.Files
import ErrorWrapping.Text.Blank

/-
Diagnostics for the terminal.

The text is a list of pieces, each plain or with a style. Painting a piece puts the escape
sequence of its style in front and a reset behind it, or drops the style.
-/

namespace ErrorWrapping

inductive Style where
  | error
  | warning
  | note
  | help
  | bold
  | secondary
  deriving DecidableEq, Inhabited

def Style.parameters : Style → String
  | .error => "1;31"
  | .warning => "1;33"
  | .note => "1;36"
  | .help => "1;32"
  | .bold => "1"
  | .secondary => "1;34"

def selectGraphics (parameters : String) : String :=
  "\x1b[" ++ parameters ++ "m"

structure Piece where
  style : Option Style
  text : String
  deriving DecidableEq, Inhabited

namespace Piece

def plain (text : String) : Piece := ⟨none, text⟩

def styled (style : Style) (text : String) : Piece := ⟨some style, text⟩

def paint (colors : Bool) (piece : Piece) : String :=
  match piece.style with
  | none => piece.text
  | some style =>
    if colors then selectGraphics style.parameters ++ piece.text ++ selectGraphics "0"
    else piece.text

def paintAll (colors : Bool) (pieces : List Piece) : String :=
  String.join (pieces.map (paint colors))

end Piece

inductive ColorMode where
  | auto
  | always
  | never
  deriving DecidableEq, Inhabited

def ColorMode.describe : ColorMode → String
  | .auto => "auto"
  | .always => "always"
  | .never => "never"

/-- Whether to use colours; the terminal decides only for `auto`. -/
def ColorMode.useColors (isTerminal : Bool) : ColorMode → Bool
  | .auto => isTerminal
  | .always => true
  | .never => false

def Severity.style : Severity → Style
  | .error => .error
  | .warning => .warning
  | .note => .note
  | .help => .help

namespace Diagnostic

/-- A label, and under a primary label the line that it points into. -/
def labelPieces (files : Option FileSet) (label : Label) : List Piece :=
  let marker := if label.isPrimary then "-->" else "   "
  let style := if label.isPrimary then Style.error else Style.secondary
  let place := FileSet.describeSpan files label.span
  let line := if label.isPrimary then files.bind (·.lineText? label.span.start) else none
  [.plain ("  " ++ marker ++ " " ++ place ++ ": "), .styled style label.message, .plain "\n"] ++
    line.toList.map fun line => .plain ("   | " ++ Text.trimEnd line ++ "\n")

def remarkPieces (style : Style) (heading text : String) : List Piece :=
  [.plain "  = ", .styled style heading, .plain (": " ++ text ++ "\n")]

def pieces (files : Option FileSet) (diagnostic : Diagnostic) : List Piece :=
  [.styled diagnostic.severity.style diagnostic.severity.describe,
    .styled .bold ("[" ++ diagnostic.code.describe ++ "]"),
    .plain (": " ++ diagnostic.message ++ "\n")] ++
  diagnostic.labels.flatMap (labelPieces files) ++
  diagnostic.notes.flatMap (remarkPieces .bold "note") ++
  diagnostic.suggestions.flatMap (remarkPieces .help "help") ++
  [.plain "\n"]

/-- A count with its noun, in the plural unless the count is one. -/
def counted (count : Nat) (noun : String) : String :=
  toString count ++ " " ++ noun ++ (if count = 1 then "" else "s")

def summaryPieces (errors warnings : Nat) : List Piece :=
  if errors = 0 ∧ warnings = 0 then []
  else if errors = 0 then
    [.styled .warning "warning", .plain (": " ++ counted warnings "warning" ++ " emitted\n")]
  else if warnings = 0 then
    [.styled .error "error", .plain (": found " ++ counted errors "unwrapped error" ++ "\n")]
  else
    [.styled .error "error",
      .plain (": found " ++ counted errors "unwrapped error" ++ "; " ++
        counted warnings "warning" ++ " emitted\n")]

end Diagnostic

end ErrorWrapping
