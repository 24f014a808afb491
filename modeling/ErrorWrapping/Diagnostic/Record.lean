import ErrorWrapping.Diagnostic.Basic
import ErrorWrapping.Json.Writer
import ErrorWrapping.Source.Files

/-
Diagnostics for tools: one JSON object on each line.
-/

namespace ErrorWrapping

/-- The members that place a span: its offsets, and where it lies if it can be located. -/
def spanMembers (files : Option FileSet) (span : Span) : List (String × Json) :=
  let location := files.bind (·.locate? span.start)
  [("start", .ofNat span.start), ("end", .ofNat span.stop)] ++
    match location with
    | none => []
    | some location =>
      [("file", .string location.path), ("line", .ofNat location.line),
        ("column", .ofNat location.column)]

def Label.record (files : Option FileSet) (label : Label) : Json :=
  .object ([("message", .string label.message), ("primary", .bool label.isPrimary)] ++
    spanMembers files label.span)

def Diagnostic.record (files : Option FileSet) (diagnostic : Diagnostic) : Json :=
  .object [
    ("type", .string "diagnostic"),
    ("code", .string diagnostic.code.describe),
    ("severity", .string diagnostic.severity.describe),
    ("message", .string diagnostic.message),
    ("labels", .array (diagnostic.labels.map (·.record files))),
    ("notes", .array (diagnostic.notes.map .string)),
    ("suggestions", .array (diagnostic.suggestions.map .string))]

def summaryRecord (errors warnings : Nat) : Json :=
  .object [("type", .string "summary"), ("errors", .ofNat errors), ("warnings", .ofNat warnings)]

/-- A record that is not written in full is not ended by a newline either. -/
def recordLine (serializer : Json.Serializer) (record : Json) : String :=
  let written := serializer.compact record
  if written.isWhole then written.text ++ "\n" else written.text

def recordLines (records : List Json) (serializer : Json.Serializer := .standard) : String :=
  String.join (records.map (recordLine serializer))

end ErrorWrapping
