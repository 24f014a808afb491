import ErrorWrapping.Identifiers
import ErrorWrapping.Source.LineTable
import ErrorWrapping.Source.Span

/-
The files of a program.

The first file starts at offset one, and each later file one offset after the end of the file
before it: the offset just past the last byte of a file still belongs to that file. Positions
are given by line and byte column and are shown by line and character column, all from one.
-/

namespace ErrorWrapping

/-- A file whose line table was made from its text. -/
structure SourceFile where
  path : String
  text : List Char
  base : Nat
  lines : LineTable := .build text
  built : lines = .build text := by rfl

namespace SourceFile

def ofText (path text : String) (base : Nat) : SourceFile :=
  { path, text := text.toList, base }

def size (file : SourceFile) : Nat :=
  Text.byteCount file.text

def contains (file : SourceFile) (offset : Nat) : Bool :=
  file.base ≤ offset && offset - file.base ≤ file.size

end SourceFile

/-- A place in a file, for people: lines and columns count from one, columns in characters. -/
structure Location where
  path : String
  line : Nat
  column : Nat
  deriving DecidableEq

def Location.describe (location : Location) : String :=
  location.path ++ ":" ++ toString location.line ++ ":" ++ toString location.column

structure FileSet where
  files : Array SourceFile := #[]

namespace FileSet

def empty : FileSet := {}

def nextBase (set : FileSet) : Nat :=
  match set.files.back? with
  | none => 1
  | some last => last.base + last.size + 1

def add (set : FileSet) (path text : String) : FileId × FileSet :=
  (⟨set.files.size⟩, ⟨set.files.push (.ofText path text set.nextBase)⟩)

def ofList (files : List (String × String)) : FileSet :=
  files.foldl (fun set (path, text) => (set.add path text).2) empty

def path? (set : FileSet) (file : FileId) : Option String :=
  (set.files[file.index]?).map (·.path)

/-- The offset of a line and byte column of a file, if the file reaches that far. -/
def offset? (set : FileSet) (file : FileId) (line column : Nat) : Option Nat := do
  let source ← set.files[file.index]?
  let start ← source.lines.start? line
  guard (0 < column)
  let within := start + (column - 1)
  guard (within ≤ source.size)
  return source.base + within

/-- The byte at a position, or the dummy span when the file does not reach that far. -/
def spanAt (set : FileSet) (file : FileId) (line column : Nat) : Span :=
  match set.offset? file line column with
  | none => .dummy
  | some start => ⟨start, start + 1⟩

/-- The last file that starts at or before an offset, if it reaches that far. -/
def fileOf? (set : FileSet) (offset : Nat) : Option SourceFile :=
  let after := Sorted.partitionPoint (fun file : SourceFile => file.base ≤ offset) set.files
  if after = 0 then none else set.files[after - 1]?.filter (·.contains offset)

/-- Where an offset lies. An offset that splits a character is shown at column one. -/
def locate? (set : FileSet) (offset : Nat) : Option Location := do
  let file ← set.fileOf? offset
  let within := offset - file.base
  let index := file.lines.indexOf within
  let start := file.lines.starts.getD index 0
  let before := ((Text.slice? file.text start (min within file.size)).map (·.length)).getD 0
  return ⟨file.path, index + 1, before + 1⟩

def lineText? (set : FileSet) (offset : Nat) : Option String := do
  let file ← set.fileOf? offset
  let index := file.lines.indexOf (offset - file.base)
  let start ← file.lines.starts[index]?
  return String.ofList (← Text.slice? file.text start (file.lines.stop index file.size))

def describeSpan (set : Option FileSet) (span : Span) : String :=
  match set.bind (·.locate? span.start) with
  | none => span.describe
  | some location => location.describe

end FileSet

end ErrorWrapping
