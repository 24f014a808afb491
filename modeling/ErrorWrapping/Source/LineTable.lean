import ErrorWrapping.Sorted
import ErrorWrapping.Text.Bytes

/-
Line starts.

The table of a text lists the offsets at which its lines start: the first line at zero, every
other one after a newline byte. The line of an offset is searched for among them.
-/

namespace ErrorWrapping

structure LineTable where
  starts : Array Nat

namespace LineTable

/-- Adds the lines that start after the newlines among bytes, the first of which has this offset. -/
def scan (offset : Nat) (starts : Array Nat) : List UInt8 → Array Nat
  | [] => starts
  | byte :: rest =>
    scan (offset + 1) (if byte = Text.newline then starts.push (offset + 1) else starts) rest

def build (text : List Char) : LineTable :=
  ⟨scan 0 #[0] (Text.bytes text)⟩

def indexOf (table : LineTable) (offset : Nat) : Nat :=
  match Sorted.search table.starts offset with
  | .ok index => index
  | .error index => index - 1

def start? (table : LineTable) (line : Nat) : Option Nat :=
  if line = 0 then none else table.starts[line - 1]?

/-- Where the line of an index ends in a text of this size. -/
def stop (table : LineTable) (index size : Nat) : Nat :=
  match table.starts[index + 1]? with
  | none => size
  | some next => next - 1

end LineTable

end ErrorWrapping
