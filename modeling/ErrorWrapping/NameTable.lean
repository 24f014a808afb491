import ErrorWrapping.Catalog

/-
Names by number.

A name table numbers the texts entered into it in order of first entry; the empty text is number
zero from the start. Entering a text again gives the number it already has. Numbers have 32 bits,
so a table with a text for each of them takes no further ones.
-/

namespace ErrorWrapping

structure NameTable where
  catalog : Catalog String

def NameTable.capacity : Nat := UInt32.size

inductive NameFault where
  | full (count : Nat)
  deriving DecidableEq

def NameFault.message : NameFault → String
  | .full count =>
    "interner exceeded capacity: " ++ toString count ++ " strings, max is " ++
      toString (NameTable.capacity - 1)

namespace NameTable

def initial : NameTable := ⟨(Catalog.empty.enter "").2⟩

def size (table : NameTable) : Nat := table.catalog.size

def get? (table : NameTable) (text : String) : Option Nat :=
  table.catalog.number? text

/-- The number of a text, and the table in which it has that number, if one is left for it. -/
def enter? (table : NameTable) (text : String) : Except NameFault (Nat × NameTable) :=
  match table.get? text with
  | some number => .ok (number, table)
  | none =>
    if table.size < capacity then
      let (number, catalog) := table.catalog.enter text
      .ok (number, ⟨catalog⟩)
    else .error (.full table.size)

def enter (table : NameTable) (text : String) : Nat × NameTable :=
  match table.enter? text with
  | .ok entered => entered
  | .error _ => (0, table)

/-- The text of a number; a number not given out stands for the empty text. -/
def text (table : NameTable) (number : Nat) : String :=
  (table.catalog.item? number).getD ""

def isEmpty (table : NameTable) : Bool := table.size ≤ 1

end NameTable

end ErrorWrapping
