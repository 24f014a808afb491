import ErrorWrapping.Identifiers

/-
Function symbols.

A symbol is the identity of a function or method across the program: facts are kept by symbol,
and the list of wrappers is matched against the signature of a symbol.
-/

namespace ErrorWrapping

structure Symbol where
  package : String
  name : String
  receiver : Option String
  signature : String
  results : List TypeId
  deriving DecidableEq, Inhabited

namespace Symbol

/-- The name by which a dump refers to a function: `pkg.Name` or `pkg.Recv.Name`. -/
def keyOf (package : String) (receiver : Option String) (name : String) : String :=
  match receiver with
  | some receiver => package ++ "." ++ receiver ++ "." ++ name
  | none => package ++ "." ++ name

def key (symbol : Symbol) : String :=
  keyOf symbol.package symbol.receiver symbol.name

/-- The name shown to people: `pkg.Name` or `pkg.(Recv).Name`. -/
def qualified (symbol : Symbol) : String :=
  match symbol.receiver with
  | some receiver => symbol.package ++ ".(" ++ receiver ++ ")." ++ symbol.name
  | none => symbol.package ++ "." ++ symbol.name

def isMethod (symbol : Symbol) : Bool :=
  symbol.receiver.isSome

end Symbol

structure SymbolTable where
  symbols : Array Symbol := #[]

namespace SymbolTable

def empty : SymbolTable := {}

def size (table : SymbolTable) : Nat := table.symbols.size

def add (table : SymbolTable) (symbol : Symbol) : SymbolId × SymbolTable :=
  (⟨table.symbols.size⟩, ⟨table.symbols.push symbol⟩)

def ofList (symbols : List Symbol) : SymbolTable := ⟨symbols.toArray⟩

def get? (table : SymbolTable) (id : SymbolId) : Option Symbol :=
  table.symbols[id.index]?

def toList (table : SymbolTable) : List (SymbolId × Symbol) :=
  table.symbols.toList.zipIdx.map fun (symbol, index) => (⟨index⟩, symbol)

end SymbolTable

end ErrorWrapping
