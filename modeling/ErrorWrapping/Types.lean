import ErrorWrapping.Catalog
import ErrorWrapping.Identifiers

/-
Types.

A type table numbers type forms in order of first entry, and enters each form once, so that two
types are equal exactly when their numbers are. Number zero is the invalid type and number one
the predeclared `error` interface. The checker asks little of a type: whether it is `error`,
whether its underlying type is an interface, and where a tuple holds errors.
-/

namespace ErrorWrapping

inductive TypeForm where
  | invalid
  | error
  | basic (name : String)
  | named (name : String) (underlying : TypeId)
  | interface (methods : List String)
  | struct
  | pointer (target : TypeId)
  /-- The value of a call with several results. -/
  | tuple (elements : List TypeId)
  | func (params results : List TypeId)
  deriving DecidableEq, Hashable, Inhabited

structure TypeTable where
  catalog : Catalog TypeForm

namespace TypeTable

def initial : TypeTable := ⟨((Catalog.empty.enter .invalid).2.enter .error).2⟩

def forms (table : TypeTable) : Array TypeForm := table.catalog.items

def size (table : TypeTable) : Nat := table.forms.size

def isEmpty (table : TypeTable) : Bool := table.forms.isEmpty

def get? (table : TypeTable) (id : TypeId) : Option TypeForm :=
  table.forms[id.index]?

def enter (table : TypeTable) (form : TypeForm) : TypeId × TypeTable :=
  let (number, catalog) := table.catalog.enter form
  (⟨number⟩, ⟨catalog⟩)

/-- Follows at most `steps` links from a declared type to the type it is declared as. -/
def follow (table : TypeTable) : Nat → TypeId → TypeId
  | 0, _ => .invalid
  | steps + 1, id =>
    match table.get? id with
    | some (.named _ underlying) => table.follow steps underlying
    | _ => id

/-- Longest chain of declared types that is followed, its end included. -/
def chainLimit : Nat := 32

def underlying (table : TypeTable) (id : TypeId) : TypeId :=
  table.follow chainLimit id

/-- Whether a type is `error` itself; a declared type that merely is an error does not count. -/
def isError (table : TypeTable) (id : TypeId) : Bool :=
  table.get? id == some .error

def isInterface (table : TypeTable) (id : TypeId) : Bool :=
  match table.get? (table.underlying id) with
  | some (.interface _) => true
  | some .error => true
  | _ => false

def positionsFrom {α : Type} (test : α → Bool) : Nat → List α → List Nat
  | _, [] => []
  | start, element :: rest =>
    if test element then start :: positionsFrom test (start + 1) rest
    else positionsFrom test (start + 1) rest

/-- The positions at which a tuple type holds `error`; none for any other type. -/
def errorPositions (table : TypeTable) (id : TypeId) : List Nat :=
  match table.get? id with
  | some (.tuple elements) => positionsFrom table.isError 0 elements
  | _ => []

def resultsType (table : TypeTable) (results : List TypeId) : TypeId × TypeTable :=
  match results with
  | [] => (.invalid, table)
  | [single] => (single, table)
  | many => table.enter (.tuple many)

/-- The text of a type, with types inside it shown at most `depth` deep. -/
def describeWithin (table : TypeTable) : Nat → TypeId → String
  | 0, _ => ""
  | depth + 1, id =>
    match table.get? id with
    | none => "invalid type"
    | some .invalid => "invalid type"
    | some .error => "error"
    | some (.basic name) => name
    | some (.named name _) => name
    | some (.interface _) => "interface\x7b...\x7d"
    | some .struct => "struct\x7b...\x7d"
    | some (.pointer target) => "*" ++ table.describeWithin depth target
    | some (.tuple elements) =>
      "(" ++ ", ".intercalate (elements.map (table.describeWithin depth)) ++ ")"
    | some (.func _ _) => "func(...)"

def describe (table : TypeTable) (id : TypeId) : String :=
  table.describeWithin (table.size + 1) id

end TypeTable

end ErrorWrapping
