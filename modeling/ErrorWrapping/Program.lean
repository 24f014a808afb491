import ErrorWrapping.Source.Files
import ErrorWrapping.Symbols
import ErrorWrapping.Tree.Walk

/-
Programs.

A program is a set of tables and the units that share them. A unit is one package: its files,
its imports, its tree, the functions it declares and its package-level statements.
-/

namespace ErrorWrapping

structure Package where
  id : UnitId
  path : String
  files : List FileId := []
  imports : List String := []
  arena : Arena := {}
  decls : List FuncId := []
  globals : List StmtId := []

namespace Package

/-- Adds an import path unless it is already there. -/
def addImport (unit : Package) (path : String) : Package :=
  if path ∈ unit.imports then unit else { unit with imports := unit.imports ++ [path] }

def addFile (unit : Package) (file : FileId) : Package :=
  { unit with files := unit.files ++ [file] }

def declare (unit : Package) (func : FuncId) : Package :=
  { unit with decls := unit.decls ++ [func] }

def addGlobal (unit : Package) (stmt : StmtId) : Package :=
  { unit with globals := unit.globals ++ [stmt] }

def globalRefs (unit : Package) : List NodeRef :=
  unit.globals.map .stmt

/-- The nodes met by a walk of the body of a function. -/
def bodyNodes? (unit : Package) (func : FuncId) : Option (List NodeRef) := do
  let function ← unit.arena.function? func
  unit.arena.walk .whole (← unit.arena.bodyRefs? function)

def globalNodes? (unit : Package) : Option (List NodeRef) :=
  unit.arena.walk .whole unit.globalRefs

/-- Every node met by a walk of the declared bodies and then the package-level statements. -/
def allNodes? (unit : Package) : Option (List NodeRef) := do
  let bodies ← unit.decls.mapM unit.bodyNodes?
  return bodies.flatten ++ (← unit.globalNodes?)

end Package

structure Program where
  files : FileSet := {}
  types : TypeTable := .initial
  symbols : SymbolTable := {}
  units : Array Package := #[]

namespace Program

def unit? (program : Program) (id : UnitId) : Option Package :=
  program.units[id.index]?

def unitByPath? (program : Program) (path : String) : Option Package :=
  program.units.toList.find? (·.path == path)

def nextUnit (program : Program) : UnitId := ⟨program.units.size⟩

def addUnit (program : Program) (unit : Package) : Program :=
  { program with units := program.units.push unit }

end Program

end ErrorWrapping
