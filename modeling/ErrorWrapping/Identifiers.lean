/-
Identifiers.

Each kind of entry has an identifier type of its own, an index into the table or arena that
holds the entry. Types, symbols, files and units are numbered across the program; expressions,
statements, functions and variables within their unit.
-/

namespace ErrorWrapping

structure FileId where
  index : Nat
  deriving DecidableEq, Hashable, Inhabited

structure TypeId where
  index : Nat
  deriving DecidableEq, Hashable, Inhabited

structure SymbolId where
  index : Nat
  deriving DecidableEq, Hashable, Inhabited

structure UnitId where
  index : Nat
  deriving DecidableEq, Hashable, Inhabited

structure ExprId where
  index : Nat
  deriving DecidableEq, Hashable, Inhabited

structure StmtId where
  index : Nat
  deriving DecidableEq, Hashable, Inhabited

structure FuncId where
  index : Nat
  deriving DecidableEq, Hashable, Inhabited

structure VarId where
  index : Nat
  deriving DecidableEq, Hashable, Inhabited

def describeId (kind : String) (index : Nat) : String :=
  kind ++ "(" ++ toString index ++ ")"

def SymbolId.describe (id : SymbolId) : String := describeId "SymbolId" id.index

def VarId.describe (id : VarId) : String := describeId "VarId" id.index

namespace TypeId

/-- Unknown or untyped. -/
def invalid : TypeId := ⟨0⟩

def error : TypeId := ⟨1⟩

end TypeId

end ErrorWrapping
