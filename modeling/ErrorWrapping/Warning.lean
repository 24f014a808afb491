import ErrorWrapping.Facts

/-
Warnings.

A warning tells of input that is taken with a grain of salt, and never changes a result. It has
a message and named details.
-/

namespace ErrorWrapping

inductive Warning where
  | duplicateSymbol (package name : String)
  | cyclicType (name : String)
  | unknownType (name : String)
  | unknownUnitFile (unit file : String)
  | unknownFunctionFile (unit file : String)
  | unknownSymbol (unit key : String)
  | unknownVariable (unit id : String)
  | danglingSymbol (unit : String) (symbol : SymbolId)
  | danglingVariable (unit : String) (var : VarId)
  | unknownUnit
  | verdictRefused (function : String) (refusal : FactError)
  | importCycle (unit : String)
  | mergeConflict (unit : String) (conflict : FactError)
  | noThreadPool (cause : String)
  deriving DecidableEq

namespace Warning

def message : Warning → String
  | .duplicateSymbol _ _ => "duplicate symbol; the last one wins"
  | .cyclicType _ => "cyclic type declaration"
  | .unknownType _ => "unknown type"
  | .unknownUnitFile _ _ => "unit lists an unknown file"
  | .unknownFunctionFile _ _ => "function in an unknown file"
  | .unknownSymbol _ _ => "unknown symbol"
  | .unknownVariable _ _ => "unknown variable"
  | .danglingSymbol _ _ => "call references an unknown symbol"
  | .danglingVariable _ _ => "identifier bound to an unknown variable"
  | .unknownUnit => "unknown unit"
  | .verdictRefused _ _ => "verdict not recorded"
  | .importCycle _ => "import cycle; checking unit before its imports"
  | .mergeConflict _ _ => "conflicting facts while merging"
  | .noThreadPool cause => "failed to create thread pool (" ++ cause ++ "), running sequentially"

def details : Warning → List (String × String)
  | .duplicateSymbol package name => [("name", name), ("package", package)]
  | .cyclicType name => [("ty", name)]
  | .unknownType name => [("ty", name)]
  | .unknownUnitFile unit file => [("file", file), ("unit", unit)]
  | .unknownFunctionFile unit file => [("file", file), ("unit", unit)]
  | .unknownSymbol unit key => [("symbol", key), ("unit", unit)]
  | .unknownVariable unit id => [("unit", unit), ("var", id)]
  | .danglingSymbol unit symbol => [("symbol", symbol.describe), ("unit", unit)]
  | .danglingVariable unit var => [("unit", unit), ("var", var.describe)]
  | .unknownUnit => []
  | .verdictRefused function refusal => [("err", refusal.message), ("function", function)]
  | .importCycle unit => [("unit", unit)]
  | .mergeConflict unit conflict => [("err", conflict.message), ("unit", unit)]
  | .noThreadPool _ => []

end Warning

end ErrorWrapping
