import ErrorWrapping.Identifiers
import ErrorWrapping.Verdict
import Std.Data.ExtTreeMap

/-
Facts.

A fact is the verdict on one symbol. A store of facts only grows: a verdict, once recorded, is
final, and a second verdict for its symbol is refused. Facts live in a table, or in a layer over
a table that is not to change while several units are checked side by side.
-/

namespace ErrorWrapping

inductive FactError where
  | alreadyRecorded (symbol : SymbolId) (existing : Verdict)
  deriving DecidableEq

def FactError.message : FactError → String
  | .alreadyRecorded symbol existing =>
    "verdict for " ++ symbol.describe ++ " already recorded as " ++ existing.describe

class FactStore (σ : Type) where
  verdict? : σ → SymbolId → Option Verdict
  record : σ → SymbolId → Verdict → Except FactError σ

/-! ### Tables -/

structure FactTable where
  verdicts : Std.ExtTreeMap Nat Verdict compare

namespace FactTable

def empty : FactTable := ⟨∅⟩

instance : Inhabited FactTable := ⟨empty⟩

def verdict? (table : FactTable) (symbol : SymbolId) : Option Verdict :=
  table.verdicts[symbol.index]?

def size (table : FactTable) : Nat := table.verdicts.size

def isEmpty (table : FactTable) : Bool := table.verdicts.isEmpty

def entries (table : FactTable) : List (SymbolId × Verdict) :=
  table.verdicts.toList.map fun (index, verdict) => (⟨index⟩, verdict)

def record (table : FactTable) (symbol : SymbolId) (verdict : Verdict) :
    Except FactError FactTable :=
  match table.verdict? symbol with
  | some existing => .error (.alreadyRecorded symbol existing)
  | none => .ok ⟨table.verdicts.insert symbol.index verdict⟩

/-- Records one fact unless its symbol has a verdict; keeps the first refusal. -/
def absorb (state : FactTable × Option FactError) (fact : SymbolId × Verdict) :
    FactTable × Option FactError :=
  match state.1.record fact.1 fact.2 with
  | .ok table => (table, state.2)
  | .error refusal => (state.1, state.2 <|> some refusal)

/-- Adds the facts of another table whose symbols have no verdict yet; also gives the first
conflict in the order of symbols. -/
def merge (table other : FactTable) : FactTable × Option FactError :=
  other.entries.foldl absorb (table, none)

instance : FactStore FactTable := ⟨verdict?, record⟩

instance : BEq FactTable := ⟨fun left right => left.entries == right.entries⟩

end FactTable

/-! ### Layers -/

structure FactLayer where
  base : FactTable
  added : FactTable

namespace FactLayer

def ofTable (base : FactTable) : FactLayer := ⟨base, .empty⟩

def verdict? (layer : FactLayer) (symbol : SymbolId) : Option Verdict :=
  layer.added.verdict? symbol <|> layer.base.verdict? symbol

def record (layer : FactLayer) (symbol : SymbolId) (verdict : Verdict) :
    Except FactError FactLayer :=
  match layer.base.verdict? symbol with
  | some existing => .error (.alreadyRecorded symbol existing)
  | none => (layer.added.record symbol verdict).map fun added => { layer with added }

instance : FactStore FactLayer := ⟨verdict?, record⟩

end FactLayer

end ErrorWrapping
