/-
JSON values.

A number keeps the digits it was written with, so that a natural number is told apart from a
number with a sign, a fraction or an exponent. An object keeps its members in order and may
name a member twice; whether that is allowed is for the consumer to say.
-/

namespace ErrorWrapping

/-- A number as written: sign, integer part, digits after the point, text of the exponent. -/
structure Json.Number where
  negative : Bool
  whole : Nat
  fraction : Option (List Char)
  exponent : Option (List Char)
  deriving DecidableEq

inductive Json where
  | null
  | bool (value : Bool)
  | number (value : Json.Number)
  | string (value : String)
  | array (items : List Json)
  | object (members : List (String × Json))
  deriving Inhabited

namespace Json

/-- The natural number a literal denotes; none for a literal with sign, fraction or exponent. -/
def Number.natural? (value : Number) : Option Nat :=
  if value.negative || value.fraction.isSome || value.exponent.isSome then none
  else some value.whole

def Number.ofNat (value : Nat) : Number :=
  ⟨false, value, none, none⟩

@[simp]
theorem Number.natural?_ofNat (value : Nat) : (Number.ofNat value).natural? = some value := rfl

def ofNat (value : Nat) : Json :=
  .number (.ofNat value)

def natural? : Json → Option Nat
  | .number value => value.natural?
  | _ => none

def string? : Json → Option String
  | .string value => some value
  | _ => none

def array? : Json → Option (List Json)
  | .array items => some items
  | _ => none

def member? (name : String) : Json → Option Json
  | .object members => members.lookup name
  | _ => none

end Json

end ErrorWrapping
