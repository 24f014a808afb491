import ErrorWrapping.Json.Value

/-
Records inside JSON values.

A record with named fields is written as an object, with its fields in any order and no others,
or as an array of its fields in order, of which the last ones may be left off. A choice between
kinds of records is told by the member `kind`, or by the first item of the array. Inside another
choice the kind may also be given by its number.
-/

namespace ErrorWrapping.Json

def fields? (names : List String) : Json → Option (List (Option Json))
  | .object members =>
    let given := members.map (·.1)
    if given.all (names.contains ·) && decide given.Nodup then some (names.map (members.lookup ·))
    else none
  | .array items =>
    if items.length ≤ names.length then
      some (items.map some ++ List.replicate (names.length - items.length) none)
    else none
  | _ => none

/-- The name of a kind, given by itself or, where that is allowed, by its number. -/
def kindName? (numbered : Bool) (kinds : List String) : Json → Option String
  | .string name => if kinds.contains name then some name else none
  | .number value => if numbered then value.natural?.bind (kinds[·]?) else none
  | _ => none

def kind? (numbered : Bool) (kinds : List String) : Json → Option (String × Json)
  | .object members => do
    let (tags, others) := members.partition (·.1 == "kind")
    match tags with
    | [(_, tag)] => return (← kindName? numbered kinds tag, .object others)
    | _ => none
  | .array (tag :: items) => do return (← kindName? numbered kinds tag, .array items)
  | _ => none

/-! ### Readers of one field -/

def required {α : Type} (read : Json → Option α) (field : Option Json) : Option α :=
  field.bind read

def withDefault {α : Type} (value : α) (read : Json → Option α) : Option Json → Option α
  | none => some value
  | some field => read field

/-- A field that may be left off or be null. -/
def optional {α : Type} (read : Json → Option α) : Option Json → Option (Option α)
  | none => some none
  | some .null => some none
  | some field => (read field).map some

def list {α : Type} (read : Json → Option α) : Json → Option (List α)
  | .array items => items.mapM read
  | _ => none

end ErrorWrapping.Json
