import ErrorWrapping.Json.Value

/-
JSON text.

The compact form has no blanks. The indented form puts every member of an object and every item
of an array on a line of its own, two blanks deeper than its parent. In strings only the quote,
the backslash and the control characters below U+0020 are escaped.
-/

namespace ErrorWrapping.Json

def hexDigit (n : Nat) : Char :=
  if n < 10 then Char.ofNat (0x30 + n) else Char.ofNat (0x61 + (n - 10))

def escape (c : Char) : List Char :=
  if c = '"' then ['\\', '"']
  else if c = '\\' then ['\\', '\\']
  else if c = '\n' then ['\\', 'n']
  else if c = '\r' then ['\\', 'r']
  else if c = '\t' then ['\\', 't']
  else if c = '\x08' then ['\\', 'b']
  else if c = '\x0c' then ['\\', 'f']
  else if c.toNat < 0x20 then
    ['\\', 'u', '0', '0', hexDigit (c.toNat / 16), hexDigit (c.toNat % 16)]
  else [c]

def writeString (text : String) (rest : List Char) : List Char :=
  '"' :: text.toList.flatMap escape ++ '"' :: rest

def Number.write (value : Number) (rest : List Char) : List Char :=
  let exponent := match value.exponent with
    | none => rest
    | some text => 'e' :: text ++ rest
  let fraction := match value.fraction with
    | none => exponent
    | some digits => '.' :: digits ++ exponent
  let whole := Nat.toDigits 10 value.whole ++ fraction
  if value.negative then '-' :: whole else whole

/- Each writer puts its text in front of the text that follows. -/
mutual

def write : Json → List Char → List Char
  | .null, rest => 'n' :: 'u' :: 'l' :: 'l' :: rest
  | .bool true, rest => 't' :: 'r' :: 'u' :: 'e' :: rest
  | .bool false, rest => 'f' :: 'a' :: 'l' :: 's' :: 'e' :: rest
  | .number value, rest => value.write rest
  | .string text, rest => writeString text rest
  | .array [], rest => '[' :: ']' :: rest
  | .array (item :: items), rest => '[' :: write item (writeItems items rest)
  | .object [], rest => '\x7b' :: '\x7d' :: rest
  | .object ((name, value) :: members), rest =>
    '\x7b' :: writeString name (':' :: write value (writeMembers members rest))

def writeItems : List Json → List Char → List Char
  | [], rest => ']' :: rest
  | item :: items, rest => ',' :: write item (writeItems items rest)

def writeMembers : List (String × Json) → List Char → List Char
  | [], rest => '\x7d' :: rest
  | (name, value) :: members, rest =>
    ',' :: writeString name (':' :: write value (writeMembers members rest))

end

def compact (value : Json) : String :=
  String.ofList (value.write [])

def lineBreak (depth : Nat) (rest : List Char) : List Char :=
  '\n' :: List.replicate (2 * depth) ' ' ++ rest

mutual

def writeIndented (depth : Nat) : Json → List Char → List Char
  | .array (item :: items), rest =>
    '[' :: lineBreak (depth + 1)
      (writeIndented (depth + 1) item (writeIndentedItems depth items rest))
  | .object ((name, value) :: members), rest =>
    '\x7b' :: lineBreak (depth + 1) (writeString name
      (':' :: ' ' :: writeIndented (depth + 1) value (writeIndentedMembers depth members rest)))
  | .null, rest => write .null rest
  | .bool value, rest => write (.bool value) rest
  | .number value, rest => value.write rest
  | .string text, rest => writeString text rest
  | .array [], rest => '[' :: ']' :: rest
  | .object [], rest => '\x7b' :: '\x7d' :: rest

def writeIndentedItems (depth : Nat) : List Json → List Char → List Char
  | [], rest => lineBreak depth (']' :: rest)
  | item :: items, rest =>
    ',' :: lineBreak (depth + 1)
      (writeIndented (depth + 1) item (writeIndentedItems depth items rest))

def writeIndentedMembers (depth : Nat) : List (String × Json) → List Char → List Char
  | [], rest => lineBreak depth ('\x7d' :: rest)
  | (name, value) :: members, rest =>
    ',' :: lineBreak (depth + 1) (writeString name
      (':' :: ' ' :: writeIndented (depth + 1) value (writeIndentedMembers depth members rest)))

end

def indented (value : Json) : String :=
  String.ofList (value.writeIndented 0 [])

/-- What is written of a value, and whether that is all of it. -/
structure Written where
  text : String
  isWhole : Bool
  deriving DecidableEq

/-- How values are written, compact and indented. -/
structure Serializer where
  compact : Json → Written
  indented : Json → String

def Serializer.standard : Serializer where
  compact value := ⟨value.compact, true⟩
  indented := Json.indented

end ErrorWrapping.Json
