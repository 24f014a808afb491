import ErrorWrapping.Json.Value

/-
Reading JSON.

The reader is strict: blanks are the four of the standard, strings hold no raw control character
and no lone surrogate, a number has no superfluous zero in front, nothing follows the value.
Arrays and objects may be nested to a given depth and no deeper.
-/

namespace ErrorWrapping.Json

def isGap (c : Char) : Bool :=
  c = ' ' || c = '\t' || c = '\n' || c = '\r'

def skipGap (input : List Char) : List Char :=
  input.dropWhile isGap

/-! ### Strings -/

def hexValue? (c : Char) : Option Nat :=
  if '0' ≤ c ∧ c ≤ '9' then some (c.toNat - '0'.toNat)
  else if 'a' ≤ c ∧ c ≤ 'f' then some (c.toNat - 'a'.toNat + 10)
  else if 'A' ≤ c ∧ c ≤ 'F' then some (c.toNat - 'A'.toNat + 10)
  else none

def hexQuad? (a b c d : Char) : Option Nat := do
  let a ← hexValue? a
  let b ← hexValue? b
  let c ← hexValue? c
  let d ← hexValue? d
  return ((a * 16 + b) * 16 + c) * 16 + d

/-- The character a pair of surrogates stands for. -/
def joinSurrogates? (high low : Nat) : Option Char :=
  if 0xD800 ≤ high ∧ high < 0xDC00 ∧ 0xDC00 ≤ low ∧ low < 0xE000 then
    some (Char.ofNat (0x10000 + (high - 0xD800) * 0x400 + (low - 0xDC00)))
  else none

def simpleEscape? (c : Char) : Option Char :=
  if c = '"' then some '"'
  else if c = '\\' then some '\\'
  else if c = '/' then some '/'
  else if c = 'b' then some '\x08'
  else if c = 'f' then some '\x0c'
  else if c = 'n' then some '\n'
  else if c = 'r' then some '\r'
  else if c = 't' then some '\t'
  else none

/-- The inside of a string and what follows its closing quote; `done` holds the characters read
so far, last one first. -/
def readString (done : List Char) : List Char → Option (String × List Char)
  | [] => none
  | '"' :: rest => some (String.ofList done.reverse, rest)
  | '\\' :: 'u' :: a :: b :: c :: d :: rest =>
    match hexQuad? a b c d with
    | none => none
    | some unit =>
      if 0xD800 ≤ unit ∧ unit < 0xE000 then
        match rest with
        | '\\' :: 'u' :: e :: f :: g :: h :: rest =>
          match (hexQuad? e f g h).bind (joinSurrogates? unit) with
          | none => none
          | some char => readString (char :: done) rest
        | _ => none
      else readString (Char.ofNat unit :: done) rest
  | '\\' :: c :: rest =>
    match simpleEscape? c with
    | none => none
    | some char => readString (char :: done) rest
  | c :: rest =>
    if c = '\\' ∨ c.toNat < 0x20 then none
    else readString (c :: done) rest

/-! ### Numbers -/

def spanDigits (input : List Char) : List Char × List Char :=
  (input.takeWhile Char.isDigit, input.dropWhile Char.isDigit)

def digitsValue (digits : List Char) : Nat :=
  digits.foldl (fun value c => value * 10 + (c.toNat - '0'.toNat)) 0

def readFraction : List Char → Option (Option (List Char) × List Char)
  | '.' :: rest =>
    match spanDigits rest with
    | ([], _) => none
    | (digits, rest) => some (some digits, rest)
  | rest => some (none, rest)

def readExponent : List Char → Option (Option (List Char) × List Char)
  | c :: rest =>
    if c = 'e' ∨ c = 'E' then
      let (sign, rest) := match rest with
        | '+' :: rest => (['+'], rest)
        | '-' :: rest => (['-'], rest)
        | rest => ([], rest)
      match spanDigits rest with
      | ([], _) => none
      | (digits, rest) => some (some (sign ++ digits), rest)
    else some (none, c :: rest)
  | [] => some (none, [])

def readWhole (input : List Char) : Option (Nat × List Char) :=
  match spanDigits input with
  | ([], _) => none
  | ('0' :: _ :: _, _) => none
  | (digits, rest) => some (digitsValue digits, rest)

def readNumber (input : List Char) : Option (Number × List Char) := do
  let (negative, input) := match input with
    | '-' :: rest => (true, rest)
    | rest => (false, rest)
  let (whole, input) ← readWhole input
  let (fraction, input) ← readFraction input
  let (exponent, input) ← readExponent input
  return (⟨negative, whole, fraction, exponent⟩, input)

/-! ### Values -/

/-- Items separated by commas, up to the closing bracket. The first argument bounds their number. -/
def readItems (item : List Char → Option (Json × List Char)) :
    Nat → List Json → List Char → Option (List Json × List Char)
  | 0, _, _ => none
  | bound + 1, done, input =>
    match item input with
    | none => none
    | some (value, rest) =>
      match skipGap rest with
      | ',' :: rest => readItems item bound (value :: done) rest
      | ']' :: rest => some ((value :: done).reverse, rest)
      | _ => none

def readMembers (item : List Char → Option (Json × List Char)) :
    Nat → List (String × Json) → List Char → Option (List (String × Json) × List Char)
  | 0, _, _ => none
  | bound + 1, done, input =>
    match skipGap input with
    | '"' :: rest =>
      match readString [] rest with
      | none => none
      | some (name, rest) =>
        match skipGap rest with
        | ':' :: rest =>
          match item rest with
          | none => none
          | some (value, rest) =>
            match skipGap rest with
            | ',' :: rest => readMembers item bound ((name, value) :: done) rest
            | '\x7d' :: rest => some (((name, value) :: done).reverse, rest)
            | _ => none
        | _ => none
    | _ => none

def readScalar : List Char → Option (Json × List Char)
  | 'n' :: 'u' :: 'l' :: 'l' :: rest => some (.null, rest)
  | 't' :: 'r' :: 'u' :: 'e' :: rest => some (.bool true, rest)
  | 'f' :: 'a' :: 'l' :: 's' :: 'e' :: rest => some (.bool false, rest)
  | '"' :: rest => (readString [] rest).map fun (text, rest) => (.string text, rest)
  | input => (readNumber input).map fun (value, rest) => (.number value, rest)

/-- One value nested at most `depth` deep, after any blanks. -/
def readValue (bound : Nat) : Nat → List Char → Option (Json × List Char)
  | 0, input =>
    match skipGap input with
    | '[' :: _ => none
    | '\x7b' :: _ => none
    | input => readScalar input
  | depth + 1, input =>
    match skipGap input with
    | '[' :: rest =>
      match skipGap rest with
      | ']' :: rest => some (.array [], rest)
      | rest => (readItems (readValue bound depth) bound [] rest).map
          fun (items, rest) => (.array items, rest)
    | '\x7b' :: rest =>
      match skipGap rest with
      | '\x7d' :: rest => some (.object [], rest)
      | rest => (readMembers (readValue bound depth) bound [] rest).map
          fun (members, rest) => (.object members, rest)
    | input => readScalar input

def parse? (depth : Nat) (text : String) : Option Json :=
  let input := text.toList
  match readValue input.length depth input with
  | none => none
  | some (value, rest) => if (skipGap rest).isEmpty then some value else none

end ErrorWrapping.Json
