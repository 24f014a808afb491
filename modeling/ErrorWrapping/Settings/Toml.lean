import ErrorWrapping.Json.Reader

/-
Reading TOML.

The reader takes documents whose entries are strings or lists of strings under plain or quoted
keys. All four kinds of string are read, with blanks, line ends and comments where TOML allows
them. Tables, dotted keys and values of other kinds are refused.
-/

namespace ErrorWrapping.Toml

inductive Value where
  | string (text : String)
  | list (items : List String)
  deriving DecidableEq

/-! ### Characters -/

def isGap (c : Char) : Bool :=
  c = ' ' || c = '\t'

/-- Characters that comments and strings may hold as they are: no control character but the tab. -/
def isPlain (c : Char) : Bool :=
  c = '\t' || (0x20 ≤ c.toNat && c.toNat ≠ 0x7F)

def isKeyChar (c : Char) : Bool :=
  c.isAlphanum || c = '-' || c = '_'

def lineEnd? : List Char → Option (List Char)
  | '\n' :: rest => some rest
  | '\r' :: '\n' :: rest => some rest
  | _ => none

def skipBlankLines : List Char → List Char
  | '\n' :: rest => skipBlankLines rest
  | '\r' :: '\n' :: rest => skipBlankLines rest
  | c :: rest => if isGap c then skipBlankLines rest else c :: rest
  | [] => []

/-- Skips blanks, line ends and comments; `comment` tells whether the input starts inside one. -/
def skipFiller : Bool → List Char → List Char
  | _, '\n' :: rest => skipFiller false rest
  | _, '\r' :: '\n' :: rest => skipFiller false rest
  | true, c :: rest => if isPlain c then skipFiller true rest else c :: rest
  | false, c :: rest =>
    if isGap c then skipFiller false rest
    else if c = '#' then skipFiller true rest
    else c :: rest
  | _, [] => []

theorem length_lineEnd? {input rest : List Char} (h : lineEnd? input = some rest) :
    rest.length < input.length := by
  unfold lineEnd? at h
  split at h
  · cases h
    simp
  · cases h
    simp only [List.length_cons]
    omega
  · cases h

theorem length_skipBlankLines (input : List Char) :
    (skipBlankLines input).length ≤ input.length := by
  fun_induction skipBlankLines input with
  | case1 rest ih => exact Nat.le_succ_of_le ih
  | case2 rest ih => exact Nat.le_succ_of_le (Nat.le_succ_of_le ih)
  | case3 c rest _ _ _ ih => exact Nat.le_succ_of_le ih
  | case4 => exact Nat.le_refl _
  | case5 => exact Nat.le_refl _

/-! ### Escapes -/

def simpleEscape? (c : Char) : Option Char :=
  if c = '"' then some '"'
  else if c = '\\' then some '\\'
  else if c = 'b' then some '\x08'
  else if c = 't' then some '\t'
  else if c = 'n' then some '\n'
  else if c = 'f' then some '\x0c'
  else if c = 'r' then some '\r'
  else none

def charOf? (value : Nat) : Option Char :=
  if value.isValidChar then some (Char.ofNat value) else none

def escape? : List Char → Option (Char × List Char)
  | 'u' :: a :: b :: c :: d :: rest => do
    let value ← Json.hexQuad? a b c d
    return (← charOf? value, rest)
  | 'U' :: a :: b :: c :: d :: e :: f :: g :: h :: rest => do
    let high ← Json.hexQuad? a b c d
    let low ← Json.hexQuad? e f g h
    return (← charOf? (high * 0x10000 + low), rest)
  | c :: rest => (simpleEscape? c).map fun char => (char, rest)
  | [] => none

theorem length_escape? {input rest : List Char} {c : Char} (h : escape? input = some (c, rest)) :
    rest.length < input.length := by
  unfold escape? at h
  split at h
  · simp only [Option.bind_eq_bind, Option.bind_eq_some_iff] at h
    obtain ⟨_, _, _, _, hResult⟩ := h
    cases hResult
    simp only [List.length_cons]
    omega
  · simp only [Option.bind_eq_bind, Option.bind_eq_some_iff] at h
    obtain ⟨_, _, _, _, _, _, hResult⟩ := h
    cases hResult
    simp only [List.length_cons]
    omega
  · obtain ⟨_, _, hResult⟩ := Option.map_eq_some_iff.1 h
    cases hResult
    simp
  · cases h

/-- What follows a backslash at the end of a line: the blanks after it are skipped with it. -/
def joinLines? (input : List Char) : Option (List Char) :=
  (lineEnd? (input.dropWhile isGap)).map skipBlankLines

theorem length_joinLines? {input rest : List Char} (h : joinLines? input = some rest) :
    rest.length < input.length := by
  obtain ⟨line, hLine, rfl⟩ := Option.map_eq_some_iff.1 h
  have hEnd := length_lineEnd? hLine
  have hSkip := length_skipBlankLines line
  have hDrop := (List.dropWhile_sublist (l := input) isGap).length_le
  omega

/-! ### Strings

Each reader starts after the opening quotes and gives the text and what follows the closing ones;
`done` holds the characters read so far, last one first. -/

def finish (done rest : List Char) : Option (String × List Char) :=
  some (String.ofList done.reverse, rest)

def readBasic (done input : List Char) : Option (String × List Char) :=
  match input with
  | [] => none
  | '"' :: rest => finish done rest
  | '\\' :: rest =>
    match h : escape? rest with
    | none => none
    | some (c, after) =>
      have := length_escape? h
      readBasic (c :: done) after
  | c :: rest => if isPlain c then readBasic (c :: done) rest else none
termination_by input.length
decreasing_by all_goals (simp_all; try omega)

def readLiteral (done : List Char) : List Char → Option (String × List Char)
  | [] => none
  | '\x27' :: rest => finish done rest
  | c :: rest => if isPlain c then readLiteral (c :: done) rest else none

/-- A string in three double quotes. Up to two quotes may stand before the closing three. -/
def readLongBasic (done input : List Char) : Option (String × List Char) :=
  match input with
  | [] => none
  | '"' :: '"' :: '"' :: '"' :: '"' :: rest => finish ('"' :: '"' :: done) rest
  | '"' :: '"' :: '"' :: '"' :: rest => finish ('"' :: done) rest
  | '"' :: '"' :: '"' :: rest => finish done rest
  | '\n' :: rest => readLongBasic ('\n' :: done) rest
  | '\r' :: '\n' :: rest => readLongBasic ('\n' :: done) rest
  | '\\' :: rest =>
    match hJoin : joinLines? rest with
    | some after =>
      have := length_joinLines? hJoin
      readLongBasic done after
    | none =>
      match hEscape : escape? rest with
      | none => none
      | some (c, after) =>
        have := length_escape? hEscape
        readLongBasic (c :: done) after
  | c :: rest => if isPlain c then readLongBasic (c :: done) rest else none
termination_by input.length
decreasing_by all_goals (simp_all; try omega)

def readLongLiteral (done : List Char) : List Char → Option (String × List Char)
  | [] => none
  | '\x27' :: '\x27' :: '\x27' :: '\x27' :: '\x27' :: rest => finish ('\x27' :: '\x27' :: done) rest
  | '\x27' :: '\x27' :: '\x27' :: '\x27' :: rest => finish ('\x27' :: done) rest
  | '\x27' :: '\x27' :: '\x27' :: rest => finish done rest
  | '\n' :: rest => readLongLiteral ('\n' :: done) rest
  | '\r' :: '\n' :: rest => readLongLiteral ('\n' :: done) rest
  | c :: rest => if isPlain c then readLongLiteral (c :: done) rest else none

/-- A line end right after three opening quotes is not part of the string. -/
def dropLineEnd (input : List Char) : List Char :=
  (lineEnd? input).getD input

def readString : List Char → Option (String × List Char)
  | '"' :: '"' :: '"' :: rest => readLongBasic [] (dropLineEnd rest)
  | '"' :: rest => readBasic [] rest
  | '\x27' :: '\x27' :: '\x27' :: rest => readLongLiteral [] (dropLineEnd rest)
  | '\x27' :: rest => readLiteral [] rest
  | _ => none

/-! ### Entries -/

/-- The items of a list up to its closing bracket. The first argument bounds their number. -/
def readItems : Nat → List String → List Char → Option (List String × List Char)
  | 0, _, _ => none
  | bound + 1, done, input =>
    match skipFiller false input with
    | ']' :: rest => some (done.reverse, rest)
    | input =>
      match readString input with
      | none => none
      | some (item, rest) =>
        match skipFiller false rest with
        | ',' :: rest => readItems bound (item :: done) rest
        | ']' :: rest => some ((item :: done).reverse, rest)
        | _ => none

def readValue : List Char → Option (Value × List Char)
  | '[' :: rest => (readItems (rest.length + 1) [] rest).map
      fun (items, rest) => (.list items, rest)
  | input => (readString input).map fun (text, rest) => (.string text, rest)

def readKey : List Char → Option (String × List Char)
  | '"' :: rest => readBasic [] rest
  | '\x27' :: rest => readLiteral [] rest
  | input =>
    match input.takeWhile isKeyChar with
    | [] => none
    | name => some (String.ofList name, input.dropWhile isKeyChar)

def readEntry (input : List Char) : Option ((String × Value) × List Char) := do
  let (key, rest) ← readKey input
  match rest.dropWhile isGap with
  | '=' :: rest =>
    let (value, rest) ← readValue (rest.dropWhile isGap)
    return ((key, value), rest.dropWhile isGap)
  | _ => none

/-- Whether an entry may end here: at a line end, a comment or the end of the document. -/
def endsEntry : List Char → Bool
  | [] => true
  | '#' :: _ => true
  | input => (lineEnd? input).isSome

def readEntries : Nat → List Char → Option (List (String × Value))
  | 0, _ => none
  | bound + 1, input =>
    match skipFiller false input with
    | [] => some []
    | input =>
      match readEntry input with
      | none => none
      | some (entry, rest) =>
        if endsEntry rest then (readEntries bound rest).map (entry :: ·) else none

/-- The entries of a document, which may start with a byte order mark. -/
def parse? (text : String) : Option (List (String × Value)) :=
  let input := match text.toList with
    | '\uFEFF' :: rest => rest
    | input => input
  readEntries (input.length + 1) input

end ErrorWrapping.Toml
