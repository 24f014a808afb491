/-
The bytes of a text.

Offsets count the bytes of the UTF-8 form. A part of a text is cut out between two offsets, if
neither of them splits a character.
-/

namespace ErrorWrapping.Text

def byteCount : List Char → Nat
  | [] => 0
  | c :: rest => c.utf8Size + byteCount rest

def bytes (chars : List Char) : List UInt8 :=
  chars.flatMap String.utf8EncodeChar

def newline : UInt8 := 10

/-- What stands before and after an offset; `none` when the offset splits a character or lies
beyond the end. -/
def splitAt? : Nat → List Char → Option (List Char × List Char)
  | 0, chars => some ([], chars)
  | _ + 1, [] => none
  | offset + 1, c :: rest =>
    if offset + 1 < c.utf8Size then none
    else (splitAt? (offset + 1 - c.utf8Size) rest).map fun (before, after) => (c :: before, after)

def slice? (chars : List Char) (start stop : Nat) : Option (List Char) := do
  guard (start ≤ stop)
  let (_, rest) ← splitAt? start chars
  let (inside, _) ← splitAt? (stop - start) rest
  return inside

/-- The first `limit` bytes of a text; a character cut in half is shown as U+FFFD. -/
def firstBytes : Nat → List Char → List Char
  | _, [] => []
  | limit, c :: rest =>
    if c.utf8Size ≤ limit then c :: firstBytes (limit - c.utf8Size) rest
    else if limit = 0 then []
    else ['\uFFFD']

end ErrorWrapping.Text
