/-
Blank characters and trimming.

A character is blank when it has the Unicode property White_Space. Trimming removes blank
characters from the ends of a text and leaves the inside alone.
-/

namespace ErrorWrapping.Text

/-- The characters with the Unicode property White_Space. -/
def isBlank (c : Char) : Bool :=
  let n := c.toNat
  (0x09 ≤ n && n ≤ 0x0D) || n == 0x20 || n == 0x85 || n == 0xA0 || n == 0x1680 ||
    (0x2000 ≤ n && n ≤ 0x200A) || n == 0x2028 || n == 0x2029 || n == 0x202F || n == 0x205F ||
    n == 0x3000

def dropEnd (drop : Char → Bool) (chars : List Char) : List Char :=
  (chars.reverse.dropWhile drop).reverse

def trimChars (chars : List Char) : List Char :=
  dropEnd isBlank (chars.dropWhile isBlank)

def trim (text : String) : String :=
  String.ofList (trimChars text.toList)

def trimEnd (text : String) : String :=
  String.ofList (dropEnd isBlank text.toList)

theorem length_dropEnd_le (drop : Char → Bool) (chars : List Char) :
    (dropEnd drop chars).length ≤ chars.length := by
  have bound := (List.dropWhile_suffix drop (l := chars.reverse)).length_le
  simp only [dropEnd, List.length_reverse] at bound ⊢
  exact bound

theorem length_trimChars_le (chars : List Char) : (trimChars chars).length ≤ chars.length :=
  Nat.le_trans (length_dropEnd_le _ _) (List.dropWhile_suffix _).length_le

end ErrorWrapping.Text
