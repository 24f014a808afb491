import ErrorWrapping.Text.Bytes
import Mathlib.Data.List.DropRight

/-
Lines by bytes.

A text is what its lines are joined to with newlines between them, so every byte offset of a text
is the length of the text above some line and a position in that line, the end of the line
included. Counting newline bytes up to the offset counts the lines above, because no byte of any
other character is the newline byte.
-/

namespace ErrorWrapping.Text

/-! ### Bytes -/

theorem bytes_cons (c : Char) (rest : List Char) :
    bytes (c :: rest) = String.utf8EncodeChar c ++ bytes rest :=
  List.flatMap_cons

theorem bytes_append (one two : List Char) : bytes (one ++ two) = bytes one ++ bytes two :=
  List.flatMap_append

theorem length_bytes (chars : List Char) : (bytes chars).length = byteCount chars := by
  induction chars with
  | nil => rfl
  | cons c rest ih =>
      rw [bytes_cons, List.length_append, String.length_utf8EncodeChar, ih, byteCount]

theorem byteCount_append (one two : List Char) :
    byteCount (one ++ two) = byteCount one + byteCount two := by
  rw [← length_bytes, bytes_append, List.length_append, length_bytes, length_bytes]

theorem utf8ByteSize_eq (text : String) : text.utf8ByteSize = byteCount text.toList := by
  calc text.utf8ByteSize = (String.ofList text.toList).toByteArray.size := by
        rw [String.ofList_toList]; rfl
    _ = (bytes text.toList).length := by
        rw [String.toByteArray_ofList]; exact List.size_toByteArray
    _ = byteCount text.toList := length_bytes _

theorem utf8EncodeChar_of_ascii {c : Char} (ascii : c.toNat ≤ 127) :
    String.utf8EncodeChar c = [UInt8.ofNat c.toNat] :=
  if_pos ascii

theorem le_of_mem_utf8EncodeChar {c : Char} (several : ¬ c.toNat ≤ 127) {byte : UInt8}
    (member : byte ∈ String.utf8EncodeChar c) : 128 ≤ byte.toNat := by
  dsimp only [String.utf8EncodeChar] at member
  rw [if_neg (show ¬ c.val.toNat ≤ 127 from several)] at member
  split at member
  · simp only [List.mem_cons, List.not_mem_nil, or_false] at member
    rcases member with rfl | rfl <;> rw [UInt8.toNat_ofNat'] <;> omega
  · split at member
    · simp only [List.mem_cons, List.not_mem_nil, or_false] at member
      rcases member with rfl | rfl | rfl <;> rw [UInt8.toNat_ofNat'] <;> omega
    · simp only [List.mem_cons, List.not_mem_nil, or_false] at member
      rcases member with rfl | rfl | rfl | rfl <;> rw [UInt8.toNat_ofNat'] <;> omega

theorem newline_not_mem_utf8EncodeChar {c : Char} (other : c ≠ '\n') :
    newline ∉ String.utf8EncodeChar c := by
  intro member
  by_cases ascii : c.toNat ≤ 127
  · rw [utf8EncodeChar_of_ascii ascii, List.mem_singleton] at member
    have code : newline.toNat = (UInt8.ofNat c.toNat).toNat := congrArg UInt8.toNat member
    rw [UInt8.toNat_ofNat', Nat.mod_eq_of_lt (by omega)] at code
    exact other (Char.toNat_inj.mp code.symm)
  · have high := le_of_mem_utf8EncodeChar ascii member
    exact absurd high (by decide)

/-- As many newline bytes as newline characters. -/
theorem count_newline (chars : List Char) : (bytes chars).count newline = chars.count '\n' := by
  induction chars with
  | nil => rfl
  | cons c rest ih =>
      rw [bytes_cons, List.count_append, ih]
      by_cases same : c = '\n'
      · rw [same, List.count_cons_self, Nat.add_comm]
        rfl
      · rw [List.count_eq_zero.mpr (newline_not_mem_utf8EncodeChar same),
          List.count_cons_of_ne same, Nat.zero_add]

/-! ### Lines -/

/-- The lines of a text; a newline belongs to none of them. -/
def lines : List Char → List (List Char)
  | [] => [[]]
  | c :: rest =>
    if c = '\n' then [] :: lines rest
    else
      match lines rest with
      | [] => [[c]]
      | line :: others => (c :: line) :: others

/-- Where a line starts: after the lines above it and their newlines. -/
def lineStart? : List (List Char) → Nat → Option Nat
  | [], _ => none
  | _ :: _, 0 => some 0
  | line :: others, index + 1 => (lineStart? others index).map (· + (byteCount line + 1))

/-- Index of the line that holds a byte offset, and the offset within that line. The newline that
ends a line is counted to that line; offsets beyond the text fall on the last line. -/
def lineOf : List (List Char) → Nat → Nat × Nat
  | [], offset => (0, offset)
  | [_], offset => (0, offset)
  | line :: others, offset =>
    let size := byteCount line
    if offset ≤ size then (0, offset)
    else
      let (index, within) := lineOf others (offset - (size + 1))
      (index + 1, within)

theorem lines_ne_nil (chars : List Char) : lines chars ≠ [] := by
  cases chars with
  | nil => simp [lines]
  | cons c rest =>
    simp only [lines]
    split
    · simp
    · split <;> simp

theorem lines_eq_splitOn (text : List Char) : lines text = text.splitOn '\n' := by
  induction text with
  | nil => rfl
  | cons c rest ih =>
      rw [List.splitOn_eq_splitOnP, List.splitOnP_cons_eq_if_modifyHead,
        ← List.splitOn_eq_splitOnP, ← ih, lines]
      by_cases same : c = '\n'
      · rw [if_pos same, if_pos (beq_iff_eq.mpr same)]
      · rw [if_neg same, if_neg (by simpa using same)]
        cases found : lines rest with
        | nil => exact absurd found (lines_ne_nil rest)
        | cons line others => rfl

theorem join_lines (text : List Char) : ['\n'].intercalate (lines text) = text := by
  rw [lines_eq_splitOn, List.intercalate_splitOn]

theorem newline_not_mem_line {text line : List Char} (member : line ∈ lines text) :
    '\n' ∉ line := by
  induction text generalizing line with
  | nil =>
      rw [List.mem_singleton.mp member]
      exact List.not_mem_nil
  | cons c rest ih =>
      rw [lines] at member
      split at member
      · rcases List.mem_cons.mp member with rfl | later
        · exact List.not_mem_nil
        · exact ih later
      · rename_i other
        split at member
        · rename_i none
          exact absurd none (lines_ne_nil rest)
        · rename_i first others found
          rcases List.mem_cons.mp member with rfl | later
          · rw [List.mem_cons, not_or]
            exact ⟨Ne.symm other, ih (by rw [found]; exact List.mem_cons_self)⟩
          · exact ih (by rw [found]; exact List.mem_cons_of_mem _ later)

/-- The text above a line, with the newlines. -/
def above (rows : List (List Char)) (index : Nat) : List Char :=
  (rows.take index).flatMap (· ++ ['\n'])

/-- The text from the end of a line on, its newline first. -/
def below (rows : List (List Char)) (index : Nat) : List Char :=
  (rows.drop (index + 1)).flatMap ('\n' :: ·)

variable {rows : List (List Char)} {line : List Char} {index offset within : Nat}

theorem above_succ (first : List Char) (rest : List (List Char)) (index : Nat) :
    above (first :: rest) (index + 1) = first ++ '\n' :: above rest index := by
  rw [above, List.take_succ_cons, List.flatMap_cons, List.append_assoc]
  rfl

theorem byteCount_above_succ (first : List Char) (rest : List (List Char)) (index : Nat) :
    byteCount (above (first :: rest) (index + 1)) =
      byteCount first + 1 + byteCount (above rest index) := by
  rw [above_succ, byteCount_append, byteCount, Nat.add_assoc]
  rfl

theorem join_eq_flatMap (first : List Char) (rest : List (List Char)) :
    ['\n'].intercalate (first :: rest) = first ++ rest.flatMap ('\n' :: ·) := by
  induction rest generalizing first with
  | nil => rw [List.intercalate_singleton, List.flatMap_nil, List.append_nil]
  | cons second rest ih =>
      rw [List.intercalate_cons_cons, ih, List.flatMap_cons, List.append_assoc]
      rfl

theorem join_eq (found : rows[index]? = some line) :
    ['\n'].intercalate rows = above rows index ++ line ++ below rows index := by
  induction rows generalizing index with
  | nil => cases found
  | cons first rest ih =>
      cases index with
      | zero =>
          obtain rfl : first = line := Option.some.inj found
          exact join_eq_flatMap first rest
      | succ index =>
          have nonempty : rest ≠ [] := fun none => by rw [none] at found; cases found
          rw [List.intercalate_cons_of_ne_nil nonempty, ih found, above_succ]
          simp [below]

theorem count_above (plain : ∀ line ∈ rows, '\n' ∉ line) (short : index ≤ rows.length) :
    (above rows index).count '\n' = index := by
  induction rows generalizing index with
  | nil =>
      cases Nat.le_zero.mp short
      rfl
  | cons first rest ih =>
      cases index with
      | zero => rfl
      | succ index =>
          have inner := ih (List.forall_mem_cons.mp plain).2 (Nat.le_of_succ_le_succ short)
          have clean := List.count_eq_zero.mpr (List.forall_mem_cons.mp plain).1
          rw [above_succ, List.count_append, clean, List.count_cons_self, inner, Nat.zero_add]

theorem lineStart?_eq (found : rows[index]? = some line) :
    lineStart? rows index = some (byteCount (above rows index)) := by
  induction rows generalizing index with
  | nil => cases found
  | cons first rest ih =>
      cases index with
      | zero => rfl
      | succ index =>
          rw [lineStart?, ih found, byteCount_above_succ, Option.map_some, Nat.add_comm]

theorem lineOf_cons (first : List Char) {rest : List (List Char)} (more : rest ≠ [])
    (offset : Nat) :
    lineOf (first :: rest) offset =
      if offset ≤ byteCount first then (0, offset)
      else
        let (index, within) := lineOf rest (offset - (byteCount first + 1))
        (index + 1, within) := by
  cases rest with
  | nil => exact absurd rfl more
  | cons second others => rfl

theorem lineOf_eq (found : rows[index]? = some line) (fits : within ≤ byteCount line) :
    lineOf rows (byteCount (above rows index) + within) = (index, within) := by
  induction rows generalizing index with
  | nil => cases found
  | cons first rest ih =>
      cases index with
      | zero =>
          obtain rfl : first = line := Option.some.inj found
          have inside : byteCount (above (first :: rest) 0) + within = within := Nat.zero_add within
          rw [inside]
          cases rest with
          | nil => rfl
          | cons second others => rw [lineOf_cons first (List.cons_ne_nil _ _), if_pos fits]
      | succ index =>
          cases rest with
          | nil => cases found
          | cons second others =>
              have split : byteCount (above (first :: second :: others) (index + 1)) + within =
                  byteCount first + 1 + (byteCount (above (second :: others) index) + within) := by
                rw [byteCount_above_succ, Nat.add_assoc]
              rw [split, lineOf_cons first (List.cons_ne_nil _ _), if_neg (by omega),
                Nat.add_sub_cancel_left, ih found]

/-- Every offset of a text lies on a line. -/
theorem exists_line (nonempty : rows ≠ [])
    (inside : offset ≤ byteCount (['\n'].intercalate rows)) :
    ∃ index line within, rows[index]? = some line ∧ within ≤ byteCount line ∧
      offset = byteCount (above rows index) + within := by
  induction rows generalizing offset with
  | nil => exact absurd rfl nonempty
  | cons first rest ih =>
      by_cases onFirst : offset ≤ byteCount first
      · exact ⟨0, first, offset, rfl, onFirst, (Nat.zero_add offset).symm⟩
      · cases rest with
        | nil => exact absurd inside (by rwa [List.intercalate_singleton])
        | cons second others =>
            rw [List.intercalate_cons_cons, byteCount_append, byteCount_append] at inside
            have newlineSize : byteCount ['\n'] = 1 := rfl
            have beyond : offset - (byteCount first + 1) ≤
                byteCount (['\n'].intercalate (second :: others)) := by omega
            obtain ⟨index, line, within, found, fits, same⟩ := ih (List.cons_ne_nil _ _) beyond
            refine ⟨index + 1, line, within, found, fits, ?_⟩
            rw [byteCount_above_succ, Nat.add_assoc, ← same]
            omega

/-! ### The line at an offset -/

/-- A text is cut around the line at an offset: between two newlines, or between a newline and an
end of the text. The newline that ends a line is counted to that line. -/
structure LineAt (text : List Char) (offset : Nat) (before line after : List Char) : Prop where
  whole : text = before ++ line ++ after
  plain : '\n' ∉ line
  opened : before = [] ∨ ∃ rest, before = rest ++ ['\n']
  closed : after = [] ∨ ∃ rest, after = '\n' :: rest
  start : byteCount before ≤ offset
  stop : offset ≤ byteCount before + byteCount line

/-- The characters after the last newline. -/
def sinceNewline (chars : List Char) : List Char :=
  chars.rtakeWhile (· != '\n')

theorem above_opened (rows : List (List Char)) (index : Nat) :
    above rows index = [] ∨ ∃ rest, above rows index = rest ++ ['\n'] := by
  unfold above
  rcases List.eq_nil_or_concat (rows.take index) with none | ⟨first, last, some⟩
  · exact .inl (by rw [none, List.flatMap_nil])
  · refine .inr ⟨first.flatMap (· ++ ['\n']) ++ last, ?_⟩
    rw [some, List.concat_eq_append, List.flatMap_append, List.flatMap_singleton, List.append_assoc]

theorem below_closed (rows : List (List Char)) (index : Nat) :
    below rows index = [] ∨ ∃ rest, below rows index = '\n' :: rest := by
  unfold below
  cases rows.drop (index + 1) with
  | nil => exact .inl rfl
  | cons next rest => exact .inr ⟨next ++ rest.flatMap ('\n' :: ·), rfl⟩

variable {text before after start : List Char}

theorem exists_lineAt (inside : offset ≤ byteCount text) :
    ∃ before line after, LineAt text offset before line after ∧
      (lines text)[before.count '\n']? = some line ∧
      above (lines text) (before.count '\n') = before ∧
      below (lines text) (before.count '\n') = after := by
  rw [← join_lines text] at inside
  obtain ⟨index, line, within, found, fits, rfl⟩ := exists_line (lines_ne_nil text) inside
  have number : (above (lines text) index).count '\n' = index :=
    count_above (fun _ member => newline_not_mem_line member)
      (Nat.le_of_lt (List.getElem?_eq_some_iff.mp found).1)
  refine ⟨above (lines text) index, line, below (lines text) index,
    ⟨?_, ?_, ?_, ?_, ?_, ?_⟩, ?_, ?_, ?_⟩
  · exact (join_lines text).symm.trans (join_eq found)
  · exact newline_not_mem_line (List.mem_of_getElem? found)
  · exact above_opened _ _
  · exact below_closed _ _
  · exact Nat.le_add_right _ _
  · exact Nat.add_le_add_left fits _
  · rw [number, found]
  · rw [number]
  · rw [number]

/-- The lines above an offset are counted by the newline bytes before it. -/
theorem LineAt.count_newline (locus : LineAt text offset before line after) :
    ((bytes text).take offset).count newline = before.count '\n' := by
  have clean : newline ∉ (bytes line).take (offset - (bytes before).length) := by
    intro member
    have none : (bytes line).count newline = 0 := by
      rw [Text.count_newline, List.count_eq_zero.mpr locus.plain]
    exact List.count_eq_zero.mp none (List.mem_of_mem_take member)
  have short : offset - (bytes before).length ≤ (bytes line).length := by
    rw [length_bytes, length_bytes]
    exact Nat.sub_le_of_le_add (by rw [Nat.add_comm]; exact locus.stop)
  rw [locus.whole, List.append_assoc, bytes_append, bytes_append, List.take_append,
    List.take_of_length_le (by rw [length_bytes]; exact locus.start), List.count_append,
    List.take_append_of_le_length short, List.count_eq_zero.mpr clean, Nat.add_zero,
    Text.count_newline]

theorem eq_nil_of_byteCount {chars : List Char} (none : byteCount chars = 0) : chars = [] := by
  cases chars with
  | nil => rfl
  | cons c rest =>
      have size := c.utf8Size_pos
      rw [byteCount] at none
      omega

/-- Of two beginnings of a text the one with fewer bytes begins the other. -/
theorem prefix_of_byteCount_le {other : List Char} (initial : start <+: text)
    (second : other <+: text) (shorter : byteCount start ≤ byteCount other) : start <+: other := by
  rcases List.prefix_or_prefix_of_prefix initial second with done | ⟨more, rfl⟩
  · exact done
  · rw [byteCount_append] at shorter
    have none : more = [] := eq_nil_of_byteCount (by omega)
    simp only [none, List.append_nil, List.prefix_rfl]

/-! ### Parts of a text -/

theorem splitAt?_eq_some_iff {chars : List Char} :
    splitAt? offset chars = some (before, after) ↔
      chars = before ++ after ∧ byteCount before = offset := by
  fun_induction splitAt? offset chars generalizing before with
  | case1 chars =>
      rw [Option.some.injEq, Prod.mk.injEq]
      constructor
      · rintro ⟨rfl, rfl⟩
        exact ⟨rfl, rfl⟩
      · rintro ⟨rfl, none⟩
        cases eq_nil_of_byteCount none
        exact ⟨rfl, rfl⟩
  | case2 offset =>
      refine ⟨fun impossible => (nomatch impossible), ?_⟩
      rintro ⟨none, size⟩
      rw [(List.append_eq_nil_iff.mp none.symm).1] at size
      cases size
  | case3 offset c rest less =>
      refine ⟨fun impossible => (nomatch impossible), ?_⟩
      rintro ⟨whole, size⟩
      cases before with
      | nil => cases size
      | cons first others =>
          rw [List.cons_append, List.cons.injEq] at whole
          rw [byteCount, ← whole.1] at size
          omega
  | case4 offset c rest more ih =>
      rw [Option.map_eq_some_iff]
      constructor
      · rintro ⟨⟨others, last⟩, split, same⟩
        obtain ⟨rfl, rfl⟩ := Prod.mk.inj same
        obtain ⟨rfl, size⟩ := ih.mp split
        exact ⟨rfl, by rw [byteCount, size]; omega⟩
      · rintro ⟨whole, size⟩
        cases before with
        | nil => cases size
        | cons first others =>
            obtain ⟨rfl, rfl⟩ := List.cons.inj whole
            rw [byteCount] at size
            exact ⟨(others, after), ih.mpr ⟨rfl, by omega⟩, rfl⟩

/-- A part of a text is what stands between so many bytes before and after it. -/
theorem slice?_eq_some_iff {chars inside : List Char} {first last : Nat} :
    slice? chars first last = some inside ↔
      ∃ before after, chars = before ++ inside ++ after ∧ byteCount before = first ∧
        byteCount before + byteCount inside = last := by
  by_cases ordered : first ≤ last
  · simp only [slice?, guard, ordered, if_true, Option.bind_eq_bind, Option.bind_eq_some_iff,
      Prod.exists, splitAt?_eq_some_iff, Option.pure_def, Option.some.injEq]
    constructor
    · rintro ⟨_, _, before, rest, ⟨rfl, rfl⟩, _, after, ⟨rfl, size⟩, rfl⟩
      exact ⟨before, after, (List.append_assoc ..).symm, rfl, by omega⟩
    · rintro ⟨before, after, rfl, rfl, rfl⟩
      exact ⟨(), trivial, before, inside ++ after, ⟨List.append_assoc .., rfl⟩, inside, after,
        ⟨rfl, (Nat.add_sub_cancel_left ..).symm⟩, rfl⟩
  · rw [slice?, guard, if_neg ordered]
    refine ⟨fun impossible => (nomatch impossible), ?_⟩
    rintro ⟨before, after, _, rfl, rfl⟩
    exact absurd (Nat.le_add_right _ _) ordered

theorem length_le_byteCount (chars : List Char) : chars.length ≤ byteCount chars := by
  induction chars with
  | nil => exact Nat.le_refl 0
  | cons c rest ih =>
      have size := c.utf8Size_pos
      rw [List.length_cons, byteCount]
      omega

/-- As far as every byte is a character of its own, there are as many characters as bytes. -/
theorem byteCount_take_of_ascii {chars : List Char} (inside : offset ≤ byteCount chars)
    (ascii : ∀ byte ∈ (bytes chars).take offset, byte.toNat < 128) :
    byteCount (chars.take offset) = offset ∧ offset ≤ chars.length := by
  induction chars generalizing offset with
  | nil =>
      cases Nat.le_zero.mp inside
      exact ⟨rfl, Nat.le_refl 0⟩
  | cons c rest ih =>
      cases offset with
      | zero => exact ⟨rfl, Nat.zero_le _⟩
      | succ offset =>
          have single : c.toNat ≤ 127 := by
            by_contra several
            have nonempty : String.utf8EncodeChar c ≠ [] := String.utf8EncodeChar_ne_nil
            obtain ⟨byte, others, encoded⟩ := List.exists_cons_of_ne_nil nonempty
            have member : byte ∈ String.utf8EncodeChar c := by simp [encoded]
            have high := le_of_mem_utf8EncodeChar several member
            have low := ascii byte (by simp [bytes_cons, encoded])
            omega
          have size : c.utf8Size = 1 := by
            rw [← String.length_utf8EncodeChar, utf8EncodeChar_of_ascii single]
            rfl
          rw [bytes_cons, utf8EncodeChar_of_ascii single] at ascii
          rw [byteCount, size] at inside
          have later := ih (by omega) fun byte member => ascii byte (List.mem_cons_of_mem _ member)
          rw [List.take_succ_cons, byteCount, size, later.1, List.length_cons]
          omega

theorem sinceNewline_append (opened : before = [] ∨ ∃ rest, before = rest ++ ['\n'])
    (plain : '\n' ∉ start) : sinceNewline (before ++ start) = start := by
  have kept : ∀ c ∈ start.reverse, (c != '\n') = true := by
    intro c member
    rw [bne_iff_ne]
    rintro rfl
    exact plain (List.mem_reverse.mp member)
  rw [sinceNewline, List.rtakeWhile, List.reverse_append, List.takeWhile_append_of_pos kept,
    List.reverse_append, List.reverse_reverse]
  rcases opened with rfl | ⟨rest, rfl⟩
  · rfl
  · simp

/-- From the start of the line to an offset between two characters stand the characters after the
last newline. -/
theorem LineAt.slice? (locus : LineAt text offset before line after)
    (initial : start <+: text) (size : byteCount start = offset) :
    slice? text (byteCount before) offset = some (sinceNewline start) := by
  obtain ⟨whole, plain, opened, _, begins, ends⟩ := locus
  subst whole size
  have first : before <+: start := prefix_of_byteCount_le ⟨line ++ after, by simp⟩ initial begins
  obtain ⟨inLine, rfl⟩ := first
  have onLine : before ++ inLine <+: before ++ line :=
    prefix_of_byteCount_le initial ⟨after, rfl⟩ (by rw [byteCount_append before line]; exact ends)
  obtain ⟨rest, rfl⟩ := (List.prefix_append_right_inj before).mp onLine
  have clean : '\n' ∉ inLine := fun member => plain (List.mem_append_left _ member)
  rw [sinceNewline_append opened clean]
  exact slice?_eq_some_iff.mpr
    ⟨before, rest ++ after, by simp, rfl, (byteCount_append before inLine).symm⟩

end ErrorWrapping.Text
