import ErrorWrapping.Proofs.SortedEntries
import ErrorWrapping.Proofs.TextLines
import ErrorWrapping.Source.LineTable

/-
Line tables.

The table of a text lists where its lines start, one line after the other, since no character but
the newline has a newline byte. The starts increase, so halving the table finds the line that one
reaches by walking through the text line by line.
-/

namespace ErrorWrapping

namespace Text

variable {rows : List (List Char)} {line : List Char} {index : Nat}

/-- Where lines start that follow each other from an offset on. -/
def rowStarts : Nat → List (List Char) → List Nat
  | _, [] => []
  | offset, row :: rest => offset :: rowStarts (offset + (byteCount row + 1)) rest

theorem getElem?_rowStarts (offset : Nat) (rows : List (List Char)) (index : Nat) :
    (rowStarts offset rows)[index]? = (lineStart? rows index).map (offset + ·) := by
  induction rows generalizing offset index with
  | nil => rfl
  | cons row rest ih =>
      cases index with
      | zero => rfl
      | succ index =>
          rw [rowStarts, List.getElem?_cons_succ, ih, lineStart?, Option.map_map]
          congr 1
          funext start
          exact (Nat.add_assoc ..).trans (congrArg _ (Nat.add_comm ..))

theorem pairwise_rowStarts (offset : Nat) (rows : List (List Char)) :
    (rowStarts offset rows).Pairwise (· < ·) ∧ ∀ start ∈ rowStarts offset rows, offset ≤ start := by
  induction rows generalizing offset with
  | nil => exact ⟨.nil, fun _ impossible => nomatch impossible⟩
  | cons row rest ih =>
      obtain ⟨increasing, beyond⟩ := ih (offset + (byteCount row + 1))
      refine ⟨.cons (fun start member => ?_) increasing, fun start member => ?_⟩
      · exact Nat.lt_of_lt_of_le (by omega) (beyond start member)
      · rcases List.mem_cons.mp member with rfl | later
        · exact Nat.le_refl _
        · exact Nat.le_trans (by omega) (beyond start later)

/-- A line reached by walking starts at or before the offset, and the next one after it. -/
theorem lineOf_bounds (nonempty : rows ≠ []) (offset : Nat) :
    ∃ start, lineStart? rows (lineOf rows offset).1 = some start ∧ start ≤ offset ∧
      ∀ next, lineStart? rows ((lineOf rows offset).1 + 1) = some next → offset < next := by
  induction rows generalizing offset with
  | nil => exact absurd rfl nonempty
  | cons first rest ih =>
      by_cases more : rest = []
      · subst more
        exact ⟨0, rfl, Nat.zero_le _, fun next impossible => nomatch impossible⟩
      · rw [lineOf_cons first more]
        by_cases onFirst : offset ≤ byteCount first
        · rw [if_pos onFirst]
          refine ⟨0, rfl, Nat.zero_le _, fun next found => ?_⟩
          obtain ⟨start, _, rfl⟩ := Option.map_eq_some_iff.mp found
          omega
        · rw [if_neg onFirst]
          obtain ⟨start, found, from_, upTo⟩ := ih more (offset - (byteCount first + 1))
          refine ⟨start + (byteCount first + 1), ?_, by omega, fun next further => ?_⟩
          · exact congrArg (Option.map (· + (byteCount first + 1))) found
          · obtain ⟨later, beyond, rfl⟩ := Option.map_eq_some_iff.mp further
            have below := upTo later beyond
            omega

theorem lineStart?_eq_none (beyond : rows.length ≤ index) : lineStart? rows index = none := by
  induction rows generalizing index with
  | nil => rfl
  | cons first rest ih =>
      cases index with
      | zero => cases beyond
      | succ index => rw [lineStart?, ih (Nat.le_of_succ_le_succ beyond), Option.map_none]

theorem above_next (found : rows[index]? = some line) :
    above rows (index + 1) = above rows index ++ (line ++ ['\n']) := by
  rw [above, List.take_add_one, found, Option.toList_some, List.flatMap_append, List.flatMap_singleton]
  rfl

end Text

namespace LineTable

open Text

variable {text : List Char} {line : List Char} {index : Nat}

theorem scan_append {front : List UInt8} (plain : newline ∉ front) (offset : Nat)
    (starts : Array Nat) (rest : List UInt8) :
    scan offset starts (front ++ rest) = scan (offset + front.length) starts rest := by
  induction front generalizing offset with
  | nil => rfl
  | cons byte front ih =>
      rw [List.mem_cons, not_or] at plain
      rw [List.cons_append, scan, if_neg (Ne.symm plain.1), ih plain.2, List.length_cons,
        Nat.add_right_comm, Nat.add_assoc]

theorem toList_scan (offset : Nat) (starts : Array Nat) :
    (scan offset starts (bytes text)).toList =
      starts.toList ++ (rowStarts offset (lines text)).tail := by
  induction text generalizing offset starts with
  | nil => exact (List.append_nil _).symm
  | cons c rest ih =>
      rw [bytes_cons]
      by_cases isNewline : c = '\n'
      · subst isNewline
        -- The newline is a single byte, behind which the next line starts.
        have single : String.utf8EncodeChar '\n' = [newline] := utf8EncodeChar_of_ascii (by decide)
        rw [single, List.singleton_append, scan, if_pos rfl, ih, Array.toList_push, lines,
          if_pos rfl, rowStarts, List.tail_cons, List.append_assoc]
        cases some : lines rest with
        | nil => exact absurd some (lines_ne_nil rest)
        | cons row others => rfl
      · rw [scan_append (newline_not_mem_utf8EncodeChar isNewline), ih,
          String.length_utf8EncodeChar, lines, if_neg isNewline]
        cases some : lines rest with
        | nil => exact absurd some (lines_ne_nil rest)
        | cons row others =>
            simp only [rowStarts, List.tail_cons, byteCount]
            congr 2
            omega

theorem toList_starts (text : List Char) :
    (build text).starts.toList = rowStarts 0 (lines text) := by
  rw [build, toList_scan]
  cases some : lines text with
  | nil => exact absurd some (lines_ne_nil text)
  | cons row others => rfl

/-- The table says where each line of the text starts. -/
theorem getElem?_starts (text : List Char) (index : Nat) :
    (build text).starts[index]? = lineStart? (lines text) index := by
  rw [← Array.getElem?_toList, toList_starts, getElem?_rowStarts]
  simp

theorem increasing_starts (text : List Char) : (build text).starts.toList.Pairwise (· < ·) := by
  rw [toList_starts]
  exact (pairwise_rowStarts 0 (lines text)).1

/-- The line that is found by halving the table is the one that is reached line by line. -/
theorem indexOf_build (text : List Char) (offset : Nat) :
    (build text).indexOf offset = (lineOf (lines text) offset).1 := by
  obtain ⟨start, found, from_, upTo⟩ := lineOf_bounds (lines_ne_nil text) offset
  rw [← getElem?_starts] at found
  simp only [← getElem?_starts] at upTo
  rcases Sorted.search_cases (increasing_starts text) found from_ upTo with here | after
  · rw [indexOf, here]
  · rw [indexOf, after]
    exact Nat.add_sub_cancel ..

theorem start?_build (text : List Char) (line : Nat) :
    (build text).start? line = if line = 0 then none else lineStart? (lines text) (line - 1) := by
  rw [start?, getElem?_starts]

/-- A line ends one byte before the next one starts, and the last one where the text ends. -/
theorem stop_build (found : (lines text)[index]? = some line) :
    (build text).stop index (byteCount text) =
      byteCount (above (lines text) index) + byteCount line := by
  rw [stop, getElem?_starts]
  cases next : (lines text)[index + 1]? with
  | none =>
      have isLast := List.getElem?_eq_none_iff.mp next
      have whole := join_eq found
      rw [join_lines, below, List.drop_eq_nil_of_le isLast, List.flatMap_nil,
        List.append_nil] at whole
      rw [lineStart?_eq_none isLast, ← byteCount_append, ← whole]
  | some row =>
      have size : byteCount (above (lines text) (index + 1)) =
          byteCount (above (lines text) index) + byteCount line + 1 := by
        rw [above_next found, byteCount_append, byteCount_append, Nat.add_assoc]
        rfl
      rw [lineStart?_eq next, size]
      rfl

end LineTable

end ErrorWrapping
