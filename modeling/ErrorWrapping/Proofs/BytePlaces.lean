import ErrorWrapping.Proofs.FileRanges
import Mathlib.Data.Set.Function

/-
Places by byte columns.

A place is a line of a file and a byte column of that line, the column just past its last byte
included. Places and offsets correspond to each other one to one, and showing the offset of a
place gives its line back, and its column where every character before it is a single byte.
-/

namespace ErrorWrapping

/-- A line and a byte column of a file, both counted from one. -/
structure BytePlace where
  file : FileId
  line : Nat
  column : Nat
  deriving DecidableEq

namespace FileSet

/-- A place of the set, with the file and the line that it is in. -/
structure Holds (set : FileSet) (place : BytePlace) (source : SourceFile) (row : List Char) :
    Prop where
  file : set.files[place.file.index]? = some source
  line : 1 ≤ place.line ∧ (source.text.splitOn '\n')[place.line - 1]? = some row
  column : 1 ≤ place.column ∧ place.column ≤ Text.byteCount row + 1

def offsetOf? (set : FileSet) (place : BytePlace) : Option Nat :=
  set.offset? place.file place.line place.column

section

variable {set : FileSet} {place : BytePlace} {source : SourceFile} {row : List Char}

def bytesBefore (source : SourceFile) (place : BytePlace) : Nat :=
  Text.byteCount (Text.above (Text.lines source.text) (place.line - 1)) + (place.column - 1)

theorem Holds.found (holds : set.Holds place source row) :
    (Text.lines source.text)[place.line - 1]? = some row := by
  rw [Text.lines_eq_splitOn]
  exact holds.line.2

theorem Holds.fits (holds : set.Holds place source row) :
    place.column - 1 ≤ Text.byteCount row :=
  Nat.sub_le_of_le_add holds.column.2

theorem Holds.bytesBefore_le (holds : set.Holds place source row) :
    bytesBefore source place ≤ source.size := by
  have whole := Text.join_eq holds.found
  rw [Text.join_lines, List.append_assoc] at whole
  have size := congrArg Text.byteCount whole
  rw [Text.byteCount_append, Text.byteCount_append] at size
  have fits := holds.fits
  rw [bytesBefore, SourceFile.size]
  omega

theorem Holds.offsetOf? (holds : set.Holds place source row) :
    set.offsetOf? place = some (source.base + bytesBefore source place) := by
  have start : source.lines.start? place.line =
      some (Text.byteCount (Text.above (Text.lines source.text) (place.line - 1))) := by
    rw [source.built, LineTable.start?_build, if_neg (Nat.ne_of_gt holds.line.1),
      Text.lineStart?_eq holds.found]
  have fits := holds.bytesBefore_le
  rw [bytesBefore] at fits
  have positive : 0 < place.column := holds.column.1
  simp [FileSet.offsetOf?, offset?, holds.file, start, fits, positive, bytesBefore]

theorem Holds.lineOf (holds : set.Holds place source row) :
    Text.lineOf (Text.lines source.text) (bytesBefore source place) =
      (place.line - 1, place.column - 1) :=
  Text.lineOf_eq holds.found holds.fits

theorem Holds.mem_range (holds : set.Holds place source row) :
    source.base + bytesBefore source place ∈ source.range :=
  ⟨Nat.le_add_right _ _, Nat.add_le_add_left holds.bytesBefore_le _⟩

variable {files : List (String × String)}

theorem Holds.found_layout (holds : (ofList files).Holds place source row) :
    (layout 1 files)[place.file.index]? = some source := by
  rw [← files_ofList, Array.getElem?_toList]
  exact holds.file

theorem Holds.unique {other : BytePlace} {otherSource : SourceFile} {otherRow : List Char}
    (holds : (ofList files).Holds place source row)
    (also : (ofList files).Holds other otherSource otherRow)
    (same : (ofList files).offsetOf? place = (ofList files).offsetOf? other) : place = other := by
  rw [holds.offsetOf?, also.offsetOf?, Option.some.injEq] at same
  have inside := holds.mem_range
  rw [same] at inside
  have index := index_unique holds.found_layout also.found_layout inside also.mem_range
  have found := holds.found_layout
  rw [index, also.found_layout] at found
  cases found
  have number := holds.lineOf
  rw [Nat.add_left_cancel same, also.lineOf, Prod.mk.injEq] at number
  obtain ⟨⟨file⟩, line, column⟩ := place
  obtain ⟨⟨otherFile⟩, otherLine, otherColumn⟩ := other
  have positive := holds.line.1
  have alsoPositive := also.line.1
  have columns := holds.column.1
  have alsoColumns := also.column.1
  simp only [BytePlace.mk.injEq, FileId.mk.injEq] at *
  omega

/-- Every offset of the files is the offset of a place. -/
theorem exists_holds {offset : Nat} (from_ : 1 ≤ offset) (upTo : offset ≤ extent files) :
    ∃ place source row, (ofList files).Holds place source row ∧
      (ofList files).offsetOf? place = some offset := by
  obtain ⟨source, member, within, fits, rfl⟩ := exists_within from_ upTo
  obtain ⟨file, found⟩ := List.getElem?_of_mem member
  rw [← files_ofList, Array.getElem?_toList] at found
  have inside := fits
  rw [SourceFile.size, ← Text.join_lines source.text] at inside
  obtain ⟨index, row, column, onRow, fitsRow, rfl⟩ :=
    Text.exists_line (Text.lines_ne_nil source.text) inside
  have holds : (ofList files).Holds ⟨⟨file⟩, index + 1, column + 1⟩ source row :=
    ⟨found, ⟨Nat.succ_pos index, by rw [← Text.lines_eq_splitOn]; exact onRow⟩,
      Nat.succ_pos column, Nat.succ_le_succ fitsRow⟩
  exact ⟨_, source, row, holds, holds.offsetOf?⟩

/-- The line is shown as it was given, and so is the column if only single bytes stand before. -/
theorem Holds.locate? (holds : (ofList files).Holds place source row) :
    ∃ location, (ofList files).locate? (source.base + bytesBefore source place) = some location ∧
      location.path = source.path ∧ location.line = place.line ∧
      ((∀ byte ∈ (Text.bytes row).take (place.column - 1), byte.toNat < 128) →
        location.column = place.column) := by
  have member := List.mem_of_getElem? holds.found_layout
  refine ⟨_, locate?_of_line (fileOf?_of_mem member holds.mem_range) holds.found rfl holds.fits
    holds.bytesBefore_le, rfl, Nat.sub_add_cancel holds.line.1, fun ascii => ?_⟩
  obtain ⟨size, long⟩ := Text.byteCount_take_of_ascii holds.fits ascii
  have whole := Text.join_eq holds.found
  rw [Text.join_lines] at whole
  have cut : Text.slice? source.text
      (Text.byteCount (Text.above (Text.lines source.text) (place.line - 1)))
      (bytesBefore source place) = some (row.take (place.column - 1)) := by
    refine Text.slice?_eq_some_iff.mpr ⟨_, row.drop (place.column - 1) ++
      Text.below (Text.lines source.text) (place.line - 1), ?_, rfl, by rw [size, bytesBefore]⟩
    rw [List.append_assoc, ← List.append_assoc (row.take _), List.take_append_drop,
      ← List.append_assoc]
    exact whole
  rw [cut, Option.map_some, Option.getD_some, List.length_take_of_le long]
  exact Nat.sub_add_cancel holds.column.1

end

/-- Places and offsets correspond one to one, and an offset is shown in the line of its place. -/
theorem offsetOf?_bijOn_locate? (files : List (String × String)) :
    Set.BijOn (ofList files).offsetOf?
        {place | ∃ source row, (ofList files).Holds place source row}
        (some '' Set.Icc 1 (extent files)) ∧
      ∀ place source row, (ofList files).Holds place source row →
        ∃ offset location, (ofList files).offsetOf? place = some offset ∧
          (ofList files).locate? offset = some location ∧
          location.path = source.path ∧ location.line = place.line ∧
          ((∀ byte ∈ (Text.bytes row).take (place.column - 1), byte.toNat < 128) →
            location.column = place.column) := by
  refine ⟨⟨?_, ?_, ?_⟩, fun place source row holds => ?_⟩
  · rintro place ⟨source, row, holds⟩
    have member := List.mem_of_getElem? holds.found_layout
    exact ⟨_, covers_layout.mp ⟨source, member, holds.mem_range⟩, holds.offsetOf?.symm⟩
  · rintro place ⟨source, row, holds⟩ other ⟨otherSource, otherRow, also⟩ same
    exact holds.unique also same
  · rintro _ ⟨offset, ⟨from_, upTo⟩, rfl⟩
    obtain ⟨place, source, row, holds, same⟩ := exists_holds from_ upTo
    exact ⟨place, ⟨source, row, holds⟩, same⟩
  · obtain ⟨location, found, shown⟩ := holds.locate?
    exact ⟨_, location, holds.offsetOf?, found, shown⟩

namespace accented

/-- A character of two bytes, a newline at the end of a file, and an empty file. -/
def files : List (String × String) := [("a.go", "ab\ncéd\n"), ("b.go", "")]

def place : BytePlace := ⟨⟨0⟩, 2, 2⟩

def source : SourceFile := .ofText "a.go" "ab\ncéd\n" 1

theorem holds : (ofList files).Holds place source ['c', 'é', 'd'] :=
  ⟨rfl, ⟨by decide, by decide⟩, by decide⟩

theorem shown_in_place :
    (ofList files).Holds place source ['c', 'é', 'd'] ∧
      ∃ location, (ofList files).locate? 5 = some location ∧ location.path = "a.go" ∧
        location.line = 2 ∧ location.column = 2 := by
  obtain ⟨offset, location, same, found, path, line, column⟩ :=
    (offsetOf?_bijOn_locate? files).2 _ _ _ holds
  have five : (ofList files).offsetOf? place = some 5 := by decide
  cases five.symm.trans same
  exact ⟨holds, location, found, path, line, column (by decide +kernel)⟩

end accented

end FileSet

end ErrorWrapping
